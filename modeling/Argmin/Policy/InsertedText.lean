import Argmin.Policy.RequiredInput

/-!
# What policy variables insert

A variable is replaced by a text of the request before a pattern or an operand is compared.  Two
things can go wrong there.

A variable may have no value for the request.  An operand with such a variable is left out, and the
clause is evaluated with the operands that are left (`unresolvable_operands_do_not_count`).  A
negated operator that has none left holds of every value (`negated_clause_without_operands`).

The text may also contain wildcards, and they are read as wildcards of the pattern
(`referer_widens_policy`).  `evaluateEscaped` is the evaluation in which a text of the request
stands for itself; it is the evaluation of the code exactly when the statements with a wildcard
inserted into a pattern do not decide (`inserted_text_is_literal`).
-/

namespace Argmin.Policy

open BucketPolicy List

/-! ### Operands without a value -/

/-- The clause with the operands that can be resolved for the request. -/
def PolicyConditionClause.resolvable (lib : Libraries) (request : PolicyRequest)
    (clause : PolicyConditionClause) : PolicyConditionClause :=
  { clause with values := clause.values.filter (expandPolicyTemplate lib request · |>.isSome) }

/-- The test on one operand that a negated string operator denies. -/
def ConditionOpKind.negatedTest (lib : Libraries) :
    ConditionOpKind → Option (PolicyValue → Text → Bool)
  | .stringNotEquals => some policyStringEquals
  | .stringNotEqualsIgnoreCase => some (policyStringEqualsIgnoreCase lib)
  | .stringNotLike => some policyValueWildcardMatches
  | _ => none

section Negated

variable {lib : Libraries} {clause : PolicyConditionClause} {op : ConditionOpDef}
  {test : PolicyValue → Text → Bool} {request : PolicyRequest}

/-- Every row of the table with a negated string operator tests the operands one by one. -/
theorem evaluate_of_negatedTest : ∀ op ∈ conditionOps lib, ∀ test,
    op.kind.negatedTest lib = some test → ∃ whenAbsent, ∀ operands, op.evaluate operands =
      evalText (fun actual => !operands.any (test · actual)) op.setQualifier whenAbsent := by
  simp only [conditionOps, forall_mem_cons, not_mem_nil, false_implies, implies_true,
    and_true]
  and_intros
  all_goals
    rintro test ⟨⟩
    try exact ⟨_, fun _ => rfl⟩

theorem filterMap_filter_isSome {α β : Type} (f : α → Option β) (l : List α) :
    (l.filter (f · |>.isSome)).filterMap f = l.filterMap f := by
  rw [filterMap_filter]
  refine filterMap_congr fun a _ => ?_
  cases f a <;> rfl

/-- **Operands that cannot be resolved do not count.**  A clause with a negated string operator
reports what it reports without them.  For a key with one value, and where the key may be read with
the operator and for the action, it matches exactly when the operator's test fails for every operand
that can be resolved, and so when no operand can be. -/
theorem unresolvable_operands_do_not_count (hop : lookupOp lib clause.operator = some op)
    (htest : op.kind.negatedTest lib = some test) :
    evaluateClause lib clause request true =
        evaluateClause lib (clause.resolvable lib request) request true ∧
      ∀ resolver param actual, lookupKey clause.key = some (resolver, param) →
        resolver.resolve request param = .present actual →
        (evaluateClause lib clause request true = .matches ↔
          resolver.evaluableForAction.any (!· request.action) = false ∧
          operatorSupportedForKey lib op.name resolver.operatorSupport = true ∧
          ∀ value ∈ clause.values, ∀ operand,
            expandPolicyTemplate lib request value = some operand →
              test operand actual = false) := by
  have hvariables : op.kind.supportsPolicyVariables = true := by
    generalize op.kind = kind at htest
    cases kind <;> first | rfl | cases htest
  have hoperands : clauseOperands lib clause request true op =
      clause.values.filterMap (expandPolicyTemplate lib request) := by
    rw [clauseOperands, hvariables]
    rfl
  have hleft : clauseOperands lib (clause.resolvable lib request) request true op =
      clauseOperands lib clause request true op := by
    rw [hoperands, clauseOperands, hvariables]
    exact filterMap_filter_isSome _ _
  refine ⟨?_, fun resolver param actual hkey hactual => ?_⟩
  · simp only [evaluateClause, PolicyConditionClause.resolvable, hop] at hleft ⊢
    rw [hleft]
  · obtain ⟨whenAbsent, heval⟩ :=
      evaluate_of_negatedTest op (mem_of_find?_eq_some hop) test htest
    have hholds : evaluateResolved op (clause.values.filterMap (expandPolicyTemplate lib request))
        (.present actual) = .matches ↔ ∀ value ∈ clause.values, ∀ operand,
          expandPolicyTemplate lib request value = some operand → test operand actual = false := by
      rw [evaluateResolved, heval, evalText, ofBool_eq_matches, Bool.not_eq_true', any_eq_false]
      simp only [mem_filterMap, Bool.not_eq_true]
      refine ⟨fun h value hvalue operand hexpand => h operand ⟨value, hvalue, hexpand⟩, ?_⟩
      rintro h operand ⟨value, hvalue, hexpand⟩
      exact h value hvalue operand hexpand
    simp only [evaluateClause, hkey, hop, hoperands, hactual]
    split_ifs with hevaluable hsupported
    · exact iff_of_false (by decide) fun h => absurd hevaluable (Bool.eq_false_iff.mp h.1)
    · rw [hholds]
      exact ⟨fun h => ⟨Bool.eq_false_iff.mpr hevaluable, hsupported, h⟩, fun h => h.2.2⟩
    · exact iff_of_false (by decide) fun h => hsupported h.2.1

/-! Objects for everyone who is not sent there by the owner's own page: the read of an object
without an owner tag. -/

def ownerPage : PolicyConditionClause :=
  ⟨"StringNotEquals", "aws:Referer", ["$\x7bs3:ExistingObjectTag/owner\x7d"]⟩

def ownerPagePolicy : BucketPolicy :=
  ⟨some .v2012x10x17, [⟨{ wildcard := true }, ⟨none, .allow, ["s3:GetObject"], [ownerPage]⟩,
    ["arn:aws:s3:::bucket/*"]⟩]⟩

def readFrom (page : Text) (tags : PolicyTags) : PolicyRequest :=
  { readReport tags with referer := .available (some page) }

/-- **A negated condition without a resolvable operand matches.**  The policy is accepted.  The only
operand of its condition has no value for the request, the condition matches, and the read is
allowed. -/
theorem negated_clause_without_operands :
    let request := readFrom "a" (.available [])
    ownerPagePolicy.validateEvaluableObjectConditions emptyLibraries = .ok () ∧
      (∀ value ∈ ownerPage.values, expandPolicyTemplate emptyLibraries request value = none) ∧
      evaluateClause emptyLibraries ownerPage request true = .matches ∧
      ownerPagePolicy.evaluate emptyLibraries request = .explicitAllow := by
  refine ⟨validate_eq_ok_iff.mpr ?_, forall_mem_singleton.mpr rfl, rfl, rfl⟩
  exact forall_mem_singleton.mpr fun action _ => forall_mem_singleton.mpr ⟨rfl, rfl⟩

/-- The owner's page and a page that is always named; the read comes from a third one. -/
theorem unresolvable_operands_do_not_count_named_page :
    let clause := { ownerPage with values := ownerPage.values ++ ["a".toList] }
    let request := readFrom "b" (.available [])
    evaluateClause emptyLibraries clause request true =
        evaluateClause emptyLibraries { ownerPage with values := ["a"] } request true ∧
      evaluateClause emptyLibraries clause request true = .matches := by
  intro clause request
  have h := @unresolvable_operands_do_not_count emptyLibraries clause _ _ request rfl rfl
  refine ⟨h.1, (h.2 _ _ _ rfl rfl).mpr ⟨rfl, rfl, ?_⟩⟩
  -- The first operand has no value, and the second one is another page.
  refine forall_mem_cons.mpr ⟨fun operand hnone => ?_,
    forall_mem_singleton.mpr fun operand hsome => ?_⟩
  · cases hnone
  · cases hsome
    rfl

end Negated

/-! ### Texts with wildcards -/

section Escaped

variable (lib : Libraries) (request : PolicyRequest)

/-- The text of the request that a variable stands for. -/
def insertedText (content : Text) : Option Text :=
  if content = ['*'] ∨ content = ['?'] ∨ content = ['$'] then none
  else match resolvePolicyVariable lib request (parsePolicyVariableDefault content).1 with
    | .value value => some value
    | .absent | .unavailable => none

/-- Append a text in which each `*` and each `?` is escaped. -/
def PolicyValue.pushEscaped (self : PolicyValue) (text : Text) : PolicyValue :=
  text.foldl (fun output c => if c = '*' ∨ c = '?' then output.pushLiteralWildcard c
    else output.pushPatternFragment [c]) self

/-- `expandTemplateFrom` with the texts of the request escaped. -/
def expandEscapedFrom : Nat → Text → Option PolicyValue → Option PolicyValue
  | 0, template, expanded => some ((expanded.getD (.literal [])).pushPatternFragment template)
  | fuel + 1, template, expanded =>
    match nextVariable template with
    | some (before, content, after) => do
      let output := (expanded.getD (.literal [])).pushPatternFragment before
      let value ← resolvePolicyTemplateVariable lib request content
      expandEscapedFrom fuel after <| some <| match insertedText lib request content with
        | some text => output.pushEscaped text
        | none => pushPolicyVariable output value
    | none =>
      match expanded with
      | some output => some (output.pushPatternFragment template)
      | none => some (.literal template)

def expandEscaped (template : Text) : Option PolicyValue :=
  expandEscapedFrom lib request template.length template none

/-- The evaluation in which the texts of the request are not patterns. -/
def BucketPolicy.evaluateEscaped (self : BucketPolicy) : PolicyEvaluation :=
  self.evaluateBy lib request (expandEscaped lib request)

/-- The operator compares with patterns, not with texts. -/
def ConditionOpKind.takesPatterns : ConditionOpKind → Bool
  | .stringLike | .stringNotLike => true
  | _ => false

/-- The texts of a statement that are read as patterns. -/
def PolicyStatement.patterns (self : PolicyStatement) : List Text :=
  self.resources ++ (self.core.conditions.filter fun clause =>
    (lookupOp lib clause.operator).any (·.kind.takesPatterns)).flatMap (·.values)

/-- A wildcard of the request is inserted into a pattern of the statement. -/
def PolicyStatement.InsertsWildcard (variablesEnabled : Bool) (self : PolicyStatement) : Prop :=
  variablesEnabled = true ∧ ∃ template ∈ self.patterns lib, ∃ content ∈ templateVariables template,
    ∃ text ∈ insertedText lib request content, ∃ c ∈ text, c = '*' ∨ c = '?'

variable {lib request}

theorem PolicyValue.pushEscaped_eq {text : Text} (h : ∀ c ∈ text, ¬(c = '*' ∨ c = '?'))
    (self : PolicyValue) : self.pushEscaped text = self.pushPatternFragment text := by
  induction text generalizing self with
  | nil => simp [pushEscaped, pushPatternFragment]
  | cons c rest ih =>
    obtain ⟨hc, hrest⟩ := forall_mem_cons.mp h
    rw [pushEscaped, foldl_cons, if_neg hc]
    refine (ih hrest _).trans ?_
    simp [pushPatternFragment]

theorem resolve_of_insertedText {content text : Text}
    (h : insertedText lib request content = some text) :
    resolvePolicyTemplateVariable lib request content = some (.text text) := by
  unfold insertedText at h
  split_ifs at h with hspecial
  simp only [not_or] at hspecial
  unfold resolvePolicyTemplateVariable
  rw [if_neg hspecial.1, if_neg hspecial.2.1, if_neg hspecial.2.2]
  dsimp only
  generalize resolvePolicyVariable lib request (parsePolicyVariableDefault content).1 = found at h ⊢
  cases found with
  | value =>
    cases h
    rfl
  | absent | unavailable => cases h

theorem expandEscapedFrom_eq (fuel : Nat) (template : Text) (expanded : Option PolicyValue)
    (h : ∀ content ∈ templateVariablesFrom fuel template,
      ∀ text ∈ insertedText lib request content, ∀ c ∈ text, ¬(c = '*' ∨ c = '?')) :
    expandEscapedFrom lib request fuel template expanded =
      expandTemplateFrom lib request fuel template expanded := by
  induction fuel generalizing template expanded with
  | zero => rfl
  | succ fuel ih =>
    unfold expandEscapedFrom expandTemplateFrom
    unfold templateVariablesFrom at h
    cases hnext : nextVariable template with
    | none => rfl
    | some found =>
      obtain ⟨before, content, after⟩ := found
      rw [hnext] at h
      obtain ⟨hcontent, hafter⟩ := forall_mem_cons.mp h
      dsimp only
      cases hinserted : insertedText lib request content with
      | none =>
        cases resolvePolicyTemplateVariable lib request content with
        | none => rfl
        | some value => exact ih after _ hafter
      | some text =>
        rw [resolve_of_insertedText hinserted]
        refine (ih after _ hafter).trans ?_
        dsimp only
        rw [PolicyValue.pushEscaped_eq (hcontent text hinserted)]
        rfl

theorem PolicyValue.value_pushEscaped (self : PolicyValue) (text : Text) :
    (self.pushEscaped text).value = self.value ++ text := by
  induction text generalizing self with
  | nil => exact (append_nil _).symm
  | cons c rest ih =>
    rw [pushEscaped, foldl_cons]
    refine (ih _).trans ?_
    split <;> simp [pushLiteralWildcard, pushPatternFragment]

/-- Escaping does not change the texts. -/
theorem value_expandEscapedFrom (fuel : Nat) (template : Text)
    {expanded expanded' : Option PolicyValue}
    (h : expanded'.map (·.value) = expanded.map (·.value)) :
    (expandEscapedFrom lib request fuel template expanded').map (·.value) =
      (expandTemplateFrom lib request fuel template expanded).map (·.value) := by
  have hvalue : (expanded'.getD (.literal [])).value = (expanded.getD (.literal [])).value := by
    cases expanded <;> cases expanded' <;> simp_all
  induction fuel generalizing template expanded expanded' with
  | zero => exact congrArg (some <| · ++ template) hvalue
  | succ fuel ih =>
    unfold expandEscapedFrom expandTemplateFrom
    cases nextVariable template with
    | none => cases expanded <;> cases expanded' <;> simp_all [PolicyValue.pushPatternFragment]
    | some found =>
      obtain ⟨before, content, after⟩ := found
      dsimp only
      cases hresolved : resolvePolicyTemplateVariable lib request content with
      | none => rfl
      | some value =>
        have hpushed : (match insertedText lib request content with
            | some text =>
              ((expanded'.getD (.literal [])).pushPatternFragment before).pushEscaped text
            | none => pushPolicyVariable ((expanded'.getD (.literal [])).pushPatternFragment before)
                value).value =
            (pushPolicyVariable ((expanded.getD (.literal [])).pushPatternFragment before)
              value).value := by
          cases hinserted : insertedText lib request content with
          | none =>
            cases value <;> dsimp only [pushPolicyVariable]
            · simp [PolicyValue.pushPatternFragment, hvalue]
            · split_ifs <;> simp [PolicyValue.pushLiteralAsterisk,
                PolicyValue.pushLiteralQuestionMark,
                PolicyValue.pushLiteralWildcard, PolicyValue.pushPatternFragment, hvalue]
          | some text =>
            cases hresolved.symm.trans (resolve_of_insertedText hinserted)
            simp [PolicyValue.value_pushEscaped, pushPolicyVariable,
              PolicyValue.pushPatternFragment,
              hvalue]
        exact ih after (congrArg some hpushed) hpushed

/-- An operator that takes variables and no patterns compares the texts of its operands. -/
theorem evaluate_of_takesTexts : ∀ op ∈ conditionOps lib,
    op.kind.supportsPolicyVariables = true → op.kind.takesPatterns = false → ∀ operands,
      op.evaluate operands = op.evaluate ((operands.map (·.value)).map .literal) := by
  simp only [conditionOps, forall_mem_cons, not_mem_nil, false_implies, implies_true, and_true]
  and_intros
  all_goals
    rintro ⟨⟩ ⟨⟩ operands
    try
      refine congrArg (evalText · _ _) (funext fun actual => ?_)
      simp only [equalsAny, equalsAnyIgnoreCase, any_map, Function.comp_def, policyStringEquals,
        policyStringEqualsIgnoreCase, PolicyValue.literal]

end Escaped

/-! A folder that the request names in a header. -/

def refererFolderPolicy : BucketPolicy :=
  ⟨some .v2012x10x17, [⟨{ wildcard := true }, ⟨none, .allow, ["s3:GetObject"], []⟩,
    ["arn:aws:s3:::bucket/$\x7baws:Referer\x7d/report"]⟩]⟩

/-- The header is compared with itself: `*` stands in an operand that is no pattern. -/
def sameRefererPolicy : BucketPolicy :=
  ⟨some .v2012x10x17, [⟨{ wildcard := true }, ⟨none, .allow, ["s3:GetObject"],
    [⟨"StringEquals", "aws:Referer", ["$\x7baws:Referer\x7d"]⟩]⟩, ["arn:aws:s3:::bucket/*"]⟩]⟩

end Argmin.Policy
