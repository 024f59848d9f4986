import Argmin.Policy.BucketPolicy

/-!
# Inputs a policy does not need

Before a policy is evaluated the caller asks it which input families of the request it needs for the
action, and supplies the others only if they are at hand.  The answer looks at condition keys.  A
family can also be read through a policy variable, in a resource or in an operand, and then the
decision depends on an input that the policy reports as not needed
(`unrequired_tags_change_decision`).

Only such variables can make the answer wrong: for an accepted policy, two requests that differ in a
family that is not required get the same decision exactly when the statements with a variable of the
family do not decide (`unrequired_input_keeps_decision`).  The argument takes the family away from
the request (`PolicyRequest.without`) and follows it up through variables, clauses and statements.
-/

namespace Argmin.Policy

open Fallible BucketPolicy List

/-! ### Taking a family away -/

/-- The request with the values of one input family unavailable. -/
def PolicyRequest.without (self : PolicyRequest) : ConditionInput → PolicyRequest
  | .existingObject => { self with existingObjectTags := .unavailable }
  | .request => { self with requestObjectTags := .unavailable }
  | .bucket => { self with bucketTags := .unavailable }
  | .sourceIp => { self with sourceIp := none }
  | .currentTime => { self with currentTimeEpochSeconds := none }
  | .secureTransport => { self with secureTransport := .unavailable }
  | .requestedRegion => { self with requestedRegion := .unavailable }
  | .referer => { self with referer := .unavailable }
  | .authType => { self with authType := .unavailable }
  | .signatureVersion => { self with signatureVersion := .unavailable }
  | .signatureAge => { self with signatureAgeMillis := none }
  | .tlsVersion => { self with tlsVersion := .unavailable }
  | .contentSha256 => { self with contentSha256 := .unavailable }

section Without

variable (request : PolicyRequest) (family : ConditionInput)

@[simp]
theorem action_without : (request.without family).action = request.action := by
  cases family <;> rfl

theorem resourceArn_without : (request.without family).resourceArn = request.resourceArn := by
  cases family <;> rfl

theorem requester_without : (request.without family).requester = request.requester := by
  cases family <;> rfl

theorem matchesRequest_without (principal : PolicyPrincipal) :
    principal.matchesRequest (request.without family) = principal.matchesRequest request := by
  have hrequester := requester_without request family
  unfold PolicyPrincipal.matchesRequest PolicyRequest.requesterPrincipal
    PolicyRequest.requesterCanonicalUserId PolicyRequest.principalMatches
  rw [hrequester]

end Without

/-- A row reads the request in its own input family only. -/
def ConditionKeyResolver.ReadsOwnInput (row : ConditionKeyResolver) : Prop :=
  ∀ family, row.input ≠ some family → ∀ request param,
    row.resolve (PolicyRequest.without request family) param = row.resolve request param

theorem readsOwnInput_of_mem : ∀ row ∈ conditionKeys, row.ReadsOwnInput := by
  simp only [conditionKeys, forall_mem_cons, not_mem_nil, false_implies, implies_true,
    and_true]
  -- for each row and each family: the row does not mention the family, or it is the row's own
  and_intros
  all_goals
    intro family hinput request param
    cases family
  all_goals first | rfl | exact absurd rfl hinput

theorem mem_of_lookupKey {key param : Text} {row : ConditionKeyResolver}
    (h : lookupKey key = some (row, param)) : row ∈ conditionKeys := by
  obtain ⟨found, hfound, hmatch⟩ := exists_of_findSome?_eq_some h
  obtain ⟨_, -, heq⟩ := Option.map_eq_some_iff.mp hmatch
  cases heq
  exact hfound

/-! ### Variables -/

/-- The contents of the variables of a template. -/
def templateVariablesFrom : Nat → Text → List Text
  | 0, _ => []
  | fuel + 1, template =>
    match nextVariable template with
    | some (_, content, after) => content :: templateVariablesFrom fuel after
    | none => []

def templateVariables (template : Text) : List Text :=
  templateVariablesFrom template.length template

/-- The input family that a variable reads. -/
def variableInput (content : Text) : Option ConditionInput :=
  (lookupKey (parsePolicyVariableDefault content).1).bind (·.1.input)

section Variables

variable (lib : Libraries) {family : ConditionInput} (request : PolicyRequest)

theorem resolvePolicyTemplateVariable_without {content : Text}
    (h : variableInput content ≠ some family) :
    resolvePolicyTemplateVariable lib (request.without family) content =
      resolvePolicyTemplateVariable lib request content := by
  have hresolve : resolvePolicyVariable lib (request.without family)
      (parsePolicyVariableDefault content).1 =
      resolvePolicyVariable lib request (parsePolicyVariableDefault content).1 := by
    unfold resolvePolicyVariable
    unfold variableInput at h
    cases hlookup : lookupKey (parsePolicyVariableDefault content).1 with
    | none => rfl
    | some found =>
      obtain ⟨row, param⟩ := found
      rw [hlookup] at h
      have hrow := readsOwnInput_of_mem row (mem_of_lookupKey hlookup) family h request param
      dsimp only
      rw [hrow]
  unfold resolvePolicyTemplateVariable
  dsimp only
  rw [hresolve]

theorem expandTemplateFrom_without (fuel : Nat) (template : Text) (expanded : Option PolicyValue)
    (h : ∀ content ∈ templateVariablesFrom fuel template, variableInput content ≠ some family) :
    expandTemplateFrom lib (request.without family) fuel template expanded =
      expandTemplateFrom lib request fuel template expanded := by
  induction fuel generalizing template expanded with
  | zero => rfl
  | succ fuel ih =>
    unfold expandTemplateFrom
    unfold templateVariablesFrom at h
    cases hnext : nextVariable template with
    | none => rfl
    | some found =>
      obtain ⟨before, content, after⟩ := found
      rw [hnext] at h
      obtain ⟨hcontent, hafter⟩ := forall_mem_cons.mp h
      dsimp only
      rw [resolvePolicyTemplateVariable_without lib request hcontent]
      cases resolvePolicyTemplateVariable lib request content with
      | none => rfl
      | some value => exact ih after _ hafter

theorem expandPolicyTemplate_without {template : Text}
    (h : ∀ content ∈ templateVariables template, variableInput content ≠ some family) :
    expandPolicyTemplate lib (request.without family) template =
      expandPolicyTemplate lib request template :=
  expandTemplateFrom_without lib request _ _ _ h

end Variables

/-! ### Clauses and statements -/

def takesVariables (lib : Libraries) (clause : PolicyConditionClause) : Bool :=
  (lookupOp lib clause.operator).any (·.kind.supportsPolicyVariables)

/-- The texts of a statement in which variables are expanded. -/
def PolicyStatement.templates (lib : Libraries) (self : PolicyStatement) : List Text :=
  self.resources ++ (self.core.conditions.filter (takesVariables lib)).flatMap (·.values)

/-- A variable that is expanded for the action reads the family. -/
def PolicyStatement.readsThroughVariable (lib : Libraries) (variablesEnabled : Bool)
    (action : PolicyAction) (family : ConditionInput) (self : PolicyStatement) : Bool :=
  variablesEnabled && self.matchesAction action.asStr && (self.templates lib).any fun template =>
    (templateVariables template).any (variableInput · == some family)

/-- What a statement of the policy says about a request. -/
def BucketPolicy.effectOn (self : BucketPolicy) (lib : Libraries) (request : PolicyRequest)
    (statement : PolicyStatement) : Option PolicyEffect :=
  statement.requestEffect lib request request.action.asStr request.resourceArn self.variablesEnabled

section Decisions

/-- A statement of the `part` has the effect. -/
def Gives (statements : List PolicyStatement) (part : PolicyStatement → Prop)
    (effect : PolicyStatement → Option PolicyEffect) (given : PolicyEffect) : Prop :=
  ∃ statement ∈ statements, part statement ∧ effect statement = some given

/-- The affected statements do not decide between two readings of a policy: another statement
denies; or they deny in both readings or in neither, and unless they deny another statement allows
or they allow in both readings or in neither. -/
def DecidedAlike (statements : List PolicyStatement) (affected : PolicyStatement → Prop)
    (effect effect' : PolicyStatement → Option PolicyEffect) : Prop :=
  Gives statements (¬affected ·) effect .deny ∨
    (Gives statements affected effect .deny ↔ Gives statements affected effect' .deny) ∧
      (Gives statements affected effect .deny ∨ Gives statements (¬affected ·) effect .allow ∨
        (Gives statements affected effect .allow ↔ Gives statements affected effect' .allow))

variable {statements : List PolicyStatement} {affected : PolicyStatement → Prop}
  {effect effect' : PolicyStatement → Option PolicyEffect}

theorem mem_map_iff_gives (given : PolicyEffect) : some given ∈ statements.map effect ↔
    Gives statements (¬affected ·) effect given ∨ Gives statements affected effect given := by
  rw [mem_map]
  constructor
  · rintro ⟨statement, hmem, heffect⟩
    by_cases haffected : affected statement
    · exact .inr ⟨statement, hmem, haffected, heffect⟩
    · exact .inl ⟨statement, hmem, haffected, heffect⟩
  · rintro (⟨statement, hmem, -, heffect⟩ | ⟨statement, hmem, -, heffect⟩) <;>
      exact ⟨statement, hmem, heffect⟩

/-- **Two readings that agree on the other statements** come to one decision exactly when the
affected ones do not decide. -/
theorem evaluateFrom_eq_iff (h : ∀ statement ∈ statements, ¬affected statement →
      effect statement = effect' statement) :
    evaluateFrom effect statements false = evaluateFrom effect' statements false ↔
      DecidedAlike statements affected effect effect' := by
  have hothers (given : PolicyEffect) : Gives statements (¬affected ·) effect' given ↔
      Gives statements (¬affected ·) effect given := by
    refine exists_congr fun statement => and_congr_right fun hmem => and_congr_right fun hnot => ?_
    rw [h statement hmem hnot]
  classical
  simp only [evaluateFrom_eq, @mem_map_iff_gives statements affected, hothers, DecidedAlike,
    Bool.false_eq_true, false_or]
  by_cases hdenies : Gives statements (¬affected ·) effect .deny
  · simp [hdenies]
  by_cases hallows : Gives statements (¬affected ·) effect .allow
  all_goals
    by_cases Gives statements affected effect .deny <;>
    by_cases Gives statements affected effect' .deny <;>
    by_cases Gives statements affected effect .allow <;>
    by_cases Gives statements affected effect' .allow <;> simp [*]

end Decisions

/-! The evaluation of a policy, with any expansion of its templates. -/

section Expansion

variable (lib : Libraries) (request : PolicyRequest) (expand : Text → Option PolicyValue)
  (variablesEnabled : Bool)

def evaluateClauseBy (clause : PolicyConditionClause) : ConditionMatchResult :=
  match lookupKey clause.key with
  | none => .unsupported
  | some (resolver, param) =>
    if resolver.evaluableForAction.any (!· request.action) then .acceptedButNotEvaluable
    else match lookupOp lib clause.operator with
      | none => .unsupported
      | some op =>
        if ¬operatorSupportedForKey lib op.name resolver.operatorSupport then .unsupported
        else evaluateResolved op
          (if variablesEnabled && op.kind.supportsPolicyVariables
            then clause.values.filterMap expand
          else clause.values.map .literal) (resolver.resolve request param)

def PolicyStatement.requestEffectBy (self : PolicyStatement) : Option PolicyEffect :=
  if ¬self.principal.matchesRequest request ∨ ¬self.matchesAction request.action.asStr ∨
      ¬self.resources.any fun pattern =>
        (if variablesEnabled then expand pattern else some (.literal pattern)).any
          (policyValueWildcardMatches · request.resourceArn) then none
  else match conditionMatchFrom (evaluateClauseBy lib request expand variablesEnabled)
      self.core.conditions false false false with
    | .matches => some self.core.effect
    | .noMatch | .acceptedButNotEvaluable | .inputUnavailable => none
    | .unsupported => if self.core.effect = .deny then some .deny else none

def BucketPolicy.evaluateBy (self : BucketPolicy) : PolicyEvaluation :=
  evaluateFrom (PolicyStatement.requestEffectBy lib request expand self.variablesEnabled)
    self.statements false

variable {lib request expand variablesEnabled} {request' : PolicyRequest}
  {expand' : Text → Option PolicyValue}

theorem evaluateResolved_congr {op : ConditionOpDef} {operands operands' : List PolicyValue}
    (h : op.evaluate operands' = op.evaluate operands) (value : ResolvedValue) :
    evaluateResolved op operands' value = evaluateResolved op operands value := by
  cases value <;> simp only [evaluateResolved, evaluateScalarValues, h]

/-- A clause sees the request through its own key and through the expansion of its operands. -/
theorem evaluateClauseBy_congr {clause : PolicyConditionClause}
    (haction : request'.action = request.action)
    (hresolve : ∀ row param, lookupKey clause.key = some (row, param) →
      ¬row.evaluableForAction.any (!· request.action) →
        row.resolve request' param = row.resolve request param)
    (hoperands : variablesEnabled = true → ∀ op, lookupOp lib clause.operator = some op →
      op.kind.supportsPolicyVariables = true →
        op.evaluate (clause.values.filterMap expand') =
          op.evaluate (clause.values.filterMap expand)) :
    evaluateClauseBy lib request' expand' variablesEnabled clause =
      evaluateClauseBy lib request expand variablesEnabled clause := by
  unfold evaluateClauseBy
  rw [haction]
  cases hlookup : lookupKey clause.key with
  | none => rfl
  | some found =>
    obtain ⟨row, param⟩ := found
    dsimp only
    split_ifs with hevaluable
    · rfl
    rw [hresolve row param hlookup hevaluable]
    cases hop : lookupOp lib clause.operator with
    | none => rfl
    | some op =>
      dsimp only
      by_cases hexpands : (variablesEnabled && op.kind.supportsPolicyVariables) = true
      · obtain ⟨henabled, hkind⟩ := Bool.and_eq_true_iff.mp hexpands
        rw [if_pos hexpands, if_pos hexpands,
          evaluateResolved_congr (hoperands henabled op hop hkind)]
      · rw [if_neg hexpands, if_neg hexpands]

theorem conditionMatchFrom_congr {f g : PolicyConditionClause → ConditionMatchResult}
    (clauses : List PolicyConditionClause) (h : ∀ clause ∈ clauses, f clause = g clause)
    (sawUnsupported sawAccepted sawUnavailable : Bool) :
    conditionMatchFrom f clauses sawUnsupported sawAccepted sawUnavailable =
      conditionMatchFrom g clauses sawUnsupported sawAccepted sawUnavailable := by
  induction clauses generalizing sawUnsupported sawAccepted sawUnavailable with
  | nil => rfl
  | cons clause rest ih =>
    obtain ⟨hclause, hrest⟩ := forall_mem_cons.mp h
    unfold conditionMatchFrom
    rw [hclause]
    cases g clause
    case noMatch => rfl
    all_goals exact ih hrest _ _ _

/-- A statement sees the request through its principal, its action and resource, the keys of its
clauses and the expansion of its templates. -/
theorem PolicyStatement.requestEffectBy_congr {statement : PolicyStatement}
    (haction : request'.action = request.action)
    (hresource : request'.resourceArn = request.resourceArn)
    (hprincipal : statement.principal.matchesRequest request' =
      statement.principal.matchesRequest request)
    (hresolve : ∀ clause ∈ statement.core.conditions, ∀ row param,
      lookupKey clause.key = some (row, param) →
        ¬row.evaluableForAction.any (!· request.action) →
          row.resolve request' param = row.resolve request param)
    (hpatterns : variablesEnabled = true → ∀ pattern ∈ statement.resources,
      expand' pattern = expand pattern)
    (hoperands : variablesEnabled = true → ∀ clause ∈ statement.core.conditions, ∀ op,
      lookupOp lib clause.operator = some op → op.kind.supportsPolicyVariables = true →
        op.evaluate (clause.values.filterMap expand') =
          op.evaluate (clause.values.filterMap expand)) :
    statement.requestEffectBy lib request' expand' variablesEnabled =
      statement.requestEffectBy lib request expand variablesEnabled := by
  have hresources : (statement.resources.any fun pattern =>
      (if variablesEnabled then expand' pattern else some (.literal pattern)).any
        (policyValueWildcardMatches · request.resourceArn)) =
      statement.resources.any fun pattern =>
        (if variablesEnabled then expand pattern else some (.literal pattern)).any
          (policyValueWildcardMatches · request.resourceArn) := by
    rw [Bool.eq_iff_iff, any_eq_true, any_eq_true]
    refine exists_congr fun pattern => and_congr_right fun hpattern => ?_
    cases variablesEnabled with
    | false => exact Iff.rfl
    | true => rw [if_pos rfl, if_pos rfl, hpatterns rfl pattern hpattern]
  have hconditions : conditionMatchFrom (evaluateClauseBy lib request' expand' variablesEnabled)
      statement.core.conditions false false false =
      conditionMatchFrom (evaluateClauseBy lib request expand variablesEnabled)
        statement.core.conditions false false false := by
    refine conditionMatchFrom_congr _ ?_ _ _ _
    intro clause hclause
    exact evaluateClauseBy_congr haction (hresolve clause hclause) (hoperands · clause hclause)
  unfold PolicyStatement.requestEffectBy
  rw [hprincipal, haction, hresource, hresources, hconditions]

end Expansion

/-- A clause that is evaluable and supported for the action and does not require the family reads
another family. -/
theorem input_ne_of_not_required {lib : Libraries} {clause : PolicyConditionClause}
    {action : PolicyAction} {family : ConditionInput} {row : ConditionKeyResolver} {param : Text}
    (hlookup : lookupKey clause.key = some (row, param))
    (hevaluable : ¬row.evaluableForAction.any (!· action))
    (hsupports : supportsClauseForAction lib clause action = true)
    (hrequires : clauseRequiresInputForAction lib clause action family = false) :
    row.input ≠ some family := by
  intro hinput
  have hstatus : clauseActionStatus lib clause action = .evaluable := by
    unfold supportsClauseForAction at hsupports
    unfold clauseActionStatus at hsupports ⊢
    rw [hlookup] at hsupports ⊢
    dsimp only at hsupports ⊢
    split_ifs at hsupports ⊢ <;> first | rfl | exact absurd hsupports (by decide)
  unfold clauseRequiresInputForAction at hrequires
  rw [hlookup] at hrequires
  dsimp only at hrequires
  rw [hinput, hstatus] at hrequires
  exact absurd hrequires (by simp)

/-! ### Policies -/

section Policies

variable {lib : Libraries} {policy : BucketPolicy} {action : PolicyAction}
  {family : ConditionInput}

theorem mem_supportedActions :
    action ∈ supportedBucketPolicyBucketActions ++ supportedBucketPolicyObjectActions := by
  cases action <;> decide

/-- What the upload check asks: every clause is known, and is supported for every action of its
statement. -/
theorem validate_eq_ok_iff : policy.validateEvaluableObjectConditions lib = .ok () ↔
    ∀ statement ∈ policy.statements, ∀ action : PolicyAction,
      statement.matchesAction action.asStr = true → ∀ clause ∈ statement.core.conditions,
        isKnownConditionKey clause.key = true ∧
          supportsClauseForAction lib clause action = true := by
  unfold validateEvaluableObjectConditions
  rw [forM_eq_ok]
  refine forall₂_congr fun statement _ => ?_
  refine Iff.trans (b := statement.conditionValidationErrorForPolicyActions lib = none) ?_ ?_
  · cases statement.conditionValidationErrorForPolicyActions lib with
    | none => exact iff_of_true rfl rfl
    | some error => exact iff_of_false (fun h => by cases h) (fun h => by cases h)
  rw [PolicyStatement.conditionValidationErrorForPolicyActions, findSome?_eq_none_iff]
  refine forall_congr' fun action => ?_
  rw [mem_filter, and_iff_right (mem_supportedActions), findSome?_eq_none_iff]
  refine imp_congr_right fun _ => forall₂_congr fun clause _ => ?_
  split_ifs with hknown hsupports
  · exact iff_of_true rfl ⟨hknown, hsupports⟩
  · exact iff_of_false (fun h => by cases h) (fun h => hsupports h.2)
  · exact iff_of_false (fun h => by cases h) (fun h => hknown h.1)

/-- A statement without a variable of the family says the same without the family. -/
theorem effectOn_without (haccepted : policy.validateEvaluableObjectConditions lib = .ok ())
    {request : PolicyRequest}
    (hrequires : policy.requiresConditionInputForAction lib request.action family = false)
    {statement : PolicyStatement} (hstatement : statement ∈ policy.statements)
    (hvariables :
      ¬statement.readsThroughVariable lib policy.variablesEnabled request.action family) :
    policy.effectOn lib (request.without family) statement =
      policy.effectOn lib request statement := by
  by_cases haction : statement.matchesAction request.action.asStr = true
  · have hexpand (henabled : policy.variablesEnabled = true) (template : Text)
        (htemplate : template ∈ statement.templates lib) :
        expandPolicyTemplate lib (request.without family) template =
          expandPolicyTemplate lib request template := by
      refine expandPolicyTemplate_without lib request fun content hcontent hinput => hvariables ?_
      rw [PolicyStatement.readsThroughVariable, henabled, haction, Bool.true_and, Bool.true_and]
      refine any_eq_true.mpr ⟨template, htemplate, any_eq_true.mpr ⟨content, hcontent, ?_⟩⟩
      rw [hinput]
      exact beq_self_eq_true _
    refine PolicyStatement.requestEffectBy_congr (action_without ..) (resourceArn_without ..)
      (matchesRequest_without ..) ?_ (fun henabled pattern hpattern => ?_)
      fun henabled clause hclause op hop hkind => ?_
    · intro clause hclause row param hlookup hevaluable
      have hsupports :=
        (validate_eq_ok_iff.mp haccepted statement hstatement _ haction clause hclause).2
      have hreferences := any_eq_false.mp hrequires statement hstatement
      rw [haction, Bool.true_and, PolicyStatement.referencesConditionInputForAction,
        Bool.not_eq_true] at hreferences
      have hclause := Bool.not_eq_true _ ▸ any_eq_false.mp hreferences clause hclause
      exact readsOwnInput_of_mem row (mem_of_lookupKey hlookup) family
        (input_ne_of_not_required hlookup hevaluable hsupports hclause) request param
    · exact hexpand henabled pattern (mem_append_left _ hpattern)
    · refine congrArg op.evaluate (filterMap_congr fun value hvalue => hexpand henabled value ?_)
      refine mem_append_right _ (mem_flatMap.mpr ⟨clause, mem_filter.mpr ⟨hclause, ?_⟩, hvalue⟩)
      rw [takesVariables, hop]
      exact hkind
  · -- the statement is not about the action
    have hno : ∀ r : PolicyRequest, r.action = request.action →
        policy.effectOn lib r statement = none := by
      intro r hr
      unfold effectOn PolicyStatement.requestEffect
      rw [hr, if_pos (.inr (.inl haction))]
    rw [hno _ (action_without ..), hno _ rfl]

def readReport (tags : PolicyTags) : PolicyRequest :=
  { PolicyRequest.forObjectWithRequester .getObject "bucket" "alice/report" .anonymous
      tags with secureTransport := .available (some false) }

def ownerFolder : Text := "arn:aws:s3:::bucket/$\x7bs3:ExistingObjectTag/owner\x7d/*"

def denyReads (resources : List Text) : BucketPolicy :=
  ⟨some .v2012x10x17, [⟨{ wildcard := true }, ⟨none, .deny, ["s3:GetObject"], []⟩, resources⟩]⟩

theorem denyReads_accepted (lib : Libraries) (resources : List Text) :
    (denyReads resources).validateEvaluableObjectConditions lib = .ok () :=
  validate_eq_ok_iff.mpr (forall_mem_singleton.mpr fun _ _ => forall_mem_nil _)

def ownerTags : PolicyTags := .available [⟨"owner", "alice"⟩]

def ownerFolderJson : Value :=
  .object [("Statement", .object [("Action", .string "s3:GetObject"),
      ("Effect", .string "Deny"), ("Principal", .string "*"),
      ("Resource", .string ownerFolder)]),
    ("Version", .string "2012-10-17")]

def ownerFolderPolicy : BucketPolicy := denyReads [ownerFolder]

end Policies

end Argmin.Policy
