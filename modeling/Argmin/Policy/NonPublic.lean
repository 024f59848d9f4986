import Argmin.Policy.RequiredInput

/-!
# Policies that are not public

A policy is public when one of its Allow statements is open to everyone: its principals are not all
fixed and none of its condition clauses ties the request down.  For an anonymous request most
clauses that tie requests down do not match: the key is not evaluated, it has no value, or the
source address is in none of the operand networks.

The exception is `aws:userid` (`evaluateClause_eq_matches_iff`).  Its value for an anonymous request
is the text `anonymous`, so that a clause on it with this text as a fixed operand makes a policy
count as not public and is met by every anonymous request (`non_public_policy_allows_anonymous`).  A
policy that is not public gives nothing to the public exactly when such clauses open none of its
statements, or another statement denies (`non_public_gives_nothing`).
-/

namespace Argmin.Policy

open Fallible PolicyRequest List BitVec Bool

variable {row : ConditionKeyResolver} {op : ConditionOpDef} {clauses : List PolicyConditionClause}
  {statement : PolicyStatement} {key name pattern resource : Text}

/-! ### Networks -/

/-- The address is in the network: the first `bits` bits are those of the network's address. -/
def IpAddr.InNetwork (addr network : IpAddr) (bits : Nat) : Prop :=
  match addr, network with
  | .v4 a, .v4 n => a.toNat / 2 ^ (32 - bits) = n.toNat / 2 ^ (32 - bits)
  | .v6 a, .v6 n => a.toNat / 2 ^ (128 - bits) = n.toNat / 2 ^ (128 - bits)
  | _, _ => False

theorem prefixBits_eq_iff {w : Nat} (a b : BitVec w) {bits : Nat} :
    prefixBits a bits = prefixBits b bits ↔
      a.toNat / 2 ^ (w - bits) = b.toNat / 2 ^ (w - bits) := by
  by_cases hzero : bits = 0
  · subst hzero
    rw [Nat.sub_zero, Nat.div_eq_of_lt a.isLt, Nat.div_eq_of_lt b.isLt]
    exact iff_of_true rfl rfl
  · unfold prefixBits
    rw [if_neg hzero, if_neg hzero, ← Nat.shiftRight_eq_div_pow, ← Nat.shiftRight_eq_div_pow,
      ← toNat_ushiftRight, ← toNat_ushiftRight, ← toNat_eq]
    -- both sides say that the bits from `w - bits` on agree
    constructor
    · intro h
      refine eq_of_getLsbD_eq ?_
      intro i hi
      rw [getLsbD_ushiftRight, getLsbD_ushiftRight]
      by_cases hin : w - bits + i < w
      · have hbit := congrArg (getLsbD · (w - bits + i)) h
        simpa [hin, show ¬w - bits + i < w - bits by omega] using hbit
      · rw [getLsbD_of_ge _ _ (by omega), getLsbD_of_ge _ _ (by omega)]
    · intro h
      refine eq_of_getLsbD_eq ?_
      intro i hi
      by_cases hin : w - bits ≤ i
      · have hbit := congrArg (getLsbD · (i - (w - bits))) h
        rw [getLsbD_ushiftRight, getLsbD_ushiftRight,
          Nat.add_sub_cancel' hin] at hbit
        rw [getLsbD_and, getLsbD_and, hbit]
      · simp [show i < w - bits by omega]

theorem ipAddrMatchesCidr_iff (addr network : IpAddr) (bits : Nat) :
    ipAddrMatchesCidr addr network bits = true ↔ addr.InNetwork network bits := by
  cases addr <;> cases network
  case v4.v4 a n => exact beq_iff_eq.trans (prefixBits_eq_iff a n)
  case v6.v6 a n => exact beq_iff_eq.trans (prefixBits_eq_iff a n)
  all_goals exact iff_of_false (fun h => by cases h) id

/-! ### Looking a key up -/

/-- The row for a key that is given in lower case. -/
def rowFor (lowered : Text) : Option ConditionKeyResolver :=
  conditionKeys.find? fun row =>
    match row.key with
    | .exact name => lowered == toAsciiLowercase name
    | .startingWith start => lowered.take start.length == toAsciiLowercase start

theorem isSome_matchKey (m : KeyMatch) : (m.matchKey key).isSome = match m with
    | .exact name => toAsciiLowercase key == toAsciiLowercase name
    | .startingWith start =>
      (toAsciiLowercase key).take start.length == toAsciiLowercase start := by
  have hisSome : ∀ (b : Bool) (t : Text), (if b = true then some t else none).isSome = b := by
    intro b t
    cases b <;> rfl
  cases m with
  | exact name => exact hisSome _ _
  | startingWith start =>
    have hlower : toAsciiLowercase (key.take start.length) =
        (toAsciiLowercase key).take start.length := map_take
    dsimp only
    rw [← hlower]
    exact hisSome _ _

/-- Which row a key finds depends on its lower case only. -/
theorem map_fst_lookupKey (key : Text) :
    (lookupKey key).map (·.1) = rowFor (toAsciiLowercase key) := by
  unfold lookupKey rowFor
  induction conditionKeys with
  | nil => rfl
  | cons row rest ih =>
    rw [findSome?_cons, find?_cons, ← isSome_matchKey]
    cases row.key.matchKey key with
    | none => exact ih
    | some param => rfl

theorem lookupKey_of_rowFor (hkey : eqIgnoreAsciiCase key name = true)
    (hrow : rowFor (toAsciiLowercase name) = some row) :
    ∃ param, lookupKey key = some (row, param) := by
  have hfound := map_fst_lookupKey key
  rw [beq_iff_eq.mp hkey, hrow] at hfound
  obtain ⟨⟨_, param⟩, hlookup, rfl⟩ := Option.map_eq_some_iff.mp hfound
  exact ⟨param, hlookup⟩

theorem lookupKey_eq_none (hkey : eqIgnoreAsciiCase key name = true)
    (hrow : (rowFor (toAsciiLowercase name)).isNone = true) : lookupKey key = none := by
  have hfound := map_fst_lookupKey key
  rw [beq_iff_eq.mp hkey, Option.isNone_iff_eq_none.mp hrow] at hfound
  exact Option.map_eq_none_iff.mp hfound

/-- Keys other than the user id that keep a policy from being public, and that no row evaluates. -/
theorem rowFor_unevaluated : ∀ name ∈ ["aws:PrincipalOrgID", "aws:SourceVpce", "aws:SourceOwner",
    "aws:SourceAccount", "s3:DataAccessPointAccount", "aws:SourceArn", "s3:DataAccessPointArn"],
    (rowFor (toAsciiLowercase name.toList)).isNone = true ∧
      eqIgnoreAsciiCase name.toList "aws:userid" = false := by
  decide +kernel

/-! ### The operator of a clause

The names in the table of operators do not depend on the libraries, so that the place of an
operator is computed with the empty ones. -/

def conditionOpNames : List Text := (conditionOps emptyLibraries).map (·.name)

def conditionOpPlaces : List (String × Nat) :=
    [("StringEquals", 21), ("StringEqualsIgnoreCase", 25),
  ("StringLike", 37), ("ArnEquals", 20), ("IpAddress", 57), ("ForAnyValue:IpAddress", 59)]

theorem findIdx_of_mem_conditionOpPlaces : ∀ place ∈ conditionOpPlaces,
    conditionOpNames.findIdx (· == place.1.toList) = place.2 := by
  decide +kernel

theorem lookupOp_of_place {lib : Libraries} (name : String) (place : Nat)
    (hplace : (name, place) ∈ conditionOpPlaces)
    (hop : (conditionOps lib)[place]? = some op) : lookupOp lib name.toList = some op := by
  have hnames : (conditionOps lib).map (·.name) = conditionOpNames := rfl
  have hindex : conditionOpNames.findIdx (· == name.toList) = place :=
    findIdx_of_mem_conditionOpPlaces _ hplace
  unfold lookupOp
  rw [find?_eq_getElem?_findIdx, ← hop, ← hindex]
  rfl

/-! ### Clauses of an anonymous request -/

section Clauses

variable {lib : Libraries} {clause : PolicyConditionClause} {request : PolicyRequest}
  {variablesEnabled : Bool}

/-- A value without a variable is its own expansion. -/
theorem expandPolicyTemplate_of_isFixedValue {value : Text} (h : isFixedValue value = true) :
    expandPolicyTemplate lib request value = some (.literal value) := by
  obtain ⟨-, hmark⟩ := and_eq_true_iff.mp h
  have hnext : nextVariable value = none := by
    unfold nextVariable
    rw [Option.isNone_iff_eq_none.mp hmark]
    rfl
  unfold expandPolicyTemplate
  cases value.length with
  | zero => rfl
  | succ fuel =>
    unfold expandTemplateFrom
    rw [hnext]

theorem clauseOperands_of_isFixedValue (h : clause.values.all isFixedValue = true)
    (op : ConditionOpDef) :
    clauseOperands lib clause request variablesEnabled op = clause.values.map .literal := by
  unfold clauseOperands
  split_ifs
  · rw [← filterMap_eq_map]
    refine filterMap_congr ?_
    intro value hvalue
    exact expandPolicyTemplate_of_isFixedValue (all_eq_true.mp h value hvalue)
  · rfl

/-- A clause whose key is evaluated for every action. -/
theorem evaluateClause_eq {param : Text}
    (hkey : lookupKey clause.key = some (row, param)) (hrow : row.evaluableForAction = none)
    (hop : lookupOp lib clause.operator = some op)
    (hsupported : operatorSupportedForKey lib op.name row.operatorSupport = true) :
    evaluateClause lib clause request variablesEnabled =
      evaluateResolved op (clauseOperands lib clause request variablesEnabled op)
        (row.resolve request param) := by
  unfold evaluateClause
  rw [hkey]
  dsimp only
  rw [hrow, hop]
  dsimp only
  rw [if_neg (by exact false_ne_true), if_neg (not_not.mpr hsupported)]

/-- The operand stands for the user id of an anonymous request: the text itself, the text in any
case or a pattern of it. -/
def namesAnonymous (lib : Libraries) (operator value : Text) : Bool :=
  if operator = "StringEquals" then policyStringEquals (.literal value) "anonymous"
  else if operator = "StringEqualsIgnoreCase" then
    policyStringEqualsIgnoreCase lib (.literal value) "anonymous"
  else policyValueWildcardMatches (.literal value) "anonymous"

/-- The clause is on the user id, and an anonymous request meets it. -/
def PolicyConditionClause.metByAnonymous (lib : Libraries) (self : PolicyConditionClause) : Bool :=
  eqIgnoreAsciiCase self.key "aws:userid" && self.values.any (namesAnonymous lib self.operator)

theorem not_metByAnonymous (hkey : eqIgnoreAsciiCase clause.key name = true)
    (hname : eqIgnoreAsciiCase name "aws:userid" = false) :
    ¬clause.metByAnonymous lib = true := by
  intro hmet
  have huserid : eqIgnoreAsciiCase name "aws:userid" = true := by
    unfold eqIgnoreAsciiCase
    rw [← beq_iff_eq.mp hkey]
    exact (and_eq_true_iff.mp hmet).1
  exact false_ne_true (hname.symm.trans huserid)

theorem userid_eq_matches_iff (hanonymous : request.requester = .anonymous)
    (hkey : eqIgnoreAsciiCase clause.key "aws:userid" = true)
    (hoperator : clause.operator = "StringEquals" ∨
      clause.operator = "StringEqualsIgnoreCase" ∨ clause.operator = "StringLike")
    (hfixed : clause.values.all isFixedValue = true) :
    evaluateClause lib clause request variablesEnabled = .matches ↔
      clause.metByAnonymous lib = true := by
  obtain ⟨param, hlookup⟩ := lookupKey_of_rowFor hkey (by rfl)
  have huserid : resolveUserid request param = .present "anonymous" := by
    unfold resolveUserid requesterIsAnonymous
    rw [hanonymous]
    rfl
  have hmet : clause.metByAnonymous lib =
      clause.values.any (namesAnonymous lib clause.operator) := by
    rw [PolicyConditionClause.metByAnonymous, hkey, Bool.true_and]
  -- it is enough what the operator of the clause says of the text
  have hclause : ∀ op : ConditionOpDef, lookupOp lib op.name = some op →
      clause.operator = op.name → op.evaluableOnEvaluableObjectActions = true →
      op.kind.isString = true →
      op.evaluate (clause.values.map .literal) (.present "anonymous") =
        .ofBool (clause.values.any (namesAnonymous lib op.name)) →
      (evaluateClause lib clause request variablesEnabled = .matches ↔
        clause.metByAnonymous lib = true) := by
    intro op hop hname hevaluable hkind htext
    have hsupported : operatorSupportedForKey lib op.name .anyEvaluable = true := by
      unfold operatorSupportedForKey
      simp [hop, hevaluable, hkind]
    rw [evaluateClause_eq hlookup rfl (hname ▸ hop) hsupported,
      clauseOperands_of_isFixedValue hfixed]
    dsimp only
    rw [huserid]
    unfold evaluateResolved
    dsimp only
    rw [htext, ofBool_eq_matches, hmet, hname]
  rcases hoperator with hoperator | hoperator | hoperator
  · exact hclause ⟨"StringEquals", .none, .stringEquals, evalStringEquals, true⟩
      (lookupOp_of_place "StringEquals" 21 (by decide) rfl) hoperator rfl rfl
      (congrArg ConditionMatchResult.ofBool any_map)
  · exact hclause ⟨"StringEqualsIgnoreCase", .none, .stringEqualsIgnoreCase,
      evalStringEqualsIgnoreCase lib, true⟩
      (lookupOp_of_place "StringEqualsIgnoreCase" 25 (by decide) rfl) hoperator rfl rfl
      (congrArg ConditionMatchResult.ofBool any_map)
  · exact hclause ⟨"StringLike", .none, .stringLike, evalStringLike, true⟩
      (lookupOp_of_place "StringLike" 37 (by decide) rfl) hoperator rfl rfl
      (congrArg ConditionMatchResult.ofBool any_map)

theorem principalArn_ne_matches (hanonymous : request.requester = .anonymous)
    (hkey : eqIgnoreAsciiCase clause.key "aws:PrincipalArn" = true)
    (hoperator : clause.operator = "ArnEquals") :
    evaluateClause lib clause request variablesEnabled ≠ .matches := by
  obtain ⟨param, hlookup⟩ := lookupKey_of_rowFor hkey (by rfl)
  have habsent : resolvePrincipalArn request param = .absent := by
    unfold resolvePrincipalArn awsPrincipalArn requesterIsAnonymous
    rw [hanonymous]
    rfl
  have hop : lookupOp lib clause.operator =
      some ⟨"ArnEquals", .none, .arnEquals, evalStringEquals, true⟩ := by
    rw [hoperator]
    exact lookupOp_of_place "ArnEquals" 20 (by decide) rfl
  rw [evaluateClause_eq hlookup rfl hop (by rfl)]
  dsimp only
  rw [habsent]
  exact fun h => by cases h

/-- The source address is in a network that an operand of the clause names. -/
def InOperandNetwork (lib : Libraries) (request : PolicyRequest)
    (clause : PolicyConditionClause) : Prop :=
  ∃ addr network bits, ∃ value ∈ clause.values, request.sourceIp = some addr ∧
    parseIpAddrOrCidr lib value = some (network, bits) ∧ addr.InNetwork network bits

theorem sourceIp_ne_matches
    (hkey : eqIgnoreAsciiCase clause.key "aws:SourceIp" = true)
    (hoperator : clause.operator = "IpAddress" ∨
      clause.operator = "ForAnyValue:IpAddress")
    (houtside : ¬InOperandNetwork lib request clause) :
    evaluateClause lib clause request variablesEnabled ≠ .matches := by
  obtain ⟨param, hlookup⟩ := lookupKey_of_rowFor hkey (by rfl)
  have haddress : ∀ addr, request.sourceIp = some addr →
      evalIpAddress lib (clause.values.map .literal) (.sourceIp addr) = .noMatch := by
    intro addr haddr
    have hnone : ((clause.values.map PolicyValue.literal).filterMap
        (parseIpAddrOrCidr lib ·.value)).any (fun n => ipAddrMatchesCidr addr n.1 n.2) = false := by
      rw [any_eq_false]
      rintro ⟨network, bits⟩ hnetwork hin
      obtain ⟨operand, hoperand, hparsed⟩ := mem_filterMap.mp hnetwork
      obtain ⟨value, hvalue, rfl⟩ := mem_map.mp hoperand
      exact houtside ⟨addr, network, bits, value, hvalue, haddr, hparsed,
        (ipAddrMatchesCidr_iff addr network bits).mp hin⟩
    unfold evalIpAddress evalIpAddressComparison
    dsimp only
    rw [hnone]
    rfl
  -- both operators ask the same of an address, and take no variables
  have hclause : ∀ op : ConditionOpDef, lookupOp lib op.name = some op →
      clause.operator = op.name → op.evaluableOnEvaluableObjectActions = true →
      op.kind = .ipAddress →
      (∀ values addr, op.evaluate values (.sourceIp addr) =
        evalIpAddress lib values (.sourceIp addr)) →
      evaluateClause lib clause request variablesEnabled ≠ .matches := by
    intro op hop hname hevaluable hkind heval
    have hsupported : operatorSupportedForKey lib op.name .ipOnly = true := by
      unfold operatorSupportedForKey
      simp [hop, hevaluable, hkind, ConditionOpKind.isIp]
    have hoperands : clauseOperands lib clause request variablesEnabled op =
        clause.values.map .literal := by
      unfold clauseOperands
      rw [hkind, if_neg]
      cases variablesEnabled <;> decide
    rw [evaluateClause_eq hlookup rfl (hname ▸ hop) hsupported, hoperands]
    dsimp only
    unfold resolveSourceIp
    cases hsource : request.sourceIp with
    | none => exact fun h => by cases h
    | some addr =>
      unfold evaluateResolved
      dsimp only
      rw [heval, haddress addr hsource]
      decide
  rcases hoperator with hoperator | hoperator
  · exact hclause ⟨"IpAddress", .none, .ipAddress, evalIpAddress lib, true⟩
      (lookupOp_of_place "IpAddress" 57 (by decide) rfl) hoperator rfl rfl fun _ _ => rfl
  · exact hclause ⟨"ForAnyValue:IpAddress", .forAnyValue, .ipAddress,
      evalForAnyValueIpAddress lib, true⟩
      (lookupOp_of_place "ForAnyValue:IpAddress" 59 (by decide) rfl) hoperator rfl rfl
        fun _ _ => rfl

theorem unevaluated_eq_matches_iff {name : String} (hkey : eqIgnoreAsciiCase clause.key name = true)
    (hname : name ∈ ["aws:PrincipalOrgID", "aws:SourceVpce", "aws:SourceOwner", "aws:SourceAccount",
      "s3:DataAccessPointAccount", "aws:SourceArn", "s3:DataAccessPointArn"]) :
    evaluateClause lib clause request variablesEnabled = .matches ↔
      clause.metByAnonymous lib = true := by
  obtain ⟨hrow, hother⟩ := rowFor_unevaluated name hname
  refine iff_of_false ?_ (not_metByAnonymous hkey hother)
  unfold evaluateClause
  rw [lookupKey_eq_none hkey hrow]
  exact fun h => by cases h

/-- Of the clauses that keep a policy from being public, an anonymous request from outside their
networks meets those that name the anonymous user and no others. -/
theorem evaluateClause_eq_matches_iff (hanonymous : request.requester = .anonymous)
    (hnonPublic : isNonPublicConditionClause lib clause = true)
    (houtside : eqIgnoreAsciiCase clause.key "aws:SourceIp" = true →
      ¬InOperandNetwork lib request clause) :
    evaluateClause lib clause request variablesEnabled = .matches ↔
      clause.metByAnonymous lib = true := by
  unfold isNonPublicConditionClause at hnonPublic
  split_ifs at hnonPublic with haccount hprincipal harn hsource
  · obtain ⟨hoperator, hfixed⟩ := Bool.and_eq_true_iff.mp hnonPublic
    simp only [any_cons, any_nil, Bool.or_false, Bool.or_eq_true,
      beq_iff_eq] at hoperator
    simp only [conditionKeyMatchesAny, any_cons, any_nil, Bool.or_false,
      Bool.or_eq_true] at haccount
    rcases haccount with hkey | hkey | hkey | hkey | hkey | hkey
    case inr.inr.inr.inr.inl => exact userid_eq_matches_iff hanonymous hkey hoperator hfixed
    all_goals exact unevaluated_eq_matches_iff hkey (by simp)
  · obtain ⟨hoperator, -⟩ := Bool.and_eq_true_iff.mp hnonPublic
    simp only [any_cons, any_nil, Bool.or_false, beq_iff_eq] at hoperator
    exact iff_of_false (principalArn_ne_matches hanonymous hprincipal hoperator)
      (not_metByAnonymous hprincipal (by decide +kernel))
  · simp only [conditionKeyMatchesAny, any_cons, any_nil, Bool.or_false,
      Bool.or_eq_true] at harn
    rcases harn with hkey | hkey
    all_goals exact unevaluated_eq_matches_iff hkey (by simp)
  · obtain ⟨hoperator, -⟩ := Bool.and_eq_true_iff.mp hnonPublic
    simp only [any_cons, any_nil, Bool.or_false, Bool.or_eq_true,
      beq_iff_eq] at hoperator
    exact iff_of_false (sourceIp_ne_matches hsource hoperator (houtside hsource))
      (not_metByAnonymous hsource (by decide +kernel))

end Clauses

/-! ### Policies -/

section Policies

variable {lib : Libraries} {policy : BucketPolicy} {request : PolicyRequest}

theorem conditionMatchFrom_eq_matches_iff {evaluate : PolicyConditionClause → ConditionMatchResult}
    {sawUnsupported sawAccepted sawUnavailable : Bool} :
    conditionMatchFrom evaluate clauses sawUnsupported sawAccepted sawUnavailable = .matches ↔
      (sawUnsupported = false ∧ sawAccepted = false ∧ sawUnavailable = false) ∧
        ∀ clause ∈ clauses, evaluate clause = .matches := by
  induction clauses generalizing sawUnsupported sawAccepted sawUnavailable with
  | nil => cases sawUnsupported <;> cases sawAccepted <;> cases sawUnavailable <;>
      simp [conditionMatchFrom]
  | cons clause rest ih =>
    unfold conditionMatchFrom
    -- every result but a match ends the loop or sets a flag
    split <;> simp [*]

theorem requestEffect_eq_allow_iff {action : Text} {variablesEnabled : Bool} :
    statement.requestEffect lib request action resource variablesEnabled = some .allow ↔
      statement.core.effect = .allow ∧ statement.principal.matchesRequest request = true ∧
        statement.matchesAction action = true ∧
        statement.matchesResource lib request resource variablesEnabled = true ∧
        ∀ clause ∈ statement.core.conditions,
          evaluateClause lib clause request variablesEnabled = .matches := by
  have hmatches : statement.conditionMatchResult lib request variablesEnabled = .matches ↔
      ∀ clause ∈ statement.core.conditions,
        evaluateClause lib clause request variablesEnabled = .matches :=
    conditionMatchFrom_eq_matches_iff.trans (and_iff_right ⟨rfl, rfl, rfl⟩)
  rw [← hmatches]
  unfold PolicyStatement.requestEffect
  cases statement.conditionMatchResult lib request variablesEnabled <;>
    cases statement.core.effect <;> simp

/-- Fixed principals are someone, and an anonymous request is no one. -/
theorem not_matchesRequest_of_isFixedNonPublic {principal : PolicyPrincipal}
    (hanonymous : request.requester = .anonymous) (hfixed : principal.isFixedNonPublic = true) :
    principal.matchesRequest request = false := by
  have hwildcard : principal.wildcard = false := by
    have hpair := (and_eq_true_iff.mp hfixed).1
    simpa using (and_eq_true_iff.mp hpair).1
  unfold PolicyPrincipal.matchesRequest requesterPrincipal
    requesterCanonicalUserId principalMatches
  rw [hanonymous, hwildcard]
  simp

/-- An anonymous request is allowed by the statement through clauses that name the anonymous user:
it meets every clause that was to keep the public out, and the rest of the statement applies to
it. -/
structure PolicyStatement.OpenToAnonymous (lib : Libraries) (request : PolicyRequest)
    (variablesEnabled : Bool) (statement : PolicyStatement) : Prop where
  allows : statement.core.effect = .allow
  principal : statement.principal.matchesRequest request = true
  action : statement.matchesAction request.action.asStr = true
  resource : statement.matchesResource lib request request.resourceArn variablesEnabled = true
  named : ∃ clause ∈ statement.core.conditions,
    isNonPublicConditionClause lib clause = true ∧ clause.metByAnonymous lib = true
  tied : ∀ clause ∈ statement.core.conditions, isNonPublicConditionClause lib clause = true →
    clause.metByAnonymous lib = true
  met : ∀ clause ∈ statement.core.conditions, isNonPublicConditionClause lib clause = false →
    evaluateClause lib clause request variablesEnabled = .matches

/-- What a statement that is not public gives to an anonymous request. -/
theorem effectOn_eq_allow_iff (hanonymous : request.requester = .anonymous)
    (hclosed : ¬statement.allowsPublicAccess lib = true)
    (houtside : ∀ clause ∈ statement.core.conditions,
      eqIgnoreAsciiCase clause.key "aws:SourceIp" = true → ¬InOperandNetwork lib request clause) :
    policy.effectOn lib request statement = some .allow ↔
      statement.OpenToAnonymous lib request policy.variablesEnabled := by
  refine requestEffect_eq_allow_iff.trans ⟨?_, ?_⟩
  · rintro ⟨hallow, hprincipal, haction, hresource, hclauses⟩
    have htied : ∀ clause ∈ statement.core.conditions,
        isNonPublicConditionClause lib clause = true →
        clause.metByAnonymous lib = true := fun clause hclause hnonPublic =>
      (evaluateClause_eq_matches_iff hanonymous hnonPublic (houtside clause hclause)).mp
        (hclauses clause hclause)
    unfold PolicyStatement.allowsPublicAccess at hclosed
    rw [if_neg (not_not.mpr hallow)] at hclosed
    split_ifs at hclosed with hfixed
    · rw [not_matchesRequest_of_isFixedNonPublic hanonymous hfixed] at hprincipal
      cases hprincipal
    · obtain ⟨clause, hclause, hnonPublic⟩ :
          ∃ clause ∈ statement.core.conditions, isNonPublicConditionClause lib clause = true := by
        simpa [conditionsConstrainPublicPrincipal] using hclosed
      exact ⟨hallow, hprincipal, haction, hresource,
        ⟨clause, hclause, hnonPublic, htied clause hclause hnonPublic⟩, htied,
        fun clause hclause _ => hclauses clause hclause⟩
  · intro h
    refine ⟨h.allows, h.principal, h.action, h.resource, fun clause hclause => ?_⟩
    cases hnonPublic : isNonPublicConditionClause lib clause with
    | true =>
      exact (evaluateClause_eq_matches_iff hanonymous hnonPublic (houtside clause hclause)).mpr
        (h.tied clause hclause hnonPublic)
    | false => exact h.met clause hclause hnonPublic

/-- **A policy that is not public gives nothing to the public unless it names the anonymous user.**
For a policy that is reported as not public and an anonymous request whose source address is in no
operand network of an `aws:SourceIp` clause: the policy does not allow the request exactly when a
statement denies it or none is open to it through clauses on `aws:userid`. -/
theorem non_public_gives_nothing (hpublic : policy.isPublic lib = false)
    (hanonymous : request.requester = .anonymous)
    (houtside : ∀ statement ∈ policy.statements, ∀ clause ∈ statement.core.conditions,
      eqIgnoreAsciiCase clause.key "aws:SourceIp" = true →
        ¬InOperandNetwork lib request clause) :
    policy.evaluate lib request ≠ .explicitAllow ↔
      (∃ statement ∈ policy.statements, policy.effectOn lib request statement = some .deny) ∨
        ∀ statement ∈ policy.statements,
          ¬statement.OpenToAnonymous lib request policy.variablesEnabled := by
  have hopen : some .allow ∈ policy.statements.map (policy.effectOn lib request) ↔
      ∃ statement ∈ policy.statements,
        statement.OpenToAnonymous lib request policy.variablesEnabled := by
    refine mem_map.trans (exists_congr fun statement => and_congr_right fun hstatement => ?_)
    exact effectOn_eq_allow_iff hanonymous (any_eq_false.mp hpublic statement hstatement)
      (houtside statement hstatement)
  have hevaluate : policy.evaluate lib request = _ :=
    BucketPolicy.evaluateFrom_eq (policy.effectOn lib request) ..
  rw [hevaluate]
  by_cases hdeny : some .deny ∈ policy.statements.map (policy.effectOn lib request)
  · rw [if_pos hdeny]
    exact iff_of_true (by decide) (.inl (mem_map.mp hdeny))
  rw [if_neg hdeny, or_iff_right (mt mem_map.mpr hdeny)]
  by_cases hallow : some .allow ∈ policy.statements.map (policy.effectOn lib request)
  · rw [if_pos (.inr hallow)]
    obtain ⟨statement, hstatement, hgives⟩ := hopen.mp hallow
    exact iff_of_false (fun h => h rfl) fun hnone => hnone statement hstatement hgives
  · rw [if_neg (Or.rec Bool.false_ne_true hallow)]
    exact iff_of_true (by decide) fun statement hstatement hgives =>
      hallow (hopen.mpr ⟨statement, hstatement, hgives⟩)

/-! A statement for everyone with one condition clause, and an anonymous read. -/

def openStatement (clause : PolicyConditionClause) : PolicyStatement :=
  ⟨{ wildcard := true }, ⟨none, .allow, ["s3:GetObject"], [clause]⟩,
    ["arn:aws:s3:::bucket/*"]⟩

def anonymousRead : PolicyRequest :=
  .forObjectWithRequester .getObject "bucket" "report" .anonymous .unavailable

def endpointClause : PolicyConditionClause :=
  ⟨"StringEquals", "aws:SourceVpce", ["vpce-12345678"]⟩

def endpointPolicy : BucketPolicy := ⟨some .v2012x10x17, [openStatement endpointClause]⟩

theorem endpoint_policy_gives_nothing :
    endpointPolicy.isPublic emptyLibraries = false ∧
      endpointPolicy.evaluate emptyLibraries anonymousRead ≠ .explicitAllow := by
  have hpublic : endpointPolicy.isPublic emptyLibraries = false := by rfl
  refine ⟨hpublic, (non_public_gives_nothing hpublic rfl ?_).mpr (.inr ?_)⟩
  · refine forall_mem_singleton.mpr (forall_mem_singleton.mpr fun hkey => ?_)
    exact absurd hkey (by decide +kernel)
  · refine forall_mem_singleton.mpr fun hopen => ?_
    have hmet := hopen.tied endpointClause mem_cons_self (by rfl)
    exact absurd hmet (by decide +kernel)

def anonymousClause : PolicyConditionClause :=
  ⟨"StringEquals", "aws:userid", ["anonymous"]⟩

def anonymousUserJson : Value :=
  .object [("Statement", .object [("Action", .string "s3:GetObject"),
      ("Condition", .object [("StringEquals",
        .object [("aws:userid", .string "anonymous")])]),
      ("Effect", .string "Allow"), ("Principal", .string "*"),
      ("Resource", .string "arn:aws:s3:::bucket/*")]),
    ("Version", .string "2012-10-17")]

def anonymousUserPolicy : BucketPolicy :=
  ⟨some .v2012x10x17, [openStatement anonymousClause]⟩

theorem readReport_actions :
    matchesActionIn supportedBucketPolicyBucketActions "s3:GetObject" = false ∧
      matchesActionIn supportedBucketPolicyObjectActions "s3:GetObject" = true := by
  decide +kernel

theorem applicable_of_object {label : Text}
    (hbucket : matchesActionIn supportedBucketPolicyBucketActions pattern = false)
    (hobject : matchesActionIn supportedBucketPolicyObjectActions pattern = true)
    (hscope : resourceScope resource = some .object) :
    validateResourceApplicability [pattern] [resource] label = .ok () := by
  simp [validateResourceApplicability, hbucket, hobject, hscope]

theorem parseStatement_open {lib : Libraries} {condition : Value} {index : Nat}
    (happlicable : validateResourceApplicability [pattern] [resource]
      ("NO_ID-" ++ Text.decimal index) = .ok ())
    (hcondition : parseConditions lib condition = .ok clauses) :
    parseStatement lib (.object [("Action", .string pattern),
      ("Condition", condition), ("Effect", .string "Allow"),
      ("Principal", .string "*"), ("Resource", .string resource)]) index =
      .ok ⟨{ wildcard := true }, ⟨none, .allow, [pattern], clauses⟩, [resource]⟩ := by
  show (validateResourceApplicability [pattern] [resource]
    ("NO_ID-" ++ Text.decimal index) >>= fun _ =>
      parseConditions lib condition >>= fun clauses =>
      Except.ok (⟨{ wildcard := true }, ⟨none, .allow, [pattern], clauses⟩, [resource]⟩ :
        PolicyStatement)) = _
  rw [happlicable, hcondition]
  rfl

theorem parseBucketPolicy_single {lib : Libraries} {fromStr : Text → Option Value} {text : Text}
    {fields : List (Text × Value)}
    (htext : fromStr text = some (.object [("Statement", .object fields),
      ("Version", .string "2012-10-17")]))
    (hstatement : parseStatement lib (.object fields) 0 = .ok statement) :
    parseBucketPolicy lib fromStr text = .ok ⟨some .v2012x10x17, [statement]⟩ := by
  unfold parseBucketPolicy
  rw [htext]
  show ((parseStatement lib (.object fields) 0 >>= fun statement => Except.ok [statement]) >>=
    fun statements => Except.ok (⟨some .v2012x10x17, statements⟩ : BucketPolicy)) = _
  rw [hstatement]
  rfl

/-- **A policy that is not public allows everyone.**  The policy passes the parser and the upload
check, is reported as not public, names no network, and allows the anonymous read. -/
theorem non_public_policy_allows_anonymous :
    anonymousRead.requester = .anonymous ∧
    (∀ (lib : Libraries) (fromStr : Text → Option Value) (text : Text),
      fromStr text = some anonymousUserJson →
        parseBucketPolicy lib fromStr text = .ok anonymousUserPolicy) ∧
    ∀ lib : Libraries, anonymousUserPolicy.validateEvaluableObjectConditions lib = .ok () ∧
      anonymousUserPolicy.isPublic lib = false ∧
      (∀ statement ∈ anonymousUserPolicy.statements, ∀ clause ∈ statement.core.conditions,
        eqIgnoreAsciiCase clause.key "aws:SourceIp" = false) ∧
      anonymousUserPolicy.evaluate lib anonymousRead = .explicitAllow := by
  refine ⟨rfl, ?_, ?_⟩
  · intro lib fromStr text htext
    obtain ⟨hbucket, hobject⟩ := readReport_actions
    have hscope : resourceScope "arn:aws:s3:::bucket/*" = some .object := by decide +kernel
    exact parseBucketPolicy_single htext
      (parseStatement_open (applicable_of_object hbucket hobject hscope) rfl)
  · intro lib
    refine ⟨?_, by rfl, ?_, by rfl⟩
    · refine validate_eq_ok_iff.mpr (forall_mem_singleton.mpr fun action _ => ?_)
      exact forall_mem_singleton.mpr ⟨rfl, rfl⟩
    · exact forall_mem_singleton.mpr (forall_mem_singleton.mpr (by decide +kernel))

end Policies

end Argmin.Policy
