import Argmin.Lib.Fallible
import Argmin.Policy.ConditionKey

/-!
# Bucket policies

A bucket policy is a list of statements.  This file has the parser from a JSON value, the check a
policy passes when it is uploaded, the evaluation against a request, the classification as public,
and the question whether a policy needs an input of the request.
-/

namespace Argmin.Policy

open Fallible

/-! ### Principals -/

structure PolicyPrincipal where
  aws : List Text := []
  service : List Text := []
  canonicalUser : List Text := []
  wildcard : Bool := false
deriving DecidableEq

/-- The value has no wildcard `*` and no variable. -/
def isFixedValue (value : Text) : Bool :=
  !value.contains '*' && (splitOnce ['$', '\x7b'] value).isNone

namespace PolicyPrincipal

variable (self : PolicyPrincipal)

def hasAny : Bool :=
  self.wildcard || !self.aws.isEmpty || !self.service.isEmpty || !self.canonicalUser.isEmpty

def allValues : List Text :=
  self.aws ++ self.service ++ self.canonicalUser

def isFixedNonPublic : Bool :=
  !self.wildcard && self.hasAny && self.allValues.all isFixedValue

def matchesRequest (request : PolicyRequest) : Bool :=
  self.wildcard ||
    (self.aws.any request.principalMatches ||
      self.service.any (request.requesterPrincipal == some ·) ||
      self.canonicalUser.any (request.requesterCanonicalUserId == some ·))

end PolicyPrincipal

structure PolicyStatement where
  principal : PolicyPrincipal
  core : PolicyStatementCore
  resources : List Text
deriving DecidableEq

structure BucketPolicy where
  version : Option PolicyVersion
  statements : List PolicyStatement
deriving DecidableEq

/-! ### Public policies -/

def ipv4CidrIsSubsetOf (addr : BitVec 32) (bits : Nat) (rangeAddr : BitVec 32) (rangeBits : Nat) :
    Bool :=
  rangeBits ≤ bits && prefixBits addr rangeBits == prefixBits rangeAddr rangeBits

def ipv4CidrIsSubsetOfRfc1918 (addr : BitVec 32) (bits : Nat) : Bool :=
  ipv4CidrIsSubsetOf addr bits 0x0a000000 8 ||
    ipv4CidrIsSubsetOf addr bits 0xac100000 12 ||
    ipv4CidrIsSubsetOf addr bits 0xc0a80000 16

def ipv4SourceIpIsNonPublic (addr : BitVec 32) (bits : Nat) : Bool :=
  8 ≤ bits || ipv4CidrIsSubsetOfRfc1918 addr bits

def conditionKeyMatchesAny (key : Text) (candidates : List String) : Bool :=
  candidates.any (eqIgnoreAsciiCase key ·.toList)

section Public

variable (lib : Libraries)

def isFixedSourceIp (value : Text) : Bool :=
  isFixedValue value &&
    match parseIpAddrOrCidr lib value with
    | none => false
    | some (.v4 addr, bits) => ipv4SourceIpIsNonPublic addr bits
    | some (.v6 _, bits) => 32 ≤ bits

def isNonPublicConditionClause (clause : PolicyConditionClause) : Bool :=
  let operatorIn (names : List String) : Bool := names.any (clause.operator == ·.toList)
  if conditionKeyMatchesAny clause.key ["aws:PrincipalOrgID", "aws:SourceVpce", "aws:SourceOwner",
      "aws:SourceAccount", "aws:userid", "s3:DataAccessPointAccount"] then
    operatorIn ["StringEquals", "StringEqualsIgnoreCase", "StringLike"] &&
      clause.values.all isFixedValue
  else if eqIgnoreAsciiCase clause.key "aws:PrincipalArn" then
    operatorIn ["ArnEquals"] && clause.values.all isFixedValue
  else if conditionKeyMatchesAny clause.key ["aws:SourceArn", "s3:DataAccessPointArn"] then
    operatorIn ["ArnEquals", "ArnLike", "StringEquals", "StringEqualsIgnoreCase", "StringLike"] &&
      clause.values.all isFixedValue
  else if eqIgnoreAsciiCase clause.key "aws:SourceIp" then
    operatorIn ["IpAddress", "ForAnyValue:IpAddress"] && clause.values.all (isFixedSourceIp lib)
  else false

def conditionsConstrainPublicPrincipal (conditions : List PolicyConditionClause) : Bool :=
  conditions.any (isNonPublicConditionClause lib)

def PolicyStatement.allowsPublicAccess (self : PolicyStatement) : Bool :=
  if self.core.effect ≠ .allow then false
  else if self.principal.isFixedNonPublic then false
  else !conditionsConstrainPublicPrincipal lib self.core.conditions

def BucketPolicy.isPublic (self : BucketPolicy) : Bool :=
  self.statements.any (PolicyStatement.allowsPublicAccess lib)

end Public

/-! ### Evaluation -/

/-- The loop over the clauses of a statement, after it saw an unsupported clause, a clause that is
not evaluable, or a clause without its input. -/
def conditionMatchFrom (evaluate : PolicyConditionClause → ConditionMatchResult) :
    List PolicyConditionClause → Bool → Bool → Bool → ConditionMatchResult
  | [], sawUnsupported, sawAcceptedButNotEvaluable, sawInputUnavailable =>
    if sawUnsupported then .unsupported
    else if sawInputUnavailable then .inputUnavailable
    else if sawAcceptedButNotEvaluable then .acceptedButNotEvaluable
    else .matches
  | clause :: rest, sawUnsupported, sawAcceptedButNotEvaluable, sawInputUnavailable =>
    match evaluate clause with
    | .matches => conditionMatchFrom evaluate rest sawUnsupported sawAcceptedButNotEvaluable
        sawInputUnavailable
    | .noMatch => .noMatch
    | .acceptedButNotEvaluable => conditionMatchFrom evaluate rest sawUnsupported true
        sawInputUnavailable
    | .inputUnavailable => conditionMatchFrom evaluate rest sawUnsupported
        sawAcceptedButNotEvaluable true
    | .unsupported => conditionMatchFrom evaluate rest true sawAcceptedButNotEvaluable
        sawInputUnavailable

namespace PolicyStatement

def matchesAction (self : PolicyStatement) (action : Text) : Bool :=
  self.core.actions.any (actionPatternMatches · action)

variable (lib : Libraries)

def matchesResource (self : PolicyStatement) (request : PolicyRequest) (resource : Text)
    (variablesEnabled : Bool) : Bool :=
  self.resources.any fun pattern =>
    let pattern := if variablesEnabled then expandPolicyTemplate lib request pattern
      else some (.literal pattern)
    pattern.any (policyValueWildcardMatches · resource)

def conditionMatchResult (self : PolicyStatement) (request : PolicyRequest)
    (variablesEnabled : Bool) : ConditionMatchResult :=
  conditionMatchFrom (evaluateClause lib · request variablesEnabled) self.core.conditions
    false false false

def requestEffect (self : PolicyStatement) (request : PolicyRequest) (action resource : Text)
    (variablesEnabled : Bool) : Option PolicyEffect :=
  if ¬self.principal.matchesRequest request ∨ ¬self.matchesAction action ∨
      ¬self.matchesResource lib request resource variablesEnabled then none
  else match self.conditionMatchResult lib request variablesEnabled with
    | .matches => some self.core.effect
    | .noMatch | .acceptedButNotEvaluable | .inputUnavailable => none
    | .unsupported => if self.core.effect = .deny then some .deny else none

def referencesConditionInputForAction (self : PolicyStatement) (action : PolicyAction)
    (input : ConditionInput) : Bool :=
  self.core.conditions.any (clauseRequiresInputForAction lib · action input)

end PolicyStatement

namespace BucketPolicy

/-- The loop over the statements: a Deny ends it, an Allow is kept in mind. -/
def evaluateFrom (effect : PolicyStatement → Option PolicyEffect) :
    List PolicyStatement → Bool → PolicyEvaluation
  | [], sawAllow => if sawAllow then .explicitAllow else .noMatch
  | statement :: rest, sawAllow =>
    match effect statement with
    | none => evaluateFrom effect rest sawAllow
    | some .deny => .explicitDeny
    | some .allow => evaluateFrom effect rest true

/-- **A Deny wins, in whatever order the statements are.** -/
theorem evaluateFrom_eq (effect : PolicyStatement → Option PolicyEffect)
    (l : List PolicyStatement) (sawAllow : Bool) : evaluateFrom effect l sawAllow =
      if some .deny ∈ l.map effect then .explicitDeny
      else if sawAllow ∨ some .allow ∈ l.map effect then .explicitAllow else .noMatch := by
  induction l generalizing sawAllow with
  | nil => simp [evaluateFrom]
  | cons statement rest ih =>
    unfold evaluateFrom
    split <;> simp [*]

variable (lib : Libraries)

def variablesEnabled (self : BucketPolicy) : Bool := self.version == some .v2012x10x17

def evaluate (self : BucketPolicy) (request : PolicyRequest) : PolicyEvaluation :=
  evaluateFrom (PolicyStatement.requestEffect lib · request request.action.asStr
    request.resourceArn self.variablesEnabled) self.statements false

def requiresConditionInputForAction (self : BucketPolicy) (action : PolicyAction)
    (input : ConditionInput) : Bool :=
  self.statements.any fun statement =>
    statement.matchesAction action.asStr &&
      statement.referencesConditionInputForAction lib action input

end BucketPolicy

/-! ### Acceptance of a policy -/

structure BucketPolicyError where
  reason : String
  detail : Option Text := none
deriving DecidableEq, Repr

section Acceptance

variable (lib : Libraries)

/-- The first clause that a matched action does not support. -/
def PolicyStatement.conditionValidationErrorForPolicyActions (self : PolicyStatement) :
    Option BucketPolicyError :=
  ((supportedBucketPolicyBucketActions ++ supportedBucketPolicyObjectActions).filter fun action =>
      self.matchesAction action.asStr).findSome? fun action =>
    self.core.conditions.findSome? fun clause =>
      if ¬isKnownConditionKey clause.key then
        some { reason := "Policy has an invalid condition key", detail := clause.key }
      else if supportsClauseForAction lib clause action then none
      else some
        { reason := "unsupported Condition for currently enforced bucket policy action" }

def BucketPolicy.validateEvaluableObjectConditions (self : BucketPolicy) :
    Except BucketPolicyError Unit :=
  self.statements.forM fun statement =>
    match statement.conditionValidationErrorForPolicyActions lib with
    | some error => .error error
    | none => .ok ()

/-- The first resource that is neither the bucket nor under it. -/
def BucketPolicy.firstResourceNotScopedToBucket (self : BucketPolicy) (bucket : Text) :
    Option Text :=
  let bucketArn := "arn:aws:s3:::" ++ bucket
  (self.statements.flatMap (·.resources)).find? fun resource =>
    resource != bucketArn &&
      !(stripPrefix resource bucketArn).any (fun rest => rest.head? == some '/')

/-! ### The parser -/

/-- A JSON value; a number is given by its text, and the fields of an object are in the order of
the parser's map. -/
inductive Value
  | null
  | bool (value : Bool)
  | number (text : Text)
  | string (text : Text)
  | array (items : List Value)
  | object (fields : List (Text × Value))

def Value.asObject : Value → Option (List (Text × Value))
  | .object fields => some fields
  | _ => none

def Value.asStr : Value → Option Text
  | .string text => some text
  | _ => none

def getField (fields : List (Text × Value)) (name : String) : Option Value :=
  (fields.find? (·.1 == name.toList)).map (·.2)

def parseVersion (version : Text) : Except BucketPolicyError PolicyVersion :=
  if version = "2008-10-17" then .ok .v2008x10x17
  else if version = "2012-10-17" then .ok .v2012x10x17
  else .error { reason := "The policy must contain a valid version string" }

def parseEffect (effect : Text) : Except BucketPolicyError PolicyEffect :=
  if effect = "Allow" then .ok .allow
  else if effect = "Deny" then .ok .deny
  else .error { reason := "Effect must be Allow or Deny" }

/-- The texts of a field, each item read by `item`. -/
def parseItems (item : Value → Option Text) (fieldName : String) (value : Value) :
    Except BucketPolicyError (List Text) :=
  match value with
  | .array [] => .error { reason := "array field must not be empty" }
  | .array values => values.mapM fun value => okOr (item value) { reason := fieldName }
  | value => do
    let text ← okOr (item value) { reason := fieldName }
    pure [text]

def parseStringOrArray := parseItems Value.asStr

def parseConditionValue := parseItems fun
  | .string text => some text
  | .number text => some text
  | _ => none

/-- IAM ARNs name the root of an account, a user or a role. -/
def validateAwsPrincipalFormat (value : Text) : Except BucketPolicyError Unit :=
  match stripPrefix value "arn:aws:iam::" with
  | none => pure ()
  | some rest =>
    let named (kind : String) (qualifier : Text) : Bool :=
      (stripPrefix qualifier kind.toList).any fun name => !name.isEmpty
    let valid : Bool := match splitOnce [':'] rest with
      | none => false
      | some (_account, qualifier) =>
        qualifier == "root" || named "user/" qualifier || named "role/" qualifier
    failIf (¬valid)
      { reason := "Invalid principal in policy"
        detail := some ("\"AWS\" : \"" ++ value ++ ['"']) }

def PolicyPrincipal.pushAws (self : PolicyPrincipal) (value : Text) :
    Except BucketPolicyError PolicyPrincipal :=
  if value = ['*'] then pure { self with wildcard := true }
  else do
    validateAwsPrincipalFormat value
    pure { self with aws := self.aws ++ [value] }

def parsePrincipalField (principal : PolicyPrincipal) (field : Text × Value) :
    Except BucketPolicyError PolicyPrincipal := do
  let values ← parseStringOrArray "Principal value must be a string or array of strings" field.2
  if field.1 = "AWS" then values.foldlM PolicyPrincipal.pushAws principal
  else if field.1 = "Service" then
    pure { principal with service := principal.service ++ values }
  else if field.1 = "CanonicalUser" then
    pure { principal with canonicalUser := principal.canonicalUser ++ values }
  else .error { reason := "unsupported Principal type" }

def parsePrincipal (value : Value) : Except BucketPolicyError PolicyPrincipal :=
  match value with
  | .string principal =>
    if principal = ['*'] then pure { wildcard := true }
    else .error { reason := "Invalid policy syntax." }
  | .object fields => do
    let principal ← fields.foldlM parsePrincipalField {}
    failIf (¬principal.hasAny) { reason := "Principal must not be empty" }
    pure principal
  | _ => .error { reason := "Principal must be a string or object" }

inductive ResourceScope
  | bucket
  | object
  | both
deriving DecidableEq

def resourceScope (resource : Text) : Option ResourceScope :=
  if resource = ['*'] then some .both
  else (stripPrefix resource "arn:aws:s3:::").map fun suffix =>
    if suffix = ['*'] then .both
    else if suffix.contains '/' then .object
    else .bucket

def matchesActionIn (actions : List PolicyAction) (pattern : Text) : Bool :=
  actions.any fun action => actionPatternMatches pattern action.asStr

def validateResourceApplicability (actions resources : List Text) (statementLabel : Text) :
    Except BucketPolicyError Unit := do
  let matchesBucketAction := matchesActionIn supportedBucketPolicyBucketActions
  let matchesObjectAction := matchesActionIn supportedBucketPolicyObjectActions
  match actions.find? fun pattern => !matchesBucketAction pattern && !matchesObjectAction pattern
    with
  | some unsupported => .error { reason := "Policy has invalid action", detail := unsupported }
  | none => pure ()
  let hasBucketResource := resources.any fun resource =>
    resourceScope resource == some .bucket || resourceScope resource == some .both
  let hasObjectResource := resources.any fun resource =>
    resourceScope resource == some .object || resourceScope resource == some .both
  match actions.find? fun pattern =>
      (!hasObjectResource && matchesObjectAction pattern) ||
        (!hasBucketResource && matchesBucketAction pattern) with
  | some action =>
    .error ⟨"Action does not apply to any resource(s) in statement",
      some ("Action \"" ++ action ++ "\" in Statement \"" ++ statementLabel ++ ['"'])⟩
  | none => pure ()

def validateConditionOperands (clause : PolicyConditionClause) : Except BucketPolicyError Unit :=
  match lookupOp lib clause.operator with
  | none => pure ()
  | some op =>
    if clause.operator = "Null" then pure ()
    else if op.kind.isBinary then
      failIf (¬clause.values.all fun value => (lib.decodeBase64 value).isSome)
        { reason := "Invalid Base64 value for binary condition" }
    else if ¬op.kind.isIp then pure ()
    else
      failIf (¬clause.values.all fun value => (parseIpAddrOrCidr lib value).isSome)
        { reason := "Invalid IP address in Conditions" }

def parseConditions (value : Value) : Except BucketPolicyError (List PolicyConditionClause) := do
  let operators ← okOr value.asObject { reason := "Condition must be an object" }
  let clauses ← operators.mapM fun (operator, operands) => do
    let operandObject ← okOr operands.asObject
      { reason := "Condition operator value must be an object" }
    operandObject.mapM fun (key, value) => do
      let values ← parseConditionValue
        "Condition value must be a string, number, or array of strings or numbers" value
      let clause : PolicyConditionClause := ⟨operator, key, values⟩
      validateConditionOperands lib clause
      pure clause
  pure clauses.flatten

def parseStatement (value : Value) (index : Nat) : Except BucketPolicyError PolicyStatement := do
  let fields ← okOr value.asObject { reason := "statement must be an object" }
  failIf ((getField fields "NotPrincipal").isSome ∨ (getField fields "NotAction").isSome ∨
      (getField fields "NotResource").isSome)
    { reason := "NotPrincipal, NotAction, and NotResource are not supported" }
  let sid ← match getField fields "Sid" with
    | some (.string sid) => pure (some sid)
    | some _ => .error { reason := "Sid must be a string" }
    | none => pure none
  let effect ← match getField fields "Effect" with
    | some (.string effect) => parseEffect effect
    | some _ => .error { reason := "Effect must be a string" }
    | none => .error { reason := "missing Effect" }
  let principal ← okOr (getField fields "Principal") { reason := "missing Principal" }
  let principal ← parsePrincipal principal
  let actions ← okOr (getField fields "Action") { reason := "missing Action" }
  let actions ← parseStringOrArray "Action must be a string or array of strings" actions
  let resources ← okOr (getField fields "Resource") { reason := "missing Resource" }
  let resources ← parseStringOrArray "Resource must be a string or array of strings" resources
  let statementLabel := sid.getD ("NO_ID-" ++ Text.decimal index)
  validateResourceApplicability actions resources statementLabel
  let conditions ← match getField fields "Condition" with
    | some value => parseConditions lib value
    | none => pure []
  pure ⟨principal, ⟨sid, effect, actions, conditions⟩, resources⟩

def parseStatements (value : Value) : Except BucketPolicyError (List PolicyStatement) :=
  match value with
  | .array [] => .error { reason := "Could not parse the policy: Statement is empty!" }
  | .array statements =>
    statements.zipIdx.mapM fun (statement, index) => parseStatement lib statement index
  | .object fields => do
    let statement ← parseStatement lib (.object fields) 0
    pure [statement]
  | _ => .error { reason := "Statement must be an object or array" }

/-- Parse a policy; `fromStr` is the JSON parser. -/
def parseBucketPolicy (fromStr : Text → Option Value) (policy : Text) :
    Except BucketPolicyError BucketPolicy := do
  let invalid : BucketPolicyError :=
    { reason := "Policies must be valid JSON and the first byte must be '\x7b'" }
  let value ← okOr (fromStr policy) invalid
  let fields ← okOr value.asObject invalid
  let version ← match getField fields "Version" with
    | some (.string version) => (parseVersion version).map some
    | some _ => .error { reason := "Version must be a string" }
    | none => pure none
  let statements ← okOr (getField fields "Statement")
    { reason := "Missing required field Statement" }
  let statements ← parseStatements lib statements
  pure ⟨version, statements⟩

end Acceptance

end Argmin.Policy
