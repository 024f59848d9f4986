import Argmin.Policy.ConditionOp
import Argmin.Policy.Request

/-!
# Condition keys and policy variables

One row per supported condition key: how the key is matched, which operators it takes, from which
input family of the request its value comes, and for which actions a clause on it is accepted and
evaluated.  The same table gives the values of the variables in a policy text.
-/

namespace Argmin.Policy

/-- Resolved value for a condition key in a given request. -/
inductive ResolvedValue
  | present (value : Text)
  | presentScalarValues (values : List Text)
  | presentValues (values : List Text)
  | sourceIp (addr : IpAddr)
  | numeric (value : Nat)
  | epochSeconds (value : Nat)
  | absent
  | unavailable
  | unsupported
deriving DecidableEq

/-- Which operator families a condition key supports. -/
inductive OperatorSupport
  | anyEvaluable
  | arnEqualsOnly
  | boolOnly
  | dateOnly
  | ipOnly
  | numericOnly
  | stringOrNumeric
  | stringEqualsOnly
deriving DecidableEq

/-- How a row matches a condition key; letter case is ignored. -/
inductive KeyMatch
  | exact (name : Text)
  | startingWith (start : Text)
deriving DecidableEq

/-- Runtime input family a condition key needs when it is actually evaluable. -/
inductive ConditionInput
  | existingObject
  | request
  | bucket
  | sourceIp
  | currentTime
  | secureTransport
  | requestedRegion
  | referer
  | authType
  | signatureVersion
  | signatureAge
  | tlsVersion
  | contentSha256
deriving DecidableEq, Repr

inductive ConditionActionStatus
  | evaluable
  | acceptedButNotEvaluable
  | policyInvalid
  | unsupported
deriving DecidableEq

/-- One row of the condition-key resolver table. -/
structure ConditionKeyResolver where
  key : KeyMatch
  operatorSupport : OperatorSupport
  input : Option ConditionInput
  resolve : PolicyRequest → Text → ResolvedValue
  evaluableForAction : Option (PolicyAction → Bool)
  supportedForAction : Option (PolicyAction → Bool)

/-- What follows `start` in the key. -/
def matchKeyPrefix (key start : Text) : Option Text :=
  if eqIgnoreAsciiCase (key.take start.length) start then some (key.drop start.length) else none

def KeyMatch.matchKey (self : KeyMatch) (key : Text) : Option Text :=
  match self with
  | .exact name => if eqIgnoreAsciiCase key name then some [] else none
  | .startingWith start => matchKeyPrefix key start

/-! ### Resolvers -/

def requestFieldToResolved : RequestField → ResolvedValue
  | .unavailable => .unavailable
  | .available (some value) => .present value
  | .available none => .absent

def requestBoolToResolved : RequestBool → ResolvedValue
  | .unavailable => .unavailable
  | .available (some true) => .present "true"
  | .available (some false) => .present "false"
  | .available none => .absent

section Resolvers

variable (request : PolicyRequest)

def resolveExistingObjectTag (param : Text) : ResolvedValue :=
  requestFieldToResolved (request.existingObjectTagValue param)

def resolveBucketTag (param : Text) := requestFieldToResolved (request.bucketTagValue param)

def resolveResourceTag (param : Text) := requestFieldToResolved (request.resourceTagValue param)

def resolveRequestObjectTag (param : Text) : ResolvedValue :=
  match request.requestObjectTagValue param with
  | .unavailable => .unavailable
  | .available [] => .absent
  | .available [value] => .present value
  | .available values => .presentScalarValues values

def resolveRequestTagKeys (_ : Text) : ResolvedValue :=
  match request.requestTagKeys with
  | .unavailable => .unavailable
  | .available [] => .absent
  | .available keys => .presentValues keys

def resolveSourceIp (_ : Text) : ResolvedValue :=
  match request.sourceIp with
  | some sourceIp => .sourceIp sourceIp
  | none => .unavailable

def resolveUserid (_ : Text) : ResolvedValue :=
  if request.requesterIsAnonymous then .present "anonymous"
  else match request.awsUserid with
    | some userid => .present userid
    | none => .unavailable

def resolvePrincipalArn (_ : Text) : ResolvedValue :=
  match request.awsPrincipalArn with
  | some principalArn => .present principalArn
  | none => if request.requesterIsAnonymous then .absent else .unsupported

def resolveTokenIssueTime (_ : Text) : ResolvedValue :=
  match request.tokenIssueTimeEpochSeconds with
  | some epochSeconds => .epochSeconds epochSeconds
  | none => .absent

def resolvePrincipalType (_ : Text) : ResolvedValue :=
  if request.requesterIsAnonymous then .present "Anonymous"
  else if request.awsUserid.isSome then .present "AssumedRole"
  else .unavailable

def resolveUsername (_ : Text) : ResolvedValue :=
  if request.requesterPrincipal.isSome then .unavailable else .absent

def resolveCurrentTime (_ : Text) : ResolvedValue :=
  match request.currentTimeEpochSeconds with
  | some epochSeconds => .epochSeconds epochSeconds
  | none => .unavailable

def resolveSecureTransport (_ : Text) := requestBoolToResolved request.secureTransport

def resolveSignatureAge (_ : Text) : ResolvedValue :=
  match request.signatureAgeMillis with
  | some (some signatureAgeMillis) => .numeric signatureAgeMillis
  | some none => .absent
  | none => .unavailable

def resolveObjectCreationOperation (_ : Text) : ResolvedValue :=
  requestBoolToResolved request.objectCreationOperation

def resolveLocationConstraint (_ : PolicyRequest) (_ : Text) : ResolvedValue := .absent

def resolveRequestedRegion (_ : Text) := requestFieldToResolved request.requestedRegion

def resolveReferer (_ : Text) := requestFieldToResolved request.referer

def resolveAuthType (_ : Text) := requestFieldToResolved request.authType

def resolveSignatureVersion (_ : Text) := requestFieldToResolved request.signatureVersion

def resolveTlsVersion (_ : Text) := requestFieldToResolved request.tlsVersion

def resolveContentSha256 (_ : Text) := requestFieldToResolved request.contentSha256

def resolveCopySource (_ : Text) := requestFieldToResolved request.copySource

def resolveMetadataDirective (_ : Text) := requestFieldToResolved request.metadataDirective

def resolveCannedAcl (_ : Text) := requestFieldToResolved request.cannedAcl

def resolveServerSideEncryption (_ : Text) := requestFieldToResolved request.serverSideEncryption

def resolveSseCustomerAlgorithm (_ : Text) := requestFieldToResolved request.sseCustomerAlgorithm

def resolveWebsiteRedirectLocation (_ : Text) : ResolvedValue :=
  requestFieldToResolved request.websiteRedirectLocation

def resolveGrantRead (_ : Text) := requestFieldToResolved request.grantRead

def resolveGrantWrite (_ : Text) := requestFieldToResolved request.grantWrite

def resolveGrantReadAcp (_ : Text) := requestFieldToResolved request.grantReadAcp

def resolveGrantWriteAcp (_ : Text) := requestFieldToResolved request.grantWriteAcp

def resolveGrantFullControl (_ : Text) := requestFieldToResolved request.grantFullControl

def resolveIfMatch (_ : Text) := requestFieldToResolved request.ifMatch

def resolveIfNoneMatch (_ : Text) := requestFieldToResolved request.ifNoneMatch

def resolvePrefix (_ : Text) := requestFieldToResolved request.listPrefix

def resolveDelimiter (_ : Text) := requestFieldToResolved request.delimiter

def resolveMaxKeys (_ : Text) := requestFieldToResolved request.maxKeys

def resolveObjectOwnership (_ : Text) := requestFieldToResolved request.objectOwnership

def resolveVersionId (_ : Text) := requestFieldToResolved request.versionId

end Resolvers

/-! ### Actions a key applies to -/

def existingObjectTagEvaluableForAction : PolicyAction → Bool
  | .getObjectAttributes | .getObjectVersionAttributes => false
  | _ => true

def existingObjectTagSupportedForAction : PolicyAction → Bool
  | .putObject | .getObjectRetention | .getObjectLegalHold | .putObjectRetention
  | .putObjectLegalHold | .bypassGovernanceRetention | .deleteObject | .deleteObjectVersion => false
  | _ => true

def requestObjectTagSupportedForAction : PolicyAction → Bool
  | .putObject | .putObjectTagging | .putObjectVersionTagging => true
  | _ => false

def tagKeysSupportedForAction : PolicyAction → Bool
  | .tagResource | .untagResource => true
  | _ => false

def requestTagSupportedForAction : PolicyAction → Bool
  | .tagResource | .untagResource => true
  | _ => false

def bucketTagSupportedForAction : PolicyAction → Bool
  | .getObject | .getObjectAcl | .getObjectVersionAcl | .getObjectTagging
  | .getObjectVersionTagging | .getObjectRetention | .getObjectLegalHold | .putObject
  | .putObjectAcl | .putObjectVersionAcl | .putObjectTagging | .putObjectVersionTagging
  | .putObjectRetention | .putObjectLegalHold | .bypassGovernanceRetention | .deleteObject
  | .deleteObjectVersion | .deleteObjectTagging | .deleteObjectVersionTagging | .getBucketPolicy
  | .putBucketPolicy | .deleteBucket | .deleteBucketPolicy | .getBucketLocation | .getBucketCors
  | .getBucketAcl | .getBucketVersioning | .getBucketOwnershipControls | .getBucketTagging
  | .getEncryptionConfiguration | .getLifecycleConfiguration | .getBucketPolicyStatus
  | .getBucketPublicAccessBlock | .getBucketObjectLockConfiguration | .listBucket
  | .listBucketVersions | .listBucketMultipartUploads | .putBucketAcl | .putBucketCors
  | .putBucketVersioning | .putBucketOwnershipControls | .putBucketTagging
  | .putEncryptionConfiguration | .putLifecycleConfiguration | .putBucketPublicAccessBlock
  | .putBucketObjectLockConfiguration | .listTagsForResource | .tagResource | .untagResource => true
  | _ => false

def requestHeaderSupportedForActionNonGet : PolicyAction → Bool
  | .getObject | .getObjectVersion => false
  | _ => true

def conditionalWriteSupportedForAction : PolicyAction → Bool
  | .putObject => true
  | _ => false

def listConditionSupportedForAction : PolicyAction → Bool
  | .listBucket | .listBucketVersions => true
  | _ => false

def objectOwnershipSupportedForAction : PolicyAction → Bool
  | .putBucketOwnershipControls => true
  | _ => false

def versionIdSupportedForAction : PolicyAction → Bool
  | .getObjectVersion | .getObjectVersionAttributes | .getObjectVersionAcl
  | .getObjectVersionTagging | .putObjectVersionAcl | .putObjectVersionTagging
  | .deleteObjectVersion | .deleteObjectVersionTagging => true
  | _ => false

def cannedAclSupportedForAction (action : PolicyAction) : Bool :=
  requestHeaderSupportedForActionNonGet action &&
    !(action == .putObjectTagging || action == .putObjectVersionTagging)

def serverSideEncryptionSupportedForAction (action : PolicyAction) : Bool :=
  requestHeaderSupportedForActionNonGet action &&
    !(action == .putObjectTagging || action == .putObjectVersionTagging)

def locationConstraintSupportedForAction (_action : PolicyAction) : Bool := false

/-! ### The table -/

def conditionKeys : List ConditionKeyResolver :=
  [⟨.startingWith "s3:ExistingObjectTag/", .stringEqualsOnly, some .existingObject,
      resolveExistingObjectTag, some existingObjectTagEvaluableForAction,
      some existingObjectTagSupportedForAction⟩,
    ⟨.startingWith "s3:BucketTag/", .anyEvaluable, some .bucket, resolveBucketTag, none,
      some bucketTagSupportedForAction⟩,
    ⟨.startingWith "aws:ResourceTag/", .anyEvaluable, some .bucket, resolveResourceTag, none,
      some bucketTagSupportedForAction⟩,
    ⟨.exact "aws:SourceIp", .ipOnly, some .sourceIp, resolveSourceIp, none, none⟩,
    ⟨.exact "aws:userid", .anyEvaluable, none, resolveUserid, none, none⟩,
    ⟨.exact "aws:PrincipalArn", .arnEqualsOnly, none, resolvePrincipalArn, none, none⟩,
    ⟨.exact "aws:TokenIssueTime", .dateOnly, none, resolveTokenIssueTime, none, none⟩,
    ⟨.exact "aws:PrincipalType", .anyEvaluable, none, resolvePrincipalType, none, none⟩,
    ⟨.exact "aws:username", .anyEvaluable, none, resolveUsername, none, none⟩,
    ⟨.exact "aws:CurrentTime", .dateOnly, some .currentTime, resolveCurrentTime, none, none⟩,
    ⟨.exact "aws:EpochTime", .numericOnly, some .currentTime, resolveCurrentTime, none, none⟩,
    ⟨.exact "aws:SecureTransport", .boolOnly, some .secureTransport, resolveSecureTransport, none,
      none⟩,
    ⟨.exact "aws:RequestedRegion", .anyEvaluable, some .requestedRegion,
      resolveRequestedRegion, none, none⟩,
    ⟨.exact "aws:referer", .anyEvaluable, some .referer, resolveReferer, none, none⟩,
    ⟨.exact "s3:authType", .anyEvaluable, some .authType, resolveAuthType, none, none⟩,
    ⟨.exact "s3:signatureversion", .anyEvaluable, some .signatureVersion,
      resolveSignatureVersion, none, none⟩,
    ⟨.exact "s3:signatureAge", .numericOnly, some .signatureAge, resolveSignatureAge, none, none⟩,
    ⟨.exact "s3:TlsVersion", .numericOnly, some .tlsVersion, resolveTlsVersion, none, none⟩,
    ⟨.exact "s3:x-amz-content-sha256", .anyEvaluable, some .contentSha256,
      resolveContentSha256, none, none⟩,
    ⟨.startingWith "s3:RequestObjectTag/", .anyEvaluable, some .request,
      resolveRequestObjectTag, none, some requestObjectTagSupportedForAction⟩,
    ⟨.startingWith "aws:RequestTag/", .anyEvaluable, some .request,
      resolveRequestObjectTag, none, some requestTagSupportedForAction⟩,
    ⟨.exact "s3:RequestObjectTagKeys", .anyEvaluable, some .request,
      resolveRequestTagKeys, none, some requestObjectTagSupportedForAction⟩,
    ⟨.exact "aws:TagKeys", .anyEvaluable, some .request, resolveRequestTagKeys, none,
      some tagKeysSupportedForAction⟩,
    ⟨.exact "s3:x-amz-copy-source", .anyEvaluable, none, resolveCopySource, none,
      some requestHeaderSupportedForActionNonGet⟩,
    ⟨.exact "s3:x-amz-metadata-directive", .anyEvaluable, none,
      resolveMetadataDirective, none, some requestHeaderSupportedForActionNonGet⟩,
    ⟨.exact "s3:x-amz-acl", .anyEvaluable, none, resolveCannedAcl, none,
      some cannedAclSupportedForAction⟩,
    ⟨.exact "s3:x-amz-server-side-encryption", .anyEvaluable, none,
      resolveServerSideEncryption, none, some serverSideEncryptionSupportedForAction⟩,
    ⟨.exact "s3:x-amz-server-side-encryption-customer-algorithm", .anyEvaluable, none,
      resolveSseCustomerAlgorithm, none, some requestHeaderSupportedForActionNonGet⟩,
    ⟨.exact "s3:x-amz-website-redirect-location", .anyEvaluable, none,
      resolveWebsiteRedirectLocation, none, some requestHeaderSupportedForActionNonGet⟩,
    ⟨.exact "s3:x-amz-grant-read", .anyEvaluable, none, resolveGrantRead, none,
      some requestHeaderSupportedForActionNonGet⟩,
    ⟨.exact "s3:x-amz-grant-write", .anyEvaluable, none, resolveGrantWrite, none, none⟩,
    ⟨.exact "s3:x-amz-grant-read-acp", .anyEvaluable, none, resolveGrantReadAcp, none,
      some requestHeaderSupportedForActionNonGet⟩,
    ⟨.exact "s3:x-amz-grant-write-acp", .anyEvaluable, none, resolveGrantWriteAcp, none, none⟩,
    ⟨.exact "s3:x-amz-grant-full-control", .anyEvaluable, none,
      resolveGrantFullControl, none, some requestHeaderSupportedForActionNonGet⟩,
    ⟨.exact "s3:if-match", .anyEvaluable, none, resolveIfMatch, none,
      some conditionalWriteSupportedForAction⟩,
    ⟨.exact "s3:if-none-match", .anyEvaluable, none, resolveIfNoneMatch, none,
      some conditionalWriteSupportedForAction⟩,
    ⟨.exact "s3:ObjectCreationOperation", .boolOnly, none,
      resolveObjectCreationOperation, none, some conditionalWriteSupportedForAction⟩,
    ⟨.exact "s3:prefix", .anyEvaluable, none, resolvePrefix, none,
      some listConditionSupportedForAction⟩,
    ⟨.exact "s3:delimiter", .anyEvaluable, none, resolveDelimiter, none,
      some listConditionSupportedForAction⟩,
    ⟨.exact "s3:max-keys", .stringOrNumeric, none, resolveMaxKeys, none,
      some listConditionSupportedForAction⟩,
    ⟨.exact "s3:locationconstraint", .anyEvaluable, none, resolveLocationConstraint, none,
      some locationConstraintSupportedForAction⟩,
    ⟨.exact "s3:x-amz-object-ownership", .anyEvaluable, none, resolveObjectOwnership, none,
      some objectOwnershipSupportedForAction⟩,
    ⟨.exact "s3:versionid", .anyEvaluable, none, resolveVersionId, none,
      some versionIdSupportedForAction⟩]

/-- The row for a condition key, and what follows the row's prefix in the key. -/
def lookupKey (key : Text) : Option (ConditionKeyResolver × Text) :=
  conditionKeys.findSome? fun resolver => (resolver.key.matchKey key).map (resolver, ·)

/-! Keys that are recognized and not evaluated yet. -/

def knownDeferredExactConditionKeys : List String :=
  ["aws:AssumedRoot", "aws:CalledVia", "aws:CalledViaAWSMCP", "aws:CalledViaFirst",
    "aws:CalledViaLast", "aws:ChatbotSourceArn", "aws:Ec2InstanceSourcePrivateIPv4",
    "aws:Ec2InstanceSourceVpc", "aws:FederatedProvider", "aws:IsMcpServiceAction",
    "aws:MultiFactorAuthAge", "aws:MultiFactorAuthPresent", "aws:PrincipalAccount",
    "aws:PrincipalIsAWSService", "aws:PrincipalOrgID", "aws:PrincipalOrgPaths",
    "aws:PrincipalServiceName", "aws:PrincipalServiceNamesList", "aws:ResourceAccount",
    "aws:ResourceOrgID", "aws:ResourceOrgPaths", "aws:SourceAccount", "aws:SourceArn",
    "aws:SourceIdentity", "aws:SourceOrgID", "aws:SourceOrgPaths", "aws:SourceOwner",
    "aws:SourceVpc", "aws:SourceVpcArn", "aws:SourceVpce", "aws:UserAgent",
    "aws:ViaAWSMCPService", "aws:ViaAWSService", "aws:VpcSourceIp", "aws:VpceAccount",
    "aws:VpceOrgID", "aws:VpceOrgPaths", "codebuild:BuildArn", "codebuild:ProjectArn",
    "ec2:RoleDelivery", "ec2:SourceInstanceArn", "glue:CredentialIssuingService",
    "glue:RoleAssumedBy", "identitystore:UserId", "lambda:SourceFunctionArn",
    "ssm:SourceInstanceArn", "s3:DataAccessPointAccount", "s3:DataAccessPointArn",
    "s3:AccessGrantScope", "s3:AccessGrantsInstanceArn", "s3:AccessGrantsLocationScope",
    "s3:AccessPointNetworkOrigin", "s3:ExistingJobOperation", "s3:ExistingJobPriority",
    "s3:annotation-prefix", "s3:deliverySourceArn", "s3:destinationRegion",
    "s3:InventoryAccessibleOptionalFields", "s3:InventoryField",
    "s3:isReplicationPauseRequest", "s3:JobSuspendedCause", "s3:logType",
    "s3:max-annotation-results", "s3:RequestJobOperation", "s3:RequestJobPriority",
    "s3:ResourceAccount",
    "s3:resourceArnBeingAuthorized", "s3:object-lock-mode", "s3:object-lock-legal-hold",
    "s3:object-lock-retain-until-date", "s3:object-lock-remaining-retention-days",
    "s3:x-amz-bucket-namespace", "s3:x-amz-object-annotation-directive", "s3:x-amz-object-if-match",
    "s3:x-amz-server-side-encryption-aws-kms-key-id", "s3:x-amz-storage-class"]

def knownDeferredPrefixConditionKeys : List String :=
  ["aws:PrincipalTag/", "s3:AccessPointTag/"]

def isKnownConditionKey (key : Text) : Bool :=
  (lookupKey key).isSome ||
    knownDeferredExactConditionKeys.any (eqIgnoreAsciiCase key ·.toList) ||
    knownDeferredPrefixConditionKeys.any fun start => (matchKeyPrefix key start.toList).isSome

/-! ### Policy variables -/

inductive PolicyVariableResolution
  | value (value : Text)
  | absent
  | unavailable
deriving DecidableEq

inductive PolicyVariableValue
  | text (value : Text)
  | literalWildcard (wildcard : Char)
deriving DecidableEq

section Variables

variable (lib : Libraries) (request : PolicyRequest)

def resolvePolicyVariable (key : Text) : PolicyVariableResolution :=
  match lookupKey key with
  | none => .unavailable
  | some (resolver, param) =>
    match resolver.resolve request param with
    | .present value => .value value
    | .sourceIp sourceIp => .value (lib.showIpAddr sourceIp)
    | .numeric value => .value (Text.decimal value)
    | .epochSeconds epochSeconds => .value (Text.decimal epochSeconds)
    | .presentScalarValues _ | .presentValues _ => .unavailable
    | .absent => .absent
    | .unavailable | .unsupported => .unavailable

/-- The key of a variable and its default. -/
def parsePolicyVariableDefault (content : Text) : Text × Option Text :=
  match splitOnce [','] content with
  | none => (trim content, none)
  | some (key, default) =>
    match (stripPrefix (trim default) ['\'']).bind (stripSuffix · ['\'']) with
    | none => (trim content, none)
    | some default => (trim key, some default)

def resolvePolicyTemplateVariable (content : Text) : Option PolicyVariableValue :=
  if content = ['*'] then some (.literalWildcard '*')
  else if content = ['?'] then some (.literalWildcard '?')
  else if content = ['$'] then some (.text ['$'])
  else
    let (key, default) := parsePolicyVariableDefault content
    match resolvePolicyVariable lib request key with
    | .value value => some (.text value)
    | .absent => default.map .text
    | .unavailable => none

def pushPolicyVariable (output : PolicyValue) : PolicyVariableValue → PolicyValue
  | .text value => output.pushPatternFragment value
  | .literalWildcard wildcard =>
    if wildcard = '*' then output.pushLiteralAsterisk
    else if wildcard = '?' then output.pushLiteralQuestionMark
    else output.pushPatternFragment [wildcard]

/-- The first variable of a template: what stands before it, its content, what follows it. -/
def nextVariable (template : Text) : Option (Text × Text × Text) := do
  let (before, rest) ← splitOnce ['$', '\x7b'] template
  let (content, after) ← splitOnce ['\x7d'] rest
  some (before, content, after)

/-- The loop over the variables, from the cursor on; `fuel` bounds the number of variables. -/
def expandTemplateFrom : Nat → Text → Option PolicyValue → Option PolicyValue
  | 0, template, expanded => some ((expanded.getD (.literal [])).pushPatternFragment template)
  | fuel + 1, template, expanded =>
    match nextVariable template with
    | some (before, content, after) => do
      let output := (expanded.getD (.literal [])).pushPatternFragment before
      let value ← resolvePolicyTemplateVariable lib request content
      expandTemplateFrom fuel after (some (pushPolicyVariable output value))
    | none =>
      match expanded with
      | some output => some (output.pushPatternFragment template)
      | none => some (.literal template)

/-- A variable takes three characters of the template, so its length is fuel enough. -/
def expandPolicyTemplate (template : Text) : Option PolicyValue :=
  expandTemplateFrom lib request template.length template none

end Variables

/-! ### Clauses -/

section Clauses

variable (lib : Libraries)

def operatorSupportedForKey (operator : Text) (support : OperatorSupport) : Bool :=
  let evaluable (kind : ConditionOpKind → Bool) : Bool :=
    (lookupOp lib operator).any fun op => op.evaluableOnEvaluableObjectActions && kind op.kind
  match support with
  | .anyEvaluable => evaluable fun kind => kind.isString || kind.isBinary
  | .arnEqualsOnly => operator == "ArnEquals"
  | .stringOrNumeric => evaluable fun kind => kind.isString || kind.isNumeric
  | .dateOnly => evaluable ConditionOpKind.isDate
  | .numericOnly => evaluable ConditionOpKind.isNumeric
  | .stringEqualsOnly =>
    operator == "StringEquals" || operator == "StringEqualsIfExists"
  | .boolOnly =>
    operator == "Bool" || operator == "BoolIfExists" ||
      operator == "ForAllValues:Bool" || operator == "ForAnyValue:Bool"
  | .ipOnly => evaluable ConditionOpKind.isIp

def clauseActionStatus (clause : PolicyConditionClause) (action : PolicyAction) :
    ConditionActionStatus :=
  match lookupKey clause.key with
  | none => .unsupported
  | some (resolver, _) =>
    if ¬operatorSupportedForKey lib clause.operator resolver.operatorSupport then .unsupported
    else if resolver.supportedForAction.any (!· action) then .policyInvalid
    else if resolver.evaluableForAction.any (!· action) then .acceptedButNotEvaluable
    else .evaluable

def supportsClauseForAction (clause : PolicyConditionClause) (action : PolicyAction) : Bool :=
  clauseActionStatus lib clause action == .evaluable ||
    clauseActionStatus lib clause action == .acceptedButNotEvaluable

def clauseRequiresInputForAction (clause : PolicyConditionClause) (action : PolicyAction)
    (input : ConditionInput) : Bool :=
  match lookupKey clause.key with
  | none => false
  | some (resolver, _) =>
    resolver.input == some input && clauseActionStatus lib clause action == .evaluable

/-- Several values of a key that has one: the qualifier of the operator, or else the sense of the
operator, says whether one of them has to match or all. -/
def evaluateScalarValues (op : ConditionOpDef) (operands : List PolicyValue)
    (actuals : List Text) : ConditionMatchResult :=
  let actualMatches (actual : Text) : Bool := op.evaluate operands (.present actual) == .matches
  .ofBool <| match op.setQualifier with
    | .forAllValues => actuals.all actualMatches
    | .forAnyValue => actuals.any actualMatches
    | .none =>
      match op.kind with
      | .arnEquals | .binaryEquals | .stringEquals | .stringEqualsIgnoreCase | .stringLike =>
        actuals.any actualMatches
      | .stringNotEquals | .stringNotEqualsIgnoreCase | .stringNotLike => actuals.all actualMatches
      | _ => false

/-- The operands as they are compared: with the variables expanded, where the operator takes
variables.  An operand that cannot be expanded is dropped. -/
def clauseOperands (clause : PolicyConditionClause) (request : PolicyRequest)
    (variablesEnabled : Bool) (op : ConditionOpDef) : List PolicyValue :=
  if variablesEnabled && op.kind.supportsPolicyVariables then
    clause.values.filterMap (expandPolicyTemplate lib request)
  else clause.values.map .literal

/-- An operator applied to a resolved value. -/
def evaluateResolved (op : ConditionOpDef) (values : List PolicyValue) :
    ResolvedValue → ConditionMatchResult
  | .present value => op.evaluate values (.present value)
  | .presentScalarValues actuals => evaluateScalarValues op values actuals
  | .presentValues actuals => op.evaluate values (.presentValues actuals)
  | .sourceIp sourceIp => op.evaluate values (.sourceIp sourceIp)
  | .numeric value => op.evaluate values (.numeric value)
  | .epochSeconds epochSeconds => op.evaluate values (.epochSeconds epochSeconds)
  | .absent => op.evaluate values .absent
  | .unavailable => .inputUnavailable
  | .unsupported => .unsupported

def evaluateClause (clause : PolicyConditionClause) (request : PolicyRequest)
    (variablesEnabled : Bool) : ConditionMatchResult :=
  match lookupKey clause.key with
  | none => .unsupported
  | some (resolver, param) =>
    if resolver.evaluableForAction.any (!· request.action) then .acceptedButNotEvaluable
    else match lookupOp lib clause.operator with
      | none => .unsupported
      | some op =>
        if ¬operatorSupportedForKey lib op.name resolver.operatorSupport then .unsupported
        else evaluateResolved op (clauseOperands lib clause request variablesEnabled op)
          (resolver.resolve request param)

end Clauses

end Argmin.Policy
