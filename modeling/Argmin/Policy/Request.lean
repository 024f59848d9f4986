import Argmin.Policy.Language

/-!
# Policy requests

What a policy is evaluated against: the action, the bucket and key, who asks, and the values of the
condition keys.  A value that the caller could not determine is `unavailable`, which is not the same
as a value that is known to be absent.
-/

namespace Argmin.Policy

/-! ### Actions -/

inductive PolicyAction
  | deleteBucket
  | getBucketPolicy
  | putBucketPolicy
  | deleteBucketPolicy
  | getBucketLocation
  | getBucketCors
  | getBucketAcl
  | getBucketVersioning
  | getBucketOwnershipControls
  | getBucketTagging
  | getEncryptionConfiguration
  | getLifecycleConfiguration
  | getBucketPolicyStatus
  | getBucketPublicAccessBlock
  | getBucketObjectLockConfiguration
  | listBucket
  | listBucketVersions
  | listBucketMultipartUploads
  | putBucketAcl
  | putBucketCors
  | putBucketVersioning
  | putBucketOwnershipControls
  | putBucketTagging
  | putEncryptionConfiguration
  | putLifecycleConfiguration
  | putBucketPublicAccessBlock
  | putBucketObjectLockConfiguration
  | listTagsForResource
  | tagResource
  | untagResource
  | getObject
  | getObjectVersion
  | getObjectAttributes
  | getObjectVersionAttributes
  | getObjectAcl
  | getObjectVersionAcl
  | getObjectTagging
  | getObjectVersionTagging
  | getObjectRetention
  | getObjectLegalHold
  | putObject
  | putObjectAcl
  | putObjectVersionAcl
  | putObjectTagging
  | putObjectVersionTagging
  | putObjectRetention
  | putObjectLegalHold
  | bypassGovernanceRetention
  | abortMultipartUpload
  | deleteObject
  | deleteObjectVersion
  | deleteObjectTagging
  | deleteObjectVersionTagging
deriving DecidableEq, Repr

def PolicyAction.asStr : PolicyAction → Text
  | .deleteBucket => "s3:DeleteBucket"
  | .getBucketPolicy => "s3:GetBucketPolicy"
  | .putBucketPolicy => "s3:PutBucketPolicy"
  | .deleteBucketPolicy => "s3:DeleteBucketPolicy"
  | .getBucketLocation => "s3:GetBucketLocation"
  | .getBucketCors => "s3:GetBucketCORS"
  | .getBucketAcl => "s3:GetBucketAcl"
  | .getBucketVersioning => "s3:GetBucketVersioning"
  | .getBucketOwnershipControls => "s3:GetBucketOwnershipControls"
  | .getBucketTagging => "s3:GetBucketTagging"
  | .getEncryptionConfiguration => "s3:GetEncryptionConfiguration"
  | .getLifecycleConfiguration => "s3:GetLifecycleConfiguration"
  | .getBucketPolicyStatus => "s3:GetBucketPolicyStatus"
  | .getBucketPublicAccessBlock => "s3:GetBucketPublicAccessBlock"
  | .getBucketObjectLockConfiguration => "s3:GetBucketObjectLockConfiguration"
  | .listBucket => "s3:ListBucket"
  | .listBucketVersions => "s3:ListBucketVersions"
  | .listBucketMultipartUploads => "s3:ListBucketMultipartUploads"
  | .putBucketAcl => "s3:PutBucketAcl"
  | .putBucketCors => "s3:PutBucketCORS"
  | .putBucketVersioning => "s3:PutBucketVersioning"
  | .putBucketOwnershipControls => "s3:PutBucketOwnershipControls"
  | .putBucketTagging => "s3:PutBucketTagging"
  | .putEncryptionConfiguration => "s3:PutEncryptionConfiguration"
  | .putLifecycleConfiguration => "s3:PutLifecycleConfiguration"
  | .putBucketPublicAccessBlock => "s3:PutBucketPublicAccessBlock"
  | .putBucketObjectLockConfiguration => "s3:PutBucketObjectLockConfiguration"
  | .listTagsForResource => "s3:ListTagsForResource"
  | .tagResource => "s3:TagResource"
  | .untagResource => "s3:UntagResource"
  | .getObject => "s3:GetObject"
  | .getObjectVersion => "s3:GetObjectVersion"
  | .getObjectAttributes => "s3:GetObjectAttributes"
  | .getObjectVersionAttributes => "s3:GetObjectVersionAttributes"
  | .getObjectAcl => "s3:GetObjectAcl"
  | .getObjectVersionAcl => "s3:GetObjectVersionAcl"
  | .getObjectTagging => "s3:GetObjectTagging"
  | .getObjectVersionTagging => "s3:GetObjectVersionTagging"
  | .getObjectRetention => "s3:GetObjectRetention"
  | .getObjectLegalHold => "s3:GetObjectLegalHold"
  | .putObject => "s3:PutObject"
  | .putObjectAcl => "s3:PutObjectAcl"
  | .putObjectVersionAcl => "s3:PutObjectVersionAcl"
  | .putObjectTagging => "s3:PutObjectTagging"
  | .putObjectVersionTagging => "s3:PutObjectVersionTagging"
  | .putObjectRetention => "s3:PutObjectRetention"
  | .putObjectLegalHold => "s3:PutObjectLegalHold"
  | .bypassGovernanceRetention => "s3:BypassGovernanceRetention"
  | .abortMultipartUpload => "s3:AbortMultipartUpload"
  | .deleteObject => "s3:DeleteObject"
  | .deleteObjectVersion => "s3:DeleteObjectVersion"
  | .deleteObjectTagging => "s3:DeleteObjectTagging"
  | .deleteObjectVersionTagging => "s3:DeleteObjectVersionTagging"

/-! The actions a statement can name. -/

def supportedBucketPolicyBucketActions : List PolicyAction :=
  [.deleteBucket, .getBucketPolicy, .putBucketPolicy, .deleteBucketPolicy, .getBucketLocation,
    .getBucketCors, .getBucketAcl, .getBucketVersioning, .getBucketOwnershipControls,
    .getBucketTagging, .getEncryptionConfiguration, .getLifecycleConfiguration,
    .getBucketPolicyStatus, .getBucketPublicAccessBlock, .getBucketObjectLockConfiguration,
    .listBucket, .listBucketVersions, .listBucketMultipartUploads, .putBucketAcl,
    .putBucketCors, .putBucketVersioning, .putBucketOwnershipControls, .putBucketTagging,
    .putEncryptionConfiguration, .putLifecycleConfiguration, .putBucketPublicAccessBlock,
    .putBucketObjectLockConfiguration, .listTagsForResource, .tagResource, .untagResource]

def supportedBucketPolicyObjectActions : List PolicyAction :=
  [.getObject, .getObjectVersion, .getObjectAttributes, .getObjectVersionAttributes,
    .getObjectAcl, .getObjectVersionAcl, .getObjectTagging, .getObjectVersionTagging,
    .getObjectRetention, .getObjectLegalHold, .putObject, .putObjectAcl, .putObjectVersionAcl,
    .putObjectTagging, .putObjectVersionTagging, .putObjectRetention, .putObjectLegalHold,
    .bypassGovernanceRetention, .abortMultipartUpload, .deleteObject, .deleteObjectVersion,
    .deleteObjectTagging, .deleteObjectVersionTagging]

/-! ### Values of condition keys -/

/-- A value of the request, when the caller could determine it. -/
inductive Supplied (α : Type)
  | unavailable
  | available (value : α)
deriving DecidableEq

structure PolicyTag where
  key : Text
  value : Text
deriving DecidableEq

abbrev RequestField := Supplied (Option Text)

abbrev RequestBool := Supplied (Option Bool)

abbrev PolicyTags := Supplied (List PolicyTag)

/-! ### The requester -/

structure AssumedRoleSession where
  sessionArn : Text
  roleArn : Text
  assumedRoleId : Text
  issuedAtEpochSecs : Int
deriving DecidableEq

inductive PolicyRequester
  | anonymous
  | configured (principal canonicalUserId : Text) (principalArn : Option Text)
  | assumedRoleSession (session : AssumedRoleSession)
deriving DecidableEq

structure PolicyRequest where
  action : PolicyAction
  bucket : Text
  key : Text
  bucketResource : Bool
  requester : PolicyRequester
  bucketTags : PolicyTags := .unavailable
  existingObjectTags : PolicyTags := .unavailable
  requestObjectTags : PolicyTags := .unavailable
  copySource : RequestField := .unavailable
  metadataDirective : RequestField := .unavailable
  cannedAcl : RequestField := .unavailable
  serverSideEncryption : RequestField := .unavailable
  sseCustomerAlgorithm : RequestField := .unavailable
  grantRead : RequestField := .unavailable
  grantWrite : RequestField := .unavailable
  grantReadAcp : RequestField := .unavailable
  grantWriteAcp : RequestField := .unavailable
  grantFullControl : RequestField := .unavailable
  ifMatch : RequestField := .unavailable
  ifNoneMatch : RequestField := .unavailable
  objectCreationOperation : RequestBool := .unavailable
  listPrefix : RequestField := .unavailable
  delimiter : RequestField := .unavailable
  maxKeys : RequestField := .unavailable
  objectOwnership : RequestField := .unavailable
  versionId : RequestField := .unavailable
  sourceIp : Option IpAddr := none
  currentTimeEpochSeconds : Option Nat := none
  secureTransport : RequestBool := .unavailable
  requestedRegion : RequestField := .unavailable
  referer : RequestField := .unavailable
  authType : RequestField := .unavailable
  signatureVersion : RequestField := .unavailable
  signatureAgeMillis : Option (Option Nat) := none
  tlsVersion : RequestField := .unavailable
  contentSha256 : RequestField := .unavailable
  websiteRedirectLocation : RequestField := .unavailable
deriving DecidableEq

/-! ### Principals -/

def awsAccountIdLen : Nat := 12

def isValidAwsAccountId (accountId : Text) : Bool :=
  byteLength accountId == awsAccountIdLen && accountId.all Char.isDigit

/-- The account of a bare account id or of an IAM ARN. -/
def awsAccountIdFromPrincipal (principal : Text) : Option Text :=
  if isValidAwsAccountId principal then some principal
  else do
    let rest ← stripPrefix principal "arn:"
    let (_partition, rest) ← splitOnce [':'] rest
    let (service, rest) ← splitOnce [':'] rest
    if service ≠ "iam" then none
    else do
      let (_region, rest) ← splitOnce [':'] rest
      let (accountId, _resource) ← splitOnce [':'] rest
      if isValidAwsAccountId accountId then some accountId else none

def rootAccountPrincipalAccountId (value : Text) : Option Text := do
  let accountId ← awsAccountIdFromPrincipal value
  if ":root".toList.isSuffixOf value then some accountId else none

def awsPrincipalMatchesRequest (requesterPrincipal policyValue : Text) : Bool :=
  requesterPrincipal == policyValue ||
    match rootAccountPrincipalAccountId policyValue with
    | none => false
    | some policyRootAccountId =>
      requesterPrincipal == policyRootAccountId ||
        awsAccountIdFromPrincipal requesterPrincipal == some policyRootAccountId

namespace PolicyRequest

def forObjectWithRequester (action : PolicyAction) (bucket key : Text)
    (requester : PolicyRequester) (existingObjectTags : PolicyTags) : PolicyRequest :=
  { action, bucket, key, bucketResource := false, requester, existingObjectTags }

variable (self : PolicyRequest)

def requesterPrincipal : Option Text :=
  match self.requester with
  | .anonymous => none
  | .configured principal _ _ => some principal
  | .assumedRoleSession session => some session.sessionArn

def requesterCanonicalUserId : Option Text :=
  match self.requester with
  | .configured _ canonicalUserId _ => some canonicalUserId
  | _ => none

def principalMatches (policyValue : Text) : Bool :=
  match self.requester with
  | .anonymous => false
  | .configured principal _ _ => awsPrincipalMatchesRequest principal policyValue
  | .assumedRoleSession session =>
    awsPrincipalMatchesRequest session.sessionArn policyValue ||
      awsPrincipalMatchesRequest session.roleArn policyValue

def awsPrincipalArn : Option Text :=
  match self.requester with
  | .assumedRoleSession session => some session.roleArn
  | .configured _ _ principalArn => principalArn
  | .anonymous => none

def awsUserid : Option Text :=
  match self.requester with
  | .assumedRoleSession session => some session.assumedRoleId
  | _ => none

def tokenIssueTimeEpochSeconds : Option Nat :=
  match self.requester with
  | .assumedRoleSession session =>
    if 0 ≤ session.issuedAtEpochSecs then some session.issuedAtEpochSecs.toNat else none
  | _ => none

def requesterIsAnonymous : Bool :=
  match self.requester with
  | .anonymous => true
  | _ => false

def objectPath : Text := self.bucket ++ "/" ++ self.key

def resourceArn : Text :=
  "arn:aws:s3:::" ++ if self.bucketResource then self.bucket else self.objectPath

/-! ### Tags -/

/-- The value of the tag `preferred`, else of the first tag that is `key` in any case. -/
def tagValue (tags : List PolicyTag) (preferred key : Text) : Option Text :=
  ((tags.find? (·.key == preferred)).or (tags.find? (eqIgnoreAsciiCase ·.key key))).map (·.value)

def existingObjectTagValue (key : Text) : Supplied (Option Text) :=
  match self.existingObjectTags with
  | .unavailable => .unavailable
  | .available tags => .available (tagValue tags key key)

def bucketTagValue (key : Text) : Supplied (Option Text) :=
  match self.bucketTags with
  | .unavailable => .unavailable
  | .available tags => .available (tagValue tags key key)

/-- Unlike a bucket tag, a resource tag is looked up in lower case first. -/
def resourceTagValue (key : Text) : Supplied (Option Text) :=
  match self.bucketTags with
  | .unavailable => .unavailable
  | .available tags => .available (tagValue tags (toAsciiLowercase key) key)

def requestTagKeys : Supplied (List Text) :=
  match self.requestObjectTags with
  | .unavailable => .unavailable
  | .available tags => .available (tags.map (·.key))

def requestObjectTagValue (key : Text) : Supplied (List Text) :=
  match self.requestObjectTags with
  | .unavailable => .unavailable
  | .available tags =>
    .available ((tags.filter (eqIgnoreAsciiCase ·.key key)).map (·.value))

end PolicyRequest

end Argmin.Policy
