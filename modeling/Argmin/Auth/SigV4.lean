import Argmin.Auth.Canonical
import Argmin.Lib.Fallible
import Mathlib.Data.List.Destutter

/-!
# Verifying a signed request

The path of a request that carries an `Authorization` header: the header is parsed, the headers it
names are collected, every `host` and `x-amz-*` header must be among them, and the signature of the
canonical request is compared.  For a presigned request the canonical request is modelled
(`presignedCanonicalRequest`).

Hash functions and the identity provider are parameters.  Headers are the list that the source
visits; names are lower case there.
-/

namespace Argmin.Auth

open Fallible
open Text (utf8)

abbrev Headers := List (Bytes × Bytes)

structure SignatureMismatchDiagnostics where
  accessKeyId : Bytes
  stringToSign : Bytes
  signatureProvided : Bytes
  canonicalRequest : Option Bytes
deriving DecidableEq, Repr

inductive AuthError
  | missingAuth
  | malformedAuth
  | malformedAuthComponents
  | malformedSignedHeaders
  | unsupportedAuthType
  | invalidHeaderCredentialRegion (providedRegion expectedRegion : Bytes)
  | invalidHeaderCredentialService (providedService expectedService : Bytes)
  | unknownAccessKey (accessKeyId : Bytes)
  | identityProviderFailure
  | duplicateAuthorizationHeader
  | multipleAuthMechanisms (authorization : Bytes)
  | accessDenied
  | signatureMismatch (diagnostics : Option SignatureMismatchDiagnostics)
  | unexpectedSecurityToken (token : Bytes)
  | missingSignedHeader (header : Bytes)
  | requestExpired
  | unsignedHeaders (headers : List Bytes)
deriving DecidableEq, Repr

structure CredentialScope where
  accessKeyId : Bytes
  date : Bytes
  region : Bytes
  service : Bytes
deriving DecidableEq, Repr

structure SigV4Auth where
  credential : CredentialScope
  signedHeaders : List Bytes
  signature : Bytes
deriving DecidableEq, Repr

def maxAccessKeyIdLen : Nat := 128
def maxCredentialLen : Nat := 2048
def maxSignedHeadersLen : Nat := 2048
def maxSignedHeaderCount : Nat := 128
def signatureHexLen : Nat := 64
def sigv4ClockSkewSecs : Nat := 15 * 60

/-! ### Strings -/

/-- The characters that `str::trim` removes, in UTF-8. -/
def whitespace : List Bytes :=
  [[9], [10], [11], [12], [13], [32], [0xc2, 0x85], [0xc2, 0xa0], [0xe1, 0x9a, 0x80],
    [0xe2, 0x80, 0x80], [0xe2, 0x80, 0x81], [0xe2, 0x80, 0x82], [0xe2, 0x80, 0x83],
    [0xe2, 0x80, 0x84], [0xe2, 0x80, 0x85], [0xe2, 0x80, 0x86], [0xe2, 0x80, 0x87],
    [0xe2, 0x80, 0x88], [0xe2, 0x80, 0x89], [0xe2, 0x80, 0x8a], [0xe2, 0x80, 0xa8],
    [0xe2, 0x80, 0xa9], [0xe2, 0x80, 0xaf], [0xe2, 0x81, 0x9f], [0xe3, 0x80, 0x80]]

/-- Each step removes at least one byte, so `fuel` bytes are enough. -/
def trimStartLoop : Nat → Bytes → Bytes
  | 0, s => s
  | fuel + 1, s =>
    match whitespace.find? (·.isPrefixOf s) with
    | some space => trimStartLoop fuel (s.drop space.length)
    | none => s

def trimStart (s : Bytes) : Bytes := trimStartLoop s.length s

def trimEndLoop : Nat → Bytes → Bytes
  | 0, s => s
  | fuel + 1, s =>
    match whitespace.find? (·.isSuffixOf s) with
    | some space => trimEndLoop fuel (s.take (s.length - space.length))
    | none => s

def trim (s : Bytes) : Bytes :=
  let s := trimStart s
  trimEndLoop s.length s

def stripPrefix (s start : Bytes) : Option Bytes :=
  if start.isPrefixOf s then some (s.drop start.length) else none

def toAsciiLowercase (s : Bytes) : Bytes :=
  s.map fun b => if byte 'A' ≤ b ∧ b ≤ byte 'Z' then b + 32 else b

def isLowerHex (value : Bytes) : Bool :=
  value.all fun b => (byte '0' ≤ b && b ≤ byte '9') || (byte 'a' ≤ b && b ≤ byte 'f')

def hexEncodeLower (bytes : Bytes) : Bytes :=
  bytes.flatMap fun b : UInt8 =>
    let digit := fun n : UInt8 => (utf8 "0123456789abcdef").getD n.toNat 0
    [digit (b >>> 4), digit (b &&& 0x0f)]

/-! ### The Authorization header -/

def parseCredentialScopeRef (value : Bytes) : Option CredentialScope :=
  if value = [] ∨ maxCredentialLen < value.length then none
  else
    match value.splitOn (byte '/') with
    | [accessKeyId, date, region, service, terminator] =>
      if terminator ≠ utf8 "aws4_request" then none
      else if accessKeyId = [] ∨ maxAccessKeyIdLen < accessKeyId.length then none
      else (parseAmzDateStamp date).map fun _ => ⟨accessKeyId, date, region, service⟩
    | _ => none

/-- The three components of the header as far as they were read. -/
structure AuthComponents where
  credential : Option Bytes := none
  signedHeaders : Option Bytes := none
  signature : Option Bytes := none

/-- One part of the header.  A component may not be given twice. -/
def readComponent (read : AuthComponents) (part : Bytes) : Except AuthError AuthComponents :=
  let part := trim part
  match stripPrefix part (utf8 "Credential=") with
  | some val => do
    failIf read.credential.isSome .malformedAuthComponents
    pure { read with credential := some val }
  | none =>
    match stripPrefix part (utf8 "SignedHeaders=") with
    | some val => do
      failIf read.signedHeaders.isSome .malformedAuthComponents
      pure { read with signedHeaders := some val }
    | none =>
      match stripPrefix part (utf8 "Signature=") with
      | some val => do
        failIf read.signature.isSome .malformedAuthComponents
        pure { read with signature := some val }
      | none => .error .malformedAuthComponents

/-- The names of a `SignedHeaders` component: lower case, sorted, without repetition. -/
def signedHeaderNames (component : Bytes) : List Bytes :=
  ((((component.splitOn (byte ';')).filter (· ≠ [])).map toAsciiLowercase).insertionSort
    (· ≤ ·)).destutter (· ≠ ·)

def parseAuthHeader (value : Bytes) : Except AuthError SigV4Auth := do
  let rest ← okOr (stripPrefix (trim value) (utf8 "AWS4-HMAC-SHA256")) .unsupportedAuthType
  let parts := (trimStart rest).splitOn (byte ',')
  failIf (parts.length ≠ 3) .malformedAuthComponents
  let read ← parts.foldlM readComponent {}
  let credentialStr ← okOr read.credential .malformedAuthComponents
  let signedHeadersStr ← okOr read.signedHeaders .malformedAuthComponents
  let signatureStr ← okOr read.signature .malformedAuthComponents
  failIf (signedHeadersStr = []) .malformedSignedHeaders
  failIf (maxSignedHeadersLen < signedHeadersStr.length) .malformedAuth
  failIf (signatureStr.length ≠ signatureHexLen ∨ ¬isLowerHex signatureStr) .malformedAuth
  let credential ← okOr (parseCredentialScopeRef credentialStr) .malformedAuth
  let signedHeaders := signedHeaderNames signedHeadersStr
  failIf (signedHeaders = [] ∨ maxSignedHeaderCount < signedHeaders.length) .malformedAuth
  pure ⟨credential, signedHeaders, signatureStr⟩

/-! ### Headers that must be signed -/

def firstValue (headers : Headers) (name : Bytes) : Option Bytes :=
  (headers.find? (·.1 = name)).map (·.2)

/-- A header that must be signed, apart from `host`. -/
def isRequiredAmz (name : Bytes) : Bool :=
  (utf8 "x-amz-").isPrefixOf name && name != utf8 "x-amz-content-sha256"

def unsignedRequiredHeaders (signedHeaders : List Bytes) (headers : Headers) : List Bytes :=
  let host := if (firstValue headers (utf8 "host")).isSome ∧ utf8 "host" ∉ signedHeaders then
      [utf8 "host"]
    else []
  headers.foldl (fun unsigned header =>
    if isRequiredAmz header.1 ∧ header.1 ∉ signedHeaders ∧ header.1 ∉ unsigned then
      unsigned ++ [header.1]
    else unsigned) host

/-- All values of the headers that are named, in the order of the request.  Without `fill` a header
that is missing is an error; with it, it counts as empty. -/
def collectSignedHeaders (fill : Bool) (headers : Headers) :
    List Bytes → Except AuthError Headers
  | [] => pure []
  | name :: rest => do
    let found := (headers.filter (·.1 = name)).map fun header => (name, header.2)
    failIf (found = [] ∧ ¬fill) (.missingSignedHeader name)
    let more ← collectSignedHeaders fill headers rest
    pure ((if found = [] then [(name, [])] else found) ++ more)

/-! ### The signature -/

/-- The hash functions. -/
structure Hashes where
  sha256 : Bytes → Bytes
  hmacSha256 : Bytes → Bytes → Bytes

variable (hashes : Hashes)

def Hashes.sha256Hex (data : Bytes) : Bytes := hexEncodeLower (hashes.sha256 data)

def deriveSigningKey (secret date region service : Bytes) : Bytes :=
  let kSecret := utf8 "AWS4" ++ secret
  let kDate := hashes.hmacSha256 kSecret date
  let kRegion := hashes.hmacSha256 kDate region
  let kService := hashes.hmacSha256 kRegion service
  hashes.hmacSha256 kService (utf8 "aws4_request")

structure HeaderSigningTimestamp where
  headerName : Bytes
  value : Bytes

/-- A request as the verifier sees it. -/
structure SignedRequest where
  method : Bytes
  uri : Bytes
  queryString : Bytes
  headers : Headers
  bodyHash : Bytes

def scopeText (scope : CredentialScope) : Bytes :=
  scope.date ++ byte '/' :: (scope.region ++ byte '/' :: (scope.service ++ utf8 "/aws4_request"))

/-- The canonical request of a header-signed request. -/
def headerCanonicalRequest (request : SignedRequest) (signedHeaders : List Bytes) :
    Except AuthError Bytes := do
  let pairs ← collectSignedHeaders false request.headers signedHeaders
  pure (canonicalRequest request.method request.uri (canonicalQueryString request.queryString)
    (canonicalHeaders pairs) (join (byte ';') signedHeaders) request.bodyHash)

def verifyRequestCredential (request : SignedRequest) (auth : SigV4Auth)
    (timestamp : Option HeaderSigningTimestamp) (secret : Bytes) : Except AuthError Bytes := do
  let pairs ← collectSignedHeaders false request.headers auth.signedHeaders
  let unsigned := unsignedRequiredHeaders auth.signedHeaders request.headers
  failIf (unsigned ≠ []) (.unsignedHeaders unsigned)
  let creq := canonicalRequest request.method request.uri
    (canonicalQueryString request.queryString) (canonicalHeaders pairs)
    (join (byte ';') auth.signedHeaders) request.bodyHash
  let timestamp ← okOr timestamp (.missingSignedHeader (utf8 "x-amz-date"))
  failIf (timestamp.headerName ∉ auth.signedHeaders) (.unsignedHeaders [timestamp.headerName])
  failIf (¬amzDateMatchesDateStamp timestamp.value auth.credential.date) .malformedAuth
  let sts := stringToSign timestamp.value (scopeText auth.credential) (hashes.sha256Hex creq)
  let signingKey := deriveSigningKey hashes secret auth.credential.date auth.credential.region
    auth.credential.service
  let expectedHex := hexEncodeLower (hashes.hmacSha256 signingKey sts)
  failIf (expectedHex ≠ auth.signature) (.signatureMismatch (some
    ⟨auth.credential.accessKeyId, sts, auth.signature, some creq⟩))
  pure creq

/-! ### Requests with an Authorization header -/

inductive SigningService
  | s3
  | s3Control
  | sts
deriving DecidableEq, Repr

def SigningService.credentialScopeName : SigningService → Bytes
  | s3 => utf8 "s3"
  | s3Control => utf8 "s3"
  | sts => utf8 "sts"

def SigningService.headerPayloadHash (service : SigningService) (hashes : Hashes)
    (headers : Headers) (body : Bytes) : Bytes :=
  match service with
  | s3 => (firstValue headers (utf8 "x-amz-content-sha256")).getD (hashes.sha256Hex body)
  | s3Control => (firstValue headers (utf8 "x-amz-content-sha256")).getD (hashes.sha256Hex body)
  | sts => hashes.sha256Hex body

/-- What the identity provider knows of an access key: its secret, and whether it is long lived. -/
structure AuthenticatedCredential where
  secretKey : Bytes
  longLived : Bool

/-- The identity provider.  A session credential is looked up with the tokens that were
presented. -/
structure IdentityProvider where
  isReservedSessionAccessKeyId : Bytes → Bool
  lookupLongLivedCredential : Bytes → Nat → Except AuthError AuthenticatedCredential
  authenticateSessionCredential :
    Bytes → List Bytes → Nat → Except AuthError AuthenticatedCredential

def resolveHeaderCredential (provider : IdentityProvider) (auth : SigV4Auth) (headers : Headers)
    (nowEpochSecs : Nat) : Except AuthError AuthenticatedCredential := do
  if provider.isReservedSessionAccessKeyId auth.credential.accessKeyId then
    let unsigned := unsignedRequiredHeaders auth.signedHeaders headers
    failIf (unsigned ≠ []) (.unsignedHeaders unsigned)
    let presented := (headers.filter (·.1 = utf8 "x-amz-security-token")).map (·.2)
    failIf (presented.any (· ≠ presented.headD [])) (.unknownAccessKey auth.credential.accessKeyId)
    provider.authenticateSessionCredential auth.credential.accessKeyId presented nowEpochSecs
  else
    provider.lookupLongLivedCredential auth.credential.accessKeyId nowEpochSecs

/-- The timestamp header: `x-amz-date` when present, otherwise `date`. -/
def selectTimestamp (headers : Headers) : Option HeaderSigningTimestamp :=
  match firstValue headers (utf8 "x-amz-date") with
  | some value => some ⟨utf8 "x-amz-date", value⟩
  | none => (firstValue headers (utf8 "date")).map fun value => ⟨utf8 "date", value⟩

/-- What the chunks of a streamed body are verified with. -/
structure StreamingSigningContext where
  signingKey : Bytes
  seedSignature : Bytes
  scope : Bytes
  timestamp : Bytes
  accessKeyId : Bytes
  seedCanonicalRequest : Bytes

/-- What is known of an accepted request. -/
structure AuthContext where
  accessKeyId : Bytes
  requestEpochSecs : Option Nat
  signingRegion : Bytes
  streaming : Option StreamingSigningContext

def absDiff (a b : Nat) : Nat := max a b - min a b

def authenticateHeader (provider : IdentityProvider)
    (method path queryString : Bytes) (headers : Headers) (body : Bytes)
    (expectedRegion : Option Bytes) (expectedService : SigningService) (nowEpochSecs : Nat)
    (authHeader : Bytes) : Except AuthError AuthContext := do
  let parsed ← parseAuthHeader authHeader
  let selectedTimestamp := selectTimestamp headers
  let requestEpochSecs := selectedTimestamp.bind fun timestamp => parseAmzDate timestamp.value
  failIf (requestEpochSecs.any fun requestEpoch =>
    sigv4ClockSkewSecs < absDiff nowEpochSecs requestEpoch) .requestExpired
  onSome expectedRegion fun region =>
    failIf (parsed.credential.region ≠ region)
      (.invalidHeaderCredentialRegion parsed.credential.region region)
  failIf (parsed.credential.service ≠ expectedService.credentialScopeName)
    (.invalidHeaderCredentialService parsed.credential.service expectedService.credentialScopeName)
  let bodyHash := expectedService.headerPayloadHash hashes headers body
  let credential ← resolveHeaderCredential provider parsed headers nowEpochSecs
  let seed ← verifyRequestCredential hashes ⟨method, path, queryString, headers, bodyHash⟩ parsed
    selectedTimestamp credential.secretKey
  onSome (if credential.longLived then firstValue headers (utf8 "x-amz-security-token") else none)
    fun token => .error (.unexpectedSecurityToken token)
  let streaming := if (utf8 "STREAMING-AWS4-HMAC-SHA256").isPrefixOf bodyHash then
      selectedTimestamp.map fun timestamp => {
        signingKey := deriveSigningKey hashes credential.secretKey parsed.credential.date
          parsed.credential.region parsed.credential.service
        seedSignature := parsed.signature
        scope := scopeText parsed.credential
        timestamp := timestamp.value
        accessKeyId := parsed.credential.accessKeyId
        seedCanonicalRequest := seed }
    else none
  pure ⟨parsed.credential.accessKeyId, requestEpochSecs, parsed.credential.region, streaming⟩

/-! ### Presigned requests -/

def queryWithoutSignature (query : Bytes) : Bytes :=
  join (byte '&') (((query.splitOn (byte '&')).filter (· ≠ [])).filter
    fun pair => (pair.takeWhile (· != byte '=')) ≠ utf8 "X-Amz-Signature")

/-- The canonical request of a presigned request. -/
def presignedCanonicalRequest (request : SignedRequest) (signedHeaders : List Bytes) :
    Except AuthError Bytes := do
  let pairs ← collectSignedHeaders true request.headers signedHeaders
  pure (canonicalRequest request.method request.uri
    (canonicalQueryString (queryWithoutSignature request.queryString)) (canonicalHeaders pairs)
    (join (byte ';') signedHeaders) request.bodyHash)

end Argmin.Auth
