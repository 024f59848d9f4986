import Argmin.Auth.CanonicalText

/-!
# The canonical request determines the request

* `request_eq_of_canonical_eq` — equal texts come from equal requests, as far as they are signed;
* `unsignedRequiredHeaders_eq_nil` — what the check of required headers ensures;
* `canonical_request_determines` — both, for every header-signed or presigned request.
-/

namespace Argmin.Auth

open Fallible Separated List
open Text (utf8)

/-! ### The headers that are signed -/

/-- The values of a header as the canonical text joins them. -/
def joinedValue (headers : Headers) (name : Bytes) : Bytes :=
  [byte ','].intercalate (valuesOf headers name)

/-- The values that are signed under a name: a header that is missing counts as empty. -/
def signedValues (headers : Headers) (name : Bytes) : List Bytes :=
  if valuesOf headers name = [] then [[]] else valuesOf headers name

theorem intercalate_signedValues (headers : Headers) (name : Bytes) :
    [byte ','].intercalate (signedValues headers name) = joinedValue headers name := by
  unfold signedValues joinedValue
  split
  · next hnil =>
    rw [hnil]
    rfl
  · rfl

/-- The headers of one name that is signed. -/
def signedBlock (headers : Headers) (name : Bytes) : Headers :=
  let found := (headers.filter (·.1 = name)).map fun header => (name, header.2)
  if found = [] then [(name, [])] else found

variable {headers : Headers} {mode : SigningMode} {request : SignedRequest}
  {signedHeaders : List Bytes} {text : Bytes} {hashes : Hashes}

theorem mem_signedBlock {name : Bytes} {pair : Bytes × Bytes}
    (h : pair ∈ signedBlock headers name) :
    pair.1 = name ∧ (pair.2 = [] ∨ ∃ header ∈ headers, pair.2 = header.2) := by
  unfold signedBlock at h
  dsimp only at h
  split at h
  · obtain rfl := mem_singleton.mp h
    exact ⟨rfl, .inl rfl⟩
  · obtain ⟨header, hheader, rfl⟩ := mem_map.mp h
    exact ⟨rfl, .inr ⟨header, (mem_filter.mp hheader).1, rfl⟩⟩

theorem valuesOf_signedBlock (name n : Bytes) :
    valuesOf (signedBlock headers name) n = if name = n then signedValues headers n else [] := by
  by_cases h : name = n
  · subst h
    unfold signedBlock signedValues valuesOf
    by_cases hfound : headers.filter (·.1 = name) = []
    · simp [hfound, normalizeHeaderValue, collapseSpaces]
    · simp [hfound, filter_map, Function.comp_def]
  · rw [if_neg h, valuesOf, map_eq_nil_iff, filter_eq_nil_iff]
    intro pair hpair
    rw [(mem_signedBlock hpair).1]
    simpa using h

/-- The pairs that are collected are the blocks of the names. -/
theorem collectSignedHeaders_eq_ok {fill : Bool} {pairs : Headers} {names : List Bytes}
    (h : collectSignedHeaders fill headers names = .ok pairs) :
    pairs = names.flatMap (signedBlock headers) := by
  induction names generalizing pairs with
  | nil =>
    cases h
    rfl
  | cons name names ih =>
    simp only [collectSignedHeaders, bind_eq_ok, failIf_eq_ok, exists_const, pure_eq_ok] at h
    obtain ⟨-, more, hmore, rfl⟩ := h
    rw [flatMap_cons, ← ih hmore]
    rfl

/-- A name that is listed several times has its values several times. -/
theorem valuesOf_flatMap (names : List Bytes) (n : Bytes) :
    valuesOf (names.flatMap (signedBlock headers)) n =
      (List.replicate (names.count n) (signedValues headers n)).flatten := by
  induction names with
  | nil => rfl
  | cons name names ih =>
    have happend : valuesOf ((name :: names).flatMap (signedBlock headers)) n =
        valuesOf (signedBlock headers name) n ++
          valuesOf (names.flatMap (signedBlock headers)) n := by
      rw [flatMap_cons, valuesOf, filter_append, map_append]
      rfl
    rw [happend, valuesOf_signedBlock, ih]
    by_cases h : name = n
    · rw [if_pos h, h, count_cons_self, replicate_succ, flatten_cons]
    · rw [if_neg h, count_cons_of_ne h, nil_append]

/-- The joined text of a name in the canonical headers. -/
theorem joined_signed (names : List Bytes) (n : Bytes) :
    [byte ','].intercalate (valuesOf (names.flatMap (signedBlock headers)) n) =
      [byte ','].intercalate (List.replicate (names.count n) (joinedValue headers n)) := by
  have hne : signedValues headers n ≠ [] := by
    unfold signedValues
    split
    · simp
    · assumption
  rw [valuesOf_flatMap, ← intercalate_map_intercalate, map_replicate, intercalate_signedValues]
  intro group hgroup
  rw [eq_of_mem_replicate hgroup]
  exact hne

/-! ### The whole text -/

/-- A request whose method and header values hold no line feed. -/
structure Plain (request : SignedRequest) : Prop where
  method : byte '\n' ∉ request.method
  values : ∀ header ∈ request.headers, byte '\n' ∉ header.2

/-- How a request is signed. -/
inductive SigningMode
  | header
  | presigned
deriving DecidableEq, Repr

/-- The query that is signed. -/
def signedQuery (mode : SigningMode) (request : SignedRequest) : Bytes :=
  match mode with
  | .header => request.queryString
  | .presigned => queryWithoutSignature request.queryString

/-- The canonical request in each mode. -/
def canonicalRequestOf (mode : SigningMode) (request : SignedRequest) (signedHeaders : List Bytes) :
    Except AuthError Bytes :=
  match mode with
  | .header => headerCanonicalRequest request signedHeaders
  | .presigned => presignedCanonicalRequest request signedHeaders

theorem canonicalRequestOf_eq_ok (h : canonicalRequestOf mode request signedHeaders = .ok text) :
    text = canonicalRequest request.method request.uri
      (canonicalQueryString (signedQuery mode request))
      (canonicalHeaders (signedHeaders.flatMap (signedBlock request.headers)))
      (join (byte ';') signedHeaders) request.bodyHash := by
  cases mode with
  | header =>
    obtain ⟨pairs, hpairs, h⟩ := bind_eq_ok.mp h
    cases h
    rw [collectSignedHeaders_eq_ok hpairs]
    rfl
  | presigned =>
    obtain ⟨pairs, hpairs, h⟩ := bind_eq_ok.mp h
    cases h
    rw [collectSignedHeaders_eq_ok hpairs]
    rfl

/-- The groups of the canonical headers. -/
def signedGroups (request : SignedRequest) (signedHeaders : List Bytes) :
    List (Bytes × List Bytes) :=
  groups ((signedHeaders.flatMap (signedBlock request.headers)).insertionSort fun a b => a.1 ≤ b.1)

theorem mem_signedGroups (hplain : Plain request) (htokens : ∀ name ∈ signedHeaders, IsToken name)
    {group : Bytes × List Bytes} (h : group ∈ signedGroups request signedHeaders) :
    IsToken group.1 ∧ ∀ v ∈ group.2, byte '\n' ∉ v := by
  have hblock : ∀ pair ∈ (signedHeaders.flatMap (signedBlock request.headers)).insertionSort
      (fun a b => a.1 ≤ b.1), IsToken pair.1 ∧ byte '\n' ∉ pair.2 := by
    intro pair hpair
    rw [mem_insertionSort, mem_flatMap] at hpair
    obtain ⟨name, hname, hpair⟩ := hpair
    obtain ⟨heq, hvalue⟩ := mem_signedBlock hpair
    refine ⟨heq ▸ htokens name hname, ?_⟩
    rcases hvalue with hnil | ⟨header, hheader, hsame⟩
    · rw [hnil]
      exact not_mem_nil
    · rw [hsame]
      exact hplain.values header hheader
  obtain ⟨⟨header, hheader, heq⟩, -, hall⟩ := mem_groups h
  refine ⟨heq ▸ (hblock header hheader).1, fun v hv hmem => ?_⟩
  obtain ⟨other, hother, rfl⟩ := hall v hv
  exact (hblock other hother).2 (mem_of_mem_normalizeHeaderValue hmem)

/-- The text can be cut in one way only. -/
theorem request_eq_of_canonical_eq {mode' : SigningMode} {request' : SignedRequest}
    {signedHeaders' : List Bytes}
    (hplain : Plain request) (hplain' : Plain request')
    (htokens : ∀ name ∈ signedHeaders, IsToken name)
    (htokens' : ∀ name ∈ signedHeaders', IsToken name)
    (h : canonicalRequestOf mode request signedHeaders = .ok text)
    (h' : canonicalRequestOf mode' request' signedHeaders' = .ok text) :
    request.method = request'.method ∧
      percentDecodeBytes request.uri = percentDecodeBytes request'.uri ∧
      (decodedPairs (signedQuery mode request)).Perm (decodedPairs (signedQuery mode' request')) ∧
      signedHeaders = signedHeaders' ∧
      (∀ name ∈ signedHeaders,
        joinedValue request.headers name = joinedValue request'.headers name) ∧
      request.bodyHash = request'.bodyHash := by
  have htext := (canonicalRequestOf_eq_ok h).symm.trans (canonicalRequestOf_eq_ok h')
  obtain ⟨hmethod, htext⟩ := append_cons_inj_of_notMem hplain.method hplain'.method htext
  obtain ⟨hpath, htext⟩ := append_cons_inj_of_notMem (lf_notMem_uriEncodePath _)
    (lf_notMem_uriEncodePath _) htext
  obtain ⟨hquery, htext⟩ := append_cons_inj_of_notMem (lf_notMem_canonicalQueryString)
    (lf_notMem_canonicalQueryString) htext
  rw [canonicalHeaders, canonicalHeaders, headerLines_eq, headerLines_eq] at htext
  obtain ⟨hlines, htext⟩ := lines_inj (fun g hg => mem_signedGroups hplain htokens hg)
    (fun g hg => mem_signedGroups hplain' htokens' hg) htext
  have hnames : ∀ names : List Bytes, (∀ name ∈ names, IsToken name) →
      (∀ name ∈ names, byte ';' ∉ name ∧ name ≠ []) ∧ byte '\n' ∉ join (byte ';') names := by
    intro names hnames
    refine ⟨fun name hname => ⟨(hnames name hname).avoids separators_not_tchar.2.2,
      (hnames name hname).1⟩, fun hmem => ?_⟩
    rcases mem_intercalate hmem with heq | ⟨name, hname, hmem⟩
    · exact absurd heq (by decide)
    · exact (hnames name hname).avoids separators_not_tchar.1 hmem
  obtain ⟨hsigned, hhash⟩ := append_cons_inj_of_notMem (hnames _ htokens).2 (hnames _ htokens').2
    htext
  have hsame := intercalate_inj (hnames _ htokens).1 (hnames _ htokens').1 hsigned
  refine ⟨hmethod, ?_, decodedPairs_perm_of_canonical hquery, hsame, fun name hname => ?_, hhash⟩
  · rw [← percentDecodeBytes_uriEncodePath, hpath, percentDecodeBytes_uriEncodePath]
  · have hjoined := joined_eq_of_lines hlines name
    rw [valuesOf_insertionSort, valuesOf_insertionSort, joined_signed, joined_signed,
      ← hsame] at hjoined
    exact intercalate_replicate_inj (count_pos_iff.mpr hname) hjoined

/-! ### Headers that must be signed -/

/-- No header is left over when every required one is signed. -/
theorem unsignedRequiredHeaders_eq_nil (h : unsignedRequiredHeaders signedHeaders headers = []) :
    ((firstValue headers (utf8 "host")).isSome → utf8 "host" ∈ signedHeaders) ∧
      ∀ header ∈ headers, isRequiredAmz header.1 → header.1 ∈ signedHeaders := by
  -- the loop only appends
  have hloop : ∀ (headers : Headers) (unsigned : List Bytes),
      headers.foldl (fun unsigned header =>
        if isRequiredAmz header.1 ∧ header.1 ∉ signedHeaders ∧ header.1 ∉ unsigned then
          unsigned ++ [header.1]
        else unsigned) unsigned = [] →
      unsigned = [] ∧ ∀ header ∈ headers, isRequiredAmz header.1 → header.1 ∈ signedHeaders := by
    intro headers
    induction headers with
    | nil => exact fun unsigned hnil => ⟨hnil, fun header hmem => nomatch hmem⟩
    | cons header headers ih =>
      intro unsigned hnil
      obtain ⟨hnext, hrest⟩ := ih _ hnil
      dsimp only at hnext
      split at hnext
      · exact absurd hnext (by simp)
      · next hkept =>
        subst hnext
        refine ⟨rfl, forall_mem_cons.mpr ⟨fun hrequired => ?_, hrest⟩⟩
        by_contra hunsigned
        exact hkept ⟨hrequired, hunsigned, not_mem_nil⟩
  obtain ⟨hhost, hall⟩ := hloop headers _ h
  refine ⟨fun hpresent => ?_, hall⟩
  by_contra hunsigned
  rw [if_pos ⟨hpresent, hunsigned⟩] at hhost
  cases hhost

theorem verifyRequestCredential_eq_ok
    {auth : SigV4Auth} {timestamp : Option HeaderSigningTimestamp} {secret creq : Bytes}
    (h : verifyRequestCredential hashes request auth timestamp secret = .ok creq) :
    unsignedRequiredHeaders auth.signedHeaders request.headers = [] := by
  simp only [verifyRequestCredential, bind_eq_ok, failIf_eq_ok, okOr_eq_ok, exists_const,
    pure_eq_ok, Decidable.not_not] at h
  obtain ⟨-, -, hunsigned, -⟩ := h
  exact hunsigned

theorem authenticateHeader_eq_ok {provider : IdentityProvider}
    {method path queryString body authHeader : Bytes}
    {expectedRegion : Option Bytes} {expectedService : SigningService} {nowEpochSecs : Nat}
    {context : AuthContext}
    (h : authenticateHeader hashes provider method path queryString headers body expectedRegion
      expectedService nowEpochSecs authHeader = .ok context) :
    ∃ auth creq, parseAuthHeader authHeader = .ok auth ∧
      ∃ timestamp secret, verifyRequestCredential hashes
        ⟨method, path, queryString, headers,
          expectedService.headerPayloadHash hashes headers body⟩ auth timestamp secret =
            .ok creq := by
  simp only [authenticateHeader, bind_eq_ok, failIf_eq_ok, onSome_eq_ok, exists_const] at h
  obtain ⟨auth, hauth, -, -, -, credential, -, creq, hverify, -⟩ := h
  exact ⟨auth, creq, hauth, _, _, hverify⟩

/-- A header that must be signed. -/
def MustBeSigned (name : Bytes) : Prop :=
  name = utf8 "host" ∨ utf8 "x-amz-" <+: name ∧ name ≠ utf8 "x-amz-content-sha256"

/-- **The canonical request determines the request.**  Two requests, each header-signed or
presigned, with the same canonical text have the same method, path bytes, query pairs up to their
order (without the signature of a presigned request), signed names, values of each signed header and
payload hash.  And a request that is accepted by its `Authorization` header has all its `host` and
`x-amz-*` headers signed, apart from `x-amz-content-sha256`, which is the payload hash. -/
theorem canonical_request_determines :
    (∀ (mode mode' : SigningMode) (request request' : SignedRequest)
      (signedHeaders signedHeaders' : List Bytes) (text : Bytes), Plain request → Plain request' →
      (∀ name ∈ signedHeaders, IsToken name) → (∀ name ∈ signedHeaders', IsToken name) →
      canonicalRequestOf mode request signedHeaders = .ok text →
      canonicalRequestOf mode' request' signedHeaders' = .ok text →
        request.method = request'.method ∧
          percentDecodeBytes request.uri = percentDecodeBytes request'.uri ∧
          (decodedPairs (signedQuery mode request)).Perm
            (decodedPairs (signedQuery mode' request')) ∧
          signedHeaders = signedHeaders' ∧
          (∀ name ∈ signedHeaders,
            joinedValue request.headers name = joinedValue request'.headers name) ∧
          request.bodyHash = request'.bodyHash) ∧
    ∀ (hashes : Hashes) (provider : IdentityProvider) (method path queryString body : Bytes)
      (headers : Headers) (expectedRegion : Option Bytes) (expectedService : SigningService)
      (nowEpochSecs : Nat) (authHeader : Bytes) (context : AuthContext),
      authenticateHeader hashes provider method path queryString headers body expectedRegion
        expectedService nowEpochSecs authHeader = .ok context →
      ∃ auth, parseAuthHeader authHeader = .ok auth ∧
        ∀ header ∈ headers, MustBeSigned header.1 → header.1 ∈ auth.signedHeaders := by
  refine ⟨fun _ _ _ _ _ _ _ hplain hplain' htokens htokens' h h' =>
    request_eq_of_canonical_eq hplain hplain' htokens htokens' h h', ?_⟩
  intro hashes provider method path queryString body headers expectedRegion expectedService
    nowEpochSecs authHeader context haccepted
  obtain ⟨auth, creq, hauth, timestamp, secret, hverify⟩ := authenticateHeader_eq_ok haccepted
  obtain ⟨hhost, hamz⟩ := unsignedRequiredHeaders_eq_nil (verifyRequestCredential_eq_ok hverify)
  refine ⟨auth, hauth, fun header hheader hmust => ?_⟩
  rcases hmust with heq | ⟨hinit, hne⟩
  · rw [heq]
    refine hhost ?_
    rw [firstValue, Option.isSome_map, find?_isSome]
    exact ⟨header, hheader, by simpa using heq⟩
  · refine hamz header hheader ?_
    simpa [isRequiredAmz] using ⟨hinit, hne⟩

/-- Two spellings of one request. -/
def spelled (query host : String) : SignedRequest where
  method := utf8 "GET"
  uri := utf8 "/bucket/a%20b"
  queryString := utf8 query
  headers := [(utf8 "host", utf8 host), (utf8 "x-amz-date", utf8 "20130524T000000Z")]
  bodyHash := utf8 "UNSIGNED-PAYLOAD"

/-- Hash functions that hash nothing, and a provider that knows every key. -/
def constantHashes : Hashes := ⟨fun _ => [], fun _ _ => List.replicate 32 0⟩

def openProvider : IdentityProvider :=
  ⟨fun _ => false, fun _ _ => .ok ⟨[], true⟩, fun _ _ _ => .ok ⟨[], false⟩⟩

def sampleAuthorization : Bytes :=
  utf8 "AWS4-HMAC-SHA256 Credential=AK/20130524/r/s3/aws4_request, " ++
    utf8 "SignedHeaders=x-amz-date;Host, Signature=" ++ List.replicate 64 (byte '0')

theorem canonical_request_determines_sample :
    (∃ text, canonicalRequestOf .header (spelled "b=1&a=%32" " h  x") [utf8 "host"] = .ok text ∧
      canonicalRequestOf .header (spelled "a=2&&b=1" "h x ") [utf8 "host"] = .ok text) ∧
    (decodedPairs (utf8 "b=1&a=%32")).Perm (decodedPairs (utf8 "a=2&&b=1")) ∧
    ∃ auth, parseAuthHeader sampleAuthorization = .ok auth ∧ utf8 "host" ∈ auth.signedHeaders := by
  have htext : ∀ text : Bytes,
      text = utf8 "GET\n/bucket/a%20b\na=2&b=1\nhost:h x\n\nhost\nUNSIGNED-PAYLOAD" →
      canonicalRequestOf .header (spelled "b=1&a=%32" " h  x") [utf8 "host"] = .ok text ∧
        canonicalRequestOf .header (spelled "a=2&&b=1" "h x ") [utf8 "host"] = .ok text := by
    rintro _ rfl
    decide +kernel
  have hplain : ∀ query host : String, byte '\n' ∉ utf8 host → Plain (spelled query host) := by
    intro query host hhost
    refine ⟨show byte '\n' ∉ utf8 "GET" by decide +kernel, forall_mem_cons.mpr ⟨hhost, ?_⟩⟩
    exact forall_mem_singleton.mpr (by decide +kernel)
  have htokens : ∀ name ∈ [utf8 "host"], IsToken name :=
    forall_mem_singleton.mpr ⟨by decide +kernel, by decide +kernel⟩
  obtain ⟨h, h'⟩ := htext _ rfl
  refine ⟨⟨_, h, h'⟩, ?_, ?_⟩
  · exact (canonical_request_determines.1 .header .header _ _ _ _ _
      (hplain _ _ (by decide +kernel)) (hplain _ _ (by decide +kernel)) htokens htokens h h').2.2.1
  · have haccepted : (authenticateHeader constantHashes openProvider (utf8 "GET") (utf8 "/") []
        (spelled "" "h").headers [] none .s3 1369353600 sampleAuthorization).isOk = true := by
      decide +kernel
    cases hcontext : authenticateHeader constantHashes openProvider (utf8 "GET") (utf8 "/") []
        (spelled "" "h").headers [] none .s3 1369353600 sampleAuthorization with
    | error e =>
      rw [hcontext] at haccepted
      cases haccepted
    | ok context =>
      obtain ⟨auth, hauth, hsigned⟩ :=
        canonical_request_determines.2 _ _ _ _ _ _ _ _ _ _ _ _ hcontext
      exact ⟨auth, hauth, hsigned (utf8 "host", utf8 "h") mem_cons_self (.inl rfl)⟩

end Argmin.Auth
