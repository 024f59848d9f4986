import Argmin.Auth.SigV4
import Argmin.Lib.Byte
import Argmin.Lib.Separated

/-!
# Cutting the canonical request

Method, path, query and header lines are lines of the text, none of which holds a line feed; so the
text can be cut in one way only.

* `percentDecodeBytes_uriEncodePath` — the path line decodes to what the path decodes to;
* `decodedPairs_perm_of_canonical` — the query line determines the decoded pairs up to their order;
* `lines_inj`, `joined_eq_of_lines` — the header lines determine the joined values of each name.
-/

namespace Argmin.Auth

open Fallible Separated List
open Text (utf8)
open Byte (forall_byte)

variable {name query rest value : Bytes} {group : Bytes × List Bytes} {headers : Headers}
  {values : List Bytes} {a b c : UInt8}

/-! ### Bytes -/

/-- The bytes that have a meaning in the text are not in an encoded byte. -/
theorem notMem_encodeByte : ∀ b : UInt8, byte '\n' ∉ encodeByte b ∧ byte '&' ∉ encodeByte b ∧
    byte '=' ∉ encodeByte b := forall_byte (by decide +kernel)

theorem lf_notMem_encodePathByte : ∀ b : UInt8, byte '\n' ∉ encodePathByte b :=
  forall_byte (by decide +kernel)

theorem lf_ne_of_hexVal : ∀ b : UInt8, (hexVal b).isSome = true → b ≠ byte '\n' :=
  forall_byte (by decide +kernel)

/-- An encoded byte is itself or an escape that stands for it. -/
theorem encodeByte_cases : ∀ b : UInt8, encodeByte b = [b] ∧ b ≠ byte '%' ∨
    encodeByte b = [byte '%', hexUpper (b >>> 4), hexUpper (b &&& 0x0f)] ∧
      hexVal (hexUpper (b >>> 4)) = some (b >>> 4) ∧
      hexVal (hexUpper (b &&& 0x0f)) = some (b &&& 0x0f) ∧
      (b >>> 4) <<< 4 ||| (b &&& 0x0f) = b := forall_byte (by decide +kernel)

/-! ### The path -/

theorem percentDecodeBytes_cons (h : b ≠ byte '%') :
    percentDecodeBytes (b :: rest) = b :: percentDecodeBytes rest := by
  have hne : (b == byte '%') = false := beq_eq_false_iff_ne.mpr h
  match rest with
  | [] => rfl
  | [_] => rfl
  | _ :: _ :: _ => rw [percentDecodeBytes, hne]

theorem percentDecodeBytes_escape {hi lo : UInt8} (hb : hexVal b = some hi)
    (hc : hexVal c = some lo) (rest : Bytes) :
    percentDecodeBytes (byte '%' :: b :: c :: rest) =
      (hi <<< 4 ||| lo) :: percentDecodeBytes rest := by
  rw [percentDecodeBytes, hb, hc]
  rfl

theorem percentDecodeBytes_encodeByte :
    percentDecodeBytes (encodeByte b ++ rest) = b :: percentDecodeBytes rest := by
  rcases encodeByte_cases b with ⟨heq, hne⟩ | ⟨heq, hhi, hlo, hb⟩
  · rw [heq]
    exact percentDecodeBytes_cons hne
  · rw [heq, cons_append, cons_append, cons_append, nil_append,
      percentDecodeBytes_escape hhi hlo, hb]

theorem percentDecodeBytes_encodePathByte :
    percentDecodeBytes (encodePathByte b ++ rest) = b :: percentDecodeBytes rest := by
  unfold encodePathByte
  split
  · next hslash =>
    subst hslash
    exact percentDecodeBytes_cons (by decide)
  · exact percentDecodeBytes_encodeByte

/-- What is not an escape is kept. -/
theorem percentDecodeBytes_of_not_escape (h : ¬isEscape a b c = true) (rest : Bytes) :
    percentDecodeBytes (a :: b :: c :: rest) = a :: percentDecodeBytes (b :: c :: rest) := by
  by_cases ha : a = byte '%'
  · subst ha
    rw [percentDecodeBytes]
    simp only [isEscape, beq_self_eq_true, Bool.true_and, Bool.and_eq_true,
      Option.isSome_iff_exists, not_and, not_exists] at h ⊢
    cases hb : hexVal b with
    | none => rfl
    | some hi =>
      cases hc : hexVal c with
      | none => rfl
      | some lo => exact absurd hc (h ⟨hi, hb⟩ lo)
  · exact percentDecodeBytes_cons ha

theorem percentDecodeBytes_of_short (h : ∀ b c more, rest = b :: c :: more → False) :
    percentDecodeBytes (a :: rest) = a :: percentDecodeBytes rest := by
  match rest with
  | [] => rfl
  | [_] => rfl
  | b :: c :: more => exact absurd rfl (h b c more)

theorem uriEncodePath_of_short (h : ∀ b c more, rest = b :: c :: more → False) :
    uriEncodePath (a :: rest) = encodePathByte a ++ uriEncodePath rest := by
  match rest with
  | [] => rfl
  | [_] => rfl
  | b :: c :: more => exact absurd rfl (h b c more)

/-- **The path line decodes to what the path decodes to.** -/
theorem percentDecodeBytes_uriEncodePath (path : Bytes) :
    percentDecodeBytes (uriEncodePath path) = percentDecodeBytes path := by
  induction path using uriEncodePath.induct with
  | case1 a b c rest hescape ih =>
    rw [uriEncodePath, if_pos hescape]
    simp only [isEscape, Bool.and_eq_true, beq_iff_eq, Option.isSome_iff_exists] at hescape
    obtain ⟨⟨rfl, hi, hhi⟩, lo, hlo⟩ := hescape
    rw [percentDecodeBytes_escape hhi hlo, percentDecodeBytes_escape hhi hlo, ih]
  | case2 a b c rest hescape ih =>
    rw [uriEncodePath, if_neg hescape, percentDecodeBytes_encodePathByte, ih,
      percentDecodeBytes_of_not_escape hescape]
  | case3 a rest hshort ih =>
    rw [uriEncodePath_of_short hshort, percentDecodeBytes_encodePathByte, ih,
      percentDecodeBytes_of_short hshort]
  | case4 => rfl

theorem lf_notMem_uriEncodePath (path : Bytes) : byte '\n' ∉ uriEncodePath path := by
  induction path using uriEncodePath.induct with
  | case1 a b c rest hescape ih =>
    rw [uriEncodePath, if_pos hescape]
    simp only [isEscape, Bool.and_eq_true, beq_iff_eq] at hescape
    obtain ⟨⟨rfl, hb⟩, hc⟩ := hescape
    have hb' := lf_ne_of_hexVal b hb
    have hc' := lf_ne_of_hexVal c hc
    simp only [mem_cons, not_or]
    exact ⟨by decide, hb'.symm, hc'.symm, ih⟩
  | case2 a b c rest hescape ih =>
    rw [uriEncodePath, if_neg hescape, mem_append, not_or]
    exact ⟨lf_notMem_encodePathByte a, ih⟩
  | case3 a rest hshort ih =>
    rw [uriEncodePath_of_short hshort, mem_append, not_or]
    exact ⟨lf_notMem_encodePathByte a, ih⟩
  | case4 => exact not_mem_nil

/-! ### The query -/

theorem notMem_uriEncode : byte '\n' ∉ uriEncode value ∧
    byte '&' ∉ uriEncode value ∧ byte '=' ∉ uriEncode value := by
  simp only [uriEncode, mem_flatMap, not_exists, not_and]
  exact ⟨fun b _ => (notMem_encodeByte b).1, fun b _ => (notMem_encodeByte b).2.1,
    fun b _ => (notMem_encodeByte b).2.2⟩

theorem percentDecodeBytes_uriEncode : percentDecodeBytes (uriEncode value) = value := by
  induction value with
  | nil => rfl
  | cons b value ih =>
    show percentDecodeBytes (encodeByte b ++ uriEncode value) = _
    rw [percentDecodeBytes_encodeByte, ih]

theorem splitPair_append {key val : Bytes} (h : byte '=' ∉ key) :
    splitPair (key ++ byte '=' :: val) = (key, val) := by
  have hkey : ∀ b ∈ key, (b != byte '=') = true := by
    intro b hb
    rw [bne_iff_ne]
    exact fun heq => h (heq ▸ hb)
  rw [splitPair, takeWhile_append_of_pos hkey, dropWhile_append_of_pos hkey,
    takeWhile_cons_of_neg (by decide), dropWhile_cons_of_neg (by decide),
    append_nil]
  rfl

/-- The pairs of a query, decoded as the source decodes them. -/
def decodedPairs (query : Bytes) : List (Bytes × Bytes) :=
  (queryPairs query).map fun pair => (percentDecode pair.1, percentDecode pair.2)

/-- The pairs of a query in the order of the canonical text. -/
def sortedPairs (query : Bytes) : List (Bytes × Bytes) :=
  ((decodedPairs query).map fun pair => (uriEncode pair.1, uriEncode pair.2)).insertionSort
    fun a b => a.1 < b.1 ∨ a.1 = b.1 ∧ a.2 ≤ b.2

theorem canonicalQueryString_eq : canonicalQueryString query =
    [byte '&'].intercalate ((sortedPairs query).map fun pair => pair.1 ++ byte '=' :: pair.2) := by
  unfold canonicalQueryString sortedPairs decodedPairs
  split
  · next hnil =>
    subst hnil
    rfl
  · rw [map_map]
    rfl

theorem mem_sortedPairs {pair : Bytes × Bytes} (h : pair ∈ sortedPairs query) :
    ∃ key val, pair = (uriEncode key, uriEncode val) := by
  rw [sortedPairs, mem_insertionSort, mem_map] at h
  obtain ⟨decoded, -, rfl⟩ := h
  exact ⟨decoded.1, decoded.2, rfl⟩

theorem lf_notMem_canonicalQueryString : byte '\n' ∉ canonicalQueryString query := by
  rw [canonicalQueryString_eq]
  intro hmem
  rcases mem_intercalate hmem with heq | ⟨item, hitem, hmem⟩
  · exact absurd heq (by decide)
  · obtain ⟨pair, hpair, rfl⟩ := mem_map.mp hitem
    obtain ⟨key, val, rfl⟩ := mem_sortedPairs hpair
    rw [mem_append, mem_cons] at hmem
    rcases hmem with hmem | heq | hmem
    · exact (notMem_uriEncode).1 hmem
    · exact absurd heq (by decide)
    · exact (notMem_uriEncode).1 hmem

/-- **The query line determines the decoded pairs** up to their order. -/
theorem decodedPairs_perm_of_canonical {query' : Bytes}
    (h : canonicalQueryString query = canonicalQueryString query') :
    (decodedPairs query).Perm (decodedPairs query') := by
  have hitems : ∀ (query item : Bytes),
      item ∈ (sortedPairs query).map (fun pair => pair.1 ++ byte '=' :: pair.2) →
        byte '&' ∉ item ∧ item ≠ [] := by
    intro query item hitem
    obtain ⟨pair, hpair, rfl⟩ := mem_map.mp hitem
    obtain ⟨key, val, rfl⟩ := mem_sortedPairs hpair
    refine ⟨fun hmem => ?_, by simp⟩
    rw [mem_append, mem_cons] at hmem
    rcases hmem with hmem | heq | hmem
    · exact (notMem_uriEncode).2.1 hmem
    · exact absurd heq (by decide)
    · exact (notMem_uriEncode).2.1 hmem
  -- the items are split and decoded again
  have hback : ∀ query : Bytes, (((sortedPairs query).map fun pair =>
      pair.1 ++ byte '=' :: pair.2).map fun item =>
        (percentDecodeBytes (splitPair item).1, percentDecodeBytes (splitPair item).2)).Perm
          (decodedPairs query) := by
    intro query
    rw [map_map]
    refine ((perm_insertionSort _ _).map _).trans (.of_eq ?_)
    rw [map_map]
    refine (map_congr_left fun pair _ => ?_).trans (map_id _)
    simp only [Function.comp_apply, splitPair_append (notMem_uriEncode).2.2,
      percentDecodeBytes_uriEncode, id]
  rw [canonicalQueryString_eq, canonicalQueryString_eq] at h
  have hmap := intercalate_inj (hitems query) (hitems query') h
  have hperm := hback query
  rw [hmap] at hperm
  exact hperm.symm.trans (hback query')

/-! ### The headers -/

/-- The bytes of an HTTP token. -/
def isTchar (b : UInt8) : Bool :=
  (byte 'A' ≤ b && b ≤ byte 'Z') || (byte 'a' ≤ b && b ≤ byte 'z') ||
    (byte '0' ≤ b && b ≤ byte '9') || (utf8 "!#$%&'*+-.^_`|~").contains b

def IsToken (name : Bytes) : Prop := name ≠ [] ∧ ∀ b ∈ name, isTchar b = true

theorem separators_not_tchar : isTchar (byte '\n') = false ∧ isTchar (byte ':') = false ∧
    isTchar (byte ';') = false := by decide +kernel

theorem IsToken.avoids (h : IsToken name) (hb : isTchar b = false) :
    b ∉ name := by
  intro hmem
  rw [h.2 b hmem] at hb
  cases hb

theorem mem_of_mem_collapseSpaces {flag : Bool} (h : b ∈ collapseSpaces flag value) :
    b ∈ value := by
  induction value generalizing flag with
  | nil => exact h
  | cons c value ih =>
    unfold collapseSpaces at h
    split at h
    · split at h
      · exact mem_cons_of_mem _ (ih h)
      · exact (mem_cons.mp h).elim (fun heq => heq ▸ mem_cons_self)
          fun hmem => mem_cons_of_mem _ (ih hmem)
    · exact (mem_cons.mp h).elim (fun heq => heq ▸ mem_cons_self)
        fun hmem => mem_cons_of_mem _ (ih hmem)

theorem mem_of_mem_normalizeHeaderValue (h : b ∈ normalizeHeaderValue value) : b ∈ value := by
  have htrimmed := mem_of_mem_collapseSpaces h
  exact (dropWhile_suffix _).subset (( rdropWhile_prefix _ _).subset htrimmed)

/-- Runs of headers of one name, with their normalized values. -/
def groupFrom (name : Bytes) (values : List Bytes) : Headers → List (Bytes × List Bytes)
  | [] => [(name, values)]
  | (other, value) :: rest =>
    if other = name then groupFrom name (values ++ [normalizeHeaderValue value]) rest
    else (name, values) :: groupFrom other [normalizeHeaderValue value] rest

def groups : Headers → List (Bytes × List Bytes)
  | [] => []
  | (name, value) :: rest => groupFrom name [normalizeHeaderValue value] rest

/-- One line of the canonical headers. -/
def lineOf (group : Bytes × List Bytes) : Bytes :=
  group.1 ++ byte ':' :: ([byte ','].intercalate group.2 ++ [byte '\n'])

theorem headerLinesFrom_eq (name : Bytes) (hvalues : values ≠ []) (rest : Headers) :
    name ++ byte ':' :: ([byte ','].intercalate values ++ headerLinesFrom name rest) =
      (groupFrom name values rest).flatMap lineOf := by
  induction rest generalizing name values with
  | nil => simp [headerLinesFrom, groupFrom, lineOf]
  | cons header rest ih =>
    obtain ⟨other, value⟩ := header
    unfold headerLinesFrom groupFrom
    split
    · rw [← ih name (show values ++ [normalizeHeaderValue value] ≠ [] by simp),
        intercalate_append hvalues (by simp), intercalate_singleton]
      simp
    · rw [flatMap_cons, ← ih other (show [normalizeHeaderValue value] ≠ [] by simp),
        intercalate_singleton, lineOf]
      simp

theorem headerLines_eq : headerLines headers = (groups headers).flatMap lineOf := by
  cases headers with
  | nil => rfl
  | cons header rest =>
    rw [headerLines, groups, ← headerLinesFrom_eq _ (by simp), intercalate_singleton]

/-- What the groups are made of. -/
theorem mem_groupFrom (hvalues : values ≠ []) {rest : Headers}
    (h : group ∈ groupFrom name values rest) :
    (group.1 = name ∨ ∃ header ∈ rest, group.1 = header.1) ∧ group.2 ≠ [] ∧
      ∀ v ∈ group.2, v ∈ values ∨ ∃ header ∈ rest, v = normalizeHeaderValue header.2 := by
  induction rest generalizing name values with
  | nil =>
    obtain rfl := mem_singleton.mp h
    exact ⟨.inl rfl, hvalues, fun v hv => .inl hv⟩
  | cons header rest ih =>
    obtain ⟨other, value⟩ := header
    unfold groupFrom at h
    split at h
    · next hsame =>
      obtain ⟨hname, hne, hall⟩ := ih (by simp) h
      refine ⟨hname.imp_right fun ⟨x, hx, heq⟩ => ⟨x, mem_cons_of_mem _ hx, heq⟩, hne,
        fun v hv => ?_⟩
      rcases hall v hv with hmem | ⟨x, hx, heq⟩
      · rcases mem_append.mp hmem with hmem | hmem
        · exact .inl hmem
        · exact .inr ⟨(other, value), mem_cons_self, mem_singleton.mp hmem⟩
      · exact .inr ⟨x, mem_cons_of_mem _ hx, heq⟩
    · rcases mem_cons.mp h with rfl | h
      · exact ⟨.inl rfl, hvalues, fun v hv => .inl hv⟩
      · obtain ⟨hname, hne, hall⟩ := ih (by simp) h
        refine ⟨.inr ?_, hne, fun v hv => .inr ?_⟩
        · rcases hname with heq | ⟨x, hx, heq⟩
          · exact ⟨(other, value), mem_cons_self, heq⟩
          · exact ⟨x, mem_cons_of_mem _ hx, heq⟩
        · rcases hall v hv with hmem | ⟨x, hx, heq⟩
          · exact ⟨(other, value), mem_cons_self, mem_singleton.mp hmem⟩
          · exact ⟨x, mem_cons_of_mem _ hx, heq⟩

theorem mem_groups (h : group ∈ groups headers) :
    (∃ header ∈ headers, group.1 = header.1) ∧ group.2 ≠ [] ∧
      ∀ v ∈ group.2, ∃ header ∈ headers, v = normalizeHeaderValue header.2 := by
  cases headers with
  | nil => cases h
  | cons header rest =>
    obtain ⟨hname, hne, hall⟩ := mem_groupFrom (by simp) h
    refine ⟨?_, hne, fun v hv => ?_⟩
    · rcases hname with heq | ⟨x, hx, heq⟩
      · exact ⟨header, mem_cons_self, heq⟩
      · exact ⟨x, mem_cons_of_mem _ hx, heq⟩
    · rcases hall v hv with hmem | ⟨x, hx, heq⟩
      · exact ⟨header, mem_cons_self, mem_singleton.mp hmem⟩
      · exact ⟨x, mem_cons_of_mem _ hx, heq⟩

/-- The normalized values of a name, in order. -/
def valuesOf (headers : Headers) (name : Bytes) : List Bytes :=
  (headers.filter (·.1 = name)).map fun header => normalizeHeaderValue header.2

theorem flatMap_groupFrom (n name : Bytes) (rest : Headers) :
    ((groupFrom name values rest).filter (·.1 = n)).flatMap Prod.snd =
      (if name = n then values else []) ++ valuesOf rest n := by
  induction rest generalizing name values with
  | nil => by_cases h : name = n <;> simp [groupFrom, valuesOf, h]
  | cons header rest ih =>
    obtain ⟨other, value⟩ := header
    unfold groupFrom
    split
    · next hsame =>
      subst hsame
      rw [ih]
      by_cases h : other = n <;> simp [valuesOf, h]
    · next hother =>
      by_cases h : name = n
      · have hne : other ≠ n := h ▸ hother
        rw [filter_cons_of_pos (by simpa using h), flatMap_cons, ih]
        simp [valuesOf, h, hne]
      · rw [filter_cons_of_neg (by simpa using h), ih]
        by_cases hn : other = n <;> simp [valuesOf, h, hn]

/-- The groups of a name hold its values. -/
theorem flatMap_groups (n : Bytes) :
    ((groups headers).filter (·.1 = n)).flatMap Prod.snd = valuesOf headers n := by
  cases headers with
  | nil => rfl
  | cons header rest =>
    rw [groups, flatMap_groupFrom]
    by_cases h : header.1 = n <;> simp [valuesOf, h]

/-- Sorting keeps the headers of one name in their order. -/
theorem filter_insertionSort (n : Bytes) :
    (headers.insertionSort fun a b => a.1 ≤ b.1).filter (·.1 = n) = headers.filter (·.1 = n) := by
  have hinsert : ∀ (header : Bytes × Bytes) (l : Headers),
      (l.orderedInsert (fun a b => a.1 ≤ b.1) header).filter (·.1 = n) =
        (header :: l).filter (·.1 = n) := by
    intro header l
    induction l with
    | nil => rfl
    | cons other l ih =>
      rw [orderedInsert]
      split
      · rfl
      · next hgreater =>
        rw [filter_cons, ih]
        by_cases hother : other.1 = n
        · have hne : header.1 ≠ n := by
            intro heq
            exact hgreater (heq.trans hother.symm ▸ List.le_refl _)
          simp [hother, hne]
        · by_cases hheader : header.1 = n <;> simp [hother, hheader]
  induction headers with
  | nil => rfl
  | cons header headers ih =>
    rw [insertionSort_cons, hinsert, filter_cons, ih, filter_cons]

theorem valuesOf_insertionSort (n : Bytes) :
    valuesOf (headers.insertionSort fun a b => a.1 ≤ b.1) n = valuesOf headers n := by
  rw [valuesOf, filter_insertionSort, valuesOf]

/-- The lines of the headers, each with its name and its text. -/
theorem lines_inj {gs gs' : List (Bytes × List Bytes)} {rest' : Bytes}
    (hgs : ∀ g ∈ gs, IsToken g.1 ∧ ∀ v ∈ g.2, byte '\n' ∉ v)
    (hgs' : ∀ g ∈ gs', IsToken g.1 ∧ ∀ v ∈ g.2, byte '\n' ∉ v)
    (h : gs.flatMap lineOf ++ byte '\n' :: rest = gs'.flatMap lineOf ++ byte '\n' :: rest') :
    gs.map (fun g => (g.1, [byte ','].intercalate g.2)) =
      gs'.map (fun g => (g.1, [byte ','].intercalate g.2)) ∧ rest = rest' := by
  -- a line is not empty, and it has one line feed, at its end
  have hline : ∀ g : Bytes × List Bytes, (IsToken g.1 ∧ ∀ v ∈ g.2, byte '\n' ∉ v) →
      ∃ first more, g.1 = first :: more ∧ first ≠ byte '\n' ∧
        byte '\n' ∉ g.1 ++ byte ':' :: [byte ','].intercalate g.2 ∧ byte ':' ∉ g.1 := by
    intro g hg
    have hlf := hg.1.avoids separators_not_tchar.1
    have hcolon := hg.1.avoids separators_not_tchar.2.1
    obtain ⟨first, more, hfirst⟩ := exists_cons_of_ne_nil hg.1.1
    refine ⟨first, more, hfirst, fun heq => hlf ?_, ?_, hcolon⟩
    · rw [hfirst, heq]
      exact mem_cons_self
    · rw [mem_append, mem_cons, not_or, not_or]
      refine ⟨hlf, by decide, fun hmem => ?_⟩
      rcases mem_intercalate hmem with heq | ⟨v, hv, hmem⟩
      · exact absurd heq (by decide)
      · exact hg.2 v hv hmem
  have hshape : ∀ (g : Bytes × List Bytes) (gs : List (Bytes × List Bytes)) (rest : Bytes),
      (g :: gs).flatMap lineOf ++ byte '\n' :: rest =
        (g.1 ++ byte ':' :: [byte ','].intercalate g.2) ++ byte '\n' ::
          (gs.flatMap lineOf ++ byte '\n' :: rest) := by
    simp [lineOf]
  induction gs generalizing gs' with
  | nil =>
    cases gs' with
    | nil => exact ⟨rfl, (cons.inj h).2⟩
    | cons g' gs' =>
      obtain ⟨first, more, hfirst, hne, -, -⟩ := hline g' (hgs' g' mem_cons_self)
      rw [hshape, hfirst] at h
      exact absurd (cons.inj h).1.symm hne
  | cons g gs ih =>
    obtain ⟨first, more, hfirst, hne, hlf, hcolon⟩ := hline g (hgs g mem_cons_self)
    cases gs' with
    | nil =>
      rw [hshape, hfirst] at h
      exact absurd (cons.inj h).1 hne
    | cons g' gs' =>
      obtain ⟨-, -, -, -, hlf', hcolon'⟩ := hline g' (hgs' g' mem_cons_self)
      rw [hshape, hshape] at h
      obtain ⟨hfirstLine, hmore⟩ := append_cons_inj_of_notMem hlf hlf' h
      obtain ⟨hname, htext⟩ := append_cons_inj_of_notMem hcolon hcolon' hfirstLine
      obtain ⟨hlines, hrest⟩ := ih (fun x hx => hgs x (mem_cons_of_mem _ hx))
        (fun x hx => hgs' x (mem_cons_of_mem _ hx)) hmore
      exact ⟨by rw [map_cons, map_cons, hlines, hname, htext], hrest⟩

/-- The lines determine the joined values of each name. -/
theorem joined_eq_of_lines {headers' : Headers}
    (h : (groups headers).map (fun g => (g.1, [byte ','].intercalate g.2)) =
      (groups headers').map (fun g => (g.1, [byte ','].intercalate g.2))) (n : Bytes) :
    [byte ','].intercalate (valuesOf headers n) = [byte ','].intercalate (valuesOf headers' n) := by
  have hjoin : ∀ headers : Headers, [byte ','].intercalate (valuesOf headers n) =
      [byte ','].intercalate ((((groups headers).map
        (fun g => (g.1, [byte ','].intercalate g.2))).filter (·.1 = n)).map Prod.snd) := by
    intro headers
    rw [filter_map, map_map]
    have hmap : ((groups headers).filter (·.1 = n)).map
        (fun g => [byte ','].intercalate g.2) =
          (((groups headers).filter (·.1 = n)).map Prod.snd).map [byte ','].intercalate := by
      rw [map_map]
      rfl
    have hne : ∀ group ∈ ((groups headers).filter (·.1 = n)).map Prod.snd, group ≠ [] := by
      intro group hgroup
      obtain ⟨g, hg, rfl⟩ := mem_map.mp hgroup
      exact (mem_groups (mem_filter.mp hg).1).2.1
    rw [← flatMap_groups, flatMap_def, ← intercalate_map_intercalate hne, ← hmap]
    rfl
  rw [hjoin, hjoin, h]

end Argmin.Auth
