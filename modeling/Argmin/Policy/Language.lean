import Argmin.Lib.Text
import Mathlib.Data.List.Forall2

/-!
# The policy language

What every kind of policy document shares: effects, versions, condition clauses, and pattern values
with the wildcard matcher.  A pattern value is a text together with the positions of the wildcards
that stand for themselves; the positions are ascending and inside the text, and only the operations
below build one.

A policy is evaluated with functions of the standard library and of two crates.  `Libraries` has
those whose result is not fixed here: Unicode lower case, IP addresses as text, Base64, and
floating-point numbers.
-/

namespace Argmin.Policy

open List

/-! ### Texts -/

def toAsciiLowercase (t : Text) : Text := t.map Char.toLower

def eqIgnoreAsciiCase (a b : Text) : Bool := toAsciiLowercase a == toAsciiLowercase b

def stripPrefix (t start : Text) : Option Text :=
  if start.isPrefixOf t then some (t.drop start.length) else none

def stripSuffix (t ending : Text) : Option Text :=
  if ending.isSuffixOf t then some (t.take (t.length - ending.length)) else none

/-- What stands before and after the first occurrence of `mark`. -/
def splitOnce (mark : Text) : Text → Option (Text × Text)
  | [] => if mark = [] then some ([], []) else none
  | c :: rest =>
    match stripPrefix (c :: rest) mark with
    | some after => some ([], after)
    | none => (splitOnce mark rest).map fun (before, after) => (c :: before, after)

/-- `char::is_whitespace`. -/
def isWhitespace (c : Char) : Bool :=
  let n := c.toNat
  (0x09 ≤ n && n ≤ 0x0d) || n == 0x20 || n == 0x85 || n == 0xa0 || n == 0x1680 ||
    (0x2000 ≤ n && n ≤ 0x200a) || n == 0x2028 || n == 0x2029 || n == 0x202f || n == 0x205f ||
    n == 0x3000

def trim (t : Text) : Text :=
  ((t.dropWhile isWhitespace).reverse.dropWhile isWhitespace).reverse

/-- The length in bytes. -/
def byteLength (t : Text) : Nat := (t.map Char.utf8Size).sum

/-! ### Library functions -/

inductive IpAddr
  | v4 (addr : BitVec 32)
  | v6 (addr : BitVec 128)
deriving DecidableEq

structure Libraries where
  toLowercase : Text → Text
  parseIpAddr : Text → Option IpAddr
  showIpAddr : IpAddr → Text
  decodeBase64 : Text → Option (List UInt8)
  F64 : Type
  parseF64 : Text → Option F64
  ofU64 : Nat → F64
  isFinite : F64 → Bool
  /-- `<` and `<=` of the numbers, and equality in their total order. -/
  lt : F64 → F64 → Bool
  le : F64 → F64 → Bool
  totalCmpIsEq : F64 → F64 → Bool

/-- Libraries that accept no text. -/
def emptyLibraries : Libraries where
  toLowercase := id
  parseIpAddr _ := none
  showIpAddr _ := []
  decodeBase64 _ := none
  F64 := Unit
  parseF64 _ := none
  ofU64 _ := ()
  isFinite _ := false
  lt _ _ := false
  le _ _ := false
  totalCmpIsEq _ _ := false

/-! ### Pattern values -/

structure PolicyValue where
  value : Text
  escapedWildcards : List Nat
  ordered : escapedWildcards.Pairwise (· < ·)
  inside : ∀ index ∈ escapedWildcards, index < value.length
deriving DecidableEq

namespace PolicyValue

def literal (value : Text) : PolicyValue :=
  ⟨value, [], .nil, fun _ h => absurd h List.not_mem_nil⟩

variable (self : PolicyValue)

/-- Append source policy syntax, preserving wildcard interpretation. -/
def pushPatternFragment (fragment : Text) : PolicyValue where
  value := self.value ++ fragment
  escapedWildcards := self.escapedWildcards
  ordered := self.ordered
  inside := by
    intro index hindex
    have hlt := self.inside index hindex
    rw [List.length_append]
    omega

/-- Append one wildcard character that must be matched literally. -/
def pushLiteralWildcard (c : Char) : PolicyValue where
  value := self.value ++ [c]
  escapedWildcards := self.escapedWildcards ++ [self.value.length]
  ordered := by
    refine List.pairwise_append.mpr ⟨self.ordered, List.pairwise_singleton _ _, ?_⟩
    intro index hindex last hlast
    rw [List.mem_singleton.mp hlast]
    exact self.inside index hindex
  inside := by
    intro index hindex
    rw [List.length_append, List.length_singleton]
    rcases List.mem_append.mp hindex with hindex | hindex
    · have hlt := self.inside index hindex
      omega
    · rw [List.mem_singleton.mp hindex]
      omega

def pushLiteralAsterisk : PolicyValue := self.pushLiteralWildcard '*'

def pushLiteralQuestionMark : PolicyValue := self.pushLiteralWildcard '?'

/-- The binary search of the source: the positions are ascending. -/
def wildcardIsEscaped (charIndex : Nat) : Bool :=
  self.escapedWildcards.contains charIndex

end PolicyValue

/-! ### The wildcard matcher -/

/-- Entry `i` is whether an entry up to `i` is set, or `seen` is. -/
def runningOr : Bool → List Bool → List Bool
  | _, [] => []
  | seen, entry :: rest => (entry || seen) :: runningOr (entry || seen) rest

/-- The row after one more pattern character: entry `i` says that the pattern so far matches the
first `i` characters of the value. -/
def wildcardRow (pattern : PolicyValue) (value : Text) (previous : List Bool)
    (patternCh : Char × Nat) : List Bool :=
  let escaped := pattern.wildcardIsEscaped patternCh.2
  if patternCh.1 = '*' ∧ escaped = false then runningOr false previous
  else if patternCh.1 = '?' ∧ escaped = false then false :: previous.take value.length
  else false :: List.zipWith (fun actual seen => actual == patternCh.1 && seen) value previous

def policyValueWildcardMatches (pattern : PolicyValue) (value : Text) : Bool :=
  let rows := pattern.value.zipIdx.foldl (wildcardRow pattern value)
    (true :: List.replicate value.length false)
  rows.getD value.length false

def wildcardMatches (pattern value : Text) : Bool :=
  policyValueWildcardMatches (.literal pattern) value

def actionPatternMatches (pattern action : Text) : Bool :=
  wildcardMatches (toAsciiLowercase pattern) (toAsciiLowercase action)

/-! ### The glob relation -/

/-- What one character of a pattern matches: `*` any text, `?` one character, and an escaped
wildcard or another character itself. -/
def PolicyValue.MatchesPiece (self : PolicyValue) (patternCh : Char × Nat) (piece : Text) : Prop :=
  if self.wildcardIsEscaped patternCh.2 then piece = [patternCh.1]
  else if patternCh.1 = '*' then True
  else if patternCh.1 = '?' then piece.length = 1
  else piece = [patternCh.1]

/-- The entry of the row at `i` says whether the first `i` characters of the value are accepted. -/
def IsRow (accepted : Text → Prop) : Text → List Bool → Prop
  | [], row => ∃ b, row = [b] ∧ (b = true ↔ accepted [])
  | c :: rest, row => ∃ b more, row = b :: more ∧ (b = true ↔ accepted []) ∧
      IsRow (fun t => accepted (c :: t)) rest more

section Rows

variable {accepted accepted' : Text → Prop} {pattern : PolicyValue} {value : Text} {row : List Bool}

theorem isRow_start (value : Text) (b : Bool) :
    IsRow (fun t => t = [] ∧ b = true) value (b :: replicate value.length false) := by
  induction value generalizing b with
  | nil => exact ⟨b, rfl, by simp⟩
  | cons c rest ih =>
    exact ⟨b, _, rfl, by simp, by simpa [replicate_succ] using ih false⟩

variable (h : IsRow accepted value row)
include h

theorem IsRow.congr (hiff : ∀ t, accepted t ↔ accepted' t) : IsRow accepted' value row := by
  rwa [← funext fun t => propext (hiff t)]

theorem IsRow.last : row.getD value.length false = true ↔ accepted value := by
  induction value generalizing accepted row with
  | nil =>
    obtain ⟨b, rfl, hb⟩ := h
    exact hb
  | cons c rest ih =>
    obtain ⟨b, more, rfl, -, hmore⟩ := h
    exact ih hmore

theorem IsRow.star (seen : Bool) :
    IsRow (fun t => seen = true ∨ ∃ a, a <+: t ∧ accepted a) value (runningOr seen row) := by
  induction value generalizing accepted row seen with
  | nil =>
    obtain ⟨b, rfl, hb⟩ := h
    exact ⟨b || seen, rfl, by simp [hb, or_comm]⟩
  | cons c rest ih =>
    obtain ⟨b, more, rfl, hb, hmore⟩ := h
    refine ⟨b || seen, _, rfl, by simp [hb, or_comm], (ih hmore (b || seen)).congr fun t => ?_⟩
    simp [prefix_cons_iff, hb, or_and_right, exists_or, or_assoc, or_left_comm]

theorem IsRow.character (test : Char → Bool) (b : Bool) :
    IsRow (fun t => t = [] ∧ b = true ∨ ∃ a c, t = a ++ [c] ∧ accepted a ∧ test c = true) value
      (b :: zipWith (fun c seen => test c && seen) value row) := by
  induction value generalizing accepted row b with
  | nil => exact ⟨b, by simp, by simp⟩
  | cons d rest ih =>
    obtain ⟨e, more, rfl, he, hmore⟩ := h
    refine ⟨b, _, rfl, by simp, (ih hmore (test d && e)).congr fun t => ?_⟩
    constructor
    · rintro (⟨rfl, htest⟩ | ⟨a, c, rfl, ha, hc⟩)
      · rw [Bool.and_eq_true, he] at htest
        exact .inr ⟨[], d, rfl, htest.2, htest.1⟩
      · exact .inr ⟨d :: a, c, rfl, ha, hc⟩
    · rintro (⟨⟨⟩, -⟩ | ⟨_ | ⟨_, a⟩, c, heq, ha, hc⟩)
      · obtain ⟨rfl, rfl⟩ := cons_eq_cons.mp heq
        exact .inl ⟨rfl, by rw [hc, he.mpr ha]; rfl⟩
      · obtain ⟨rfl, rfl⟩ := cons_eq_cons.mp heq
        exact .inr ⟨a, c, rfl, ha, hc⟩

omit h in
theorem zipWith_right (value : Text) (row : List Bool) :
    zipWith (fun _ seen => seen) value row = row.take value.length := by
  induction value generalizing row with
  | nil => rfl
  | cons _ _ ih => cases row <;> simp [ih]

theorem IsRow.wildcardRow (patternCh : Char × Nat) :
    IsRow (fun t => ∃ a piece, t = a ++ piece ∧ accepted a ∧ pattern.MatchesPiece patternCh piece)
      value (wildcardRow pattern value row patternCh) := by
  unfold Policy.wildcardRow PolicyValue.MatchesPiece
  cases pattern.wildcardIsEscaped patternCh.2 with
  | true => simpa using h.character (· == patternCh.1) false
  | false =>
    rcases patternCh with ⟨c, index⟩
    by_cases hstar : c = '*'
    · simpa [hstar, IsPrefix, eq_comm] using h.star false
    by_cases hone : c = '?'
    · have hrow := h.character (fun _ => true) false
      simp only [Bool.true_and, zipWith_right] at hrow
      simpa [hone, length_eq_one_iff] using hrow
    · simpa [hstar, hone] using h.character (· == c) false

theorem IsRow.foldl (chars : List (Char × Nat)) :
    IsRow (fun t => ∃ a pieces, t = a ++ flatten pieces ∧ accepted a ∧
        Forall₂ pattern.MatchesPiece chars pieces)
      value (chars.foldl (Policy.wildcardRow pattern value) row) := by
  induction chars generalizing accepted row with
  | nil => exact h.congr (by simp)
  | cons patternCh rest ih =>
    refine (ih (h.wildcardRow patternCh)).congr fun t => ?_
    constructor
    · rintro ⟨_, pieces, rfl, ⟨a, piece, rfl, ha, hpiece⟩, hpieces⟩
      exact ⟨a, piece :: pieces, append_assoc .., ha, .cons hpiece hpieces⟩
    · rintro ⟨a, _, rfl, ha, _ | ⟨hpiece, hpieces⟩⟩
      exact ⟨_, _, (append_assoc ..).symm, ⟨a, _, rfl, ha, hpiece⟩, hpieces⟩

end Rows

/-- **The matcher is the glob relation**: a value matches exactly when it splits into pieces that
the characters of the pattern match one by one. -/
theorem policyValueWildcardMatches_iff (pattern : PolicyValue) (value : Text) :
    policyValueWildcardMatches pattern value = true ↔ ∃ pieces, value = flatten pieces ∧
      Forall₂ pattern.MatchesPiece pattern.value.zipIdx pieces := by
  refine ((isRow_start value true).foldl _).last.trans ?_
  simp

/-! ### Statements -/

inductive PolicyEvaluation
  | explicitDeny
  | explicitAllow
  | noMatch
deriving DecidableEq, Repr

inductive PolicyVersion
  | v2008x10x17
  | v2012x10x17
deriving DecidableEq, Repr

inductive PolicyEffect
  | allow
  | deny
deriving DecidableEq, Repr

/-- One normalized condition operator/key/value clause. -/
structure PolicyConditionClause where
  operator : Text
  key : Text
  values : List Text
deriving DecidableEq, Repr

structure PolicyStatementCore where
  sid : Option Text
  effect : PolicyEffect
  actions : List Text
  conditions : List PolicyConditionClause
deriving DecidableEq, Repr

end Argmin.Policy
