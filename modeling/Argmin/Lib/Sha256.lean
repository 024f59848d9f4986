import Mathlib.Algebra.Order.Ring.Int

/-!
# SHA-256

The hash function as a computable definition on byte lists.  Words are natural numbers below
`2 ^ 32`; every operation that can leave that range is reduced.  The message schedule is a
sliding window of sixteen words, so that the sixty-four rounds are one recursion over the round
constants.
-/

namespace Argmin.Sha256

def word (n : Nat) : Nat := n % 2 ^ 32

def rotr (n x : Nat) : Nat := word ((x >>> n) ||| (x <<< (32 - n)))

def roundConstants : List Nat := [
  0x428a2f98, 0x71374491, 0xb5c0fbcf, 0xe9b5dba5, 0x3956c25b, 0x59f111f1, 0x923f82a4, 0xab1c5ed5,
  0xd807aa98, 0x12835b01, 0x243185be, 0x550c7dc3, 0x72be5d74, 0x80deb1fe, 0x9bdc06a7, 0xc19bf174,
  0xe49b69c1, 0xefbe4786, 0x0fc19dc6, 0x240ca1cc, 0x2de92c6f, 0x4a7484aa, 0x5cb0a9dc, 0x76f988da,
  0x983e5152, 0xa831c66d, 0xb00327c8, 0xbf597fc7, 0xc6e00bf3, 0xd5a79147, 0x06ca6351, 0x14292967,
  0x27b70a85, 0x2e1b2138, 0x4d2c6dfc, 0x53380d13, 0x650a7354, 0x766a0abb, 0x81c2c92e, 0x92722c85,
  0xa2bfe8a1, 0xa81a664b, 0xc24b8b70, 0xc76c51a3, 0xd192e819, 0xd6990624, 0xf40e3585, 0x106aa070,
  0x19a4c116, 0x1e376c08, 0x2748774c, 0x34b0bcb5, 0x391c0cb3, 0x4ed8aa4a, 0x5b9cca4f, 0x682e6ff3,
  0x748f82ee, 0x78a5636f, 0x84c87814, 0x8cc70208, 0x90befffa, 0xa4506ceb, 0xbef9a3f7, 0xc67178f2]

structure State where
  a : Nat
  b : Nat
  c : Nat
  d : Nat
  e : Nat
  f : Nat
  g : Nat
  h : Nat

def State.initial : State :=
  ⟨0x6a09e667, 0xbb67ae85, 0x3c6ef372, 0xa54ff53a, 0x510e527f, 0x9b05688c, 0x1f83d9ab, 0x5be0cd19⟩

def State.add (s t : State) : State :=
  ⟨word (s.a + t.a), word (s.b + t.b), word (s.c + t.c), word (s.d + t.d),
    word (s.e + t.e), word (s.f + t.f), word (s.g + t.g), word (s.h + t.h)⟩

/-- One round with round constant `k` and schedule word `w`. -/
def round (s : State) (k w : Nat) : State :=
  let s1 := rotr 6 s.e ^^^ rotr 11 s.e ^^^ rotr 25 s.e
  let ch := (s.e &&& s.f) ^^^ ((2 ^ 32 - 1 - s.e) &&& s.g)
  let t1 := s.h + s1 + ch + k + w
  let s0 := rotr 2 s.a ^^^ rotr 13 s.a ^^^ rotr 22 s.a
  let maj := (s.a &&& s.b) ^^^ (s.a &&& s.c) ^^^ (s.b &&& s.c)
  ⟨word (t1 + s0 + maj), s.a, s.b, s.c, word (s.d + t1), s.e, s.f, s.g⟩

/-- The schedule word that enters a window of sixteen words. -/
def nextWord (window : List Nat) : Nat :=
  let w1 := window.getD 1 0
  let w14 := window.getD 14 0
  word (window.getD 0 0 + (rotr 7 w1 ^^^ rotr 18 w1 ^^^ (w1 >>> 3)) + window.getD 9 0 +
    (rotr 17 w14 ^^^ rotr 19 w14 ^^^ (w14 >>> 10)))

def rounds : List Nat → List Nat → State → State
  | [], _, s => s
  | k :: ks, window, s =>
    rounds ks (window.tail ++ [nextWord window]) (round s k (window.getD 0 0))

/-- The big-endian words of a byte list. -/
def toWords : List UInt8 → List Nat
  | a :: b :: c :: d :: rest =>
    (a.toNat * 2 ^ 24 + b.toNat * 2 ^ 16 + c.toNat * 2 ^ 8 + d.toNat) :: toWords rest
  | _ => []

/-- The `n` low bytes of a number, most significant first. -/
def beBytes (n value : Nat) : List UInt8 :=
  (List.range n).map fun i => UInt8.ofNat (value >>> (8 * (n - 1 - i)))

def pad (message : List UInt8) : List UInt8 :=
  message ++ 0x80 :: List.replicate ((119 - message.length % 64) % 64) 0 ++
    beBytes 8 (8 * message.length)

/-- Fold the compression function over the blocks of a padded message; `n` is their number. -/
def absorb : Nat → List Nat → State → State
  | 0, _, s => s
  | n + 1, words, s =>
    absorb n (words.drop 16) (s.add (rounds roundConstants (words.take 16) s))

def sha256 (message : List UInt8) : List UInt8 :=
  let words := toWords (pad message)
  let s := absorb (words.length / 16) words State.initial
  [s.a, s.b, s.c, s.d, s.e, s.f, s.g, s.h].flatMap (beBytes 4)

end Argmin.Sha256
