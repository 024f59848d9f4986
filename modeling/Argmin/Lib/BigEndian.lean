import Argmin.Lib.Sha256
import Mathlib.Tactic.Ring

/-!
# Big-endian numbers

`ofBytes` reads the number whose big-endian bytes `beBytes` writes (`ofBytes_beBytes`).
-/

namespace Argmin.BigEndian

open Sha256 (beBytes)

/-- The number with the bytes, most significant first. -/
def ofBytes (bytes : List UInt8) : Nat :=
  bytes.foldl (fun value byte => value * 256 + byte.toNat) 0

@[simp]
theorem length_beBytes (n value : Nat) : (beBytes n value).length = n := by
  simp [beBytes]

theorem beBytes_succ (n value : Nat) :
    beBytes (n + 1) value = UInt8.ofNat (value >>> (8 * n)) :: beBytes n value := by
  rw [beBytes, List.range_succ_eq_map, List.map_cons, List.map_map, beBytes]
  congr 1
  refine List.map_congr_left fun i hi => ?_
  have hshift : n + 1 - 1 - (i + 1) = n - 1 - i := by omega
  rw [Function.comp_apply, Nat.succ_eq_add_one, hshift]

theorem foldl_beBytes (n value start : Nat) :
    (beBytes n value).foldl (fun value byte => value * 256 + byte.toNat) start =
      start * 256 ^ n + value % 256 ^ n := by
  induction n generalizing start with
  | zero => simp [beBytes, Nat.mod_one]
  | succ n ih =>
    have hdigit : (UInt8.ofNat (value >>> (8 * n))).toNat = value / 256 ^ n % 256 := by
      rw [UInt8.toNat_ofNat', Nat.shiftRight_eq_div_pow, Nat.pow_mul]
    rw [beBytes_succ, List.foldl_cons, ih, hdigit, Nat.pow_succ, Nat.mod_mul]
    ring

theorem ofBytes_beBytes {n value : Nat} (h : value < 256 ^ n) :
    ofBytes (beBytes n value) = value := by
  rw [ofBytes, foldl_beBytes, Nat.zero_mul, Nat.zero_add, Nat.mod_eq_of_lt h]

end Argmin.BigEndian
