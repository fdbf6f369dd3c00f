import Mathlib.Tactic.Ring
import HyperMuduo.Lib.Vector

/-!
# Machine words over `Nat`

Unsigned 64-bit arithmetic (`wadd`, `wsub`) as `Nat` arithmetic modulo `2 ^ 64`, and the reading of
a 32-bit pattern as a two's complement `Int` (`toInt32`). The lemmas say when a wrapped operation
is the exact one, and what it is when it is not; the arithmetic side conditions are then `omega`'s.
The operations are irreducible: proofs go through the lemmas, and no tactic computes modulo `2 ^ 64`.
Signed 64-bit operations do not wrap: `int64` fails when the result is out of range.
-/

namespace HyperMuduo.Lib

/-- Unsigned addition modulo `2 ^ 64`. -/
@[irreducible] def wadd (a b : Nat) : Nat := (a + b) % 2 ^ 64

/-- Unsigned subtraction modulo `2 ^ 64`. -/
@[irreducible] def wsub (a b : Nat) : Nat := (a + (2 ^ 64 - b % 2 ^ 64)) % 2 ^ 64

theorem wadd_of_lt {a b : Nat} (h : a + b < 2 ^ 64) : wadd a b = a + b := by
  unfold wadd
  exact Nat.mod_eq_of_lt h

theorem wsub_of_le {a b : Nat} (h : b ≤ a) (ha : a < 2 ^ 64) : wsub a b = a - b := by
  unfold wsub
  omega

/-- The two's complement reading of a 32-bit pattern. -/
@[irreducible] def toInt32 (n : Nat) : Int :=
  if n % 2 ^ 32 < 2 ^ 31 then (n % 2 ^ 32 : Nat) else ((n % 2 ^ 32 : Nat) : Int) - 2 ^ 32

/-- The unsigned 64-bit value a signed integer converts to. -/
@[irreducible] def ofInt64 (i : Int) : Nat := (i % 2 ^ 64).toNat

theorem toInt32_of_lt {n : Nat} (h : n < 2 ^ 31) : toInt32 n = n := by
  unfold toInt32
  have h1 : n % 2 ^ 32 = n := Nat.mod_eq_of_lt (by omega)
  rw [h1, if_pos h]

/-- Widening a 32-bit reading keeps the pattern. -/
theorem ofInt64_toInt32_mod (n : Nat) : ofInt64 (toInt32 n) % 2 ^ 32 = n % 2 ^ 32 := by
  unfold ofInt64 toInt32
  split <;> omega

/-- The upper half of the 32-bit patterns is widened to the end of the 64-bit range. -/
theorem ofInt64_toInt32 (n : Nat) : ofInt64 (toInt32 n) =
    if n % 2 ^ 32 < 2 ^ 31 then n % 2 ^ 32 else 2 ^ 64 - 2 ^ 32 + n % 2 ^ 32 := by
  unfold ofInt64 toInt32
  split <;> omega

theorem ofInt64_natCast {n : Nat} (h : n < 2 ^ 64) : ofInt64 n = n := by
  unfold ofInt64
  omega

/-! ## Signed operations -/

/-- A value of a signed 64-bit type. -/
def InInt64 (i : Int) : Prop := -2 ^ 63 ≤ i ∧ i < 2 ^ 63

instance (i : Int) : Decidable (InInt64 i) := inferInstanceAs (Decidable (_ ∧ _))

/-- The result of a signed 64-bit operation. -/
def int64 (i : Int) : Except Fault Int := if InInt64 i then .ok i else .error .signedOverflow

theorem int64_of_inInt64 {i : Int} (h : InInt64 i) : int64 i = .ok i := if_pos h

theorem int64_ok_inv {i j : Int} (h : int64 i = .ok j) : InInt64 i ∧ j = i := by
  unfold int64 at h
  split at h
  · rename_i hin
    exact ⟨hin, (Except.ok.inj h).symm⟩
  · exact absurd h (by simp)

end HyperMuduo.Lib
