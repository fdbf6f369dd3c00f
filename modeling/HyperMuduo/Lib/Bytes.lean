import HyperMuduo.Lib.Word

/-!
# Big-endian 32-bit words

`be32` lays out the low 32 bits of a number, most significant byte first; `ofBe32` reads them back.
Together with `toInt32` and `ofInt32` this is `htobe32`/`be32toh` on a signed 32-bit integer that is
copied byte by byte.
-/

namespace HyperMuduo.Lib

def be32 (n : Nat) : List UInt8 :=
  [UInt8.ofNat (n / 2 ^ 24), UInt8.ofNat (n / 2 ^ 16), UInt8.ofNat (n / 2 ^ 8), UInt8.ofNat n]

def ofBe32 (bs : List UInt8) : Nat := bs.foldl (fun acc b => acc * 256 + b.toNat) 0

@[simp] theorem length_be32 (n : Nat) : (be32 n).length = 4 := rfl

theorem ofBe32_be32 (n : Nat) : ofBe32 (be32 n) = n % 2 ^ 32 := by
  simp only [ofBe32, be32, List.foldl_cons, List.foldl_nil, UInt8.toNat_ofNat']
  omega

/-- The 32-bit pattern of a signed integer. -/
@[irreducible] def ofInt32 (i : Int) : Nat := (i % 2 ^ 32).toNat

theorem ofInt32_natCast {n : Nat} (h : n < 2 ^ 32) : ofInt32 n = n := by
  unfold ofInt32
  omega

/-- A signed 32-bit integer survives the trip through its pattern. -/
theorem toInt32_ofInt32_mod {i : Int} (hlo : -2 ^ 31 ≤ i) (hhi : i < 2 ^ 31) :
    toInt32 (ofInt32 i % 2 ^ 32) = i := by
  unfold toInt32 ofInt32
  split <;> omega

/-- Every reading of a 32-bit pattern is in range. -/
theorem toInt32_range (n : Nat) : -2 ^ 31 ≤ toInt32 n ∧ toInt32 n < 2 ^ 31 := by
  unfold toInt32
  split <;> omega

/-- **Round trip** of a signed 32-bit integer through its big-endian bytes. -/
theorem toInt32_be32 {i : Int} (hlo : -2 ^ 31 ≤ i) (hhi : i < 2 ^ 31) :
    toInt32 (ofBe32 (be32 (ofInt32 i))) = i := by
  rw [ofBe32_be32]
  exact toInt32_ofInt32_mod hlo hhi

/-- Two patterns are read as the same integer exactly when they agree in 32 bits. -/
theorem toInt32_inj {m n : Nat} : toInt32 m = toInt32 n ↔ m % 2 ^ 32 = n % 2 ^ 32 := by
  unfold toInt32
  constructor
  · intro h
    split at h <;> split at h <;> omega
  · intro h
    rw [h]

/-- Four bytes are the layout of the numbers they are read as, up to 32 bits. -/
theorem eq_be32_iff {bs : List UInt8} (h : bs.length = 4) (n : Nat) :
    bs = be32 n ↔ ofBe32 bs % 2 ^ 32 = n % 2 ^ 32 := by
  constructor
  · rintro rfl
    rw [ofBe32_be32, Nat.mod_mod]
  · intro hn
    match bs, h with
    | [a, b, c, d], _ =>
      have ha := a.toNat_lt
      have hb := b.toNat_lt
      have hc := c.toNat_lt
      have hd := d.toNat_lt
      simp only [ofBe32, List.foldl_cons, List.foldl_nil] at hn
      simp only [be32, List.cons.injEq, and_true, ← UInt8.toNat_inj, UInt8.toNat_ofNat']
      omega

end HyperMuduo.Lib
