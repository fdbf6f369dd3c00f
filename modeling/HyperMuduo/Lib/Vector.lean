import Mathlib.Algebra.Order.Group.Nat
import Mathlib.Data.List.Basic

/-!
# Contiguous storage with bounds

A `std::vector<char>` as a list, and the three things a program does to it through raw pointers and
iterators: read a range (`vecRead`), overwrite a range (`vecWrite`), change its size (`vecResize`).
An access outside the storage has no result in C++; here it is the `Fault` `outOfBounds`, so that
"no access is out of bounds" is a statement about the model. The other faults are the ways a call
can fail to return: a thrown exception, `std::abort`, and the overflow of a signed integer.
-/

namespace HyperMuduo.Lib

/-- How a call can end without returning. -/
inductive Fault where
  /-- An access outside the storage. -/
  | outOfBounds
  /-- A null or dangling pointer is followed. -/
  | invalidPointer
  /-- `std::length_error`: a vector cannot be that long. -/
  | lengthError
  /-- `std::bad_function_call`: an empty `std::function` is called. -/
  | badFunctionCall
  /-- `std::abort`. -/
  | abort
  /-- The result of a signed operation is out of range. -/
  | signedOverflow
  deriving DecidableEq, Repr

/-- `max_size()` of a vector of bytes. -/
def maxSize : Nat := 2 ^ 63 - 1

variable {β : Type}

/-- The `len` elements from `off` on. -/
def vecRead (v : List β) (off len : Nat) : Except Fault (List β) :=
  if off + len ≤ v.length then .ok ((v.drop off).take len) else .error .outOfBounds

/-- Overwrite from `off` on with `d`. -/
def vecWrite (v : List β) (off : Nat) (d : List β) : Except Fault (List β) :=
  if off + d.length ≤ v.length then .ok (v.take off ++ d ++ v.drop (off + d.length))
  else .error .outOfBounds

/-- `resize(n)`: cut to `n` elements, or extend with `x`. -/
def vecResize (x : β) (v : List β) (n : Nat) : Except Fault (List β) :=
  if n ≤ maxSize then .ok (v.take n ++ List.replicate (n - v.length) x) else .error .lengthError

theorem vecRead_ok {v : List β} {off len : Nat} (h : off + len ≤ v.length) :
    vecRead v off len = .ok ((v.drop off).take len) := if_pos h

theorem vecWrite_ok {v : List β} {off : Nat} {d : List β} (h : off + d.length ≤ v.length) :
    vecWrite v off d = .ok (v.take off ++ d ++ v.drop (off + d.length)) := if_pos h

theorem vecWrite_eq_ok {v w : List β} {off : Nat} {d : List β} (h : vecWrite v off d = .ok w) :
    off + d.length ≤ v.length ∧ w = v.take off ++ d ++ v.drop (off + d.length) := by
  unfold vecWrite at h
  split at h
  · rename_i hle
    exact ⟨hle, (Except.ok.inj h).symm⟩
  · exact absurd h (by simp)

theorem vecResize_grow {x : β} {v : List β} {n : Nat} (h : v.length ≤ n) (hn : n ≤ maxSize) :
    vecResize x v n = .ok (v ++ List.replicate (n - v.length) x) := by
  unfold vecResize
  rw [if_pos hn, List.take_of_length_le h]

/-! ## Ranges of an overwritten vector -/

theorem length_overwrite {v d : List β} {off : Nat} (h : off + d.length ≤ v.length) :
    (v.take off ++ d ++ v.drop (off + d.length)).length = v.length := by
  simp only [List.length_append, List.length_take, List.length_drop]
  omega

/-- The overwritten range holds what was written. -/
theorem read_overwrite {v d : List β} {off : Nat} (h : off + d.length ≤ v.length) :
    ((v.take off ++ d ++ v.drop (off + d.length)).drop off).take d.length = d := by
  have hl : (v.take off).length = off := by rw [List.length_take]; omega
  rw [List.append_assoc, List.drop_append_of_le_length (by omega), List.drop_of_length_le (by omega),
    List.nil_append, List.take_left']
  rfl

/-- A range that begins before the write and ends with it: the old bytes, then the new. -/
theorem read_across_overwrite {v d : List β} {off i : Nat} (h : off + d.length ≤ v.length)
    (hi : i ≤ off) :
    ((v.take off ++ d ++ v.drop (off + d.length)).drop i).take (off - i + d.length) =
      (v.drop i).take (off - i) ++ d := by
  have hl : (v.take off).length = off := by rw [List.length_take]; omega
  rw [List.append_assoc, List.drop_append_of_le_length (by omega), List.drop_take]
  have hl' : ((v.drop i).take (off - i)).length = off - i := by
    rw [List.length_take, List.length_drop]
    omega
  have hl'' : ((v.drop i).take (off - i) ++ d).length = off - i + d.length := by
    rw [List.length_append, hl']
  rw [← List.append_assoc, List.take_append_of_le_length hl''.ge, List.take_of_length_le hl''.le]

/-- A slice of a slice. -/
theorem slice_slice (v : List β) {off n o k : Nat} (h : o + k ≤ n) :
    (((v.drop off).take n).drop o).take k = (v.drop (off + o)).take k := by
  rw [List.drop_take, List.take_take, List.drop_drop, Nat.min_eq_left (by omega)]

/-- Two writes one behind the other are one write. -/
theorem vecWrite_vecWrite (v : List β) (off : Nat) (c d : List β) :
    (vecWrite v off c >>= fun w => vecWrite w (off + c.length) d) = vecWrite v off (c ++ d) := by
  by_cases hc : off + c.length ≤ v.length
  · rw [vecWrite_ok hc]
    have hl : (v.take off ++ c).length = off + c.length := by
      rw [List.length_append, List.length_take]
      omega
    by_cases hd : off + c.length + d.length ≤ v.length
    · rw [vecWrite_ok (by rw [List.length_append]; omega)]
      refine (vecWrite_ok (by rw [length_overwrite hc]; exact hd)).trans ?_
      rw [List.take_left' hl, List.drop_append, List.drop_of_length_le (by omega), hl,
        List.nil_append, List.drop_drop, List.length_append, List.append_assoc (v.take off)]
      congr 3
      omega
    · unfold vecWrite
      rw [if_neg (by rw [List.length_append]; omega)]
      exact if_neg (by rw [length_overwrite hc]; exact hd)
  · unfold vecWrite
    rw [if_neg hc, if_neg (by rw [List.length_append]; omega)]
    rfl

/-- The second part of what was written, read back. -/
theorem vecRead_written {v w x y : List β} {off : Nat} (h : vecWrite v off (x ++ y) = .ok w) :
    vecRead w (off + x.length) y.length = .ok y := by
  obtain ⟨hle, rfl⟩ := vecWrite_eq_ok h
  rw [List.length_append] at hle
  have hle' : off + (x ++ y).length ≤ v.length := by
    rw [List.length_append]
    exact hle
  rw [vecRead_ok (by rw [length_overwrite hle']; omega),
    ← slice_slice _ (show x.length + y.length ≤ (x ++ y).length by rw [List.length_append]),
    read_overwrite hle', List.drop_left, List.take_length]

/-! ## Removal by swapping with the last element -/

/-- `std::swap(v[i], v[j])`. -/
def vecSwap (v : List β) (i j : Nat) : List β :=
  match v[i]?, v[j]? with
  | some a, some b => (v.set i b).set j a
  | _, _ => v

/-- What stands at each position once `v[i]` was swapped with the last element and that one
dropped. -/
theorem getElem?_swap_dropLast {v : List β} {i : Nat} (h : i < v.length) (j : Nat) :
    (vecSwap v i (v.length - 1)).dropLast[j]? =
      if j < v.length - 1 then (if j = i then v[v.length - 1]? else v[j]?) else none := by
  have hi : v[i]? = some v[i] := List.getElem?_eq_getElem h
  have hlt : v.length - 1 < v.length := by omega
  have hl : v[v.length - 1]? = some v[v.length - 1] := List.getElem?_eq_getElem hlt
  unfold vecSwap
  rw [hi, hl]
  simp only
  rw [List.getElem?_dropLast, List.length_set, List.length_set]
  by_cases hj : j < v.length - 1
  · rw [if_pos hj, if_pos hj, List.getElem?_set_ne (by omega)]
    by_cases hji : j = i
    · subst hji
      rw [if_pos rfl, List.getElem?_set_self h]
    · rw [if_neg hji, List.getElem?_set_ne (by omega)]
  · rw [if_neg hj, if_neg hj]

theorem length_vecSwap (v : List β) (i j : Nat) : (vecSwap v i j).length = v.length := by
  unfold vecSwap
  split
  · rw [List.length_set, List.length_set]
  · rfl

/-- The element that takes the place of `v[i]`. -/
theorem getElem?_swap_self {v : List β} {i : Nat} (h : i < v.length - 1) :
    (vecSwap v i (v.length - 1))[i]? = v[v.length - 1]? := by
  have hdrop := getElem?_swap_dropLast (show i < v.length by omega) i
  rw [List.getElem?_dropLast, length_vecSwap, if_pos h, if_pos h, if_pos rfl] at hdrop
  exact hdrop

end HyperMuduo.Lib
