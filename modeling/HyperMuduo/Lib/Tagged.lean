import Mathlib.Data.List.Nodup

/-!
# Entries with owners

Several owners put entries into one list. `byTag i` is what is there of owner `i`, in order. The lemmas
say what it does under the moves of a queue: an entry put at the back, one taken off the front, and,
where every owner has one entry at most, one taken out of the middle.
-/

namespace HyperMuduo.Lib

variable {ι β : Type} [DecidableEq ι]

/-- The entries of one owner. -/
def byTag (i : ι) (l : List (ι × β)) : List β :=
  l.filterMap fun x => if x.1 = i then some x.2 else none

@[simp] theorem byTag_nil (i : ι) : byTag i ([] : List (ι × β)) = [] := rfl

@[simp] theorem byTag_append (i : ι) (l l' : List (ι × β)) :
    byTag i (l ++ l') = byTag i l ++ byTag i l' := List.filterMap_append

theorem byTag_cons_self (i : ι) (b : β) (l : List (ι × β)) : byTag i ((i, b) :: l) = b :: byTag i l :=
  List.filterMap_cons_some (if_pos rfl)

theorem byTag_cons_of_ne {i j : ι} (h : j ≠ i) (b : β) (l : List (ι × β)) :
    byTag i ((j, b) :: l) = byTag i l :=
  List.filterMap_cons_none (if_neg h)

theorem byTag_eq_nil {i : ι} {l : List (ι × β)} (h : i ∉ l.map Prod.fst) : byTag i l = [] := by
  unfold byTag
  rw [List.filterMap_eq_nil_iff]
  intro x hx
  exact if_neg fun hi => h (List.mem_map.mpr ⟨x, hx, hi⟩)

/-- Owners and entries renamed. -/
theorem byTag_map {κ γ : Type} [DecidableEq κ] {f : ι → κ} (hf : Function.Injective f) (g : β → γ)
    (i : ι) (l : List (ι × β)) :
    byTag (f i) (l.map fun x => (f x.1, g x.2)) = (byTag i l).map g := by
  induction l with
  | nil => rfl
  | cons x l ih =>
    obtain ⟨j, b⟩ := x
    rw [List.map_cons]
    by_cases hj : j = i
    · subst hj
      rw [byTag_cons_self, byTag_cons_self, ih]
      rfl
    · rw [byTag_cons_of_ne (fun h => hj (hf h)), byTag_cons_of_ne hj, ih]

/-- Taking out an entry of one owner leaves the others alone. -/
theorem byTag_eraseIdx_of_ne {i j : ι} (h : j ≠ i) {b : β} {l : List (ι × β)} {k : Nat}
    (hk : l[k]? = some (j, b)) : byTag i (l.eraseIdx k) = byTag i l := by
  induction l generalizing k with
  | nil => rfl
  | cons x l ih =>
    cases k with
    | zero =>
      obtain rfl := Option.some.inj hk
      exact (byTag_cons_of_ne h b l).symm
    | succ k =>
      have htail := ih (k := k) hk
      rw [List.eraseIdx_cons_succ]
      unfold byTag at htail ⊢
      rw [List.filterMap_cons, List.filterMap_cons, htail]

/-- Where every owner has one entry at most, this was the one. -/
theorem byTag_of_getElem? {j : ι} {b : β} {l : List (ι × β)} (hl : (l.map Prod.fst).Nodup) {k : Nat}
    (hk : l[k]? = some (j, b)) : byTag j l = [b] ∧ byTag j (l.eraseIdx k) = [] := by
  induction l generalizing k with
  | nil => exact absurd hk (by simp)
  | cons x l ih =>
    obtain ⟨hx, hl⟩ := List.nodup_cons.mp hl
    cases k with
    | zero =>
      obtain rfl := Option.some.inj hk
      have hnone := byTag_eq_nil hx
      exact ⟨by rw [byTag_cons_self, hnone], hnone⟩
    | succ k =>
      obtain ⟨hone, hnone⟩ := ih hl (k := k) hk
      have hne : x.1 ≠ j := by
        rintro rfl
        exact hx (List.mem_map.mpr ⟨_, List.mem_of_getElem? hk, rfl⟩)
      obtain ⟨i, a⟩ := x
      rw [List.eraseIdx_cons_succ, byTag_cons_of_ne hne, byTag_cons_of_ne hne]
      exact ⟨hone, hnone⟩

/-- Another entry in the place of one. -/
theorem byTag_set_of_ne {i j : ι} (h : j ≠ i) {b b' : β} {l : List (ι × β)} {k : Nat}
    (hk : l[k]? = some (j, b)) : byTag i (l.set k (j, b')) = byTag i l := by
  induction l generalizing k with
  | nil => rfl
  | cons x l ih =>
    cases k with
    | zero =>
      obtain rfl := Option.some.inj hk
      rw [List.set_cons_zero, byTag_cons_of_ne h, byTag_cons_of_ne h]
    | succ k =>
      have htail := ih (k := k) hk
      rw [List.set_cons_succ]
      unfold byTag at htail ⊢
      rw [List.filterMap_cons, List.filterMap_cons, htail]

end HyperMuduo.Lib
