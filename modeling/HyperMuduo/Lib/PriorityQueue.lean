import Mathlib.Data.List.Sort
import Mathlib.Data.List.TakeWhile

/-!
# Priority queues

A min-first priority queue over a linear order, as the list of its elements in increasing order. The
order is a field: there is no other kind of queue. `top` is the least element, `emplace` adds one and
`popWhile` pops as long as the top passes a test.
-/

namespace HyperMuduo.Lib

structure PriorityQueue (α : Type) [LinearOrder α] where
  elems : List α
  sorted : elems.Pairwise (· ≤ ·)

namespace PriorityQueue

variable {α : Type} [LinearOrder α]

def empty : PriorityQueue α := ⟨[], List.Pairwise.nil⟩

def top (q : PriorityQueue α) : Option α := q.elems.head?

def emplace (q : PriorityQueue α) (a : α) : PriorityQueue α :=
  ⟨q.elems.orderedInsert (· ≤ ·) a, q.sorted.orderedInsert a q.elems⟩

/-- Pop as long as the top passes the test: what was popped, in order, and what is left. -/
def popWhile (q : PriorityQueue α) (p : α → Bool) : List α × PriorityQueue α :=
  (q.elems.takeWhile p, ⟨q.elems.dropWhile p, q.sorted.sublist (List.dropWhile_sublist p)⟩)

variable {q : PriorityQueue α} {a b : α}

theorem emplace_perm (q : PriorityQueue α) (a : α) : (q.emplace a).elems.Perm (a :: q.elems) :=
  List.perm_orderedInsert _ a q.elems

theorem mem_emplace : b ∈ (q.emplace a).elems ↔ b = a ∨ b ∈ q.elems := by
  rw [(emplace_perm q a).mem_iff, List.mem_cons]

/-- The top after an `emplace` is the new element or the old top. -/
theorem top_emplace (h : (q.emplace a).top = some b) : b = a ∨ q.top = some b := by
  change (q.elems.orderedInsert (· ≤ ·) a).head? = some b at h
  cases hq : q.elems with
  | nil =>
    rw [hq] at h
    exact Or.inl (Option.some.inj h).symm
  | cons x xs =>
    rw [hq, List.orderedInsert_cons] at h
    split at h
    · exact Or.inl (Option.some.inj h).symm
    · refine Or.inr ?_
      rw [top, hq]
      exact h

/-- The top is the least element. -/
theorem top_le (h : q.top = some b) (ha : a ∈ q.elems) : b ≤ a := by
  unfold top at h
  have hsorted := q.sorted
  cases hq : q.elems with
  | nil =>
    rw [hq] at ha
    exact absurd ha (by simp)
  | cons x xs =>
    rw [hq] at h ha hsorted
    obtain rfl := Option.some.inj h
    rcases List.mem_cons.mp ha with rfl | hmem
    · exact le_refl a
    · exact List.rel_of_pairwise_cons hsorted hmem

theorem popWhile_append (q : PriorityQueue α) (p : α → Bool) :
    (q.popWhile p).1 ++ (q.popWhile p).2.elems = q.elems :=
  List.takeWhile_append_dropWhile

theorem popWhile_all {p : α → Bool} (h : a ∈ (q.popWhile p).1) : p a = true :=
  List.mem_takeWhile_imp h

/-- A test that passes below what passes it pops everything that passes. -/
theorem mem_popWhile {p : α → Bool} (hp : ∀ a b, a ≤ b → p b = true → p a = true)
    (ha : a ∈ q.elems) (h : p a = true) : a ∈ (q.popWhile p).1 := by
  have hsorted := q.sorted
  change a ∈ q.elems.takeWhile p
  induction hq : q.elems generalizing q with
  | nil =>
    rw [hq] at ha
    exact absurd ha (by simp)
  | cons x xs ih =>
    rw [hq] at ha hsorted
    have hx : p x = true := by
      rcases List.mem_cons.mp ha with rfl | hmem
      · exact h
      · exact hp x a (List.rel_of_pairwise_cons hsorted hmem) h
    rw [List.takeWhile_cons_of_pos hx]
    rcases List.mem_cons.mp ha with rfl | hmem
    · exact List.mem_cons_self
    · have hrest := (List.pairwise_cons.mp hsorted).2
      exact List.mem_cons_of_mem _ (ih (q := ⟨xs, hrest⟩) hmem hrest rfl)

theorem popWhile_sorted (q : PriorityQueue α) (p : α → Bool) :
    (q.popWhile p).1.Pairwise (· ≤ ·) :=
  q.sorted.sublist (List.takeWhile_sublist p)

end PriorityQueue

end HyperMuduo.Lib
