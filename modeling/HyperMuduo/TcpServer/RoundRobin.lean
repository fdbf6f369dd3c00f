import Mathlib.Data.Int.ModEq
import Mathlib.Data.List.Nodup
import Mathlib.Data.Nat.Prime.Basic
import Mathlib.Tactic.Linarith
import HyperMuduo.TcpServer.Model

/-!
# The round robin of `getNextLoop`

`getNextLoop` (`net/EventLoopThreadPool`) takes `next_.fetch_add(1) % loops_.size()`. The counter is a
`std::atomic<int>` and wraps from `INT_MAX` to `INT_MIN`; before the `%` it is converted to a `size_t`.
The values the `%` sees are therefore `0` to `2 ^ 31 - 1`, then `2 ^ 64 - 2 ^ 31` to `2 ^ 64 - 1`, then
`0` again. Between two neighbours that are not consecutive the round robin skips loops or repeats
them, unless the jump is a multiple of the number of loops.

* `calls k p` are `k` calls of `getNextLoop`; `index` is the `int` the vector is subscripted with.
* **`balanced_iff`**: after `k` calls the index is in range, and the next `n` calls return `n` distinct
  loops if and only if no jump lies among them that `n` does not divide.
* `balanced_forever_iff`: this is so for every `k` exactly for the divisors of `2 ^ 32`.
-/

namespace HyperMuduo.Net.TcpServer

open HyperMuduo.Lib

/-- `n` numbers in a row, with a jump of `d` after the first `a`, are distinct modulo `n` exactly when
`n` divides the jump. -/
theorem distinct_mod_jump_iff {n a : Nat} (ha : 0 < a) (han : a < n) {f : Nat → Int} {c d : Int}
    (hf : ∀ i < n, f i = c + i + if i < a then 0 else d) :
    (∀ i < n, ∀ j < n, (n : Int) ∣ f j - f i → i = j) ↔ (n : Int) ∣ d := by
  constructor
  · intro hinj
    by_contra hd
    -- the number `n - d % n` places after one before the jump has its residue
    have hne : d % n ≠ 0 := fun h => hd (Int.dvd_of_emod_eq_zero h)
    have hnonneg : 0 ≤ d % n := Int.emod_nonneg d (by omega)
    have hlt : d % n < n := Int.emod_lt_of_pos d (by omega)
    obtain ⟨e, he⟩ : ∃ e : Nat, (e : Int) = n - d % n := ⟨(n - d % n).toNat, by omega⟩
    obtain ⟨i, hi, hie, hin⟩ : ∃ i < a, a ≤ i + e ∧ i + e < n :=
      ⟨min (a - 1) (n - 1 - e), by omega, by omega, by omega⟩
    have hsame : i = i + e := by
      apply hinj i (by omega) (i + e) hin
      rw [hf i (by omega), hf (i + e) hin, if_pos hi, if_neg (by omega)]
      refine ⟨1 + d / n, ?_⟩
      have hdiv := Int.mul_ediv_add_emod d n
      push_cast
      linarith
    omega
  · intro hd i hi j hj h
    have hdvd : ∀ k : Nat, (n : Int) ∣ if k < a then 0 else d := by
      intro k
      split
      · exact Int.dvd_zero _
      · exact hd
    have hsub : (n : Int) ∣ (j : Int) - i := by
      have h' := Int.dvd_sub h (Int.dvd_sub (hdvd j) (hdvd i))
      rw [hf i hi, hf j hj] at h'
      have heq : (c + j + if j < a then 0 else d) - (c + i + if i < a then 0 else d) -
          ((if j < a then 0 else d) - if i < a then 0 else d) = (j : Int) - i := by ring
      rwa [heq] at h'
    exact (Nat.modEq_iff_dvd.mpr hsub).eq_of_lt_of_lt hi hj

namespace EventLoopThreadPool

/-- `const int index`. -/
def index (p : EventLoopThreadPool) : Int := toInt32 (ofInt64 p.next % p.loops)

/-- Call `getNextLoop` so many times: the loops it returned, and the pool afterwards. -/
def calls : Nat → EventLoopThreadPool → List LoopId × EventLoopThreadPool
  | 0, p => ([], p)
  | k + 1, p =>
    let (loop, p) := p.getNextLoop
    let (loops, p) := calls k p
    (loop :: loops, p)

/-- A pool of `n` loops of which `k` have been handed out. -/
def after (n k : Nat) : EventLoopThreadPool := (calls k ⟨n, 0⟩).2

/-- After `k` calls on a pool of `n` loops the subscript is that of a loop, and the next `n` calls
return distinct loops of the pool. -/
def Balanced (n k : Nat) : Prop :=
  (0 ≤ (after n k).index ∧ (after n k).index < n) ∧
    (∀ loop ∈ (calls n (after n k)).1, 1 ≤ loop ∧ loop ≤ n) ∧ (calls n (after n k)).1.Nodup

/-- No jump of the counter that `n` does not divide lies among the `n` calls after the first `k`: from
`INT_MAX` to `INT_MIN`, or from `-1` to `0`. -/
def Unbroken (n k : Nat) : Prop :=
  (k % 2 ^ 32 < 2 ^ 31 → 2 ^ 31 < k % 2 ^ 32 + n → n ∣ 2 ^ 64 - 2 ^ 32) ∧
    (2 ^ 32 < k % 2 ^ 32 + n → n ∣ 2 ^ 64)

instance (n k : Nat) : Decidable (Unbroken n k) := inferInstanceAs (Decidable (_ ∧ _))

/-! ## The calls -/

/-- The loop that is returned is the one the vector is subscripted for. -/
theorem getNextLoop_index {p : EventLoopThreadPool} (hpos : 0 < p.loops) (hint : p.loops < 2 ^ 31) :
    0 ≤ p.index ∧ p.index < p.loops ∧ (p.getNextLoop.1 : Int) = 1 + p.index := by
  have hlt : ofInt64 p.next % p.loops < p.loops := Nat.mod_lt _ hpos
  have hindex : p.index = (ofInt64 p.next % p.loops : Nat) := toInt32_of_lt (by omega)
  have hloop : p.getNextLoop.1 = 1 + ofInt64 p.next % p.loops := by
    unfold getNextLoop
    rw [if_neg (Nat.ne_of_gt hpos)]
  rw [hindex, hloop]
  exact ⟨by omega, by omega, by push_cast; rfl⟩

/-- The value the `i`-th call takes modulo the number of loops. -/
def counter (i : Nat) : Nat := ofInt64 (toInt32 i)

theorem counter_eq (i : Nat) : counter i =
    if i % 2 ^ 32 < 2 ^ 31 then i % 2 ^ 32 else 2 ^ 64 - 2 ^ 32 + i % 2 ^ 32 :=
  ofInt64_toInt32 i

theorem getNextLoop_toInt32 {n : Nat} (hn : 0 < n) (k : Nat) :
    (⟨n, toInt32 k⟩ : EventLoopThreadPool).getNextLoop = (1 + counter k % n, ⟨n, toInt32 (k + 1)⟩) := by
  unfold getNextLoop counter
  rw [if_neg (Nat.ne_of_gt hn), succInt32_toInt32]

theorem calls_toInt32 {n : Nat} (hn : 0 < n) (m k : Nat) :
    calls m ⟨n, toInt32 k⟩ =
      ((List.range m).map fun i => 1 + counter (k + i) % n, ⟨n, toInt32 (k + m)⟩) := by
  induction m generalizing k with
  | zero => rfl
  | succ m ih =>
    unfold calls
    rw [getNextLoop_toInt32 hn]
    dsimp only
    rw [ih, List.range_succ_eq_map, List.map_cons, List.map_map]
    have hshift : (fun i => 1 + counter (k + 1 + i) % n) =
        (fun i => 1 + counter (k + i) % n) ∘ Nat.succ := by
      funext i
      simp only [Function.comp_apply, Nat.succ_eq_add_one]
      rw [Nat.add_assoc, Nat.add_comm 1 i]
    rw [hshift, Nat.add_zero, Nat.add_assoc, Nat.add_comm 1 m]
    rfl

theorem after_eq {n : Nat} (hn : 0 < n) (k : Nat) : after n k = ⟨n, toInt32 k⟩ := by
  have hzero : (0 : Int) = toInt32 0 := by rw [toInt32_of_lt (by decide)]; rfl
  unfold after
  rw [hzero, calls_toInt32 hn, Nat.zero_add]

/-- The next `n` loops are distinct when the counter's values are distinct modulo `n`. -/
theorem nodup_calls_iff {n : Nat} (hn : 0 < n) (k : Nat) :
    (calls n (after n k)).1.Nodup ↔
      ∀ i < n, ∀ j < n, (n : Int) ∣ (counter (k + j) : Int) - counter (k + i) → i = j := by
  rw [after_eq hn, calls_toInt32 hn, List.nodup_map_iff_inj_on List.nodup_range]
  simp only [List.mem_range, Nat.add_left_cancel_iff]
  constructor
  · intro h i hi j hj hdvd
    exact h i hi j hj (Nat.modEq_iff_dvd.mpr hdvd)
  · intro h i hi j hj hmod
    exact h i hi j hj (Nat.modEq_iff_dvd.mp hmod)

/-! ## Balance -/

/-- The three ways `n` calls can lie: in one half of the counter's range, across its middle, or across
its end. -/
theorem counter_distinct_iff {n k : Nat} (hn : 0 < n) (hint : n < 2 ^ 31) :
    (∀ i < n, ∀ j < n, (n : Int) ∣ (counter (k + j) : Int) - counter (k + i) → i = j) ↔
      Unbroken n k := by
  unfold Unbroken
  have hk : k % 2 ^ 32 < 2 ^ 32 := Nat.mod_lt _ (by decide)
  by_cases hmid : k % 2 ^ 32 < 2 ^ 31 ∧ 2 ^ 31 < k % 2 ^ 32 + n
  · have hf : ∀ i < n, (counter (k + i) : Int) = (k % 2 ^ 32 : Nat) + i +
        if i < 2 ^ 31 - k % 2 ^ 32 then 0 else ((2 ^ 64 - 2 ^ 32 : Nat) : Int) := by
      intro i hi
      rw [counter_eq]
      split <;> split <;> omega
    rw [distinct_mod_jump_iff (a := 2 ^ 31 - k % 2 ^ 32) (by omega) (by omega) hf,
      Int.natCast_dvd_natCast]
    constructor
    · intro h
      exact ⟨fun _ _ => h, fun hend => absurd hend (by omega)⟩
    · intro h
      exact h.1 hmid.1 hmid.2
  · by_cases hend : 2 ^ 32 < k % 2 ^ 32 + n
    · have hf : ∀ i < n, (counter (k + i) : Int) = (2 ^ 64 - 2 ^ 32 + k % 2 ^ 32 : Nat) + i +
          if i < 2 ^ 32 - k % 2 ^ 32 then 0 else -((2 ^ 64 : Nat) : Int) := by
        intro i hi
        rw [counter_eq]
        split <;> split <;> omega
      rw [distinct_mod_jump_iff (a := 2 ^ 32 - k % 2 ^ 32) (by omega) (by omega) hf, Int.dvd_neg,
        Int.natCast_dvd_natCast]
      constructor
      · intro h
        exact ⟨fun hlo hhi => absurd ⟨hlo, hhi⟩ hmid, fun _ => h⟩
      · intro h
        exact h.2 hend
    · refine ⟨fun _ => ⟨fun hlo hhi => absurd ⟨hlo, hhi⟩ hmid, fun h => absurd h hend⟩, ?_⟩
      intro _ i hi j hj hdvd
      have hsub : (counter (k + j) : Int) - counter (k + i) = (j : Int) - i := by
        rw [counter_eq, counter_eq]
        split <;> split <;> omega
      rw [hsub] at hdvd
      exact (Nat.modEq_iff_dvd.mpr hdvd).eq_of_lt_of_lt hi hj

/-- **The round robin is balanced after `k` calls exactly when** no jump of the counter among the next
`n` shows modulo `n`. `threads_num_` is an `int`. -/
theorem balanced_iff {n : Nat} (hn : 0 < n) (hint : n < 2 ^ 31) (k : Nat) :
    Balanced n k ↔ Unbroken n k := by
  unfold Balanced
  rw [nodup_calls_iff hn, counter_distinct_iff hn hint]
  have hindex := getNextLoop_index (p := after n k) (by rw [after_eq hn]; exact hn)
    (by rw [after_eq hn]; exact hint)
  rw [after_eq hn] at hindex ⊢
  refine ⟨fun h => h.2.2, fun h => ⟨⟨hindex.1, hindex.2.1⟩, ?_, h⟩⟩
  rw [calls_toInt32 hn]
  intro loop hmem
  obtain ⟨i, -, rfl⟩ := List.mem_map.mp hmem
  have hlt : counter (k + i) % n < n := Nat.mod_lt _ hn
  have hle : 1 + counter (k + i) % n ≤ n := by omega
  exact ⟨Nat.le_add_right _ _, hle⟩

/-- Four loops are balanced across the wrap to `INT_MIN`. -/
theorem balanced_iff_four : Balanced 4 (2 ^ 31 - 2) :=
  (balanced_iff (by decide) (by decide) _).mpr (by decide)

/-- Three loops are not across the way back to `0`: `2 ^ 64 - 1` and `0` are both multiples of three,
and the first loop is returned twice in a row. -/
theorem not_balanced_three :
    (calls 3 (after 3 (2 ^ 32 - 1))).1 = [1, 1, 2] ∧ ¬ Balanced 3 (2 ^ 32 - 1) := by
  have hcalls : (calls 3 (after 3 (2 ^ 32 - 1))).1 = [1, 1, 2] := by
    rw [after_eq (by decide), calls_toInt32 (by decide)]
    simp only [counter_eq]
    decide
  refine ⟨hcalls, ?_⟩
  intro h
  have hnodup := h.2.2
  rw [hcalls] at hnodup
  exact absurd hnodup (by decide)

/-- **Only powers of two are balanced for ever.** -/
theorem balanced_forever_iff {n : Nat} (hn : 0 < n) (hint : n < 2 ^ 31) :
    (∀ k, (calls n (after n k)).1.Nodup) ↔ n ∣ 2 ^ 32 := by
  simp only [nodup_calls_iff hn, counter_distinct_iff hn hint]
  constructor
  · intro h
    by_cases hone : n = 1
    · rw [hone]
      exact Nat.one_dvd _
    · -- the calls that start one before the end of the range
      have hdvd : n ∣ 2 ^ 64 := (h (2 ^ 32 - 1)).2 (by omega)
      obtain ⟨m, -, rfl⟩ := (Nat.dvd_prime_pow Nat.prime_two).mp hdvd
      have hm : m < 31 := (Nat.pow_lt_pow_iff_right (by decide)).mp hint
      exact Nat.pow_dvd_pow 2 (by omega)
  · intro h k
    have h64 : n ∣ 2 ^ 64 := h.trans (Nat.pow_dvd_pow 2 (by decide))
    exact ⟨fun _ _ => Nat.dvd_sub h64 h, fun _ => h64⟩

end EventLoopThreadPool

end HyperMuduo.Net.TcpServer
