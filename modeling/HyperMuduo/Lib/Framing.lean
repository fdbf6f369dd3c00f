import Mathlib.Data.List.Basic

/-!
# Frames in a segmented stream

A receiver looks at the front of the bytes it holds (`Scan`): the next frame is not complete yet, the
stream is lost, or a frame of `n` bytes is there with its verdict. `drain` takes frames until one is
incomplete, and also stops right after a frame whose verdict `stops` it. `feedAll` appends one chunk
after another and drains after each.

`Framing` is what makes a scan a framing: a complete frame is found whatever follows it, and no part
of it is. Then

* `feedAll_frames`: when at most the last frame stops the receiver, every way of cutting the stream
  gives the verdicts of the frames in order and leaves nothing;
* `drain_until_stop`: when a frame stops it earlier, a stream that arrives in one piece is drained up
  to that frame only.
-/

namespace HyperMuduo.Lib

inductive Scan (ρ : Type) where
  | incomplete
  | lost
  | frame (verdict : ρ) (size : Nat)
  deriving DecidableEq, Repr

variable {β ρ : Type} (scan : List β → Scan ρ) (stops : ρ → Bool)

structure Framing : Prop where
  empty : scan [] = .incomplete
  bounds : ∀ {bs r n}, scan bs = .frame r n → 0 < n ∧ n ≤ bs.length
  complete : ∀ {bs r n} tail, scan bs = .frame r n → scan (bs ++ tail) = .frame r n
  minimal : ∀ {bs r n k}, scan bs = .frame r n → k < n → scan (bs.take k) = .incomplete

/-- Take frames from the front: their verdicts, and the bytes left. -/
def drain : Nat → List β → List ρ × List β
  | 0, bs => ([], bs)
  | k + 1, bs =>
    match scan bs with
    | .incomplete => ([], bs)
    | .lost => ([], [])
    | .frame r n =>
      if stops r then ([r], bs.drop n)
      else (r :: (drain k (bs.drop n)).1, (drain k (bs.drop n)).2)

/-- Append the chunks one by one and drain after each. -/
def feedAll : List β → List (List β) → List ρ × List β
  | rest, [] => ([], rest)
  | rest, c :: cs =>
    let drained := drain scan stops (rest ++ c).length (rest ++ c)
    (drained.1 ++ (feedAll drained.2 cs).1, (feedAll drained.2 cs).2)

/-- A list of complete frames with their verdicts. -/
def Frames (fs : List (ρ × List β)) : Prop := ∀ f ∈ fs, scan f.2 = .frame f.1 f.2.length

/-- The bytes of a list of frames. -/
def stream (fs : List (ρ × List β)) : List β := fs.flatMap Prod.snd

/-- At most the last frame stops the receiver. -/
def OnlyLastStops (fs : List (ρ × List β)) : Prop := ∀ f ∈ fs.dropLast, stops f.1 = false

/-- `rest` is a proper part of the next frame, or nothing when there is none. -/
def Pending (fs : List (ρ × List β)) (rest : List β) : Prop :=
  match fs with
  | [] => rest = []
  | f :: _ => rest.length < f.2.length

variable {scan stops}

theorem Frames.tail {f : ρ × List β} {fs : List (ρ × List β)} (h : Frames scan (f :: fs)) :
    Frames scan fs :=
  fun g hg => h g (List.mem_cons_of_mem _ hg)

theorem OnlyLastStops.tail {f : ρ × List β} {fs : List (ρ × List β)}
    (h : OnlyLastStops stops (f :: fs)) : OnlyLastStops stops fs := by
  cases fs with
  | nil => exact fun g hg => absurd hg List.not_mem_nil
  | cons g fs => exact fun x hx => h x (List.mem_cons_of_mem _ hx)

/-- A frame that stops the receiver has nothing after it. -/
theorem OnlyLastStops.last {f : ρ × List β} {fs : List (ρ × List β)}
    (h : OnlyLastStops stops (f :: fs)) (hf : stops f.1 = true) : fs = [] := by
  cases fs with
  | nil => rfl
  | cons g fs =>
    have hno := h f List.mem_cons_self
    rw [hf] at hno
    exact absurd hno (by simp)

/-- Draining a part of the stream takes the frames that are complete in it and leaves a proper part
of the next one. -/
theorem drain_part (hF : Framing scan) {fs : List (ρ × List β)} (hfs : Frames scan fs)
    (hstop : OnlyLastStops stops fs) {p q : List β} (hpq : p ++ q = stream fs) {k : Nat}
    (hk : p.length ≤ k) :
    ∃ done todo rest, fs = done ++ todo ∧ drain scan stops k p = (done.map Prod.fst, rest) ∧
      rest ++ q = stream todo ∧ Pending todo rest := by
  induction fs generalizing p k with
  | nil =>
    obtain ⟨rfl, rfl⟩ := List.append_eq_nil_iff.mp hpq
    refine ⟨[], [], [], rfl, ?_, rfl, rfl⟩
    cases k with
    | zero => rfl
    | succ k => simp [drain, hF.empty]
  | cons f fs ih =>
    have hscan := hfs f List.mem_cons_self
    obtain ⟨hpos, -⟩ := hF.bounds hscan
    have hstream : p ++ q = f.2 ++ stream fs := hpq
    by_cases hlt : p.length < f.2.length
    · -- the first frame is cut: nothing can be taken
      have hp : p = f.2.take p.length := by
        have htake := congrArg (List.take p.length) hstream
        rw [List.take_left, List.take_append_of_le_length (Nat.le_of_lt hlt)] at htake
        exact htake
      refine ⟨[], f :: fs, p, rfl, ?_, hpq, hlt⟩
      have hinc : scan p = .incomplete := by
        rw [hp]
        exact hF.minimal hscan hlt
      cases k with
      | zero => rfl
      | succ k => simp [drain, hinc]
    · -- the first frame is complete
      have hle := Nat.le_of_not_lt hlt
      have hp : p = f.2 ++ p.drop f.2.length := by
        have htake := congrArg (List.take f.2.length) hstream
        rw [List.take_append_of_le_length hle, List.take_left] at htake
        rw [← htake, List.length_take, Nat.min_eq_left hle, List.take_append_drop]
      have hrest : p.drop f.2.length ++ q = stream fs := by
        have hdrop := congrArg (List.drop f.2.length) hstream
        rw [List.drop_append_of_le_length hle, List.drop_left] at hdrop
        exact hdrop
      have hfound : scan p = .frame f.1 f.2.length := by
        rw [hp]
        exact hF.complete _ hscan
      obtain ⟨k, rfl⟩ : ∃ j, k = j + 1 := ⟨k - 1, by omega⟩
      by_cases hs : stops f.1 = true
      · obtain rfl := hstop.last hs
        obtain ⟨hnil, rfl⟩ := List.append_eq_nil_iff.mp hrest
        refine ⟨[f], [], [], rfl, ?_, rfl, rfl⟩
        simp [drain, hfound, hs, hnil]
      · have hlen : (p.drop f.2.length).length ≤ k := by
          rw [List.length_drop]
          omega
        obtain ⟨done, todo, rest, rfl, hd, hq, hpart⟩ := ih hfs.tail hstop.tail hrest hlen
        refine ⟨f :: done, todo, rest, rfl, ?_, hq, hpart⟩
        simp [drain, hfound, hs, hd]

/-- The induction over the chunks, from a receiver that holds a proper part of the next frame. -/
theorem feedAll_from (hF : Framing scan) {chunks : List (List β)} {fs : List (ρ × List β)}
    (hfs : Frames scan fs) (hstop : OnlyLastStops stops fs) {rest : List β}
    (hpart : Pending fs rest) (hcut : rest ++ chunks.flatten = stream fs) :
    feedAll scan stops rest chunks = (fs.map Prod.fst, []) := by
  induction chunks generalizing fs rest with
  | nil =>
    rw [List.flatten_nil, List.append_nil] at hcut
    cases fs with
    | nil => rw [show rest = [] from hpart]; rfl
    | cons f fs =>
      have hlen := congrArg List.length hcut
      have hlt : rest.length < f.2.length := hpart
      rw [stream, List.flatMap_cons, List.length_append] at hlen
      omega
  | cons c cs ih =>
    rw [List.flatten_cons, ← List.append_assoc] at hcut
    obtain ⟨done, todo, rest', rfl, hd, hq, hpart'⟩ :=
      drain_part hF hfs hstop hcut (Nat.le_refl _)
    have hnext := ih (fun g hg => hfs g (List.mem_append_right _ hg)) ?_ hpart' hq
    · simp only [feedAll, hd, hnext, List.map_append]
    · intro g hg
      refine hstop g ?_
      cases todo with
      | nil => exact absurd hg List.not_mem_nil
      | cons x todo =>
        rw [List.dropLast_append_cons]
        exact List.mem_append_right _ hg

/-- **Segmentation does not matter** when at most the last frame stops the receiver. -/
theorem feedAll_frames (hF : Framing scan) {fs : List (ρ × List β)} (hfs : Frames scan fs)
    (hstop : OnlyLastStops stops fs) {chunks : List (List β)} (hcut : chunks.flatten = stream fs) :
    feedAll scan stops [] chunks = (fs.map Prod.fst, []) := by
  refine feedAll_from hF hfs hstop ?_ hcut
  cases fs with
  | nil => rfl
  | cons f fs => exact (hF.bounds (hfs f List.mem_cons_self)).1

/-- **A stream in one piece is drained up to the first frame that stops the receiver.** -/
theorem drain_until_stop (hF : Framing scan) {fs : List (ρ × List β)} {f : ρ × List β}
    (hfs : Frames scan (fs ++ [f])) (hgo : ∀ g ∈ fs, stops g.1 = false) (hf : stops f.1 = true)
    (tail : List β) {k : Nat} (hk : (stream fs ++ f.2).length ≤ k) :
    drain scan stops k (stream fs ++ f.2 ++ tail) = ((fs ++ [f]).map Prod.fst, tail) := by
  induction fs generalizing k with
  | nil =>
    have hscan := hfs f List.mem_cons_self
    obtain ⟨hpos, -⟩ := hF.bounds hscan
    obtain ⟨k, rfl⟩ : ∃ j, k = j + 1 := by
      refine ⟨k - 1, ?_⟩
      simp only [stream, List.flatMap_nil, List.nil_append] at hk
      omega
    simp [drain, stream, hF.complete tail hscan, hf]
  | cons g fs ih =>
    have hscan := hfs g List.mem_cons_self
    obtain ⟨hpos, -⟩ := hF.bounds hscan
    have hk' : g.2.length + (stream fs ++ f.2).length ≤ k := by
      rw [stream, List.flatMap_cons, List.append_assoc, List.length_append] at hk
      exact hk
    obtain ⟨k, rfl⟩ : ∃ j, k = j + 1 := ⟨k - 1, by omega⟩
    have hsplit : stream (g :: fs) ++ f.2 ++ tail = g.2 ++ (stream fs ++ f.2 ++ tail) := by
      simp [stream]
    have hnext := ih (fun x hx => hfs x (List.mem_cons_of_mem _ hx))
      (fun x hx => hgo x (List.mem_cons_of_mem _ hx)) (k := k) (by omega)
    rw [hsplit]
    simp only [drain, hF.complete _ hscan, hgo g List.mem_cons_self, Bool.false_eq_true, if_false,
      List.drop_left, hnext]
    rfl

/-- Where the receiver stops before the last frame. -/
theorem exists_stop {fs : List (ρ × List β)} (h : ¬ OnlyLastStops stops fs) :
    ∃ before f next after, fs = before ++ f :: next :: after ∧
      (∀ g ∈ before, stops g.1 = false) ∧ stops f.1 = true := by
  induction fs with
  | nil => exact absurd (fun g hg => absurd hg List.not_mem_nil) h
  | cons f fs ih =>
    cases fs with
    | nil => exact absurd (fun g hg => absurd hg List.not_mem_nil) h
    | cons next after =>
      by_cases hf : stops f.1 = true
      · exact ⟨[], f, next, after, rfl, fun g hg => absurd hg List.not_mem_nil, hf⟩
      · have htail : ¬ OnlyLastStops stops (next :: after) := by
          intro hall
          refine h fun g hg => ?_
          rcases List.mem_cons.mp hg with rfl | hg
          · exact Bool.eq_false_iff.mpr hf
          · exact hall g hg
        obtain ⟨before, x, y, rest, heq, hgo, hx⟩ := ih htail
        refine ⟨f :: before, x, y, rest, by rw [heq]; rfl, ?_, hx⟩
        intro g hg
        rcases List.mem_cons.mp hg with rfl | hg
        · exact Bool.eq_false_iff.mpr hf
        · exact hgo g hg

/-! ## What stays undrained -/

theorem drain_length_le (k : Nat) (bs : List β) : (drain scan stops k bs).2.length ≤ bs.length := by
  induction k generalizing bs with
  | zero => exact Nat.le_refl _
  | succ k ih =>
    unfold drain
    cases scan bs with
    | incomplete => exact Nat.le_refl _
    | lost => exact Nat.zero_le _
    | frame r n =>
      dsimp only
      split
      · exact (List.drop_sublist n bs).length_le
      · exact Nat.le_trans (ih _) (List.drop_sublist n bs).length_le

/-- Draining ends where no frame is complete, or after a frame that stopped it. -/
theorem drain_end (hF : Framing scan) {k : Nat} {bs : List β} (hk : bs.length ≤ k) :
    scan (drain scan stops k bs).2 = .incomplete ∨
      0 < (drain scan stops k bs).1.countP stops := by
  induction k generalizing bs with
  | zero =>
    obtain rfl := List.length_eq_zero_iff.mp (Nat.le_zero.mp hk)
    exact Or.inl hF.empty
  | succ k ih =>
    unfold drain
    cases hscan : scan bs with
    | incomplete => exact Or.inl hscan
    | lost => exact Or.inl hF.empty
    | frame r n =>
      dsimp only
      split
      · rename_i hstop
        exact Or.inr (by simp [hstop])
      · obtain ⟨hpos, -⟩ := hF.bounds hscan
        have hshort : (bs.drop n).length ≤ k := by
          rw [List.length_drop]
          omega
        rcases ih hshort with hinc | hstopped
        · exact Or.inl hinc
        · refine Or.inr (Nat.lt_of_lt_of_le hstopped ?_)
          exact List.Sublist.countP_le (List.sublist_cons_self _ _)

/-- **What stays undrained.** If fewer than `n` bytes are an incomplete frame, the chunks leave fewer
than `n` bytes, and a chunk more for every frame that stopped the receiver. -/
theorem feedAll_rest_lt (hF : Framing scan) {n c : Nat}
    (hn : ∀ bs, scan bs = .incomplete → bs.length < n) {chunks : List (List β)}
    (hc : ∀ chunk ∈ chunks, chunk.length ≤ c) {rest : List β} {m : Nat} (hm : n ≤ m)
    (hrest : rest.length < m) :
    (feedAll scan stops rest chunks).2.length <
      m + (feedAll scan stops rest chunks).1.countP stops * c := by
  induction chunks generalizing rest m with
  | nil => exact Nat.lt_of_lt_of_le hrest (Nat.le_add_right _ _)
  | cons chunk chunks ih =>
    have hchunk := hc chunk List.mem_cons_self
    have hchunks : ∀ x ∈ chunks, x.length ≤ c := fun x hx => hc x (List.mem_cons_of_mem _ hx)
    simp only [feedAll, List.countP_append, Nat.add_mul]
    have hend := @drain_end _ _ scan stops hF _ _ (Nat.le_refl (rest ++ chunk).length)
    rcases hend with hinc | hstopped
    · -- clean: the old bytes are gone
      have hnext := ih hchunks hm (Nat.lt_of_lt_of_le (hn _ hinc) hm)
      omega
    · have hle := @drain_length_le _ _ scan stops (rest ++ chunk).length (rest ++ chunk)
      rw [List.length_append] at hle
      have hmore : (drain scan stops (rest ++ chunk).length (rest ++ chunk)).2.length < m + c := by
        rw [List.length_append]
        omega
      have hnext := ih hchunks (m := m + c) (Nat.le_trans hm (Nat.le_add_right _ _)) hmore
      have hone := Nat.mul_le_mul_right c hstopped
      omega

/-- Frames that stop the receiver, a chunk of `j + 1` of them at a time: each chunk takes one off. -/
theorem feedAll_stops (hF : Framing scan) {r : ρ} {f : List β} (hf : scan f = .frame r f.length)
    (hstop : stops r = true) (j k : Nat) (n : Nat) :
    feedAll scan stops (List.replicate k f).flatten
        (List.replicate n (List.replicate (j + 1) f).flatten) =
      (List.replicate n r, (List.replicate (k + n * j) f).flatten) := by
  induction n generalizing k with
  | zero => simp [feedAll]
  | succ n ih =>
    have hframes : Frames scan ([] ++ [(r, f)]) := by
      intro g hg
      obtain rfl := List.mem_singleton.mp hg
      exact hf
    have hbytes : (List.replicate k f).flatten ++ (List.replicate (j + 1) f).flatten =
        stream ([] : List (ρ × List β)) ++ f ++ (List.replicate (k + j) f).flatten := by
      rw [← List.flatten_append, ← List.replicate_add, ← Nat.add_assoc, List.replicate_succ,
        List.flatten_cons]
      rfl
    have hlen : (stream ([] : List (ρ × List β)) ++ f).length ≤
        ((List.replicate k f).flatten ++ (List.replicate (j + 1) f).flatten).length := by
      rw [hbytes]
      exact (List.sublist_append_left _ _).length_le
    have hdrain := drain_until_stop hF hframes (fun g hg => absurd hg List.not_mem_nil) hstop
      (List.replicate (k + j) f).flatten hlen
    rw [← hbytes] at hdrain
    have hcount : k + j + n * j = k + (n + 1) * j := by
      rw [Nat.succ_mul]
      omega
    rw [List.replicate_succ, feedAll, hdrain, ih, hcount, List.replicate_succ]
    rfl

end HyperMuduo.Lib
