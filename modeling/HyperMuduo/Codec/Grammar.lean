import HyperMuduo.Codec.Segmentation

/-!
# The frames `Decode` accepts

`Accepts` spells the frame grammar out in positions: where the checksum, the length of the name, the
name and the payload of a frame lie, and what they have to be. **`decode_exact`**: for every content of
a buffer `Decode` answers as the grammar says, takes off the frame and nothing else, and reads only
readable bytes.

The last point is put as follows. `Buffer.cut` is the buffer with its vector ended at the write cursor,
so that every read past the readable bytes is out of bounds; `Decode` returns there with the same
answer. The loop of `OnMessage` ends on every content since each round that goes on takes a frame off
(`Rounds.bound`).
-/

namespace HyperMuduo.Net

open HyperMuduo.Lib HyperMuduo.Net.Buffer

variable {M : Type} {P : Protobuf M} {b b' : Buffer}

namespace Buffer

/-- The buffer with its vector ended at the write cursor. -/
def cut (b : Buffer) : Buffer := { b with buffer := b.buffer.take b.writeIndex }

theorem cut_wf (h : Wf b) : Wf b.cut := by
  have hsize : b.cut.size = b.writeIndex := List.length_take_of_le h.write_le
  refine ⟨h.read_le, Nat.le_of_eq hsize.symm, ?_⟩
  rw [hsize]
  exact Nat.le_trans h.write_le h.size_le

theorem readable_cut (h : Wf b) : b.cut.readable = b.readable := by
  have hle := h.read_le
  unfold readable cut
  rw [List.drop_take, List.take_take, Nat.min_self]

/-- `retrieve` moves cursors only. -/
theorem retrieve_cut (b : Buffer) (n : Nat) :
    b.cut.retrieve n = { b.retrieve n with buffer := b.cut.buffer } := by
  have hbytes : b.cut.readableBytes = b.readableBytes := rfl
  unfold retrieve
  rw [hbytes]
  split <;> rfl

end Buffer

namespace Codec

/-- The bytes `f` of a frame whose header says `totalLen` carry `m`. -/
def Accepts (P : Protobuf M) (totalLen : Nat) (f : List Byte) (m : M) : Prop :=
  f.drop (headerLen + (totalLen - checksumLen)) =
      be32 (P.adler32 ((f.drop headerLen).take (totalLen - checksumLen))) ∧
    ∃ nameLen : Nat, toInt32 (ofBe32 ((f.drop headerLen).take nameLenSize)) = nameLen ∧
      1 ≤ nameLen ∧ nameLen ≤ totalLen - nameLenSize - checksumLen ∧
      P.hasMessageType ((f.drop (headerLen + nameLenSize)).take nameLen) = true ∧
      P.parseFromArray ((f.drop (headerLen + nameLenSize)).take nameLen)
        ((f.drop (headerLen + nameLenSize + nameLen)).take
          (totalLen - nameLenSize - nameLen - checksumLen)) = some m

/-- The checksum of `Decode` compares the last four bytes. -/
theorem checksum_iff {body : List Byte} (hmin : minLen ≤ body.length) (x : List Byte) :
    calculateAdler32 P x = toInt32 (ofBe32 (body.drop (body.length - checksumLen))) ↔
      body.drop (body.length - checksumLen) = be32 (P.adler32 x) := by
  have hlen : (body.drop (body.length - checksumLen)).length = 4 := by
    rw [List.length_drop]
    unfold minLen at hmin
    unfold checksumLen int32Size
    omega
  unfold calculateAdler32
  rw [toInt32_inj, eq_be32_iff hlen]
  exact eq_comm

/-- **The verdict is the grammar's.** -/
theorem verdict_iff_accepts {n : Nat} {f : List Byte} (hf : f.length = headerLen + n)
    (hmin : minLen ≤ n) (m : M) :
    verdict P (f.drop headerLen) = .message m ↔ Accepts P n f m := by
  have hlen : (f.drop headerLen).length = n := by
    rw [List.length_drop, hf, Nat.add_sub_cancel_left]
  have hsum := checksum_iff (P := P) (hlen.symm ▸ hmin : minLen ≤ (f.drop headerLen).length)
    ((f.drop headerLen).take (n - checksumLen))
  rw [hlen, List.drop_drop] at hsum
  unfold verdict Accepts
  simp only [hlen, ← hsum, List.drop_drop]
  by_cases hck : calculateAdler32 P ((f.drop headerLen).take (n - checksumLen)) =
      toInt32 (ofBe32 (f.drop (headerLen + (n - checksumLen))))
  · rw [if_neg (not_not.mpr hck)]
    simp only [hck, true_and]
    generalize toInt32 (ofBe32 ((f.drop headerLen).take nameLenSize)) = k
    by_cases hbad : k ≤ 0 ∨ (n : Int) - nameLenSize - checksumLen < k
    · rw [if_pos hbad]
      constructor
      · intro h
        exact absurd h (by simp)
      · rintro ⟨j, rfl, hpos, hle, -⟩
        unfold nameLenSize checksumLen int32Size at hbad hle
        omega
    · rw [if_neg hbad]
      obtain ⟨j, rfl, hjn⟩ := name_layout hbad
      have hpos : 1 ≤ j := by omega
      have hroom : j ≤ n - nameLenSize - checksumLen := by omega
      have hdata : ((f.drop headerLen).take (n - checksumLen)).drop (nameLenSize + j) =
          (f.drop (headerLen + nameLenSize + j)).take (n - nameLenSize - j - checksumLen) := by
        rw [List.drop_take, List.drop_drop, Nat.add_assoc]
        congr 1
        omega
      simp only [Int.toNat_natCast, hdata, Nat.cast_inj, exists_eq_left', hpos, hroom, true_and]
      by_cases hreg : P.hasMessageType ((f.drop (headerLen + nameLenSize)).take j) = true
      · rw [if_neg (by simp [hreg])]
        simp only [hreg, true_and]
        generalize P.parseFromArray _ _ = parsed
        cases parsed <;> simp
      · rw [if_pos (by simpa using hreg)]
        simp [hreg]
  · rw [if_pos hck]
    constructor
    · intro h
      exact absurd h (by simp)
    · intro h
      exact absurd h.1 hck

/-- What `Decode` returns when the front of the buffer is a complete frame. -/
theorem decode_of_frame (h : Wf b) {n : Nat} (hn : totalLenOf b.readable = n) (hin : InRange n)
    (hfull : headerLen + n ≤ b.readable.length) :
    decode P b = .ok ((verdict P ((b.readable.take (headerLen + n)).drop headerLen)).state,
      (verdict P ((b.readable.take (headerLen + n)).drop headerLen)).toOption,
      b.retrieve (headerLen + n)) := by
  have h4 : headerLen ≤ b.readable.length := Nat.le_trans (Nat.le_add_right _ _) hfull
  rw [decode_eq h, scan_of_frame h4 (by rw [hn]; exact hin) (by rw [hn]; exact hfull), hn,
    Int.toNat_natCast, List.drop_take, Nat.add_sub_cancel_left]

/-- **Only readable bytes are read**: with the vector ended at the write cursor `Decode` returns, with
the same answer and the same cursors. -/
theorem decode_cut (h : Wf b) : ∃ state msg b', decode P b = .ok (state, msg, b') ∧
    decode P b.cut = .ok (state, msg, { b' with buffer := b.cut.buffer }) := by
  rw [decode_eq h, decode_eq (cut_wf h), readable_cut h]
  cases scan P b.readable with
  | incomplete => exact ⟨.incomplete, none, b, rfl, rfl⟩
  | lost => exact ⟨.decodeError, none, b.retrieveAll, rfl, rfl⟩
  | frame v n =>
    refine ⟨v.state, v.toOption, b.retrieve n, rfl, ?_⟩
    exact congrArg (fun out => Except.ok (v.state, v.toOption, out)) (retrieve_cut b n)

theorem Verdict.state_eq_success {v : Verdict M} {m : M} :
    v.state = .success ∧ v.toOption = some m ↔ v = .message m := by
  cases v <;> simp [Verdict.state, Verdict.toOption]

end Codec

namespace ProtobufHandler

open Codec

/-- `k` rounds of the loop of `OnMessage` that dispatched a message and went on. -/
inductive Rounds (P : Protobuf M) (d : Dispatcher M) : Nat → Buffer → Buffer → Prop where
  | none (b : Buffer) : Rounds P d 0 b b
  | again {b b₁ b' : Buffer} {m : M} {k : Nat} (h4 : headerLen ≤ b.readableBytes)
      (hdecode : decode P b = .ok (.success, some m, b₁)) (hdispatch : d.dispatch P m = .ok ())
      (hrest : Rounds P d k b₁ b') : Rounds P d (k + 1) b b'

variable {d : Dispatcher M}

/-- A round that goes on takes a frame off. -/
theorem readable_of_success (h : Wf b) {m : M} (hd : decode P b = .ok (.success, some m, b')) :
    ∃ n, headerLen + minLen ≤ n ∧ n ≤ b.readable.length ∧ b' = b.retrieve n := by
  rw [decode_eq h] at hd
  cases hscan : scan P b.readable with
  | incomplete => rw [hscan] at hd; exact absurd hd (by simp)
  | lost => rw [hscan] at hd; exact absurd hd (by simp)
  | frame v n =>
    rw [hscan] at hd
    obtain ⟨-, hin, rfl, hle, -⟩ := scan_eq_frame hscan
    have hmin : minLen ≤ (totalLenOf b.readable).toNat := by
      have := hin.1
      omega
    exact ⟨_, Nat.add_le_add_left hmin _, hle, (Prod.mk.inj (Prod.mk.inj (Except.ok.inj hd)).2).2.symm⟩

/-- **The loop of `OnMessage` ends**: its rounds are bounded by the bytes there are. -/
theorem Rounds.bound {k : Nat} (h : Usable b) (hk : Rounds P d k b b') :
    k * (headerLen + minLen) + b'.readable.length ≤ b.readable.length := by
  induction hk with
  | none b => rw [Nat.zero_mul, Nat.zero_add]
  | again h4 hdecode hdispatch hrest ih =>
    obtain ⟨n, hmin, hle, rfl⟩ := readable_of_success h.toWf hdecode
    have hnext := ih (retrieve_usable h n)
    rw [readable_retrieve h.toWf, List.length_drop] at hnext
    rw [Nat.succ_mul]
    omega

theorem onMessageLoop_enough {fuel : Nat} (h : Usable b) (hf : b.readable.length ≤ fuel) :
    onMessageLoop P d fuel b = onMessage P d b := by
  unfold onMessage
  rw [h.readableBytes_eq_length]
  induction fuel, hf using Nat.le_induction with
  | base => rfl
  | succ fuel hf ih => rw [onMessageLoop_fuel h hf, ih]

end ProtobufHandler

namespace Codec

open ProtobufHandler

/-- **`Decode` accepts exactly the frame grammar** and consumes exactly one frame, for every content of
a buffer, and the loop of `OnMessage` ends on every content. -/
theorem decode_exact (P : Protobuf M) (h : Usable b) :
    (∃ state msg b', decode P b = .ok (state, msg, b') ∧
      decode P b.cut = .ok (state, msg, { b' with buffer := b.cut.buffer })) ∧
    (b.readable.length < headerLen ∨ InRange (totalLenOf b.readable) ∧
        (b.readable.length : Int) < headerLen + totalLenOf b.readable →
      decode P b = .ok (.incomplete, none, b)) ∧
    (headerLen ≤ b.readable.length ∧ ¬ InRange (totalLenOf b.readable) →
      ∃ b', decode P b = .ok (.decodeError, none, b') ∧ b'.readable = []) ∧
    (∀ n : Nat, totalLenOf b.readable = n → InRange n → headerLen + n ≤ b.readable.length →
      ∃ state msg b', decode P b = .ok (state, msg, b') ∧
        b'.readable = b.readable.drop (headerLen + n) ∧ state ≠ .incomplete ∧
        (state = .success → ∃ m, msg = some m) ∧
        ∀ m, state = .success ∧ msg = some m ↔
          Accepts P n (b.readable.take (headerLen + n)) m) ∧
    ∀ d : Dispatcher M, (∀ k b', Rounds P d k b b' →
        k * (headerLen + minLen) + b'.readable.length ≤ b.readable.length) ∧
      ∀ fuel, b.readable.length ≤ fuel → onMessageLoop P d fuel b = onMessage P d b := by
  refine ⟨decode_cut h.toWf, ?_, ?_, ?_, ?_⟩
  · intro hshort
    have hscan : scan P b.readable = .incomplete := by
      unfold scan
      by_cases h4 : b.readable.length < headerLen
      · rw [if_pos h4]
      · obtain ⟨hin, hlt⟩ := hshort.resolve_left h4
        have hpos : (minLen : Int) ≤ totalLenOf b.readable := hin.1
        rw [if_neg h4, if_neg (not_not.mpr hin), if_pos (by omega)]
    rw [decode_eq h.toWf, hscan]
  · rintro ⟨h4, hout⟩
    have hscan : scan P b.readable = .lost := by
      unfold scan
      rw [if_neg (Nat.not_lt.mpr h4), if_pos hout]
    rw [decode_eq h.toWf, hscan]
    exact ⟨b.retrieveAll, rfl, (retrieveAll_sound h).2⟩
  · intro n hn hin hfull
    have hlen : (b.readable.take (headerLen + n)).length = headerLen + n :=
      List.length_take_of_le hfull
    have hmin : minLen ≤ n := Int.ofNat_le.mp hin.1
    refine ⟨_, _, _, decode_of_frame h.toWf hn hin hfull, readable_retrieve h.toWf _, ?_, ?_, ?_⟩
    · cases verdict P _ <;> simp [Verdict.state]
    · cases verdict P _ <;> simp [Verdict.state, Verdict.toOption]
    · intro m
      rw [Verdict.state_eq_success, verdict_iff_accepts hlen hmin]
  · intro d
    constructor
    · intro k b' hk
      exact hk.bound h
    · intro fuel hf
      exact onMessageLoop_enough h hf

/-- A buffer that holds query 5 and two bytes of what follows it. -/
def queryAndMore : Buffer :=
  ⟨List.replicate cheapPrepend 0 ++ frame queryProtobuf someQuery (queryPayload someQuery) ++ [1, 2],
    35, cheapPrepend⟩

theorem decode_exact_queryAndMore :
    ∃ b', decode queryProtobuf queryAndMore = .ok (.success, some 5, b') ∧ b'.readable = [1, 2] := by
  have hu : Usable queryAndMore :=
    ⟨⟨by decide +kernel, by decide +kernel, by decide +kernel⟩, by decide +kernel⟩
  obtain ⟨-, -, -, hframe, -⟩ := decode_exact queryProtobuf hu
  obtain ⟨state, msg, b', hd, hread, -, -, hm⟩ :=
    hframe 21 (by decide +kernel) (by decide +kernel) (by decide +kernel)
  have hacc : Accepts queryProtobuf 21 (queryAndMore.readable.take (headerLen + 21)) 5 :=
    ⟨by decide +kernel, 11, by decide +kernel, by decide, by decide, by decide +kernel,
      by decide +kernel⟩
  obtain ⟨rfl, rfl⟩ := (hm 5).mpr hacc
  refine ⟨b', hd, ?_⟩
  rw [hread]
  decide +kernel

end Codec

end HyperMuduo.Net
