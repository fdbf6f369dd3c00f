import HyperMuduo.Buffer.Spec
import HyperMuduo.Codec.Frame
import HyperMuduo.Lib.Run

/-!
# What the codec does to a `Buffer`

`decode_eq`: on a well-formed buffer `Decode` is the scan of the readable bytes, and consumes what
the scan found. `encode_eq_append`: `Encode` appends the frame of the message. `onMessageLoop_eq` and
`receiveAll_eq`: `OnMessage` is `drain` and the arrival of chunks is `feedAll`, on the readable bytes,
as long as the callbacks return.
-/

namespace HyperMuduo.Net

open HyperMuduo.Lib HyperMuduo.Net.Buffer

variable {M : Type} {P : Protobuf M} {b b' : Buffer}

namespace Codec

/-! ## `Decode` -/

/-- For an accepted `total_len` the machine arithmetic of `Decode` is exact. -/
theorem exact_words {n : Nat} (hmin : minLen ≤ n) (hmax : n ≤ maxLen) :
    ofInt64 n = n ∧ wadd headerLen n = headerLen + n ∧ wsub (headerLen + n) checksumLen = n ∧
      wsub n checksumLen = n - checksumLen ∧
      toInt32 (wsub (wsub n nameLenSize) checksumLen) = (n : Int) - nameLenSize - checksumLen := by
  unfold minLen at hmin
  unfold maxLen at hmax
  unfold headerLen nameLenSize checksumLen int32Size
  have h1 : wsub n 4 = n - 4 := wsub_of_le (by omega) (by omega)
  have h2 : wsub (n - 4) 4 = n - 4 - 4 := wsub_of_le (by omega) (by omega)
  have h3 : wsub (4 + n) 4 = 4 + n - 4 := wsub_of_le (by omega) (by omega)
  refine ⟨ofInt64_natCast (by omega), wadd_of_lt (by omega), by omega, h1, ?_⟩
  rw [h1, h2, toInt32_of_lt (by omega)]
  omega

/-- The same for an accepted `name_len`. -/
theorem exact_name_words {n j : Nat} (hmax : n ≤ maxLen) (hj : nameLenSize + j + checksumLen ≤ n) :
    ofInt64 j = j ∧ wadd (headerLen + nameLenSize) j = headerLen + (nameLenSize + j) ∧
      wsub (wsub (wsub n nameLenSize) j) checksumLen = n - checksumLen - (nameLenSize + j) := by
  unfold maxLen at hmax
  unfold nameLenSize checksumLen int32Size at hj
  unfold headerLen nameLenSize checksumLen int32Size
  have h1 : wsub n 4 = n - 4 := wsub_of_le (by omega) (by omega)
  have h2 : wsub (n - 4) j = n - 4 - j := wsub_of_le (by omega) (by omega)
  have h3 : wsub (n - 4 - j) 4 = n - 4 - j - 4 := wsub_of_le (by omega) (by omega)
  refine ⟨ofInt64_natCast (by omega), ?_, ?_⟩
  · rw [wadd_of_lt (by omega), Nat.add_assoc]
  · rw [h1, h2, h3]
    omega

/-- Where the checksum of a frame lies. -/
theorem frame_layout {n : Nat} (hmin : minLen ≤ n) :
    headerLen + (n - checksumLen) = n ∧ n - checksumLen + int32Size = n ∧ int32Size ≤ n := by
  unfold minLen at hmin
  unfold headerLen checksumLen int32Size
  omega

/-- An accepted `name_len` is positive and leaves room for the checksum. -/
theorem name_layout {n : Nat} {k : Int}
    (h : ¬ (k ≤ 0 ∨ (n : Int) - nameLenSize - checksumLen < k)) :
    ∃ j : Nat, k = j ∧ nameLenSize + j + checksumLen ≤ n := by
  refine ⟨k.toNat, ?_, ?_⟩ <;> omega

section Pieces

variable {n : Nat} (h : Wf b) (hfull : headerLen + n ≤ b.readable.length)
include h hfull

/-- A piece of a frame, read at its offset, is a piece of its body. -/
theorem peek_body {o k : Nat} (hok : o + k ≤ n) :
    b.peek (headerLen + o) k = .ok ((((b.readable.drop headerLen).take n).drop o).take k) := by
  rw [peek_eq h (by omega), slice_slice _ hok]

theorem peekInt32_body {o : Nat} (ho : o + int32Size ≤ n) :
    peekInt32 b (headerLen + o) =
      .ok (toInt32 (ofBe32 ((((b.readable.drop headerLen).take n).drop o).take int32Size))) := by
  unfold peekInt32
  rw [peek_body h hfull ho]
  rfl

omit h in
theorem length_body : ((b.readable.drop headerLen).take n).length = n := by
  rw [List.length_take, List.length_drop]
  omega

/-- On a complete frame `Decode` gives the verdict and consumes the frame. -/
theorem decodeFrame_eq (hmin : minLen ≤ n) (hmax : n ≤ maxLen) :
    decodeFrame P b n =
      .ok ((verdict P ((b.readable.drop headerLen).take n)).state,
        (verdict P ((b.readable.drop headerLen).take n)).toOption, b.retrieve (headerLen + n)) := by
  obtain ⟨hsumoff, hsumlen, hhead⟩ := frame_layout hmin
  generalize hB : (b.readable.drop headerLen).take n = body
  have hlen : body.length = n := by
    rw [← hB]
    exact length_body hfull
  have hslice : ∀ {o k : Nat}, o + k ≤ n → b.peek (headerLen + o) k = .ok ((body.drop o).take k) := by
    intro o k hok
    rw [peek_body h hfull hok, hB]
  have hint : ∀ {o : Nat}, o + int32Size ≤ n →
      peekInt32 b (headerLen + o) = .ok (toInt32 (ofBe32 ((body.drop o).take int32Size))) := by
    intro o ho
    rw [peekInt32_body h hfull ho, hB]
  have hsum : peekInt32 b n = .ok (toInt32 (ofBe32 (body.drop (n - checksumLen)))) := by
    have hread := hint (Nat.le_of_eq hsumlen)
    rw [hsumoff, List.take_of_length_le] at hread
    · exact hread
    · rw [List.length_drop, hlen]
      exact Nat.sub_le_of_le_add (by rw [Nat.add_comm]; exact Nat.le_of_eq hsumlen.symm)
  have hchecked : b.peek headerLen (n - checksumLen) = .ok (body.take (n - checksumLen)) :=
    hslice (o := 0) (by rw [Nat.zero_add]; exact Nat.sub_le _ _)
  have hname : peekInt32 b headerLen = .ok (toInt32 (ofBe32 (body.take nameLenSize))) :=
    hint (o := 0) (by rw [Nat.zero_add]; exact hhead)
  obtain ⟨hn, hframe, hchk, hbody, hroom⟩ := exact_words hmin hmax
  unfold decodeFrame verdict
  simp only [hn, hframe, hchk, hsum, hbody, hchecked, hname, hroom, hlen, ok_bind]
  by_cases hck : calculateAdler32 P (body.take (n - checksumLen)) =
      toInt32 (ofBe32 (body.drop (n - checksumLen)))
  · rw [if_neg (not_not.mpr hck), if_neg (not_not.mpr hck)]
    generalize toInt32 (ofBe32 (body.take nameLenSize)) = k
    by_cases hbad : k ≤ 0 ∨ (n : Int) - nameLenSize - checksumLen < k
    · rw [if_pos hbad, if_pos hbad]
      rfl
    · rw [if_neg hbad, if_neg hbad]
      obtain ⟨j, rfl, hjn⟩ := name_layout hbad
      obtain ⟨hj, hoff, hrest⟩ := exact_name_words hmax hjn
      have hnm : b.peek (headerLen + nameLenSize) j = .ok ((body.drop nameLenSize).take j) :=
        hslice (Nat.le_trans (Nat.le_add_right _ _) hjn)
      have hdata : b.peek (headerLen + (nameLenSize + j)) (n - checksumLen - (nameLenSize + j)) =
          .ok ((body.take (n - checksumLen)).drop (nameLenSize + j)) := by
        rw [hslice, List.drop_take]
        rw [Nat.add_sub_of_le (Nat.le_sub_of_add_le hjn)]
        exact Nat.sub_le _ _
      simp only [hj, hnm, hoff, hrest, hdata, Int.toNat_natCast, ok_bind]
      by_cases hreg : P.hasMessageType ((body.drop nameLenSize).take j) = true
      · rw [if_neg (by simp [hreg]), if_neg (by simp [hreg])]
        generalize P.parseFromArray _ _ = parsed
        cases parsed <;> rfl
      · rw [if_pos (by simpa using hreg), if_pos (by simpa using hreg)]
        rfl
  · rw [if_pos hck, if_pos hck]
    rfl

end Pieces

/-- **`Decode` is the scan of the readable bytes.** -/
theorem decode_eq (h : Wf b) :
    decode P b =
      match scan P b.readable with
      | .incomplete => .ok (.incomplete, none, b)
      | .lost => .ok (.decodeError, none, b.retrieveAll)
      | .frame v n => .ok (v.state, v.toOption, b.retrieve n) := by
  unfold decode scan
  rw [h.readableBytes_eq_length]
  by_cases h4 : b.readable.length < headerLen
  · rw [if_pos h4, if_pos h4]
  · rw [if_neg h4, if_neg h4]
    have hhead : peekInt32 b 0 = .ok (totalLenOf b.readable) := by
      unfold peekInt32
      rw [peek_eq h (by unfold headerLen at h4; omega)]
      rfl
    simp only [hhead, bind, Except.bind]
    by_cases hin : InRange (totalLenOf b.readable)
    · have hin' := hin
      obtain ⟨hmin, hmax⟩ := hin
      obtain ⟨n, hn⟩ := Int.eq_ofNat_of_zero_le
        (show 0 ≤ totalLenOf b.readable from Int.le_trans (by unfold minLen; omega) hmin)
      rw [hn] at hmin hmax hin' ⊢
      have hmin' : minLen ≤ n := Int.ofNat_le.mp hmin
      have hmax' : n ≤ maxLen := Int.ofNat_le.mp hmax
      obtain ⟨hof, hframe, -⟩ := exact_words hmin' hmax'
      rw [if_neg (by omega), if_neg (not_not.mpr hin'), hof, hframe, Int.toNat_natCast]
      by_cases hfull : b.readable.length < headerLen + n
      · rw [if_pos hfull, if_pos hfull]
        rfl
      · rw [if_neg hfull, if_neg hfull]
        exact decodeFrame_eq h (Nat.le_of_not_lt hfull) hmin' hmax'
    · rw [if_pos (by unfold InRange at hin; omega), if_pos hin]
      rfl

/-! ## `Encode` -/

/-- A copy behind what has been staged at the write cursor stages more. -/
theorem writeTo_then {γ : Type} (b : Buffer) {pos : Int} {c : List Byte} (hpos : pos = c.length)
    (d : List Byte) (k : Buffer → Except Fault γ) :
    (b.writeAt 0 c >>= fun b => writeTo b pos d >>= k) = b.writeAt 0 (c ++ d) >>= k := by
  have hone : b.writeAt 0 (c ++ d) = b.writeAt 0 c >>= fun b => writeTo b pos d := by
    have hto : ∀ b : Buffer, writeTo b pos d = b.writeAt c.length d := by
      intro b
      rw [writeTo, if_pos (by omega), hpos, Int.toNat_natCast]
    unfold Buffer.writeAt
    rw [← vecWrite_vecWrite]
    cases hw : vecWrite b.buffer (b.writeIndex + 0) c with
    | error e => rfl
    | ok v =>
      simp only [ok_bind, pure, Except.pure, hto]
      rfl
  rw [hone, bind_assoc]

/-- The room `Encode` asks for, in the arithmetic of the code. -/
def room (P : Protobuf M) (m : M) : Nat := wadd (ofInt64 (toInt32 (totalLen P m))) headerLen

/-- What `Encode` copies before it serializes. -/
def preamble (P : Protobuf M) (m : M) : List Byte :=
  be32 (ofInt32 (toInt32 (totalLen P m))) ++ be32 (ofInt32 (toInt32 (P.getTypeName m).length)) ++
    P.getTypeName m

/-- What `Encode` does once the message is serialized. -/
def sealFrame (P : Protobuf M) (m : M) (payload : List Byte) (out : Buffer) : Except Fault Buffer := do
  let pos : Int := (headerLen + nameLenSize : Nat) + toInt32 (P.getTypeName m).length
  let out ← writeTo out pos payload
  let checked ← vecRead out.buffer (out.writeIndex + headerLen)
    (wsub (ofInt64 (toInt32 (totalLen P m))) checksumLen % 2 ^ 32)
  let out ← writeTo out (pos + toInt32 (P.byteSizeLong m))
    (be32 (ofInt32 (calculateAdler32 P checked)))
  return out.hasWritten (room P m)

theorem length_preamble (m : M) :
    (preamble P m).length = headerLen + nameLenSize + (P.getTypeName m).length := by
  unfold preamble headerLen nameLenSize int32Size
  rw [List.length_append, List.length_append, length_be32, length_be32]

/-- `total_size` is the exact total up to 32 bits, however often the sum was narrowed. -/
theorem totalSize_eq (m : M) :
    toInt32 (wadd (wadd (wadd nameLenSize (ofInt64 (toInt32 (P.getTypeName m).length)))
      (ofInt64 (toInt32 (P.byteSizeLong m)))) checksumLen) = toInt32 (totalLen P m) := by
  have hn := ofInt64_toInt32_mod (P.getTypeName m).length
  have hs := ofInt64_toInt32_mod (P.byteSizeLong m)
  rw [toInt32_inj]
  unfold totalLen wadd
  omega

/-- **`Encode` in four steps**: make room, copy what precedes the payload, serialize, seal. -/
theorem encode_steps (m : M) (b : Buffer) :
    encode P m b = (do
      let out ← b.ensureWritableBytes (room P m)
      let out ← out.writeAt 0 (preamble P m)
      match P.serializeToArray m (toInt32 (P.byteSizeLong m)) with
      | none => return out
      | some payload => sealFrame P m payload out) := by
  unfold encode
  simp only [totalSize_eq]
  unfold room
  congr 1
  funext out
  have hfirst : ∀ d, writeTo out 0 d = out.writeAt 0 d := fun _ => rfl
  have hpos1 : (headerLen : Int) = (be32 (ofInt32 (toInt32 (totalLen P m)))).length := rfl
  have hpos2 : ((headerLen + nameLenSize : Nat) : Int) =
      (be32 (ofInt32 (toInt32 (totalLen P m))) ++
        be32 (ofInt32 (toInt32 (P.getTypeName m).length))).length := rfl
  rw [hfirst, writeTo_then out hpos1, writeTo_then out hpos2]
  rfl

theorem lt_of_le_maxLen {n : Nat} (h : n ≤ maxLen) : n < 2 ^ 31 := by
  unfold maxLen at h
  omega

/-- The values `Encode` computes for a message whose total fits in an `int32_t` are exact. -/
theorem exact_sizes {m : M} (hlen : totalLen P m < 2 ^ 31) :
    toInt32 (P.byteSizeLong m) = P.byteSizeLong m ∧
      toInt32 (P.getTypeName m).length = (P.getTypeName m).length ∧
      toInt32 (totalLen P m) = totalLen P m ∧ room P m = headerLen + totalLen P m ∧
      wsub (ofInt64 (totalLen P m)) checksumLen % 2 ^ 32 = totalLen P m - checksumLen := by
  have htot : toInt32 (totalLen P m) = totalLen P m := toInt32_of_lt hlen
  have hof : ofInt64 (totalLen P m : Int) = totalLen P m := ofInt64_natCast (by omega)
  unfold room
  rw [htot, hof]
  unfold totalLen nameLenSize checksumLen int32Size at hlen
  refine ⟨toInt32_of_lt (by omega), toInt32_of_lt (by omega), rfl, ?_, ?_⟩
  · unfold totalLen nameLenSize checksumLen headerLen int32Size
    rw [wadd_of_lt (by omega)]
    omega
  · unfold totalLen nameLenSize checksumLen int32Size
    rw [wsub_of_le (by omega) (by omega)]
    omega

/-- **`Encode` appends the frame of the message**, for a message whose total fits in an `int32_t`. -/
theorem encode_eq_append {m : M} {payload : List Byte}
    (hser : P.serializeToArray m (P.byteSizeLong m) = some payload)
    (hp : payload.length = P.byteSizeLong m) (hlen : totalLen P m < 2 ^ 31) (b : Buffer) :
    encode P m b = b.append (frame P m payload) := by
  obtain ⟨hpay, hnm, htot, hroom, hck⟩ := exact_sizes hlen
  have hframe := length_frame (P := P) hp
  have hchecked : totalLen P m - checksumLen = (checkedPart P m payload).length := by
    rw [← length_checkedPart hp, Nat.add_sub_cancel]
  have hint : ∀ n : Nat, n ≤ totalLen P m → ofInt32 n = n := by
    intro n hn
    exact ofInt32_natCast (by omega)
  have hname : (P.getTypeName m).length ≤ totalLen P m := by
    unfold totalLen
    omega
  have hpre : preamble P m =
      be32 (totalLen P m) ++ be32 (P.getTypeName m).length ++ P.getTypeName m := by
    unfold preamble
    rw [htot, hnm, hint _ (Nat.le_refl _), hint _ hname]
  rw [encode_steps]
  unfold Buffer.append
  simp only [hpay, hser, hroom, hframe]
  congr 1
  funext out
  unfold sealFrame
  simp only [hnm, htot, hpay, hck, hroom]
  -- the copies are one copy of the frame, with the checksum read back before the last
  have hpos1 : ((headerLen + nameLenSize : Nat) : Int) + (P.getTypeName m).length =
      (preamble P m).length := by
    rw [length_preamble]
    exact (Nat.cast_add _ _).symm
  have hstaged : preamble P m ++ payload = be32 (totalLen P m) ++ checkedPart P m payload := by
    rw [hpre]
    unfold checkedPart
    simp only [List.append_assoc]
  have hpos2 : ((headerLen + nameLenSize : Nat) : Int) + (P.getTypeName m).length +
      P.byteSizeLong m = (be32 (totalLen P m) ++ checkedPart P m payload).length := by
    rw [hpos1, ← hp, ← Nat.cast_add, ← List.length_append, hstaged]
  rw [writeTo_then out hpos1, hstaged]
  have hback : frame P m payload = be32 (totalLen P m) ++ checkedPart P m payload ++
      be32 (ofInt32 (calculateAdler32 P (checkedPart P m payload))) := rfl
  rw [hback, ← writeTo_then out hpos2]
  cases hw : out.writeAt 0 (be32 (totalLen P m) ++ checkedPart P m payload) with
  | error e => rfl
  | ok out' =>
    obtain ⟨v, hv, hout⟩ := bind_ok_inv hw
    simp only [pure, Except.pure, Except.ok.injEq] at hout
    subst hout
    have hread := vecRead_written hv
    rw [length_be32, ← hchecked] at hread
    simp only [ok_bind]
    rw [show out.writeIndex + headerLen = out.writeIndex + 0 + 4 from rfl, hread, ok_bind]

end Codec

/-! ## `OnMessage` -/

namespace ProtobufHandler

open Codec

/-- The messages among the verdicts. -/
def messages (vs : List (Verdict M)) : List M := vs.filterMap Verdict.toOption

@[simp] theorem messages_nil : messages ([] : List (Verdict M)) = [] := rfl

@[simp] theorem messages_append (vs vs' : List (Verdict M)) :
    messages (vs ++ vs') = messages vs ++ messages vs' := List.filterMap_append

variable {d : Dispatcher M}

/-- What a round of `OnMessage` finds, against what `drain` makes of the same bytes: fewer than four
bytes, a frame that ends the loop, or a message. -/
inductive Round (P : Protobuf M) (fuel : Nat) (b : Buffer) : Prop
  | short (h4 : ¬ headerLen ≤ b.readableBytes)
      (hdrain : drain (scan P) Verdict.stops (fuel + 1) b.readable = ([], b.readable))
  | stops (h4 : headerLen ≤ b.readableBytes) (state : DecodeState) (msg : Option M) (b₁ : Buffer)
      (hdecode : decode P b = .ok (state, msg, b₁)) (hstate : state ≠ .success) (hsound : Sound b₁)
      (hnone : messages (drain (scan P) Verdict.stops (fuel + 1) b.readable).1 = [])
      (hread : b₁.readable = (drain (scan P) Verdict.stops (fuel + 1) b.readable).2)
      (hsize : b₁.size = b.size)
  | message (h4 : headerLen ≤ b.readableBytes) (m : M) (b₁ : Buffer)
      (hdecode : decode P b = .ok (.success, some m, b₁)) (hsound : Sound b₁)
      (hdrain : drain (scan P) Verdict.stops (fuel + 1) b.readable =
        (.message m :: (drain (scan P) Verdict.stops fuel b₁.readable).1,
          (drain (scan P) Verdict.stops fuel b₁.readable).2))
      (hsize : b₁.size = b.size)

theorem round_cases (fuel : Nat) (h : Sound b) : Round P fuel b := by
  by_cases h4 : headerLen ≤ b.readableBytes
  · have hdecode := decode_eq (P := P) h.toWf
    cases hscan : scan P b.readable with
    | incomplete =>
      rw [hscan] at hdecode
      refine .stops h4 _ _ b hdecode (by simp) h ?_ ?_ rfl <;> simp only [drain, hscan]
      rfl
    | lost =>
      rw [hscan] at hdecode
      obtain ⟨hsound, hread⟩ := retrieveAll_sound h.roomy.usable
      refine .stops h4 _ _ _ hdecode (by simp) hsound ?_ ?_ rfl <;> simp only [drain, hscan]
      · rfl
      · exact hread
    | frame v n =>
      rw [hscan] at hdecode
      have hsound := retrieve_sound h n
      have hread := readable_retrieve h.toWf n
      have hsize := retrieve_size b n
      cases v with
      | message m =>
        refine .message h4 m _ hdecode hsound ?_ hsize
        rw [hread]
        simp only [drain, hscan]
        rfl
      | _ =>
        refine .stops h4 _ _ _ hdecode (by simp [Verdict.state]) hsound ?_ ?_ hsize <;>
          simp only [drain, hscan]
        · rfl
        · exact hread
  · have hscan : scan P b.readable = .incomplete := by
      rw [h.toWf.readableBytes_eq_length] at h4
      unfold scan
      rw [if_pos (Nat.lt_of_not_le h4)]
    exact .short h4 (by simp only [drain, hscan])

/-- **The loop of `OnMessage` drains the readable bytes**, as long as the callbacks return. -/
theorem onMessageLoop_eq {fuel : Nat} (h : Sound b)
    (hd : ∀ m ∈ messages (drain (scan P) Verdict.stops fuel b.readable).1, d.dispatch P m = .ok ()) :
    ∃ b', onMessageLoop P d fuel b =
        .ok (b', messages (drain (scan P) Verdict.stops fuel b.readable).1) ∧
      Sound b' ∧ b'.readable = (drain (scan P) Verdict.stops fuel b.readable).2 ∧
      b'.size = b.size := by
  induction fuel generalizing b with
  | zero => exact ⟨b, rfl, h, rfl, rfl⟩
  | succ fuel ih =>
    unfold onMessageLoop
    cases round_cases (P := P) fuel h with
    | short h4 hdrain =>
      rw [if_neg h4, hdrain]
      exact ⟨b, rfl, h, rfl, rfl⟩
    | stops h4 state msg b₁ hdecode hstate hsound hnone hread hsize =>
      rw [if_pos h4, hdecode, hnone]
      refine ⟨b₁, ?_, hsound, hread, hsize⟩
      cases state with
      | success => exact absurd rfl hstate
      | _ => rfl
    | message h4 m b₁ hdecode hsound hdrain hsize =>
      rw [hdrain] at hd ⊢
      rw [if_pos h4, hdecode]
      have hm : d.dispatch P m = .ok () := hd m List.mem_cons_self
      obtain ⟨b', he, hs, hr, hz⟩ := ih hsound (fun x hx => hd x (List.mem_cons_of_mem _ hx))
      refine ⟨b', ?_, hs, hr, hz.trans hsize⟩
      simp only [ok_bind, hm, he]
      rfl

/-- The readable bytes are fuel enough: more of it changes nothing. -/
theorem onMessageLoop_fuel {fuel : Nat} (h : Usable b) (hf : b.readable.length ≤ fuel) :
    onMessageLoop P d (fuel + 1) b = onMessageLoop P d fuel b := by
  induction fuel generalizing b with
  | zero =>
    have h4 : ¬ headerLen ≤ b.readableBytes := by
      rw [h.readableBytes_eq_length, Nat.le_zero.mp hf]
      decide
    unfold onMessageLoop
    rw [if_neg h4]
  | succ fuel ih =>
    rw [onMessageLoop, onMessageLoop]
    by_cases h4 : headerLen ≤ b.readableBytes
    · rw [if_pos h4, if_pos h4, decode_eq h.toWf]
      cases hscan : scan P b.readable with
      | incomplete => rfl
      | lost => rfl
      | frame v n =>
        cases v with
        | message m =>
          obtain ⟨hpos, -⟩ := (scan_framing P).bounds hscan
          have hshort : (b.retrieve n).readable.length ≤ fuel := by
            rw [readable_retrieve h.toWf, List.length_drop]
            omega
          simp only [ok_bind, Verdict.state, Verdict.toOption]
          rw [ih (retrieve_usable h n) hshort]
        | _ => rfl
    · rw [if_neg h4, if_neg h4]

/-- A chunk arrives: the buffer holds what is left of the old bytes and the chunk, or the vector
would be too long. -/
theorem receive_eq {chunk : List Byte} (h : Sound b) (hc : chunk.length ≤ maxSize)
    (hd : ∀ m ∈ messages (drain (scan P) Verdict.stops (b.readable ++ chunk).length
      (b.readable ++ chunk)).1, d.dispatch P m = .ok ()) :
    (∃ b', receive P d b chunk = .ok (b', messages (drain (scan P) Verdict.stops
          (b.readable ++ chunk).length (b.readable ++ chunk)).1) ∧
        Sound b' ∧ b'.readable = (drain (scan P) Verdict.stops (b.readable ++ chunk).length
          (b.readable ++ chunk)).2 ∧ b'.size ≤ b.size + chunk.length) ∨
      (receive P d b chunk = .error .lengthError ∧ maxSize < b.size + chunk.length) := by
  have hw := h.write_le
  unfold receive onMessage
  cases happ : b.append chunk with
  | error e =>
    right
    obtain ⟨rfl, hbig⟩ := append_error h.roomy hc happ
    exact ⟨rfl, by omega⟩
  | ok b₁ =>
    left
    obtain ⟨hs₁, hread⟩ := append_sound h hc happ
    obtain ⟨-, -, hsize⟩ := append_usable h.roomy.usable hc happ
    rw [← hread] at hd ⊢
    rw [ok_bind, hs₁.toWf.readableBytes_eq_length]
    obtain ⟨b', he, hs, hr, hz⟩ := onMessageLoop_eq hs₁ hd
    exact ⟨b', he, hs, hr, by rw [hz]; exact hsize⟩

/-- **The arrival of chunks is `feedAll`** on the readable bytes, as long as the callbacks return and
the vectors fit in memory. -/
theorem receiveAll_eq {chunks : List (List Byte)} (h : Sound b)
    (hc : ∀ c ∈ chunks, c.length ≤ maxSize)
    (hd : ∀ m ∈ messages (feedAll (scan P) Verdict.stops b.readable chunks).1,
      d.dispatch P m = .ok ()) :
    (∃ b', receiveAll P d b chunks =
          .ok (b', messages (feedAll (scan P) Verdict.stops b.readable chunks).1) ∧
        b'.readable = (feedAll (scan P) Verdict.stops b.readable chunks).2) ∨
      (receiveAll P d b chunks = .error .lengthError ∧
        maxSize < b.size + chunks.flatten.length) := by
  induction chunks generalizing b with
  | nil => exact Or.inl ⟨b, rfl, rfl⟩
  | cons chunk chunks ih =>
    simp only [feedAll, messages_append] at hd ⊢
    have hlen : (chunk :: chunks).flatten.length = chunk.length + chunks.flatten.length :=
      List.length_append
    rw [hlen]
    rcases receive_eq h (hc chunk List.mem_cons_self)
      (fun m hm => hd m (List.mem_append_left _ hm)) with ⟨b₁, he, hs, hr, hz⟩ | ⟨he, hbig⟩
    · rw [← hr] at hd ⊢
      rcases ih hs (fun c hmem => hc c (List.mem_cons_of_mem _ hmem))
        (fun m hm => hd m (List.mem_append_right _ hm)) with ⟨b', he', hr'⟩ | ⟨he', hbig⟩
      · left
        refine ⟨b', ?_, hr'⟩
        rw [receiveAll, he, ok_bind]
        simp only [he', ok_bind]
        rfl
      · right
        refine ⟨?_, by omega⟩
        rw [receiveAll, he, ok_bind]
        simp only [he']
        rfl
    · right
      refine ⟨?_, by omega⟩
      rw [receiveAll, he]
      rfl

end ProtobufHandler

end HyperMuduo.Net
