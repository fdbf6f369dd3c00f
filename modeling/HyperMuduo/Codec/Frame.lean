import HyperMuduo.Codec.Model
import HyperMuduo.Lib.Framing

/-!
# The frame grammar

What `Decode` and `Encode` are about, on lists of bytes: `verdict` judges the `total_len` bytes behind
a header, `scan` looks for a frame at the front of the input, `frame` is the frame of a message.

* `scan_framing`: frames are found whatever follows them, and no part of a frame is one.
* `scan_frame`: the frame of a message is found with that message, when protobuf keeps its promises
  and the frame is not longer than `MAX_LEN` allows.
-/

namespace HyperMuduo.Net

open HyperMuduo.Lib

variable {M : Type}

/-- What the codec relies on: type names are not empty and registered, `ByteSizeLong` is the size of
the serialized message, and parsing inverts serializing. -/
structure Protobuf.Lawful (P : Protobuf M) : Prop where
  name_ne_nil : ∀ m, P.getTypeName m ≠ []
  hasMessageType : ∀ m, P.hasMessageType (P.getTypeName m) = true
  serialize : ∀ m, P.byteSizeLong m < 2 ^ 31 → ∃ payload,
    P.serializeToArray m (P.byteSizeLong m) = some payload ∧
    payload.length = P.byteSizeLong m ∧ P.parseFromArray (P.getTypeName m) payload = some m

namespace Codec

/-- The judgement of a complete frame. -/
inductive Verdict (M : Type) where
  | message (m : M)
  | checksumError
  | invalidName
  | decodeError
  deriving DecidableEq, Repr

namespace Verdict

def state : Verdict M → DecodeState
  | message _ => .success
  | checksumError => .checksumError
  | invalidName => .invalidName
  | decodeError => .decodeError

def toOption : Verdict M → Option M
  | message m => some m
  | _ => none

/-- `OnMessage` returns after a bad frame. -/
def stops (v : Verdict M) : Bool := v.toOption.isNone

end Verdict

/-- Judge the bytes that follow a header. -/
def verdict (P : Protobuf M) (body : List Byte) : Verdict M :=
  let checked := body.take (body.length - checksumLen)
  if calculateAdler32 P checked ≠ toInt32 (ofBe32 (body.drop (body.length - checksumLen))) then
    .checksumError
  else
    let nameLen := toInt32 (ofBe32 (body.take nameLenSize))
    if nameLen ≤ 0 ∨ (body.length : Int) - nameLenSize - checksumLen < nameLen then
      .decodeError
    else
      let name := (body.drop nameLenSize).take nameLen.toNat
      if !P.hasMessageType name then .invalidName
      else
        match P.parseFromArray name (checked.drop (nameLenSize + nameLen.toNat)) with
        | none => .decodeError
        | some m => .message m

/-- The signed length in the header. -/
def totalLenOf (bs : List Byte) : Int := toInt32 (ofBe32 (bs.take headerLen))

/-- The length is one `Decode` accepts. -/
def InRange (totalLen : Int) : Prop := minLen ≤ totalLen ∧ totalLen ≤ maxLen

instance (totalLen : Int) : Decidable (InRange totalLen) := inferInstanceAs (Decidable (_ ∧ _))

/-- Look for a frame at the front. -/
def scan (P : Protobuf M) (bs : List Byte) : Scan (Verdict M) :=
  if bs.length < headerLen then .incomplete
  else if ¬ InRange (totalLenOf bs) then .lost
  else if bs.length < headerLen + (totalLenOf bs).toNat then .incomplete
  else
    .frame (verdict P ((bs.drop headerLen).take (totalLenOf bs).toNat))
      (headerLen + (totalLenOf bs).toNat)

variable {P : Protobuf M} {bs : List Byte}

theorem scan_eq_frame {v : Verdict M} {n : Nat} (h : scan P bs = .frame v n) :
    headerLen ≤ bs.length ∧ InRange (totalLenOf bs) ∧ n = headerLen + (totalLenOf bs).toNat ∧
      n ≤ bs.length ∧ v = verdict P ((bs.drop headerLen).take (totalLenOf bs).toNat) := by
  unfold scan at h
  split at h
  · exact absurd h (by simp)
  · rename_i hlen
    split at h
    · exact absurd h (by simp)
    · rename_i hin
      split at h
      · exact absurd h (by simp)
      · rename_i hfull
        obtain ⟨rfl, rfl⟩ := Scan.frame.inj h
        exact ⟨Nat.le_of_not_lt hlen, not_not.mp hin, rfl, Nat.le_of_not_lt hfull, rfl⟩

theorem scan_of_frame (h4 : headerLen ≤ bs.length) (hin : InRange (totalLenOf bs))
    (hfull : headerLen + (totalLenOf bs).toNat ≤ bs.length) :
    scan P bs = .frame (verdict P ((bs.drop headerLen).take (totalLenOf bs).toNat))
      (headerLen + (totalLenOf bs).toNat) := by
  unfold scan
  rw [if_neg (Nat.not_lt.mpr h4), if_neg (not_not.mpr hin), if_neg (Nat.not_lt.mpr hfull)]

theorem totalLenOf_append (h : headerLen ≤ bs.length) (tail : List Byte) :
    totalLenOf (bs ++ tail) = totalLenOf bs := by
  unfold totalLenOf
  rw [List.take_append_of_le_length h]

theorem totalLenOf_take {k : Nat} (h : headerLen ≤ k) : totalLenOf (bs.take k) = totalLenOf bs := by
  unfold totalLenOf
  rw [List.take_take, Nat.min_eq_left h]

/-- **The scan of the codec is a framing.** -/
theorem scan_framing (P : Protobuf M) : Framing (scan P) where
  empty := rfl
  bounds := by
    intro bs r n h
    obtain ⟨-, -, rfl, hle, -⟩ := scan_eq_frame h
    exact ⟨Nat.lt_of_lt_of_le (by decide) (Nat.le_add_right headerLen _), hle⟩
  complete := by
    intro bs r n tail h
    obtain ⟨h4, hin, rfl, hle, rfl⟩ := scan_eq_frame h
    have htotal := totalLenOf_append h4 tail
    have hlen : bs.length ≤ (bs ++ tail).length := by
      rw [List.length_append]
      exact Nat.le_add_right _ _
    rw [scan_of_frame (Nat.le_trans h4 hlen) (by rw [htotal]; exact hin)
      (by rw [htotal]; exact Nat.le_trans hle hlen), htotal,
      List.drop_append_of_le_length h4, List.take_append_of_le_length]
    rw [List.length_drop]
    exact Nat.le_sub_of_add_le (by rw [Nat.add_comm]; exact hle)
  minimal := by
    intro bs r n k h hk
    obtain ⟨-, hin, rfl, hle, -⟩ := scan_eq_frame h
    have hlen : (bs.take k).length = k := by
      rw [List.length_take]
      exact Nat.min_eq_left (Nat.le_trans (Nat.le_of_lt hk) hle)
    unfold scan
    rw [hlen]
    by_cases h4 : k < headerLen
    · rw [if_pos h4]
    · rw [if_neg h4, totalLenOf_take (Nat.le_of_not_lt h4), if_neg (not_not.mpr hin), if_pos hk]

/-! ## The frame of a message -/

/-- What the checksum of a frame covers. -/
def checkedPart (P : Protobuf M) (m : M) (payload : List Byte) : List Byte :=
  be32 (P.getTypeName m).length ++ P.getTypeName m ++ payload

/-- `total_len` of a message, as an exact number. -/
def totalLen (P : Protobuf M) (m : M) : Nat :=
  nameLenSize + (P.getTypeName m).length + P.byteSizeLong m + checksumLen

/-- The frame of a message with this payload. -/
def frame (P : Protobuf M) (m : M) (payload : List Byte) : List Byte :=
  be32 (totalLen P m) ++ checkedPart P m payload ++
    be32 (ofInt32 (calculateAdler32 P (checkedPart P m payload)))

theorem length_checkedPart {m : M} {payload : List Byte}
    (hp : payload.length = P.byteSizeLong m) :
    (checkedPart P m payload).length + checksumLen = totalLen P m := by
  unfold checkedPart totalLen nameLenSize int32Size
  rw [List.length_append, List.length_append, length_be32, hp]

theorem length_frame {m : M} {payload : List Byte} (hp : payload.length = P.byteSizeLong m) :
    (frame P m payload).length = headerLen + totalLen P m := by
  have h := length_checkedPart (P := P) hp
  unfold frame headerLen int32Size
  unfold checksumLen int32Size at h
  rw [List.length_append, List.length_append, length_be32, length_be32]
  omega

/-- The verdict on the frame of a message is that message. -/
theorem verdict_frame {m : M} {payload : List Byte} (hne : P.getTypeName m ≠ [])
    (hreg : P.hasMessageType (P.getTypeName m) = true) (hp : payload.length = P.byteSizeLong m)
    (hparse : P.parseFromArray (P.getTypeName m) payload = some m)
    (hlen : totalLen P m ≤ maxLen) :
    verdict P (checkedPart P m payload ++
      be32 (ofInt32 (calculateAdler32 P (checkedPart P m payload)))) = .message m := by
  have hck := length_checkedPart (P := P) hp
  generalize hsum : be32 (ofInt32 (calculateAdler32 P (checkedPart P m payload))) = sum
  have hsumlen : sum.length = checksumLen := by
    rw [← hsum]
    rfl
  have hbody : totalLen P m - checksumLen = (checkedPart P m payload).length := by
    rw [← hck, Nat.add_sub_cancel]
  have hsmall : (P.getTypeName m).length < 2 ^ 31 := by
    unfold totalLen nameLenSize checksumLen int32Size maxLen at hlen
    omega
  have hname : toInt32 (ofBe32 ((checkedPart P m payload ++ sum).take nameLenSize)) =
      (P.getTypeName m).length := by
    have htake : (checkedPart P m payload ++ sum).take nameLenSize =
        be32 (P.getTypeName m).length := by
      unfold checkedPart
      rw [List.append_assoc, List.append_assoc]
      exact List.take_left' rfl
    rw [htake, ofBe32_be32, Nat.mod_eq_of_lt (by omega)]
    exact toInt32_of_lt hsmall
  have hpos : 0 < (P.getTypeName m).length := List.length_pos_of_ne_nil hne
  have htotal : (checkedPart P m payload ++ sum).length = totalLen P m := by
    rw [List.length_append, hsumlen, hck]
  have hdropname : ((checkedPart P m payload ++ sum).drop nameLenSize).take
      (P.getTypeName m).length = P.getTypeName m := by
    unfold checkedPart
    rw [List.append_assoc, List.append_assoc, show nameLenSize = (be32 (P.getTypeName m).length).length
      from rfl, List.drop_left, List.take_left]
  have hdroppay : (checkedPart P m payload).drop (nameLenSize + (P.getTypeName m).length) =
      payload := by
    unfold checkedPart
    rw [show nameLenSize + (P.getTypeName m).length =
      (be32 (P.getTypeName m).length ++ P.getTypeName m).length by
        rw [List.length_append, length_be32]; rfl, List.drop_left]
  unfold verdict
  simp only [htotal, hbody, List.take_left, List.drop_left, hname, Int.toNat_natCast, hdropname,
    hdroppay, hreg, hparse]
  rw [if_neg, if_neg]
  · simp
  · unfold totalLen nameLenSize checksumLen int32Size
    omega
  · rw [not_not, ← hsum]
    obtain ⟨hlo, hhi⟩ := toInt32_range (P.adler32 (checkedPart P m payload))
    exact (toInt32_be32 hlo hhi).symm

/-- The header of a frame is the total of its message. -/
theorem totalLenOf_frame {m : M} (payload : List Byte) (hlen : totalLen P m < 2 ^ 31) :
    totalLenOf (frame P m payload) = totalLen P m := by
  have htake : (frame P m payload).take headerLen = be32 (totalLen P m) := by
    unfold frame
    rw [List.append_assoc]
    exact List.take_left' rfl
  unfold totalLenOf
  rw [htake, ofBe32_be32, Nat.mod_eq_of_lt (by omega)]
  exact toInt32_of_lt hlen

/-- **A frame carries its message.** -/
theorem scan_frame {m : M} {payload : List Byte} (hne : P.getTypeName m ≠ [])
    (hreg : P.hasMessageType (P.getTypeName m) = true) (hp : payload.length = P.byteSizeLong m)
    (hparse : P.parseFromArray (P.getTypeName m) payload = some m)
    (hlen : totalLen P m ≤ maxLen) :
    scan P (frame P m payload) = .frame (.message m) (frame P m payload).length := by
  have hlength := length_frame (P := P) hp
  have hpos : 0 < (P.getTypeName m).length := List.length_pos_of_ne_nil hne
  have hbounds : minLen ≤ totalLen P m ∧ totalLen P m < 2 ^ 31 := by
    unfold totalLen nameLenSize checksumLen int32Size minLen
    unfold totalLen nameLenSize checksumLen int32Size maxLen at hlen
    omega
  have htotal := totalLenOf_frame (P := P) payload hbounds.2
  have hbody : (frame P m payload).drop headerLen = checkedPart P m payload ++
      be32 (ofInt32 (calculateAdler32 P (checkedPart P m payload))) := by
    unfold frame
    rw [List.append_assoc]
    exact List.drop_left' rfl
  rw [scan_of_frame, htotal, Int.toNat_natCast, hbody, hlength, List.take_of_length_le,
    verdict_frame hne hreg hp hparse hlen]
  · have hdrop := congrArg List.length hbody
    rw [List.length_drop, hlength] at hdrop
    omega
  · rw [hlength]
    exact Nat.le_add_right _ _
  · rw [htotal]
    exact ⟨Int.ofNat_le.mpr hbounds.1, Int.ofNat_le.mpr hlen⟩
  · rw [htotal, Int.toNat_natCast, hlength]

end Codec

end HyperMuduo.Net
