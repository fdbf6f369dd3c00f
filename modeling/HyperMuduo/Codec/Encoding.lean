import HyperMuduo.Codec.Grammar

/-!
# What `Encode` puts into a buffer

`Encode` writes behind the write cursor and commits at the end, so what is readable before it stays
readable.

* `encode_decode_round_trip`: for a message of at most `MAX_LEN` bytes `Encode` appends a frame that
  does not depend on the buffer, and `Decode` takes the message off the front of any bytes that start
  with the frame. When `SerializeToArray` refuses the message nothing readable changes.
* `encode_acceptable_iff`: `Decode` refuses lengths above `MAX_LEN`, and `Encode` does not look at them.
  A message that is serialized is put into frames its peer accepts exactly when its total is at most
  `MAX_LEN`. A message that is refused was narrowed to `int32_t` before: its name is copied into the
  room asked for only if the wrapped total still covers the name.

The `length_error` of a vector that would outgrow the address space leaves the buffer alone.
`encode_adds` says how many readable bytes any call adds that returns.
-/

namespace HyperMuduo.Net

open HyperMuduo.Lib HyperMuduo.Net.Buffer

variable {M : Type} {P : Protobuf M} {b b' : Buffer}

namespace Codec

open ProtobufHandler

/-! ## The round trip -/

/-- What the codec relies on for this message: its type name is registered and not empty, and when it
is serialized, `ByteSizeLong` is the size and parsing gives it back. -/
structure RoundTrips (P : Protobuf M) (m : M) : Prop where
  name_ne_nil : P.getTypeName m ≠ []
  hasMessageType : P.hasMessageType (P.getTypeName m) = true
  length : ∀ {payload}, P.serializeToArray m (P.byteSizeLong m) = some payload →
    payload.length = P.byteSizeLong m
  parse : ∀ {payload}, P.serializeToArray m (P.byteSizeLong m) = some payload →
    P.parseFromArray (P.getTypeName m) payload = some m

/-- `append` to a sound buffer: the bytes are there, or the vector would be too long. -/
theorem append_or_length (h : Sound b) {data : List Byte} (hlen : data.length ≤ maxSize) :
    (∃ b', b.append data = .ok b' ∧ b'.readable = b.readable ++ data) ∨
      (b.append data = .error .lengthError ∧ maxSize < b.writeIndex + data.length) := by
  cases he : b.append data with
  | ok b' => exact Or.inl ⟨b', rfl, (append_sound h hlen he).2⟩
  | error e =>
    obtain ⟨rfl, hmax, -⟩ := append_error h.roomy hlen he
    exact Or.inr ⟨rfl, hmax⟩

/-- A message that `SerializeToArray` refuses leaves nothing readable behind, when its name fits in
the room that `Encode` asked for. -/
theorem encode_refused {m : M}
    (hser : P.serializeToArray m (toInt32 (P.byteSizeLong m)) = none) (h : Sound b)
    (hroom : (preamble P m).length ≤ room P m) (hlt : room P m ≤ maxSize) :
    (∃ b', encode P m b = .ok b' ∧ b'.readable = b.readable) ∨
      (encode P m b = .error .lengthError ∧ maxSize < b.writeIndex + room P m) := by
  have h1 := h.write_le
  have h2 := h.size_le
  have hsum : b.writeIndex + room P m < 2 ^ 64 := by
    unfold maxSize at h2 hlt
    omega
  rw [encode_steps]
  cases hens : b.ensureWritableBytes (room P m) with
  | error e =>
    obtain ⟨rfl, hmax, -⟩ := ensureWritableBytes_error h.roomy hsum hens
    exact Or.inr ⟨rfl, hmax⟩
  | ok out =>
    obtain ⟨hr, hread, hfit, -⟩ := ensureWritableBytes_ok h.roomy hsum hens
    obtain ⟨out', hw, -⟩ := writeAt_hasWritten hr.toWf (Nat.le_trans hroom hfit)
    refine Or.inl ⟨out', ?_, ?_⟩
    · simp only [ok_bind, hw, hser]
      rfl
    · rw [writeAt_readable hr.toWf hw, hread]

/-- **`Encode` and `Decode` round trip in context.** -/
theorem encode_decode_round_trip {m : M} (hP : RoundTrips P m) (hlen : totalLen P m ≤ maxLen) :
    (∀ payload, P.serializeToArray m (P.byteSizeLong m) = some payload → ∃ f : List Byte,
      (∀ b, Reached b → (∃ b', encode P m b = .ok b' ∧ b'.readable = b.readable ++ f) ∨
        (encode P m b = .error .lengthError ∧ maxSize < b.writeIndex + f.length)) ∧
      ∀ b s, Usable b → b.readable = f ++ s →
        ∃ b', decode P b = .ok (.success, some m, b') ∧ b'.readable = s) ∧
    (P.serializeToArray m (P.byteSizeLong m) = none → ∀ b, Reached b →
      (∃ b', encode P m b = .ok b' ∧ b'.readable = b.readable) ∨
        (encode P m b = .error .lengthError ∧
          maxSize < b.writeIndex + (headerLen + totalLen P m))) := by
  have hsmall := lt_of_le_maxLen hlen
  obtain ⟨hpay, -, -, hroom, -⟩ := exact_sizes hsmall
  constructor
  · intro payload hser
    have hp := hP.length hser
    have hscan := scan_frame hP.name_ne_nil hP.hasMessageType hp (hP.parse hser) hlen
    refine ⟨frame P m payload, ?_, ?_⟩
    · intro b hb
      rw [encode_eq_append hser hp hsmall]
      refine append_or_length hb.sound ?_
      rw [length_frame hp]
      unfold headerLen int32Size maxSize
      omega
    · intro b s hb hread
      refine ⟨b.retrieve (frame P m payload).length, ?_, ?_⟩
      · rw [decode_eq hb.toWf, hread, (scan_framing P).complete s hscan]
        rfl
      · rw [readable_retrieve hb.toWf, hread, List.drop_left]
  · intro hser b hb
    rw [← hroom]
    refine encode_refused ?_ hb.sound ?_ ?_
    · rw [hpay]
      exact hser
    · rw [length_preamble, hroom]
      unfold totalLen
      omega
    · rw [hroom]
      unfold headerLen int32Size maxSize
      omega

/-- A lawful protobuf gives back what it serializes. -/
theorem roundTrips_of_lawful (hP : P.Lawful) {m : M} (hsmall : P.byteSizeLong m < 2 ^ 31) :
    RoundTrips P m := by
  obtain ⟨payload, hser, hp, hparse⟩ := hP.serialize m hsmall
  refine ⟨hP.name_ne_nil m, hP.hasMessageType m, ?_, ?_⟩
  · intro payload' hser'
    obtain rfl := Option.some.inj (hser.symm.trans hser')
    exact hp
  · intro payload' hser'
    obtain rfl := Option.some.inj (hser.symm.trans hser')
    exact hparse

/-- Query 5 is encoded into a buffer that holds a byte, and decoded with two bytes behind it. -/
theorem encode_decode_round_trip_query :
    ∃ f b b', (encode queryProtobuf 5 =<< Buffer.fresh.append [7]) = .ok b ∧ b.readable = 7 :: f ∧
      decode queryProtobuf ⟨List.replicate cheapPrepend 0 ++ f ++ [1, 2], 35, cheapPrepend⟩ =
        .ok (.success, some 5, b') ∧ b'.readable = [1, 2] := by
  obtain ⟨hsome, -⟩ := encode_decode_round_trip (m := 5)
    (roundTrips_of_lawful queryProtobuf_lawful (by decide +kernel)) (by decide +kernel)
  obtain ⟨f, henc, hdec⟩ := hsome (queryPayload 5) (by decide +kernel)
  obtain ⟨b₀, hb₀, hread₀, hsmall⟩ : ∃ b₀, Buffer.fresh.append [7] = .ok b₀ ∧ b₀.readable = [7] ∧
      ∃ b, encode queryProtobuf 5 b₀ = .ok b ∧
        b.readable = 7 :: frame queryProtobuf 5 (queryPayload 5) := by decide +kernel
  obtain ⟨b, hb, hread⟩ := hsmall
  have hreached : Reached b₀ := .append fresh_reached (by decide) hb₀
  rcases henc b₀ hreached with ⟨b₁, hb₁, hread₁⟩ | ⟨herr, -⟩
  · obtain rfl := Except.ok.inj (hb.symm.trans hb₁)
    rw [hread₀, List.singleton_append] at hread₁
    obtain rfl : frame queryProtobuf 5 (queryPayload 5) = f :=
      (List.cons.inj (hread.symm.trans hread₁)).2
    obtain ⟨b', hdecode, hrest⟩ := hdec
      ⟨List.replicate cheapPrepend 0 ++ frame queryProtobuf 5 (queryPayload 5) ++ [1, 2], 35,
        cheapPrepend⟩ [1, 2]
      ⟨⟨by decide +kernel, by decide +kernel, by decide +kernel⟩, by decide +kernel⟩
      (by decide +kernel)
    exact ⟨_, b, b', by rw [hb₀]; exact hb, hread₁, hdecode, hrest⟩
  · rw [hb] at herr
    exact absurd herr (by simp)

/-! ## Lengths the peer refuses -/

/-- `SerializeToArray` refuses a size below `ByteSizeLong`, and else writes that many bytes. -/
def Sized (P : Protobuf M) : Prop :=
  ∀ m size payload, P.serializeToArray m size = some payload →
    (P.byteSizeLong m : Int) ≤ size ∧ payload.length = P.byteSizeLong m

/-- `Encode` leaves the readable bytes alone or appends a frame whose header is in range and counts
what follows it, computed without a wrap. An exception of the vector leaves them alone. -/
def Acceptable (P : Protobuf M) (m : M) (b : Buffer) : Prop :=
  match encode P m b with
  | .ok b' => b'.readable = b.readable ∨ ∃ f, b'.readable = b.readable ++ f ∧
      headerLen ≤ f.length ∧ InRange (totalLenOf f) ∧ totalLenOf f + headerLen = f.length ∧
      totalLenOf f = totalLen P m ∧ toInt32 (P.byteSizeLong m) = P.byteSizeLong m
  | .error e => e = .lengthError

/-- The condition: what is serialized is at most `MAX_LEN` long, and what is refused asked for enough
room for its name. -/
def Encodable (P : Protobuf M) (m : M) : Prop :=
  match P.serializeToArray m (toInt32 (P.byteSizeLong m)) with
  | some _ => totalLen P m ≤ maxLen
  | none => (nameLenSize + (P.getTypeName m).length : Int) ≤ toInt32 (totalLen P m)

theorem writeTo_natCast (b : Buffer) (n : Nat) (d : List Byte) : writeTo b n d = b.writeAt n d := by
  rw [writeTo, if_pos (Int.natCast_nonneg n), Int.toNat_natCast]

/-- A copy behind the write cursor stays inside the vector, or is out of bounds. -/
theorem writeAt_cases (b : Buffer) (off : Nat) (d : List Byte) :
    (b.writeIndex + off + d.length ≤ b.size ∧
      ∃ b', b.writeAt off d = .ok b' ∧ b'.writeIndex = b.writeIndex ∧ b'.size = b.size) ∨
    (b.size < b.writeIndex + off + d.length ∧ b.writeAt off d = .error .outOfBounds) := by
  unfold Buffer.writeAt
  by_cases hle : b.writeIndex + off + d.length ≤ b.buffer.length
  · rw [vecWrite_ok hle]
    exact Or.inl ⟨hle, _, rfl, rfl, length_overwrite hle⟩
  · refine Or.inr ⟨Nat.lt_of_not_le hle, ?_⟩
    unfold vecWrite
    rw [if_neg hle]
    rfl

theorem vecRead_cases (v : List Byte) (off len : Nat) :
    (∃ d, vecRead v off len = .ok d) ∨ vecRead v off len = .error .outOfBounds := by
  unfold vecRead
  split
  · exact Or.inl ⟨_, rfl⟩
  · exact Or.inr rfl

/-- Sealing a frame that does not fit is out of bounds. -/
theorem sealFrame_out_of_bounds {m : M} {payload : List Byte} {out : Buffer}
    (hname : toInt32 (P.getTypeName m).length = (P.getTypeName m).length)
    (hsize : toInt32 (P.byteSizeLong m) = P.byteSizeLong m)
    (hfit : out.size < out.writeIndex + (headerLen + totalLen P m)) :
    sealFrame P m payload out = .error .outOfBounds := by
  have hpos : ((headerLen + nameLenSize : Nat) : Int) + (P.getTypeName m).length =
      (headerLen + nameLenSize + (P.getTypeName m).length : Nat) := (Nat.cast_add _ _).symm
  unfold sealFrame
  simp only [hname, hsize, hpos]
  rw [← Nat.cast_add, writeTo_natCast]
  rcases writeAt_cases out (headerLen + nameLenSize + (P.getTypeName m).length) payload with
    ⟨-, out', hw, hwi, hsz⟩ | ⟨-, hw⟩
  · rw [hw, ok_bind]
    rcases vecRead_cases out'.buffer (out'.writeIndex + headerLen)
      (wsub (ofInt64 (toInt32 (totalLen P m))) checksumLen % 2 ^ 32) with ⟨d, hr⟩ | hr
    · rw [hr, ok_bind, writeTo_natCast]
      rcases writeAt_cases out'
        (headerLen + nameLenSize + (P.getTypeName m).length + P.byteSizeLong m)
        (be32 (ofInt32 (calculateAdler32 P d))) with ⟨hle, -⟩ | ⟨-, hw'⟩
      · rw [hwi, hsz, length_be32] at hle
        unfold totalLen checksumLen int32Size at hfit
        omega
      · rw [hw']
        rfl
    · rw [hr]
      rfl
  · rw [hw]
    rfl

/-- A buffer without writable bytes and with `2 ^ 31` readable ones: the room `Encode` asks for is
added to the vector or, when the total wrapped below zero, taken off it. -/
theorem exists_full : ∃ b, Reached b ∧ b.size = cheapPrepend + 2 ^ 31 ∧
    b.writeIndex = cheapPrepend + 2 ^ 31 ∧ b.readIndex = cheapPrepend := by
  have h0 : Reached ⟨List.replicate cheapPrepend 0, cheapPrepend, cheapPrepend⟩ :=
    .construct (n := 0) (by decide) (construct_eq (by decide))
  have hdata : (List.replicate (2 ^ 31) (0 : Byte)).length = 2 ^ 31 := List.length_replicate
  have hmax : (List.replicate (2 ^ 31) (0 : Byte)).length ≤ maxSize := by
    rw [hdata]
    decide
  have hfit : Buffer.size ⟨List.replicate cheapPrepend 0, cheapPrepend, cheapPrepend⟩ +
      (List.replicate (2 ^ 31) (0 : Byte)).length ≤ maxSize := by
    rw [hdata]
    decide
  obtain ⟨b, hb⟩ := append_total h0.sound.roomy hfit
  obtain ⟨-, hread, hsize, -, -⟩ := append_ok h0.sound.roomy hmax hb
  have hreached : Reached b := .append h0 hmax hb
  have hs := hreached.sound
  have h1 := hs.write_le
  have h2 := hs.prepend_le
  have hlen : b.readable.length = 2 ^ 31 := by
    rw [hread, List.length_append, hdata]
    rfl
  rw [hs.toWf.length_readable] at hlen
  rw [hdata] at hsize
  have hzero : Buffer.size ⟨List.replicate cheapPrepend 0, cheapPrepend, cheapPrepend⟩ =
      cheapPrepend := rfl
  rw [hzero] at hsize
  exact ⟨b, hreached, by omega, by omega, by omega⟩

/-- The room that is asked for, read as a signed number. -/
theorem room_cases (m : M) :
    (-headerLen ≤ toInt32 (totalLen P m) ∧
      (room P m : Int) = toInt32 (totalLen P m) + headerLen ∧ room P m < 2 ^ 32) ∨
    (toInt32 (totalLen P m) < -headerLen ∧
      (room P m : Int) = 2 ^ 64 + toInt32 (totalLen P m) + headerLen) := by
  obtain ⟨hlo, hhi⟩ := toInt32_range (totalLen P m)
  unfold room
  generalize toInt32 (totalLen P m) = t at *
  unfold headerLen int32Size wadd ofInt64
  omega

/-- Making room in a full buffer moves the end of the vector by what was asked for. -/
theorem ensureWritableBytes_full (m : M) (h : Sound b) (hsize : b.size = cheapPrepend + 2 ^ 31)
    (hwrite : b.writeIndex = cheapPrepend + 2 ^ 31) (hread : b.readIndex = cheapPrepend) :
    ∃ out, b.ensureWritableBytes (room P m) = .ok out ∧ out.writeIndex = b.writeIndex ∧
      (out.size : Int) = b.writeIndex + (toInt32 (totalLen P m) + headerLen) := by
  obtain ⟨hlo, hhi⟩ := toInt32_range (totalLen P m)
  have hbytes := h.toWf.length_readable
  rcases room_cases (P := P) m with ⟨hle, hroom, hlt⟩ | ⟨hneg, hroom⟩
  · have hsum : b.writeIndex + room P m < 2 ^ 64 := by
      unfold cheapPrepend at hwrite
      omega
    rcases ensureWritableBytes_cases h.roomy hsum with
      ⟨hfit, he⟩ | ⟨hgt, -, hslide, -⟩ | ⟨hgt, -, he⟩ | ⟨⟨hmax, -⟩, -⟩
    · exact ⟨b, he, rfl, by omega⟩
    · omega
    · refine ⟨b.grown (room P m), he, rfl, ?_⟩
      rw [grown_size]
      omega
    · unfold maxSize cheapPrepend at *
      omega
  · -- the total wrapped below zero: `resize` shortens the vector
    have hwritable : b.writableBytes = 0 := by
      rw [h.toWf.writableBytes_eq]
      omega
    have hspace : wadd b.writableBytes (wsub b.readIndex cheapPrepend) = 0 := by
      rw [hwritable, hread, wsub_of_le (Nat.le_refl _) (by decide), Nat.sub_self,
        wadd_of_lt (by decide)]
    have hlen : wadd b.writeIndex (room P m) ≤ b.size ∧
        (wadd b.writeIndex (room P m) : Int) =
          b.writeIndex + (toInt32 (totalLen P m) + headerLen) := by
      have hheader : headerLen = 4 := rfl
      have hprepend : cheapPrepend = 8 := rfl
      unfold wadd
      omega
    have hmax : wadd b.writeIndex (room P m) ≤ maxSize := Nat.le_trans hlen.1 h.size_le
    have hcut : wadd b.writeIndex (room P m) - b.buffer.length = 0 := Nat.sub_eq_zero_of_le hlen.1
    have hpos : 0 < room P m := by
      unfold headerLen int32Size at hroom
      omega
    refine ⟨{ b with buffer := b.buffer.take (wadd b.writeIndex (room P m)) }, ?_, rfl, ?_⟩
    · unfold ensureWritableBytes makeSpace
      rw [hwritable, if_neg (by omega)]
      simp only [← hwritable, hspace]
      rw [if_neg (by omega)]
      unfold vecResize
      rw [if_pos hmax, hcut, List.replicate_zero, List.append_nil]
      rfl
    · rw [← hlen.2]
      exact congrArg Nat.cast (List.length_take_of_le hlen.1)

theorem Acceptable.ne_outOfBounds {m : M} (h : Acceptable P m b) :
    encode P m b ≠ .error .outOfBounds := by
  intro he
  unfold Acceptable at h
  rw [he] at h
  exact absurd h (by simp)

/-- A message that is longer than `MAX_LEN` and fits in an `int32_t` goes out as a frame. -/
theorem not_acceptable_of_long {m : M} {payload : List Byte}
    (hser : P.serializeToArray m (P.byteSizeLong m) = some payload)
    (hp : payload.length = P.byteSizeLong m) (hlong : maxLen < totalLen P m)
    (hsmall : totalLen P m < 2 ^ 31) (h : Sound b)
    (hfit : b.size + (headerLen + totalLen P m) ≤ maxSize) : ¬ Acceptable P m b := by
  have hlen := length_frame (P := P) hp
  rw [← hlen] at hfit
  obtain ⟨b', hb'⟩ := append_total h.roomy hfit
  obtain ⟨-, hread⟩ := append_sound h (Nat.le_trans (Nat.le_add_left _ _) hfit) hb'
  intro hacc
  unfold Acceptable at hacc
  rw [encode_eq_append hser hp hsmall, hb'] at hacc
  rcases hacc with hsame | ⟨f, -, -, hin, -, htotal, -⟩
  · have hnone := congrArg List.length (hread.symm.trans hsame)
    rw [List.length_append, hlen] at hnone
    unfold headerLen int32Size at hnone
    omega
  · rw [htotal] at hin
    exact absurd (Int.ofNat_le.mp hin.2) (Nat.not_le_of_lt hlong)

/-- What a full buffer shows of a message. -/
theorem encodable_of_full (hP : Sized P) {m : M} (h : Sound b)
    (hsize : b.size = cheapPrepend + 2 ^ 31) (hwrite : b.writeIndex = cheapPrepend + 2 ^ 31)
    (hread : b.readIndex = cheapPrepend) (hacc : Acceptable P m b) : Encodable P m := by
  obtain ⟨hlo, hhi⟩ := toInt32_range (totalLen P m)
  obtain ⟨out, hens, hwi, hsz⟩ := ensureWritableBytes_full (P := P) m h hsize hwrite hread
  have hpre := length_preamble (P := P) m
  unfold Encodable
  rcases writeAt_cases out 0 (preamble P m) with ⟨hfit, out', hw, hwi', hsz'⟩ | ⟨hgt, hw⟩
  · have hname : (nameLenSize + (P.getTypeName m).length : Int) ≤ toInt32 (totalLen P m) := by
      omega
    cases hser : P.serializeToArray m (toInt32 (P.byteSizeLong m)) with
    | none => exact hname
    | some payload =>
      obtain ⟨hle, hp⟩ := hP m _ payload hser
      have hexact : toInt32 (P.byteSizeLong m) = P.byteSizeLong m := by
        have := (toInt32_range (P.byteSizeLong m)).2
        exact toInt32_of_lt (by omega)
      have hexact' : toInt32 (P.getTypeName m).length = (P.getTypeName m).length :=
        toInt32_of_lt (by omega)
      simp only
      by_cases hsmall : totalLen P m < 2 ^ 31
      · refine Nat.le_of_not_lt fun hlong => ?_
        refine not_acceptable_of_long (by rw [← hexact]; exact hser) hp hlong hsmall h ?_ hacc
        unfold headerLen int32Size maxSize
        unfold cheapPrepend at hsize
        omega
      · have hout : out'.size < out'.writeIndex + (headerLen + totalLen P m) := by omega
        have hbad : encode P m b = .error .outOfBounds := by
          rw [encode_steps, hens, ok_bind, hw, ok_bind, hser]
          exact sealFrame_out_of_bounds hexact' hexact hout
        exact absurd hbad hacc.ne_outOfBounds
  · have hbad : encode P m b = .error .outOfBounds := by
      rw [encode_steps, hens, ok_bind, hw]
      rfl
    exact absurd hbad hacc.ne_outOfBounds

/-- **`Encode` puts a message into frames its peer accepts, exactly when** the message is `Encodable`. -/
theorem encode_acceptable_iff (hP : Sized P) {m : M} (hne : P.getTypeName m ≠ []) :
    (∀ b, Reached b → Acceptable P m b) ↔ Encodable P m := by
  constructor
  · intro hall
    obtain ⟨b, hb, hsize, hwrite, hread⟩ := exists_full
    exact encodable_of_full hP hb.sound hsize hwrite hread (hall b hb)
  · intro hcond b hb
    unfold Encodable at hcond
    unfold Acceptable
    cases hser : P.serializeToArray m (toInt32 (P.byteSizeLong m)) with
    | some payload =>
      rw [hser] at hcond
      have hsmall := lt_of_le_maxLen hcond
      obtain ⟨hp, hexact⟩ : payload.length = P.byteSizeLong m ∧
          toInt32 (P.byteSizeLong m) = P.byteSizeLong m :=
        ⟨(hP m _ payload hser).2, (exact_sizes hsmall).1⟩
      have hlen := length_frame (P := P) hp
      rw [encode_eq_append (by rw [← hexact]; exact hser) hp hsmall]
      have hmax : (frame P m payload).length ≤ maxSize := by
        unfold headerLen int32Size at hlen
        unfold maxSize
        omega
      rcases append_or_length hb.sound hmax with ⟨b', he, hread⟩ | ⟨he, -⟩
      · rw [he]
        have htotal := totalLenOf_frame (P := P) payload hsmall
        have hpos : 0 < (P.getTypeName m).length := List.length_pos_of_ne_nil hne
        refine Or.inr ⟨frame P m payload, hread, ?_, ⟨?_, ?_⟩, ?_, htotal, hexact⟩
        · omega
        · rw [htotal]
          unfold minLen totalLen nameLenSize checksumLen int32Size
          omega
        · rw [htotal]
          exact Int.ofNat_le.mpr hcond
        · rw [htotal, hlen]
          omega
      · rw [he]
    | none =>
      rw [hser] at hcond
      have hle : (preamble P m).length ≤ room P m ∧ room P m ≤ maxSize := by
        rw [length_preamble]
        unfold maxSize
        rcases room_cases (P := P) m with ⟨-, hroom, hlt⟩ | ⟨hneg, -⟩ <;> omega
      rcases encode_refused hser hb.sound hle.1 hle.2 with ⟨b', he, hread⟩ | ⟨he, -⟩
      · rw [he]
        exact Or.inl hread
      · rw [he]

/-! ### Queries with a content

`hyper.Query` with only the string `content` set: the tag of field 3, the length as a varint, the
text. -/

def varint : Nat → Nat → List Byte
  | 0, _ => []
  | k + 1, n =>
    if n < 128 then [UInt8.ofNat n] else UInt8.ofNat (n % 128 + 128) :: varint k (n / 128)

theorem length_varint (k n : Nat) : (varint k n).length ≤ k := by
  induction k generalizing n with
  | zero => exact Nat.le_refl _
  | succ k ih =>
    unfold varint
    split
    · exact Nat.succ_le_succ (Nat.zero_le k)
    · exact Nat.succ_le_succ (ih _)

def contentPayload (content : List Byte) : List Byte :=
  if content = [] then [] else 26 :: (varint 10 content.length ++ content)

def parseContent : List Byte → Option (List Byte)
  | [] => some []
  | tag :: rest => if tag = 26 then some ((rest.dropWhile fun c => 128 ≤ c).drop 1) else none

def contentProtobuf : Protobuf (List Byte) where
  getTypeName _ := queryName
  byteSizeLong content := (contentPayload content).length
  serializeToArray content size :=
    if (contentPayload content).length ≤ size then some (contentPayload content) else none
  hasMessageType name := name = queryName
  parseFromArray _ data := parseContent data
  adler32 := adler32

theorem contentProtobuf_sized : Sized contentProtobuf := by
  intro m size payload hser
  unfold contentProtobuf at hser
  simp only at hser
  split at hser
  · rename_i hle
    obtain rfl := Option.some.inj hser
    exact ⟨hle, rfl⟩
  · exact absurd hser (by simp)

theorem encode_acceptable_hello :
    Encodable contentProtobuf [104, 101, 108, 108, 111] ∧
      ∀ b, Reached b → Acceptable contentProtobuf [104, 101, 108, 108, 111] b := by
  have hser : contentProtobuf.serializeToArray [104, 101, 108, 108, 111]
      (toInt32 (contentProtobuf.byteSizeLong [104, 101, 108, 108, 111])) =
        some (contentPayload [104, 101, 108, 108, 111]) := by decide +kernel
  have hencodable : Encodable contentProtobuf [104, 101, 108, 108, 111] := by
    unfold Encodable
    rw [hser]
    decide +kernel
  refine ⟨hencodable, ?_⟩
  exact (encode_acceptable_iff contentProtobuf_sized (by decide +kernel)).mpr hencodable

/-- The frame of a query is a few bytes longer than its content. -/
theorem totalLen_content {content : List Byte} (hne : content ≠ []) :
    content.length < totalLen contentProtobuf content ∧
      totalLen contentProtobuf content ≤ content.length + 30 := by
  have hvarint := length_varint 10 content.length
  have hname : queryName.length = 11 := by decide +kernel
  have htotal : totalLen contentProtobuf content =
      nameLenSize + queryName.length + (contentPayload content).length + checksumLen := rfl
  rw [htotal, hname]
  unfold contentPayload nameLenSize checksumLen int32Size
  rw [if_neg hne, List.length_cons, List.length_append]
  omega

/-- A query whose content fills the 64 MB goes out with a length that `Decode` refuses. -/
theorem not_acceptable_of_content {content : List Byte} (hlen : content.length = maxLen) :
    ¬ Acceptable contentProtobuf content .fresh := by
  have hmax : maxLen = 64 * 1024 * 1024 := by
    unfold maxLen
    rfl
  have hne : content ≠ [] := List.ne_nil_of_length_pos (by omega)
  obtain ⟨hlo, hhi⟩ := totalLen_content hne
  have hfresh : Buffer.fresh.size = cheapPrepend + initializeSize := List.length_replicate
  refine not_acceptable_of_long (if_pos (Int.le_refl _)) rfl (by omega) (by omega) fresh_sound.1 ?_
  unfold cheapPrepend initializeSize at hfresh
  unfold headerLen int32Size maxSize
  omega

theorem encode_not_acceptable_longContent :
    Reached .fresh ∧ ¬ Acceptable contentProtobuf (List.replicate maxLen 97) .fresh :=
  ⟨fresh_reached, not_acceptable_of_content List.length_replicate⟩

/-! ## Every call that returns -/

/-- Room of an ordinary size, on any buffer: it is there when the call returns. -/
theorem ensureWritableBytes_usable (h : Usable b) {len : Nat} (hlen : len ≤ maxSize)
    (he : b.ensureWritableBytes len = .ok b') :
    Usable b' ∧ b'.readable = b.readable ∧ len ≤ b'.size - b'.writeIndex := by
  have h1 := h.write_le
  have h2 := h.size_le
  by_cases hroom : cheapPrepend ≤ b.readIndex + (b.size - b.writeIndex)
  · have hsum : b.writeIndex + len < 2 ^ 64 := by
      unfold maxSize at h2 hlen
      omega
    obtain ⟨hr, hread, hfit, -⟩ := ensureWritableBytes_ok ⟨h.toWf, hroom⟩ hsum he
    exact ⟨hr.usable, hread, hfit⟩
  · by_cases hfit : len ≤ b.size - b.writeIndex
    · unfold ensureWritableBytes at he
      rw [h.writableBytes_eq, if_pos hfit] at he
      obtain rfl := Except.ok.inj he
      exact ⟨h, rfl, hfit⟩
    · rw [ensureWritableBytes_out_of_bounds h.toWf (by omega) (by omega) hlen] at he
      exact absurd he (by simp)

/-- Asked for a size that wrapped below zero, the vector is shortened below the write cursor. -/
theorem ensureWritableBytes_wrapped (h : Usable b) {len : Nat} (hlo : 2 ^ 64 - 2 ^ 31 ≤ len)
    (hhi : len < 2 ^ 64) (he : b.ensureWritableBytes len = .ok b') : b'.size < b'.writeIndex := by
  have h1 := h.write_le
  have h2 := h.size_le
  have h3 := h.read_le
  have hbytes := h.length_readable
  unfold maxSize at h2
  unfold ensureWritableBytes at he
  rw [h.writableBytes_eq, if_neg (by omega)] at he
  unfold makeSpace at he
  simp only at he
  split at he
  · -- the sum of `makeSpace` wrapped as well: the bytes do not fit where they are slid to
    rename_i hspace
    rw [h.writableBytes_eq] at hspace
    have hroom : b.size < cheapPrepend + b.readable.length := by
      unfold wadd wsub cheapPrepend at *
      omega
    obtain ⟨data, hdata, he⟩ := bind_ok_inv he
    obtain ⟨v, hv, -⟩ := bind_ok_inv he
    obtain ⟨hle, -⟩ := vecWrite_eq_ok hv
    have hall : 0 + b.readable.length ≤ b.readable.length := by omega
    have hpeek := peek_eq h.toWf hall
    rw [← h.readableBytes_eq_length, peek, Nat.add_zero, hdata] at hpeek
    obtain rfl := Except.ok.inj hpeek
    rw [h.readableBytes_eq_length, List.drop_zero, List.take_length] at hle
    exact absurd hle (Nat.not_le_of_lt hroom)
  · obtain ⟨v, hv, he⟩ := bind_ok_inv he
    obtain rfl := Except.ok.inj he
    unfold vecResize at hv
    split at hv
    · rename_i hmax
      obtain rfl := Except.ok.inj hv
      unfold maxSize at hmax
      have hshort : wadd b.writeIndex len < b.writeIndex := by
        unfold wadd at hmax ⊢
        omega
      have hlen' : (b.buffer.take (wadd b.writeIndex len) ++
          List.replicate (wadd b.writeIndex len - b.buffer.length) 0).length =
            wadd b.writeIndex len := by
        rw [List.length_append, List.length_take, List.length_replicate]
        omega
      simp only [size, hlen']
      exact hshort
    · exact absurd hv (by simp)

theorem writeAt_frame {off : Nat} {d : List Byte} (he : b.writeAt off d = .ok b') :
    b'.writeIndex = b.writeIndex ∧ b'.readIndex = b.readIndex ∧ b'.size = b.size := by
  obtain ⟨v, hv, he⟩ := bind_ok_inv he
  obtain rfl := Except.ok.inj he
  obtain ⟨hle, rfl⟩ := vecWrite_eq_ok hv
  exact ⟨rfl, rfl, length_overwrite hle⟩

/-- A copy moves neither the cursors nor the end of the vector. -/
theorem writeTo_frame {pos : Int} {d : List Byte} (he : writeTo b pos d = .ok b') :
    b'.writeIndex = b.writeIndex ∧ b'.readIndex = b.readIndex ∧ b'.size = b.size := by
  unfold writeTo at he
  split at he
  · exact writeAt_frame he
  · split at he
    · obtain ⟨v, hv, he⟩ := bind_ok_inv he
      obtain rfl := Except.ok.inj he
      obtain ⟨hle, rfl⟩ := vecWrite_eq_ok hv
      exact ⟨rfl, rfl, length_overwrite hle⟩
    · exact absurd he (by simp)

theorem sealFrame_frame {m : M} {payload : List Byte} {out : Buffer}
    (he : sealFrame P m payload out = .ok b') :
    b'.writeIndex = wadd out.writeIndex (room P m) ∧ b'.readIndex = out.readIndex ∧
      b'.size = out.size := by
  obtain ⟨out₁, h1, he⟩ := bind_ok_inv he
  obtain ⟨checked, -, he⟩ := bind_ok_inv he
  obtain ⟨out₂, h2, he⟩ := bind_ok_inv he
  obtain rfl := Except.ok.inj he
  obtain ⟨hw1, hr1, hs1⟩ := writeTo_frame h1
  obtain ⟨hw2, hr2, hs2⟩ := writeTo_frame h2
  refine ⟨?_, hr2.trans hr1, hs2.trans hs1⟩
  simp only [hasWritten, hw2, hw1]

/-- **What an `Encode` that returns adds**: the room it asked for, or nothing when the message was
refused. -/
theorem encode_adds {m : M} (h : Usable b) (he : encode P m b = .ok b') :
    Usable b' ∧ b'.readable.length = b.readable.length +
      (if (P.serializeToArray m (toInt32 (P.byteSizeLong m))).isSome then room P m else 0) := by
  rw [encode_steps] at he
  obtain ⟨out, hens, he⟩ := bind_ok_inv he
  obtain ⟨out', hw, he⟩ := bind_ok_inv he
  obtain ⟨hwi, hri, hsz⟩ := writeAt_frame hw
  obtain ⟨hlo, -⟩ := toInt32_range (totalLen P m)
  rcases room_cases (P := P) m with ⟨-, -, hlt⟩ | ⟨hneg, hroom⟩
  · obtain ⟨hout, hread, hfit⟩ := ensureWritableBytes_usable h (by unfold maxSize; omega) hens
    have h1 := hout.write_le
    have h2 := hout.read_le
    have h3 := hout.size_le
    have hout' : Usable out' :=
      ⟨⟨by omega, by omega, by rw [hsz]; exact h3⟩, by rw [hsz]; exact hout.size_ge⟩
    have hread' : out'.readable = b.readable := (writeAt_readable hout.toWf hw).trans hread
    cases hser : P.serializeToArray m (toInt32 (P.byteSizeLong m)) with
    | none =>
      rw [hser] at he
      obtain rfl := Except.ok.inj he
      exact ⟨hout', by rw [hread']; rfl⟩
    | some payload =>
      rw [hser] at he
      obtain ⟨hw', hr', hs'⟩ := sealFrame_frame he
      rw [wadd_of_lt (by unfold maxSize at h3; omega)] at hw'
      have hb' : Usable b' :=
        ⟨⟨by omega, by omega, by rw [hs', hsz]; exact h3⟩, by rw [hs', hsz]; exact hout.size_ge⟩
      refine ⟨hb', ?_⟩
      have hlen := congrArg List.length hread'
      rw [hout'.length_readable] at hlen
      rw [hb'.length_readable, ← hlen]
      simp only [Option.isSome_some, if_true]
      omega
  · have hshort := ensureWritableBytes_wrapped h (by unfold headerLen int32Size at *; omega)
      (by unfold headerLen int32Size at *; omega) hens
    rcases writeAt_cases out 0 (preamble P m) with ⟨hle, -⟩ | ⟨-, hbad⟩
    · omega
    · rw [hw] at hbad
      exact absurd hbad (by simp)

end Codec

end HyperMuduo.Net
