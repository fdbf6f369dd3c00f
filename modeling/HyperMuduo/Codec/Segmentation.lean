import HyperMuduo.Codec.Spec

/-!
# Segmentation

A stream of frames reaches `OnMessage` in chunks that the kernel chose.

* `stream_decoding_faithful`: when every frame is the `Encode` of a message, every way of cutting the
  stream dispatches the messages in order and leaves nothing.
* `segmentation_independent_iff`: with bad frames in the stream this holds exactly when no frame comes
  after a bad one. `OnMessage` returns at a bad frame although `Decode` has consumed just that frame,
  and what follows it in the buffer waits for the next chunk.
-/

namespace HyperMuduo.Net.ProtobufHandler

open HyperMuduo.Lib HyperMuduo.Net.Buffer HyperMuduo.Net.Codec

variable {M : Type} {P : Protobuf M} {d : Dispatcher M}

/-- `receiveAll_eq` for a receiver that starts with a fresh buffer. -/
theorem receiveAll_fresh {chunks : List (List Byte)} (hc : ∀ c ∈ chunks, c.length ≤ maxSize)
    (hd : ∀ m ∈ messages (feedAll (scan P) Verdict.stops [] chunks).1, d.dispatch P m = .ok ()) :
    (∃ b, receiveAll P d .fresh chunks =
          .ok (b, messages (feedAll (scan P) Verdict.stops [] chunks).1) ∧
        b.readable = (feedAll (scan P) Verdict.stops [] chunks).2) ∨
      (receiveAll P d .fresh chunks = .error .lengthError ∧
        maxSize < Buffer.fresh.size + chunks.flatten.length) := by
  obtain ⟨hs, hnil⟩ := fresh_sound
  have h := receiveAll_eq (P := P) (d := d) hs hc
  rw [hnil] at h
  exact h hd

/-! ## Messages only -/

/-- What `Encode` puts into a fresh buffer. -/
def encodedBytes (P : Protobuf M) (m : M) : Except Fault (List Byte) := do
  let out ← encode P m .fresh
  return out.readable

/-- The encoding of a message is a complete frame that carries it. -/
theorem encodedBytes_frame (hP : P.Lawful) {m : M} (hlen : totalLen P m ≤ maxLen) :
    ∃ bytes, encodedBytes P m = .ok bytes ∧
      scan P bytes = .frame (.message m) bytes.length := by
  have hsmall : P.byteSizeLong m < 2 ^ 31 := by
    unfold totalLen maxLen at hlen
    omega
  obtain ⟨payload, hser, hp, hparse⟩ := hP.serialize m hsmall
  have hsize := length_frame (P := P) hp
  obtain ⟨hs, hnil⟩ := fresh_sound
  have hfit : Buffer.fresh.size + (frame P m payload).length ≤ maxSize := by
    have hfresh : Buffer.fresh.size = cheapPrepend + initializeSize := List.length_replicate
    unfold maxLen at hlen
    unfold headerLen int32Size at hsize
    unfold cheapPrepend initializeSize at hfresh
    unfold maxSize
    omega
  obtain ⟨b, hb⟩ := append_total hs.roomy hfit
  obtain ⟨-, hread⟩ := append_sound hs (Nat.le_trans (Nat.le_add_left _ _) hfit) hb
  rw [hnil, List.nil_append] at hread
  refine ⟨frame P m payload, ?_, scan_frame (hP.name_ne_nil m) (hP.hasMessageType m) hp hparse hlen⟩
  unfold encodedBytes
  rw [encode_eq_append hser hp (lt_of_le_maxLen hlen), hb, ok_bind, hread]
  rfl

/-- The encodings of a list of messages are frames that carry them in order. -/
theorem mapM_encodedBytes (hP : P.Lawful) {ms : List M} (hlen : ∀ m ∈ ms, totalLen P m ≤ maxLen) :
    ∃ fs, ms.mapM (encodedBytes P) = .ok (fs.map Prod.snd) ∧
      fs.map Prod.fst = ms.map Verdict.message ∧ Frames (scan P) fs := by
  induction ms with
  | nil => exact ⟨[], rfl, rfl, fun f hf => absurd hf List.not_mem_nil⟩
  | cons m ms ih =>
    obtain ⟨bytes, hm, hscan⟩ := encodedBytes_frame hP (hlen m List.mem_cons_self)
    obtain ⟨fs, hms, hfst, hfs⟩ := ih fun x hx => hlen x (List.mem_cons_of_mem _ hx)
    refine ⟨(.message m, bytes) :: fs, ?_, ?_, ?_⟩
    · rw [List.mapM_cons, hm, ok_bind, hms, ok_bind]
      rfl
    · rw [List.map_cons, List.map_cons, hfst]
    · intro f hf
      rcases List.mem_cons.mp hf with rfl | hf
      · exact hscan
      · exact hfs f hf

theorem messages_map_message (ms : List M) : messages (ms.map Verdict.message) = ms := by
  unfold messages
  rw [List.filterMap_map]
  exact List.filterMap_some

theorem stops_message (m : M) : (Verdict.message m).stops = false := rfl

/-- **Stream decoding is faithful for every segmentation.** The only other outcome is the
`length_error` of a vector that would outgrow the address space. -/
theorem stream_decoding_faithful (hP : P.Lawful) (ms : List M)
    (hlen : ∀ m ∈ ms, totalLen P m ≤ maxLen) (hd : ∀ m ∈ ms, d.dispatch P m = .ok ()) :
    ∃ frames, ms.mapM (encodedBytes P) = .ok frames ∧
      ∀ chunks : List (List Byte), chunks.flatten = frames.flatten →
        (∀ c ∈ chunks, c.length ≤ maxSize) →
        (∃ b, receiveAll P d .fresh chunks = .ok (b, ms) ∧ b.readable = []) ∨
          (receiveAll P d .fresh chunks = .error .lengthError ∧
            maxSize < Buffer.fresh.size + frames.flatten.length) := by
  obtain ⟨fs, hms, hfst, hfs⟩ := mapM_encodedBytes hP hlen
  refine ⟨fs.map Prod.snd, hms, ?_⟩
  intro chunks hcut hc
  have hstop : OnlyLastStops Verdict.stops fs := by
    intro f hf
    have hmem : f.1 ∈ ms.map Verdict.message := by
      rw [← hfst]
      exact List.mem_map_of_mem (List.dropLast_subset _ hf)
    obtain ⟨m, -, hm⟩ := List.mem_map.mp hmem
    rw [← hm]
    exact stops_message m
  have hfeed : feedAll (scan P) Verdict.stops [] chunks = (ms.map Verdict.message, []) := by
    rw [← hfst]
    refine feedAll_frames (scan_framing P) hfs hstop ?_
    rw [hcut, stream, List.flatMap_def]
  have h := receiveAll_fresh (P := P) (d := d) hc
  rw [hfeed, messages_map_message, hcut] at h
  exact h hd

/-! ### Queries

`hyper.Query` of the test protocol, with only a one-byte `id` set. -/

/-- `adler32` of zlib, from the initial value 1. -/
def adler32 (bytes : List Byte) : Nat :=
  let sums := bytes.foldl (fun s c => ((s.1 + c.toNat) % 65521, (s.2 + s.1 + c.toNat) % 65521)) (1, 0)
  sums.2 * 65536 + sums.1

def queryName : List Byte := "hyper.Query".toList.map fun c => UInt8.ofNat c.toNat

/-- A default field is not on the wire; any other `id` is one varint behind its tag. -/
def queryPayload (id : Fin 128) : List Byte := if id = 0 then [] else [8, UInt8.ofNat id.val]

/-- A query, for the examples. -/
def someQuery : Fin 128 := 5

def parseQuery : List Byte → Option (Fin 128)
  | [] => some 0
  | [tag, c] => if h : tag = 8 ∧ c.toNat < 128 then some ⟨c.toNat, h.2⟩ else none
  | _ => none

def queryProtobuf : Protobuf (Fin 128) where
  getTypeName _ := queryName
  byteSizeLong id := (queryPayload id).length
  serializeToArray id size := if (queryPayload id).length ≤ size then some (queryPayload id) else none
  hasMessageType name := name = queryName
  parseFromArray _ data := parseQuery data
  adler32 := adler32

theorem queryProtobuf_lawful : queryProtobuf.Lawful where
  name_ne_nil := by decide +kernel
  hasMessageType := by decide +kernel
  serialize := by
    intro id _
    refine ⟨queryPayload id, ?_, rfl, ?_⟩
    · exact if_pos (Int.le_refl _)
    · revert id
      decide +kernel

/-- A callback is registered for queries. -/
def queryDispatcher : Dispatcher (Fin 128) where
  dispatcherMap name := if name = queryName then some (some fun _ => .ok ()) else none
  defaultCb := none

theorem queryDispatcher_dispatch (id : Fin 128) :
    queryDispatcher.dispatch queryProtobuf id = .ok () := rfl

/-- Two queries that arrive byte by byte. -/
theorem stream_decoding_faithful_bytewise :
    ∃ frames b, [5, 0].mapM (encodedBytes queryProtobuf) = .ok frames ∧
      receiveAll queryProtobuf queryDispatcher .fresh (frames.flatten.map fun c => [c]) =
        .ok (b, [5, 0]) ∧ b.readable = [] := by
  obtain ⟨frames, hframes, hall⟩ := stream_decoding_faithful (d := queryDispatcher)
    queryProtobuf_lawful [5, 0] (by decide +kernel) (fun m _ => queryDispatcher_dispatch m)
  obtain ⟨fs, hfs, hlen⟩ : ∃ fs, [5, 0].mapM (encodedBytes queryProtobuf) = .ok fs ∧
      Buffer.fresh.size + fs.flatten.length ≤ maxSize := by decide +kernel
  rw [hfs] at hframes
  obtain rfl := Except.ok.inj hframes
  have hcut : (fs.flatten.map fun c => [c]).flatten = fs.flatten := by
    rw [← List.flatMap_def]
    exact List.flatMap_singleton' _
  have hone : ∀ c ∈ fs.flatten.map fun c => [c], c.length ≤ maxSize := by
    intro c hc
    obtain ⟨x, -, rfl⟩ := List.mem_map.mp hc
    unfold maxSize
    exact Nat.le_of_ble_eq_true rfl
  rcases hall _ hcut hone with ⟨b, hb, hread⟩ | ⟨-, hbig⟩
  · exact ⟨fs, b, hfs, hb, hread⟩
  · exact absurd hlen (Nat.not_le_of_lt hbig)

/-! ## With bad frames -/

/-- A complete frame by its header: the length is accepted and counts what follows. -/
def IsFrame (f : List Byte) : Prop :=
  headerLen ≤ f.length ∧ InRange (totalLenOf f) ∧ f.length = headerLen + (totalLenOf f).toNat

instance (f : List Byte) : Decidable (IsFrame f) := inferInstanceAs (Decidable (_ ∧ _ ∧ _))

/-- What `Decode` makes of a frame. -/
def verdictOf (P : Protobuf M) (f : List Byte) : Verdict M := verdict P (f.drop headerLen)

/-- The chunks dispatch the well-formed frames in order and no complete frame is left undecoded. -/
def Faithful (P : Protobuf M) (d : Dispatcher M) (frames chunks : List (List Byte)) : Prop :=
  ∃ b, receiveAll P d .fresh chunks = .ok (b, messages (frames.map (verdictOf P))) ∧
    ∀ v n, scan P b.readable ≠ .frame v n

theorem scan_isFrame {f : List Byte} (h : IsFrame f) :
    scan P f = .frame (verdictOf P f) f.length := by
  obtain ⟨h4, hin, hlen⟩ := h
  rw [scan_of_frame h4 hin (Nat.le_of_eq hlen.symm), List.take_of_length_le, ← hlen]
  · rfl
  · rw [List.length_drop, hlen]
    exact Nat.le_of_eq (Nat.add_sub_cancel_left _ _)

/-- The frames with their verdicts. -/
def judged (P : Protobuf M) (frames : List (List Byte)) : List (Verdict M × List Byte) :=
  frames.map fun f => (verdictOf P f, f)

theorem judged_frames {frames : List (List Byte)} (hf : ∀ f ∈ frames, IsFrame f) :
    Frames (scan P) (judged P frames) := by
  intro f hmem
  obtain ⟨g, hg, rfl⟩ := List.mem_map.mp hmem
  exact scan_isFrame (hf g hg)

theorem judged_fst (frames : List (List Byte)) :
    (judged P frames).map Prod.fst = frames.map (verdictOf P) := by
  unfold judged
  rw [List.map_map]
  rfl

theorem judged_stream (frames : List (List Byte)) : stream (judged P frames) = frames.flatten := by
  unfold stream judged
  rw [List.flatMap_map]
  exact List.flatMap_id'

theorem judged_onlyLastStops (frames : List (List Byte)) :
    OnlyLastStops Verdict.stops (judged P frames) ↔
      ∀ f ∈ frames.dropLast, (verdictOf P f).stops = false := by
  unfold OnlyLastStops judged
  rw [← List.map_dropLast]
  constructor
  · intro h f hf
    exact h _ (List.mem_map_of_mem hf)
  · intro h g hg
    obtain ⟨f, hf, rfl⟩ := List.mem_map.mp hg
    exact h f hf

/-- The chunks of a stream that fits in memory are delivered. -/
theorem receiveAll_fits {frames chunks : List (List Byte)} (hcut : chunks.flatten = frames.flatten)
    (hfit : Buffer.fresh.size + frames.flatten.length ≤ maxSize)
    (hd : ∀ m ∈ messages (feedAll (scan P) Verdict.stops [] chunks).1, d.dispatch P m = .ok ()) :
    ∃ b, receiveAll P d .fresh chunks =
        .ok (b, messages (feedAll (scan P) Verdict.stops [] chunks).1) ∧
      b.readable = (feedAll (scan P) Verdict.stops [] chunks).2 := by
  have hc : ∀ c ∈ chunks, c.length ≤ maxSize := by
    intro c hmem
    have hle := List.Sublist.length_le (List.sublist_flatten_of_mem hmem)
    rw [hcut] at hle
    exact Nat.le_trans hle (Nat.le_trans (Nat.le_add_left _ _) hfit)
  rcases receiveAll_fresh hc hd with h | ⟨-, hbig⟩
  · exact h
  · rw [hcut] at hbig
    exact absurd hfit (Nat.not_le_of_lt hbig)

/-- With a bad frame before another one, the stream in one piece leaves a complete frame behind. -/
theorem not_faithful_of_stop {frames : List (List Byte)} (hf : ∀ f ∈ frames, IsFrame f)
    (hfit : Buffer.fresh.size + frames.flatten.length ≤ maxSize)
    (hd : ∀ m ∈ messages (frames.map (verdictOf P)), d.dispatch P m = .ok ())
    (hstop : ¬ OnlyLastStops Verdict.stops (judged P frames)) :
    ¬ Faithful P d frames [frames.flatten] := by
  obtain ⟨before, f, next, after, heq, hgo, hbad⟩ := exists_stop hstop
  have hall := judged_frames (P := P) hf
  rw [heq] at hall
  have hpre : Frames (scan P) (before ++ [f]) := by
    intro g hg
    refine hall g ?_
    rw [List.append_cons]
    exact List.mem_append_left _ hg
  have hstream : frames.flatten = stream before ++ f.2 ++ (next.2 ++ stream after) := by
    rw [← judged_stream (P := P), heq]
    simp [stream]
  have hfeed : feedAll (scan P) Verdict.stops [] [frames.flatten] =
      ((before ++ [f]).map Prod.fst, next.2 ++ stream after) := by
    have hlen : (stream before ++ f.2).length ≤ frames.flatten.length := by
      rw [hstream]
      exact (List.sublist_append_left _ _).length_le
    have hdrain := drain_until_stop (scan_framing P) hpre hgo hbad (next.2 ++ stream after) hlen
    rw [← hstream] at hdrain
    simp only [feedAll, List.nil_append, hdrain, List.append_nil]
  have hmsgs : ∀ m ∈ messages (feedAll (scan P) Verdict.stops [] [frames.flatten]).1,
      d.dispatch P m = .ok () := by
    intro m hm
    refine hd m ?_
    rw [← judged_fst, heq, List.append_cons, List.map_append, messages_append]
    rw [hfeed] at hm
    exact List.mem_append_left _ hm
  rintro ⟨b, hb, hnone⟩
  obtain ⟨b', hb', hread⟩ := receiveAll_fits (by simp) hfit hmsgs
  rw [hb] at hb'
  obtain ⟨rfl, -⟩ := Prod.mk.inj (Except.ok.inj hb')
  rw [hread, hfeed] at hnone
  have hnext := hall next (by simp)
  exact hnone _ _ ((scan_framing P).complete _ hnext)

/-- **Segmentation independence, exactly**: every segmentation dispatches the well-formed frames in
order and leaves no complete frame if and only if no frame of the stream comes after a bad one. -/
theorem segmentation_independent_iff (frames : List (List Byte)) (hf : ∀ f ∈ frames, IsFrame f)
    (hfit : Buffer.fresh.size + frames.flatten.length ≤ maxSize)
    (hd : ∀ m ∈ messages (frames.map (verdictOf P)), d.dispatch P m = .ok ()) :
    (∀ chunks : List (List Byte), chunks.flatten = frames.flatten → Faithful P d frames chunks) ↔
      ∀ f ∈ frames.dropLast, (verdictOf P f).stops = false := by
  rw [← judged_onlyLastStops]
  constructor
  · intro h
    by_contra hstop
    exact not_faithful_of_stop hf hfit hd hstop (h _ (by simp))
  · intro hstop chunks hcut
    have hfeed : feedAll (scan P) Verdict.stops [] chunks = (frames.map (verdictOf P), []) := by
      rw [← judged_fst]
      refine feedAll_frames (scan_framing P) (judged_frames hf) hstop ?_
      rw [hcut, judged_stream]
    have h := receiveAll_fits (P := P) (d := d) hcut hfit
    rw [hfeed] at h
    obtain ⟨b, hb, hread⟩ := h hd
    refine ⟨b, hb, ?_⟩
    intro v n
    rw [hread]
    exact fun h => nomatch h

/-- The frame of query 5 with a wrong checksum, and the frame of query 0. -/
def badThenGood : List (List Byte) :=
  [frame { queryProtobuf with adler32 := fun _ => 0 } 5 (queryPayload 5),
    frame queryProtobuf 0 (queryPayload 0)]

/-- The same frames the other way round: the bad one is the last. -/
def goodThenBad : List (List Byte) := badThenGood.reverse

theorem segmentation_independent_iff_goodThenBad :
    (∀ chunks : List (List Byte), chunks.flatten = goodThenBad.flatten →
        Faithful queryProtobuf queryDispatcher goodThenBad chunks) ↔
      ∀ f ∈ goodThenBad.dropLast, (verdictOf queryProtobuf f).stops = false :=
  segmentation_independent_iff goodThenBad (by decide +kernel) (by decide +kernel)
    (fun m _ => queryDispatcher_dispatch m)

/-- In one chunk, the bad frame hides the good one behind it. -/
theorem segmentation_not_always_independent :
    ¬ ∀ chunks : List (List Byte), chunks.flatten = badThenGood.flatten →
      Faithful queryProtobuf queryDispatcher badThenGood chunks := by
  intro h
  obtain ⟨b, hb, -⟩ := h [badThenGood.flatten] (by simp)
  obtain ⟨r, hr, hnone⟩ : ∃ r, receiveAll queryProtobuf queryDispatcher .fresh
      [badThenGood.flatten] = .ok r ∧ r.2 = [] := by decide +kernel
  rw [hb] at hr
  obtain rfl := Except.ok.inj hr
  exact absurd (show messages (badThenGood.map (verdictOf queryProtobuf)) = [] from hnone)
    (by decide +kernel)

end HyperMuduo.Net.ProtobufHandler
