import HyperMuduo.Codec.Segmentation
import HyperMuduo.Link.Model

/-!
# Messages from end to end

Both ends of a connection send protobuf messages, and the message callback of both is
`ProtobufHandler::OnMessage`. A message is encoded into a `Buffer` that is sent as it is or as a
string, or encoded into `sendBuffer()` by `ProtobufHandler::Send`; it travels in whatever pieces
`::write` and `readv` make of it. What a callback sends is a step of its own, after the read.

`Carries` is the invariant: the messages sent at one end and not dispatched at the other are the frames
in transit, in order, and the receive buffer holds less than the first of them.

**`messages_delivered`**: every message is dispatched at most once, in the order of the sends, and as
soon as all of its bytes are received.
-/

namespace HyperMuduo.Net

open HyperMuduo.Lib HyperMuduo.Net.Buffer HyperMuduo.Net.Codec HyperMuduo.Net.ProtobufHandler
open Link

variable {M : Type}

/-- The two ends, the messages sent at each, and those dispatched at each. -/
structure Exchange (M : Type) where
  link : Link
  sent : Side → List M
  dispatched : Side → List M

namespace Exchange

/-- How a message is sent. -/
inductive Via where
  /-- `Encode` into a `Buffer`, and `send(Buffer&)`. -/
  | buffer
  /-- `Encode` into a `Buffer`, and `send(std::string)` of what is in it. -/
  | string
  /-- `ProtobufHandler::Send`. -/
  | handler
  deriving DecidableEq, Repr

inductive Act (M : Type) where
  | send (x : Side) (msg : M) (via : Via) (w : Int)
  | handleWritable (x : Side) (w : Int)
  | read (x : Side) (n : Nat)
  | readError (x : Side)
  | cut (x : Side) (n : Nat)
  deriving DecidableEq, Repr

def join (conn : Side → TcpConnection) : Exchange M := ⟨.join conn, fun _ => [], fun _ => []⟩

/-- Send a message, on the loop thread of the end. -/
def send (P : Protobuf M) (link : Link) (x : Side) (msg : M) (w : Int) : Via → Except Fault Link
  | .buffer => do
    let buf ← encode P msg .fresh
    link.output x (.sendBufferInLoop buf w)
  | .string => do
    let buf ← encode P msg .fresh
    let (str, _) ← buf.retrieveAllAsString
    link.output x (.sendStringInLoop str w)
  | .handler => do
    let sendBuffer ← encode P msg (link.conn x).sendBuffer
    return link.setConn x { link.conn x with sendBuffer := sendBuffer }

def step (P : Protobuf M) (d : Dispatcher M) (s : Exchange M) : Act M → Except Fault (Exchange M)
  | .send x msg via w => do
    let link ← send P s.link x msg w via
    return { s with link := link, sent := Function.update s.sent x (s.sent x ++ [msg]) }
  | .handleWritable x w => do
    let link ← s.link.output x (.handleWritable w)
    return { s with link := link }
  | .read x n => do
    let (link, es) ← s.link.read x n
    if .messageCallback ∈ es then do
      let (buffer, msgs) ← onMessage P d (link.conn x).receiveBuffer
      return { s with
        link := link.setConn x { link.conn x with receiveBuffer := buffer }
        dispatched := Function.update s.dispatched x (s.dispatched x ++ msgs) }
    else return { s with link := link }
  | .readError x => do
    let link ← s.link.readError x
    return { s with link := link }
  | .cut x n => .ok { s with link := s.link.cut x n }

/-- Messages are not longer than `Decode` accepts, and the kernel answers within what it is asked. -/
def Admissible (P : Protobuf M) (s : Exchange M) : Act M → Prop
  | .send _ msg _ w => totalLen P msg ≤ maxLen ∧ -1 ≤ w ∧ w ≤ headerLen + totalLen P msg
  | .handleWritable x w => -1 ≤ w ∧ w ≤ (s.link.conn x).sendBuffer.readableBytes
  | .read x n => s.link.Delivers x n
  | .readError _ | .cut _ _ => True

instance (P : Protobuf M) (s : Exchange M) : ∀ a : Act M, Decidable (s.Admissible P a)
  | .send _ _ _ _ => inferInstanceAs (Decidable (_ ∧ _ ∧ _))
  | .handleWritable _ _ => inferInstanceAs (Decidable (_ ∧ _))
  | .read x n => inferInstanceAs (Decidable (s.link.Delivers x n))
  | .readError _ | .cut _ _ => isTrue trivial

/-- What is in transit from `x` are the frames of the messages still to be dispatched. -/
def Carries (P : Protobuf M) (s : Exchange M) (x : Side) : Prop :=
  ∃ todo : List (M × List Byte), s.sent x = s.dispatched x.peer ++ todo.map Prod.fst ∧
    (∀ f ∈ todo, encodedBytes P f.1 = .ok f.2 ∧ scan P f.2 = .frame (.message f.1) f.2.length) ∧
    s.link.inTransit x = todo.flatMap Prod.snd ∧
    Pending todo (s.link.conn x.peer).receiveBuffer.readable

/-- The invariant. -/
structure Faithful (P : Protobuf M) (s : Exchange M) : Prop where
  sound : s.link.Sound
  messageCallback : ∀ x, (s.link.conn x).messageCallback = true
  carries : ∀ x, s.Carries P x

variable {P : Protobuf M} {d : Dispatcher M} {s s' : Exchange M} {x : Side} {a : Act M}

/-! ## Sending -/

/-- `Encode` appends the same frame to every buffer, and the frame carries its message. -/
theorem encode_frame (hP : P.Lawful) {m : M} (hlen : totalLen P m ≤ maxLen) :
    ∃ f, (∀ b, encode P m b = b.append f) ∧ encodedBytes P m = .ok f ∧
      scan P f = .frame (.message m) f.length ∧ f.length = headerLen + totalLen P m := by
  have hsmall : P.byteSizeLong m < 2 ^ 31 := by
    unfold totalLen maxLen at hlen
    omega
  obtain ⟨payload, hser, hp, hparse⟩ := hP.serialize m hsmall
  have hencode := encode_eq_append hser hp (lt_of_le_maxLen hlen)
  have hscan := scan_frame (hP.name_ne_nil m) (hP.hasMessageType m) hp hparse hlen
  refine ⟨frame P m payload, hencode, ?_, hscan, length_frame hp⟩
  -- the encoding in a fresh buffer is this frame
  obtain ⟨bytes, hbytes, -⟩ := encodedBytes_frame hP hlen
  rw [hbytes]
  unfold encodedBytes at hbytes
  rw [hencode] at hbytes
  obtain ⟨b, hb, hret⟩ := bind_ok_inv hbytes
  have hfit : (frame P m payload).length ≤ maxSize := by
    rw [length_frame hp]
    unfold maxLen at hlen
    unfold headerLen int32Size maxSize
    omega
  have hread := (append_sound fresh_sound.1 hfit hb).2
  rw [fresh_sound.2, List.nil_append] at hread
  rw [← Except.ok.inj hret, hread]

/-- A message's frame fits in a fresh buffer. -/
theorem encode_fresh {m : M} {f : List Byte} (hlen : totalLen P m ≤ maxLen)
    (hf : f.length = headerLen + totalLen P m) :
    ∃ buf, Buffer.fresh.append f = .ok buf ∧ Buffer.Sound buf ∧ buf.readable = f := by
  have hfit : Buffer.fresh.size + f.length ≤ maxSize := by
    have hfresh : Buffer.fresh.size = cheapPrepend + initializeSize := List.length_replicate
    unfold maxLen at hlen
    unfold headerLen int32Size at hf
    unfold cheapPrepend initializeSize at hfresh
    unfold maxSize
    omega
  obtain ⟨buf, hbuf⟩ := append_total fresh_sound.1.roomy hfit
  obtain ⟨hsound, hread⟩ := append_sound fresh_sound.1 (Nat.le_trans (Nat.le_add_left _ _) hfit) hbuf
  rw [fresh_sound.2, List.nil_append] at hread
  exact ⟨buf, hbuf, hsound, hread⟩

/-- Whichever way a message is sent, it is a call on the output side with the frame of the message, or
the frame is appended to the backlog. -/
inductive SendStep (link : Link) (x : Side) (f : List Byte) (r : Except Fault Link) : Prop where
  | output (call : TcpConnection.OutputCall)
      (hadm : TcpConnection.Output.Admissible ⟨link.conn x, []⟩ call) (hpayload : call.payload = f)
      (heq : r = link.output x call)
  | append (heq : r = (link.conn x).sendBuffer.append f >>= fun sendBuffer =>
      pure (link.setConn x { link.conn x with sendBuffer := sendBuffer }))

theorem send_step (hP : P.Lawful) {m : M} {w : Int} (hlen : totalLen P m ≤ maxLen) (hlo : -1 ≤ w)
    (hhi : w ≤ headerLen + totalLen P m) (link : Link) (x : Side) (via : Via) :
    ∃ f, encodedBytes P m = .ok f ∧ scan P f = .frame (.message m) f.length ∧ f.length ≤ maxSize ∧
      SendStep link x f (send P link x m w via) := by
  obtain ⟨f, hencode, hbytes, hscan, hf⟩ := encode_frame hP hlen
  obtain ⟨buf, hbuf, hsound, hread⟩ := encode_fresh hlen hf
  have hlength := hsound.toWf.readableBytes_eq_length
  have hw : w ≤ f.length := by
    rw [hf]
    exact_mod_cast hhi
  have hsize : f.length ≤ maxSize := by
    rw [← hread]
    exact hsound.toWf.length_readable_le
  refine ⟨f, hbytes, hscan, hsize, ?_⟩
  cases via with
  | buffer =>
    simp only [send]
    rw [hencode, hbuf, ok_bind]
    refine .output (.sendBufferInLoop buf w) ⟨⟨hsound.read_le, hsound.write_le, hsound.size_le,
      hsound.prepend_le⟩, hlo, ?_⟩ hread rfl
    rw [hlength, hread]
    exact hw
  | string =>
    have hstr : buf.retrieveAllAsString = .ok (f, buf.retrieveAll) := by
      unfold Buffer.retrieveAllAsString
      rw [TcpConnection.peek_readable hsound.toWf, hread]
      rfl
    simp only [send]
    rw [hencode, hbuf, ok_bind, hstr, ok_bind]
    exact .output (.sendStringInLoop f w) ⟨hsize, hlo, hw⟩ rfl rfl
  | handler =>
    simp only [send]
    rw [hencode]
    exact .append rfl

/-- **A send** adds the frame of its message at the back. -/
theorem SendStep.inTransit {link link' : Link} {f : List Byte} {r : Except Fault Link}
    (h : SendStep link x f r) (hsound : link.Sound) (hlen : f.length ≤ maxSize)
    (he : r = .ok link') :
    link'.Sound ∧ link'.inTransit x = link.inTransit x ++ f ∧
      link'.inTransit x.peer = link.inTransit x.peer ∧ ∀ y, Framed (link.conn y) (link'.conn y) := by
  cases h with
  | output call hadm hpayload heq =>
    rw [heq] at he
    obtain ⟨hsound', hself, hpeer⟩ := output_inTransit hsound hadm he
    exact ⟨hsound', hpayload ▸ hself, hpeer, output_framed he⟩
  | append heq =>
    rw [heq] at he
    obtain ⟨sb, happ, he⟩ := bind_ok_inv he
    obtain rfl := Except.ok.inj he
    obtain ⟨hsb, hread⟩ := append_sound (hsound.sendBuffer x) hlen happ
    refine ⟨⟨?_, ?_, hsound.intact⟩, ?_, ?_, ?_⟩
    · intro y
      obtain rfl | rfl := eq_or_eq_peer x y
      · simpa using hsb
      · simpa using hsound.sendBuffer x.peer
    · intro y
      obtain rfl | rfl := eq_or_eq_peer x y
      · simpa using hsound.receiveBuffer y
      · simpa using hsound.receiveBuffer x.peer
    · unfold Link.inTransit
      rw [conn_setConn_self, conn_setConn_of_ne _ _ (peer_ne x), hread]
      simp only [direction_setConn, List.append_assoc]
    · refine inTransit_congr ?_ ?_ rfl
      · simp
      · simp
    · intro y
      obtain rfl | rfl := eq_or_eq_peer x y
      · simpa using ⟨rfl, rfl, rfl⟩
      · simpa using ⟨rfl, rfl, rfl⟩

theorem SendStep.error {link : Link} {f : List Byte} {r : Except Fault Link} {e : Fault}
    (h : SendStep link x f r) (hsound : link.Sound) (hlen : f.length ≤ maxSize)
    (he : r = .error e) : e = .lengthError := by
  cases h with
  | output call hadm hpayload heq => exact output_error hsound hadm (heq ▸ he)
  | append heq =>
    rw [heq] at he
    rcases bind_error_inv he with happ | ⟨_, -, he⟩
    · exact (append_error (hsound.sendBuffer x).roomy hlen happ).1
    · exact absurd he (by simp [pure, Except.pure])

/-! ## Receiving -/

/-- **`OnMessage` dispatches what is complete**: it takes the first frames in transit out of the receive
buffer and leaves less than the next one there. -/
theorem onMessage_frames {todo : List (M × List Byte)} {b : Buffer} {q : List Byte}
    (hd : ∀ m, d.dispatch P m = .ok ()) (hb : Buffer.Sound b)
    (htodo : ∀ f ∈ todo, encodedBytes P f.1 = .ok f.2 ∧ scan P f.2 = .frame (.message f.1) f.2.length)
    (hbytes : b.readable ++ q = todo.flatMap Prod.snd) :
    ∃ done rest b', todo = done ++ rest ∧ onMessage P d b = .ok (b', done.map Prod.fst) ∧
      Buffer.Sound b' ∧ b'.readable ++ q = rest.flatMap Prod.snd ∧ Pending rest b'.readable := by
  -- the same frames, under their verdicts
  have hframes : Frames (scan P) (todo.map fun f => (Verdict.message f.1, f.2)) := by
    intro g hg
    obtain ⟨f, hf, rfl⟩ := List.mem_map.mp hg
    exact (htodo f hf).2
  have hstops : OnlyLastStops Verdict.stops (todo.map fun f => (Verdict.message f.1, f.2)) := by
    intro g hg
    obtain ⟨f, -, rfl⟩ := List.mem_map.mp (List.dropLast_subset _ hg)
    exact stops_message f.1
  have hstream : b.readable ++ q = stream (todo.map fun f => (Verdict.message f.1, f.2)) := by
    rw [hbytes]
    unfold stream
    rw [List.flatMap_map]
  obtain ⟨done, rest, left, hsplit, hdrain, hrest, hpending⟩ :=
    drain_part (scan_framing P) hframes hstops hstream (Nat.le_refl _)
  obtain ⟨done, rest, rfl, rfl, rfl⟩ := List.map_eq_append_iff.mp hsplit
  obtain ⟨b', hloop, hsound', hread', -⟩ := @onMessageLoop_eq _ P b d b.readableBytes hb
    fun m _ => hd m
  rw [hb.toWf.readableBytes_eq_length, hdrain] at hloop hread'
  have hmsgs : messages ((done.map fun f => (Verdict.message f.1, f.2)).map Prod.fst) =
      done.map Prod.fst := by
    rw [List.map_map, ← messages_map_message (done.map Prod.fst), List.map_map]
    rfl
  rw [hmsgs] at hloop
  refine ⟨done, rest, b', rfl, ?_, hsound', ?_, ?_⟩
  · unfold onMessage
    rw [hb.toWf.readableBytes_eq_length]
    exact hloop
  · rw [hread', hrest]
    unfold stream
    rw [List.flatMap_map]
  · rw [hread']
    cases rest with
    | nil => exact hpending
    | cons f rest => exact hpending

/-! ## Every run -/

/-- A step that neither sends a message in this direction nor touches its receive buffer. -/
theorem Carries.moved (h : s.Carries P x) (hsent : s'.sent x = s.sent x)
    (hdispatched : s'.dispatched x.peer = s.dispatched x.peer)
    (hsame : s'.link.inTransit x = s.link.inTransit x)
    (hreceive : (s'.link.conn x.peer).receiveBuffer.readable =
      (s.link.conn x.peer).receiveBuffer.readable) : s'.Carries P x := by
  obtain ⟨todo, htodo, hframes, hbytes, hpending⟩ := h
  refine ⟨todo, ?_, hframes, hsame.trans hbytes, ?_⟩
  · rw [hsent, hdispatched, htodo]
  · rw [hreceive]
    exact hpending

/-- The frame of one more message, behind the others. -/
theorem pending_append {todo : List (M × List Byte)} {m : M} {f rest : List Byte}
    (hscan : scan P f = .frame (.message m) f.length) (h : Pending todo rest) :
    Pending (todo ++ [(m, f)]) rest := by
  cases todo with
  | nil =>
    obtain rfl : rest = [] := h
    exact ((scan_framing P).bounds hscan).1
  | cons g todo => exact h

theorem wiring_messageCallback {c c' : TcpConnection} (h : c'.wiring = c.wiring) :
    c'.messageCallback = c.messageCallback :=
  congrArg (fun c => c.messageCallback) h

theorem send_faithful (hP : P.Lawful) {m : M} {via : Via} {w : Int} (h : s.Faithful P)
    (ha : s.Admissible P (.send x m via w)) (he : s.step P d (.send x m via w) = .ok s') :
    s'.Faithful P := by
  obtain ⟨hlen, hlo, hhi⟩ := ha
  obtain ⟨link, hlink, he⟩ := bind_ok_inv he
  obtain rfl := Except.ok.inj he
  obtain ⟨f, hf, hscan, hsize, hstep⟩ := send_step hP hlen hlo hhi s.link x via
  obtain ⟨hsound, hself, hpeer, hframed⟩ := hstep.inTransit h.sound hsize hlink
  refine ⟨hsound, fun y => (wiring_messageCallback (hframed y).wiring).trans (h.messageCallback y), ?_⟩
  intro y
  obtain rfl | rfl := eq_or_eq_peer x y
  · obtain ⟨todo, htodo, hframes, hbytes, hpending⟩ := h.carries y
    refine ⟨todo ++ [(m, f)], ?_, ?_, ?_, ?_⟩
    · simp [htodo]
    · intro g hg
      rcases List.mem_append.mp hg with hg | hg
      · exact hframes g hg
      · obtain rfl := List.mem_singleton.mp hg
        exact ⟨hf, hscan⟩
    · simp [hself, hbytes]
    · rw [(hframed y.peer).receiveBuffer]
      exact pending_append hscan hpending
  · refine (h.carries x.peer).moved ?_ rfl hpeer ?_
    · exact Function.update_of_ne (peer_ne x) ..
    · rw [(hframed _).receiveBuffer]

theorem read_faithful (hd : ∀ m, d.dispatch P m = .ok ()) {n : Nat} (h : s.Faithful P)
    (ha : s.Admissible P (.read x n)) (he : s.step P d (.read x n) = .ok s') : s'.Faithful P := by
  obtain ⟨⟨link, es⟩, hlink, he⟩ := bind_ok_inv he
  obtain ⟨hsound, hsame, hread⟩ := read_inTransit h.sound ha hlink
  obtain ⟨hwiring, hpeer, hcall⟩ := read_framed ha hlink
  have hcallback : ∀ y, (link.conn y).messageCallback = true := fun y =>
    (wiring_messageCallback (hwiring y)).trans (h.messageCallback y)
  by_cases hes : .messageCallback ∈ es
  · simp only [if_pos hes] at he
    obtain ⟨⟨buffer, msgs⟩, honMessage, he⟩ := bind_ok_inv he
    obtain rfl := Except.ok.inj he
    obtain ⟨todo, htodo, hframes, hbytes, -⟩ := h.carries x.peer
    -- what is in transit to `x` starts with what it has received
    rw [← hsame x.peer] at hbytes
    unfold Link.inTransit at hbytes
    rw [peer_peer, List.append_assoc] at hbytes
    obtain ⟨done, rest, b', rfl, hmsgs, hb', hrest, hpending⟩ :=
      onMessage_frames hd (hsound.receiveBuffer x) hframes hbytes
    rw [honMessage] at hmsgs
    obtain ⟨rfl, rfl⟩ := Prod.mk.inj (Except.ok.inj hmsgs)
    refine ⟨⟨?_, ?_, hsound.intact⟩, ?_, ?_⟩
    · intro y
      obtain rfl | rfl := eq_or_eq_peer x y
      · simpa using hsound.sendBuffer y
      · simpa using hsound.sendBuffer x.peer
    · intro y
      obtain rfl | rfl := eq_or_eq_peer x y
      · simpa using hb'
      · simpa using hsound.receiveBuffer x.peer
    · intro y
      obtain rfl | rfl := eq_or_eq_peer x y
      · simpa using hcallback y
      · simpa using hcallback x.peer
    · intro y
      obtain rfl | rfl := eq_or_eq_peer x y
      · refine (h.carries y).moved rfl ?_ ?_ ?_
        · exact Function.update_of_ne (peer_ne y) ..
        · rw [← hsame y]
          refine inTransit_congr ?_ ?_ rfl
          · simp
          · simp
        · simp [hpeer]
      · refine ⟨rest, ?_, ?_, ?_, ?_⟩
        · simp [htodo]
        · exact fun f hf => hframes f (List.mem_append_right _ hf)
        · unfold Link.inTransit
          simpa using hrest
        · simpa using hpending
  · -- the end of the stream
    simp only [if_neg hes] at he
    obtain rfl := Except.ok.inj he
    have hzero : n = 0 := by
      by_contra hn
      exact hes (hcall.mpr ⟨hn, h.messageCallback x⟩)
    refine ⟨hsound, hcallback, ?_⟩
    intro y
    refine (h.carries y).moved rfl rfl (hsame y) ?_
    obtain rfl | rfl := eq_or_eq_peer x y
    · exact congrArg Buffer.readable hpeer
    · rw [hzero, List.take_zero, List.append_nil] at hread
      simpa using hread

theorem step_faithful (hP : P.Lawful) (hd : ∀ m, d.dispatch P m = .ok ()) (h : s.Faithful P)
    (ha : s.Admissible P a) (he : s.step P d a = .ok s') : s'.Faithful P := by
  cases a with
  | send x m via w => exact send_faithful hP h ha he
  | handleWritable x w =>
    obtain ⟨link, hlink, he⟩ := bind_ok_inv he
    obtain rfl := Except.ok.inj he
    obtain ⟨hsound, hself, hpeer⟩ :=
      output_inTransit (k := .handleWritable w) h.sound ha hlink
    have hframed := output_framed hlink
    refine ⟨hsound,
      fun y => (wiring_messageCallback (hframed y).wiring).trans (h.messageCallback y), ?_⟩
    intro y
    refine (h.carries y).moved rfl rfl ?_ ?_
    · obtain rfl | rfl := eq_or_eq_peer x y
      · exact hself.trans (List.append_nil _)
      · exact hpeer
    · rw [(hframed _).receiveBuffer]
  | read x n => exact read_faithful hd h ha he
  | readError x =>
    obtain ⟨link, hlink, he⟩ := bind_ok_inv he
    obtain rfl := Except.ok.inj he
    obtain rfl := readError_same hlink
    exact h
  | cut x n =>
    obtain rfl := Except.ok.inj he
    obtain ⟨hsound, hsame⟩ := cut_inTransit h.sound (x := x) n
    exact ⟨hsound, h.messageCallback, fun y => (h.carries y).moved rfl rfl (hsame y) rfl⟩

theorem step_error (hP : P.Lawful) (hd : ∀ m, d.dispatch P m = .ok ()) {e : Fault} (h : s.Faithful P)
    (ha : s.Admissible P a) (he : s.step P d a = .error e) : e = .lengthError := by
  cases a with
  | send x m via w =>
    obtain ⟨hlen, hlo, hhi⟩ := ha
    obtain ⟨f, -, -, hsize, hstep⟩ := send_step hP hlen hlo hhi s.link x via
    rcases bind_error_inv he with hlink | ⟨_, -, he⟩
    · exact hstep.error h.sound hsize hlink
    · exact absurd he (by simp [pure, Except.pure])
  | handleWritable x w =>
    rcases bind_error_inv he with hlink | ⟨_, -, he⟩
    · exact output_error (k := .handleWritable w) h.sound ha hlink
    · exact absurd he (by simp [pure, Except.pure])
  | read x n =>
    rcases bind_error_inv he with hlink | ⟨⟨link, es⟩, hlink, he⟩
    · exact read_error h.sound ha hlink
    · obtain ⟨hsound, -⟩ := read_inTransit h.sound ha hlink
      obtain ⟨b', hloop, -⟩ := @onMessageLoop_eq _ P (link.conn x).receiveBuffer d
        (link.conn x).receiveBuffer.readableBytes (hsound.receiveBuffer x) fun m _ => hd m
      simp only [onMessage, hloop] at he
      split at he <;> exact absurd he (by simp [pure, Except.pure, bind, Except.bind])
  | readError x =>
    rcases bind_error_inv he with hlink | ⟨_, -, he⟩
    · exact absurd hlink readError_error
    · exact absurd he (by simp [pure, Except.pure])
  | cut x n => exact absurd he (by simp [step])

/-- Less than the next frame is not a message yet. -/
theorem pending_incomplete {todo : List (M × List Byte)} {rest q : List Byte}
    (hframes : ∀ f ∈ todo, scan P f.2 = .frame (.message f.1) f.2.length)
    (hbytes : rest ++ q = todo.flatMap Prod.snd) (h : Pending todo rest) :
    scan P rest = .incomplete := by
  cases todo with
  | nil =>
    obtain rfl : rest = [] := h
    exact (scan_framing P).empty
  | cons f todo =>
    have hlt : rest.length < f.2.length := h
    have hpart : rest = f.2.take rest.length := by
      have htake := congrArg (List.take rest.length) hbytes
      rw [List.take_left, List.flatMap_cons, List.take_append_of_le_length (Nat.le_of_lt hlt)] at htake
      exact htake
    rw [hpart]
    exact (scan_framing P).minimal (hframes f List.mem_cons_self) hlt

theorem mapM_encoded {todo : List (M × List Byte)} (h : ∀ f ∈ todo, encodedBytes P f.1 = .ok f.2) :
    (todo.map Prod.fst).mapM (encodedBytes P) = .ok (todo.map Prod.snd) := by
  induction todo with
  | nil => rfl
  | cons f todo ih =>
    rw [List.map_cons, List.mapM_cons, h f List.mem_cons_self, ok_bind,
      ih fun g hg => h g (List.mem_cons_of_mem _ hg), ok_bind]
    rfl

/-- **Messages arrive once, in order and whole.** In every run of two ends that send messages of
accepted length and receive with `OnMessage`, the messages dispatched at one end are the first of those
sent at the other. The bytes of the others are received, on the wire and in the backlog as long as the
direction has not ended, and no complete message waits in the receive buffer. A run stops only at the
`length_error` of a buffer. -/
theorem messages_delivered (hP : P.Lawful) (hd : ∀ m, d.dispatch P m = .ok ())
    {conn : Side → TcpConnection} (hsend : ∀ x, (conn x).sendBuffer = .fresh)
    (hreceive : ∀ x, (conn x).receiveBuffer = .fresh)
    (hcallback : ∀ x, (conn x).messageCallback = true) (acts : List (Act M))
    (hadm : Along (step P d) (Admissible P) (join conn) acts) :
    (∀ s, run (step P d) (join conn) acts = .ok s → ∀ x : Side, ∃ todo frames,
      s.sent x = s.dispatched x.peer ++ todo ∧ todo.mapM (encodedBytes P) = .ok frames ∧
      ((s.link.direction x).ended = false → frames.flatten =
        (s.link.conn x.peer).receiveBuffer.readable ++ (s.link.direction x).wire ++
          (s.link.conn x).sendBuffer.readable) ∧
      scan P (s.link.conn x.peer).receiveBuffer.readable = .incomplete) ∧
    ∀ e, run (step P d) (join conn) acts = .error e → e = .lengthError := by
  obtain ⟨hsound, hnone⟩ := join_sound hsend hreceive
  have hstart : Faithful P (join conn : Exchange M) := by
    refine ⟨hsound, hcallback, ?_⟩
    intro x
    refine ⟨[], rfl, fun f hf => absurd hf List.not_mem_nil, hnone x, ?_⟩
    exact (congrArg Buffer.readable (hreceive x.peer)).trans fresh_sound.2
  constructor
  · intro s hrun x
    have h := run_invariant (I := Faithful P) (step_faithful hP hd) hstart hadm hrun
    obtain ⟨todo, hsent, hframes, hbytes, hpending⟩ := h.carries x
    refine ⟨todo.map Prod.fst, todo.map Prod.snd, hsent, mapM_encoded fun f hf => (hframes f hf).1,
      ?_, ?_⟩
    · intro hopen
      rw [← List.flatMap_def, ← hbytes]
      unfold inTransit Direction.contents
      rw [h.sound.intact x hopen, List.append_nil]
    · unfold inTransit at hbytes
      rw [List.append_assoc] at hbytes
      exact pending_incomplete (fun f hf => (hframes f hf).2) hbytes hpending
  · intro e he
    exact run_error (I := Faithful P) (step_faithful hP hd) (step_error hP hd) hstart hadm he

/-- A query that the reads cut in two, and one from `ProtobufHandler::Send` that waits until the next send
takes it along. -/
def threeQueries (m₁ m₂ m₃ : M) : List (Act M) :=
  [.send .client m₁ .buffer 25, .read .server 7, .send .client m₂ .handler 0, .read .server 18,
    .send .client m₃ .string (-1), .handleWritable .client 40, .read .server 40]

theorem messages_delivered_threeQueries :
    ∃ s, run (step queryProtobuf queryDispatcher) (join Traffic.ends) (threeQueries 5 0 7) = .ok s ∧
      s.sent .client = [5, 0, 7] ∧ s.dispatched .server = [5, 0] ∧
      ∃ todo frames, s.sent .client = s.dispatched .server ++ todo ∧
        todo.mapM (encodedBytes queryProtobuf) = .ok frames ∧
        frames.flatten = (s.link.conn .server).receiveBuffer.readable ++
          (s.link.direction .client).wire ++ (s.link.conn .client).sendBuffer.readable := by
  have hadm : Along (step queryProtobuf queryDispatcher) (Admissible queryProtobuf)
      (join Traffic.ends) (threeQueries 5 0 7) := by decide +kernel
  have hend : ∃ s, run (step queryProtobuf queryDispatcher) (join Traffic.ends) (threeQueries 5 0 7) = .ok s ∧
      s.sent .client = [5, 0, 7] ∧ s.dispatched .server = [5, 0] ∧
      (s.link.direction .client).ended = false := by decide +kernel
  obtain ⟨s, hrun, hsent, hdispatched, hopen⟩ := hend
  have hsend : ∀ x, (Traffic.ends x).sendBuffer = .fresh := by rintro (_ | _) <;> rfl
  have hreceive : ∀ x, (Traffic.ends x).receiveBuffer = .fresh := by rintro (_ | _) <;> rfl
  have hcallback : ∀ x, (Traffic.ends x).messageCallback = true := by rintro (_ | _) <;> rfl
  obtain ⟨hlaw, -⟩ := messages_delivered queryProtobuf_lawful queryDispatcher_dispatch
    hsend hreceive hcallback (threeQueries 5 0 7) hadm
  obtain ⟨todo, frames, htodo, hframes, hbytes, -⟩ := hlaw s hrun .client
  exact ⟨s, hrun, hsent, hdispatched, todo, frames, htodo, hframes, hbytes hopen⟩

end Exchange

end HyperMuduo.Net
