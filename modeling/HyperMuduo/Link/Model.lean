import HyperMuduo.TcpConnection.LifeCycle
import HyperMuduo.TcpConnection.Stream

/-!
# Two connections joined by the kernel

Two `TcpConnection`s are the ends of one TCP connection, each on its own loop. What `::write` takes at
one end is on the wire until `readv` delivers it at the other, in order and in pieces of any size. A
step is one call on the loop thread of an end; the ends step in any order.

* `output` is a `sendInLoop` or `handleWritable`, `read` is `handleReadable` with what `readv` delivers.
* A direction ends when its writer is gone or the connection breaks (`cut`): then no more than some
  part of what is on the wire gets through, and what `::write` still takes is lost.
* User code takes bytes out of `receiveBuffer()` with `retrieveAsString`, in the message callback or
  later.

`inTransit` is everything between the send call of one end and the user of the other: the backlog, the
wire, and the bytes received and not yet taken. `output` adds at its back, `retrieve` takes from its
front, and nothing else moves it (`output_inTransit`, `read_inTransit`).

**`stream_delivered`**: what one end was handed is what the user of the other took, followed by what is
in transit.
-/

namespace HyperMuduo.Net

open HyperMuduo.Lib HyperMuduo.Net.Buffer
open TcpConnection (Effect Output OutputCall accepted)

/-- The two ends of a connection. -/
inductive Side where
  | client
  | server
  deriving DecidableEq, Repr

def Side.peer : Side → Side
  | client => server
  | server => client

/-- One direction of a connection, in the kernel. -/
structure Direction where
  /-- What `::write` took at one end and `readv` has yet to deliver at the other. -/
  wire : List Byte
  /-- Nothing is put on the wire any more. -/
  ended : Bool
  /-- A ghost: what `::write` took and nobody will read. -/
  lost : List Byte
  deriving DecidableEq, Repr

namespace Direction

def fresh : Direction := ⟨[], false, []⟩

/-- `::write` took these bytes. -/
def carry (d : Direction) (bytes : List Byte) : Direction :=
  if d.ended then { d with lost := d.lost ++ bytes } else { d with wire := d.wire ++ bytes }

/-- Only the next `n` bytes on the wire get through. -/
def cut (d : Direction) (n : Nat) : Direction :=
  ⟨d.wire.take n, true, d.wire.drop n ++ d.lost⟩

/-- Everything the kernel took, in order. -/
def contents (d : Direction) : List Byte := d.wire ++ d.lost

/-- Bytes are lost only after the end. -/
def Intact (d : Direction) : Prop := d.ended = false → d.lost = []

instance (d : Direction) : Decidable d.Intact := inferInstanceAs (Decidable (_ → _))

variable {d : Direction}

theorem carry_contents (h : d.Intact) (bytes : List Byte) :
    (d.carry bytes).contents = d.contents ++ bytes := by
  unfold carry contents
  split
  · exact (List.append_assoc ..).symm
  · rename_i hopen
    rw [h (Bool.not_eq_true _ ▸ hopen), List.append_nil, List.append_nil]

theorem carry_intact (h : d.Intact) (bytes : List Byte) : (d.carry bytes).Intact := by
  unfold carry
  split
  · rename_i hended
    exact fun hopen => absurd (hended.symm.trans hopen) (by simp)
  · exact h

theorem carry_ended (d : Direction) (bytes : List Byte) : (d.carry bytes).ended = d.ended := by
  unfold carry
  split <;> rfl

theorem cut_contents (d : Direction) (n : Nat) : (d.cut n).contents = d.contents := by
  unfold cut contents
  rw [← List.append_assoc, List.take_append_drop]

theorem cut_intact (d : Direction) (n : Nat) : (d.cut n).Intact := fun h => absurd h (by simp [cut])

end Direction

/-- The two ends, and the direction that starts at each. -/
structure Link where
  conn : Side → TcpConnection
  direction : Side → Direction

namespace Link

/-- Two connections, with nothing sent yet. -/
def join (conn : Side → TcpConnection) : Link := ⟨conn, fun _ => .fresh⟩

def setConn (s : Link) (x : Side) (c : TcpConnection) : Link :=
  { s with conn := Function.update s.conn x c }

def setDirection (s : Link) (x : Side) (d : Direction) : Link :=
  { s with direction := Function.update s.direction x d }

/-- A call on the output side of an end; what `::write` takes goes on the wire. -/
def output (s : Link) (x : Side) (call : OutputCall) : Except Fault Link := do
  let (c, es) ← Output.call (s.conn x) call
  return (s.setConn x c).setDirection x ((s.direction x).carry (accepted es))

/-- `handleReadable`, with the next `n` bytes of the wire. None are the end of the stream. -/
def read (s : Link) (x : Side) (n : Nat) : Except Fault (Link × List Effect) := do
  let d := s.direction x.peer
  let (c, es) ← (s.conn x).handleReadable (.loop (s.conn x).loop) (some (d.wire.take n))
  return ((s.setConn x c).setDirection x.peer { d with wire := d.wire.drop n }, es)

/-- `handleReadable` when `readv` fails. -/
def readError (s : Link) (x : Side) : Except Fault Link := do
  let (c, _) ← (s.conn x).handleReadable (.loop (s.conn x).loop) none
  return s.setConn x c

/-- `receiveBuffer().retrieveAsString(len)`: the string, and the ends after the call. -/
def retrieve (s : Link) (x : Side) (len : Nat) : Except Fault (List Byte × Link) := do
  let (msg, receiveBuffer) ← (s.conn x).receiveBuffer.retrieveAsString len
  return (msg, s.setConn x { s.conn x with receiveBuffer := receiveBuffer })

def cut (s : Link) (x : Side) (n : Nat) : Link := s.setDirection x ((s.direction x).cut n)

/-- What was sent at `x` and not taken by the user of its peer, in order. -/
def inTransit (s : Link) (x : Side) : List Byte :=
  (s.conn x.peer).receiveBuffer.readable ++ (s.direction x).contents ++ (s.conn x).sendBuffer.readable

/-- The buffers are in order, and bytes are lost only where a direction has ended. -/
structure Sound (s : Link) : Prop where
  sendBuffer : ∀ x, Buffer.Sound (s.conn x).sendBuffer
  receiveBuffer : ∀ x, Buffer.Sound (s.conn x).receiveBuffer
  intact : ∀ x, (s.direction x).Intact

/-- `readv` delivers what is there, at least one byte unless the direction has ended, and no more than
its two segments take. The end of the stream is read once, by an open connection of an owner. -/
def Delivers (s : Link) (x : Side) (n : Nat) : Prop :=
  n ≤ (s.direction x.peer).wire.length ∧
    n ≤ (s.conn x).receiveBuffer.writableBytes + extraSize ∧
    (n = 0 → (s.direction x.peer).wire = [] ∧ (s.direction x.peer).ended = true ∧
      ((s.conn x).state = .connected ∨ (s.conn x).state = .disconnecting) ∧
      (s.conn x).closeCallback ≠ none)

instance (s : Link) (x : Side) (n : Nat) : Decidable (s.Delivers x n) :=
  inferInstanceAs (Decidable (_ ∧ _ ∧ _))

variable {s s' : Link} {x y : Side}

@[simp] theorem peer_peer (x : Side) : x.peer.peer = x := by cases x <;> rfl

@[simp] theorem peer_ne (x : Side) : x.peer ≠ x := by cases x <;> simp [Side.peer]

@[simp] theorem ne_peer (x : Side) : x ≠ x.peer := (peer_ne x).symm

theorem eq_or_eq_peer (x y : Side) : y = x ∨ y = x.peer := by
  cases x <;> cases y <;> simp [Side.peer]

@[simp] theorem conn_setConn_self (s : Link) (x : Side) (c : TcpConnection) :
    (s.setConn x c).conn x = c := Function.update_self ..

@[simp] theorem conn_setConn_of_ne (s : Link) {x y : Side} (c : TcpConnection) (h : y ≠ x) :
    (s.setConn x c).conn y = s.conn y := Function.update_of_ne h ..

@[simp] theorem direction_setConn (s : Link) (x : Side) (c : TcpConnection) :
    (s.setConn x c).direction = s.direction := rfl

@[simp] theorem conn_setDirection (s : Link) (x : Side) (d : Direction) :
    (s.setDirection x d).conn = s.conn := rfl

@[simp] theorem direction_setDirection_self (s : Link) (x : Side) (d : Direction) :
    (s.setDirection x d).direction x = d := Function.update_self ..

@[simp] theorem direction_setDirection_of_ne (s : Link) {x y : Side} (d : Direction) (h : y ≠ x) :
    (s.setDirection x d).direction y = s.direction y := Function.update_of_ne h ..

theorem join_sound {conn : Side → TcpConnection} (hsend : ∀ x, (conn x).sendBuffer = .fresh)
    (hreceive : ∀ x, (conn x).receiveBuffer = .fresh) :
    Sound (join conn) ∧ ∀ x, (join conn).inTransit x = [] := by
  refine ⟨⟨?_, ?_, fun x _ => rfl⟩, ?_⟩
  · intro x
    exact (hsend x).symm ▸ fresh_sound.1
  · intro x
    exact (hreceive x).symm ▸ fresh_sound.1
  · intro x
    unfold inTransit join
    rw [hsend, hreceive, fresh_sound.2]
    rfl

/-! ## What a step moves -/

/-- Nothing else than the two buffers of an end and the two directions is looked at. -/
theorem inTransit_congr (hsend : (s'.conn x).sendBuffer = (s.conn x).sendBuffer)
    (hreceive : (s'.conn x.peer).receiveBuffer = (s.conn x.peer).receiveBuffer)
    (hdirection : (s'.direction x).contents = (s.direction x).contents) :
    s'.inTransit x = s.inTransit x := by
  unfold inTransit
  rw [hsend, hreceive, hdirection]

/-- A call on the output side leaves the rest of the connection alone. -/
structure Framed (c c' : TcpConnection) : Prop where
  receiveBuffer : c'.receiveBuffer = c.receiveBuffer
  wiring : c'.wiring = c.wiring
  state : c'.state = c.state

theorem call_framed {c c' : TcpConnection} {es : List Effect} {call : OutputCall}
    (h : Output.call c call = .ok (c', es)) : Framed c c' := by
  have hsend : ∀ {msg w}, c.sendInLoop (.loop c.loop) msg w = .ok (c', es) → Framed c c' := by
    intro msg w h
    obtain ⟨-, ⟨-, rfl, -⟩ | ⟨-, sb, -, rfl, -⟩⟩ := TcpConnection.sendInLoop_inv h
    · exact ⟨rfl, rfl, rfl⟩
    · rw [TcpConnection.raiseWriteInterest_eq]
      exact ⟨rfl, rfl, rfl⟩
  cases call with
  | sendInLoop msg w => exact hsend h
  | sendStringInLoop msg w => exact hsend h
  | sendBufferInLoop buf w =>
    obtain ⟨⟨c₁, buf₁, es₁⟩, hbuf, hret⟩ := bind_ok_inv h
    obtain ⟨rfl, rfl⟩ := Prod.mk.inj (Except.ok.inj hret)
    obtain ⟨-, buf₂, written, -, ⟨-, rfl, -, -⟩ | ⟨-, sb, -, rfl, -⟩⟩ :=
      TcpConnection.sendBufferInLoop_inv hbuf
    · exact ⟨rfl, rfl, rfl⟩
    · rw [TcpConnection.raiseWriteInterest_eq]
      exact ⟨rfl, rfl, rfl⟩
  | handleWritable w =>
    obtain ⟨-, ⟨rfl, -⟩ | ⟨-, -, offered, -, ⟨-, rfl, -⟩ | ⟨-, rfl, -⟩⟩⟩ :=
      TcpConnection.handleWritable_inv h <;> exact ⟨rfl, rfl, rfl⟩

theorem output_framed {call : OutputCall} (he : s.output x call = .ok s') (y : Side) :
    Framed (s.conn y) (s'.conn y) := by
  obtain ⟨⟨c, es⟩, hcall, he⟩ := bind_ok_inv he
  obtain rfl := Except.ok.inj he
  obtain rfl | rfl := eq_or_eq_peer x y
  · simpa using call_framed hcall
  · simpa using ⟨rfl, rfl, rfl⟩

/-- **A call on the output side** adds what it is handed at the back of its direction. -/
theorem output_inTransit {k : OutputCall} (h : Sound s)
    (hadm : Output.Admissible ⟨s.conn x, []⟩ k) (he : s.output x k = .ok s') :
    Sound s' ∧ s'.inTransit x = s.inTransit x ++ k.payload ∧
      s'.inTransit x.peer = s.inTransit x.peer := by
  obtain ⟨⟨c, es⟩, hcall, he⟩ := bind_ok_inv he
  obtain rfl := Except.ok.inj he
  have hstep : Output.step ⟨s.conn x, []⟩ k = .ok ⟨c, accepted es⟩ := by
    unfold Output.step
    rw [hcall]
    rfl
  obtain ⟨hsound, hbytes, -⟩ := Output.step_bytes (h.sendBuffer x) hadm hstep
  have hreceive := (call_framed hcall).receiveBuffer
  refine ⟨⟨?_, ?_, ?_⟩, ?_, ?_⟩
  · intro y
    obtain rfl | rfl := eq_or_eq_peer x y
    · simpa using hsound
    · simpa using h.sendBuffer x.peer
  · intro y
    obtain rfl | rfl := eq_or_eq_peer x y
    · simpa [hreceive] using h.receiveBuffer y
    · simpa using h.receiveBuffer x.peer
  · intro y
    obtain rfl | rfl := eq_or_eq_peer x y
    · simpa using Direction.carry_intact (h.intact y) _
    · simpa using h.intact x.peer
  · unfold inTransit
    simp only [conn_setDirection, direction_setDirection_self]
    rw [conn_setConn_of_ne _ _ (peer_ne x), conn_setConn_self, Direction.carry_contents (h.intact x)]
    simp only [List.nil_append] at hbytes
    simp only [List.append_assoc]
    rw [hbytes]
  · refine inTransit_congr ?_ ?_ ?_
    · simp
    · simp [hreceive]
    · simp

/-- What `handleReadable` does to the buffers, for bytes that are there. -/
theorem handleReadable_buffers {c c' : TcpConnection} {t : ThreadId} {es : List Effect}
    {data : List Byte} (h : Buffer.Sound c.receiveBuffer)
    (hlen : data.length ≤ c.receiveBuffer.writableBytes + extraSize)
    (he : c.handleReadable t (some data) = .ok (c', es)) :
    Buffer.Sound c'.receiveBuffer ∧ c'.receiveBuffer.readable = c.receiveBuffer.readable ++ data ∧
      c'.sendBuffer = c.sendBuffer := by
  have hsame := (TcpConnection.handleReadable_wiring he).2
  obtain ⟨-, rb, hrb, hcases⟩ := TcpConnection.handleReadable_inv he
  obtain ⟨hroomy, hbytes, hkeep⟩ := readFd_ok h.roomy hlen (Or.inl h.prepend_le) hrb
  have hreceive : c'.receiveBuffer = rb := by
    obtain ⟨-, hclose⟩ | ⟨-, rfl, -⟩ := hcases
    · obtain ⟨-, -, cb, -, rfl, -⟩ := TcpConnection.handleClose_inv hclose
      rfl
    · rfl
  rw [hreceive]
  exact ⟨⟨hroomy.toWf, hkeep h.prepend_le⟩, hbytes, hsame⟩

/-- **A read** moves nothing in or out; it puts the next bytes of the wire into the receive buffer. -/
theorem read_inTransit {n : Nat} {es : List Effect} (h : Sound s) (hdel : s.Delivers x n)
    (he : s.read x n = .ok (s', es)) :
    Sound s' ∧ (∀ y, s'.inTransit y = s.inTransit y) ∧ (s'.conn x).receiveBuffer.readable =
      (s.conn x).receiveBuffer.readable ++ (s.direction x.peer).wire.take n := by
  obtain ⟨⟨c, es'⟩, hread, he⟩ := bind_ok_inv he
  obtain ⟨rfl, rfl⟩ := Prod.mk.inj (Except.ok.inj he)
  have hlen : ((s.direction x.peer).wire.take n).length ≤
      (s.conn x).receiveBuffer.writableBytes + extraSize := by
    rw [List.length_take]
    exact Nat.le_trans (Nat.min_le_left _ _) hdel.2.1
  obtain ⟨hsound, hbytes, hsend⟩ := handleReadable_buffers (h.receiveBuffer x) hlen hread
  refine ⟨⟨?_, ?_, ?_⟩, ?_, ?_⟩
  · intro y
    obtain rfl | rfl := eq_or_eq_peer x y
    · simpa [hsend] using h.sendBuffer y
    · simpa using h.sendBuffer x.peer
  · intro y
    obtain rfl | rfl := eq_or_eq_peer x y
    · simpa using hsound
    · simpa using h.receiveBuffer x.peer
  · intro y
    obtain rfl | rfl := eq_or_eq_peer x y
    · simpa using h.intact y
    · rw [direction_setDirection_self]
      exact h.intact x.peer
  · intro y
    obtain rfl | rfl := eq_or_eq_peer x y
    · refine inTransit_congr ?_ ?_ ?_
      · simp [hsend]
      · simp
      · simp
    · -- the bytes go from the wire to the receive buffer
      unfold inTransit Direction.contents
      simp only [peer_peer, conn_setDirection, direction_setDirection_self, conn_setConn_self]
      rw [conn_setConn_of_ne _ _ (peer_ne x), hbytes]
      conv_rhs => rw [← List.take_append_drop n (s.direction x.peer).wire]
      simp only [List.append_assoc]
  · simpa using hbytes

/-- A read touches one receive buffer. The message callback runs unless it is the end of the stream. -/
theorem read_framed {n : Nat} {es : List Effect} (hdel : s.Delivers x n)
    (he : s.read x n = .ok (s', es)) :
    (∀ y, (s'.conn y).wiring = (s.conn y).wiring) ∧
      (s'.conn x.peer).receiveBuffer = (s.conn x.peer).receiveBuffer ∧
      (.messageCallback ∈ es ↔ n ≠ 0 ∧ (s.conn x).messageCallback = true) := by
  obtain ⟨⟨c, es'⟩, hread, he⟩ := bind_ok_inv he
  obtain ⟨rfl, rfl⟩ := Prod.mk.inj (Except.ok.inj he)
  refine ⟨?_, ?_, ?_⟩
  · intro y
    obtain rfl | rfl := eq_or_eq_peer x y
    · simpa using (TcpConnection.handleReadable_wiring hread).1
    · simp
  · simp
  · have hnil : (s.direction x.peer).wire.take n = [] ↔ n = 0 := by
      rw [← List.length_eq_zero_iff, List.length_take, Nat.min_eq_left hdel.1]
    obtain ⟨-, rb, -, ⟨hend, hclose⟩ | ⟨hsome, -, rfl⟩⟩ := TcpConnection.handleReadable_inv hread
    · obtain ⟨-, -, cb, -, -, rfl⟩ := TcpConnection.handleClose_inv hclose
      have hzero := hnil.mp (Option.some.inj hend)
      simp [hzero]
    · have hpos : n ≠ 0 := fun hzero => hsome (by rw [hnil.mpr hzero])
      simp [hpos]

/-- A failed `readv` changes nothing. -/
theorem readError_same (he : s.readError x = .ok s') : s' = s := by
  obtain ⟨⟨c, es⟩, hread, he⟩ := bind_ok_inv he
  obtain rfl := Except.ok.inj he
  obtain ⟨-, rb, hrb, ⟨hend, -⟩ | ⟨-, rfl, -⟩⟩ := TcpConnection.handleReadable_inv hread
  · exact absurd hend (by simp)
  · obtain rfl := Except.ok.inj hrb
    unfold setConn
    rw [Function.update_eq_self]

/-- **The user takes bytes** from the front of what is in transit to him. -/
theorem retrieve_inTransit {len : Nat} {msg : List Byte} (h : Sound s)
    (hlen : len ≤ (s.conn x).receiveBuffer.readableBytes) (he : s.retrieve x len = .ok (msg, s')) :
    Sound s' ∧ msg ++ s'.inTransit x.peer = s.inTransit x.peer ∧ s'.inTransit x = s.inTransit x := by
  obtain ⟨⟨msg', rb⟩, hstr, he⟩ := bind_ok_inv he
  obtain ⟨rfl, rfl⟩ := Prod.mk.inj (Except.ok.inj he)
  have hs := h.receiveBuffer x
  rw [hs.toWf.readableBytes_eq_length] at hlen
  unfold Buffer.retrieveAsString at hstr
  rw [peek_eq hs.toWf (by omega), ok_bind, List.drop_zero] at hstr
  obtain ⟨rfl, rfl⟩ := Prod.mk.inj (Except.ok.inj hstr)
  refine ⟨⟨?_, ?_, h.intact⟩, ?_, ?_⟩
  · intro y
    obtain rfl | rfl := eq_or_eq_peer x y
    · simpa using h.sendBuffer y
    · simpa using h.sendBuffer x.peer
  · intro y
    obtain rfl | rfl := eq_or_eq_peer x y
    · simpa using retrieve_sound (h.receiveBuffer y) len
    · simpa using h.receiveBuffer x.peer
  · unfold inTransit
    simp only [peer_peer, conn_setConn_self, direction_setConn]
    rw [conn_setConn_of_ne _ _ (peer_ne x), readable_retrieve hs.toWf]
    simp only [← List.append_assoc, List.take_append_drop]
  · refine inTransit_congr ?_ ?_ ?_
    · simp
    · simp
    · simp

theorem cut_inTransit (h : Sound s) (n : Nat) :
    Sound (s.cut x n) ∧ ∀ y, (s.cut x n).inTransit y = s.inTransit y := by
  refine ⟨⟨h.sendBuffer, h.receiveBuffer, ?_⟩, ?_⟩
  · intro y
    unfold cut
    obtain rfl | rfl := eq_or_eq_peer x y
    · simpa using Direction.cut_intact _ n
    · simpa using h.intact x.peer
  · intro y
    unfold cut
    obtain rfl | rfl := eq_or_eq_peer x y
    · exact inTransit_congr rfl rfl (by simp [Direction.cut_contents])
    · exact inTransit_congr rfl rfl (by simp)

/-! ## When a step fails -/

theorem output_error {k : OutputCall} {e : Fault} (h : Sound s)
    (hadm : Output.Admissible ⟨s.conn x, []⟩ k) (he : s.output x k = .error e) :
    e = .lengthError := by
  rcases bind_error_inv he with hcall | ⟨_, -, he⟩
  · have hstep : Output.step ⟨s.conn x, []⟩ k = .error e := by
      unfold Output.step
      rw [hcall]
      rfl
    exact (Output.step_error (h.sendBuffer x) hadm hstep).1
  · exact absurd he (by simp [pure, Except.pure])

theorem read_error {n : Nat} {e : Fault} (h : Sound s) (hdel : s.Delivers x n)
    (he : s.read x n = .error e) : e = .lengthError := by
  rcases bind_error_inv he with hread | ⟨_, -, he⟩
  · unfold TcpConnection.handleReadable at hread
    rw [assertInLoopThread, if_pos (isInLoopThread_self _)] at hread
    rcases bind_error_inv hread with hassert | ⟨_, -, hread⟩
    · exact absurd hassert (by simp)
    · rcases bind_error_inv hread with hrb | ⟨rb, hrb, hread⟩
      · refine (readFd_error (h.receiveBuffer x).roomy ?_ (Or.inl (h.receiveBuffer x).prepend_le) hrb).1
        rw [List.length_take]
        exact Nat.le_trans (Nat.min_le_left _ _) hdel.2.1
      · cases hdata : (s.direction x.peer).wire.take n with
        | cons b bs =>
          rw [hdata] at hread
          exact absurd hread (by simp [pure, Except.pure])
        | nil =>
          -- the end of the stream, read by an open connection of an owner
          have hlength := congrArg List.length hdata
          rw [List.length_take, Nat.min_eq_left hdel.1] at hlength
          obtain ⟨-, -, hstate, hcb⟩ := hdel.2.2 hlength
          obtain ⟨cb, hcb⟩ := Option.ne_none_iff_exists'.mp hcb
          rw [hdata] at hread
          simp only at hread
          rw [TcpConnection.handleClose_eq (c := { s.conn x with receiveBuffer := rb })
            (isInLoopThread_self _) hstate hcb] at hread
          exact absurd hread (by simp)
  · exact absurd he (by simp [pure, Except.pure])

theorem readError_error {e : Fault} : s.readError x ≠ .error e := by
  unfold readError TcpConnection.handleReadable
  rw [assertInLoopThread, if_pos (isInLoopThread_self _)]
  simp [Buffer.readFd, pure, Except.pure, bind, Except.bind]

theorem retrieve_error {len : Nat} {e : Fault} (h : Sound s)
    (hlen : len ≤ (s.conn x).receiveBuffer.readableBytes) : s.retrieve x len ≠ .error e := by
  have hs := h.receiveBuffer x
  rw [hs.toWf.readableBytes_eq_length] at hlen
  unfold retrieve Buffer.retrieveAsString
  rw [peek_eq hs.toWf (by omega)]
  simp [pure, Except.pure, bind, Except.bind]

end Link

/-! ## Bytes from end to end -/

/-- The two ends, with the bytes handed to the send calls of each and those its user took. -/
structure Traffic where
  link : Link
  sent : Side → List Byte
  received : Side → List Byte

namespace Traffic

open Link

inductive Act where
  | output (x : Side) (call : OutputCall)
  | read (x : Side) (n : Nat)
  | readError (x : Side)
  | retrieve (x : Side) (len : Nat)
  /-- The direction that starts at `x` ends, and `n` bytes on the wire still get through. -/
  | cut (x : Side) (n : Nat)
  deriving DecidableEq, Repr

def join (conn : Side → TcpConnection) : Traffic := ⟨.join conn, fun _ => [], fun _ => []⟩

def step (s : Traffic) : Act → Except Fault Traffic
  | .output x call => do
    let link ← s.link.output x call
    return { s with link := link, sent := Function.update s.sent x (s.sent x ++ call.payload) }
  | .read x n => do
    let (link, _) ← s.link.read x n
    return { s with link := link }
  | .readError x => do
    let link ← s.link.readError x
    return { s with link := link }
  | .retrieve x len => do
    let (msg, link) ← s.link.retrieve x len
    return { s with link := link, received := Function.update s.received x (s.received x ++ msg) }
  | .cut x n => .ok { s with link := s.link.cut x n }

/-- The kernel answers within what it is asked, and `retrieveAsString` asks for readable bytes. -/
def Admissible (s : Traffic) : Act → Prop
  | .output x call => Output.Admissible ⟨s.link.conn x, []⟩ call
  | .read x n => s.link.Delivers x n
  | .retrieve x len => len ≤ (s.link.conn x).receiveBuffer.readableBytes
  | .readError _ | .cut _ _ => True

instance (s : Traffic) : ∀ a : Act, Decidable (s.Admissible a)
  | .output x call => inferInstanceAs (Decidable (Output.Admissible ⟨s.link.conn x, []⟩ call))
  | .read x n => inferInstanceAs (Decidable (s.link.Delivers x n))
  | .retrieve _ _ => inferInstanceAs (Decidable (_ ≤ _))
  | .readError _ | .cut _ _ => isTrue trivial

/-- The law of the traffic. -/
structure Balanced (s : Traffic) : Prop where
  sound : s.link.Sound
  bytes : ∀ x, s.sent x = s.received x.peer ++ s.link.inTransit x

variable {s s' : Traffic} {a : Act}

/-- A step that neither sends nor takes. -/
theorem Balanced.moved (h : Balanced s) {link : Link} (hsound : link.Sound)
    (hsame : ∀ x, link.inTransit x = s.link.inTransit x) : Balanced { s with link := link } :=
  ⟨hsound, fun x => by rw [hsame]; exact h.bytes x⟩

theorem step_balanced (h : Balanced s) (ha : s.Admissible a) (he : s.step a = .ok s') :
    Balanced s' := by
  cases a with
  | output x call =>
    obtain ⟨link, hlink, he⟩ := bind_ok_inv he
    obtain rfl := Except.ok.inj he
    obtain ⟨hsound, hself, hpeer⟩ := output_inTransit h.sound ha hlink
    refine ⟨hsound, ?_⟩
    intro y
    obtain rfl | rfl := eq_or_eq_peer x y
    · dsimp only
      rw [Function.update_self, hself, h.bytes, List.append_assoc]
    · dsimp only
      rw [Function.update_of_ne (peer_ne x), hpeer]
      exact h.bytes x.peer
  | read x n =>
    obtain ⟨⟨link, es⟩, hlink, he⟩ := bind_ok_inv he
    obtain rfl := Except.ok.inj he
    obtain ⟨hsound, hsame, -⟩ := read_inTransit h.sound ha hlink
    exact h.moved hsound hsame
  | readError x =>
    obtain ⟨link, hlink, he⟩ := bind_ok_inv he
    obtain rfl := Except.ok.inj he
    obtain rfl := readError_same hlink
    exact h
  | retrieve x len =>
    obtain ⟨⟨msg, link⟩, hlink, he⟩ := bind_ok_inv he
    obtain rfl := Except.ok.inj he
    obtain ⟨hsound, htaken, hself⟩ := retrieve_inTransit h.sound ha hlink
    refine ⟨hsound, ?_⟩
    intro y
    obtain rfl | rfl := eq_or_eq_peer x y
    · dsimp only
      rw [Function.update_of_ne (peer_ne y), hself]
      exact h.bytes y
    · dsimp only
      rw [peer_peer, Function.update_self, List.append_assoc, htaken]
      simpa using h.bytes x.peer
  | cut x n =>
    obtain rfl := Except.ok.inj he
    obtain ⟨hsound, hsame⟩ := cut_inTransit h.sound (x := x) n
    exact h.moved hsound hsame

theorem step_error {e : Fault} (h : Balanced s) (ha : s.Admissible a) (he : s.step a = .error e) :
    e = .lengthError := by
  cases a with
  | output x call =>
    rcases bind_error_inv he with hlink | ⟨_, -, he⟩
    · exact output_error h.sound ha hlink
    · exact absurd he (by simp [pure, Except.pure])
  | read x n =>
    rcases bind_error_inv he with hlink | ⟨_, -, he⟩
    · exact read_error h.sound ha hlink
    · exact absurd he (by simp [pure, Except.pure])
  | readError x =>
    rcases bind_error_inv he with hlink | ⟨_, -, he⟩
    · exact absurd hlink readError_error
    · exact absurd he (by simp [pure, Except.pure])
  | retrieve x len =>
    rcases bind_error_inv he with hlink | ⟨_, -, he⟩
    · exact absurd hlink (retrieve_error h.sound ha)
    · exact absurd he (by simp [pure, Except.pure])
  | cut x n => exact absurd he (by simp [step])

/-- **Bytes arrive once and in order.** In every run of two connections joined by the kernel, what the
user of one end took is a part, from the front, of what the other end was handed; as long as the
direction has not ended, the rest is in the receive buffer, on the wire and in the backlog. A run stops
only at the `length_error` of a buffer. -/
theorem stream_delivered {conn : Side → TcpConnection} (hsend : ∀ x, (conn x).sendBuffer = .fresh)
    (hreceive : ∀ x, (conn x).receiveBuffer = .fresh) (acts : List Act)
    (hadm : Along step Admissible (join conn) acts) :
    (∀ s, run step (join conn) acts = .ok s → ∀ x : Side, s.received x.peer <+: s.sent x ∧
      ((s.link.direction x).ended = false → s.sent x = s.received x.peer ++
        (s.link.conn x.peer).receiveBuffer.readable ++ (s.link.direction x).wire ++
          (s.link.conn x).sendBuffer.readable)) ∧
    ∀ e, run step (join conn) acts = .error e → e = .lengthError := by
  obtain ⟨hsound, hnone⟩ := join_sound hsend hreceive
  have hstart : Balanced (join conn) := ⟨hsound, fun x => (hnone x).symm⟩
  constructor
  · intro s hrun x
    have h := run_invariant (I := Balanced) step_balanced hstart hadm hrun
    refine ⟨⟨s.link.inTransit x, (h.bytes x).symm⟩, fun hopen => ?_⟩
    rw [h.bytes]
    unfold inTransit Direction.contents
    rw [h.sound.intact x hopen]
    simp only [List.append_nil, List.append_assoc]
  · intro e he
    exact run_error (I := Balanced) step_balanced step_error hstart hadm he

/-- The ends of a connection that is up, as the library sets them up. -/
def ends : Side → TcpConnection
  | .client => { TcpConnection.construct 0 "client#0" 5 with
      state := .connected
      messageCallback := true
      closeCallback := some .clientReset }
  | .server => { TcpConnection.construct 1 "server#1" 7 with
      state := .connected
      messageCallback := true
      closeCallback := some (.serverRemoveConnection 0) }

/-- A short write, a read of a part, an answer under way, and an end that cuts the backlog off. -/
def shortTalk : List Act :=
  [.output .client (.sendInLoop [1, 2, 3, 4] 3), .read .server 2, .retrieve .server 1,
    .output .server (.sendStringInLoop [9] 1), .output .client (.sendInLoop [5] 0), .read .client 1,
    .cut .client 1, .read .server 1, .retrieve .server 2, .read .server 0, .readError .client]

theorem stream_delivered_shortTalk :
    ∃ s, run step (join ends) shortTalk = .ok s ∧ s.sent .client = [1, 2, 3, 4, 5] ∧
      s.received .server = [1, 2, 3] ∧ s.received .server <+: s.sent .client ∧
      s.sent .server = s.received .client ++ (s.link.conn .client).receiveBuffer.readable ++
        (s.link.direction .server).wire ++ (s.link.conn .server).sendBuffer.readable := by
  have hadm : Along step Admissible (join ends) shortTalk := by decide +kernel
  have hend : ∃ s, run step (join ends) shortTalk = .ok s ∧ s.sent .client = [1, 2, 3, 4, 5] ∧
      s.received .server = [1, 2, 3] ∧ (s.link.direction .server).ended = false := by decide +kernel
  obtain ⟨s, hrun, hsent, hreceived, hopen⟩ := hend
  have hsend : ∀ x, (ends x).sendBuffer = .fresh := by rintro (_ | _) <;> rfl
  have hreceive : ∀ x, (ends x).receiveBuffer = .fresh := by rintro (_ | _) <;> rfl
  obtain ⟨hlaw, -⟩ := stream_delivered hsend hreceive shortTalk hadm
  exact ⟨s, hrun, hsent, hreceived, (hlaw s hrun .client).1, (hlaw s hrun .server).2 hopen⟩

end Traffic

end HyperMuduo.Net
