import HyperMuduo.Link.Model

/-!
# An echo server

The message callback of the server in `benchmark/echo_bench.cpp` sends back what it finds in the receive
buffer and empties it. The client sends and takes what comes back as it likes; both ends use the public
`send`, which does nothing unless the connection is `Connected`.

The server stops being `Connected` only when it reads the end of the client's stream, so the callback
never drops anything: with nothing left on the wire there is nothing to read after that (`Serving`).

**`echo_conserves`**: what the client gets back is what it sent, from the front; the rest is on the way
there or on the way back.
-/

namespace HyperMuduo.Net

open HyperMuduo.Lib HyperMuduo.Net.Buffer
open TcpConnection (Effect Output OutputCall)

/-- `send(msg, len)` on the loop thread of an end. -/
def Link.send (s : Link) (x : Side) (msg : List Byte) (w : Int) : Except Fault Link :=
  if (s.conn x).connected then s.output x (.sendInLoop msg w) else .ok s

/-- A client, an echo server, and what the client sent and got back. -/
structure Echo where
  link : Link
  sent : List Byte
  received : List Byte

namespace Echo

open Link

inductive Act where
  | send (msg : List Byte) (w : Int)
  | take (len : Nat)
  | clientReadable (n : Nat)
  /-- `handleReadable` of the server; `::write` answers `w` to the callback. -/
  | serverReadable (n : Nat) (w : Int)
  | handleWritable (x : Side) (w : Int)
  | readError (x : Side)
  | cut (x : Side) (n : Nat)
  deriving DecidableEq, Repr

/-- The message callback of the server:
`conn->send(buf.peek(), buf.readableBytes()); buf.retrieveAll();`. -/
def messageCallback (link : Link) (w : Int) : Except Fault Link := do
  let buf := (link.conn .server).receiveBuffer
  let msg ← buf.peek 0 buf.readableBytes
  let link ← link.send .server msg w
  return link.setConn .server
    { link.conn .server with receiveBuffer := (link.conn .server).receiveBuffer.retrieveAll }

def join (conn : Side → TcpConnection) : Echo := ⟨.join conn, [], []⟩

def step (s : Echo) : Act → Except Fault Echo
  | .send msg w => do
    let link ← s.link.send .client msg w
    return { s with
      link := link
      sent := if (s.link.conn .client).connected then s.sent ++ msg else s.sent }
  | .take len => do
    let (msg, link) ← s.link.retrieve .client len
    return { s with link := link, received := s.received ++ msg }
  | .clientReadable n => do
    let (link, _) ← s.link.read .client n
    return { s with link := link }
  | .serverReadable n w => do
    let (link, es) ← s.link.read .server n
    if .messageCallback ∈ es then do
      let link ← messageCallback link w
      return { s with link := link }
    else return { s with link := link }
  | .handleWritable x w => do
    let link ← s.link.output x (.handleWritable w)
    return { s with link := link }
  | .readError x => do
    let link ← s.link.readError x
    return { s with link := link }
  | .cut x n => .ok { s with link := s.link.cut x n }

/-- The kernel answers within what it is asked, and `retrieveAsString` asks for readable bytes. The
callback finds in the buffer what the read put there. -/
def Admissible (s : Echo) : Act → Prop
  | .send msg w => msg.length ≤ maxSize ∧ -1 ≤ w ∧ w ≤ msg.length
  | .take len => len ≤ (s.link.conn .client).receiveBuffer.readableBytes
  | .clientReadable n => s.link.Delivers .client n
  | .serverReadable n w => s.link.Delivers .server n ∧ -1 ≤ w ∧ w ≤ n
  | .handleWritable x w => -1 ≤ w ∧ w ≤ (s.link.conn x).sendBuffer.readableBytes
  | .readError _ | .cut _ _ => True

instance (s : Echo) : ∀ a : Act, Decidable (s.Admissible a)
  | .send _ _ => inferInstanceAs (Decidable (_ ∧ _ ∧ _))
  | .take _ => inferInstanceAs (Decidable (_ ≤ _))
  | .clientReadable n => inferInstanceAs (Decidable (s.link.Delivers .client n))
  | .serverReadable n _ => inferInstanceAs (Decidable (s.link.Delivers .server n ∧ _ ∧ _))
  | .handleWritable _ _ => inferInstanceAs (Decidable (_ ∧ _))
  | .readError _ | .cut _ _ => isTrue trivial

/-- The server is up, or has read the end of the client's stream. -/
def Serving (link : Link) : Prop :=
  (link.conn .server).state = .connected ∨
    ((link.direction .client).ended = true ∧ (link.direction .client).wire = [])

/-- The invariant. -/
structure Conserved (s : Echo) : Prop where
  sound : s.link.Sound
  callback : (s.link.conn .server).messageCallback = true
  /-- The callback leaves nothing behind. -/
  emptied : (s.link.conn .server).receiveBuffer.readable = []
  serving : Serving s.link
  bytes : s.sent = s.received ++ s.link.inTransit .server ++ s.link.inTransit .client

variable {s s' : Echo} {a : Act} {link link' : Link}

/-! ## What a step leaves alone -/

theorem Serving.output {x : Side} {call : OutputCall} (h : Serving link)
    (he : link.output x call = .ok link') : Serving link' := by
  have hstate := (output_framed he .server).state
  obtain ⟨⟨c, es⟩, -, he⟩ := bind_ok_inv he
  obtain rfl := Except.ok.inj he
  rcases h with h | ⟨hended, hwire⟩
  · exact Or.inl (hstate.trans h)
  · right
    cases x with
    | client =>
      simp only [direction_setDirection_self, Direction.carry_ended]
      unfold Direction.carry
      rw [if_pos hended]
      exact ⟨hended, hwire⟩
    | server =>
      rw [direction_setDirection_of_ne _ _ (by simp)]
      exact ⟨hended, hwire⟩

/-- Only an end of the stream changes the state of the reader. -/
theorem read_state {x : Side} {n : Nat} {es : List Effect} (hdel : link.Delivers x n)
    (he : link.read x n = .ok (link', es)) :
    (n ≠ 0 → (link'.conn x).state = (link.conn x).state) ∧ link'.conn x.peer = link.conn x.peer ∧
      link'.direction x = link.direction x ∧
      (link'.direction x.peer).ended = (link.direction x.peer).ended ∧
      (link'.direction x.peer).wire = (link.direction x.peer).wire.drop n := by
  obtain ⟨⟨c, es'⟩, hread, he⟩ := bind_ok_inv he
  obtain ⟨rfl, rfl⟩ := Prod.mk.inj (Except.ok.inj he)
  refine ⟨?_, ?_, ?_, ?_, ?_⟩
  · intro hn
    obtain ⟨-, rb, -, ⟨hend, -⟩ | ⟨-, rfl, -⟩⟩ := TcpConnection.handleReadable_inv hread
    · have hlength := congrArg List.length (Option.some.inj hend)
      rw [List.length_take, Nat.min_eq_left hdel.1] at hlength
      exact absurd hlength hn
    · simp
  · simp
  · simp
  · simp
  · simp

theorem Serving.read_server {n : Nat} {es : List Effect} (h : Serving link)
    (hdel : link.Delivers .server n) (he : link.read .server n = .ok (link', es)) :
    Serving link' ∧ (n ≠ 0 → (link'.conn .server).state = .connected) := by
  obtain ⟨hstate, -, -, hended, hwire⟩ := read_state hdel he
  by_cases hn : n = 0
  · obtain ⟨hnil, hend, -⟩ := hdel.2.2 hn
    refine ⟨Or.inr ⟨hended.trans hend, ?_⟩, fun hpos => absurd hn hpos⟩
    rw [Side.peer] at hwire hnil
    rw [hwire, hnil, List.drop_nil]
  · rcases h with h | ⟨-, hnil⟩
    · exact ⟨Or.inl ((hstate hn).trans h), fun _ => (hstate hn).trans h⟩
    · have hle := hdel.1
      rw [Side.peer, hnil] at hle
      exact absurd (Nat.le_zero.mp hle) hn

theorem Serving.cut (h : Serving link) (x : Side) (n : Nat) : Serving (link.cut x n) := by
  rcases h with h | ⟨hended, hwire⟩
  · exact Or.inl h
  · right
    cases x with
    | client => simp [Link.cut, Direction.cut, hwire]
    | server =>
      unfold Link.cut
      rw [direction_setDirection_of_ne _ _ (by simp)]
      exact ⟨hended, hwire⟩

/-! ## The callback -/

/-- **The callback turns bytes round**: what the server has received goes to the back of what is in
transit to the client. -/
theorem messageCallback_echoes {w : Int} (h : link.Sound)
    (hup : (link.conn .server).state = .connected) (hlo : -1 ≤ w)
    (hhi : w ≤ (link.conn .server).receiveBuffer.readable.length)
    (he : messageCallback link w = .ok link') :
    link'.Sound ∧ link'.inTransit .server ++ link'.inTransit .client =
        link.inTransit .server ++ link.inTransit .client ∧
      (link'.conn .server).receiveBuffer.readable = [] ∧
      (link'.conn .server).messageCallback = (link.conn .server).messageCallback ∧
      (Serving link → Serving link') := by
  have hbuf := h.receiveBuffer .server
  unfold messageCallback at he
  simp only [TcpConnection.peek_readable hbuf.toWf, ok_bind] at he
  obtain ⟨link₁, hsend, he⟩ := bind_ok_inv he
  obtain rfl := Except.ok.inj he
  unfold Link.send at hsend
  rw [if_pos (by simpa [TcpConnection.connected] using hup)] at hsend
  have hadm : Output.Admissible ⟨link.conn .server, []⟩
      (.sendInLoop (link.conn .server).receiveBuffer.readable w) :=
    ⟨hbuf.toWf.length_readable_le, hlo, hhi⟩
  obtain ⟨hsound, hself, hpeer⟩ := output_inTransit h hadm hsend
  have hframed := output_framed hsend .server
  have hreceived : (link₁.conn .server).receiveBuffer = (link.conn .server).receiveBuffer :=
    hframed.receiveBuffer
  obtain ⟨hempty, hnil⟩ := retrieveAll_sound (hsound.receiveBuffer .server).roomy.usable
  refine ⟨⟨?_, ?_, hsound.intact⟩, ?_, ?_, ?_, ?_⟩
  · rintro (_ | _)
    · simpa using hsound.sendBuffer .client
    · simpa using hsound.sendBuffer .server
  · rintro (_ | _)
    · simpa using hsound.receiveBuffer .client
    · simpa using hempty
  · -- the received bytes leave one direction at the front and enter the other at the back
    have hclient : link.inTransit .client =
        (link.conn .server).receiveBuffer.readable ++ (link₁.setConn .server
          { link₁.conn .server with
            receiveBuffer := (link₁.conn .server).receiveBuffer.retrieveAll }).inTransit .client := by
      rw [← show link₁.inTransit .client = link.inTransit .client from hpeer]
      unfold Link.inTransit
      simp only [Side.peer, conn_setConn_self, direction_setConn]
      rw [hnil, conn_setConn_of_ne _ _ (by simp), hreceived]
      simp only [List.append_assoc, List.nil_append]
    have hserver : (link₁.setConn .server { link₁.conn .server with
        receiveBuffer := (link₁.conn .server).receiveBuffer.retrieveAll }).inTransit .server =
          link₁.inTransit .server := by
      refine inTransit_congr ?_ ?_ rfl
      · simp
      · rw [Side.peer, conn_setConn_of_ne _ _ (by simp)]
    rw [hserver, hself, hclient, List.append_assoc]
    rfl
  · simpa using hnil
  · rw [conn_setConn_self]
    exact congrArg (fun c => c.messageCallback) hframed.wiring
  · intro hserving
    have hserving := hserving.output hsend
    unfold Serving at hserving ⊢
    simpa using hserving

/-! ## Every run -/

/-- A step that neither sends nor takes, and leaves the server's side alone. -/
theorem Conserved.moved (h : s.Conserved) (hsound : link.Sound)
    (hcallback : (link.conn .server).messageCallback = (s.link.conn .server).messageCallback)
    (hreceive : (link.conn .server).receiveBuffer.readable =
      (s.link.conn .server).receiveBuffer.readable)
    (hserving : Serving link) (hsame : ∀ x, link.inTransit x = s.link.inTransit x) :
    Conserved { s with link := link } := by
  refine ⟨hsound, hcallback.trans h.callback, hreceive.trans h.emptied, hserving, ?_⟩
  simp only [hsame]
  exact h.bytes

theorem serverReadable_conserved {n : Nat} {w : Int} (h : s.Conserved)
    (ha : s.Admissible (.serverReadable n w)) (he : s.step (.serverReadable n w) = .ok s') :
    s'.Conserved := by
  obtain ⟨hdel, hlo, hhi⟩ := ha
  obtain ⟨⟨link, es⟩, hlink, he⟩ := bind_ok_inv he
  obtain ⟨hsound, hsame, hread⟩ := read_inTransit h.sound hdel hlink
  obtain ⟨hwiring, -, hcall⟩ := read_framed hdel hlink
  obtain ⟨hserving, hup⟩ := h.serving.read_server hdel hlink
  have hcallback : (link.conn .server).messageCallback = (s.link.conn .server).messageCallback :=
    congrArg (fun c => c.messageCallback) (hwiring .server)
  rw [h.emptied, List.nil_append] at hread
  by_cases hes : .messageCallback ∈ es
  · simp only [if_pos hes] at he
    obtain ⟨link', hecho, he⟩ := bind_ok_inv he
    obtain rfl := Except.ok.inj he
    have hlen : w ≤ (link.conn .server).receiveBuffer.readable.length := by
      rw [hread, List.length_take, Nat.min_eq_left hdel.1]
      exact hhi
    obtain ⟨hsound', hbytes, hnil, hkeep, hserving'⟩ :=
      messageCallback_echoes hsound (hup (hcall.mp hes).1) hlo hlen hecho
    refine ⟨hsound', (hkeep.trans hcallback).trans h.callback, hnil, hserving' hserving, ?_⟩
    dsimp only
    rw [List.append_assoc, hbytes, hsame, hsame, ← List.append_assoc]
    exact h.bytes
  · -- the end of the stream
    simp only [if_neg hes] at he
    obtain rfl := Except.ok.inj he
    have hzero : n = 0 := by
      by_contra hn
      exact hes (hcall.mpr ⟨hn, h.callback⟩)
    rw [hzero, List.take_zero] at hread
    exact h.moved hsound hcallback (hread.trans h.emptied.symm) hserving hsame

theorem step_conserved (h : s.Conserved) (ha : s.Admissible a) (he : s.step a = .ok s') :
    s'.Conserved := by
  cases a with
  | send msg w =>
    obtain ⟨link, hlink, he⟩ := bind_ok_inv he
    obtain rfl := Except.ok.inj he
    unfold Link.send at hlink
    by_cases hup : (s.link.conn .client).connected = true
    · rw [if_pos hup] at hlink
      obtain ⟨hsound, hself, hpeer⟩ := output_inTransit (k := .sendInLoop msg w) h.sound ha hlink
      have hframed := output_framed hlink .server
      refine ⟨hsound, ?_, ?_, h.serving.output hlink, ?_⟩
      · exact (congrArg (fun c => c.messageCallback) hframed.wiring).trans h.callback
      · rw [hframed.receiveBuffer]
        exact h.emptied
      · dsimp only
        rw [if_pos hup, hself, show link.inTransit .server = s.link.inTransit .server from hpeer,
          h.bytes, List.append_assoc]
        rfl
    · rw [if_neg hup] at hlink
      obtain rfl := Except.ok.inj hlink
      simp only [if_neg hup]
      exact h
  | take len =>
    obtain ⟨⟨msg, link⟩, hlink, he⟩ := bind_ok_inv he
    obtain rfl := Except.ok.inj he
    obtain ⟨hsound, htaken, hself⟩ := retrieve_inTransit h.sound ha hlink
    have hserver : link.conn .server = s.link.conn .server ∧ link.direction = s.link.direction := by
      obtain ⟨⟨msg', rb⟩, -, hret⟩ := bind_ok_inv hlink
      obtain ⟨-, rfl⟩ := Prod.mk.inj (Except.ok.inj hret)
      exact ⟨conn_setConn_of_ne _ _ (by simp), rfl⟩
    refine ⟨hsound, ?_, ?_, ?_, ?_⟩
    · rw [hserver.1]
      exact h.callback
    · rw [hserver.1]
      exact h.emptied
    · unfold Serving
      rw [hserver.1, hserver.2]
      exact h.serving
    · dsimp only
      rw [Side.peer] at htaken
      rw [hself, List.append_assoc s.received, htaken]
      exact h.bytes
  | clientReadable n =>
    obtain ⟨⟨link, es⟩, hlink, he⟩ := bind_ok_inv he
    obtain rfl := Except.ok.inj he
    obtain ⟨hsound, hsame, -⟩ := read_inTransit h.sound ha hlink
    obtain ⟨-, hserver, hdirection, -⟩ := read_state ha hlink
    rw [Side.peer] at hserver
    refine h.moved hsound (by rw [hserver]) (by rw [hserver]) ?_ hsame
    unfold Serving
    rw [hserver, hdirection]
    exact h.serving
  | serverReadable n w => exact serverReadable_conserved h ha he
  | handleWritable x w =>
    obtain ⟨link, hlink, he⟩ := bind_ok_inv he
    obtain rfl := Except.ok.inj he
    obtain ⟨hsound, hself, hpeer⟩ := output_inTransit (k := .handleWritable w) h.sound ha hlink
    have hframed := output_framed hlink .server
    refine h.moved hsound (congrArg (fun c => c.messageCallback) hframed.wiring) ?_
      (h.serving.output hlink) ?_
    · rw [hframed.receiveBuffer]
    · intro y
      obtain rfl | rfl := eq_or_eq_peer x y
      · exact hself.trans (List.append_nil _)
      · exact hpeer
  | readError x =>
    obtain ⟨link, hlink, he⟩ := bind_ok_inv he
    obtain rfl := Except.ok.inj he
    obtain rfl := readError_same hlink
    exact h
  | cut x n =>
    obtain rfl := Except.ok.inj he
    obtain ⟨hsound, hsame⟩ := cut_inTransit h.sound (x := x) n
    exact h.moved hsound rfl rfl (h.serving.cut x n) hsame

/-- **An echo server loses nothing and adds nothing.** In every run what the client takes is a part, from
the front, of what it sent; as long as neither direction has ended, the rest is on the way back (received
by the client, on the wire, in the server's backlog) or on the way there (on the wire, in the client's
backlog), and the server holds nothing else. -/
theorem echo_conserves {conn : Side → TcpConnection} (hsend : ∀ x, (conn x).sendBuffer = .fresh)
    (hreceive : ∀ x, (conn x).receiveBuffer = .fresh) (hup : (conn .server).state = .connected)
    (hcallback : (conn .server).messageCallback = true) (acts : List Act)
    (hadm : Along step Admissible (join conn) acts) (s : Echo)
    (hrun : run step (join conn) acts = .ok s) :
    s.received <+: s.sent ∧ (s.link.conn .server).receiveBuffer.readable = [] ∧
      ((s.link.direction .client).ended = false → (s.link.direction .server).ended = false →
        s.sent = s.received ++
          ((s.link.conn .client).receiveBuffer.readable ++ (s.link.direction .server).wire ++
            (s.link.conn .server).sendBuffer.readable) ++
          ((s.link.direction .client).wire ++ (s.link.conn .client).sendBuffer.readable)) := by
  obtain ⟨hsound, hnone⟩ := join_sound hsend hreceive
  have hstart : Conserved (join conn) := by
    refine ⟨hsound, hcallback, ?_, Or.inl hup, ?_⟩
    · exact (congrArg Buffer.readable (hreceive .server)).trans fresh_sound.2
    · unfold join
      rw [hnone, hnone]
      rfl
  have h := run_invariant (I := Conserved) step_conserved hstart hadm hrun
  refine ⟨⟨s.link.inTransit .server ++ s.link.inTransit .client, ?_⟩, h.emptied, ?_⟩
  · rw [h.bytes, List.append_assoc]
  · intro hclient hserver
    conv_lhs => rw [h.bytes]
    unfold inTransit Direction.contents
    rw [h.sound.intact _ hclient, h.sound.intact _ hserver]
    simp only [Side.peer, h.emptied, List.append_nil, List.nil_append]

/-- A short write at both ends, and a part taken. -/
def someEchoes : List Act :=
  [.send [1, 2, 3, 4] 3, .serverReadable 2 1, .handleWritable .client 1, .clientReadable 1, .take 1,
    .serverReadable 2 2, .handleWritable .server 2, .clientReadable 2, .take 1]

theorem echo_conserves_someEchoes :
    ∃ s, run step (join Traffic.ends) someEchoes = .ok s ∧ s.received = [1, 2] ∧
      s.received <+: s.sent ∧ s.sent = s.received ++
          ((s.link.conn .client).receiveBuffer.readable ++ (s.link.direction .server).wire ++
            (s.link.conn .server).sendBuffer.readable) ++
          ((s.link.direction .client).wire ++ (s.link.conn .client).sendBuffer.readable) := by
  have hadm : Along step Admissible (join Traffic.ends) someEchoes := by decide +kernel
  have hend : ∃ s, run step (join Traffic.ends) someEchoes = .ok s ∧ s.received = [1, 2] ∧
      (s.link.direction .client).ended = false ∧ (s.link.direction .server).ended = false := by
    decide +kernel
  obtain ⟨s, hrun, hreceived, hclient, hserver⟩ := hend
  have hsend : ∀ x, (Traffic.ends x).sendBuffer = .fresh := by rintro (_ | _) <;> rfl
  have hreceive : ∀ x, (Traffic.ends x).receiveBuffer = .fresh := by rintro (_ | _) <;> rfl
  obtain ⟨hpart, -, hbytes⟩ := echo_conserves hsend hreceive rfl rfl someEchoes hadm s hrun
  exact ⟨s, hrun, hreceived, hpart, hbytes hclient hserver⟩

end Echo

end HyperMuduo.Net
