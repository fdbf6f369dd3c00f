import HyperMuduo.Lib.Run
import HyperMuduo.TcpConnection.Send

/-!
# The output stream of a connection

A run of one connection's output side: the three `sendInLoop` overloads and `handleWritable`, in any
order on the loop thread, with `::write` taking any part of what it is offered or failing. The state
is the connection and every byte `::write` took so far.

**Result** (`output_stream_integrity`): the bytes handed to the send calls, in order, are the bytes
taken followed by the backlog. The run can only stop at `std::length_error`, and does not stop when
the vectors handed over fit together in one.
-/

namespace HyperMuduo.Net.TcpConnection

open HyperMuduo.Lib HyperMuduo.Net.Buffer

/-- A call on the output side, with what `::write` returns in it. -/
inductive OutputCall where
  /-- `sendInLoop(const char*, size_t)`, with the bytes at the pointer. -/
  | sendInLoop (msg : List Byte) (w : Int)
  /-- `sendInLoop(const std::string&)`. -/
  | sendStringInLoop (msg : List Byte) (w : Int)
  /-- `sendInLoop(Buffer&)`. -/
  | sendBufferInLoop (buf : Buffer) (w : Int)
  | handleWritable (w : Int)
  deriving DecidableEq, Repr

namespace OutputCall

/-- The bytes the call is handed. -/
def payload : OutputCall → List Byte
  | .sendInLoop msg _ | .sendStringInLoop msg _ => msg
  | .sendBufferInLoop buf _ => buf.readable
  | .handleWritable _ => []

/-- The memory the call is handed. -/
def footprint : OutputCall → Nat
  | .sendInLoop msg _ | .sendStringInLoop msg _ => msg.length
  | .sendBufferInLoop buf _ => buf.size
  | .handleWritable _ => 0

end OutputCall

/-- A connection and every byte `::write` took from it. -/
structure Output where
  conn : TcpConnection
  taken : List Byte
  deriving DecidableEq, Repr

namespace Output

/-- The call, on the loop thread. -/
def call (c : TcpConnection) : OutputCall → Result
  | .sendInLoop msg w | .sendStringInLoop msg w => c.sendInLoop (.loop c.loop) msg w
  | .sendBufferInLoop buf w => do
    let (c', _, es) ← c.sendBufferInLoop (.loop c.loop) buf w
    return (c', es)
  | .handleWritable w => c.handleWritable (.loop c.loop) w

def step (s : Output) (a : OutputCall) : Except Fault Output := do
  let (c, es) ← call s.conn a
  return ⟨c, s.taken ++ accepted es⟩

/-- `::write` answers between `-1` and the length it is offered, the bytes handed over fit in
memory, and a `Buffer` handed over has its read cursor at or above `CHEAP_PREPEND`. -/
def Admissible (s : Output) : OutputCall → Prop
  | .sendInLoop msg w | .sendStringInLoop msg w =>
    msg.length ≤ maxSize ∧ -1 ≤ w ∧ w ≤ msg.length
  | .sendBufferInLoop buf w =>
    (buf.readIndex ≤ buf.writeIndex ∧ buf.writeIndex ≤ buf.size ∧ buf.size ≤ maxSize ∧
      cheapPrepend ≤ buf.readIndex) ∧ -1 ≤ w ∧ w ≤ buf.readableBytes
  | .handleWritable w => -1 ≤ w ∧ w ≤ s.conn.sendBuffer.readableBytes

instance (s : Output) : ∀ a, Decidable (s.Admissible a)
  | .sendInLoop _ _ => inferInstanceAs (Decidable (_ ∧ _))
  | .sendStringInLoop _ _ => inferInstanceAs (Decidable (_ ∧ _))
  | .sendBufferInLoop _ _ => inferInstanceAs (Decidable (_ ∧ _))
  | .handleWritable _ => inferInstanceAs (Decidable (_ ∧ _))

variable {s s' : Output} {a : OutputCall}

/-- One call keeps the data law: taken bytes and backlog grow by what the call was handed. -/
theorem step_bytes (h : Sound s.conn.sendBuffer) (ha : s.Admissible a) (he : s.step a = .ok s') :
    Sound s'.conn.sendBuffer ∧
      s'.taken ++ s'.conn.sendBuffer.readable =
        s.taken ++ s.conn.sendBuffer.readable ++ a.payload ∧
      s'.conn.sendBuffer.size ≤ s.conn.sendBuffer.size + a.footprint := by
  have hus := h.roomy.usable
  obtain ⟨⟨c', es⟩, hcall, he⟩ := bind_ok_inv he
  simp only [pure, Except.pure, Except.ok.injEq] at he
  subst he
  -- every call gives the same three facts about `c'` and `es`
  suffices hfacts : Sound c'.sendBuffer ∧
      accepted es ++ c'.sendBuffer.readable = s.conn.sendBuffer.readable ++ a.payload ∧
      c'.sendBuffer.size ≤ s.conn.sendBuffer.size + a.footprint by
    obtain ⟨h1, h2, h3⟩ := hfacts
    refine ⟨h1, ?_, h3⟩
    rw [List.append_assoc, h2, List.append_assoc]
  cases a with
  | sendInLoop msg w =>
    obtain ⟨-, h2, h3, h4⟩ := sendInLoop_bytes hus ha.1 hcall
    exact ⟨h3 h, h2, h4⟩
  | sendStringInLoop msg w =>
    obtain ⟨-, h2, h3, h4⟩ := sendInLoop_bytes hus ha.1 hcall
    exact ⟨h3 h, h2, h4⟩
  | sendBufferInLoop buf w =>
    obtain ⟨⟨hrw, hws, hsm, hcp⟩, -⟩ := ha
    have hb : Sound buf := ⟨⟨hrw, hws, hsm⟩, hcp⟩
    obtain ⟨⟨c₁, buf', es₁⟩, hbuf, hret⟩ := bind_ok_inv hcall
    simp only [pure, Except.pure, Except.ok.injEq, Prod.mk.injEq] at hret
    obtain ⟨rfl, rfl⟩ := hret
    obtain ⟨-, h2, h3, h4⟩ := sendBufferInLoop_bytes hus hb.roomy.usable hbuf
    exact ⟨h3 h hb, h2, h4⟩
  | handleWritable w =>
    obtain ⟨-, h2, h3, h4⟩ := handleWritable_bytes hus hcall
    refine ⟨h3 h, ?_, Nat.le_of_eq h4⟩
    rw [h2]
    exact (List.append_nil _).symm

/-- A call fails only when the vectors do not fit together. -/
theorem step_error (h : Sound s.conn.sendBuffer) (ha : s.Admissible a) {e : Fault}
    (he : s.step a = .error e) :
    e = .lengthError ∧ maxSize < s.conn.sendBuffer.size + a.footprint := by
  have ht : isInLoopThread s.conn.loop (.loop s.conn.loop) = true := isInLoopThread_self _
  rcases bind_error_inv he with hcall | ⟨_, -, he⟩
  · cases a with
    | sendInLoop msg w => exact sendInLoop_error h ha.1 ht hcall
    | sendStringInLoop msg w => exact sendInLoop_error h ha.1 ht hcall
    | sendBufferInLoop buf w =>
      obtain ⟨⟨hrw, hws, hsm, hcp⟩, -⟩ := ha
      have hb : Sound buf := ⟨⟨hrw, hws, hsm⟩, hcp⟩
      rcases bind_error_inv hcall with hbuf | ⟨_, -, hret⟩
      · exact sendBufferInLoop_error h hb.roomy.usable ht hbuf
      · exact absurd hret (by simp [pure, Except.pure])
    | handleWritable w =>
      obtain ⟨c', es, hok⟩ := handleWritable_total h.roomy.usable ht w
      rw [call, hok] at hcall
      exact absurd hcall (by simp)
  · exact absurd he (by simp [pure, Except.pure])

/-- The data law over a run. -/
theorem run_bytes {acts : List OutputCall} (h : Sound s.conn.sendBuffer)
    (ha : Along step Admissible s acts) (he : run step s acts = .ok s') :
    s'.taken ++ s'.conn.sendBuffer.readable =
      s.taken ++ s.conn.sendBuffer.readable ++ acts.flatMap OutputCall.payload := by
  induction acts generalizing s with
  | nil =>
    obtain rfl := Except.ok.inj he
    simp
  | cons a acts ih =>
    obtain ⟨s₁, hs, hr⟩ := run_cons_inv he
    obtain ⟨h1, h2, -⟩ := step_bytes h ha.1 hs
    rw [ih h1 (ha.2 s₁ hs) hr, h2, List.flatMap_cons, List.append_assoc]

/-- A run over vectors that fit together in one does not stop. -/
theorem run_total {acts : List OutputCall} (h : Sound s.conn.sendBuffer)
    (ha : Along step Admissible s acts)
    (hfit : s.conn.sendBuffer.size + (acts.map OutputCall.footprint).sum ≤ maxSize) :
    ∃ s', run step s acts = .ok s' := by
  induction acts generalizing s with
  | nil => exact ⟨s, rfl⟩
  | cons a acts ih =>
    rw [List.map_cons, List.sum_cons] at hfit
    cases hs : s.step a with
    | error e =>
      obtain ⟨-, hbig⟩ := step_error h ha.1 hs
      exact absurd hbig (by omega)
    | ok s₁ =>
      obtain ⟨h1, -, h3⟩ := step_bytes h ha.1 hs
      obtain ⟨s', hr⟩ := ih h1 (ha.2 s₁ hs) (by omega)
      exact ⟨s', (run_cons_ok hs).mpr hr⟩

/-- **Output stream integrity.** From a connection whose `send_buffer_` is as the constructor left
it, after any run of send calls and `handleWritable` the bytes handed over are the bytes `::write`
took followed by the readable bytes of `send_buffer_`. -/
theorem output_stream_integrity (c : TcpConnection) (hc : c.sendBuffer = .fresh)
    (acts : List OutputCall) (ha : Along step Admissible ⟨c, []⟩ acts) :
    (∀ s, run step ⟨c, []⟩ acts = .ok s →
      acts.flatMap OutputCall.payload = s.taken ++ s.conn.sendBuffer.readable) ∧
    (∀ e, run step ⟨c, []⟩ acts = .error e → e = .lengthError) ∧
    (Buffer.fresh.size + (acts.map OutputCall.footprint).sum ≤ maxSize →
      ∃ s, run step ⟨c, []⟩ acts = .ok s) := by
  have hs : Sound c.sendBuffer := by rw [hc]; exact fresh_sound.1
  refine ⟨?_, ?_, ?_⟩
  · intro s he
    rw [run_bytes (s := ⟨c, []⟩) hs ha he, hc, fresh_sound.2]
    rfl
  · intro e he
    exact run_error (I := fun s => Sound s.conn.sendBuffer) (E := fun e => e = .lengthError)
      (fun hI hP hstep => (step_bytes hI hP hstep).1)
      (fun hI hP hstep => (step_error hI hP hstep).1) hs ha he
  · intro hfit
    exact run_total (s := ⟨c, []⟩) hs ha (by rw [hc]; exact hfit)

/-- A short direct write, a buffer behind the backlog, a partial drain and a failed one, and a string
behind what is left. -/
def shortWrites : List OutputCall :=
  [.sendInLoop [1, 2, 3] 1, .sendBufferInLoop ⟨[0, 0, 0, 0, 0, 0, 0, 0, 4, 5], 10, 8⟩ 0,
    .handleWritable 3, .handleWritable (-1), .sendStringInLoop [6] (-1)]

theorem output_stream_integrity_shortWrites :
    ∃ s, run step ⟨construct 0 "server#1" 5, []⟩ shortWrites = .ok s ∧
      [1, 2, 3, 4, 5, 6] = s.taken ++ s.conn.sendBuffer.readable := by
  have ha : Along step Admissible ⟨construct 0 "server#1" 5, []⟩ shortWrites := by decide +kernel
  obtain ⟨hbytes, -, htotal⟩ := output_stream_integrity (construct 0 "server#1" 5) rfl shortWrites ha
  obtain ⟨s, hs⟩ := htotal (by decide +kernel)
  exact ⟨s, hs, hbytes s hs⟩

end Output

end HyperMuduo.Net.TcpConnection
