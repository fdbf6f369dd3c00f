import HyperMuduo.Codec.Segmentation
import HyperMuduo.TcpConnection.LifeCycle

/-!
# After a framing error

`Decode` answers a length header outside `[MIN_LEN, MAX_LEN]` by throwing away the buffered bytes; its
comment leaves it to the caller to close the connection. The caller is `ProtobufHandler::OnMessage`,
which prints the state and returns.

A `Session` is a connection whose message callback is `OnMessage`: a step is a `readv` that delivered
bytes, as `handleReadable` runs it. The log records what was dispatched and where `Decode` gave up on
a length (`onMessageTrace`, the loop of `OnMessage` with these entries; `onMessageTrace_messages`).

`DeadAfterError` is what the comment asks for: once a length was refused, the connection is no longer
connected and nothing more is dispatched. **`dead_after_error_iff`**: the code achieves it exactly on
the streams in which no length is refused. After a refused length the session goes on, and whatever
bytes come next are read as a header.
-/

namespace HyperMuduo.Net.ProtobufHandler

open HyperMuduo.Lib HyperMuduo.Net.Buffer HyperMuduo.Net.Codec
open TcpConnection (Effect)

variable {M : Type}

/-- What happens in `OnMessage`. -/
inductive Entry (M : Type) where
  | dispatched (msg : M)
  /-- `Decode` returned `DECODE_ERROR` because of the length. -/
  | lengthError
  deriving DecidableEq, Repr

/-- The loop of `OnMessage`, with what happens in it. -/
def onMessageTrace (P : Protobuf M) (d : Dispatcher M) :
    Nat → Buffer → Except Fault (Buffer × List (Entry M))
  | 0, buffer => .ok (buffer, [])
  | fuel + 1, buffer =>
    if headerLen ≤ buffer.readableBytes then do
      let totalLen ← peekInt32 buffer 0
      let (state, msg, buffer) ← decode P buffer
      match state, msg with
      | .incomplete, _ => return (buffer, [])
      | .success, some msg => do
        d.dispatch P msg
        let (buffer, entries) ← onMessageTrace P d fuel buffer
        return (buffer, .dispatched msg :: entries)
      | .success, none => .error .invalidPointer
      | _, _ => return (buffer, if InRange totalLen then [] else [.lengthError])
    else .ok (buffer, [])

/-- A connection whose messages go to the handler. -/
structure Session (M : Type) where
  conn : TcpConnection
  log : List (Entry M)

/-- `readv` delivered `chunk`: `handleReadable` on the loop thread, and `OnMessage` from it. -/
def Session.step (P : Protobuf M) (d : Dispatcher M) (s : Session M) (chunk : List Byte) :
    Except Fault (Session M) := do
  let (conn, effects) ← s.conn.handleReadable (.loop s.conn.loop) (some chunk)
  if .messageCallback ∈ effects then do
    let (buffer, entries) ←
      onMessageTrace P d conn.receiveBuffer.readableBytes conn.receiveBuffer
    return ⟨{ conn with receiveBuffer := buffer }, s.log ++ entries⟩
  else return { s with conn := conn }

/-- `readv` delivered something, and no more than the two segments take. -/
def Session.Delivered (s : Session M) (chunk : List Byte) : Prop :=
  chunk ≠ [] ∧ chunk.length ≤ s.conn.receiveBuffer.writableBytes + extraSize

instance (s : Session M) (chunk : List Byte) : Decidable (s.Delivered chunk) :=
  inferInstanceAs (Decidable (_ ∧ _))

/-- Taking messages from the front of these bytes ends at a length out of range. -/
def losesSync (P : Protobuf M) : Nat → List Byte → Bool
  | 0, _ => false
  | k + 1, bs =>
    match scan P bs with
    | .incomplete => false
    | .lost => true
    | .frame v n => if v.stops then false else losesSync P k (bs.drop n)

/-- The bytes held and the bytes that arrive bring a length out of range to the front. -/
def Session.LosesSync (P : Protobuf M) (s : Session M) (chunk : List Byte) : Prop :=
  losesSync P (s.conn.receiveBuffer.readable ++ chunk).length
    (s.conn.receiveBuffer.readable ++ chunk) = true

instance (P : Protobuf M) (s : Session M) (chunk : List Byte) : Decidable (s.LosesSync P chunk) :=
  inferInstanceAs (Decidable (_ = true))

/-- Once a length was refused, the handler has ended the connection and dispatches nothing more. -/
def DeadAfterError (P : Protobuf M) (d : Dispatcher M) (s₀ : Session M)
    (chunks : List (List Byte)) : Prop :=
  ∀ before after s t, chunks = before ++ after → run (Session.step P d) s₀ before = .ok s →
    run (Session.step P d) s after = .ok t → .lengthError ∈ s.log →
    s.conn.state ≠ .connected ∧ ∀ m, .dispatched m ∉ t.log.drop s.log.length

/-! ## The trace -/

variable {P : Protobuf M} {d : Dispatcher M} {b b' : Buffer}

def Entry.toOption : Entry M → Option M
  | dispatched msg => some msg
  | lengthError => none

theorem peekInt32_header (h : Wf b) (h4 : headerLen ≤ b.readable.length) :
    peekInt32 b 0 = .ok (totalLenOf b.readable) := by
  unfold peekInt32
  rw [peek_eq h (by unfold headerLen at h4; omega)]
  rfl

theorem scan_eq_lost {bs : List Byte} (h4 : headerLen ≤ bs.length) :
    scan P bs = .lost ↔ ¬ InRange (totalLenOf bs) := by
  unfold scan
  rw [if_neg (Nat.not_lt.mpr h4)]
  by_cases hin : InRange (totalLenOf bs)
  · rw [if_neg (not_not.mpr hin)]
    refine ⟨fun h => ?_, fun h => absurd hin h⟩
    split at h <;> exact absurd h (by simp)
  · rw [if_pos hin]
    exact ⟨fun _ => hin, fun _ => rfl⟩

/-- One round, by what the scan of the readable bytes says. -/
theorem onMessageTrace_succ (h : Wf b) (fuel : Nat) :
    onMessageTrace P d (fuel + 1) b =
      match scan P b.readable with
      | .incomplete => .ok (b, [])
      | .lost => .ok (b.retrieveAll, [.lengthError])
      | .frame (.message m) n => do
        d.dispatch P m
        let (b', entries) ← onMessageTrace P d fuel (b.retrieve n)
        return (b', .dispatched m :: entries)
      | .frame _ n => .ok (b.retrieve n, []) := by
  rw [onMessageTrace, h.readableBytes_eq_length]
  by_cases h4 : headerLen ≤ b.readable.length
  · rw [if_pos h4, peekInt32_header h h4, ok_bind, decode_eq h]
    cases hscan : scan P b.readable with
    | incomplete => rfl
    | lost =>
      have hout := (scan_eq_lost h4).mp hscan
      simp only [ok_bind, if_neg hout]
      rfl
    | frame v n =>
      have hin : InRange (totalLenOf b.readable) := (scan_eq_frame hscan).2.1
      cases v with
      | message m => rfl
      | checksumError | invalidName | decodeError =>
        simp only [ok_bind, Verdict.state, Verdict.toOption, if_pos hin]
        rfl
  · have hscan : scan P b.readable = .incomplete := by
      unfold scan
      rw [if_pos (Nat.lt_of_not_le h4)]
    rw [if_neg h4, hscan]

/-- The entries are about the loop of `OnMessage` itself. -/
theorem onMessageTrace_messages (h : Sound b) (fuel : Nat) :
    onMessageLoop P d fuel b =
      (onMessageTrace P d fuel b).map fun r => (r.1, r.2.filterMap Entry.toOption) := by
  induction fuel generalizing b with
  | zero => rfl
  | succ fuel ih =>
    rw [onMessageTrace_succ h.toWf]
    unfold onMessageLoop
    rw [decode_eq h.toWf, h.toWf.readableBytes_eq_length]
    by_cases h4 : headerLen ≤ b.readable.length
    · rw [if_pos h4]
      cases hscan : scan P b.readable with
      | incomplete => rfl
      | lost => rfl
      | frame v n =>
        cases v with
        | message m =>
          simp only [ok_bind, Verdict.state, Verdict.toOption]
          rw [ih (retrieve_sound h n)]
          cases d.dispatch P m with
          | error e => rfl
          | ok _ =>
            cases onMessageTrace P d fuel (b.retrieve n) with
            | error e => rfl
            | ok r => rfl
        | checksumError | invalidName | decodeError => rfl
    · have hscan : scan P b.readable = .incomplete := by
        unfold scan
        rw [if_pos (Nat.lt_of_not_le h4)]
      rw [if_neg h4, hscan]
      rfl

/-- A length is refused exactly when the bytes lose synchronization. -/
theorem onMessageTrace_ok {fuel : Nat} {entries : List (Entry M)} (h : Sound b)
    (he : onMessageTrace P d fuel b = .ok (b', entries)) :
    Sound b' ∧ (.lengthError ∈ entries ↔ losesSync P fuel b.readable = true) := by
  induction fuel generalizing b b' entries with
  | zero =>
    obtain ⟨rfl, rfl⟩ := Prod.mk.inj (Except.ok.inj he)
    exact ⟨h, by simp [losesSync]⟩
  | succ fuel ih =>
    rw [onMessageTrace_succ h.toWf] at he
    unfold losesSync
    cases hscan : scan P b.readable with
    | incomplete =>
      rw [hscan] at he
      obtain ⟨rfl, rfl⟩ := Prod.mk.inj (Except.ok.inj he)
      exact ⟨h, by simp⟩
    | lost =>
      rw [hscan] at he
      obtain ⟨rfl, rfl⟩ := Prod.mk.inj (Except.ok.inj he)
      exact ⟨(retrieveAll_sound h.roomy.usable).1, by simp⟩
    | frame v n =>
      rw [hscan] at he
      cases v with
      | message m =>
        simp only at he
        obtain ⟨-, -, he⟩ := bind_ok_inv he
        obtain ⟨⟨b₁, entries₁⟩, hrest, he⟩ := bind_ok_inv he
        obtain ⟨rfl, rfl⟩ := Prod.mk.inj (Except.ok.inj he)
        obtain ⟨hsound, hiff⟩ := ih (retrieve_sound h n) hrest
        rw [readable_retrieve h.toWf] at hiff
        exact ⟨hsound, by simpa [stops_message] using hiff⟩
      | checksumError | invalidName | decodeError =>
        obtain ⟨rfl, rfl⟩ := Prod.mk.inj (Except.ok.inj he)
        exact ⟨retrieve_sound h n, by simp [Verdict.stops, Verdict.toOption]⟩

/-! ## One chunk -/

/-- The connection is up, its receive buffer in order, and the handler installed. -/
structure Session.Up (s : Session M) : Prop where
  state : s.conn.state = .connected
  sound : Sound s.conn.receiveBuffer
  messageCallback : s.conn.messageCallback = true

variable {s s' t : Session M} {chunk : List Byte}

/-- A chunk is appended and handed to `OnMessage`; the handler leaves the connection as it is. -/
theorem Session.step_ok (h : s.Up) (hdel : s.Delivered chunk) (he : s.step P d chunk = .ok s') :
    s'.Up ∧ ∃ entries, s'.log = s.log ++ entries ∧
      (.lengthError ∈ entries ↔ s.LosesSync P chunk) := by
  unfold Session.step at he
  obtain ⟨⟨conn, effects⟩, hread, he⟩ := bind_ok_inv he
  obtain ⟨-, rb, hrb, ⟨hend, -⟩ | ⟨-, rfl, rfl⟩⟩ := TcpConnection.handleReadable_inv hread
  · exact absurd (Option.some.inj hend) hdel.1
  · have hroom : s.conn.receiveBuffer.RoomFor chunk.length := Or.inl h.sound.prepend_le
    obtain ⟨hroomy, hbytes, hkeep⟩ := readFd_ok h.sound.roomy hdel.2 hroom hrb
    have hsound : Sound rb := ⟨hroomy.toWf, hkeep h.sound.prepend_le⟩
    have hcall : Effect.messageCallback ∈ (if (some chunk).isSome && s.conn.messageCallback then
        [Effect.messageCallback] else []) := by
      rw [h.messageCallback]
      exact List.mem_singleton_self _
    simp only [if_pos hcall] at he
    obtain ⟨⟨b', entries⟩, htrace, he⟩ := bind_ok_inv he
    obtain rfl := Except.ok.inj he
    obtain ⟨hsound', hiff⟩ := onMessageTrace_ok hsound htrace
    refine ⟨⟨h.state, hsound', h.messageCallback⟩, entries, rfl, ?_⟩
    rw [hiff, hsound.toWf.readableBytes_eq_length, hbytes]
    rfl

/-! ## Whole streams -/

/-- The connection stays up whatever arrives, and the log has a refused length exactly when a chunk
brought one. -/
theorem Session.run_ok {chunks : List (List Byte)} (h : s.Up)
    (hdel : Along (Session.step P d) Session.Delivered s chunks)
    (hrun : run (Session.step P d) s chunks = .ok t) :
    t.Up ∧ (.lengthError ∈ t.log ↔ .lengthError ∈ s.log ∨
      ¬ Along (Session.step P d) (fun s chunk => ¬ s.LosesSync P chunk) s chunks) := by
  induction chunks generalizing s with
  | nil =>
    obtain rfl := Except.ok.inj hrun
    exact ⟨h, by simp [Along]⟩
  | cons chunk chunks ih =>
    obtain ⟨s', hs', hrest⟩ := run_cons_inv hrun
    obtain ⟨hup, entries, hlog, hiff⟩ := Session.step_ok h hdel.1 hs'
    obtain ⟨htup, hmem⟩ := ih hup (hdel.2 s' hs') hrest
    refine ⟨htup, ?_⟩
    rw [hmem, hlog, List.mem_append, hiff]
    simp only [Along, hs', Except.ok.injEq, forall_eq']
    by_cases hlost : s.LosesSync P chunk
    · simp [hlost]
    · simp [hlost]

/-- **After a framing error the stream is not dead**, unless there is no framing error: on every run
of chunks through a connection that is up, the handler has ended the connection and stays silent after
every refused length if and only if no chunk brings a length out of range to the front. -/
theorem dead_after_error_iff {s₀ t : Session M} {chunks : List (List Byte)} (h₀ : s₀.Up)
    (hlog : s₀.log = []) (hdel : Along (Session.step P d) Session.Delivered s₀ chunks)
    (hrun : run (Session.step P d) s₀ chunks = .ok t) :
    DeadAfterError P d s₀ chunks ↔
      Along (Session.step P d) (fun s chunk => ¬ s.LosesSync P chunk) s₀ chunks := by
  constructor
  · intro hdead
    by_contra hlost
    obtain ⟨hup, hmem⟩ := Session.run_ok h₀ hdel hrun
    have herr : .lengthError ∈ t.log := hmem.mpr (Or.inr hlost)
    exact (hdead chunks [] t t (List.append_nil _).symm hrun rfl herr).1 hup.state
  · rintro hno before after s u rfl hbefore - herr
    -- every part of the stream is without a refused length
    obtain ⟨-, hmem⟩ := Session.run_ok h₀ ((along_append hbefore).mp hdel).1 hbefore
    rw [hmem, hlog] at herr
    rcases herr with hin | hlost
    · exact absurd hin List.not_mem_nil
    · exact absurd ((along_append hbefore).mp hno).1 hlost

/-- A connection of the server that just came up, with the handler as its message callback. -/
def upSession : Session (Fin 128) where
  conn := { TcpConnection.construct 0 "conn" 5 with
    state := .connected
    messageCallback := true }
  log := []

theorem upSession_up : upSession.Up := ⟨rfl, fresh_sound.1, rfl⟩

/-- The frame of query 5. -/
def queryFrame : List Byte := frame queryProtobuf ⟨5, by decide⟩ (queryPayload ⟨5, by decide⟩)

/-- A query in two pieces. -/
def cutQuery : List (List Byte) := [queryFrame.take 7, queryFrame.drop 7]

theorem dead_after_error_cutQuery :
    DeadAfterError queryProtobuf queryDispatcher upSession cutQuery ∧
      ∃ t, run (Session.step queryProtobuf queryDispatcher) upSession cutQuery = .ok t ∧
        t.log = [.dispatched 5] := by
  have hdel : Along (Session.step queryProtobuf queryDispatcher) Session.Delivered upSession
      cutQuery := by decide +kernel
  have hno : Along (Session.step queryProtobuf queryDispatcher)
      (fun s chunk => ¬ s.LosesSync queryProtobuf chunk) upSession cutQuery := by decide +kernel
  have hend : ∃ t, run (Session.step queryProtobuf queryDispatcher) upSession cutQuery = .ok t ∧
      t.log = [.dispatched 5] := by decide +kernel
  obtain ⟨t, hrun, hlog⟩ := hend
  exact ⟨(dead_after_error_iff upSession_up rfl hdel hrun).mpr hno, t, hrun, hlog⟩

/-- A header with the length zero, and then a query. -/
def zeroLengthThenQuery : List (List Byte) := [[0, 0, 0, 0], queryFrame]

/-- The zero length is refused, the connection stays up, and the query behind it is dispatched. -/
theorem query_dispatched_after_error :
    (∃ s, run (Session.step queryProtobuf queryDispatcher) upSession [[0, 0, 0, 0]] = .ok s ∧
      s.log = [.lengthError] ∧ s.conn.state = .connected) ∧
    (∃ t, run (Session.step queryProtobuf queryDispatcher) upSession zeroLengthThenQuery = .ok t ∧
      t.log = [.lengthError, .dispatched 5] ∧ t.conn.state = .connected) ∧
    ¬ DeadAfterError queryProtobuf queryDispatcher upSession zeroLengthThenQuery := by
  have hfirst : ∃ s, run (Session.step queryProtobuf queryDispatcher) upSession [[0, 0, 0, 0]] = .ok s ∧
      s.log = [.lengthError] ∧ s.conn.state = .connected := by decide +kernel
  have hboth : ∃ t, run (Session.step queryProtobuf queryDispatcher) upSession
      zeroLengthThenQuery = .ok t ∧ t.log = [.lengthError, .dispatched 5] ∧
        t.conn.state = .connected := by decide +kernel
  refine ⟨hfirst, hboth, fun hdead => ?_⟩
  obtain ⟨s, hs, hlog, hstate⟩ := hfirst
  obtain ⟨t, ht, -⟩ := hboth
  obtain ⟨s', hs', hrest⟩ := run_cons_inv ht
  obtain rfl : s' = s := by
    rw [run_cons_ok hs'] at hs
    exact Except.ok.inj hs
  have herr : .lengthError ∈ s'.log := by
    rw [hlog]
    exact List.mem_singleton_self _
  exact (hdead [[0, 0, 0, 0]] [_] s' t rfl hs hrest herr).1 hstate

end HyperMuduo.Net.ProtobufHandler
