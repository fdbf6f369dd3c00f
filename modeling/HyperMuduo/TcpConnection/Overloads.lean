import HyperMuduo.TcpConnection.LifeCycle

/-!
# The two ways to send in the loop

`sendInLoop(const char*, size_t)` and `sendInLoop(Buffer&)` were written apart: the first appends what
`::write` left to `send_buffer_`, the second swaps the whole buffer in when `send_buffer_` is empty.

`Agree` compares what a call does with the same bytes and the same answer of `::write`: the bytes
written, the backlog, the interest of the channel and the callbacks queued. **`overloads_agree_iff`**:
they agree except when the direct write takes everything and a write-complete callback is set. Then the
first queues the callback, and the second forgets it.
-/

namespace HyperMuduo.Net.TcpConnection

open HyperMuduo.Lib HyperMuduo.Net.Buffer

/-- The tasks a list of effects queues on the loop. -/
def queuedTasks (es : List Effect) : List Task :=
  es.filterMap fun e =>
    match e with
    | .queueInLoop task => some task
    | _ => none

/-- What a call shows: the bytes `::write` took, the backlog it left, the interest of the channel and
the callbacks it queued on the loop, in order. -/
structure Outcome where
  written : List Byte
  backlog : List Byte
  interest : PollEvents
  queued : List Task
  deriving DecidableEq, Repr

def outcome (c : TcpConnection) (es : List Effect) : Outcome :=
  ⟨accepted es, c.sendBuffer.readable, c.channel.events, queuedTasks es⟩

/-- `sendInLoop(const char*, size_t)` on `d` and `sendInLoop(Buffer&)` on `buf` do the same: they show
the same, or the vector of `send_buffer_` cannot grow in both. -/
def Agree (c : TcpConnection) (t : ThreadId) (d : List Byte) (buf : Buffer) (w : Int) : Prop :=
  (c.sendInLoop t d w).map (fun r => r.1.outcome r.2) =
    (c.sendBufferInLoop t buf w).map (fun r => r.1.outcome r.2.2)

/-- The direct write takes everything, and a write-complete callback waits for that. -/
def CompletesDirectly (c : TcpConnection) (d : List Byte) (w : Int) : Prop :=
  c.writesDirectly = true ∧ (d.length : Int) ≤ w ∧ c.writeCompleteCallback = true

instance (c : TcpConnection) (d : List Byte) (w : Int) : Decidable (c.CompletesDirectly d w) :=
  inferInstanceAs (Decidable (_ ∧ _ ∧ _))

@[simp] theorem queuedTasks_append (es es' : List Effect) :
    queuedTasks (es ++ es') = queuedTasks es ++ queuedTasks es' := List.filterMap_append

variable {c c' : TcpConnection} {t : ThreadId} {es : List Effect} {w : Int}

@[simp] theorem queuedTasks_raiseWriteInterest (c : TcpConnection) :
    queuedTasks c.raiseWriteInterest.2 = [] := by
  unfold raiseWriteInterest
  split <;> rfl

/-- The direct write of the first overload queues the write-complete callback when it takes
everything. -/
theorem queuedTasks_directWrite (c : TcpConnection) (d : List Byte) (w : Int) :
    queuedTasks (c.directWrite d w) =
      if c.CompletesDirectly d w then [.writeCompleteCallback] else [] := by
  unfold directWrite CompletesDirectly
  by_cases hd : c.writesDirectly = true
  · by_cases hw : (d.length : Int) ≤ w
    · have h0 : (0 : Int) ≤ w := Int.le_trans (Int.natCast_nonneg _) hw
      have hfull : ¬ w.toNat < d.length := by omega
      unfold writeCompleteTasks
      by_cases hcb : c.writeCompleteCallback = true
      · simp [queuedTasks, hd, hw, h0, hfull, hcb]
      · simp [queuedTasks, hd, hw, h0, hfull, hcb]
    · by_cases h0 : 0 ≤ w
      · have hpart : w.toNat < d.length := by omega
        simp [queuedTasks, hd, hw, h0, hpart]
      · simp [queuedTasks, hd, hw, h0]
  · simp [queuedTasks, hd]

theorem not_completesDirectly {d : List Byte} (hlt : c.directlyWritten w < d.length) :
    ¬ c.CompletesDirectly d w := by
  rintro ⟨hd, hw, -⟩
  rw [directlyWritten, if_pos hd] at hlt
  omega

/-- The callbacks the high-water check queues on a backlog of `n` bytes. -/
def highWaterQueued (c : TcpConnection) (n : Nat) : List Task :=
  if c.highWaterCallback && decide (c.highWaterMark ≤ n) then [.highWaterCallback] else []

theorem queuedTasks_highWaterTasks (c : TcpConnection) :
    queuedTasks c.highWaterTasks = c.highWaterQueued c.sendBuffer.readableBytes := by
  unfold highWaterTasks highWaterQueued
  split <;> rfl

/-- The direct write of the second overload: what is left, and what was written. -/
theorem directBufferWrite_eq {buf : Buffer} (hb : Sound buf) (c : TcpConnection) (w : Int) :
    ∃ buf₁ written, c.directBufferWrite buf w = .ok (buf₁, written) ∧ Sound buf₁ ∧
      buf₁.readable = buf.readable.drop (c.directlyWritten w) ∧
      accepted written = buf.readable.take (c.directlyWritten w) ∧ queuedTasks written = [] := by
  unfold directBufferWrite directlyWritten
  by_cases hd : c.writesDirectly = true
  · rw [if_pos hd, if_pos hd, peek_readable hb.toWf]
    by_cases hw : 0 ≤ w
    · refine ⟨buf.retrieve w.toNat, [.write (buf.readable.take w.toNat)], ?_, retrieve_sound hb _,
        readable_retrieve hb.toWf _, ?_, rfl⟩
      · rw [ok_bind, if_pos hw]
        rfl
      · rw [accepted_write, accepted_nil, List.append_nil]
    · have h0 : w.toNat = 0 := Int.toNat_of_nonpos (by omega)
      refine ⟨buf, [], ?_, hb, ?_, ?_, rfl⟩
      · rw [ok_bind, if_neg hw]
        rfl
      · rw [h0, List.drop_zero]
      · rw [h0, List.take_zero, accepted_nil]
  · rw [if_neg hd, if_neg hd]
    exact ⟨buf, [], rfl, hb, rfl, rfl, rfl⟩

/-- What a call that stores the rest of `d` shows, for the `(readable, readableBytes())` it leaves in
`send_buffer_`. -/
def stored (c : TcpConnection) (d : List Byte) (w : Int) (left : List Byte × Nat) : Outcome :=
  ⟨d.take (c.directlyWritten w), left.1, c.channel.events.union .write, c.highWaterQueued left.2⟩

/-- The swap leaves in an empty `send_buffer_` what an `append` would. -/
theorem takeOver_shows {sb buf : Buffer} (h : Settled sb) (hb : Sound buf) :
    (takeOver sb buf).map (fun r => (r.1.readable, r.1.readableBytes)) =
      (sb.append buf.readable).map fun b => (b.readable, b.readableBytes) := by
  unfold takeOver
  by_cases hz : sb.readableBytes = 0
  · rw [if_pos hz]
    rw [h.toWf.readableBytes_eq_length] at hz
    have hempty : sb.readable = [] := List.length_eq_zero_iff.mp hz
    have hri := h.reset hempty
    have hsound : Sound sb := ⟨h.toWf, Nat.le_of_eq hri.symm⟩
    have hlen := hb.toWf.length_readable_le
    cases happ : sb.append buf.readable with
    | error e =>
      -- the rest fits behind `CHEAP_PREPEND` in the caller's vector, so it fits here
      obtain ⟨-, hbig, -⟩ := append_error hsound.roomy hlen happ
      have h1 := h.toWf.length_readable
      have h2 := hb.toWf.length_readable
      have h3 := hb.prepend_le
      have h4 := hb.write_le
      have h5 := hb.size_le
      have h6 := hb.read_le
      have h7 := h.read_le
      omega
    | ok sb' =>
      obtain ⟨hs, hread⟩ := append_sound hsound hlen happ
      rw [hempty, List.nil_append] at hread
      simp only [swap, Except.map, hread, hs.toWf.readableBytes_eq_length,
        hb.toWf.readableBytes_eq_length]
  · rw [if_neg hz, peek_readable hb.toWf, ok_bind]
    cases sb.append buf.readable with
    | error e => rfl
    | ok sb' => rfl

theorem sendInLoop_outcome (ht : isInLoopThread c.loop t = true) (d : List Byte) (w : Int) :
    (c.sendInLoop t d w).map (fun r => r.1.outcome r.2) =
      if c.directlyWritten w < d.length then
        ((c.sendBuffer.append (d.drop (c.directlyWritten w))).map
          fun b => (b.readable, b.readableBytes)).map (c.stored d w)
      else
        .ok ⟨d.take (c.directlyWritten w), c.sendBuffer.readable, c.channel.events,
          if c.CompletesDirectly d w then [.writeCompleteCallback] else []⟩ := by
  unfold sendInLoop
  rw [assertInLoopThread, if_pos ht, ok_bind]
  by_cases hlt : c.directlyWritten w < d.length
  · rw [if_pos hlt, if_pos hlt]
    cases c.sendBuffer.append (d.drop (c.directlyWritten w)) with
    | error e => rfl
    | ok sb =>
      have hpart : ¬ c.CompletesDirectly d w := not_completesDirectly hlt
      simp only [ok_bind, pure, Except.pure, Except.map, outcome, stored, raiseWriteInterest_eq,
        accepted_append, accepted_directWrite, accepted_raiseWriteInterest, accepted_highWaterTasks,
        queuedTasks_append, queuedTasks_directWrite, queuedTasks_raiseWriteInterest,
        queuedTasks_highWaterTasks, if_neg hpart, List.append_nil, List.nil_append]
      rfl
  · rw [if_neg hlt, if_neg hlt]
    simp only [pure, Except.pure, Except.map, outcome, accepted_directWrite, queuedTasks_directWrite]

theorem sendBufferInLoop_outcome (ht : isInLoopThread c.loop t = true) (h : Settled c.sendBuffer)
    {buf : Buffer} (hb : Sound buf) (w : Int) :
    (c.sendBufferInLoop t buf w).map (fun r => r.1.outcome r.2.2) =
      if c.directlyWritten w < buf.readable.length then
        ((c.sendBuffer.append (buf.readable.drop (c.directlyWritten w))).map
          fun b => (b.readable, b.readableBytes)).map (c.stored buf.readable w)
      else
        .ok ⟨buf.readable.take (c.directlyWritten w), c.sendBuffer.readable, c.channel.events, []⟩ := by
  obtain ⟨buf₁, written, hdir, hsound, hrest, hacc, hqueued⟩ := directBufferWrite_eq hb c w
  unfold sendBufferInLoop
  rw [assertInLoopThread, if_pos ht, ok_bind, hdir, ok_bind]
  have hleft : 0 < buf₁.readableBytes ↔ c.directlyWritten w < buf.readable.length := by
    rw [hsound.toWf.readableBytes_eq_length, hrest, List.length_drop]
    omega
  by_cases hlt : c.directlyWritten w < buf.readable.length
  · have hshows := takeOver_shows h hsound
    rw [if_pos hlt, ← hrest, ← hshows]
    simp only [if_pos (hleft.mpr hlt)]
    cases takeOver c.sendBuffer buf₁ with
    | error e => rfl
    | ok r =>
      simp only [ok_bind, pure, Except.pure, Except.map, outcome, stored, raiseWriteInterest_eq,
        accepted_append, accepted_raiseWriteInterest, accepted_highWaterTasks, queuedTasks_append,
        queuedTasks_raiseWriteInterest, queuedTasks_highWaterTasks, hacc, hqueued, List.append_nil,
        List.nil_append]
      rfl
  · rw [if_neg hlt]
    simp only [if_neg (mt hleft.mp hlt), pure, Except.pure, Except.map, outcome, hacc, hqueued]

/-- **The overloads agree exactly when no callback is due.** For every connection, every `d` and every
answer of `::write`, the two differ when the direct write takes all of `d` and a write-complete
callback is set, and only then. -/
theorem overloads_agree_iff (ht : isInLoopThread c.loop t = true) (h : Settled c.sendBuffer)
    {d : List Byte} {buf : Buffer} (hb : Reached buf) (hd : buf.readable = d) (w : Int) :
    Agree c t d buf w ↔ ¬ c.CompletesDirectly d w := by
  subst hd
  unfold Agree
  rw [sendInLoop_outcome ht, sendBufferInLoop_outcome ht h hb.sound]
  by_cases hlt : c.directlyWritten w < buf.readable.length
  · rw [if_pos hlt, if_pos hlt]
    exact ⟨fun _ => not_completesDirectly hlt, fun _ => rfl⟩
  · rw [if_neg hlt, if_neg hlt]
    by_cases hcomp : c.CompletesDirectly buf.readable w
    · simp [hcomp]
    · simp [hcomp]

instance (c : TcpConnection) (t : ThreadId) (d : List Byte) (buf : Buffer) (w : Int) :
    Decidable (Agree c t d buf w) :=
  inferInstanceAs (Decidable (_ = _))

/-- Established and idle, with a write-complete callback. -/
def notified : TcpConnection :=
  { construct 0 "server#1" 5 with
    state := .connected
    channel := ((Channel.construct 5).setReadCallback .handleReadable).listenTillReadable
    writeCompleteCallback := true }

/-- The socket takes two bytes of three: both overloads store the third and raise the interest. -/
theorem overloads_agree_iff_shortWrite :
    ∃ buf, Buffer.fresh.append [1, 2, 3] = .ok buf ∧ Agree notified (.loop 0) [1, 2, 3] buf 2 := by
  obtain ⟨buf, happ, hread⟩ :
      ∃ buf, Buffer.fresh.append [1, 2, 3] = .ok buf ∧ buf.readable = [1, 2, 3] := by decide +kernel
  have hbuf : Reached buf := .append fresh_reached (by decide) happ
  exact ⟨buf, happ, (overloads_agree_iff rfl fresh_reached.settled hbuf hread 2).mpr (by decide +kernel)⟩

/-- The socket takes all three: the first overload queues the callback, the second does not. -/
theorem overloads_disagree_fullWrite :
    ∃ buf, Buffer.fresh.append [1, 2, 3] = .ok buf ∧ buf.readable = [1, 2, 3] ∧
      ¬ Agree notified (.loop 0) [1, 2, 3] buf 3 := by
  decide +kernel

end HyperMuduo.Net.TcpConnection
