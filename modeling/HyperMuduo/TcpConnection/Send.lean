import HyperMuduo.Buffer.Spec
import HyperMuduo.TcpConnection.Model

/-!
# What the send functions of `TcpConnection` do

One inversion lemma for each of `sendInLoop`, `sendInLoop(Buffer&)`, `handleWritable` and the
shutdown functions says everything a call that returned can have done; the properties of runs are
derived from these and never unfold the functions.

The data law (`sendInLoop_bytes`, `sendBufferInLoop_bytes`, `handleWritable_bytes`) is the same for
all of them: the bytes `::write` took, followed by the backlog after the call, are the backlog before
it followed by the bytes the call was given.
-/

namespace HyperMuduo.Net.TcpConnection

open HyperMuduo.Lib HyperMuduo.Net.Buffer

/-- The bytes `::write` took, over a list of effects. -/
def accepted (es : List Effect) : List Byte :=
  es.flatMap fun e =>
    match e with
    | .write bytes => bytes
    | _ => []

@[simp] theorem accepted_nil : accepted [] = [] := rfl

@[simp] theorem accepted_append (es es' : List Effect) :
    accepted (es ++ es') = accepted es ++ accepted es' := List.flatMap_append

@[simp] theorem accepted_write (bytes : List Byte) (es : List Effect) :
    accepted (.write bytes :: es) = bytes ++ accepted es := rfl

@[simp] theorem accepted_updateChannel (e : PollEvents) (es : List Effect) :
    accepted (.updateChannel e :: es) = accepted es := rfl

@[simp] theorem accepted_shutdownWrite (es : List Effect) :
    accepted (.shutdownWrite :: es) = accepted es := rfl

variable {c c' : TcpConnection} {t : ThreadId} {es : List Effect} {w : Int}

@[simp] theorem accepted_raiseWriteInterest (c : TcpConnection) :
    accepted c.raiseWriteInterest.2 = [] := by
  unfold raiseWriteInterest
  split <;> rfl

@[simp] theorem accepted_highWaterTasks (c : TcpConnection) : accepted c.highWaterTasks = [] := by
  unfold highWaterTasks
  split <;> rfl

@[simp] theorem accepted_writeCompleteTasks (c : TcpConnection) :
    accepted c.writeCompleteTasks = [] := by
  unfold writeCompleteTasks
  split <;> rfl

@[simp] theorem raiseWriteInterest_sendBuffer (c : TcpConnection) :
    c.raiseWriteInterest.1.sendBuffer = c.sendBuffer := by
  unfold raiseWriteInterest
  split <;> rfl

/-- Raising the write interest touches the channel's interest set only. -/
theorem raiseWriteInterest_eq (c : TcpConnection) :
    c.raiseWriteInterest.1 =
      { c with channel := { c.channel with events := c.channel.events.union .write } } := by
  unfold raiseWriteInterest
  split
  · rename_i h
    have hev : c.channel.events.union .write = c.channel.events := by
      unfold Channel.isWriting at h
      generalize c.channel.events = e at h
      cases e
      simp_all [PollEvents.union, PollEvents.write, PollEvents.none]
    rw [hev]
  · rfl

/-- A connection that writes directly has no backlog. -/
theorem readable_of_writesDirectly (h : Wf c.sendBuffer) (hd : c.writesDirectly = true) :
    c.sendBuffer.readable = [] := by
  unfold writesDirectly at hd
  simp only [Bool.and_eq_true, beq_iff_eq] at hd
  rw [h.readableBytes_eq_length] at hd
  exact List.length_eq_zero_iff.mp hd.2

/-! ## `sendInLoop(const char*, size_t)` -/

theorem sendInLoop_inv {msg : List Byte} (he : c.sendInLoop t msg w = .ok (c', es)) :
    isInLoopThread c.loop t = true ∧
    ((msg.length ≤ c.directlyWritten w ∧ c' = c ∧ es = c.directWrite msg w) ∨
      (c.directlyWritten w < msg.length ∧
        ∃ sb, c.sendBuffer.append (msg.drop (c.directlyWritten w)) = .ok sb ∧
          c' = { c with sendBuffer := sb }.raiseWriteInterest.1 ∧
          es = c.directWrite msg w ++ { c with sendBuffer := sb }.raiseWriteInterest.2 ++
            c'.highWaterTasks)) := by
  unfold sendInLoop at he
  obtain ⟨_, hin, he⟩ := bind_ok_inv he
  refine ⟨assert_inv hin, ?_⟩
  split at he
  · rename_i hlt
    obtain ⟨sb, happ, he⟩ := bind_ok_inv he
    simp only [pure, Except.pure, Except.ok.injEq, Prod.mk.injEq] at he
    obtain ⟨rfl, rfl⟩ := he
    exact Or.inr ⟨hlt, sb, happ, rfl, rfl⟩
  · rename_i hge
    simp only [pure, Except.pure, Except.ok.injEq, Prod.mk.injEq] at he
    obtain ⟨rfl, rfl⟩ := he
    exact Or.inl ⟨Nat.le_of_not_lt hge, rfl, rfl⟩

/-- The direct write takes the first `n_write` bytes of the message. -/
theorem accepted_directWrite (c : TcpConnection) (msg : List Byte) (w : Int) :
    accepted (c.directWrite msg w) = msg.take (c.directlyWritten w) := by
  unfold directWrite directlyWritten
  by_cases hd : c.writesDirectly = true
  · by_cases hw : 0 ≤ w
    · simp only [hd, hw, decide_true, Bool.and_self, if_true, accepted_write]
      split <;> simp
    · have h0 : w.toNat = 0 := Int.toNat_of_nonpos (by omega)
      simp [hd, hw, h0]
  · simp [hd]

/-- **The data law of `sendInLoop(const char*, size_t)`.** -/
theorem sendInLoop_bytes {msg : List Byte} (h : Usable c.sendBuffer) (hlen : msg.length ≤ maxSize)
    (he : c.sendInLoop t msg w = .ok (c', es)) :
    Usable c'.sendBuffer ∧ accepted es ++ c'.sendBuffer.readable = c.sendBuffer.readable ++ msg ∧
      (Sound c.sendBuffer → Sound c'.sendBuffer) ∧
      c'.sendBuffer.size ≤ c.sendBuffer.size + msg.length := by
  obtain ⟨-, ⟨hge, rfl, rfl⟩ | ⟨hlt, sb, happ, hc', rfl⟩⟩ := sendInLoop_inv he
  · refine ⟨h, ?_, id, Nat.le_add_right _ _⟩
    rw [accepted_directWrite, List.take_of_length_le hge]
    by_cases hd : c'.writesDirectly = true
    · rw [readable_of_writesDirectly h.toWf hd, List.append_nil, List.nil_append]
    · have h0 : c'.directlyWritten w = 0 := if_neg hd
      rw [List.length_eq_zero_iff.mp (show msg.length = 0 by omega)]
      simp
  · have hdrop' : (msg.drop (c.directlyWritten w)).length ≤ msg.length := by
      rw [List.length_drop]
      omega
    have hdrop := Nat.le_trans hdrop' hlen
    obtain ⟨hus, hread, hsize⟩ := append_usable h hdrop happ
    have hsb : c'.sendBuffer = sb := by rw [hc', raiseWriteInterest_sendBuffer]
    rw [hsb]
    refine ⟨hus, ?_, fun hs => (append_sound hs hdrop happ).1,
      Nat.le_trans hsize (Nat.add_le_add_left hdrop' _)⟩
    simp only [accepted_append, accepted_directWrite, accepted_raiseWriteInterest,
      accepted_highWaterTasks, List.append_nil]
    rw [hread]
    by_cases hd : c.writesDirectly = true
    · rw [readable_of_writesDirectly h.toWf hd, List.nil_append, List.nil_append,
        List.take_append_drop]
    · have h0 : c.directlyWritten w = 0 := if_neg hd
      simp [h0]

theorem sendInLoop_error {msg : List Byte} (h : Sound c.sendBuffer) (hlen : msg.length ≤ maxSize)
    {e : Fault} (ht : isInLoopThread c.loop t = true) (he : c.sendInLoop t msg w = .error e) :
    e = .lengthError ∧ maxSize < c.sendBuffer.size + msg.length := by
  have hw := h.write_le
  unfold sendInLoop at he
  rw [assertInLoopThread, if_pos ht] at he
  rcases bind_error_inv he with he | ⟨_, -, he⟩
  · exact absurd he (by simp)
  · split at he
    · rcases bind_error_inv he with he | ⟨sb, -, he⟩
      · have hdrop : (msg.drop (c.directlyWritten w)).length ≤ msg.length := by
          rw [List.length_drop]
          omega
        obtain ⟨h1, h2⟩ := append_error h.roomy (by omega) he
        exact ⟨h1, by omega⟩
      · exact absurd he (by simp [pure, Except.pure])
    · exact absurd he (by simp [pure, Except.pure])

/-! ## `sendInLoop(Buffer&)` -/

theorem sendBufferInLoop_inv {buf buf' : Buffer}
    (he : c.sendBufferInLoop t buf w = .ok (c', buf', es)) :
    isInLoopThread c.loop t = true ∧ ∃ buf₁ written,
      c.directBufferWrite buf w = .ok (buf₁, written) ∧
      ((buf₁.readableBytes = 0 ∧ c' = c ∧ buf' = buf₁ ∧ es = written) ∨
        (0 < buf₁.readableBytes ∧ ∃ sb, takeOver c.sendBuffer buf₁ = .ok (sb, buf') ∧
          c' = { c with sendBuffer := sb }.raiseWriteInterest.1 ∧
          es = written ++ { c with sendBuffer := sb }.highWaterTasks ++
            { c with sendBuffer := sb }.raiseWriteInterest.2)) := by
  unfold sendBufferInLoop at he
  obtain ⟨_, hin, he⟩ := bind_ok_inv he
  obtain ⟨⟨buf₁, written⟩, hdir, he⟩ := bind_ok_inv he
  refine ⟨assert_inv hin, buf₁, written, hdir, ?_⟩
  simp only at he
  split at he
  · rename_i hpos
    obtain ⟨⟨sb, buf₂⟩, htake, he⟩ := bind_ok_inv he
    simp only [pure, Except.pure, Except.ok.injEq, Prod.mk.injEq] at he
    obtain ⟨rfl, rfl, rfl⟩ := he
    exact Or.inr ⟨hpos, sb, htake, rfl, rfl⟩
  · rename_i hz
    simp only [pure, Except.pure, Except.ok.injEq, Prod.mk.injEq] at he
    obtain ⟨rfl, rfl, rfl⟩ := he
    exact Or.inl ⟨Nat.eq_zero_of_not_pos hz, rfl, rfl, rfl⟩

theorem peek_readable {b : Buffer} (h : Wf b) : b.peek 0 b.readableBytes = .ok b.readable := by
  rw [h.readableBytes_eq_length, peek_eq h (Nat.le_of_eq (Nat.zero_add _)), List.drop_zero,
    List.take_length]

/-- The direct write of `sendInLoop(Buffer&)` moves bytes from the caller's buffer to the socket. -/
theorem directBufferWrite_ok {buf : Buffer} (hb : Usable buf) (c : TcpConnection) (w : Int) :
    ∃ buf₁ written, c.directBufferWrite buf w = .ok (buf₁, written) ∧
      accepted written ++ buf₁.readable = buf.readable ∧ Usable buf₁ ∧
      (Sound buf → Sound buf₁) ∧ (c.writesDirectly = false → accepted written = []) ∧
      buf₁.size = buf.size := by
  unfold directBufferWrite
  by_cases hd : c.writesDirectly = true
  · rw [if_pos hd, peek_readable hb.toWf]
    by_cases hw : 0 ≤ w
    · refine ⟨_, _, by simp only [bind, Except.bind, if_pos hw]; rfl, ?_, ?_, ?_, ?_, ?_⟩
      · rw [accepted_write, accepted_nil, List.append_nil, readable_retrieve hb.toWf,
          List.take_append_drop]
      · exact retrieve_usable hb _
      · exact fun h => retrieve_sound h _
      · rw [hd]; exact fun h => absurd h (by simp)
      · exact retrieve_size _ _
    · exact ⟨_, _, by simp only [bind, Except.bind, if_neg hw]; rfl, rfl, hb, id, fun _ => rfl, rfl⟩
  · rw [if_neg hd]
    exact ⟨buf, [], rfl, rfl, hb, id, fun _ => rfl, rfl⟩

/-- Step 2 of `sendInLoop(Buffer&)` puts the rest behind the backlog, by either path. -/
theorem takeOver_ok {sb sb' buf buf' : Buffer} (h : Usable sb) (hb : Usable buf)
    (he : takeOver sb buf = .ok (sb', buf')) :
    Usable sb' ∧ sb'.readable = sb.readable ++ buf.readable ∧
      (Sound sb → Sound buf → Sound sb') ∧ sb'.size ≤ sb.size + buf.size := by
  unfold takeOver at he
  split at he
  · rename_i hz
    rw [h.readableBytes_eq_length] at hz
    simp only [swap, Except.ok.injEq, Prod.mk.injEq] at he
    obtain ⟨rfl, rfl⟩ := he
    rw [List.length_eq_zero_iff.mp hz, List.nil_append]
    exact ⟨hb, rfl, fun _ hs => hs, Nat.le_add_left _ _⟩
  · rw [peek_readable hb.toWf] at he
    obtain ⟨rest, hrest, he⟩ := bind_ok_inv he
    obtain rfl := Except.ok.inj hrest
    obtain ⟨sb₁, happ, he⟩ := bind_ok_inv he
    simp only [pure, Except.pure, Except.ok.injEq, Prod.mk.injEq] at he
    obtain ⟨rfl, rfl⟩ := he
    have hlen : buf.readable.length ≤ maxSize := hb.length_readable_le
    obtain ⟨hus, hread, hsize⟩ := append_usable h hlen happ
    exact ⟨hus, hread, fun hs _ => (append_sound hs hlen happ).1,
      Nat.le_trans hsize (Nat.add_le_add_left hb.length_readable_le_size _)⟩

theorem takeOver_error {sb buf : Buffer} (h : Sound sb) (hb : Usable buf) {e : Fault}
    (he : takeOver sb buf = .error e) :
    e = .lengthError ∧ maxSize < sb.size + buf.size := by
  have hw := h.write_le
  unfold takeOver at he
  split at he
  · exact absurd he (by simp)
  · rw [peek_readable hb.toWf] at he
    rcases bind_error_inv he with he | ⟨rest, hrest, he⟩
    · exact absurd he (by simp)
    · obtain rfl := Except.ok.inj hrest
      rcases bind_error_inv he with he | ⟨_, -, he⟩
      · have hlen := hb.length_readable_le_size
        obtain ⟨h1, h2⟩ := append_error h.roomy hb.length_readable_le he
        exact ⟨h1, by omega⟩
      · exact absurd he (by simp [pure, Except.pure])

/-- **The data law of `sendInLoop(Buffer&)`.** -/
theorem sendBufferInLoop_bytes {buf buf' : Buffer} (h : Usable c.sendBuffer) (hb : Usable buf)
    (he : c.sendBufferInLoop t buf w = .ok (c', buf', es)) :
    Usable c'.sendBuffer ∧
      accepted es ++ c'.sendBuffer.readable = c.sendBuffer.readable ++ buf.readable ∧
      (Sound c.sendBuffer → Sound buf → Sound c'.sendBuffer) ∧
      c'.sendBuffer.size ≤ c.sendBuffer.size + buf.size := by
  obtain ⟨-, buf₁, written, hdir, hrest⟩ := sendBufferInLoop_inv he
  obtain ⟨b, wr, hdir', hbytes, hus, hsound, hnone, hsz⟩ := directBufferWrite_ok hb c w
  rw [hdir] at hdir'
  simp only [Except.ok.injEq, Prod.mk.injEq] at hdir'
  obtain ⟨rfl, rfl⟩ := hdir'
  -- bytes are written directly only when there is no backlog to overtake
  have hfront : c.sendBuffer.readable ++ accepted written =
      accepted written ++ c.sendBuffer.readable := by
    by_cases hd : c.writesDirectly = true
    · rw [readable_of_writesDirectly h.toWf hd, List.nil_append, List.append_nil]
    · rw [hnone (by simpa using hd), List.nil_append, List.append_nil]
  rcases hrest with ⟨hz, rfl, -, rfl⟩ | ⟨-, sb, htake, rfl, rfl⟩
  · rw [hus.readableBytes_eq_length] at hz
    rw [List.length_eq_zero_iff.mp hz, List.append_nil] at hbytes
    rw [← hbytes, hfront]
    exact ⟨h, rfl, fun hs _ => hs, Nat.le_add_right _ _⟩
  · obtain ⟨husb, hread, hs, hsize⟩ := takeOver_ok h hus htake
    rw [raiseWriteInterest_sendBuffer]
    refine ⟨husb, ?_, fun hs1 hs2 => hs hs1 (hsound hs2), by rw [← hsz]; exact hsize⟩
    simp only [accepted_append, accepted_raiseWriteInterest, accepted_highWaterTasks,
      List.append_nil]
    rw [hread, ← hbytes, ← List.append_assoc, ← List.append_assoc, hfront]

theorem sendBufferInLoop_error {buf : Buffer} (h : Sound c.sendBuffer) (hb : Usable buf)
    {e : Fault} (ht : isInLoopThread c.loop t = true)
    (he : c.sendBufferInLoop t buf w = .error e) :
    e = .lengthError ∧ maxSize < c.sendBuffer.size + buf.size := by
  obtain ⟨buf₁, written, hdir, -, hus, -, -, hsize⟩ := directBufferWrite_ok hb c w
  unfold sendBufferInLoop at he
  rw [assertInLoopThread, if_pos ht] at he
  rcases bind_error_inv he with he | ⟨_, -, he⟩
  · exact absurd he (by simp)
  · rw [hdir] at he
    rcases bind_error_inv he with he | ⟨⟨b₁, wr⟩, hok, he⟩
    · exact absurd he (by simp)
    · simp only [Except.ok.injEq, Prod.mk.injEq] at hok
      obtain ⟨rfl, rfl⟩ := hok
      simp only at he
      split at he
      · rcases bind_error_inv he with he | ⟨_, -, he⟩
        · rw [← hsize]
          exact takeOver_error h hus he
        · exact absurd he (by simp [pure, Except.pure])
      · exact absurd he (by simp [pure, Except.pure])

/-! ## Shutting down -/

theorem shutdownInLoop_inv (he : c.shutdownInLoop t = .ok (c', es)) :
    isInLoopThread c.loop t = true ∧
    ((c.state ≠ .connected ∧ c' = c ∧ es = []) ∨
      (c.state = .connected ∧ c.channel.isWriting = true ∧
        c' = { c with state := .disconnecting } ∧ es = []) ∨
      (c.state = .connected ∧ c.channel.isWriting = false ∧
        c' = { c with state := .disconnecting, socket := c.socket.shutdownWrite } ∧
        es = [.shutdownWrite])) := by
  unfold shutdownInLoop at he
  obtain ⟨_, hin, he⟩ := bind_ok_inv he
  refine ⟨assert_inv hin, ?_⟩
  split at he
  · rename_i hc
    simp only at he
    split at he
    · rename_i hw
      simp only [pure, Except.pure, Except.ok.injEq, Prod.mk.injEq] at he
      obtain ⟨rfl, rfl⟩ := he
      exact Or.inr (Or.inl ⟨hc, hw, rfl, rfl⟩)
    · rename_i hw
      simp only [pure, Except.pure, Except.ok.injEq, Prod.mk.injEq] at he
      obtain ⟨rfl, rfl⟩ := he
      exact Or.inr (Or.inr ⟨hc, by simpa using hw, rfl, rfl⟩)
  · rename_i hc
    simp only [pure, Except.pure, Except.ok.injEq, Prod.mk.injEq] at he
    obtain ⟨rfl, rfl⟩ := he
    exact Or.inl ⟨hc, rfl, rfl⟩

/-- Outside `Connected`, `shutdownInLoop` does nothing. -/
theorem shutdownInLoop_of_ne (ht : isInLoopThread c.loop t = true) (hc : c.state ≠ .connected) :
    c.shutdownInLoop t = .ok (c, []) := by
  unfold shutdownInLoop
  rw [assertInLoopThread, if_pos ht]
  simp only [bind, Except.bind, if_neg hc]
  rfl

/-! ## `handleWritable` -/

/-- The `shutdownInLoop` of `handleWritable` is called in `Disconnecting` and so does nothing. -/
theorem handleWritable_inv (he : c.handleWritable t w = .ok (c', es)) :
    isInLoopThread c.loop t = true ∧
    (c' = c ∧ es = [] ∨
      c.channel.isWriting = true ∧ 0 < w ∧
        ∃ offered, c.sendBuffer.peek 0 c.sendBuffer.readableBytes = .ok offered ∧
          ((0 < (c.sendBuffer.retrieve w.toNat).readableBytes ∧
              c' = { c with sendBuffer := c.sendBuffer.retrieve w.toNat } ∧
              es = [.write (offered.take w.toNat)]) ∨
            ((c.sendBuffer.retrieve w.toNat).readableBytes = 0 ∧
              c' = { c with
                sendBuffer := c.sendBuffer.retrieve w.toNat
                channel := c.channel.ignoreWritable } ∧
              es = [.write (offered.take w.toNat), .updateChannel c'.channel.events] ++
                c'.writeCompleteTasks))) := by
  unfold handleWritable at he
  obtain ⟨_, hin, he⟩ := bind_ok_inv he
  have ht := assert_inv hin
  refine ⟨ht, ?_⟩
  split at he
  · rename_i hw
    obtain ⟨offered, hoff, he⟩ := bind_ok_inv he
    split at he
    · rename_i hpos
      refine Or.inr ⟨hw, hpos, offered, hoff, ?_⟩
      simp only at he
      split at he
      · rename_i hz
        right
        split at he
        · rename_i hst
          have hno := shutdownInLoop_of_ne (c := { c with
            sendBuffer := c.sendBuffer.retrieve w.toNat
            channel := c.channel.ignoreWritable }) ht (by simp [hst])
          rw [hno] at he
          simp only [bind, Except.bind, pure, Except.pure, Except.ok.injEq, Prod.mk.injEq,
            List.append_nil] at he
          obtain ⟨rfl, rfl⟩ := he
          exact ⟨hz, rfl, rfl⟩
        · simp only [pure, Except.pure, Except.ok.injEq, Prod.mk.injEq] at he
          obtain ⟨rfl, rfl⟩ := he
          exact ⟨hz, rfl, rfl⟩
      · rename_i hz
        left
        simp only [pure, Except.pure, Except.ok.injEq, Prod.mk.injEq] at he
        obtain ⟨rfl, rfl⟩ := he
        exact ⟨Nat.pos_of_ne_zero hz, rfl, rfl⟩
    · left
      simp only [pure, Except.pure, Except.ok.injEq, Prod.mk.injEq] at he
      obtain ⟨rfl, rfl⟩ := he
      exact ⟨rfl, rfl⟩
  · left
    simp only [pure, Except.pure, Except.ok.injEq, Prod.mk.injEq] at he
    obtain ⟨rfl, rfl⟩ := he
    exact ⟨rfl, rfl⟩

/-- **The data law of `handleWritable`.** -/
theorem handleWritable_bytes (h : Usable c.sendBuffer) (he : c.handleWritable t w = .ok (c', es)) :
    Usable c'.sendBuffer ∧ accepted es ++ c'.sendBuffer.readable = c.sendBuffer.readable ∧
      (Sound c.sendBuffer → Sound c'.sendBuffer) ∧ c'.sendBuffer.size = c.sendBuffer.size := by
  obtain ⟨-, ⟨rfl, rfl⟩ | ⟨-, -, offered, hoff, hcase⟩⟩ := handleWritable_inv he
  · exact ⟨h, rfl, id, rfl⟩
  · rw [peek_readable h.toWf] at hoff
    obtain rfl := Except.ok.inj hoff
    have hsb : c'.sendBuffer = c.sendBuffer.retrieve w.toNat := by
      rcases hcase with ⟨-, rfl, -⟩ | ⟨-, rfl, -⟩ <;> rfl
    have hes : accepted es = c.sendBuffer.readable.take w.toNat := by
      rcases hcase with ⟨-, -, rfl⟩ | ⟨-, -, rfl⟩ <;> simp
    rw [hsb, hes, readable_retrieve h.toWf, List.take_append_drop]
    exact ⟨retrieve_usable h _, rfl, fun hs => retrieve_sound hs _, retrieve_size _ _⟩

/-- `handleWritable` cannot fail. -/
theorem handleWritable_total (h : Usable c.sendBuffer) (ht : isInLoopThread c.loop t = true)
    (w : Int) : ∃ c' es, c.handleWritable t w = .ok (c', es) := by
  unfold handleWritable
  rw [assertInLoopThread, if_pos ht, peek_readable h.toWf]
  simp only [bind, Except.bind, pure, Except.pure]
  split
  · split
    · split
      · split
        · rename_i hst
          have hno := shutdownInLoop_of_ne (c := { c with
            sendBuffer := c.sendBuffer.retrieve w.toNat
            channel := c.channel.ignoreWritable }) ht (by simp [hst])
          rw [hno]
          exact ⟨_, _, rfl⟩
        · exact ⟨_, _, rfl⟩
      · exact ⟨_, _, rfl⟩
    · exact ⟨_, _, rfl⟩
  · exact ⟨_, _, rfl⟩

end HyperMuduo.Net.TcpConnection
