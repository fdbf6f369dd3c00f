import HyperMuduo.TcpConnection.Backlog

/-!
# What a send from another thread carries

One thread other than the loop's runs a script: it calls the three `send` overloads on the
connection, and between the calls and after them it writes its own memory (bytes, strings and
`Buffer`s) as it likes. The loop thread runs beside it and executes the queued tasks whenever it gets
there. A call is cut at the push of its task, so the loop thread may also run in the middle of it.

* `send(std::string)` takes a copy, and the task owns it.
* `send(Buffer&)` swaps the bytes into a buffer of the task; the caller is left with a fresh one.
* `send(const char*, size_t)` captures the pointer, and the task reads the caller's memory when it
  runs.

`called` are the arguments as they were at each call, `passed` what the tasks handed to `sendInLoop`.
**`bytes_of_the_call_iff`**: under every schedule the second follows the first, exactly when the
script leaves alone the bytes it sent by pointer, for good.
-/

namespace HyperMuduo.Net.TcpConnection

open HyperMuduo.Lib HyperMuduo.Net.Buffer

/-- The memory of the calling thread: bytes, and its `std::string` and `Buffer` variables. -/
structure CallerMemory where
  bytes : Memory
  strings : Nat → List Byte
  buffers : Nat → { b : Buffer // Usable b }

/-- The argument of a call, as the caller names it. -/
inductive CallerArg where
  | string (i : Nat)
  | buffer (i : Nat)
  | pointer (addr len : Nat)
  deriving DecidableEq, Repr

/-- What the calling thread does. -/
inductive CallerAct where
  | send (a : CallerArg)
  | store (mem : CallerMemory)

/-- The steps of the loop thread and of the connection's owner. -/
def Label.onLoopThread : Label → Bool
  | .sendCheck _ | .shutdownCheck | .advance _ | .store _ => false
  | _ => true

/-- A step of a schedule. -/
inductive Turn where
  | caller
  | loop (l : Label) (h : l.onLoopThread = true)

/-- The connection with its loop, and the thread that sends. -/
structure CrossThread where
  sys : Sys
  script : List CallerAct
  strings : Nat → List Byte
  buffers : Nat → { b : Buffer // Usable b }
  /-- The bytes of the arguments, at the calls that passed the test of `state_`. -/
  called : List (List Byte)
  /-- The bytes the tasks handed to `sendInLoop`. -/
  passed : List (List Byte)

namespace Sys

/-- The sends in the queue. -/
def queuedSends (s : Sys) : List SendArg := s.taskQueue.filterMap Task.sends

def InFlight.pushes : InFlight → Option SendArg
  | .sendPush arg => some arg
  | _ => none

/-- The sends that passed the test and have not run. -/
def waiting (s : Sys) : List SendArg := s.queuedSends ++ s.inFlight.filterMap InFlight.pushes

/-- The `sendInLoop` of a task a step calls. -/
def passing (s : Sys) : Label → List SendArg
  | .runTask _ => (s.taskQueue.head?.bind Task.sends).toList
  | _ => []

end Sys

namespace CrossThread

def start (s : Sys) (script : List CallerAct) (mem : CallerMemory) : CrossThread where
  sys := { s with memory := mem.bytes }
  script := script
  strings := mem.strings
  buffers := mem.buffers
  called := []
  passed := []

def arg (s : CrossThread) : CallerArg → SendArg
  | .string i => .string (s.strings i)
  | .buffer i => .buffer (s.buffers i).val
  | .pointer addr len => .pointer addr len

theorem usable_fresh : Usable Buffer.fresh := fresh_sound.1.roomy.usable

/-- The caller's buffers after a call that queued its task. -/
def swapped (s : CrossThread) : CallerArg → Nat → { b : Buffer // Usable b }
  | .buffer i => Function.update s.buffers i ⟨Buffer.fresh, usable_fresh⟩
  | _ => s.buffers

/-- The next step of the calling thread: the push of a call, or the next entry of the script. -/
def callerStep (s : CrossThread) : Except Fault CrossThread :=
  match s.sys.inFlight with
  | _ :: _ => do
    let sys ← s.sys.step (.advance 0)
    return { s with sys := sys }
  | [] =>
    match s.script with
    | [] => .ok s
    | .store mem :: script => do
      let sys ← s.sys.step (.store mem.bytes)
      return { s with sys := sys, script := script, strings := mem.strings, buffers := mem.buffers }
    | .send a :: script => do
      let sys ← s.sys.step (.sendCheck (s.arg a))
      if s.sys.conn.connected then
        return { s with
          sys := sys
          script := script
          buffers := s.swapped a
          called := s.called ++ [s.sys.argBytes (s.arg a)] }
      else return { s with sys := sys, script := script }

def step (s : CrossThread) : Turn → Except Fault CrossThread
  | .caller => s.callerStep
  | .loop l _ => do
    let sys ← s.sys.step l
    return { s with sys := sys, passed := s.passed ++ (s.sys.passing l).map s.sys.argBytes }

/-- The tasks handed over the bytes of the calls, in the order of the calls, and the calls that are
left are the sends that still wait. -/
def Faithful (s : CrossThread) : Prop :=
  ∃ rest, s.called = s.passed ++ rest ∧ rest.length = s.sys.waiting.length

/-- No store of the script changes these bytes. -/
def Keeps (addr len : Nat) (bytes : List Byte) (script : List CallerAct) : Prop :=
  ∀ mem, .store mem ∈ script → mem.bytes.read addr len = bytes

/-- The bytes at the pointer of a `send(const char*, size_t)` are never changed after it. -/
def LeavesAlone (m : Memory) : List CallerAct → Prop
  | [] => True
  | .store mem :: script => LeavesAlone mem.bytes script
  | .send (.pointer addr len) :: script =>
    Keeps addr len (m.read addr len) script ∧ LeavesAlone m script
  | .send _ :: script => LeavesAlone m script

end CrossThread

/-! ## The loop thread does not touch the sends that wait -/

namespace Sys

/-- The effects queue no send. -/
def QueueNoSend (es : List Effect) : Prop := (es.flatMap Effect.queued).filterMap Task.sends = []

theorem queueNoSend_of_ordinary {es : List Effect} (h : es.all Effect.ordinary = true) :
    QueueNoSend es := by
  unfold QueueNoSend
  rw [List.filterMap_eq_nil_iff]
  intro task hmem
  rcases queued_of_ordinary h task hmem with rfl | rfl <;> rfl

variable {s s' s₁ : Sys} {l : Label}

/-- From `s` to `s'` the caller's memory and the sends that wait are the same. -/
structure Aside (s s' : Sys) : Prop where
  memory : s'.memory = s.memory
  inFlight : s'.inFlight = s.inFlight
  queuedSends : s'.queuedSends = s.queuedSends

theorem Aside.refl (s : Sys) : Aside s s := ⟨rfl, rfl, rfl⟩

theorem Aside.trans (h : Aside s s₁) (h' : Aside s₁ s') : Aside s s' :=
  ⟨h'.memory.trans h.memory, h'.inFlight.trans h.inFlight, h'.queuedSends.trans h.queuedSends⟩

theorem absorb_aside (s : Sys) (c : TcpConnection) {es : List Effect} (h : QueueNoSend es) :
    Aside s (s.absorb c es) := by
  refine ⟨rfl, rfl, ?_⟩
  unfold queuedSends absorb
  rw [List.filterMap_append, h, List.append_nil]

theorem invoke_aside {r : Result} (hr : ∀ {c es}, r = .ok (c, es) → QueueNoSend es)
    (he : s.invoke r = .ok s') : Aside s s' := by
  obtain ⟨c, es, hok, rfl⟩ := invoke_inv he
  exact absorb_aside s c (hr hok)

theorem connectionDestroyed_aside (he : s.invoke (s.conn.connectionDestroyed s.thread) = .ok s') :
    Aside s s' := by
  refine invoke_aside (fun hok => ?_) he
  obtain ⟨-, -, rfl⟩ := connectionDestroyed_inv hok
  have hnotice := queueNoSend_of_ordinary (connectionNotice_ordinary s.conn false)
  unfold QueueNoSend at hnotice ⊢
  simp only [List.cons_append, List.flatMap_cons, List.flatMap_append, List.filterMap_append, hnotice]
  rfl

theorem shutdownInLoop_aside (he : s.invoke (s.conn.shutdownInLoop s.thread) = .ok s') :
    Aside s s' := by
  refine invoke_aside (fun hok => ?_) he
  obtain ⟨-, ⟨-, -, rfl⟩ | ⟨-, -, -, rfl⟩ | ⟨-, -, -, rfl⟩⟩ := shutdownInLoop_inv hok <;>
    exact rfl

theorem sendArgInLoop_aside {arg : SendArg} {w : Int}
    (he : s.invoke (s.conn.sendArgInLoop s.thread s.memory arg w) = .ok s') : Aside s s' :=
  invoke_aside (fun hok => queueNoSend_of_ordinary (sendArgInLoop_ordinary hok)) he

theorem connectionEstablished_aside
    (he : s.invoke (s.conn.connectionEstablished s.thread) = .ok s') : Aside s s' :=
  invoke_aside (fun hok => queueNoSend_of_ordinary (connectionEstablished_ordinary hok)) he

theorem execute_aside {w : Int} {task : Task} (he : s.execute w task = .ok s') : Aside s s' := by
  cases task with
  | connectionEstablished => exact connectionEstablished_aside he
  | connectionDestroyed => exact connectionDestroyed_aside he
  | shutdownInLoop => exact shutdownInLoop_aside he
  | sendString msg => exact sendArgInLoop_aside he
  | sendBuffer buf => exact sendArgInLoop_aside he
  | sendPointer addr len => exact sendArgInLoop_aside he
  | writeCompleteCallback =>
    obtain rfl := Except.ok.inj he
    exact .refl s
  | highWaterCallback =>
    obtain rfl := Except.ok.inj he
    exact .refl s

theorem dispatch_aside {revents : PollEvents} {r : ReadResult} {w : Int}
    (he : s.dispatch revents r w = .ok s') : Aside s s' := by
  have h₀ : Aside s
      { s with conn := { s.conn with channel := s.conn.channel.setReturnEvents revents } } :=
    ⟨rfl, rfl, rfl⟩
  refine runHandlers_rule (I := Aside s) ?_ h₀ he
  intro s₁ c es x h hr
  exact h.trans (absorb_aside s₁ c (queueNoSend_of_ordinary (runHandler_ordinary hr)))

/-- **A step of the loop thread** leaves the caller's memory alone, and takes from the sends that wait
the one it runs. -/
theorem step_aside (hl : l.onLoopThread = true) (he : s.step l = .ok s') :
    s'.memory = s.memory ∧ s'.inFlight = s.inFlight ∧
      s.queuedSends = s.passing l ++ s'.queuedSends := by
  -- every step but `runTask` is aside
  suffices haside : (∀ w, l ≠ .runTask w) → Aside s s' by
    cases l with
    | runTask w =>
      simp only [step] at he
      split at he
      · rename_i hq
        obtain rfl := Except.ok.inj he
        simp [passing, hq]
      · rename_i task rest hq
        obtain ⟨hm, hf, hs⟩ := execute_aside he
        refine ⟨hm, hf, ?_⟩
        rw [hs]
        simp only [queuedSends, record, passing, hq, List.head?_cons, Option.bind_some]
        cases hsend : Task.sends task with
        | none => simp [hsend]
        | some arg => simp [hsend]
    | _ =>
      obtain ⟨hm, hf, hs⟩ := haside (by simp)
      exact ⟨hm, hf, hs.symm⟩
  intro hrun
  cases l with
  | runTask w => exact absurd rfl (hrun w)
  | connectionEstablished => exact connectionEstablished_aside he
  | event revents r w =>
    simp only [step] at he
    split at he
    · exact dispatch_aside he
    · obtain rfl := Except.ok.inj he
      exact .refl s
  | send arg w =>
    have hlogged : Aside s
        (if s.conn.connected then s.record (.sendCalled (s.argBytes arg)) else s) := by
      split
      · exact ⟨rfl, rfl, rfl⟩
      · exact .refl s
    refine hlogged.trans (invoke_aside (fun hok => ?_) he)
    rcases send_inv hok with ⟨-, -, rfl⟩ | ⟨-, -, hsend⟩ | ⟨-, ht, -, -⟩
    · exact rfl
    · exact queueNoSend_of_ordinary (sendArgInLoop_ordinary hsend)
    · exact absurd (ht.symm.trans (inLoopThread _)) (by simp)
  | sendInLoop arg w => exact sendArgInLoop_aside he
  | shutdown =>
    have hlogged : Aside s (if s.conn.connected then
        (s.record .shutdownCalled).record (.ran .shutdownInLoop) else s) := by
      split
      · exact ⟨rfl, rfl, rfl⟩
      · exact .refl s
    refine hlogged.trans (invoke_aside (fun hok => ?_) he)
    rcases shutdown_inv hok with ⟨-, -, rfl⟩ | ⟨-, -, rfl⟩
    · exact rfl
    · rw [if_pos (inLoopThread _)]
      exact rfl
  | shutdownInLoop => exact shutdownInLoop_aside he
  | useSendBuffer buf =>
    obtain rfl := Except.ok.inj he
    exact ⟨rfl, rfl, rfl⟩
  | queueDestroyed =>
    obtain rfl := Except.ok.inj he
    refine ⟨rfl, rfl, ?_⟩
    simp [queuedSends, Task.sends]
  | sendCheck arg => exact absurd hl (by simp [Label.onLoopThread])
  | shutdownCheck => exact absurd hl (by simp [Label.onLoopThread])
  | advance i => exact absurd hl (by simp [Label.onLoopThread])
  | store m => exact absurd hl (by simp [Label.onLoopThread])

/-- What an argument stands for depends on the memory only. -/
theorem argBytes_congr (h : s'.memory = s.memory) : s'.argBytes = s.argBytes := by
  funext arg
  cases arg with
  | string msg => rfl
  | buffer buf => rfl
  | pointer addr len => simp only [argBytes, h]

/-- Bytes are owned by the task of `send(std::string)` and of `send(Buffer&)`. -/
theorem argBytes_of_kept {arg : SendArg}
    (h : ∀ addr len, arg = .pointer addr len → s'.memory.read addr len = s.memory.read addr len) :
    s'.argBytes arg = s.argBytes arg := by
  cases arg with
  | string msg => rfl
  | buffer buf => rfl
  | pointer addr len => exact h addr len rfl

end Sys

namespace CrossThread

variable {s s' : CrossThread} {turn : Turn}

/-! ## The steps of the caller -/

/-- The call in flight pushes its task. -/
def pushed (s : CrossThread) (arg : SendArg) : CrossThread :=
  { s with sys := { s.sys with inFlight := [], taskQueue := s.sys.taskQueue ++ [arg.task] } }

def stored (s : CrossThread) (mem : CallerMemory) (script : List CallerAct) : CrossThread :=
  { s with
    sys := { s.sys with memory := mem.bytes }
    script := script
    strings := mem.strings
    buffers := mem.buffers }

/-- A call passed the test of `state_`. -/
def sent (s : CrossThread) (a : CallerArg) (script : List CallerAct) : CrossThread :=
  { s with
    sys := { s.sys with inFlight := [InFlight.sendPush (s.arg a)] }.record
      (.sendCalled (s.sys.argBytes (s.arg a)))
    script := script
    buffers := s.swapped a
    called := s.called ++ [s.sys.argBytes (s.arg a)] }

theorem callerStep_push {arg : SendArg} (h : s.sys.inFlight = [.sendPush arg]) :
    s.callerStep = .ok (s.pushed arg) := by
  simp [callerStep, h, Sys.step, Sys.advance, pushed, pure, Except.pure]

theorem callerStep_store {mem : CallerMemory} {script : List CallerAct} (h : s.sys.inFlight = [])
    (hs : s.script = .store mem :: script) : s.callerStep = .ok (s.stored mem script) := by
  simp [callerStep, h, hs, Sys.step, stored, pure, Except.pure]

theorem callerStep_send {a : CallerArg} {script : List CallerAct} (h : s.sys.inFlight = [])
    (hs : s.script = .send a :: script) :
    s.callerStep =
      .ok (if s.sys.conn.connected then s.sent a script else { s with script := script }) := by
  by_cases hconn : s.sys.conn.connected = true
  · simp [callerStep, h, hs, Sys.step, hconn, sent, Sys.record, pure, Except.pure]
  · simp [callerStep, h, hs, Sys.step, hconn, pure, Except.pure]

/-- One call at a time: nothing in flight, or one push. -/
def OneCall (s : CrossThread) : Prop :=
  s.sys.inFlight = [] ∨ ∃ arg, s.sys.inFlight = [.sendPush arg]

/-! ## A script that leaves the bytes alone -/

/-- The invariant: what the waiting sends stand for now is what they were called with, and the rest of
the script does not change it. -/
structure Carried (s : CrossThread) : Prop where
  oneCall : s.OneCall
  called : s.called = s.passed ++ s.sys.waiting.map s.sys.argBytes
  kept : ∀ addr len, .pointer addr len ∈ s.sys.waiting →
    Keeps addr len (s.sys.memory.read addr len) s.script
  alone : LeavesAlone s.sys.memory s.script

theorem Carried.faithful (h : Carried s) : Faithful s :=
  ⟨_, h.called, List.length_map _⟩

theorem sends_task (arg : SendArg) : Sys.Task.sends arg.task = some arg := by
  cases arg <;> rfl

theorem waiting_pushed {arg : SendArg} (h : s.sys.inFlight = [.sendPush arg]) :
    (s.pushed arg).sys.waiting = s.sys.waiting := by
  simp [Sys.waiting, Sys.queuedSends, pushed, h, Sys.InFlight.pushes, sends_task]

theorem waiting_sent (h : s.sys.inFlight = []) (a : CallerArg) (script : List CallerAct) :
    (s.sent a script).sys.waiting = s.sys.waiting ++ [s.arg a] := by
  simp [Sys.waiting, Sys.queuedSends, sent, Sys.record, h, Sys.InFlight.pushes]

theorem Keeps.tail {addr len : Nat} {bytes : List Byte} {x : CallerAct} {script : List CallerAct}
    (h : Keeps addr len bytes (x :: script)) : Keeps addr len bytes script :=
  fun mem hmem => h mem (List.mem_cons_of_mem _ hmem)

theorem LeavesAlone.tail {m : Memory} {a : CallerArg} {script : List CallerAct}
    (h : LeavesAlone m (.send a :: script)) : LeavesAlone m script := by
  cases a with
  | string i => exact h
  | buffer i => exact h
  | pointer addr len => exact h.2

theorem Carried.pushed (h : Carried s) {arg : SendArg} (hf : s.sys.inFlight = [.sendPush arg]) :
    Carried (s.pushed arg) := by
  refine ⟨Or.inl rfl, ?_, ?_, h.alone⟩
  · rw [waiting_pushed hf]
    exact h.called
  · rw [waiting_pushed hf]
    exact h.kept

theorem Carried.stored (h : Carried s) {mem : CallerMemory} {script : List CallerAct}
    (hf : s.sys.inFlight = []) (hs : s.script = .store mem :: script) :
    Carried (s.stored mem script) := by
  have hkept := h.kept
  have halone := h.alone
  rw [hs] at hkept halone
  have hsame : ∀ addr len, .pointer addr len ∈ s.sys.waiting →
      mem.bytes.read addr len = s.sys.memory.read addr len :=
    fun addr len hmem => hkept addr len hmem mem List.mem_cons_self
  refine ⟨Or.inl hf, ?_, ?_, halone⟩
  · refine h.called.trans (congrArg (s.passed ++ ·) (List.map_congr_left fun arg harg => ?_))
    refine (Sys.argBytes_of_kept (s := s.sys) ?_).symm
    rintro addr len rfl
    exact hsame addr len harg
  · intro addr len hmem
    change Keeps addr len (mem.bytes.read addr len) script
    rw [hsame addr len hmem]
    exact (hkept addr len hmem).tail

theorem Carried.sent (h : Carried s) {a : CallerArg} {script : List CallerAct}
    (hf : s.sys.inFlight = []) (hs : s.script = .send a :: script) : Carried (s.sent a script) := by
  have hkept := h.kept
  have halone := h.alone
  rw [hs] at hkept halone
  refine ⟨Or.inr ⟨_, rfl⟩, ?_, ?_, halone.tail⟩
  · rw [waiting_sent hf, List.map_append, ← List.append_assoc]
    exact congrArg (· ++ _) h.called
  · rw [waiting_sent hf]
    intro addr len hmem
    rcases List.mem_append.mp hmem with hold | hnew
    · exact (hkept addr len hold).tail
    · cases a with
      | string i => exact absurd (List.mem_singleton.mp hnew) (by simp [arg])
      | buffer i => exact absurd (List.mem_singleton.mp hnew) (by simp [arg])
      | pointer addr' len' =>
        obtain ⟨rfl, rfl⟩ := SendArg.pointer.inj (List.mem_singleton.mp hnew)
        exact halone.1

theorem Carried.loop (h : Carried s) {l : Label} {sys : Sys} (hl : l.onLoopThread = true)
    (he : s.sys.step l = .ok sys) :
    Carried { s with sys := sys, passed := s.passed ++ (s.sys.passing l).map s.sys.argBytes } := by
  obtain ⟨hm, hf, hq⟩ := Sys.step_aside hl he
  have hwait : s.sys.waiting = s.sys.passing l ++ sys.waiting := by
    unfold Sys.waiting
    rw [hq, hf, List.append_assoc]
  refine ⟨?_, ?_, ?_, ?_⟩
  · unfold OneCall
    rw [hf]
    exact h.oneCall
  · have hcalled := h.called
    rw [hwait, List.map_append, ← List.append_assoc] at hcalled
    simp only [Sys.argBytes_congr hm]
    exact hcalled
  · intro addr len hmem
    simp only [hm]
    exact h.kept addr len (hwait ▸ List.mem_append_right _ hmem)
  · simp only [hm]
    exact h.alone

theorem step_carried (h : Carried s) (he : s.step turn = .ok s') : Carried s' := by
  cases turn with
  | loop l hl =>
    obtain ⟨sys, hsys, hret⟩ := bind_ok_inv he
    obtain rfl := Except.ok.inj hret
    exact h.loop hl hsys
  | caller =>
    rcases h.oneCall with hf | ⟨arg, hf⟩
    · cases hs : s.script with
      | nil =>
        simp only [step, callerStep, hf, hs] at he
        obtain rfl := Except.ok.inj he
        exact h
      | cons x script =>
        cases x with
        | store mem =>
          rw [step, callerStep_store hf hs] at he
          obtain rfl := Except.ok.inj he
          exact h.stored hf hs
        | send a =>
          rw [step, callerStep_send hf hs] at he
          obtain rfl := Except.ok.inj he
          split
          · exact h.sent hf hs
          · have hkept := h.kept
            have halone := h.alone
            rw [hs] at hkept halone
            exact ⟨h.oneCall, h.called, fun addr len hmem => (hkept addr len hmem).tail, halone.tail⟩
    · rw [step, callerStep_push hf] at he
      obtain rfl := Except.ok.inj he
      exact h.pushed hf

/-! ## A script that does not

From an idle connection the loop thread can run every queued send, with `::write` taking everything:
each then hands over what its argument stands for at that moment. -/

/-- A buffer in the argument is usable. -/
def Owned (arg : SendArg) : Prop := ∀ buf, arg = .buffer buf → Usable buf

theorem arg_owned (s : CrossThread) (a : CallerArg) : Owned (s.arg a) := by
  intro buf hbuf
  cases a with
  | string i => exact absurd hbuf (by simp [arg])
  | pointer addr len => exact absurd hbuf (by simp [arg])
  | buffer i =>
    obtain rfl := SendArg.buffer.inj hbuf
    exact (s.buffers i).property

/-- With nothing pending, a `sendInLoop` whose write takes everything leaves the connection as it
is. -/
theorem sendArgInLoop_full {c : TcpConnection} {t : ThreadId} (ht : isInLoopThread c.loop t = true)
    (hd : c.writesDirectly = true) {arg : SendArg} (ho : Owned arg) (sys : Sys) :
    ∃ es, c.sendArgInLoop t sys.memory arg (sys.argBytes arg).length = .ok (c, es) := by
  have hplain : ∀ msg : List Byte,
      c.sendInLoop t msg msg.length = .ok (c, c.directWrite msg msg.length) := by
    intro msg
    unfold sendInLoop
    rw [assertInLoopThread, if_pos ht, ok_bind, directlyWritten, if_pos hd, Int.toNat_natCast,
      if_neg (Nat.lt_irrefl _)]
    rfl
  cases arg with
  | string msg => exact ⟨_, hplain msg⟩
  | pointer addr len => exact ⟨_, hplain (sys.memory.read addr len)⟩
  | buffer buf =>
    have hb := (ho buf rfl).toWf
    have hall : buf.retrieve buf.readable.length = buf.retrieveAll :=
      if_pos (Nat.le_of_eq hb.readableBytes_eq_length)
    refine ⟨[.write (buf.readable.take buf.readable.length)], ?_⟩
    simp only [sendArgInLoop, sendBufferInLoop, directBufferWrite, assertInLoopThread, if_pos ht,
      ok_bind, if_pos hd, peek_readable hb, Sys.argBytes, Int.toNat_natCast, Int.natCast_nonneg, if_true,
      pure, Except.pure, hall, readableBytes_retrieveAll, Nat.lt_irrefl, if_false]

theorem execute_task (sys : Sys) (w : Int) (arg : SendArg) :
    sys.execute w arg.task = sys.invoke (sys.conn.sendArgInLoop sys.thread sys.memory arg w) := by
  cases arg <;> rfl

/-- The loop thread runs the send at the front of the queue. -/
theorem run_front (hd : s.sys.conn.writesDirectly = true) {arg : SendArg} (ho : Owned arg)
    {rest : List Task} (hq : s.sys.taskQueue = arg.task :: rest) :
    ∃ w sys, s.step (.loop (.runTask w) rfl) =
        .ok { s with sys := sys, passed := s.passed ++ [s.sys.argBytes arg] } ∧
      sys.conn = s.sys.conn ∧ sys.memory = s.sys.memory ∧ sys.inFlight = s.sys.inFlight ∧
      ∃ new, sys.taskQueue = rest ++ new ∧ new.filterMap Sys.Task.sends = [] := by
  let s₀ := { s.sys with taskQueue := rest }.record (.ran arg.task)
  obtain ⟨es, hsend⟩ := sendArgInLoop_full s₀.inLoopThread hd ho s₀
  refine ⟨(s.sys.argBytes arg).length, s₀.absorb s.sys.conn es, ?_, rfl, rfl, rfl,
    es.flatMap Effect.queued, rfl, Sys.queueNoSend_of_ordinary (sendArgInLoop_ordinary hsend)⟩
  have hbytes : s₀.argBytes = s.sys.argBytes := Sys.argBytes_congr rfl
  have hexec : s.sys.step (.runTask (s.sys.argBytes arg).length) = .ok (s₀.absorb s.sys.conn es) := by
    rw [hbytes] at hsend
    simp only [Sys.step, hq]
    rw [execute_task, Sys.invoke]
    change s₀.conn.sendArgInLoop s₀.thread s₀.memory arg _ >>= _ = _
    rw [hsend]
    rfl
  simp only [step, hexec, ok_bind, Sys.passing, hq, List.head?_cons, Option.bind_some, sends_task,
    Option.toList_some, List.map_cons, List.map_nil]
  rfl

theorem drain {args : List SendArg} (ho : ∀ arg ∈ args, Owned arg)
    (hd : s.sys.conn.writesDirectly = true) (hf : s.sys.inFlight = []) (tail : List Task)
    (htail : tail.filterMap Sys.Task.sends = [])
    (hq : s.sys.taskQueue = args.map SendArg.task ++ tail) :
    ∃ turns t, run step s turns = .ok t ∧ t.called = s.called ∧
      t.passed = s.passed ++ args.map s.sys.argBytes ∧ t.sys.waiting = [] := by
  induction args generalizing s tail with
  | nil =>
    refine ⟨[], s, rfl, rfl, by simp, ?_⟩
    simp only [List.map_nil, List.nil_append] at hq
    simp only [Sys.waiting, Sys.queuedSends, hq, htail, hf, List.filterMap_nil, List.append_nil]
  | cons arg args ih =>
    obtain ⟨w, sys, hstep, hconn, hmem, hfl, new, hqueue, hnew⟩ :=
      run_front hd (ho arg List.mem_cons_self) hq
    obtain ⟨turns, t, hrun, hcalled, hpassed, hwait⟩ :=
      ih (s := { s with sys := sys, passed := s.passed ++ [s.sys.argBytes arg] })
        (fun x hx => ho x (List.mem_cons_of_mem _ hx)) (hconn ▸ hd) (hfl.trans hf)
        (tail ++ new) (by rw [List.filterMap_append, htail, hnew]; rfl)
        (hqueue.trans (List.append_assoc _ _ _))
    refine ⟨_ :: turns, t, (run_cons_ok hstep).mpr hrun, hcalled, ?_, hwait⟩
    rw [hpassed]
    simp only [Sys.argBytes_congr hmem, List.map_cons, List.append_assoc, List.singleton_append]

/-- An idle connection with the sends `args` in its queue, all as they were called. -/
structure Ready (s : CrossThread) (args : List SendArg) : Prop where
  connected : s.sys.conn.connected = true
  direct : s.sys.conn.writesDirectly = true
  inFlight : s.sys.inFlight = []
  queue : s.sys.taskQueue = args.map SendArg.task
  owned : ∀ arg ∈ args, Owned arg
  called : s.called = s.passed ++ args.map s.sys.argBytes

theorem Ready.drained {args : List SendArg} (hd : s.sys.conn.writesDirectly = true)
    (hf : s.sys.inFlight = []) (hq : s.sys.taskQueue = args.map SendArg.task)
    (ho : ∀ arg ∈ args, Owned arg) (h : ∀ turns t, run step s turns = .ok t → Faithful t) :
    s.called = s.passed ++ args.map s.sys.argBytes := by
  obtain ⟨turns, t, hrun, hcalled, hpassed, hwait⟩ := drain ho hd hf [] rfl (by simpa using hq)
  obtain ⟨rest, heq, hlen⟩ := h turns t hrun
  rw [hwait, List.length_nil] at hlen
  rw [List.length_eq_zero_iff.mp hlen, List.append_nil] at heq
  rw [← hcalled, heq, hpassed]

theorem Ready.sent {args : List SendArg} (h : Ready s args) {a : CallerArg}
    {script : List CallerAct} :
    Ready ((s.sent a script).pushed (s.arg a)) (args ++ [s.arg a]) := by
  refine ⟨h.connected, h.direct, rfl, ?_, ?_, ?_⟩
  · change s.sys.taskQueue ++ [(s.arg a).task] = _
    rw [h.queue, List.map_append]
    rfl
  · intro arg harg
    rcases List.mem_append.mp harg with hold | hnew
    · exact h.owned arg hold
    · rw [List.mem_singleton.mp hnew]
      exact s.arg_owned a
  · rw [List.map_append, ← List.append_assoc]
    exact congrArg (· ++ [s.sys.argBytes (s.arg a)]) h.called

/-- Faithful under every schedule: the script leaves alone what it sends, and what is queued. -/
theorem leavesAlone_of_faithful {script : List CallerAct} {args : List SendArg} (hr : Ready s args)
    (hs : s.script = script) (h : ∀ turns t, run step s turns = .ok t → Faithful t) :
    LeavesAlone s.sys.memory script ∧ ∀ addr len, .pointer addr len ∈ args →
      Keeps addr len (s.sys.memory.read addr len) script := by
  induction script generalizing s args with
  | nil => exact ⟨trivial, fun addr len _ mem hmem => absurd hmem List.not_mem_nil⟩
  | cons x script ih =>
    cases x with
    | store mem =>
      have hstep : s.step .caller = .ok (s.stored mem script) := callerStep_store hr.inFlight hs
      have hafter : ∀ turns t, run step (s.stored mem script) turns = .ok t → Faithful t :=
        fun turns t hrun => h (.caller :: turns) t ((run_cons_ok hstep).mpr hrun)
      have hcalled := Ready.drained (s := s.stored mem script) hr.direct hr.inFlight hr.queue hr.owned
        hafter
      obtain ⟨halone, hkept⟩ :=
        ih (s := s.stored mem script)
          ⟨hr.connected, hr.direct, hr.inFlight, hr.queue, hr.owned, hcalled⟩ rfl hafter
      have hsame := List.append_cancel_left (hr.called.symm.trans hcalled)
      rw [List.map_inj_left] at hsame
      refine ⟨halone, fun addr len hmem mem' hmem' => ?_⟩
      have hread : s.sys.memory.read addr len = mem.bytes.read addr len := hsame _ hmem
      rcases List.mem_cons.mp hmem' with heq | htail
      · obtain rfl := CallerAct.store.inj heq
        exact hread.symm
      · exact (hkept addr len hmem mem' htail).trans hread.symm
    | send a =>
      have hstep : s.step .caller = .ok (s.sent a script) := by
        rw [step, callerStep_send hr.inFlight hs, if_pos hr.connected]
      have hpush : (s.sent a script).step .caller = .ok ((s.sent a script).pushed (s.arg a)) :=
        callerStep_push (s := s.sent a script) rfl
      obtain ⟨halone, hkept⟩ :=
        ih (s := (s.sent a script).pushed (s.arg a)) hr.sent rfl fun turns t hrun =>
          h (.caller :: .caller :: turns) t
            ((run_cons_ok hstep).mpr ((run_cons_ok hpush).mpr hrun))
      have hold : ∀ addr len, .pointer addr len ∈ args →
          Keeps addr len (s.sys.memory.read addr len) (.send a :: script) := by
        intro addr len hmem mem hstore
        rcases List.mem_cons.mp hstore with heq | htail
        · exact absurd heq (by simp)
        · exact hkept addr len (List.mem_append_left _ hmem) mem htail
      refine ⟨?_, hold⟩
      cases a with
      | string i => exact halone
      | buffer i => exact halone
      | pointer addr len =>
        exact ⟨hkept addr len (List.mem_append_right _ List.mem_cons_self), halone⟩

/-- An established connection is idle, with nothing queued. -/
theorem start_ready {u : Setup} {loop : LoopId} {name : String} {fd : Int} {s₀ : Sys}
    (hstart : (Sys.start u loop name fd).step .connectionEstablished = .ok s₀)
    (script : List CallerAct) (mem : CallerMemory) : Ready (start s₀ script mem) [] := by
  obtain ⟨c, es, hest, rfl⟩ := Sys.invoke_inv hstart
  obtain ⟨-, -, rfl, rfl⟩ := connectionEstablished_inv hest
  refine ⟨rfl, ?_, rfl, ?_, fun arg harg => absurd harg List.not_mem_nil, rfl⟩
  · have hempty : Buffer.fresh.readableBytes = 0 := readableBytes_retrieveAll Buffer.fresh
    change (!false && Buffer.fresh.readableBytes == 0) = true
    rw [hempty]
    rfl
  · simp only [start, Sys.absorb, connectionNotice]
    split <;> rfl

/-- **The bytes of the call.** On an established connection the tasks hand over the bytes of the
calls, in the order of the calls, under every schedule of the two threads, if and only if the caller
never changes bytes that it sent by pointer. -/
theorem bytes_of_the_call_iff {u : Setup} {loop : LoopId} {name : String} {fd : Int} {s₀ : Sys}
    (hstart : (Sys.start u loop name fd).step .connectionEstablished = .ok s₀)
    (script : List CallerAct) (mem : CallerMemory) :
    (∀ turns t, run step (start s₀ script mem) turns = .ok t → Faithful t) ↔
      LeavesAlone mem.bytes script := by
  have hready := start_ready hstart script mem
  constructor
  · intro h
    exact (leavesAlone_of_faithful hready rfl h).1
  · intro halone turns t hrun
    have h₀ : Carried (start s₀ script mem) := by
      have hwait : (start s₀ script mem).sys.waiting = [] := by
        simp [Sys.waiting, Sys.queuedSends, hready.queue, hready.inFlight]
      refine ⟨Or.inl hready.inFlight, ?_, ?_, halone⟩
      · rw [hwait]
        rfl
      · rw [hwait]
        exact fun addr len hmem => absurd hmem List.not_mem_nil
    exact (run_preserves (I := Carried) step_carried h₀ hrun).faithful

/-- The caller's memory: `x` at address 100, `y` behind it, one string and empty buffers. -/
def holding (x y : Byte) : CallerMemory where
  bytes := fun addr => if addr = 100 then x else if addr = 101 then y else 0
  strings := fun _ => [1, 2, 3]
  buffers := fun _ => ⟨Buffer.fresh, usable_fresh⟩

/-- All three overloads; the byte behind the one sent by pointer is reused. -/
def reuseBehind : List CallerAct :=
  [.send (.string 0), .send (.pointer 100 1), .store (holding 7 9), .send (.buffer 0)]

theorem bytes_of_the_call_iff_reuseBehind :
    ∃ s₀, (Sys.start Sys.plainSetup 0 "server#1" 5).step .connectionEstablished = .ok s₀ ∧
      ∀ turns t, run step (start s₀ reuseBehind (holding 7 8)) turns = .ok t → Faithful t := by
  obtain ⟨s₀, hstart, -⟩ :
      ∃ s₀, (Sys.start Sys.plainSetup 0 "server#1" 5).step .connectionEstablished = .ok s₀ ∧
        s₀.conn.connected = true := by decide +kernel
  have halone : LeavesAlone (holding 7 8).bytes reuseBehind := by
    refine ⟨?_, trivial⟩
    intro mem hmem
    simp only [List.mem_cons, List.not_mem_nil, or_false, reduceCtorEq, CallerAct.store.injEq] at hmem
    rw [hmem]
    rfl
  exact ⟨s₀, hstart, (bytes_of_the_call_iff hstart reuseBehind (holding 7 8)).mpr halone⟩

/-- Two bytes are sent by pointer, the caller reuses them, and then the task runs: it sends the new
ones. -/
theorem bytes_of_the_call_reused :
    ∃ s₀, (Sys.start Sys.plainSetup 0 "server#1" 5).step .connectionEstablished = .ok s₀ ∧
      ∃ t, run step (start s₀ [.send (.pointer 100 2), .store (holding 5 6)] (holding 7 8))
          [.caller, .caller, .caller, .loop (.runTask 2) rfl] = .ok t ∧
        t.called = [[7, 8]] ∧ t.passed = [[5, 6]] ∧ ¬ Faithful t := by
  obtain ⟨s₀, hstart, t, hrun, hcalled, hpassed⟩ :
      ∃ s₀, (Sys.start Sys.plainSetup 0 "server#1" 5).step .connectionEstablished = .ok s₀ ∧
        ∃ t, run step (start s₀ [.send (.pointer 100 2), .store (holding 5 6)] (holding 7 8))
            [.caller, .caller, .caller, .loop (.runTask 2) rfl] = .ok t ∧
          t.called = [[7, 8]] ∧ t.passed = [[5, 6]] := by decide +kernel
  refine ⟨s₀, hstart, t, hrun, hcalled, hpassed, ?_⟩
  rintro ⟨rest, heq, -⟩
  rw [hcalled, hpassed] at heq
  exact absurd heq (by simp)

end CrossThread

end HyperMuduo.Net.TcpConnection
