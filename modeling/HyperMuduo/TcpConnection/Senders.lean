import Mathlib.Data.List.InsertIdx
import HyperMuduo.Lib.Tagged
import HyperMuduo.TcpConnection.CrossThread
import HyperMuduo.TcpConnection.PendingOutput

/-!
# Many threads send on one connection

Any number of threads call `send(std::string)`, `send(Buffer&)` and `shutdown` on one connection, beside
the loop thread, which sends itself, executes the queue, and dispatches events. A call is cut at the test
of `state_`, the store of `Disconnecting` and the push of the task; a thread is in one call at a time.
`send(const char*, size_t)` is left to the loop thread: from another one it lends its bytes
(`CrossThread`).

The ghosts name the thread of every call in flight (`flying`) and of every send on the queue (`queue`).
`called` are the sends that passed the test, with their threads, and `handed` the sends `sendInLoop` was
called for, where `none` is the loop thread's own.

**`sends_whole_and_in_order`**: what `::write` took and what `send_buffer_` holds are the handed sends
one after another, each in one piece; and of every thread they are its calls in its order, none lost and
none twice, up to those that still wait.
-/

namespace HyperMuduo.Net.TcpConnection

open HyperMuduo.Lib HyperMuduo.Net.Buffer

/-- The bytes are the task's own. -/
def SendArg.ByValue : SendArg → Prop
  | .pointer _ _ => False
  | _ => True

/-- A step on the loop thread, or a store, that leaves `sendBuffer()` to the connection. -/
def Label.Plain : Label → Prop
  | .send arg _ | .sendInLoop arg _ => arg.Valid
  | .useSendBuffer _ | .sendCheck _ | .shutdownCheck | .advance _ => False
  | _ => True

/-! ## The bytes of a step -/

namespace Sys

/-- The loop thread's own `sendInLoop` in a step. -/
def ownSend (s : Sys) : Label → Option SendArg
  | .send arg _ => if s.conn.connected then some arg else none
  | .sendInLoop arg _ => some arg
  | _ => none

/-- From `s` to `s'` the output is longer by these bytes. -/
structure Outputs (s s' : Sys) (bytes : List Byte) : Prop where
  usable : Usable s'.conn.sendBuffer
  output : accepted s'.effects ++ s'.conn.sendBuffer.readable =
    accepted s.effects ++ s.conn.sendBuffer.readable ++ bytes

variable {s s' s₁ : Sys} {l : Label} {c : TcpConnection} {es : List Effect} {bytes : List Byte}

theorem Outputs.of_same (h : Usable s.conn.sendBuffer) (hb : s'.conn.sendBuffer = s.conn.sendBuffer)
    (he : s'.effects = s.effects) : Outputs s s' [] :=
  ⟨hb ▸ h, by rw [hb, he, List.append_nil]⟩

theorem Outputs.after_same (h : Outputs s₁ s' bytes) (hb : s₁.conn.sendBuffer = s.conn.sendBuffer)
    (he : s₁.effects = s.effects) : Outputs s s' bytes :=
  ⟨h.usable, by rw [h.output, hb, he]⟩

theorem Outputs.absorb (hu : Usable c.sendBuffer)
    (hes : accepted es ++ c.sendBuffer.readable = s.conn.sendBuffer.readable ++ bytes) :
    Outputs s (s.absorb c es) bytes := by
  refine ⟨hu, ?_⟩
  rw [effects_absorb, accepted_append, List.append_assoc, List.append_assoc]
  exact congrArg (accepted s.effects ++ ·) hes

/-- A member function that sends nothing. -/
theorem Outputs.absorb_quiet (h : Usable s.conn.sendBuffer) (hb : c.sendBuffer = s.conn.sendBuffer)
    (hes : accepted es = []) : Outputs s (s.absorb c es) [] := by
  refine .absorb (hb ▸ h) ?_
  rw [hes, hb, List.append_nil]
  rfl

theorem accepted_connectionNotice (c : TcpConnection) (b : Bool) :
    accepted (c.connectionNotice b) = [] := by
  unfold connectionNotice
  split <;> rfl

theorem connectionEstablished_outputs (h : Usable s.conn.sendBuffer)
    (he : s.invoke (s.conn.connectionEstablished s.thread) = .ok s') : Outputs s s' [] := by
  obtain ⟨c, es, hok, rfl⟩ := invoke_inv he
  obtain ⟨-, -, rfl, rfl⟩ := connectionEstablished_inv hok
  exact .absorb_quiet h rfl (accepted_connectionNotice ..)

theorem connectionDestroyed_outputs (h : Usable s.conn.sendBuffer)
    (he : s.invoke (s.conn.connectionDestroyed s.thread) = .ok s') : Outputs s s' [] := by
  obtain ⟨c, es, hok, rfl⟩ := invoke_inv he
  obtain ⟨-, rfl, rfl⟩ := connectionDestroyed_inv hok
  refine .absorb_quiet h rfl ?_
  rw [List.cons_append, accepted_updateChannel, accepted_append, accepted_connectionNotice]
  rfl

theorem shutdownInLoop_outputs (h : Usable s.conn.sendBuffer)
    (he : s.invoke (s.conn.shutdownInLoop s.thread) = .ok s') : Outputs s s' [] := by
  obtain ⟨c, es, hok, rfl⟩ := invoke_inv he
  obtain ⟨-, ⟨-, rfl, rfl⟩ | ⟨-, -, rfl, rfl⟩ | ⟨-, -, rfl, rfl⟩⟩ := shutdownInLoop_inv hok <;>
    exact .absorb_quiet h rfl rfl

theorem handler_outputs {r : ReadResult} {w : Int} {x : Handler} (h : Usable s.conn.sendBuffer)
    (hok : s.conn.runHandler s.thread r w x = .ok (c, es)) : Outputs s (s.absorb c es) [] := by
  cases x with
  | handleReadable =>
    refine .absorb_quiet h (handleReadable_wiring hok).2 ?_
    obtain ⟨-, rb, -, ⟨-, hclose⟩ | ⟨-, -, rfl⟩⟩ := handleReadable_inv hok
    · obtain ⟨-, -, cb, -, -, rfl⟩ := handleClose_inv hclose
      rfl
    · split <;> rfl
  | handleWritable =>
    obtain ⟨hu, hbytes, -⟩ := handleWritable_bytes h hok
    refine .absorb hu ?_
    rw [hbytes, List.append_nil]

theorem sendArgInLoop_outputs {arg : SendArg} {w : Int} (h : Usable s.conn.sendBuffer)
    (harg : arg.Valid) (hok : s.conn.sendArgInLoop s.thread s.memory arg w = .ok (c, es)) :
    Outputs s (s.absorb c es) (s.argBytes arg) := by
  cases arg with
  | string msg =>
    obtain ⟨hu, hbytes, -⟩ := sendInLoop_bytes h harg hok
    exact .absorb hu hbytes
  | pointer addr len =>
    have hlen : (s.memory.read addr len).length ≤ maxSize := by
      simpa [Memory.read] using (show len ≤ maxSize from harg)
    obtain ⟨hu, hbytes, -⟩ := sendInLoop_bytes h hlen hok
    exact .absorb hu hbytes
  | buffer buf =>
    obtain ⟨buf', hsend⟩ := sendArgInLoop_buffer_inv hok
    obtain ⟨hu, hbytes, -⟩ := sendBufferInLoop_bytes h harg hsend
    exact .absorb hu hbytes

/-- The bytes that a step hands to `sendInLoop`: a queued send's, or the loop thread's own. -/
def handing (s : Sys) (l : Label) : List Byte :=
  ((s.passing l ++ (s.ownSend l).toList).map s.argBytes).flatten

theorem execute_outputs {w : Int} {task : Task} (h : Usable s.conn.sendBuffer)
    (hvalid : ∀ arg, Task.sends task = some arg → arg.Valid) (he : s.execute w task = .ok s') :
    Outputs s s' ((Task.sends task).toList.map s.argBytes).flatten := by
  cases task with
  | connectionEstablished => exact connectionEstablished_outputs h he
  | connectionDestroyed => exact connectionDestroyed_outputs h he
  | shutdownInLoop => exact shutdownInLoop_outputs h he
  | sendString msg =>
    obtain ⟨c, es, hok, rfl⟩ := invoke_inv he
    simpa [Task.sends] using sendArgInLoop_outputs h (hvalid _ rfl) hok
  | sendBuffer buf =>
    obtain ⟨c, es, hok, rfl⟩ := invoke_inv he
    simpa [Task.sends] using sendArgInLoop_outputs h (hvalid _ rfl) hok
  | sendPointer addr len =>
    obtain ⟨c, es, hok, rfl⟩ := invoke_inv he
    simpa [Task.sends] using sendArgInLoop_outputs h (hvalid _ rfl) hok
  | writeCompleteCallback =>
    obtain rfl := Except.ok.inj he
    exact .of_same h rfl rfl
  | highWaterCallback =>
    obtain rfl := Except.ok.inj he
    exact .of_same h rfl rfl

/-- **The output grows by what a step hands over**, whatever `::write` takes of it. -/
theorem step_outputs (hl : l.Plain) (hq : ∀ arg ∈ s.passing l, arg.Valid)
    (h : Usable s.conn.sendBuffer) (he : s.step l = .ok s') : Outputs s s' (s.handing l) := by
  cases l with
  | connectionEstablished => exact connectionEstablished_outputs h he
  | event revents r w =>
    simp only [step] at he
    split at he
    · have h₀ : Outputs s
          { s with conn := { s.conn with channel := s.conn.channel.setReturnEvents revents } } [] :=
        .of_same h rfl rfl
      refine runHandlers_rule (I := fun s₁ => Outputs s s₁ []) ?_ h₀ he
      intro s₁ c es x h₁ hok
      have hx := handler_outputs h₁.usable hok
      exact ⟨hx.usable, by rw [hx.output, h₁.output, List.append_nil]⟩
    · obtain rfl := Except.ok.inj he
      exact .of_same h rfl rfl
  | runTask w =>
    simp only [step] at he
    split at he
    · rename_i hempty
      obtain rfl := Except.ok.inj he
      rw [handing, passing, hempty]
      exact .of_same h rfl rfl
    · rename_i task rest hcons
      have hpassing : s.passing (.runTask w) = (Task.sends task).toList := by
        rw [passing, hcons]
        rfl
      have hvalid : ∀ arg, Task.sends task = some arg → arg.Valid := by
        intro arg harg
        refine hq arg ?_
        rw [hpassing, harg]
        exact List.mem_singleton_self _
      rw [handing, hpassing]
      simp only [ownSend, Option.toList_none, List.append_nil]
      have hrun := execute_outputs (s := { s with taskQueue := rest }.record (.ran task)) h hvalid he
      exact hrun.after_same rfl (effects_record (by simp))
  | send arg w =>
    obtain ⟨c, es, hok, rfl⟩ := invoke_inv he
    rw [handing, ownSend]
    by_cases hconn : s.conn.connected = true
    · simp only [if_pos hconn, passing, List.nil_append, Option.toList_some, List.map_cons,
        List.map_nil, List.flatten_cons, List.flatten_nil, List.append_nil] at hok ⊢
      rcases send_inv hok with ⟨hc, -⟩ | ⟨-, -, hsend⟩ | ⟨-, ht, -⟩
      · exact absurd hconn (by simpa [connected] using (show s.conn.state ≠ .connected from hc))
      · exact (sendArgInLoop_outputs (s := s.record (.sendCalled (s.argBytes arg))) h hl
          hsend).after_same rfl (effects_record (by simp))
      · exact absurd (ht.symm.trans (inLoopThread (s.record _))) (by simp)
    · simp only [if_neg hconn] at hok ⊢
      rcases send_inv hok with ⟨-, rfl, rfl⟩ | ⟨hc, -⟩ | ⟨hc, -⟩
      · exact .absorb_quiet h rfl rfl
      · exact absurd (by simp [connected, hc]) hconn
      · exact absurd (by simp [connected, hc]) hconn
  | sendInLoop arg w =>
    obtain ⟨c, es, hok, rfl⟩ := invoke_inv he
    simpa [handing, passing, ownSend] using sendArgInLoop_outputs h hl hok
  | shutdown =>
    obtain ⟨c, es, hok, rfl⟩ := invoke_inv he
    generalize hs₀ : (if s.conn.connected then
      (s.record .shutdownCalled).record (.ran .shutdownInLoop) else s) = s₀ at hok
    have hsame : s₀.conn = s.conn ∧ s₀.effects = s.effects := by
      rw [← hs₀]
      split
      · refine ⟨rfl, ?_⟩
        rw [effects_record (by simp), effects_record (by simp)]
      · exact ⟨rfl, rfl⟩
    obtain ⟨hsame, heff⟩ := hsame
    have hb : s₀.conn.sendBuffer = s.conn.sendBuffer := by rw [hsame]
    have hu : Usable s₀.conn.sendBuffer := hb ▸ h
    have hquiet : Outputs s₀ (s₀.absorb c es) [] := by
      rcases shutdown_inv hok with ⟨-, rfl, rfl⟩ | ⟨-, rfl, rfl⟩
      · exact .absorb_quiet hu rfl rfl
      · refine .absorb_quiet hu rfl ?_
        split <;> rfl
    exact hquiet.after_same hb heff
  | shutdownInLoop => exact shutdownInLoop_outputs h he
  | queueDestroyed =>
    obtain rfl := Except.ok.inj he
    exact .of_same h rfl rfl
  | store m =>
    obtain rfl := Except.ok.inj he
    exact .of_same h rfl rfl
  | useSendBuffer buf => exact hl.elim
  | sendCheck arg => exact hl.elim
  | shutdownCheck => exact hl.elim
  | advance i => exact hl.elim

end Sys

/-! ## The threads -/

variable {ι : Type} [DecidableEq ι]

inductive SendersAct (ι : Type) where
  /-- A thread calls `send`, up to the test of `state_`. -/
  | send (i : ι) (arg : SendArg) (valid : arg.Valid) (byValue : arg.ByValue)
  | shutdown (i : ι)
  /-- The next step of the call the thread is in. -/
  | proceed (i : ι)
  | loop (l : Label) (plain : l.Plain)

/-- The connection with its loop, and who is where. -/
structure Senders (ι : Type) where
  sys : Sys
  flying : List (ι × InFlight)
  queue : List (ι × SendArg)
  called : List (ι × List Byte)
  handed : List (Option ι × List Byte)

namespace Senders

def start (u : Setup) (loop : LoopId) (name : String) (fd : Int) : Senders ι where
  sys := .start u loop name fd
  flying := []
  queue := []
  called := []
  handed := []

/-- The thread is in a call. -/
def busy (s : Senders ι) (i : ι) : Bool := s.flying.any fun x => x.1 = i

/-- A call passes the test of `state_`. -/
def begin (s : Senders ι) (sys : Sys) (i : ι) (f : InFlight) : Senders ι :=
  { s with sys := sys, flying := s.flying ++ [(i, f)] }

/-- A step of the loop thread: the send it takes off the queue, and its own. -/
def loopStep (s : Senders ι) (l : Label) (sys : Sys) : Senders ι :=
  { s with
    sys := sys
    queue := s.queue.drop (s.sys.passing l).length
    handed := s.handed ++
      ((s.queue.take (s.sys.passing l).length).map fun x => (some x.1, s.sys.argBytes x.2)) ++
      (s.sys.ownSend l).toList.map fun arg => (none, s.sys.argBytes arg) }

/-- The thread's call goes on: it pushes its task, or stores the state first. -/
def proceed (s : Senders ι) (sys : Sys) (k : Nat) : Senders ι :=
  match s.flying[k]? with
  | some (i, .sendPush arg) =>
    { s with sys := sys, flying := s.flying.eraseIdx k, queue := s.queue ++ [(i, arg)] }
  | some (i, .shutdownStore) => { s with sys := sys, flying := s.flying.set k (i, .shutdownPush) }
  | some (_, .shutdownPush) => { s with sys := sys, flying := s.flying.eraseIdx k }
  | none => s

/-- A thread that is in a call begins no other. -/
def step (s : Senders ι) : SendersAct ι → Except Fault (Senders ι)
  | .send i arg _ _ =>
    if s.busy i then .ok s
    else do
      let sys ← s.sys.step (.sendCheck arg)
      if s.sys.conn.connected then
        return { s.begin sys i (.sendPush arg) with called := s.called ++ [(i, s.sys.argBytes arg)] }
      else return { s with sys := sys }
  | .shutdown i =>
    if s.busy i then .ok s
    else do
      let sys ← s.sys.step .shutdownCheck
      if s.sys.conn.connected then return s.begin sys i .shutdownStore
      else return { s with sys := sys }
  | .proceed i => do
    let k := s.flying.findIdx fun x => x.1 = i
    let sys ← s.sys.step (.advance k)
    return s.proceed sys k
  | .loop l _ => do
    let sys ← s.sys.step l
    return s.loopStep l sys

/-- What a thread has sent and `sendInLoop` was not called for: on the queue, and in its call. -/
def waiting (s : Senders ι) (i : ι) : List SendArg :=
  byTag i s.queue ++ (byTag i s.flying).filterMap Sys.InFlight.pushes

/-- The invariant. -/
structure Ordered (s : Senders ι) : Prop where
  flying : s.flying.map Prod.snd = s.sys.inFlight
  queue : s.queue.map Prod.snd = s.sys.queuedSends
  oneCall : (s.flying.map Prod.fst).Nodup
  pushing : ∀ i arg, (i, InFlight.sendPush arg) ∈ s.flying → arg.Valid ∧ arg.ByValue
  queued : ∀ x ∈ s.queue, x.2.Valid ∧ x.2.ByValue
  calls : ∀ i, byTag i s.called = byTag (some i) s.handed ++ (s.waiting i).map s.sys.argBytes
  usable : Usable s.sys.conn.sendBuffer
  output : accepted s.sys.effects ++ s.sys.conn.sendBuffer.readable =
    (s.handed.map Prod.snd).flatten

variable {s s' : Senders ι} {i j : ι} {arg : SendArg}

/-- What an argument by value stands for does not depend on the memory. -/
theorem argBytes_byValue (h : arg.ByValue) (sys sys' : Sys) : sys'.argBytes arg = sys.argBytes arg := by
  cases arg with
  | string msg => rfl
  | buffer buf => rfl
  | pointer addr len => exact h.elim

theorem Ordered.waiting_byValue (h : Ordered s) (harg : arg ∈ s.waiting i) : arg.ByValue := by
  rcases List.mem_append.mp harg with hq | hf
  · obtain ⟨x, hx, hsome⟩ := List.mem_filterMap.mp hq
    split at hsome
    · obtain rfl := Option.some.inj hsome
      exact (h.queued x hx).2
    · exact absurd hsome (by simp)
  · obtain ⟨f, hf, hpush⟩ := List.mem_filterMap.mp hf
    obtain ⟨x, hx, hsome⟩ := List.mem_filterMap.mp hf
    split at hsome
    · obtain rfl := Option.some.inj hsome
      obtain ⟨j, f⟩ := x
      cases f with
      | sendPush a =>
        obtain rfl := Option.some.inj hpush
        exact (h.pushing j a hx).2
      | shutdownStore => exact absurd hpush (by simp [Sys.InFlight.pushes])
      | shutdownPush => exact absurd hpush (by simp [Sys.InFlight.pushes])
    · exact absurd hsome (by simp)

/-- What waits stands for the same in another state. -/
theorem Ordered.waiting_bytes (h : Ordered s) (i : ι) (sys : Sys) :
    (s.waiting i).map sys.argBytes = (s.waiting i).map s.sys.argBytes :=
  List.map_congr_left fun _ harg => argBytes_byValue (h.waiting_byValue harg) _ _

theorem not_busy (h : ¬ s.busy i = true) : i ∉ s.flying.map Prod.fst := by
  intro hmem
  obtain ⟨x, hx, rfl⟩ := List.mem_map.mp hmem
  exact h (List.any_eq_true.mpr ⟨x, hx, by simp⟩)

/-- **A call begins**: nothing but what is in flight changes. -/
theorem Ordered.begin (h : Ordered s) {sys : Sys} {f : InFlight} (hfree : ¬ s.busy i = true)
    {called : List (ι × List Byte)} (hcalled : called =
      s.called ++ (Sys.InFlight.pushes f).toList.map fun arg => (i, s.sys.argBytes arg))
    (hflying : sys.inFlight = s.sys.inFlight ++ [f]) (hqueue : sys.queuedSends = s.sys.queuedSends)
    (hconn : sys.conn = s.sys.conn) (heffects : sys.effects = s.sys.effects)
    (hpush : ∀ arg, f = .sendPush arg → arg.Valid ∧ arg.ByValue) :
    Ordered { s.begin sys i f with called := called } := by
  subst hcalled
  have hnew := not_busy hfree
  have hmine : byTag i s.flying = [] := byTag_eq_nil hnew
  refine ⟨?_, ?_, ?_, ?_, h.queued, ?_, hconn ▸ h.usable, ?_⟩
  · change (s.flying ++ [(i, f)]).map Prod.snd = sys.inFlight
    rw [hflying, List.map_append, h.flying]
    rfl
  · exact h.queue.trans hqueue.symm
  · change ((s.flying ++ [(i, f)]).map Prod.fst).Nodup
    rw [List.map_append]
    refine List.nodup_append.mpr ⟨h.oneCall, List.nodup_singleton i, ?_⟩
    intro a ha b hb hab
    obtain rfl := List.mem_singleton.mp hb
    exact hnew (hab ▸ ha)
  · intro j arg hmem
    rcases List.mem_append.mp hmem with hold | hlast
    · exact h.pushing j arg hold
    · obtain ⟨-, rfl⟩ := Prod.mk.inj (List.mem_singleton.mp hlast)
      exact hpush arg rfl
  · intro j
    have hcalls := h.calls j
    have hbytes := h.waiting_bytes j sys
    simp only [waiting, Senders.begin, byTag_append] at hcalls hbytes ⊢
    by_cases hj : i = j
    · subst hj
      rw [hmine] at hcalls hbytes ⊢
      simp only [List.filterMap_nil, List.append_nil] at hcalls hbytes
      rw [byTag_cons_self, byTag_nil]
      cases f with
      | sendPush arg =>
        have hval := argBytes_byValue (hpush arg rfl).2 s.sys sys
        simp only [Sys.InFlight.pushes, Option.toList_some, List.map_cons, List.map_nil,
          byTag_cons_self, byTag_nil, List.nil_append, List.filterMap_cons, List.filterMap_nil,
          List.map_append, hcalls, hbytes, hval, List.append_assoc]
      | shutdownStore =>
        simp [Sys.InFlight.pushes, hcalls, hbytes]
      | shutdownPush =>
        simp [Sys.InFlight.pushes, hcalls, hbytes]
    · have hcall : byTag j ((Sys.InFlight.pushes f).toList.map
          fun arg => (i, s.sys.argBytes arg)) = [] := by
        refine byTag_eq_nil ?_
        intro hmem
        obtain ⟨x, hx, rfl⟩ := List.mem_map.mp hmem
        obtain ⟨arg, -, rfl⟩ := List.mem_map.mp hx
        exact hj rfl
      rw [hcall, byTag_cons_of_ne hj, byTag_nil, List.append_nil, List.append_nil, hbytes]
      exact hcalls
  · change accepted sys.effects ++ sys.conn.sendBuffer.readable = _
    rw [heffects, hconn]
    exact h.output

/-- **A call goes on.** -/
theorem Ordered.proceed (h : Ordered s) (k : Nat) : Ordered (s.proceed (s.sys.advance k) k) := by
  have hget : s.sys.inFlight[k]? = (s.flying[k]?).map Prod.snd := by
    rw [← h.flying, List.getElem?_map]
  unfold Senders.proceed Sys.advance
  cases hk : s.flying[k]? with
  | none => exact h
  | some x =>
    obtain ⟨i, f⟩ := x
    rw [hk] at hget
    obtain ⟨hone, hnone⟩ := byTag_of_getElem? h.oneCall hk
    have hmem : (i, f) ∈ s.flying := List.mem_of_getElem? hk
    -- where the entry goes away
    have hflying : (s.flying.eraseIdx k).map Prod.snd = s.sys.inFlight.eraseIdx k := by
      rw [← h.flying, List.eraseIdx_map]
    have honeCall : ((s.flying.eraseIdx k).map Prod.fst).Nodup :=
      h.oneCall.sublist ((List.eraseIdx_sublist _ _).map _)
    have hpushing : ∀ j arg, (j, InFlight.sendPush arg) ∈ s.flying.eraseIdx k →
        arg.Valid ∧ arg.ByValue := fun j arg hx => h.pushing j arg (List.mem_of_mem_eraseIdx hx)
    cases f with
    | sendPush arg =>
      simp only [hget, Option.map_some]
      refine ⟨hflying, ?_, honeCall, hpushing, ?_, ?_, h.usable, h.output⟩
      · rw [List.map_append, h.queue]
        simp only [Sys.queuedSends, List.filterMap_append, List.filterMap_cons, List.filterMap_nil,
          CrossThread.sends_task, List.map_cons, List.map_nil]
      · intro x hx
        rcases List.mem_append.mp hx with hold | hlast
        · exact h.queued x hold
        · rw [List.mem_singleton.mp hlast]
          exact h.pushing i arg hmem
      · intro j
        refine (h.calls j).trans (congrArg (byTag (some j) s.handed ++ ·) ?_)
        by_cases hj : i = j
        · subst hj
          simp only [waiting, hone, hnone, byTag_append, byTag_cons_self, byTag_nil,
            List.filterMap_nil, List.append_nil, List.filterMap_cons, Sys.InFlight.pushes]
          rfl
        · simp only [waiting, byTag_append, byTag_cons_of_ne hj, byTag_nil, List.append_nil,
            byTag_eraseIdx_of_ne hj hk]
          rfl
    | shutdownStore =>
      simp only [hget, Option.map_some]
      have hlt : k < s.flying.length := (List.getElem?_eq_some_iff.mp hk).1
      have hfst : (s.flying.set k (i, InFlight.shutdownPush)).map Prod.fst = s.flying.map Prod.fst := by
        have hi : (s.flying.map Prod.fst)[k]? = some i := by
          rw [List.getElem?_map, hk]
          rfl
        obtain ⟨hk', hval⟩ := List.getElem?_eq_some_iff.mp hi
        rw [List.map_set]
        exact hval ▸ List.set_getElem_self hk'
      have hset : (s.flying.set k (i, InFlight.shutdownPush))[k]? = some (i, .shutdownPush) :=
        List.getElem?_set_self hlt
      have honce : ((s.flying.set k (i, InFlight.shutdownPush)).map Prod.fst).Nodup :=
        hfst ▸ h.oneCall
      refine ⟨?_, h.queue, honce, ?_, h.queued, ?_, h.usable, h.output⟩
      · rw [List.map_set, h.flying]
      · intro j arg hx
        rcases List.mem_or_eq_of_mem_set hx with hold | hnew
        · exact h.pushing j arg hold
        · exact absurd (congrArg Prod.snd hnew) (by simp)
      · intro j
        refine (h.calls j).trans (congrArg (byTag (some j) s.handed ++ ·) ?_)
        by_cases hj : i = j
        · subst hj
          simp only [waiting, hone, (byTag_of_getElem? honce hset).1, List.filterMap_nil,
            List.append_nil, List.filterMap_cons, Sys.InFlight.pushes]
          rfl
        · simp only [waiting, byTag_set_of_ne hj hk]
          rfl
    | shutdownPush =>
      simp only [hget, Option.map_some]
      refine ⟨hflying, ?_, honeCall, hpushing, h.queued, ?_, h.usable, h.output⟩
      · simp only [Sys.queuedSends, List.filterMap_append, List.filterMap_cons, List.filterMap_nil,
          Sys.Task.sends, List.append_nil]
        exact h.queue
      · intro j
        refine (h.calls j).trans (congrArg (byTag (some j) s.handed ++ ·) ?_)
        by_cases hj : i = j
        · subst hj
          simp only [waiting, hone, hnone, List.filterMap_nil, List.append_nil, List.filterMap_cons,
            Sys.InFlight.pushes]
          rfl
        · simp only [waiting, byTag_eraseIdx_of_ne hj hk]
          rfl

/-- **A step of the loop thread**: the send it takes off the queue is handed over, and its own. -/
theorem Ordered.loopStep (h : Ordered s) {l : Label} {sys : Sys} (hl : l.Plain)
    (hsame : sys.inFlight = s.sys.inFlight ∧
      s.sys.queuedSends = s.sys.passing l ++ sys.queuedSends)
    (he : s.sys.step l = .ok sys) : Ordered (s.loopStep l sys) := by
  obtain ⟨hflying, hqueue⟩ := hsame
  have hsplit : s.queue.map Prod.snd = s.sys.passing l ++ sys.queuedSends := h.queue.trans hqueue
  have htake : (s.queue.take (s.sys.passing l).length).map Prod.snd = s.sys.passing l := by
    rw [List.map_take, hsplit, List.take_left]
  have hdrop : (s.queue.drop (s.sys.passing l).length).map Prod.snd = sys.queuedSends := by
    rw [List.map_drop, hsplit, List.drop_left]
  have hvalid : ∀ arg ∈ s.sys.passing l, arg.Valid := by
    intro arg harg
    rw [← htake] at harg
    obtain ⟨x, hx, rfl⟩ := List.mem_map.mp harg
    exact (h.queued x (List.mem_of_mem_take hx)).1
  have hout := Sys.step_outputs hl hvalid h.usable he
  refine ⟨h.flying.trans hflying.symm, hdrop, h.oneCall, h.pushing,
    fun x hx => h.queued x (List.mem_of_mem_drop hx), ?_, hout.usable, ?_⟩
  · intro i
    have hown : byTag (some i)
        ((s.sys.ownSend l).toList.map fun arg => (none, s.sys.argBytes arg)) = [] := by
      refine byTag_eq_nil fun hmem => ?_
      obtain ⟨x, hx, hsome⟩ := List.mem_map.mp hmem
      obtain ⟨arg, -, rfl⟩ := List.mem_map.mp hx
      exact absurd hsome (by simp)
    have htaken := byTag_map (Option.some_injective ι) s.sys.argBytes i
      (s.queue.take (s.sys.passing l).length)
    have hqueued : byTag i s.queue = byTag i (s.queue.take (s.sys.passing l).length) ++
        byTag i (s.queue.drop (s.sys.passing l).length) := by
      rw [← byTag_append, List.take_append_drop]
    have hleft : ((s.loopStep l sys).waiting i).map sys.argBytes =
        ((s.loopStep l sys).waiting i).map s.sys.argBytes := by
      refine List.map_congr_left fun arg harg => argBytes_byValue (h.waiting_byValue (i := i) ?_) ..
      rcases List.mem_append.mp harg with hq | hf
      · refine List.mem_append_left _ ?_
        rw [hqueued]
        exact List.mem_append_right _ hq
      · exact List.mem_append_right _ hf
    refine (h.calls i).trans ?_
    change _ = _ ++ ((s.loopStep l sys).waiting i).map sys.argBytes
    rw [hleft]
    simp only [waiting, Senders.loopStep, byTag_append, hown, htaken, hqueued, List.append_nil,
      List.map_append, List.append_assoc]
  · have hbytes : (s.queue.take (s.sys.passing l).length).map (s.sys.argBytes ∘ Prod.snd) =
        (s.sys.passing l).map s.sys.argBytes := by
      rw [← List.map_map, htake]
    refine hout.output.trans ?_
    rw [h.output]
    simp only [Senders.loopStep, Sys.handing, List.map_append, List.flatten_append, List.append_assoc,
      List.map_map]
    rw [← hbytes]
    rfl

/-- **Every step keeps the sends in order.** -/
theorem step_ordered {a : SendersAct ι} (h : Ordered s) (he : s.step a = .ok s') : Ordered s' := by
  cases a with
  | send i arg valid byValue =>
    simp only [step] at he
    split at he
    · obtain rfl := Except.ok.inj he
      exact h
    · rename_i hfree
      obtain ⟨sys, hsys, hret⟩ := bind_ok_inv he
      simp only [Sys.step] at hsys
      split at hret
      · rename_i hconn
        rw [if_pos hconn] at hsys
        obtain rfl := Except.ok.inj hsys
        obtain rfl := Except.ok.inj hret
        refine h.begin hfree (f := .sendPush arg) rfl rfl rfl rfl (Sys.effects_record (by simp)) ?_
        intro arg' harg
        obtain rfl := InFlight.sendPush.inj harg
        exact ⟨valid, byValue⟩
      · rename_i hconn
        rw [if_neg hconn] at hsys
        obtain rfl := Except.ok.inj hsys
        obtain rfl := Except.ok.inj hret
        exact h
  | shutdown i =>
    simp only [step] at he
    split at he
    · obtain rfl := Except.ok.inj he
      exact h
    · rename_i hfree
      obtain ⟨sys, hsys, hret⟩ := bind_ok_inv he
      simp only [Sys.step] at hsys
      split at hret
      · rename_i hconn
        rw [if_pos hconn] at hsys
        obtain rfl := Except.ok.inj hsys
        obtain rfl := Except.ok.inj hret
        exact h.begin hfree (f := .shutdownStore) (List.append_nil _).symm rfl rfl rfl
          (Sys.effects_record (by simp)) (fun arg harg => absurd harg (by simp))
      · rename_i hconn
        rw [if_neg hconn] at hsys
        obtain rfl := Except.ok.inj hsys
        obtain rfl := Except.ok.inj hret
        exact h
  | proceed i =>
    obtain ⟨sys, hsys, hret⟩ := bind_ok_inv he
    obtain rfl := Except.ok.inj hsys
    obtain rfl := Except.ok.inj hret
    exact h.proceed _
  | loop l hl =>
    obtain ⟨sys, hsys, hret⟩ := bind_ok_inv he
    obtain rfl := Except.ok.inj hret
    refine h.loopStep hl ?_ hsys
    cases l with
    | store m =>
      obtain rfl := Except.ok.inj hsys
      exact ⟨rfl, rfl⟩
    | useSendBuffer buf => exact hl.elim
    | sendCheck arg => exact hl.elim
    | shutdownCheck => exact hl.elim
    | advance k => exact hl.elim
    | _ => exact (Sys.step_aside rfl hsys).2

theorem start_ordered (u : Setup) (loop : LoopId) (name : String) (fd : Int) :
    Ordered (start u loop name fd : Senders ι) := by
  obtain ⟨hsound, hnil⟩ := fresh_sound
  refine ⟨rfl, rfl, List.nodup_nil, fun i arg hx => absurd hx List.not_mem_nil,
    fun x hx => absurd hx List.not_mem_nil, fun i => rfl, hsound.roomy.usable, ?_⟩
  change [] ++ Buffer.fresh.readable = []
  rw [hnil]
  rfl

/-- **Every send goes out whole, and every thread's sends in its order.** What `::write` took followed
by `send_buffer_` is the concatenation of the sends handed to `sendInLoop`; those of a thread are the
first of its calls, in the order of its calls, and all of them once nothing waits. -/
theorem sends_whole_and_in_order {u : Setup} {loop : LoopId} {name : String} {fd : Int}
    {acts : List (SendersAct ι)} (h : run step (start u loop name fd) acts = .ok s) :
    accepted s.sys.effects ++ s.sys.conn.sendBuffer.readable = (s.handed.map Prod.snd).flatten ∧
      ∀ i, byTag (some i) s.handed <+: byTag i s.called ∧
        (s.sys.waiting = [] → byTag (some i) s.handed = byTag i s.called) := by
  have hord := run_preserves (I := Ordered) step_ordered (start_ordered u loop name fd) h
  refine ⟨hord.output, fun i => ⟨⟨_, (hord.calls i).symm⟩, fun hwait => ?_⟩⟩
  have hnone : s.waiting i = [] := by
    obtain ⟨hq, hf⟩ := List.append_eq_nil_iff.mp hwait
    rw [← hord.queue, List.map_eq_nil_iff] at hq
    refine List.append_eq_nil_iff.mpr ⟨by rw [hq]; rfl, ?_⟩
    rw [List.filterMap_eq_nil_iff]
    intro f hmem
    obtain ⟨x, hx, hsome⟩ := List.mem_filterMap.mp hmem
    split at hsome
    · obtain rfl := Option.some.inj hsome
      refine (List.filterMap_eq_nil_iff.mp hf) x.2 ?_
      rw [← hord.flying]
      exact List.mem_map_of_mem hx
    · exact absurd hsome (by simp)
  have hcalls := hord.calls i
  rw [hnone, List.map_nil, List.append_nil] at hcalls
  exact hcalls.symm

/-- The first of two threads calls, the second calls and is first to push; meanwhile the loop thread
sends two bytes, of which `::write` takes one, and the first thread calls again. -/
def overtaken : List (SendersAct Bool) :=
  [.loop .connectionEstablished trivial,
    .send false (.string [1, 2]) (show 2 ≤ maxSize by decide) trivial,
    .send true (.string [3]) (show 1 ≤ maxSize by decide) trivial,
    .proceed true, .proceed false,
    .loop (.send (.string [8, 9]) 1) (show 2 ≤ maxSize by decide),
    .send false (.string [4]) (show 1 ≤ maxSize by decide) trivial,
    .loop (.runTask 0) trivial, .proceed false, .loop (.runTask 0) trivial,
    .loop (.runTask 0) trivial]

theorem sends_whole_and_in_order_overtaken :
    ∃ s, run step (start Sys.plainSetup 0 "server#1" 5) overtaken = .ok s ∧
      accepted s.sys.effects ++ s.sys.conn.sendBuffer.readable = [8, 9, 3, 1, 2, 4] ∧
      byTag (some false) s.handed = [[1, 2], [4]] := by
  obtain ⟨s, hrun, hhanded, hcalled, hwait⟩ :
      ∃ s, run step (start Sys.plainSetup 0 "server#1" 5) overtaken = .ok s ∧
        s.handed.map Prod.snd = [[8, 9], [3], [1, 2], [4]] ∧
        byTag false s.called = [[1, 2], [4]] ∧ s.sys.waiting = [] := by decide +kernel
  obtain ⟨hstream, hthreads⟩ := sends_whole_and_in_order hrun
  refine ⟨s, hrun, ?_, ?_⟩
  · rw [hstream, hhanded]
    rfl
  · rw [(hthreads false).2 hwait, hcalled]

end Senders

end HyperMuduo.Net.TcpConnection
