import HyperMuduo.Codec.Segmentation

/-!
# Who gets the messages

`Dispatch` looks the callback of a message up by its type, and calls the default callback when there is
none. Which type is looked up is the peer's choice. The default callback is whatever the handler was
constructed with, an empty `std::function` included, and calling that one raises.

`onMessageCalls` is the loop of `OnMessage` with the calls made in it (`onMessageLoop_eq_calls`).
`Served` is what the handler owes for a stream: it returns, every well-formed message that has a
callback is handed to it, and the others go to the default callback if there is one and are skipped if
there is none. **`served_iff`**: it does so exactly when there is a default callback or every
well-formed message of the stream has a callback.
-/

namespace HyperMuduo.Net

open HyperMuduo.Lib HyperMuduo.Net.Buffer

variable {M : Type}

/-- Who a message is handed to. -/
inductive Receiver where
  | callback
  | defaultCallback
  deriving DecidableEq, Repr

/-- `Dispatch`, with the call it makes. -/
def Dispatcher.handOut (P : Protobuf M) (d : Dispatcher M) (msg : M) :
    Except Fault (M × Receiver) :=
  match d.dispatcherMap (P.getTypeName msg) with
  | some cb => do
    cb.call msg
    return (msg, .callback)
  | none => do
    d.defaultCb.call msg
    return (msg, .defaultCallback)

/-- The callbacks themselves do not raise; the default callback may be empty. -/
structure Dispatcher.Quiet (d : Dispatcher M) : Prop where
  callback : ∀ {name cb}, d.dispatcherMap name = some cb → ∀ msg, cb.call msg = .ok ()
  defaultCb : ∀ {f}, d.defaultCb = some f → ∀ msg, f msg = .ok ()

namespace ProtobufHandler

open Codec

/-- The loop of `OnMessage`, with the calls made in it. -/
def onMessageCalls (P : Protobuf M) (d : Dispatcher M) :
    Nat → Buffer → Except Fault (Buffer × List (M × Receiver))
  | 0, buffer => .ok (buffer, [])
  | fuel + 1, buffer =>
    if headerLen ≤ buffer.readableBytes then do
      let (state, msg, buffer) ← decode P buffer
      match state, msg with
      | .incomplete, _ => return (buffer, [])
      | .success, some msg => do
        let call ← d.handOut P msg
        let (buffer, calls) ← onMessageCalls P d fuel buffer
        return (buffer, call :: calls)
      | .success, none => .error .invalidPointer
      | _, _ => return (buffer, [])
    else .ok (buffer, [])

/-- The chunks arrive one after another; what is called. -/
def receiveAllCalls (P : Protobuf M) (d : Dispatcher M) :
    Buffer → List (List Byte) → Except Fault (Buffer × List (M × Receiver))
  | buffer, [] => .ok (buffer, [])
  | buffer, chunk :: chunks => do
    let buffer ← buffer.append chunk
    let (buffer, calls) ← onMessageCalls P d buffer.readableBytes buffer
    let (buffer, calls') ← receiveAllCalls P d buffer chunks
    return (buffer, calls ++ calls')

variable {P : Protobuf M} {d : Dispatcher M} {b b' : Buffer}

/-! ## The calls are those of the code -/

/-- Forget who was called. -/
def forgetReceivers (r : Buffer × List (M × Receiver)) : Buffer × List M := (r.1, r.2.map Prod.fst)

theorem dispatch_eq_handOut (msg : M) :
    d.dispatch P msg = (d.handOut P msg).map fun _ => () := by
  unfold Dispatcher.dispatch Dispatcher.handOut
  cases d.dispatcherMap (P.getTypeName msg) with
  | some cb =>
    simp only
    cases cb.call msg <;> rfl
  | none =>
    simp only
    cases d.defaultCb.call msg <;> rfl

theorem handOut_fst {msg : M} {call : M × Receiver} (h : d.handOut P msg = .ok call) :
    call.1 = msg := by
  unfold Dispatcher.handOut at h
  split at h
  · obtain ⟨-, -, h⟩ := bind_ok_inv h
    rw [← Except.ok.inj h]
  · obtain ⟨-, -, h⟩ := bind_ok_inv h
    rw [← Except.ok.inj h]

/-- `OnMessage` returns, or raises, as the loop with the calls does. -/
theorem onMessageLoop_eq_calls (fuel : Nat) (b : Buffer) :
    onMessageLoop P d fuel b = (onMessageCalls P d fuel b).map forgetReceivers := by
  induction fuel generalizing b with
  | zero => rfl
  | succ fuel ih =>
    unfold onMessageLoop onMessageCalls
    split
    · cases decode P b with
      | error e => rfl
      | ok r =>
        obtain ⟨state, msg, b'⟩ := r
        cases state with
        | success =>
          cases msg with
          | none => rfl
          | some msg =>
            simp only [ok_bind, dispatch_eq_handOut]
            cases hcall : d.handOut P msg with
            | error e => rfl
            | ok call =>
              have hmsg := handOut_fst hcall
              rw [ih]
              simp only [Except.map, ok_bind]
              cases onMessageCalls P d fuel b' with
              | error e => rfl
              | ok r => simp only [← hmsg]; rfl
        | _ => rfl
    · rfl

/-! ## Streams -/

/-- **The loop hands out the messages of the readable bytes in order**, up to the first call that
raises. -/
theorem onMessageCalls_eq (fuel : Nat) (h : Sound b) :
    ∃ b', Sound b' ∧ b'.readable = (drain (scan P) Verdict.stops fuel b.readable).2 ∧
      b'.size = b.size ∧ onMessageCalls P d fuel b =
        ((messages (drain (scan P) Verdict.stops fuel b.readable).1).mapM (d.handOut P)).map
          (b', ·) := by
  induction fuel generalizing b with
  | zero => exact ⟨b, h, rfl, rfl, rfl⟩
  | succ fuel ih =>
    unfold onMessageCalls
    cases round_cases (P := P) fuel h with
    | short h4 hdrain =>
      rw [if_neg h4, hdrain]
      exact ⟨b, h, rfl, rfl, rfl⟩
    | stops h4 state msg b₁ hdecode hstate hsound hnone hread hsize =>
      rw [if_pos h4, hdecode, hnone]
      refine ⟨b₁, hsound, hread, hsize, ?_⟩
      cases state with
      | success => exact absurd rfl hstate
      | _ => rfl
    | message h4 m b₁ hdecode hsound hdrain hsize =>
      obtain ⟨b', hs, hr, hz, he⟩ := ih hsound
      rw [if_pos h4, hdecode, hdrain]
      refine ⟨b', hs, hr, hz.trans hsize, ?_⟩
      simp only [ok_bind, he, messages, Verdict.toOption, List.filterMap_cons, List.mapM_cons]
      cases d.handOut P m with
      | error e => rfl
      | ok call =>
        simp only [ok_bind]
        cases List.mapM (d.handOut P) _ <;> rfl

/-- The same for chunks that fit in memory. -/
theorem receiveAllCalls_eq {chunks : List (List Byte)} (h : Sound b)
    (hfit : b.size + chunks.flatten.length ≤ maxSize) :
    ∃ b', b'.readable = (feedAll (scan P) Verdict.stops b.readable chunks).2 ∧
      receiveAllCalls P d b chunks =
        ((messages (feedAll (scan P) Verdict.stops b.readable chunks).1).mapM (d.handOut P)).map
          (b', ·) := by
  induction chunks generalizing b with
  | nil => exact ⟨b, rfl, rfl⟩
  | cons chunk chunks ih =>
    rw [List.flatten_cons, List.length_append] at hfit
    have hchunk : b.size + chunk.length ≤ maxSize := by omega
    obtain ⟨b₁, hb₁⟩ := append_total h.roomy hchunk
    obtain ⟨hs₁, hread₁⟩ := append_sound h (by omega) hb₁
    obtain ⟨-, -, hsize₁⟩ := append_usable h.roomy.usable (by omega) hb₁
    obtain ⟨b₂, hs₂, hread₂, hsize₂, he₂⟩ :=
      onMessageCalls_eq (P := P) (d := d) b₁.readable.length hs₁
    obtain ⟨b', hread', he'⟩ := ih hs₂ (by omega)
    rw [hread₂, hread₁] at hread' he'
    refine ⟨b', hread', ?_⟩
    rw [receiveAllCalls, hb₁, ok_bind, hs₁.toWf.readableBytes_eq_length, he₂, hread₁]
    simp only [feedAll, messages_append, List.mapM_append]
    cases List.mapM (d.handOut P)
      (messages (drain (scan P) Verdict.stops (b.readable ++ chunk).length (b.readable ++ chunk)).1) with
    | error e => rfl
    | ok calls =>
      simp only [Except.map, ok_bind, he']
      cases List.mapM (d.handOut P) _ <;> rfl

theorem receiveAll_eq_calls (b : Buffer) (chunks : List (List Byte)) :
    receiveAll P d b chunks = (receiveAllCalls P d b chunks).map forgetReceivers := by
  induction chunks generalizing b with
  | nil => rfl
  | cons chunk chunks ih =>
    unfold receiveAll receiveAllCalls receive onMessage
    cases b.append chunk with
    | error e => rfl
    | ok b₁ =>
      simp only [ok_bind, onMessageLoop_eq_calls]
      cases onMessageCalls P d b₁.readableBytes b₁ with
      | error e => rfl
      | ok r =>
        simp only [Except.map, ok_bind, forgetReceivers, ih]
        cases receiveAllCalls P d r.1 chunks with
        | error e => rfl
        | ok r' =>
          simp only [ok_bind, pure, Except.pure, List.map_append]

/-! ## What is owed -/

/-- Who is to get a message: its callback, else the default callback, if there is one. -/
def recipient (P : Protobuf M) (d : Dispatcher M) (msg : M) : Option Receiver :=
  match d.dispatcherMap (P.getTypeName msg) with
  | some _ => some .callback
  | none => d.defaultCb.map fun _ => .defaultCallback

/-- The calls that are owed for these messages; those without a recipient are skipped. -/
def owed (P : Protobuf M) (d : Dispatcher M) (msgs : List M) : List (M × Receiver) :=
  msgs.filterMap fun msg => (recipient P d msg).map (msg, ·)

/-- The well-formed messages that `OnMessage` comes to in a stream that arrives in these chunks. -/
def wellFormed (P : Protobuf M) (chunks : List (List Byte)) : List M :=
  messages (feedAll (scan P) Verdict.stops [] chunks).1

/-- `OnMessage` returns for every chunk, and makes the calls that are owed. -/
def Served (P : Protobuf M) (d : Dispatcher M) (chunks : List (List Byte)) : Prop :=
  ∃ b msgs, receiveAll P d .fresh chunks = .ok (b, msgs) ∧
    receiveAllCalls P d .fresh chunks = .ok (b, owed P d (wellFormed P chunks))

theorem recipient_isSome (msg : M) : (recipient P d msg).isSome ↔
    d.defaultCb.isSome ∨ (d.dispatcherMap (P.getTypeName msg)).isSome := by
  unfold recipient
  cases d.dispatcherMap (P.getTypeName msg) with
  | some cb => simp
  | none => cases d.defaultCb <;> simp

/-- Quiet callbacks return; a message without a recipient raises. -/
theorem handOut_eq (hd : d.Quiet) (msg : M) :
    d.handOut P msg =
      match recipient P d msg with
      | some r => .ok (msg, r)
      | none => .error .badFunctionCall := by
  unfold Dispatcher.handOut recipient
  cases hmap : d.dispatcherMap (P.getTypeName msg) with
  | some cb =>
    simp only [hd.callback hmap, ok_bind]
    rfl
  | none =>
    cases hdef : d.defaultCb with
    | none => rfl
    | some f =>
      simp only [Callback.call, hd.defaultCb hdef, ok_bind]
      rfl

/-- All messages are handed out as owed when all have a recipient; else the first without one
raises. -/
theorem mapM_handOut (hd : d.Quiet) (msgs : List M) :
    msgs.mapM (d.handOut P) =
      if ∀ msg ∈ msgs, (recipient P d msg).isSome then .ok (owed P d msgs)
      else .error .badFunctionCall := by
  induction msgs with
  | nil => rfl
  | cons msg msgs ih =>
    rw [List.mapM_cons, handOut_eq hd, ih]
    unfold owed
    simp only [List.forall_mem_cons, List.filterMap_cons]
    cases recipient P d msg with
    | none => rfl
    | some r =>
      simp only [Option.isSome_some, true_and, Option.map_some, ok_bind]
      split <;> rfl

/-- **`OnMessage` serves a stream exactly when** there is a default callback or every well-formed
message of the stream has a callback of its own. -/
theorem served_iff (hd : d.Quiet) {chunks : List (List Byte)}
    (hfit : Buffer.fresh.size + chunks.flatten.length ≤ maxSize) :
    Served P d chunks ↔
      d.defaultCb.isSome ∨
        ∀ msg ∈ wellFormed P chunks, (d.dispatcherMap (P.getTypeName msg)).isSome := by
  obtain ⟨hs, hnil⟩ := fresh_sound
  obtain ⟨b, -, he⟩ := receiveAllCalls_eq (P := P) (d := d) hs hfit
  rw [hnil] at he
  have hcalls : receiveAllCalls P d .fresh chunks =
      if ∀ msg ∈ wellFormed P chunks, (recipient P d msg).isSome then
        .ok (b, owed P d (wellFormed P chunks))
      else .error .badFunctionCall := by
    refine he.trans ?_
    rw [mapM_handOut hd]
    unfold wellFormed
    split <;> rfl
  have hcond : (∀ msg ∈ wellFormed P chunks, (recipient P d msg).isSome) ↔ d.defaultCb.isSome ∨
      ∀ msg ∈ wellFormed P chunks, (d.dispatcherMap (P.getTypeName msg)).isSome := by
    simp only [recipient_isSome]
    by_cases hdef : d.defaultCb.isSome
    · simp [hdef]
    · simp [hdef]
  rw [← hcond]
  constructor
  · rintro ⟨b', msgs, -, hok⟩
    rw [hcalls] at hok
    by_contra hnot
    rw [if_neg hnot] at hok
    exact absurd hok (by simp)
  · intro hall
    rw [if_pos hall] at hcalls
    refine ⟨b, (owed P d (wellFormed P chunks)).map Prod.fst, ?_, hcalls⟩
    rw [receiveAll_eq_calls, hcalls]
    rfl

theorem queryDispatcher_quiet : queryDispatcher.Quiet where
  callback := by
    intro name cb hmap msg
    simp only [queryDispatcher] at hmap
    split at hmap
    · obtain rfl := Option.some.inj hmap
      rfl
    · exact absurd hmap (by simp)
  defaultCb := by
    intro f hdef
    exact absurd hdef (by simp [queryDispatcher])

/-- One query in two chunks. -/
def queryInTwo : List (List Byte) :=
  [(frame queryProtobuf someQuery (queryPayload someQuery)).take 7,
    (frame queryProtobuf someQuery (queryPayload someQuery)).drop 7]

theorem served_iff_queryInTwo :
    Served queryProtobuf queryDispatcher queryInTwo ∧ wellFormed queryProtobuf queryInTwo = [5] :=
  ⟨(served_iff queryDispatcher_quiet (by decide +kernel)).mpr (Or.inr (by decide +kernel)),
    by decide +kernel⟩

/-- `ProtobufHandler(nullptr)`, without a callback. -/
def bareDispatcher : Dispatcher (Fin 128) where
  dispatcherMap _ := none
  defaultCb := none

/-- A query makes the handler raise. -/
theorem not_served_bareHandler :
    bareDispatcher.Quiet ∧ ¬ Served queryProtobuf bareDispatcher queryInTwo := by
  constructor
  · constructor
    · intro name cb hmap
      exact absurd hmap (by simp [bareDispatcher])
    · intro f hdef
      exact absurd hdef (by simp [bareDispatcher])
  · rintro ⟨b, msgs, hok, -⟩
    have hraises : ¬ ∃ r, receiveAll queryProtobuf bareDispatcher .fresh queryInTwo = .ok r ∧ True := by
      decide +kernel
    exact hraises ⟨_, hok, trivial⟩

end ProtobufHandler

end HyperMuduo.Net
