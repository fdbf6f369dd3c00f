import HyperMuduo.Codec.Dispatching
import HyperMuduo.Lib.PartialMap

/-!
# Callbacks that register callbacks

Model of `RegisterMessageCallback<T>`, of `Callback<T>::OnMessage` and of the objects behind
`dispatcher_map_`. `SetCallback<T>` makes a new `Callback<T>` and puts it into the map; the map holds the
only reference, so the one that was there is destroyed. `Dispatch` calls the object through the map and
takes no reference of its own, and the callback it calls may register callbacks itself.

* A type `T` is its full name, which stands for `T::descriptor()`. `static_pointer_cast<T>` checks
  nothing: on a message of another type it is undefined (`Fault.invalidPointer`).
* What the user code does in the `n`-th call is `user n`: the registrations it makes, in order. It does
  not raise. Any code that reads what it was called with before is some such `user`.
* `orphaned` is a ghost: the calls that returned into a `Callback<T>` that was destroyed meanwhile.

The specification (`Registry`) is a table from types to user code. **`serves_as_registered`**: whatever
is registered, before and by callbacks, and however the stream is cut, the objects serve the stream as
the table does. Each well-formed message goes to the code that was registered last for its type when
its turn came, through an object of that type, and is called once. The object outlives its call unless
the call registers its own type.
-/

namespace HyperMuduo.Net.ProtobufHandler.Registering

open HyperMuduo.Lib HyperMuduo.Net.Buffer HyperMuduo.Net.Codec

variable {M κ : Type}

/-- A `Callback<T>`: the full name of `T`, and `callback_`. -/
structure CallbackObject (κ : Type) where
  type : List Byte
  callback : Option κ
  deriving DecidableEq, Repr

/-- A call of `SetCallback<T>(cb)`. -/
structure Registration (κ : Type) where
  type : List Byte
  cb : Option κ
  deriving DecidableEq, Repr

/-- A handler with its receive buffer, and the `Callback<T>` objects that are alive. -/
structure Handler (M κ : Type) where
  buffer : Buffer
  objects : Nat → Option (CallbackObject κ)
  made : Nat
  dispatcherMap : List Byte → Option Nat
  defaultCb : Option κ
  /-- The calls of user code, in order. -/
  calls : List (M × κ)
  orphaned : Nat

inductive Act (κ : Type) where
  | setCallback (r : Registration κ)
  | receive (chunk : List Byte)
  deriving DecidableEq, Repr

namespace Handler

/-- `ProtobufHandler(default_cb)`. -/
def construct (defaultCb : Option κ) : Handler M κ where
  buffer := .fresh
  objects _ := none
  made := 0
  dispatcherMap _ := none
  defaultCb := defaultCb
  calls := []
  orphaned := 0

/-- The map lets go of the object it has for this type. -/
def release (s : Handler M κ) (type : List Byte) : Nat → Option (CallbackObject κ) :=
  match s.dispatcherMap type with
  | some old => Function.update s.objects old none
  | none => s.objects

/-- `dispatcher_map_[T::descriptor()] = std::make_shared<Callback<T>>(std::move(cb))`. -/
def registerMessageCallback (s : Handler M κ) (r : Registration κ) : Handler M κ :=
  { s with
    objects := Function.update (s.release r.type) s.made (some ⟨r.type, r.cb⟩)
    made := s.made + 1
    dispatcherMap := Function.update s.dispatcherMap r.type (some s.made) }

/-- A call of user code: it is recorded, and makes its registrations. -/
def callUser (s : Handler M κ) (user : Nat → List (Registration κ)) (msg : M) (k : κ) : Handler M κ :=
  (user s.calls.length).foldl registerMessageCallback { s with calls := s.calls ++ [(msg, k)] }

/-- Back in the `OnMessage` of an object. -/
def returnInto (s : Handler M κ) (object : Nat) : Handler M κ :=
  if (s.objects object).isSome then s else { s with orphaned := s.orphaned + 1 }

/-- `Callback<T>::OnMessage`. -/
def callbackOnMessage (P : Protobuf M) (user : Nat → List (Registration κ)) (s : Handler M κ)
    (object : Nat) (msg : M) : Except Fault (Handler M κ) :=
  match s.objects object with
  | none => .error .invalidPointer
  | some cb =>
    if P.getTypeName msg = cb.type then
      match cb.callback with
      | some k => .ok ((s.callUser user msg k).returnInto object)
      | none => .error .badFunctionCall
    else .error .invalidPointer

def dispatch (P : Protobuf M) (user : Nat → List (Registration κ)) (s : Handler M κ) (msg : M) :
    Except Fault (Handler M κ) :=
  match s.dispatcherMap (P.getTypeName msg) with
  | some object => s.callbackOnMessage P user object msg
  | none =>
    match s.defaultCb with
    | some k => .ok (s.callUser user msg k)
    | none => .error .badFunctionCall

/-- The loop of `OnMessage`. -/
def onMessageLoop (P : Protobuf M) (user : Nat → List (Registration κ)) :
    Nat → Handler M κ → Except Fault (Handler M κ)
  | 0, s => .ok s
  | fuel + 1, s =>
    if headerLen ≤ s.buffer.readableBytes then do
      let (state, msg, buffer) ← decode P s.buffer
      match state, msg with
      | .incomplete, _ => return { s with buffer := buffer }
      | .success, some msg => do
        let s ← dispatch P user { s with buffer := buffer } msg
        onMessageLoop P user fuel s
      | .success, none => .error .invalidPointer
      | _, _ => return { s with buffer := buffer }
    else .ok s

def step (P : Protobuf M) (user : Nat → List (Registration κ)) (s : Handler M κ) :
    Act κ → Except Fault (Handler M κ)
  | .setCallback r => .ok (s.registerMessageCallback r)
  | .receive chunk => do
    let buffer ← s.buffer.append chunk
    onMessageLoop P user buffer.readableBytes { s with buffer := buffer }

end Handler

/-! ## The table -/

/-- What the handler is for: a table of callbacks, the bytes that wait, and the calls. -/
structure Registry (M κ : Type) where
  rest : List Byte
  table : List Byte → Option κ
  calls : List (M × κ)
  orphaned : Nat

namespace Registry

/-- The last registration of a type is the one that counts. -/
def register (table : List Byte → Option κ) (r : Registration κ) : List Byte → Option κ :=
  Function.update table r.type r.cb

/-- The call of its message registers the type of that message. -/
def Replaces (P : Protobuf M) (user : Nat → List (Registration κ)) (t : Registry M κ) (msg : M) : Prop :=
  (t.table (P.getTypeName msg)).isSome ∧
    ∃ r ∈ user t.calls.length, r.type = P.getTypeName msg

instance (P : Protobuf M) (user : Nat → List (Registration κ)) (t : Registry M κ) (msg : M) :
    Decidable (t.Replaces P user msg) := inferInstanceAs (Decidable (_ ∧ ∃ r ∈ _, _))

def serve (P : Protobuf M) (user : Nat → List (Registration κ)) (defaultCb : κ) (t : Registry M κ)
    (msg : M) : Registry M κ :=
  { t with
    table := (user t.calls.length).foldl register t.table
    calls := t.calls ++ [(msg, (t.table (P.getTypeName msg)).getD defaultCb)]
    orphaned := if t.Replaces P user msg then t.orphaned + 1 else t.orphaned }

def step (P : Protobuf M) (user : Nat → List (Registration κ)) (defaultCb : κ) (t : Registry M κ) :
    Act κ → Registry M κ
  | .setCallback r => { t with table := register t.table r }
  | .receive chunk =>
    let drained := drain (scan P) Verdict.stops (t.rest ++ chunk).length (t.rest ++ chunk)
    { (messages drained.1).foldl (serve P user defaultCb) t with rest := drained.2 }

end Registry

/-! ## The objects and the table -/

/-- The map has an object for every type in the table, and every object that is alive is in the map. -/
structure Mirrors (s : Handler M κ) (table : List Byte → Option κ) : Prop where
  absent : ∀ type, table type = none → s.dispatcherMap type = none
  stored : ∀ type k, table type = some k →
    ∃ o, s.dispatcherMap type = some o ∧ s.objects o = some ⟨type, some k⟩
  held : ∀ o cb, s.objects o = some cb → o < s.made ∧ s.dispatcherMap cb.type = some o

variable {s : Handler M κ} {table : List Byte → Option κ} {r : Registration κ} {o : Nat}
  {cb : CallbackObject κ} {P : Protobuf M} {user : Nat → List (Registration κ)} {k₀ : κ}

/-- What the map finds is an object of that type. -/
theorem Mirrors.found (h : Mirrors s table) {type : List Byte} (ho : s.dispatcherMap type = some o) :
    ∃ k, table type = some k ∧ s.objects o = some ⟨type, some k⟩ := by
  cases hk : table type with
  | none =>
    rw [h.absent type hk] at ho
    exact absurd ho (by simp)
  | some k =>
    obtain ⟨o', ho', hobj⟩ := h.stored type k hk
    obtain rfl := Option.some.inj (ho.symm.trans ho')
    exact ⟨k, rfl, hobj⟩

/-- Letting go of a type destroys the object of that type. -/
theorem Mirrors.release_eq (h : Mirrors s table) (hobj : s.objects o = some cb) (type : List Byte) :
    s.release type o = if type = cb.type then none else some cb := by
  have hmap := (h.held o cb hobj).2
  unfold Handler.release
  by_cases htype : type = cb.type
  · subst htype
    rw [hmap, if_pos rfl]
    exact Function.update_self ..
  · rw [if_neg htype]
    cases hold : s.dispatcherMap type with
    | none => exact hobj
    | some old =>
      obtain ⟨k, -, hobj'⟩ := h.found hold
      have hne : o ≠ old := by
        rintro rfl
        rw [hobj] at hobj'
        exact htype (congrArg CallbackObject.type (Option.some.inj hobj')).symm
      exact (Function.update_of_ne hne ..).trans hobj

/-- It makes none. -/
theorem release_none {type : List Byte} (hobj : s.objects o = none) : s.release type o = none := by
  unfold Handler.release
  cases s.dispatcherMap type with
  | none => exact hobj
  | some old => exact update_none_of_none old hobj

theorem Mirrors.register_objects (h : Mirrors s table) (hobj : s.objects o = some cb)
    (r : Registration κ) :
    (s.registerMessageCallback r).objects o = if r.type = cb.type then none else some cb := by
  have hne : o ≠ s.made := Nat.ne_of_lt (h.held o cb hobj).1
  refine (Function.update_of_ne hne ..).trans ?_
  exact h.release_eq hobj r.type

theorem Mirrors.register (h : Mirrors s table) (hcb : r.cb.isSome) :
    Mirrors (s.registerMessageCallback r) (Registry.register table r) := by
  obtain ⟨k, hk⟩ := Option.isSome_iff_exists.mp hcb
  constructor
  · intro type hnone
    by_cases htype : type = r.type
    · subst htype
      rw [Registry.register, Function.update_self, hk] at hnone
      exact absurd hnone (by simp)
    · rw [Registry.register, Function.update_of_ne htype] at hnone
      exact (Function.update_of_ne htype ..).trans (h.absent type hnone)
  · intro type k' hsome
    by_cases htype : type = r.type
    · subst htype
      rw [Registry.register, Function.update_self] at hsome
      refine ⟨s.made, Function.update_self .., ?_⟩
      rw [← hsome]
      exact Function.update_self ..
    · rw [Registry.register, Function.update_of_ne htype] at hsome
      obtain ⟨o, ho, hobj⟩ := h.stored type k' hsome
      refine ⟨o, (Function.update_of_ne htype ..).trans ho, ?_⟩
      rw [h.register_objects hobj, if_neg (Ne.symm htype)]
  · intro o cb hobj
    rcases update_some_inv hobj with ⟨rfl, rfl⟩ | ⟨-, hold⟩
    · exact ⟨Nat.lt_succ_self _, Function.update_self ..⟩
    · cases hbefore : s.objects o with
      | none =>
        rw [release_none hbefore] at hold
        exact absurd hold (by simp)
      | some cb' =>
        rw [h.release_eq hbefore] at hold
        split at hold
        · exact absurd hold (by simp)
        · rename_i hne
          obtain rfl := Option.some.inj hold
          obtain ⟨hlt, hmap⟩ := h.held o cb' hbefore
          exact ⟨Nat.lt_succ_of_lt hlt, (Function.update_of_ne (Ne.symm hne) ..).trans hmap⟩

/-! ## A call and its registrations -/

/-- A destroyed object stays destroyed. -/
theorem registerAll_none {regs : List (Registration κ)} (hobj : s.objects o = none)
    (hmade : o < s.made) : (regs.foldl Handler.registerMessageCallback s).objects o = none := by
  induction regs generalizing s with
  | nil => exact hobj
  | cons r regs ih =>
    refine ih ?_ (Nat.lt_succ_of_lt hmade)
    exact (Function.update_of_ne (Nat.ne_of_lt hmade) ..).trans (release_none hobj)

/-- **Registrations in a row**: the table takes them over, and they destroy an object exactly when one
of them is for its type. -/
theorem Mirrors.registerAll {regs : List (Registration κ)} (h : Mirrors s table)
    (hregs : ∀ r ∈ regs, r.cb.isSome) :
    Mirrors (regs.foldl Handler.registerMessageCallback s) (regs.foldl Registry.register table) ∧
      ∀ o cb, s.objects o = some cb →
        ((regs.foldl Handler.registerMessageCallback s).objects o).isSome =
          !decide (∃ r ∈ regs, r.type = cb.type) := by
  induction regs generalizing s table with
  | nil =>
    refine ⟨h, fun o cb hobj => ?_⟩
    rw [List.foldl_nil, hobj]
    simp
  | cons r regs ih =>
    obtain ⟨hr, hrest⟩ := List.forall_mem_cons.mp hregs
    obtain ⟨hmirrors, halive⟩ := ih (h.register hr) hrest
    refine ⟨hmirrors, fun o cb hobj => ?_⟩
    rw [List.foldl_cons]
    by_cases htype : r.type = cb.type
    · have hgone : (s.registerMessageCallback r).objects o = none := by
        rw [h.register_objects hobj, if_pos htype]
      rw [registerAll_none hgone (Nat.lt_succ_of_lt (h.held o cb hobj).1)]
      simp [htype]
    · have hkept : (s.registerMessageCallback r).objects o = some cb := by
        rw [h.register_objects hobj, if_neg htype]
      rw [halive o cb hkept]
      simp [htype]

/-- A registration changes the objects and the map only. -/
theorem registerAll_rest (regs : List (Registration κ)) (s : Handler M κ) :
    (regs.foldl Handler.registerMessageCallback s).buffer = s.buffer ∧
      (regs.foldl Handler.registerMessageCallback s).defaultCb = s.defaultCb ∧
      (regs.foldl Handler.registerMessageCallback s).calls = s.calls ∧
      (regs.foldl Handler.registerMessageCallback s).orphaned = s.orphaned := by
  induction regs generalizing s with
  | nil => exact ⟨rfl, rfl, rfl, rfl⟩
  | cons r regs ih => exact ih (s.registerMessageCallback r)

/-- The handler, its buffer left out, is where the table is. -/
structure Agrees (k₀ : κ) (s : Handler M κ) (t : Registry M κ) : Prop where
  mirrors : Mirrors s t.table
  defaultCb : s.defaultCb = some k₀
  calls : s.calls = t.calls
  orphaned : s.orphaned = t.orphaned

variable {t : Registry M κ}

theorem Agrees.congr_buffer (h : Agrees k₀ s t) (b : Buffer) : Agrees k₀ { s with buffer := b } t :=
  ⟨⟨h.mirrors.absent, h.mirrors.stored, h.mirrors.held⟩, h.defaultCb, h.calls, h.orphaned⟩

/-- **One message is served as the table says.** -/
theorem dispatch_agrees (huser : ∀ n, ∀ r ∈ user n, r.cb.isSome) (h : Agrees k₀ s t) (msg : M) :
    ∃ s', s.dispatch P user msg = .ok s' ∧ s'.buffer = s.buffer ∧
      Agrees k₀ s' (t.serve P user k₀ msg) := by
  have hcall : ∀ k, Mirrors { s with calls := s.calls ++ [(msg, k)] } t.table := fun k =>
    ⟨h.mirrors.absent, h.mirrors.stored, h.mirrors.held⟩
  unfold Handler.dispatch
  cases hmap : s.dispatcherMap (P.getTypeName msg) with
  | some o =>
    obtain ⟨k, htable, hobj⟩ := h.mirrors.found hmap
    obtain ⟨hmirrors, halive⟩ := (hcall k).registerAll (huser s.calls.length)
    obtain ⟨hbuffer, hdefault, hcalls, horphaned⟩ :=
      registerAll_rest (user s.calls.length) { s with calls := s.calls ++ [(msg, k)] }
    have hkept := halive o _ hobj
    have hreplaces : t.Replaces P user msg ↔
        ∃ r ∈ user s.calls.length, r.type = P.getTypeName msg := by
      unfold Registry.Replaces
      rw [htable, h.calls]
      simp
    simp only [Handler.callbackOnMessage, hobj, if_true]
    refine ⟨_, rfl, ?_, ?_⟩
    · unfold Handler.returnInto Handler.callUser
      split <;> exact hbuffer
    · unfold Handler.returnInto Handler.callUser Registry.serve
      rw [hkept, htable, ← h.calls]
      by_cases hown : ∃ r ∈ user s.calls.length, r.type = P.getTypeName msg
      · rw [if_neg (by simp [hown]), if_pos (hreplaces.mpr hown)]
        exact ⟨⟨hmirrors.absent, hmirrors.stored, hmirrors.held⟩, hdefault.trans h.defaultCb, hcalls,
          congrArg (· + 1) (horphaned.trans h.orphaned)⟩
      · rw [if_pos (by simp [hown]), if_neg (fun hx => hown (hreplaces.mp hx))]
        exact ⟨hmirrors, hdefault.trans h.defaultCb, hcalls, horphaned.trans h.orphaned⟩
  | none =>
    have htable : t.table (P.getTypeName msg) = none := by
      cases hk : t.table (P.getTypeName msg) with
      | none => rfl
      | some k =>
        obtain ⟨o, ho, -⟩ := h.mirrors.stored _ k hk
        rw [hmap] at ho
        exact absurd ho (by simp)
    obtain ⟨hmirrors, -⟩ := (hcall k₀).registerAll (huser s.calls.length)
    obtain ⟨hbuffer, hdefault, hcalls, horphaned⟩ :=
      registerAll_rest (user s.calls.length) { s with calls := s.calls ++ [(msg, k₀)] }
    have hkeeps : ¬ t.Replaces P user msg := by
      unfold Registry.Replaces
      rw [htable]
      simp
    simp only [h.defaultCb]
    refine ⟨_, rfl, hbuffer, ?_⟩
    unfold Handler.callUser Registry.serve
    rw [if_neg hkeeps, htable, ← h.calls]
    exact ⟨hmirrors, hdefault.trans h.defaultCb, hcalls, horphaned.trans h.orphaned⟩

/-! ## Streams -/

/-- **The loop serves the messages of the readable bytes as the table says.** -/
theorem onMessageLoop_agrees (huser : ∀ n, ∀ r ∈ user n, r.cb.isSome) (fuel : Nat)
    (hb : Sound s.buffer) (h : Agrees k₀ s t) :
    ∃ s', s.onMessageLoop P user fuel = .ok s' ∧ Sound s'.buffer ∧
      s'.buffer.readable = (drain (scan P) Verdict.stops fuel s.buffer.readable).2 ∧
      Agrees k₀ s' ((messages (drain (scan P) Verdict.stops fuel s.buffer.readable).1).foldl
        (Registry.serve P user k₀) t) := by
  induction fuel generalizing s t with
  | zero => exact ⟨s, rfl, hb, rfl, h⟩
  | succ fuel ih =>
    unfold Handler.onMessageLoop
    cases round_cases (P := P) fuel hb with
    | short h4 hdrain =>
      rw [if_neg h4, hdrain]
      exact ⟨s, rfl, hb, rfl, h⟩
    | stops h4 state msg b₁ hdecode hstate hsound hnone hread hsize =>
      rw [if_pos h4, hdecode, hnone]
      refine ⟨{ s with buffer := b₁ }, ?_, hsound, hread, h.congr_buffer b₁⟩
      cases state with
      | success => exact absurd rfl hstate
      | _ => rfl
    | message h4 m b₁ hdecode hsound hdrain hsize =>
      rw [if_pos h4, hdecode, hdrain]
      obtain ⟨s₁, hdispatch, hbuffer, hagrees⟩ :=
        dispatch_agrees (P := P) huser (h.congr_buffer b₁) m
      obtain rfl : s₁.buffer = b₁ := hbuffer
      obtain ⟨s', he, hs, hr, ha⟩ := ih hsound hagrees
      refine ⟨s', ?_, hs, hr, ha⟩
      simp only [ok_bind, hdispatch, he]

/-- The registrations are of functions, and the chunk fits in memory. -/
def Handler.Ready (s : Handler M κ) : Act κ → Prop
  | .setCallback r => r.cb.isSome
  | .receive chunk => s.buffer.size + chunk.length ≤ maxSize

instance (s : Handler M κ) : ∀ a : Act κ, Decidable (s.Ready a)
  | .setCallback _ => inferInstanceAs (Decidable (_ = true))
  | .receive _ => inferInstanceAs (Decidable (_ ≤ _))

/-- The handler is where the table is. -/
structure Serves (k₀ : κ) (s : Handler M κ) (t : Registry M κ) : Prop extends Agrees k₀ s t where
  sound : Sound s.buffer
  rest : s.buffer.readable = t.rest

theorem step_serves (huser : ∀ n, ∀ r ∈ user n, r.cb.isSome) {a : Act κ} (h : Serves k₀ s t)
    (hready : s.Ready a) :
    ∃ s', s.step P user a = .ok s' ∧ Serves k₀ s' (t.step P user k₀ a) := by
  cases a with
  | setCallback r =>
    refine ⟨_, rfl, ?_⟩
    exact ⟨⟨h.mirrors.register hready, h.defaultCb, h.calls, h.orphaned⟩, h.sound, h.rest⟩
  | receive chunk =>
    have hchunk : s.buffer.size + chunk.length ≤ maxSize := hready
    obtain ⟨b₁, hb₁⟩ := append_total h.sound.roomy hchunk
    obtain ⟨hsound, hread⟩ := append_sound h.sound (by omega) hb₁
    obtain ⟨s', he, hs, hr, ha⟩ := onMessageLoop_agrees (P := P) huser b₁.readableBytes
      (s := { s with buffer := b₁ }) hsound (h.toAgrees.congr_buffer b₁)
    refine ⟨s', ?_, ?_⟩
    · simp only [Handler.step, hb₁, ok_bind, he]
    · rw [hsound.toWf.readableBytes_eq_length] at hr ha
      rw [show ({ s with buffer := b₁ } : Handler M κ).buffer.readable = t.rest ++ chunk by
        rw [← h.rest]; exact hread] at hr ha
      exact ⟨⟨⟨ha.mirrors.absent, ha.mirrors.stored, ha.mirrors.held⟩, ha.defaultCb, ha.calls,
        ha.orphaned⟩, hs, hr⟩

/-- The chunks that arrive. -/
def chunksOf (acts : List (Act κ)) : List (List Byte) :=
  acts.filterMap fun
    | .receive chunk => some chunk
    | .setCallback _ => none

theorem serveAll_calls (msgs : List M) (t : Registry M κ) :
    (msgs.foldl (Registry.serve P user k₀) t).calls.map Prod.fst = t.calls.map Prod.fst ++ msgs := by
  induction msgs generalizing t with
  | nil => exact (List.append_nil _).symm
  | cons msg msgs ih =>
    rw [List.foldl_cons, ih]
    simp [Registry.serve]

/-- The table serves the well-formed messages of the stream in order, whatever is registered between
them. -/
theorem registry_calls (acts : List (Act κ)) (t : Registry M κ) :
    (acts.foldl (Registry.step P user k₀) t).calls.map Prod.fst =
      t.calls.map Prod.fst ++
        messages (feedAll (scan P) Verdict.stops t.rest (chunksOf acts)).1 := by
  induction acts generalizing t with
  | nil => exact (List.append_nil _).symm
  | cons a acts ih =>
    rw [List.foldl_cons, ih]
    cases a with
    | setCallback r => rfl
    | receive chunk =>
      simp only [Registry.step, serveAll_calls, List.append_assoc]
      congr 1
      exact (messages_append _ _).symm

/-- `ProtobufHandler(default_cb)` with nothing registered. -/
def Registry.empty : Registry M κ := ⟨[], fun _ => none, [], 0⟩

theorem construct_serves (k₀ : κ) : Serves k₀ (.construct (some k₀) : Handler M κ) .empty where
  mirrors :=
    { absent := fun _ _ => rfl
      stored := fun _ _ h => absurd h (by simp [Registry.empty])
      held := fun _ _ h => absurd h (by simp [Handler.construct]) }
  defaultCb := rfl
  calls := rfl
  orphaned := rfl
  sound := fresh_sound.1
  rest := fresh_sound.2

/-- **The handler serves every stream as the table of registrations says.** It does not fault, it calls
user code once for every well-formed message, in order, and the code it calls is the last that was
registered for the type of the message, or the default callback. The calls that return into a destroyed
object are those that registered the type they were called for. -/
theorem serves_as_registered (huser : ∀ n, ∀ r ∈ user n, r.cb.isSome) {acts : List (Act κ)}
    (hready : Along (Handler.step P user) Handler.Ready (.construct (some k₀)) acts) :
    ∃ s, run (Handler.step P user) (.construct (some k₀)) acts = .ok s ∧
      s.calls = (acts.foldl (Registry.step P user k₀) .empty).calls ∧
      s.orphaned = (acts.foldl (Registry.step P user k₀) .empty).orphaned ∧
      s.buffer.readable = (acts.foldl (Registry.step P user k₀) .empty).rest ∧
      s.calls.map Prod.fst = wellFormed P (chunksOf acts) := by
  obtain ⟨s, hrun, hserves⟩ := run_refines (R := Serves k₀) (P := Handler.Ready) (step_serves huser)
    (construct_serves k₀) hready
  refine ⟨s, hrun, hserves.calls, hserves.orphaned, hserves.rest, ?_⟩
  rw [hserves.calls, registry_calls]
  rfl

/-- The callback for queries puts another one in its place when it is called first. -/
def handsOver : Nat → List (Registration Nat)
  | 1 => [⟨queryName, some 2⟩]
  | _ => []

/-- A query comes before the callback for queries, and two after it. -/
def threeQueries : List (Act Nat) :=
  let query := frame queryProtobuf someQuery (queryPayload someQuery)
  [.receive query, .setCallback ⟨queryName, some 1⟩, .receive (query.take 7),
    .receive (query.drop 7 ++ query)]

/-- The second call returns into a destroyed object. -/
theorem serves_as_registered_threeQueries :
    ∃ s, run (Handler.step queryProtobuf handsOver) (.construct (some 0)) threeQueries = .ok s ∧
      s.calls.map Prod.snd = [0, 1, 2] ∧ s.orphaned = 1 ∧ s.buffer.readable = [] := by
  have huser : ∀ n, ∀ r ∈ handsOver n, r.cb.isSome := by
    intro n r hr
    unfold handsOver at hr
    split at hr
    · obtain rfl := List.mem_singleton.mp hr
      rfl
    · exact absurd hr List.not_mem_nil
  have hready : Along (Handler.step queryProtobuf handsOver) Handler.Ready (.construct (some 0))
      threeQueries := by decide +kernel
  obtain ⟨s, hrun, hcalls, horphaned, hrest, -⟩ := serves_as_registered huser hready
  refine ⟨s, hrun, ?_, ?_, ?_⟩
  · rw [hcalls]
    decide +kernel
  · rw [horphaned]
    decide +kernel
  · rw [hrest]
    decide +kernel

end HyperMuduo.Net.ProtobufHandler.Registering
