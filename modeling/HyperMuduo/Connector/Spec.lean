import HyperMuduo.Lib.Run
import HyperMuduo.Connector.Model

/-!
# What the members of `Connector` do

One inversion lemma for each member function that writes the connector: which connector it leaves, and
its effects in order. `startInLoop` ends in one of three ways (`Attempted`), `handleWritable` in one of
two (`Settled`), or it hands the socket over.
-/

namespace HyperMuduo.Net.Connector

open HyperMuduo.Lib

variable {c c' : Connector} {t : ThreadId} {k : Kernel} {es : List Effect}

/-! ## Deregistration -/

/-- The effects of `resetChannel`. -/
def removal : Option (Nat × Channel Handler) → List Effect
  | none => []
  | some (id, ch) => [.updateChannel id ch.fd .none, .removeChannel id ch.fd, .destroyChannel id]

theorem resetChannel_inv (h : c.resetChannel t = .ok (c', es)) :
    c' = { c with channel := none } ∧ es = removal c.channel := by
  unfold resetChannel at h
  split at h
  · rename_i hch
    obtain ⟨rfl, rfl⟩ := Prod.mk.inj (Except.ok.inj h)
    rw [hch]
    refine ⟨?_, rfl⟩
    rw [← hch]
  · rename_i id ch hch
    obtain ⟨_, -, h⟩ := bind_ok_inv h
    obtain ⟨rfl, rfl⟩ := Prod.mk.inj (Except.ok.inj h)
    rw [hch]
    exact ⟨rfl, rfl⟩

theorem stopInLoop_inv (h : c.stopInLoop t = .ok (c', es)) :
    (c.state = .connecting ∧ c' = { c with channel := none, socket := none, state := .disconnected } ∧
      es = removal c.channel ++ destroySocket c.socket) ∨
    (c.state ≠ .connecting ∧ c' = { c with state := .disconnected } ∧ es = []) := by
  obtain ⟨_, -, h⟩ := bind_ok_inv h
  split at h
  · rename_i hstate
    obtain ⟨⟨c₁, removed⟩, hreset, h⟩ := bind_ok_inv h
    obtain ⟨rfl, rfl⟩ := resetChannel_inv hreset
    obtain ⟨rfl, rfl⟩ := Prod.mk.inj (Except.ok.inj h)
    exact Or.inl ⟨hstate, rfl, rfl⟩
  · rename_i hstate
    obtain ⟨rfl, rfl⟩ := Prod.mk.inj (Except.ok.inj h)
    exact Or.inr ⟨hstate, rfl, rfl⟩

/-! ## An attempt -/

/-- The channel `connecting` makes for a descriptor. -/
def attemptChannel (fd : Int) : Channel Handler :=
  ((Channel.construct fd).setWriteCallback .handleWritable).listenTillWritable

/-- The timer `retry` arms. -/
def retryTimer (c : Connector) : List Effect :=
  if c.connectFlag then [.runAfter (min (2 * c.retryDelay) maxRetryDelay)] else []

/-- How `startInLoop` ends: with an attempt in progress, with a retry to come, or with neither. -/
inductive Attempted (c : Connector) (fd : Int) : Connector → List Effect → Prop where
  | inProgress : Attempted c fd
      { c with
        state := .connecting
        socket := some fd
        channel := some (c.channels, attemptChannel fd)
        channels := c.channels + 1 }
      ((.openSocket fd :: destroySocket c.socket ++ [.connect fd]) ++
        (destroyChannel c.channel ++ [.updateChannel c.channels fd (attemptChannel fd).events]))
  | retried : Attempted c fd
      { c with
        state := .disconnected
        socket := none
        retryDelay := min (2 * c.retryDelay) maxRetryDelay }
      ((.openSocket fd :: destroySocket c.socket ++ [.connect fd]) ++ ([.closeSocket fd] ++ c.retryTimer))
  | gaveUp : Attempted c fd { c with state := .disconnected, socket := none }
      ((.openSocket fd :: destroySocket c.socket ++ [.connect fd]) ++ [.closeSocket fd])

theorem destroySocket_valid {fd : Int} (h : fd ≠ invalidFd) :
    destroySocket (some fd) = [.closeSocket fd] := if_neg h

theorem startInLoop_inv (h : c.startInLoop t k = .ok (c', es)) :
    c.state = .disconnected ∧ k.socket ≠ invalidFd ∧ Attempted c k.socket c' es := by
  obtain ⟨_, -, h⟩ := bind_ok_inv h
  split at h
  · rename_i hstate
    unfold connect at h
    split at h
    · exact absurd h (by simp)
    · rename_i hfd
      refine ⟨hstate, hfd, ?_⟩
      dsimp only [openSocket] at h
      split at h
      case h_1 | h_2 | h_3 | h_4 =>
        obtain ⟨⟨c₁, es₁⟩, hconn, h⟩ := bind_ok_inv h
        obtain ⟨rfl, rfl⟩ := Prod.mk.inj (Except.ok.inj h)
        obtain ⟨_, -, hconn⟩ := bind_ok_inv hconn
        obtain ⟨rfl, rfl⟩ := Prod.mk.inj (Except.ok.inj hconn)
        exact .inProgress
      case h_5 | h_6 | h_7 | h_8 | h_9 =>
        obtain ⟨rfl, rfl⟩ := Prod.mk.inj (Except.ok.inj h)
        dsimp only [retry, resetSocket, setState]
        rw [destroySocket_valid hfd]
        exact .retried
      case h_10 =>
        obtain ⟨rfl, rfl⟩ := Prod.mk.inj (Except.ok.inj h)
        dsimp only [resetSocket, setState]
        rw [destroySocket_valid hfd]
        exact .gaveUp
  · exact absurd h (by simp)

/-! ## The event -/

/-- How `handleWritable` ends. -/
inductive Settled (c : Connector) (fd : Int) : Connector → List Effect → Prop where
  | failed : Settled c fd
      { c with
        state := .disconnected
        channel := none
        socket := none
        retryDelay := min (2 * c.retryDelay) maxRetryDelay }
      (removal c.channel ++ destroySocket (some fd) ++ c.retryTimer)
  /-- Nobody takes the socket. -/
  | ignored : c.newConnectionCallback = false →
      Settled c fd { c with state := .connected, channel := none, socket := none }
        (removal c.channel ++ destroySocket (some fd))

theorem handleWritable_inv {err : Int} (h : c.handleWritable t err = .ok (c', es)) :
    ∃ fd, c.socket = some fd ∧
      ((err ≠ 0 ∨ c.newConnectionCallback = false) ∧ Settled c fd c' es ∨
        (err = 0 ∧ c.newConnectionCallback = true ∧
          c' = { c with state := .connected, channel := none, socket := some invalidFd } ∧
          es = removal c.channel ++ [.newConnectionCallback fd])) := by
  unfold handleWritable at h
  split at h
  · exact absurd h (by simp)
  · rename_i fd hsocket
    refine ⟨fd, hsocket, ?_⟩
    split at h
    · rename_i herr
      obtain ⟨⟨c₁, removed⟩, hreset, h⟩ := bind_ok_inv h
      obtain ⟨rfl, rfl⟩ := resetChannel_inv hreset
      obtain ⟨rfl, rfl⟩ := Prod.mk.inj (Except.ok.inj h)
      refine Or.inl ⟨Or.inl herr, ?_⟩
      dsimp only [retry, resetSocket, setState]
      rw [hsocket]
      exact .failed
    · rename_i herr
      obtain ⟨⟨c₁, removed⟩, hreset, h⟩ := bind_ok_inv h
      obtain ⟨rfl, rfl⟩ := resetChannel_inv hreset
      dsimp only [setState] at h
      split at h
      · rename_i hcb
        obtain ⟨rfl, rfl⟩ := Prod.mk.inj (Except.ok.inj h)
        exact Or.inr ⟨not_not.mp herr, hcb, rfl, rfl⟩
      · rename_i hcb
        obtain ⟨rfl, rfl⟩ := Prod.mk.inj (Except.ok.inj h)
        have hnone : c.newConnectionCallback = false := by simpa using hcb
        refine Or.inl ⟨Or.inr hnone, ?_⟩
        dsimp only [resetSocket]
        rw [hsocket]
        exact .ignored hnone

/-- A connected socket is handed over. -/
theorem handleWritable_success {fd : Int} (hsocket : c.socket = some fd)
    (hcallback : c.newConnectionCallback = true) :
    c.handleWritable (.loop c.loop) 0 =
      .ok ({ c with state := .connected, channel := none, socket := some invalidFd },
        removal c.channel ++ [.newConnectionCallback fd]) := by
  unfold handleWritable
  rw [hsocket]
  cases hch : c.channel with
  | none =>
    simp [resetChannel, setState, hch, hcallback, removal, bind, Except.bind, pure, Except.pure]
  | some x =>
    obtain ⟨id, ch⟩ := x
    simp [resetChannel, setState, hch, hcallback, removal, bind, Except.bind, pure, Except.pure,
      Channel.ignoreAll]

theorem restart_inv {task : Task} (h : c.restart t = .ok (c', task)) :
    c' = { c with state := .disconnected, connectFlag := true, retryDelay := defaultRetryDelay } ∧
      task = .startInLoop := by
  obtain ⟨_, -, h⟩ := bind_ok_inv h
  obtain ⟨rfl, rfl⟩ := Prod.mk.inj (Except.ok.inj h)
  exact ⟨rfl, rfl⟩

end HyperMuduo.Net.Connector
