import HyperMuduo.TcpServer.LifeCycle
import Mathlib.Data.Set.Basic

/-!
# Who holds a closed connection

The strong references that the library keeps to a connection are in `connections_`, in the closures
waiting on the loops, and in the close callbacks stored in the connections (`holders`). The channel's
`tie` is a `weak_ptr`.

The new-connection callback gives a connection a close callback that captures the connection itself,
and nothing ever takes it away. `closed_connection_never_released`: when everything that follows a
close has run, the connection still holds itself, in every run.
-/

namespace HyperMuduo.Net.TcpServer

open HyperMuduo.Lib

/-- A place of the library that can hold a `shared_ptr` to a connection. -/
inductive Holder where
  | connections (name : String)
  | task (l : LoopId) (task : Task)
  /-- The slot `close_callback_` of a connection. -/
  | closeCallback (conn : Nat)
  deriving DecidableEq, Repr

namespace World

variable {cfg : Config} {s : World} {id : Nat} {t : ThreadId}

/-- The place holds the connection `id`. -/
def Holds (s : World) (id : Nat) : Holder → Prop
  | .connections name => s.server.connections name = some id
  | .task l task => task ∈ (s.loops l).pending ∧ task.captured = id
  | .closeCallback conn =>
    (s.conns conn).bind TcpConnection.closeCallback = some (.serverRemoveConnection id)

instance (s : World) (id : Nat) (h : Holder) : Decidable (s.Holds id h) := by
  cases h <;> unfold Holds <;> infer_instance

/-- The strong references of the library to a connection. -/
def holders (s : World) (id : Nat) : Set Holder := { h | s.Holds id h }

/-- Nothing in the library keeps the connection alive. -/
def Released (s : World) (id : Nat) : Prop := s.holders id = ∅

/-- A connection that was accepted holds itself. -/
theorem Inv.holds_itself {hand : Option (LoopId × Task)} (h : Inv cfg s hand)
    (hid : id < s.accepted) : .closeCallback id ∈ s.holders id := by
  obtain ⟨c, hc, hwired, -⟩ := h.conn id hid
  show (s.conns id).bind TcpConnection.closeCallback = _
  rw [hc]
  exact hwired.closeCallback

/-- **A closed connection is never released.** -/
theorem closed_connection_never_released (h : Reachable cfg s)
    (hd : .called .connectionDestroyed t id ∈ s.log) : ¬ Released s id := by
  have hI := reachable_inv h
  have hid : id < s.accepted := by
    by_contra hge
    rw [← mem_milestones, hI.unseen id (Nat.le_of_not_lt hge)] at hd
    exact absurd hd List.not_mem_nil
  intro hreleased
  have hslot := hI.holds_itself hid
  rw [show s.holders id = ∅ from hreleased] at hslot
  exact hslot

theorem closed_connection_never_released_acceptToDestroyed :
    ∃ s, Reachable echoConfig s ∧ .called .connectionDestroyed (.loop 1) 0 ∈ s.log ∧
      (s.loops 0).pending = [] ∧ (s.loops 1).pending = [] ∧ ¬ Released s 0 := by
  obtain ⟨s, hr, -, hmile, -, h0, h1, -⟩ := acceptToDestroyed_run
  have hreach : Reachable echoConfig s := ⟨acceptToDestroyed, hr⟩
  have hd : .called .connectionDestroyed (.loop 1) 0 ∈ s.log := by
    rw [← mem_milestones, hmile]
    simp [script]
  exact ⟨s, hreach, hd, h0, h1, closed_connection_never_released hreach hd⟩

/-- A run after which all queues are empty and the connection is still held. -/
theorem closed_connection_not_always_released :
    ¬ ∀ cfg s t id, Reachable cfg s → .called .connectionDestroyed t id ∈ s.log → Released s id := by
  intro hall
  obtain ⟨s, hr, hd, hslot⟩ : ∃ s, run step (start echoConfig) acceptToDestroyed = .ok s ∧
      .called .connectionDestroyed (.loop 1) 0 ∈ s.log ∧ s.Holds 0 (.closeCallback 0) := by
    decide +kernel
  have hreleased := hall echoConfig s (.loop 1) 0 ⟨acceptToDestroyed, hr⟩ hd
  have hmem : Holder.closeCallback 0 ∈ s.holders 0 := hslot
  rw [show s.holders 0 = ∅ from hreleased] at hmem
  exact hmem

end World

end HyperMuduo.Net.TcpServer
