import HyperMuduo.TcpConnection.System

/-!
# The backlog never drains

`sendInLoop` raises the write interest when a write is short, and `handleWritable` is the member
function that would drain `send_buffer_` at the next `POLLOUT`. The constructor installs no write
callback on the channel, and nothing installs one later (`reachable_callbacks`), so
`Channel::handleEvent` has nothing to call: no event removes a byte from the backlog, whatever the
poller reports (`dispatch_sendBuffer`, `backlog_never_drains`).
-/

namespace HyperMuduo.Net.TcpConnection.Sys

open HyperMuduo.Lib

/-- Bytes wait in `send_buffer_` of a live connection, and its channel is registered for
`POLLOUT`. -/
structure Backlogged (s : Sys) : Prop where
  live : s.conn.state = .connected ∨ s.conn.state = .disconnecting
  pending : s.conn.sendBuffer.readable ≠ []
  writing : s.conn.channel.isWriting = true
  watched : s.poller.kernel s.conn.channel.fd =
    some ((), pollToEpollEvents s.conn.channel.events)

instance (s : Sys) : Decidable (Backlogged s) :=
  decidable_of_iff ((s.conn.state = .connected ∨ s.conn.state = .disconnecting) ∧
      s.conn.sendBuffer.readable ≠ [] ∧ s.conn.channel.isWriting = true ∧
      s.poller.kernel s.conn.channel.fd = some ((), pollToEpollEvents s.conn.channel.events))
    ⟨fun ⟨h1, h2, h3, h4⟩ => ⟨h1, h2, h3, h4⟩, fun ⟨h1, h2, h3, h4⟩ => ⟨h1, h2, h3, h4⟩⟩

/-- Dispatching the event with `::write` taking `k` bytes removes them from the front of the backlog,
and drops the write interest when nothing is left. -/
def Drains (s : Sys) (revents : PollEvents) (r : ReadResult) (k : Nat) : Prop :=
  ∃ s', s.dispatch revents r k = .ok s' ∧
    s'.conn.sendBuffer.readable = s.conn.sendBuffer.readable.drop k ∧
    (s'.conn.sendBuffer.readable = [] → s'.conn.channel.isWriting = false)

variable {s s' : Sys} {revents : PollEvents} {r : ReadResult} {w : Int}

/-- The callbacks an event can reach in a reachable state. -/
theorem handleEvent_reachable (h : Reachable s) (revents : PollEvents) :
    (s.conn.channel.setReturnEvents revents).handleEvent = [.handleReadable] ∨
      (s.conn.channel.setReturnEvents revents).handleEvent = [] := by
  obtain ⟨hr, hw, he⟩ := reachable_callbacks h
  unfold Channel.handleEvent Channel.setReturnEvents
  simp only [hr, hw, he, Option.toList, ite_self, List.nil_append, List.append_nil]
  split
  · exact Or.inl rfl
  · exact Or.inr rfl

/-- **No event touches the backlog.** -/
theorem dispatch_sendBuffer (h : Reachable s) (he : s.dispatch revents r w = .ok s') :
    s'.conn.sendBuffer = s.conn.sendBuffer := by
  unfold dispatch at he
  simp only at he
  rcases handleEvent_reachable h revents with hcall | hcall
  · rw [hcall] at he
    obtain ⟨s₁, h1, h2⟩ := bind_ok_inv he
    obtain rfl := Except.ok.inj h2
    obtain ⟨c, es, hr, rfl⟩ := invoke_inv h1
    exact (handleReadable_wiring hr).2
  · rw [hcall] at he
    obtain rfl := Except.ok.inj he
    rfl

/-- **The backlog never drains.** In every reachable state with a backlog, no event removes a byte
from it. -/
theorem backlog_never_drains (h : Reachable s) (hb : Backlogged s) (revents : PollEvents)
    (r : ReadResult) {k : Nat} (hk : 1 ≤ k) : ¬ Drains s revents r k := by
  rintro ⟨s', he, hdrop, -⟩
  rw [dispatch_sendBuffer h he] at hdrop
  have hlen := congrArg List.length hdrop
  rw [List.length_drop] at hlen
  have hpos := List.length_pos_of_ne_nil hb.pending
  omega

/-- Establish a connection and send three bytes, of which `::write` takes one. -/
def shortWrite : List Label := [.connectionEstablished, .send (.string [1, 2, 3]) 1]

/-- The owner of a server connection, with no user callbacks. -/
def plainSetup : Setup := ⟨false, false, 0, false, false, some (.serverRemoveConnection 0)⟩

theorem shortWrite_backlogged :
    ∃ s, run step (start plainSetup 0 "server#1" 5) shortWrite = .ok s ∧
      (Backlogged s ∧ s.conn.sendBuffer.readable = [2, 3]) := by
  decide +kernel

theorem backlog_never_drains_shortWrite :
    ∃ s, Reachable s ∧ Backlogged s ∧ ¬ Drains s .write none 2 := by
  obtain ⟨s, hr, hb, -⟩ := shortWrite_backlogged
  have hs : Reachable s := ⟨_, _, _, _, _, hr⟩
  exact ⟨s, hs, hb, backlog_never_drains hs hb .write none (by decide)⟩

/-- After a short write, a `POLLOUT` with room for the rest does not drain it. -/
theorem backlog_not_always_drained :
    ¬ ∀ (s : Sys) (revents : PollEvents) (r : ReadResult) (k : Nat), Reachable s → Backlogged s →
      revents.pollout = true → 1 ≤ k → k ≤ s.conn.sendBuffer.readable.length →
      Drains s revents r k := by
  intro hall
  obtain ⟨s, hr, hb, hread⟩ := shortWrite_backlogged
  have hs : Reachable s := ⟨_, _, _, _, _, hr⟩
  have hdrains := hall s .write none 2 hs hb rfl (by decide) (by rw [hread]; decide)
  obtain ⟨s', he, hdrop, -⟩ := hdrains
  rw [dispatch_sendBuffer hs he, hread] at hdrop
  exact absurd hdrop (by decide)

end HyperMuduo.Net.TcpConnection.Sys
