import UdpPeer.App.Link
import UdpPeer.Timer.TimerHandle

/-!
# The TX timer paces the sender

`main` drives the sender from its event loop. In a round of `EventLoop::run` where `epoll_wait`
reports the TX timerfd, the loop calls `handleEvent`, and its callback runs `txTimerCallback`.
This module joins the timer of `UdpPeer.Timer.TimerHandle` with the link of `UdpPeer.App.Link`:
the kernel's expirations, the loop's rounds and the link's other steps interleave freely.

The main result is `sender_paced`. Over every run, the frames on the wire are those of distinct runs
of the callback, in order, and each run of the callback used up at least one expiration of the TX
timer. So the sender puts at most one frame on the wire per 100 ms period, however late the loop
runs.
-/

namespace UdpPeer.App

open UdpPeer.Thread UdpPeer.Timer

/-- The sender: its TX timer in `main`'s loop, and the link it feeds. -/
structure Sender where
  timer : TimerLoop
  link : Link

/-- An expiration of the TX timer; a round of `EventLoop::run` that dispatches the TX timerfd, in
which `handleEvent` reads it and runs `txTimerCallback` up to the first step of `queueTxPacket`;
or a step of the link other than a tick of the TX timer. -/
inductive SenderAction
  | expire
  | round
  | link (a : LinkAction)

def expirations : List SenderAction → Nat
  | [] => 0
  | .expire :: actions => expirations actions + 1
  | _ :: actions => expirations actions

namespace Sender

/-- The sender as `main` leaves it: the TX timer set up for `TX_INTERVAL_MS` on the descriptor that
`timerfd_create` returned, its callback set, and the link set up. -/
def init (created : Int) (txClock rxClock : Nat × Nat) (txSlots rxSlots : Fin packetQueue.capacity → Slot)
    (rxBuffer : Fin rxBufferSize → UInt8) (constructedAt : Nat) : Sender :=
  ⟨TimerLoop.armed (TimerHandle.msec2nsec txIntervalMs) true created,
    Link.init txClock rxClock txSlots rxSlots rxBuffer constructedAt⟩

def step (s : Sender) : SenderAction → Option Sender
  | .expire => (s.timer.step .expire).map fun timer => { s with timer }
  | .round =>
    (s.timer.step .round).bind fun timer =>
      -- the read succeeded, so `handleEvent` runs the callback when one is set
      if s.timer.handle.callback then (s.link.step .txTimer).map fun link => ⟨timer, link⟩
      else some { s with timer }
  | .link .txTimer => none
  | .link a => (s.link.step a).map fun link => { s with link }

def run : Sender → List SenderAction → Option Sender
  | s, [] => some s
  | s, a :: actions => (s.step a).bind fun s' => s'.run actions

/-- The sender after `n` expirations of its TX timer: the link has seen one tick per run of the
callback, and each run, and each expiration not yet read, used up an expiration. -/
structure Paced (s : Sender) (n : Nat) : Prop where
  link : Inv s.link s.timer.calls
  used : s.timer.calls + s.timer.fd.expirations ≤ n

variable {s s' : Sender} {n : Nat}

theorem Paced.init (created : Int) (txClock rxClock : Nat × Nat) (txSlots rxSlots : Fin packetQueue.capacity → Slot)
    (rxBuffer : Fin rxBufferSize → UInt8) (constructedAt : Nat) :
    Paced (Sender.init created txClock rxClock txSlots rxSlots rxBuffer constructedAt) 0 :=
  ⟨Inv.init txClock rxClock txSlots rxSlots rxBuffer constructedAt, le_refl 0⟩

theorem Paced.step (paced : s.Paced n) {a : SenderAction} (h : s.step a = some s') :
    s'.Paced (n + expirations [a]) := by
  obtain ⟨link, used⟩ := paced
  cases a with
  | expire =>
    simp only [Sender.step] at h
    obtain ⟨timer, stepped, rfl⟩ := Option.map_eq_some'.1 h
    rcases TimerLoop.step_cases stepped with ⟨-, rfl⟩ | ⟨⟨⟩, -⟩
    exact ⟨link, by dsimp only [expirations]; omega⟩
  | round =>
    simp only [Sender.step] at h
    obtain ⟨timer, stepped, h⟩ := Option.bind_eq_some.1 h
    rcases TimerLoop.step_cases stepped with ⟨⟨⟩, -⟩ | ⟨-, readable, rfl⟩
    have fewer : s.timer.calls + 1 ≤ n := by omega
    split at h
    · rename_i callback
      obtain ⟨link', ticked, rfl⟩ := Option.map_eq_some'.1 h
      refine ⟨by simpa only [callback, if_true] using link.step ticked, ?_⟩
      simp only [callback, if_true, expirations]
      omega
    · rename_i callback
      cases Option.some.inj h
      refine ⟨by simpa only [callback] using link, ?_⟩
      simp only [callback, expirations]
      omega
  | link a =>
    cases a with
    | txTimer => cases h
    | _ =>
      simp only [Sender.step] at h
      obtain ⟨link', stepped, rfl⟩ := Option.map_eq_some'.1 h
      exact ⟨link.step stepped, used⟩

theorem Paced.run (paced : s.Paced n) {actions : List SenderAction} (ran : s.run actions = some s') :
    s'.Paced (n + expirations actions) := by
  induction actions generalizing s n with
  | nil =>
    cases Option.some.inj ran
    exact paced
  | cons a actions ih =>
    obtain ⟨s₁, stepped, ran⟩ := Option.bind_eq_some.1 ran
    have total : expirations (a :: actions) = expirations [a] + expirations actions := by
      cases a <;> simp only [expirations] <;> omega
    rw [total, ← Nat.add_assoc]
    exact ih (paced.step stepped) ran

end Sender

theorem Sends.wire_length_le {l : Link} {n : Nat} {history : List TxOutcome} {ks : List Nat}
    (inv : Sends l n history ks) : l.wire.length ≤ n := by
  obtain ⟨ks', sorted, before, wire⟩ := inv.wire_ticks
  rw [wire, List.length_map]
  calc ks'.length = ks'.toFinset.card := (List.toFinset_card_of_nodup sorted.nodup).symm
    _ ≤ (Finset.range n).card :=
      Finset.card_le_card fun k mem => Finset.mem_range.2 (before k (List.mem_toFinset.1 mem))
    _ = n := Finset.card_range n

section Runs

variable {s : Sender} (created : Int) (txClock rxClock : Nat × Nat)
  (txSlots rxSlots : Fin packetQueue.capacity → Slot) (rxBuffer : Fin rxBufferSize → UInt8)
  (constructedAt : Nat) (actions : List SenderAction)

/-- Over every interleaving of the TX timer's expirations, the loop's rounds and the link's other
steps, the frames on the wire are those of distinct runs of `txTimerCallback`, in order, and each
run used up at least one expiration, as does each expiration the loop has not read yet. The sender
puts at most one frame on the wire per expiration of its TX timer. -/
theorem sender_paced
    (ran : (Sender.init created txClock rxClock txSlots rxSlots rxBuffer constructedAt).run actions = some s) :
    (∃ ks : List Nat, ks.Sorted (· < ·) ∧ (∀ k ∈ ks, k < s.timer.calls) ∧ s.link.wire = ks.map timerFrame) ∧
      s.link.wire.length ≤ s.timer.calls ∧ s.timer.calls + s.timer.fd.expirations ≤ expirations actions := by
  obtain ⟨⟨⟨history, ks, sends⟩, -⟩, used⟩ :=
    (Sender.Paced.init created txClock rxClock txSlots rxSlots rxBuffer constructedAt).run ran
  exact ⟨sends.wire_ticks, sends.wire_length_le, by simpa only [Nat.zero_add] using used⟩

/-- Two expirations before the loop takes a round, the frame's `push`, `pop` and `send`. -/
def pacedFrame : List SenderAction :=
  [.expire, .expire, .round, .link .main, .link .main, .link .main, .link .main, .link .main,
    .link .worker, .link .worker, .link .worker, .link .worker, .link .worker, .link .worker,
    .link (.send 27)]

set_option maxRecDepth 2000 in
theorem sender_paced_first :
    ∃ s, (Sender.init 3 (0, 0) (0, 0) (fun _ => ⟨0, []⟩) (fun _ => ⟨0, []⟩) (fun _ => 0) 0).run pacedFrame = some s ∧
      (∃ ks : List Nat, ks.Sorted (· < ·) ∧ (∀ k ∈ ks, k < s.timer.calls) ∧ s.link.wire = ks.map timerFrame) ∧
      s.link.wire.length ≤ s.timer.calls ∧ s.timer.calls + s.timer.fd.expirations ≤ expirations pacedFrame :=
  ⟨_, rfl, sender_paced 3 (0, 0) (0, 0) (fun _ => ⟨0, []⟩) (fun _ => ⟨0, []⟩) (fun _ => 0) 0 pacedFrame rfl⟩

end Runs

end UdpPeer.App
