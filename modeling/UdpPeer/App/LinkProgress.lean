import UdpPeer.App.Link

/-!
# Progress of the sender

This module carries the progress results of the TX path (`drain_step`, `pushLeft_main`) to the
link, over every run and every interleaving of the four threads.

* `link_tx_drains`: the TX worker loops over `pop`, `send` and counting the result, and nothing
  else can hold it up. From every reachable state, some run empties the queue with the main
  thread never scheduled. That run takes steps of the TX worker and `send`s, and `sendto` returns
  the same value to every `send`. Afterwards the worker is idle and the queue is empty. If
  `sendto` succeeds, the wire gains the packet the worker held and then every queued packet, in
  queue order. If it fails, the wire gains nothing.
* `link_push_wait_free`: `queueTxPacket` never waits for the worker. Whatever the other threads
  do, the call the main thread is inside returns within five of its own steps, each of them
  enabled.
-/

namespace UdpPeer.Thread

variable {t t' : TxState} {history : List TxOutcome} {a : TxAction} {o : TxOutcome} {sentLen : Int}

theorem TxInv.conserves (inv : TxInv t history) (drains : a = .worker ∨ a = .send sentLen)
    (h : t.step a = some (t', o)) :
    o.sends ++ t'.held ++ t'.txQueue.contents.map Packet.data = t.held ++ t.txQueue.contents.map Packet.data := by
  have accepts : o.accepts = [] := by
    rcases drains with rfl | rfl
    · exact (TxState.step_worker h).2.2.1
    · obtain ⟨packet, -, -, rfl⟩ := TxState.step_send h
      rfl
  have order := (inv.step h).order
  rw [List.flatMap_append, List.flatMap_append, List.flatMap_singleton, List.flatMap_singleton, accepts,
    List.append_nil, ← inv.order] at order
  simpa only [List.append_assoc, List.append_cancel_left_eq] using order

end UdpPeer.Thread

namespace UdpPeer.App

open UdpPeer.Packet UdpPeer.Thread

def LinkAction.isMain : LinkAction → Bool
  | .main => true
  | _ => false

namespace Link

variable {l l' : Link} {a : LinkAction} {t' : TxState} {o : TxOutcome} {sentLen : Int}

theorem step_tx (h : l.step a = some l') : l'.tx = l.tx ∨ ∃ ta o, l.tx.step ta = some (l'.tx, o) := by
  cases a with
  | txTimer =>
    simp only [step] at h
    split at h
    · split at h
      · cases h
        exact .inl rfl
      · obtain ⟨⟨t', o⟩, stepped, rfl⟩ := Option.map_eq_some'.1 h
        exact .inr ⟨_, o, stepped⟩
    · cases h
  | main | worker | send =>
    obtain ⟨⟨t', o⟩, stepped, rfl⟩ := Option.map_eq_some'.1 h
    exact .inr ⟨_, o, stepped⟩
  | receive =>
    simp only [step] at h
    split at h
    · obtain ⟨rx, -, rfl⟩ := Option.map_eq_some'.1 h
      exact .inl rfl
    · cases h

theorem coherent_step (c : l.tx.Coherent) (h : l.step a = some l') : l'.tx.Coherent := by
  rcases step_tx h with same | ⟨ta, o, stepped⟩
  · exact same ▸ c
  · exact c.step stepped

theorem coherent_run (c : l.tx.Coherent) {actions : List LinkAction} (ran : l.run actions = some l') :
    l'.tx.Coherent := by
  induction actions generalizing l with
  | nil =>
    cases Option.some.inj ran
    exact c
  | cons a actions ih =>
    obtain ⟨l₁, stepped, ran⟩ := Option.bind_eq_some.1 ran
    exact ih (coherent_step c stepped) ran

theorem step_drains {ta : TxAction} (drains : ta = .worker ∨ ta = .send sentLen) (h : l.tx.step ta = some (t', o)) :
    ∃ a, (a = .worker ∨ a = .send sentLen) ∧
      l.step a = some { l with tx := t', wire := if sentLen > 0 then l.wire ++ o.sends else l.wire } := by
  rcases drains with rfl | rfl
  · refine ⟨.worker, .inl rfl, ?_⟩
    rw [(TxState.step_worker h).2.2.2.1, List.append_nil, ite_self]
    simp only [step, h, Option.map_some']
  · exact ⟨.send sentLen, .inr rfl, by simp only [step, h, Option.map_some']⟩

theorem drains (sentLen : Int) {history : List TxOutcome} (c : l.tx.Coherent) (inv : TxInv l.tx history) :
    ∃ more, (∀ a ∈ more, a = .worker ∨ a = .send sentLen) ∧ ∃ l', l.run more = some l' ∧
      l'.tx.worker = .idle ∧ l'.tx.txQueue.contents = [] ∧
      l'.wire = if sentLen > 0 then l.wire ++ l.tx.held ++ l.tx.txQueue.contents.map Packet.data
        else l.wire := by
  generalize left : l.tx.drainLeft = n
  induction n using Nat.strong_induction_on generalizing l history with
  | h n ih =>
    by_cases pending : l.tx.worker ≠ .idle ∨ l.tx.txQueue.contents ≠ []
    · obtain ⟨ta, t', o, drains, stepped, nearer⟩ := TxState.drain_step sentLen c pending
      obtain ⟨a, first, linked⟩ := step_drains drains stepped
      have conserved := inv.conserves drains stepped
      obtain ⟨more, rest, l', ran, idle, empty, wire⟩ :=
        ih _ (left ▸ nearer) (l := { l with tx := t', wire := if sentLen > 0 then l.wire ++ o.sends else l.wire })
          (c.step stepped) (inv.step stepped) rfl
      refine ⟨a :: more, fun a' mem => ?_, l', by rw [run, linked]; exact ran, idle, empty, ?_⟩
      · rcases List.mem_cons.1 mem with rfl | mem
        · exact first
        · exact rest a' mem
      · rw [wire]
        dsimp only
        by_cases sent : sentLen > 0
        · simp only [if_pos sent, List.append_assoc, ← conserved]
        · simp only [if_neg sent]
    · push_neg at pending
      refine ⟨[], nofun, l, rfl, pending.1, pending.2, ?_⟩
      simp only [TxState.held, pending.1, pending.2, List.map_nil, List.append_nil, ite_self]

theorem pushLeft_step (other : a ≠ .txTimer) (h : l.step a = some l') :
    l'.tx.pushLeft + (if a.isMain then 1 else 0) ≤ l.tx.pushLeft := by
  cases a with
  | txTimer => exact absurd rfl other
  | main =>
    obtain ⟨⟨t', o⟩, stepped, rfl⟩ := Option.map_eq_some'.1 h
    have nearer := TxState.pushLeft_main stepped
    simp only [LinkAction.isMain, if_true]
    omega
  | worker =>
    obtain ⟨⟨t', o⟩, stepped, rfl⟩ := Option.map_eq_some'.1 h
    obtain ⟨main, producer, -⟩ := TxState.step_worker stepped
    exact (TxState.pushLeft_congr main producer).le
  | send =>
    obtain ⟨⟨t', o⟩, stepped, rfl⟩ := Option.map_eq_some'.1 h
    obtain ⟨-, -, rfl, -⟩ := TxState.step_send stepped
    exact Nat.le_refl _
  | receive =>
    simp only [step] at h
    split at h
    · obtain ⟨rx, -, rfl⟩ := Option.map_eq_some'.1 h
      exact Nat.le_refl _
    · cases h

theorem pushLeft_run {more : List LinkAction} (others : ∀ a ∈ more, a ≠ .txTimer) (ran : l.run more = some l') :
    more.countP LinkAction.isMain + l'.tx.pushLeft ≤ l.tx.pushLeft := by
  induction more generalizing l with
  | nil =>
    cases Option.some.inj ran
    simp
  | cons a more ih =>
    obtain ⟨l₁, stepped, ran⟩ := Option.bind_eq_some.1 ran
    have first := pushLeft_step (others a (List.mem_cons_self _ _)) stepped
    have rest := ih (fun a' mem => others a' (List.mem_cons_of_mem _ mem)) ran
    rw [List.countP_cons]
    omega

theorem main_enabled (c : l.tx.Coherent) (busy : l.tx.main ≠ .idle) : ∃ l', l.step .main = some l' := by
  obtain ⟨t', o, stepped⟩ := c.main_enabled busy
  exact ⟨{ l with tx := t' }, by simp only [step, stepped, Option.map_some']⟩

end Link

section Runs

variable {l : Link} (txClock rxClock : Nat × Nat) (txSlots rxSlots : Fin packetQueue.capacity → Slot)
  (rxBuffer : Fin rxBufferSize → UInt8) (constructedAt : Nat) (actions : List LinkAction)

/-- Over every run of the link, and whatever `sendto` returns, the TX worker can empty the queue
on its own: some run of its steps and `send`s leaves it idle at an empty queue. If `sendto`
succeeds, the frame the worker held and the queued frames reach the wire, in queue order, after
what was already there. No frame is lost or stuck in the ring. -/
theorem link_tx_drains (sentLen : Int)
    (ran : (Link.init txClock rxClock txSlots rxSlots rxBuffer constructedAt).run actions = some l) :
    ∃ more, (∀ a ∈ more, a = .worker ∨ a = .send sentLen) ∧ ∃ l', l.run more = some l' ∧
      l'.tx.worker = .idle ∧ l'.tx.txQueue.contents = [] ∧
      l'.wire = if sentLen > 0 then l.wire ++ l.tx.held ++ l.tx.txQueue.contents.map Packet.data
        else l.wire := by
  obtain ⟨⟨history, ks, sends⟩, -⟩ := Inv.of_run txClock rxClock txSlots rxSlots rxBuffer constructedAt actions ran
  exact Link.drains sentLen (Link.coherent_run (TxState.Coherent.init txSlots) ran) sends.tx

/-- Two ticks of the TX timer, each frame pushed to the end; the worker pops the first and holds
it, the second still queued. -/
def twoQueued : List LinkAction :=
  [.txTimer, .main, .main, .main, .main, .main, .txTimer, .main, .main, .main, .main, .main,
    .worker, .worker, .worker, .worker, .worker, .worker]

set_option maxRecDepth 2000 in
theorem link_tx_drains_held :
    ∃ l, (Link.init (0, 0) (0, 0) (fun _ => ⟨0, []⟩) (fun _ => ⟨0, []⟩) (fun _ => 0) 0).run twoQueued = some l ∧
      l.tx.held.length = 1 ∧ l.tx.txQueue.contents.length = 1 ∧
      ∃ more, (∀ a ∈ more, a = .worker ∨ a = .send 27) ∧ ∃ l', l.run more = some l' ∧
        l'.tx.worker = .idle ∧ l'.tx.txQueue.contents = [] ∧
        l'.wire = if (27 : Int) > 0 then l.wire ++ l.tx.held ++ l.tx.txQueue.contents.map Packet.data
          else l.wire :=
  ⟨_, rfl, rfl, rfl,
    link_tx_drains (0, 0) (0, 0) (fun _ => ⟨0, []⟩) (fun _ => ⟨0, []⟩) (fun _ => 0) 0 twoQueued 27 rfl⟩

/-- Over every run of the link, `queueTxPacket` is wait-free. Whatever the worker, `send`s and the
receiver do in between, the call the main thread is inside returns within `pushLeft` of its own
steps, at most five, and until it returns the main thread's next step is enabled. -/
theorem link_push_wait_free
    (ran : (Link.init txClock rxClock txSlots rxSlots rxBuffer constructedAt).run actions = some l)
    {more : List LinkAction} (others : ∀ a ∈ more, a ≠ .txTimer) {l' : Link} (ran' : l.run more = some l') :
    more.countP LinkAction.isMain + l'.tx.pushLeft ≤ l.tx.pushLeft ∧ l.tx.pushLeft ≤ 5 ∧
      (l'.tx.main ≠ .idle → ∃ l'', l'.step .main = some l'') := by
  have coherent := Link.coherent_run (TxState.Coherent.init txSlots) ran
  exact ⟨Link.pushLeft_run others ran', l.tx.pushLeft_le, Link.main_enabled (Link.coherent_run coherent ran')⟩

/-- Three steps of `push` after a tick of the TX timer, a step of the worker after the first. -/
def interleavedPush : List LinkAction :=
  [.main, .worker, .main, .main]

set_option maxRecDepth 2000 in
theorem link_push_wait_free_first :
    ∃ l, (Link.init (0, 0) (0, 0) (fun _ => ⟨0, []⟩) (fun _ => ⟨0, []⟩) (fun _ => 0) 0).run [.txTimer] = some l ∧
      (∀ a ∈ interleavedPush, a ≠ .txTimer) ∧ ∃ l', l.run interleavedPush = some l' ∧
      interleavedPush.countP LinkAction.isMain + l'.tx.pushLeft ≤ l.tx.pushLeft ∧ l.tx.pushLeft ≤ 5 ∧
        (l'.tx.main ≠ .idle → ∃ l'', l'.step .main = some l'') := by
  have others : ∀ a ∈ interleavedPush, a ≠ .txTimer := by
    simp only [interleavedPush, List.mem_cons, List.mem_nil_iff, or_false]
    rintro a (rfl | rfl | rfl | rfl) <;> nofun
  exact ⟨_, rfl, others, _, rfl,
    link_push_wait_free (0, 0) (0, 0) (fun _ => ⟨0, []⟩) (fun _ => ⟨0, []⟩) (fun _ => 0) 0 [.txTimer] rfl others rfl⟩

end Runs

end UdpPeer.App
