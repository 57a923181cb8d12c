import UdpPeer.Thread.RxPath

/-!
# Progress of the TX path

The ring is lock-free: no step of `push` or `pop` waits for the other thread. This module shows
what that gives the two threads of the TX path, from every state the invariant `Coherent`
describes (every reachable state, `Coherent.step`).

* `drain_step`: the TX worker calls `pop` with its 2048-byte buffer, and `push` accepts at most
  `MaxPacketSize` = 2048 bytes, so `pop` never returns the "too long" failure that would leave a
  packet at the head for ever. Unless the worker is idle at an empty queue, a step of the worker,
  or a `send`, is enabled and lowers the measure `drainLeft`.
* `main_enabled` and `pushLeft_main`: while the main thread is inside `queueTxPacket`, its next
  step is enabled and lowers `pushLeft`, the steps it has left, at most five. The worker's steps
  never change `pushLeft` (`pushLeft_congr`).
-/

namespace UdpPeer.Thread

namespace Ring

variable {P : RingParams} {s s' : Ring P} {o : Outcome}

def Short (s : Ring P) : Prop := ∀ p ∈ s.contents, p.length ≤ P.maxPacketSize

theorem Short.linearizes (short : s.Short) (effect : Linearizes P s.contents o s'.contents) : s'.Short := by
  intro p mem
  cases o with
  | none => exact short p ((show s'.contents = s.contents from effect) ▸ mem)
  | pushed data length ok =>
    simp only [Linearizes, Fifo.push] at effect
    split_ifs at effect with long
    all_goals obtain ⟨-, queue⟩ := Prod.mk.inj effect
    all_goals rw [← queue] at mem
    · exact short p mem
    · exact short p mem
    · rcases List.mem_append.1 mem with mem | mem
      · exact short p mem
      · rw [List.mem_singleton.1 mem]
        exact Nat.le_of_not_lt long
  | popped maxLength result =>
    have shrunk : _ ++ s'.contents = s.contents ++ [] := Linearizes.history effect
    rw [List.append_nil] at shrunk
    exact short p (shrunk ▸ List.mem_append_right _ mem)

end Ring

namespace TxState

variable {t t' : TxState} {o : TxOutcome}

theorem afterPop_popped (q : Ring packetQueue) (maxLength : Nat) (result : PopResult) :
    (t.afterPop q (.popped maxLength result)).1.worker ≠ .popping := by
  cases result <;> nofun

/-! ## The invariant -/

/-- What every reachable state of the TX path satisfies beyond `TxInv`: the ring's invariant,
short queued packets, each thread inside its ring call exactly when the ring's program counter for
it is, and a `pop` under way with room for any queued packet. -/
structure Coherent (t : TxState) : Prop where
  ring : t.txQueue.Inv
  short : t.txQueue.Short
  pushing : t.main = .pushing ↔ t.txQueue.producer ≠ .idle
  popping : t.worker = .popping ↔ t.txQueue.consumer ≠ .idle
  wide : t.txQueue.consumer ≠ .idle → packetQueue.maxPacketSize ≤ t.txQueue.consumer.maxLength

theorem Coherent.producer_idle (c : t.Coherent) (other : t.main ≠ .pushing) :
    t.txQueue.producer = .idle := by
  by_contra busy
  exact other (c.pushing.2 busy)

theorem Coherent.consumer_idle (c : t.Coherent) (other : t.worker ≠ .popping) :
    t.txQueue.consumer = .idle := by
  by_contra busy
  exact other (c.popping.2 busy)

theorem Coherent.init (buffer : Fin packetQueue.capacity → Slot) : (TxState.init buffer).Coherent where
  ring := Ring.inv_init buffer
  short p mem := by simp [TxState.init, Ring.init, Ring.contents, Ring.size] at mem
  pushing := ⟨nofun, fun busy => absurd rfl busy⟩
  popping := ⟨nofun, fun busy => absurd rfl busy⟩
  wide busy := absurd rfl busy

theorem Coherent.pushed (c : t.Coherent) {q : Ring packetQueue} {ro : Outcome}
    (sound : Ring.Sound t.txQueue ro q) (consumer : q.consumer = t.txQueue.consumer)
    (outcome : ro = .none ∧ q.producer ≠ .idle ∨ (∃ d len ok, ro = .pushed d len ok) ∧ q.producer = .idle) :
    (t.afterPush q ro).1.Coherent := by
  obtain ⟨queue, worker, -⟩ := t.afterPush_spec q ro
  refine ⟨by rw [queue]; exact sound.inv, by rw [queue]; exact c.short.linearizes sound.linearizes, ?_, ?_, ?_⟩
  · rw [queue]
    rcases outcome with ⟨rfl, busy⟩ | ⟨⟨d, len, ok, rfl⟩, idle⟩
    · exact ⟨fun _ => busy, fun _ => rfl⟩
    · exact ⟨fun pushing => absurd pushing (by cases ok <;> nofun), fun busy => absurd idle busy⟩
  · rw [worker, queue, consumer]
    exact c.popping
  · rw [queue, consumer]
    exact c.wide

theorem Coherent.worker_moved (c : t.Coherent) (queue : t'.txQueue = t.txQueue) (main : t'.main = t.main)
    (outside : t.worker ≠ .popping) (outside' : t'.worker ≠ .popping) : t'.Coherent := by
  have idle := c.consumer_idle outside
  refine ⟨queue ▸ c.ring, queue ▸ c.short, by rw [queue, main]; exact c.pushing, ?_, ?_⟩
  · rw [queue]
    exact ⟨fun popping => absurd popping outside', fun busy => absurd idle busy⟩
  · rw [queue]
    exact fun busy => absurd idle busy

theorem Coherent.step (c : t.Coherent) {a : TxAction} (h : t.step a = some (t', o)) :
    t'.Coherent := by
  cases a with
  | queueTxPacket data length =>
    simp only [TxState.step] at h
    split at h
    · obtain ⟨⟨q, ro⟩, ringStep, after⟩ := Option.map_eq_some'.1 h
      rw [← (Prod.mk.inj after).1]
      exact c.pushed (Ring.callPush_sound c.ring ringStep) (Ring.callPush_consumer ringStep)
        (Ring.callPush_outcome ringStep).2
    · cases h
  | main =>
    simp only [TxState.step] at h
    split at h
    · obtain ⟨⟨q, ro⟩, ringStep, after⟩ := Option.map_eq_some'.1 h
      rw [← (Prod.mk.inj after).1]
      refine c.pushed (Ring.producerStep_sound c.ring ringStep) (Ring.producerStep_consumer ringStep) ?_
      rcases Ring.producerStep_outcome ringStep with ⟨none, busy, -⟩ | ⟨d, len, ok, pushed, idle, -⟩
      · exact .inl ⟨none, busy⟩
      · exact .inr ⟨⟨d, len, ok, pushed⟩, idle⟩
    · rename_i dropping
      have idle := c.producer_idle (by rw [dropping]; nofun)
      obtain ⟨rfl, rfl⟩ := Prod.mk.inj (Option.some.inj h)
      exact ⟨c.ring, c.short, ⟨nofun, fun busy => absurd idle busy⟩, c.popping, c.wide⟩
    · cases h
  | worker =>
    simp only [TxState.step] at h
    split at h
    · -- the worker calls `pop`
      obtain ⟨⟨q, ro⟩, ringStep, after⟩ := Option.map_eq_some'.1 h
      obtain ⟨rfl, rfl⟩ := Prod.mk.inj after
      have sound := Ring.callPop_sound c.ring ringStep
      unfold Ring.callPop at ringStep
      split at ringStep
      · obtain ⟨rfl, rfl⟩ := Prod.mk.inj (Option.some.inj ringStep)
        refine ⟨sound.inv, c.short, c.pushing, ⟨fun _ => nofun, fun _ => rfl⟩, fun _ => ?_⟩
        show packetQueue.maxPacketSize ≤ txBufferSize
        decide
      · cases ringStep
    · -- a step inside `pop`
      obtain ⟨⟨q, ro⟩, ringStep, after⟩ := Option.map_eq_some'.1 h
      have next : (t.afterPop q ro).1 = t' := congrArg Prod.fst after
      subst next
      have sound := Ring.consumerStep_sound c.ring ringStep
      obtain ⟨queue, -⟩ := t.afterPop_spec q ro
      refine ⟨by rw [queue]; exact sound.inv, by rw [queue]; exact c.short.linearizes sound.linearizes, ?_, ?_, ?_⟩
      · rw [afterPop_main, queue, Ring.consumerStep_producer ringStep]
        exact c.pushing
      · rw [queue]
        rcases (Ring.consumerStep_outcome ringStep).2 with ⟨rfl, busy, -⟩ | ⟨⟨result, rfl⟩, idle⟩
        · exact ⟨fun _ => busy, fun _ => rfl⟩
        · exact ⟨fun popping => absurd popping (afterPop_popped q _ result), fun busy => absurd idle busy⟩
      · rw [queue]
        intro busy
        rcases (Ring.consumerStep_outcome ringStep).2 with ⟨-, -, same, -⟩ | ⟨-, idle⟩
        · rw [same]
          exact c.wide (c.popping.1 ‹_›)
        · exact absurd idle busy
    · -- the worker counts, and is idle again
      rename_i sentLen counting
      split at h <;> obtain ⟨rfl, rfl⟩ := Prod.mk.inj (Option.some.inj h) <;>
        exact c.worker_moved rfl rfl (by rw [counting]; nofun) nofun
    · cases h
  | send sentLen =>
    simp only [TxState.step] at h
    split at h
    · rename_i packet sending
      obtain ⟨rfl, rfl⟩ := Prod.mk.inj (Option.some.inj h)
      exact c.worker_moved rfl rfl (by rw [sending]; nofun) nofun
    · cases h

/-! ## The worker drains the queue -/

/-- How far the TX worker is from an empty queue, `send` succeeding: nine steps per queued
packet, and the steps left in the current iteration. -/
def drainLeft (t : TxState) : Nat :=
  match t.worker with
  | .idle => if t.txQueue.contents.length = 0 then 0 else 9 * t.txQueue.contents.length + 6
  | .popping => 9 * t.txQueue.contents.length + t.txQueue.consumer.stepsLeft
  | .sending _ => 9 * t.txQueue.contents.length + 8
  | .counting _ => 9 * t.txQueue.contents.length + 7

theorem drain_step (sentLen : Int) (c : t.Coherent) (pending : t.worker ≠ .idle ∨ t.txQueue.contents ≠ []) :
    ∃ a t' o, (a = .worker ∨ a = .send sentLen) ∧ t.step a = some (t', o) ∧ t'.drainLeft < t.drainLeft := by
  cases worker : t.worker with
  | idle =>
    -- the worker calls `pop`
    have consumer := c.consumer_idle (by rw [worker]; nofun)
    have queued : t.txQueue.contents.length ≠ 0 := by
      rcases pending with idle | queued
      · exact absurd worker idle
      · exact fun empty => queued (List.length_eq_zero.1 empty)
    have same : ({ t.txQueue with consumer := .loadRead txBufferSize } : Ring packetQueue).contents =
        t.txQueue.contents := rfl
    refine ⟨.worker, _, _, .inl rfl, by simp only [TxState.step, worker, Ring.callPop, consumer]; rfl, ?_⟩
    simp only [drainLeft, worker, if_neg queued, ConsumerPc.stepsLeft, same]
    omega
  | popping =>
    -- a step inside `pop`
    obtain ⟨q, ro, ringStep⟩ := Ring.consumerStep_isSome (c.popping.1 worker)
    refine ⟨.worker, _, _, .inl rfl, by simp only [TxState.step, worker, ringStep, Option.map_some']; rfl, ?_⟩
    have sound := Ring.consumerStep_sound c.ring ringStep
    have wide := c.wide (c.popping.1 worker)
    have started : 0 < t.txQueue.consumer.stepsLeft := by
      cases pc : t.txQueue.consumer
      · exact absurd pc (c.popping.1 worker)
      all_goals simp [ConsumerPc.stepsLeft]
    obtain ⟨queue, -⟩ := t.afterPop_spec q ro
    rcases (Ring.consumerStep_outcome ringStep).2 with ⟨rfl, -, -, nearer⟩ | ⟨⟨result, rfl⟩, -⟩
    · -- still inside `pop`
      have same : q.contents = t.txQueue.contents := sound.linearizes
      have still : (t.afterPop q .none).1.worker = .popping := rfl
      simp only [drainLeft, still, worker, queue, same]
      omega
    · have effect : Fifo.pop t.txQueue.contents t.txQueue.consumer.maxLength = (result, q.contents) :=
        sound.linearizes
      cases queued : t.txQueue.contents with
      | nil =>
        -- the queue was empty: `pop` returns `false`
        rw [queued] at effect
        obtain ⟨rfl, empty⟩ := Prod.mk.inj effect
        simp only [drainLeft, worker, queue, ← empty, afterPop, List.length_nil, if_true]
        omega
      | cons packet rest =>
        -- the head is short enough: `pop` delivers it
        have fits : packet.length ≤ t.txQueue.consumer.maxLength :=
          (c.short packet (by rw [queued]; exact List.mem_cons_self _ _)).trans wide
        rw [queued] at effect
        simp only [Fifo.pop, if_neg (Nat.not_lt.2 fits)] at effect
        obtain ⟨rfl, rest'⟩ := Prod.mk.inj effect
        simp only [drainLeft, worker, queue, afterPop, ← rest', queued, List.length_cons]
        omega
  | sending packet =>
    refine ⟨.send sentLen, _, _, .inr rfl, by simp only [TxState.step, worker]; rfl, ?_⟩
    simp only [drainLeft, worker]
    omega
  | counting sentLen' =>
    by_cases sent : sentLen' > 0
    · refine ⟨.worker, { t with txPacketCount := t.txPacketCount + 1, worker := .idle }, .counted true,
        .inl rfl, by simp only [TxState.step, worker, if_pos sent], ?_⟩
      simp only [drainLeft, worker]
      split <;> omega
    · refine ⟨.worker, { t with txDropCount := t.txDropCount + 1, worker := .idle }, .counted false,
        .inl rfl, by simp only [TxState.step, worker, if_neg sent], ?_⟩
      simp only [drainLeft, worker]
      split <;> omega

/-! ## `queueTxPacket` is wait-free -/

/-- The steps the main thread has left before `queueTxPacket` returns: those of `push`, or the one
that counts the drop. -/
def pushLeft (t : TxState) : Nat :=
  match t.main with
  | .idle => 0
  | .pushing => t.txQueue.producer.stepsLeft
  | .dropping => 1

theorem pushLeft_le (t : TxState) : t.pushLeft ≤ 5 := by
  unfold pushLeft
  split
  · exact Nat.zero_le 5
  · cases t.txQueue.producer <;> simp [ProducerPc.stepsLeft]
  · omega

theorem pushLeft_congr (main : t'.main = t.main) (producer : t'.txQueue.producer = t.txQueue.producer) :
    t'.pushLeft = t.pushLeft := by
  simp only [pushLeft, main, producer]

theorem Coherent.main_enabled (c : t.Coherent) (busy : t.main ≠ .idle) : ∃ t' o, t.step .main = some (t', o) := by
  cases main : t.main with
  | idle => exact absurd main busy
  | dropping =>
    simp only [TxState.step, main]
    exact ⟨_, _, rfl⟩
  | pushing =>
    have inside := c.pushing.1 main
    cases pc : t.txQueue.producer
    · exact absurd pc inside
    all_goals
      simp only [TxState.step, main, Ring.producerStep, pc]
      (try split_ifs) <;> exact ⟨_, _, rfl⟩

theorem pushLeft_main (h : t.step .main = some (t', o)) : t'.pushLeft < t.pushLeft := by
  simp only [TxState.step] at h
  split at h
  · rename_i pushing
    obtain ⟨⟨q, ro⟩, ringStep, after⟩ := Option.map_eq_some'.1 h
    have next : (t.afterPush q ro).1 = t' := congrArg Prod.fst after
    subst next
    obtain ⟨queue, -⟩ := t.afterPush_spec q ro
    rcases Ring.producerStep_outcome ringStep with ⟨rfl, -, nearer⟩ | ⟨d, len, ok, rfl, -, stepsLeft⟩
    · -- still inside `push`
      have still : (t.afterPush q .none).1.main = .pushing := rfl
      simp only [pushLeft, still, pushing, queue]
      omega
    · -- `push` returns
      cases ok <;> simp only [pushLeft, afterPush, pushing, stepsLeft] <;> decide
  · rename_i dropping
    obtain ⟨rfl, rfl⟩ := Prod.mk.inj (Option.some.inj h)
    simp only [pushLeft, dropping]
    decide
  · cases h

end TxState

end UdpPeer.Thread
