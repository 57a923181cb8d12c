import UdpPeer.Thread.RingBuffer

/-!
# The TX path of `UdpThreadManager`

The main thread calls `queueTxPacket(data, length)`, which pushes onto `m_txQueue` and counts a
drop in `m_txDropCount` when the push fails. The TX worker loops: it pops into its 2048-byte
buffer, hands the bytes to `UdpNode::send`, and counts the result in `m_txPacketCount` or
`m_txDropCount`. The two threads interleave step by step, the ring's steps as in
`UdpPeer.Thread.RingBuffer`; what `send` returns is chosen by the environment.

A call of `queueTxPacket` ends with its last shared effect: the store of the write index when
the push succeeds, the increment of `m_txDropCount` when it fails. The worker is between
iterations at the top of its loop. The latency samples the worker records are left out.
-/

namespace UdpPeer.Thread

inductive MainPc
  | idle
  | pushing
  | dropping

inductive WorkerPc
  | idle
  | popping
  | sending (packet : Packet)
  | counting (sentLen : Int)

structure TxState where
  txQueue : Ring packetQueue
  main : MainPc
  worker : WorkerPc
  txPacketCount : UInt64
  txDropCount : UInt64

inductive TxAction
  | queueTxPacket (data : List UInt8) (length : Nat)
  | main
  | worker
  | send (sentLen : Int)

def TxAction.isCall : TxAction → Bool
  | .queueTxPacket .. => true
  | _ => false

/-- What a step of the TX path shows: `accepted` when `queueTxPacket` queued the bytes and
returns `true`, `dropped` when it counted a drop and returns `false`. -/
inductive TxOutcome
  | none
  | accepted (bytes : List UInt8)
  | dropped
  | sent (bytes : List UInt8)
  | counted (success : Bool)

def txBufferSize : Nat := 2048

namespace TxState

variable (t : TxState)

def afterPush (txQueue : Ring packetQueue) : Outcome → TxState × TxOutcome
  | .pushed data length true => ({ t with txQueue, main := .idle }, .accepted (data.take length))
  | .pushed _ _ false => ({ t with txQueue, main := .dropping }, .none)
  | _ => ({ t with txQueue, main := .pushing }, .none)

def afterPop (txQueue : Ring packetQueue) : Outcome → TxState × TxOutcome
  | .popped _ (.popped packet) => ({ t with txQueue, worker := .sending packet }, .none)
  | .popped _ _ => ({ t with txQueue, worker := .idle }, .none)
  | _ => ({ t with txQueue, worker := .popping }, .none)

def step : TxAction → Option (TxState × TxOutcome)
  | .queueTxPacket data length =>
    match t.main with
    | .idle => (t.txQueue.callPush data length).map fun (q, o) => t.afterPush q o
    | _ => none
  | .main =>
    match t.main with
    | .pushing => t.txQueue.producerStep.map fun (q, o) => t.afterPush q o
    | .dropping => some ({ t with txDropCount := t.txDropCount + 1, main := .idle }, .dropped)
    | .idle => none
  | .worker =>
    match t.worker with
    | .idle => (t.txQueue.callPop txBufferSize).map fun (q, _) => ({ t with txQueue := q, worker := .popping }, .none)
    | .popping => t.txQueue.consumerStep.map fun (q, o) => t.afterPop q o
    | .counting sentLen =>
      if sentLen > 0 then
        some ({ t with txPacketCount := t.txPacketCount + 1, worker := .idle }, .counted true)
      else some ({ t with txDropCount := t.txDropCount + 1, worker := .idle }, .counted false)
    | .sending _ => none
  | .send sentLen =>
    match t.worker with
    | .sending packet => some ({ t with worker := .counting sentLen }, .sent packet.data)
    | _ => none

def run : TxState → List TxAction → Option (TxState × List TxOutcome)
  | t, [] => some (t, [])
  | t, a :: actions => (t.step a).bind fun (t', o) => (t'.run actions).map fun (t'', os) => (t'', o :: os)

/-- One while the main thread is inside `queueTxPacket`. -/
def busy : Nat :=
  match t.main with
  | .idle => 0
  | _ => 1

def held : List (List UInt8) :=
  match t.worker with
  | .sending packet => [packet.data]
  | _ => []

def uncounted : Nat :=
  match t.worker with
  | .counting _ => 1
  | _ => 0

def init (buffer : Fin packetQueue.capacity → Slot) : TxState :=
  ⟨Ring.init buffer, .idle, .idle, 0, 0⟩

end TxState

namespace TxOutcome

@[simp] def accepts : TxOutcome → List (List UInt8)
  | accepted bytes => [bytes]
  | _ => []

@[simp] def sends : TxOutcome → List (List UInt8)
  | sent bytes => [bytes]
  | _ => []

@[simp] def endsCall : TxOutcome → Bool
  | accepted _ | dropped => true
  | _ => false

@[simp] def isDrop : TxOutcome → Bool
  | dropped | counted false => true
  | _ => false

@[simp] def isSuccess : TxOutcome → Bool
  | counted true => true
  | _ => false

@[simp] def isCount : TxOutcome → Bool
  | counted _ => true
  | _ => false

end TxOutcome

/-! ## The invariant -/

/-- What the TX path has done so far, read off its history. -/
structure TxInv (t : TxState) (history : List TxOutcome) : Prop where
  ring : t.txQueue.Inv
  order : history.flatMap TxOutcome.sends ++ t.held ++ t.txQueue.contents.map Packet.data =
    history.flatMap TxOutcome.accepts
  counts : (history.flatMap TxOutcome.sends).length = history.countP TxOutcome.isCount + t.uncounted
  txPacketCount : t.txPacketCount.toNat = history.countP TxOutcome.isSuccess % 2 ^ 64
  txDropCount : t.txDropCount.toNat = history.countP TxOutcome.isDrop % 2 ^ 64

theorem uint64_succ_toNat {x : UInt64} {n : Nat} (counted : x.toNat = n % 2 ^ 64) :
    (x + 1).toNat = (n + 1) % 2 ^ 64 := by
  show (x.toNat + 1) % 2 ^ 64 = _
  rw [counted, Nat.mod_add_mod]

namespace TxState

variable (t : TxState)

theorem afterPush_spec (q : Ring packetQueue) (o : Outcome) :
    (t.afterPush q o).1.txQueue = q ∧ (t.afterPush q o).1.worker = t.worker ∧
    (t.afterPush q o).1.txPacketCount = t.txPacketCount ∧
    (t.afterPush q o).1.txDropCount = t.txDropCount ∧
    (t.afterPush q o).2.accepts = o.accepted.map Packet.data ∧ (t.afterPush q o).2.sends = [] ∧
    (t.afterPush q o).2.isCount = false ∧ (t.afterPush q o).2.isSuccess = false ∧
    (t.afterPush q o).2.isDrop = false := by
  cases o with
  | pushed data length ok => cases ok <;> exact ⟨rfl, rfl, rfl, rfl, rfl, rfl, rfl, rfl, rfl⟩
  | _ => exact ⟨rfl, rfl, rfl, rfl, rfl, rfl, rfl, rfl, rfl⟩

theorem afterPop_spec (q : Ring packetQueue) (o : Outcome) :
    (t.afterPop q o).1.txQueue = q ∧ (t.afterPop q o).1.txPacketCount = t.txPacketCount ∧
    (t.afterPop q o).1.txDropCount = t.txDropCount ∧ (t.afterPop q o).2 = .none ∧
    (t.afterPop q o).1.held = o.delivered.map Packet.data ∧ (t.afterPop q o).1.uncounted = 0 := by
  cases o with
  | popped maxLength result => cases result <;> exact ⟨rfl, rfl, rfl, rfl, rfl, rfl⟩
  | _ => exact ⟨rfl, rfl, rfl, rfl, rfl, rfl⟩

theorem afterPop_main (q : Ring packetQueue) (ro : Outcome) : (t.afterPop q ro).1.main = t.main := by
  unfold afterPop
  split <;> rfl

variable {t} {t' : TxState}

theorem busy_congr (main : t'.main = t.main) : t'.busy = t.busy := by
  rw [busy, main, busy]

theorem afterPush_calls (q : Ring packetQueue) (ro : Outcome) :
    (if (t.afterPush q ro).2.endsCall then 1 else 0) + (t.afterPush q ro).1.busy = 1 := by
  cases ro with
  | pushed data length ok => cases ok <;> rfl
  | _ => rfl

theorem step_calls {a : TxAction} {o : TxOutcome} (h : t.step a = some (t', o)) :
    (if a.isCall then 1 else 0) + t.busy = (if o.endsCall then 1 else 0) + t'.busy := by
  have pushed {q : Ring packetQueue} {ro : Outcome} (after : t.afterPush q ro = (t', o)) :
      (if o.endsCall then 1 else 0) + t'.busy = 1 := by
    simpa only [after] using t.afterPush_calls q ro
  cases a with
  | queueTxPacket data length =>
    simp only [step] at h
    split at h
    · obtain ⟨⟨q, ro⟩, -, after⟩ := Option.map_eq_some'.1 h
      rw [pushed after]
      simp [TxAction.isCall, busy, *]
    · cases h
  | main =>
    simp only [step] at h
    split at h
    · obtain ⟨⟨q, ro⟩, -, after⟩ := Option.map_eq_some'.1 h
      rw [pushed after]
      simp [TxAction.isCall, busy, *]
    · obtain ⟨rfl, rfl⟩ := Prod.mk.inj (Option.some.inj h)
      simp [TxAction.isCall, busy, *]
    · cases h
  | worker =>
    simp only [step] at h
    split at h
    · obtain ⟨⟨q, ro⟩, -, after⟩ := Option.map_eq_some'.1 h
      obtain ⟨rfl, rfl⟩ := Prod.mk.inj after
      rfl
    · obtain ⟨⟨q, ro⟩, -, after⟩ := Option.map_eq_some'.1 h
      have next : (t.afterPop q ro).1 = t' := congrArg Prod.fst after
      have out : (t.afterPop q ro).2 = o := congrArg Prod.snd after
      rw [← next, ← out, (t.afterPop_spec q ro).2.2.2.1, busy_congr (t.afterPop_main q ro)]
      rfl
    · split at h <;> obtain ⟨rfl, rfl⟩ := Prod.mk.inj (Option.some.inj h) <;> rfl
    · cases h
  | send sentLen =>
    simp only [step] at h
    split at h
    · obtain ⟨rfl, rfl⟩ := Prod.mk.inj (Option.some.inj h)
      rfl
    · cases h

theorem run_cons {a : TxAction} {actions : List TxAction} {t'' : TxState} {outs : List TxOutcome}
    (ran : t.run (a :: actions) = some (t'', outs)) :
    ∃ t' o rest, t.step a = some (t', o) ∧ t'.run actions = some (t'', rest) ∧ outs = o :: rest := by
  obtain ⟨⟨t', o⟩, stepped, ran⟩ := Option.bind_eq_some.1 ran
  dsimp only at ran
  obtain ⟨⟨t₂, rest⟩, later, same⟩ := Option.map_eq_some'.1 ran
  obtain ⟨rfl, rfl⟩ := Prod.mk.inj same
  exact ⟨t', o, rest, stepped, later, rfl⟩

theorem run_calls {actions : List TxAction} {outs : List TxOutcome} (ran : t.run actions = some (t', outs)) :
    actions.countP TxAction.isCall + t.busy = outs.countP TxOutcome.endsCall + t'.busy := by
  induction actions generalizing t outs with
  | nil =>
    obtain ⟨rfl, rfl⟩ := Prod.mk.inj (Option.some.inj ran)
    rfl
  | cons a actions ih =>
    obtain ⟨t₁, o, rest, stepped, later, rfl⟩ := run_cons ran
    have first := step_calls stepped
    have others := ih later
    simp only [List.countP_cons]
    omega

end TxState

theorem TxOutcome.ends_add_counts (o : TxOutcome) :
    (if o.endsCall then 1 else 0) + (if o.isCount then 1 else 0) =
      o.accepts.length + (if o.isDrop then 1 else 0) + (if o.isSuccess then 1 else 0) := by
  cases o with
  | counted success => cases success <;> rfl
  | _ => rfl

theorem calls_add_counts (history : List TxOutcome) :
    history.countP TxOutcome.endsCall + history.countP TxOutcome.isCount =
      (history.flatMap TxOutcome.accepts).length + history.countP TxOutcome.isDrop +
        history.countP TxOutcome.isSuccess := by
  induction history with
  | nil => rfl
  | cons o history ih =>
    simp only [List.countP_cons, List.flatMap_cons, List.length_append]
    have := o.ends_add_counts
    omega

theorem TxInv.init (buffer : Fin packetQueue.capacity → Slot) :
    TxInv (TxState.init buffer) [] :=
  ⟨Ring.inv_init buffer, rfl, rfl, rfl, rfl⟩

/-! ## Every step keeps the invariant -/

section Steps

variable {t : TxState} {history : List TxOutcome}

theorem TxInv.advance (inv : TxInv t history) {t' : TxState} {o : TxOutcome}
    (ring : t'.txQueue.Inv)
    (moved : o.sends ++ t'.held ++ t'.txQueue.contents.map Packet.data =
      t.held ++ t.txQueue.contents.map Packet.data ++ o.accepts)
    (counted : o.sends.length + t.uncounted = (if o.isCount then 1 else 0) + t'.uncounted)
    (tx : t'.txPacketCount = if o.isSuccess then t.txPacketCount + 1 else t.txPacketCount)
    (drop : t'.txDropCount = if o.isDrop then t.txDropCount + 1 else t.txDropCount) :
    TxInv t' (history ++ [o]) where
  ring := ring
  order := by
    rw [List.flatMap_append, List.flatMap_append, List.flatMap_singleton, List.flatMap_singleton,
      List.append_assoc, List.append_assoc, ← List.append_assoc o.sends, moved, ← inv.order]
    simp only [List.append_assoc]
  counts := by
    have := inv.counts
    simp only [List.flatMap_append, List.flatMap_singleton, List.length_append, List.countP_append,
      List.countP_singleton]
    omega
  txPacketCount := by
    rw [tx, List.countP_append, List.countP_singleton]
    split
    · exact uint64_succ_toNat inv.txPacketCount
    · simpa using inv.txPacketCount
  txDropCount := by
    rw [drop, List.countP_append, List.countP_singleton]
    split
    · exact uint64_succ_toNat inv.txDropCount
    · simpa using inv.txDropCount

theorem TxInv.pushed (inv : TxInv t history) {q : Ring packetQueue} {ro : Outcome}
    (sound : Ring.Sound t.txQueue ro q) (delivered : ro.delivered = []) :
    TxInv (t.afterPush q ro).1 (history ++ [(t.afterPush q ro).2]) := by
  obtain ⟨queue, worker, tx, drop, accepts, sends, count, success, isDrop⟩ := t.afterPush_spec q ro
  have grown : q.contents = t.txQueue.contents ++ ro.accepted := by
    simpa [delivered] using sound.linearizes.history
  have held : (t.afterPush q ro).1.held = t.held := by simp only [TxState.held, worker]
  have uncounted : (t.afterPush q ro).1.uncounted = t.uncounted := by
    simp only [TxState.uncounted, worker]
  refine inv.advance (by rw [queue]; exact sound.inv) ?_ (by rw [sends, count, uncounted]; rfl)
    (by rw [tx, success]; rfl) (by rw [drop, isDrop]; rfl)
  rw [sends, held, queue, grown, accepts, List.map_append, List.nil_append, List.append_assoc]

theorem TxInv.popped (inv : TxInv t history) {q : Ring packetQueue} {ro : Outcome}
    (sound : Ring.Sound t.txQueue ro q) (accepted : ro.accepted = []) (idle : t.held = [])
    (settled : t.uncounted = 0) :
    TxInv (t.afterPop q ro).1 (history ++ [(t.afterPop q ro).2]) := by
  obtain ⟨queue, tx, drop, none, held, uncounted⟩ := t.afterPop_spec q ro
  have shrunk : ro.delivered ++ q.contents = t.txQueue.contents := by
    simpa [accepted] using sound.linearizes.history
  refine inv.advance (by rw [queue]; exact sound.inv) ?_ (by rw [none, uncounted, settled]; rfl)
    (by rw [tx, none]; rfl) (by rw [drop, none]; rfl)
  rw [none, held, queue, idle, ← shrunk]
  simp

theorem TxInv.step (inv : TxInv t history) {t' : TxState} {a : TxAction} {o : TxOutcome}
    (h : t.step a = some (t', o)) : TxInv t' (history ++ [o]) := by
  cases a with
  | queueTxPacket data length =>
    simp only [TxState.step] at h
    split at h
    · obtain ⟨⟨q, ro⟩, ringStep, after⟩ := Option.map_eq_some'.1 h
      have next := inv.pushed (Ring.callPush_sound inv.ring ringStep)
        (Ring.callPush_delivered ringStep)
      rw [after] at next
      exact next
    · cases h
  | main =>
    simp only [TxState.step] at h
    split at h
    · obtain ⟨⟨q, ro⟩, ringStep, after⟩ := Option.map_eq_some'.1 h
      have next := inv.pushed (Ring.producerStep_sound inv.ring ringStep)
        (Ring.producerStep_delivered ringStep)
      rw [after] at next
      exact next
    · -- `m_txDropCount.fetch_add(1)`
      obtain ⟨rfl, rfl⟩ := Prod.mk.inj (Option.some.inj h)
      exact inv.advance inv.ring (by simp [TxState.held]) rfl rfl rfl
    · cases h
  | worker =>
    simp only [TxState.step] at h
    split at h
    · -- the worker starts an iteration
      rename_i idle
      obtain ⟨⟨q, ro⟩, ringStep, after⟩ := Option.map_eq_some'.1 h
      obtain ⟨rfl, rfl⟩ := Prod.mk.inj after
      exact inv.advance (Ring.callPop_sound inv.ring ringStep).inv
        (by simp [TxState.held, idle, (Ring.callPop_contents ringStep).1])
        (by simp [TxState.uncounted, idle]) rfl rfl
    · rename_i popping
      obtain ⟨⟨q, ro⟩, ringStep, after⟩ := Option.map_eq_some'.1 h
      have next := inv.popped (Ring.consumerStep_sound inv.ring ringStep)
        (Ring.consumerStep_accepted ringStep) (by simp [TxState.held, popping])
        (by simp [TxState.uncounted, popping])
      rw [after] at next
      exact next
    · -- the worker counts what `send` returned
      rename_i sentLen counting
      split at h <;> obtain ⟨rfl, rfl⟩ := Prod.mk.inj (Option.some.inj h) <;>
        exact inv.advance inv.ring (by simp [TxState.held, counting])
          (by simp [TxState.uncounted, counting]) rfl rfl
    · cases h
  | send sentLen =>
    simp only [TxState.step] at h
    split at h
    · rename_i packet sending
      obtain ⟨rfl, rfl⟩ := Prod.mk.inj (Option.some.inj h)
      exact inv.advance inv.ring (by simp [TxState.held, sending])
        (by simp [TxState.uncounted, sending]) rfl rfl
    · cases h

theorem TxInv.run (inv : TxInv t history) {actions : List TxAction} {t' : TxState} {outs : List TxOutcome}
    (ran : t.run actions = some (t', outs)) : TxInv t' (history ++ outs) := by
  induction actions generalizing t history outs with
  | nil =>
    obtain ⟨rfl, rfl⟩ := Prod.mk.inj (Option.some.inj ran)
    simpa using inv
  | cons a actions ih =>
    obtain ⟨t₁, o, rest, stepped, later, rfl⟩ := TxState.run_cons ran
    simpa using ih (inv.step stepped) later

end Steps

/-! ## Runs -/

end UdpPeer.Thread
