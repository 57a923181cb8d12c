import UdpPeer.Thread.TxProgress
import UdpPeer.Packet.Codec

/-!
# One direction of the link, end to end

Two `udp_peer` processes send to each other. This module models one direction: the sender's TX
timer, its main thread and its TX worker; the wire; the receiver's RX worker and its
`rx_packet`. The other direction is the same system with the roles swapped, and it shares no
object with this one. When the TX timer fires, the sender's main thread runs `txTimerCallback`.
That callback encodes "Agent Team Test" into `tx_packet` and calls `queueTxPacket`. The TX
worker pops the frame, and `sendto` puts it on the wire. The receiver's RX worker reads
datagrams. Its callback `rxPacketHandler` decodes each one into `rx_packet` and logs a line. The
steps of all four threads interleave freely. The receiver's socket is `connect`ed to the
sender, so the network hands it only the sender's datagrams. The network may lose, duplicate
and reorder them, but it does not alter their bytes.

The main results, over every run:

* `link_wire_frames`: the wire holds the frames of distinct ticks of the TX timer, in the order
  of their ticks.
* `link_tx_accounting`: every tick of the TX timer is on the wire, counted as a drop, or in
  flight, and `m_txPacketCount` counts the datagrams on the wire.
* `link_rx_genuine`: the receiver's callback is handed only frames from the wire, with their
  lengths. "Decode failed" is never logged. Every header the receiver logs, and the header
  `rx_packet` holds after the first datagram, is the sender's id, the 15-byte payload and the
  lifesign of a tick whose frame is on the wire.
* `link_rx_logs_each`: the receiver logs one header line per datagram its RX loop took in, in
  order, and `m_rxPacketCount` counts them.
-/

namespace UdpPeer.Thread

/-! ## Which thread a TX step moves -/

namespace TxState

def sentUncounted (t : TxState) : Nat :=
  match t.worker with
  | .counting sentLen => if sentLen > 0 then 1 else 0
  | _ => 0

def inFlight (t : TxState) : Nat :=
  t.busy + t.txQueue.contents.length + t.held.length + (t.uncounted - t.sentUncounted)

variable {t t' : TxState} {o : TxOutcome}

theorem sentUncounted_congr (worker : t'.worker = t.worker) : t'.sentUncounted = t.sentUncounted := by
  rw [sentUncounted, worker, sentUncounted]

theorem sentUncounted_le_uncounted (t : TxState) : t.sentUncounted ≤ t.uncounted := by
  unfold sentUncounted uncounted
  cases t.worker with
  | counting sentLen => dsimp only; split <;> omega
  | _ => exact Nat.le_refl 0

theorem afterPop_sentUncounted (q : Ring packetQueue) (ro : Outcome) :
    (t.afterPop q ro).1.sentUncounted = 0 := by
  unfold afterPop
  split <;> rfl

theorem step_queueTxPacket {data : List UInt8} {length : Nat}
    (h : t.step (.queueTxPacket data length) = some (t', o)) :
    o = .none ∧ t.main = .idle ∧ t'.worker = t.worker ∧
      (t'.main = .pushing ∧ t'.txQueue.producer.call? = some (data, length) ∨ t'.main = .dropping) := by
  simp only [step] at h
  split at h
  · obtain ⟨⟨q, ro⟩, ringStep, after⟩ := Option.map_eq_some'.1 h
    unfold Ring.callPush at ringStep
    split at ringStep
    · split_ifs at ringStep
      · obtain ⟨rfl, rfl⟩ := Prod.mk.inj (Option.some.inj ringStep)
        obtain ⟨rfl, rfl⟩ := Prod.mk.inj after
        exact ⟨rfl, ‹_›, rfl, .inr rfl⟩
      · obtain ⟨rfl, rfl⟩ := Prod.mk.inj (Option.some.inj ringStep)
        obtain ⟨rfl, rfl⟩ := Prod.mk.inj after
        exact ⟨rfl, ‹_›, rfl, .inl ⟨rfl, rfl⟩⟩
    · cases ringStep
  · cases h

theorem step_main (h : t.step .main = some (t', o)) :
    (t.main = .pushing ∧ ∃ q ro, t.txQueue.producerStep = some (q, ro) ∧ t.afterPush q ro = (t', o)) ∨
      (t.main = .dropping ∧ t'.main = .idle ∧ t'.worker = t.worker ∧ o = .dropped) := by
  simp only [step] at h
  split at h
  · obtain ⟨⟨q, ro⟩, ringStep, after⟩ := Option.map_eq_some'.1 h
    exact .inl ⟨‹_›, q, ro, ringStep, after⟩
  · obtain ⟨rfl, rfl⟩ := Prod.mk.inj (Option.some.inj h)
    exact .inr ⟨‹_›, rfl, rfl, rfl⟩
  · cases h

theorem step_worker (h : t.step .worker = some (t', o)) :
    t'.main = t.main ∧ t'.txQueue.producer = t.txQueue.producer ∧ o.accepts = [] ∧ o.sends = [] ∧
      t'.sentUncounted + (if o.isSuccess then 1 else 0) = t.sentUncounted := by
  simp only [step] at h
  split at h
  · rename_i idle
    obtain ⟨⟨q, ro⟩, ringStep, after⟩ := Option.map_eq_some'.1 h
    obtain ⟨rfl, rfl⟩ := Prod.mk.inj after
    exact ⟨rfl, Ring.callPop_producer ringStep, rfl, rfl, by simp [sentUncounted, idle]⟩
  · rename_i popping
    obtain ⟨⟨q, ro⟩, ringStep, after⟩ := Option.map_eq_some'.1 h
    obtain ⟨rfl, rfl⟩ := Prod.ext_iff.1 after.symm
    obtain ⟨queue, -, -, none, -, -⟩ := t.afterPop_spec q ro
    refine ⟨t.afterPop_main q ro, by rw [queue]; exact Ring.consumerStep_producer ringStep, by rw [none]; rfl,
      by rw [none]; rfl, ?_⟩
    rw [none, afterPop_sentUncounted]
    simp [sentUncounted, popping]
  · rename_i sentLen counting
    split at h <;> obtain ⟨rfl, rfl⟩ := Prod.mk.inj (Option.some.inj h) <;>
      exact ⟨rfl, rfl, rfl, rfl, by simp [sentUncounted, counting, *]⟩
  · cases h

theorem step_send {sentLen : Int} (h : t.step (.send sentLen) = some (t', o)) :
    ∃ packet, t.worker = .sending packet ∧ t' = { t with worker := .counting sentLen } ∧
      o = .sent packet.data := by
  simp only [step] at h
  split at h
  · obtain ⟨rfl, rfl⟩ := Prod.mk.inj (Option.some.inj h)
    exact ⟨_, ‹_›, rfl, rfl⟩
  · cases h

end TxState

theorem Handled.step {t t' : RxState} {handled : List Arrival} {r : Received}
    (books : Handled t true handled) (h : t.step r = some t') :
    Handled t' true handled ∧ t'.rxCallbacks = t.rxCallbacks ∨
      ∃ bytes rxStart rxEnd buffer, r = .datagram bytes rxStart rxEnd ∧
        Handled t' true (handled ++ [⟨bytes.take rxBufferSize, rxStart, rxEnd⟩]) ∧
        t'.rxCallbacks = t.rxCallbacks ++ [(buffer, (bytes.take rxBufferSize).length)] ∧
        buffer.take (bytes.take rxBufferSize).length = bytes.take rxBufferSize := by
  by_cases exited : t.shouldExit = true
  · simp only [RxState.step, if_pos exited] at h
    cases h
    exact .inl ⟨books, rfl⟩
  have running : t.shouldExit = false := by simpa using exited
  cases r with
  | error errno =>
    simp only [RxState.step, running, Bool.false_eq_true, if_false] at h
    cases transient : errno.isTransient <;> simp only [transient] at h <;> cases h
    · exact .inl ⟨books.exit, rfl⟩
    · exact .inl ⟨books, rfl⟩
  | datagram bytes rxStart rxEnd =>
    by_cases nonempty : 0 < (bytes.take rxBufferSize).length
    · obtain ⟨t'', stepped, -, books'⟩ := books.datagram running bytes rxStart rxEnd nonempty
      cases Option.some.inj (h.symm.trans stepped)
      simp only [RxState.step, running, Bool.false_eq_true, if_false, if_pos nonempty] at stepped
      obtain ⟨⟨q, pushed⟩, -, rfl⟩ := Option.map_eq_some'.1 stepped
      have fits : (bytes.take rxBufferSize).length ≤ t.rxBuffer.length := by
        rw [books.buffer]
        exact List.length_take_le _ _
      refine .inr ⟨bytes, rxStart, rxEnd, _, rfl, books', ?_, (writeBytes_front _ _ fits).2⟩
      simp only [books.callback, if_true]
    · simp only [RxState.step, running, Bool.false_eq_true, if_false, if_neg nonempty] at h
      cases h
      exact .inl ⟨books, rfl⟩

end UdpPeer.Thread

namespace UdpPeer.App

open UdpPeer.Packet UdpPeer.Thread

/-! ## The two callbacks -/

def txUniqueId : UInt32 := 0x12345678

def commTimeoutMs : UInt32 := 1000

def txIntervalMs : UInt32 := 100

/-- `tx_payload`, the characters of "Agent Team Test"; `sizeof(tx_payload) - 1U` leaves out the
terminating zero. -/
def txPayload : List UInt8 :=
  [0x41, 0x67, 0x65, 0x6e, 0x74, 0x20, 0x54, 0x65, 0x61, 0x6d, 0x20, 0x54, 0x65, 0x73, 0x74]

/-- `txTimerCallback` up to its call of `queueTxPacket`: `tx_packet` after `setDataPointer` and
after `encode` into the zeroed 256-byte `tx_buffer`, and the bytes and the length it queues when
`encoded_len > 0`. -/
def txTimerCallback (txPacket : AppPacket) : AppPacket × Option (List UInt8 × Nat) :=
  let encoded := (txPacket.setDataPointer (some txPayload) txPayload.length).encode
    (some (List.replicate 256 0)) 256
  (encoded.packet,
    if encoded.written > 0 then encoded.buffer.map fun buffer => (buffer, encoded.written) else none)

inductive RxLog
  | received (uniqueId : UInt32) (lifesign : UInt16) (dataLength : Nat) (intervalUs : UInt32)
  | unstable (count : UInt16)
  | decodeFailed (error : AppPacketError)
  deriving DecidableEq, Repr

def RxLog.lifesign? : RxLog → Option UInt16
  | .received _ lifesign _ _ => some lifesign
  | _ => none

/-- `rxPacketHandler(data, length, rx_packet, ui)`: `rx_packet` after `decode`, and the lines it
logs. -/
def rxPacketHandler (now : Nat) (rxPacket : AppPacket) (data : List UInt8) (length : Nat) :
    AppPacket × List RxLog :=
  let (decodeOk, p) := rxPacket.decode now (some data) length
  (p, if decodeOk then
      .received p.uniqueId p.rxLifesign p.dataLength p.lastIntervalUs ::
        if p.commUnstable then [.unstable p.unstableCounter] else []
    else [.decodeFailed p.error])

def rxPacketHandlers (now : Nat) (calls : List (List UInt8 × Nat)) (rxPacket : AppPacket)
    (rxLog : List RxLog) : AppPacket × List RxLog :=
  calls.foldl (fun acc c => let r := rxPacketHandler now acc.1 c.1 c.2; (r.1, acc.2 ++ r.2))
    (rxPacket, rxLog)

/-! ## The link -/

structure Link where
  txPacket : AppPacket
  tx : TxState
  wire : List (List UInt8)
  rx : RxState
  rxPacket : AppPacket
  rxLog : List RxLog

inductive LinkAction
  | txTimer
  | main
  | worker
  | send (sentLen : Int)
  | receive (r : Received) (now : Nat)

def LinkAction.tick : LinkAction → Nat
  | .txTimer => 1
  | _ => 0

def ticks : List LinkAction → Nat
  | [] => 0
  | a :: actions => a.tick + ticks actions

/-- The network hands the receiver only datagrams the sender put on the wire. -/
def carries (wire : List (List UInt8)) : Received → Bool
  | .datagram bytes _ _ => decide (bytes ∈ wire)
  | .error _ => true

namespace Link

/-- The link once both processes have run `main`'s set-up: `tx_packet` has its id, `rx_packet`
its timeout and expected interval, both thread managers are fresh, the receiver's with its
callback set, and nothing is on the wire. The constructors read the clock; the queues' slots and
the RX buffer start uninitialised. -/
def init (txClock rxClock : Nat × Nat) (txSlots rxSlots : Fin packetQueue.capacity → Slot)
    (rxBuffer : Fin rxBufferSize → UInt8) (constructedAt : Nat) : Link where
  txPacket := (AppPacket.init txClock.1 txClock.2).setUniqueId txUniqueId
  tx := TxState.init txSlots
  wire := []
  rx := RxState.init rxSlots rxBuffer true constructedAt
  rxPacket := ((AppPacket.init rxClock.1 rxClock.2).setCommTimeout commTimeoutMs).setExpectedInterval
    txIntervalMs appPacketIntervalToleranceUs
  rxLog := []

def step (l : Link) : LinkAction → Option Link
  | .txTimer =>
    match l.tx.main with
    | .idle =>
      match txTimerCallback l.txPacket with
      | (txPacket, none) => some { l with txPacket }
      | (txPacket, some (data, length)) =>
        (l.tx.step (.queueTxPacket data length)).map fun (tx, _) => { l with txPacket, tx }
    | _ => none
  | .main => (l.tx.step .main).map fun (tx, _) => { l with tx }
  | .worker => (l.tx.step .worker).map fun (tx, _) => { l with tx }
  | .send sentLen => (l.tx.step (.send sentLen)).map fun (tx, o) =>
    { l with tx, wire := if sentLen > 0 then l.wire ++ o.sends else l.wire }
  | .receive r now =>
    if carries l.wire r then
      (l.rx.step r).map fun rx =>
        let handled := rxPacketHandlers now (rx.rxCallbacks.drop l.rx.rxCallbacks.length)
          l.rxPacket l.rxLog
        { l with rx, rxPacket := handled.1, rxLog := handled.2 }
    else none

def run : Link → List LinkAction → Option Link
  | l, [] => some l
  | l, a :: actions => (l.step a).bind fun l' => l'.run actions

end Link

/-! ## The sender's tick -/

/-- The frame of tick `k` of the TX timer, counted from 0. -/
def timerFrame (k : Nat) : List UInt8 :=
  frame ⟨txUniqueId, UInt16.ofNat k, UInt16.ofNat txPayload.length⟩ txPayload

@[simp] theorem timerFrame_length (k : Nat) : (timerFrame k).length = 27 := by
  simp [timerFrame, headerSize, footerSize, txPayload]

theorem timerFrame_lifesign {k k' : Nat} (same : timerFrame k = timerFrame k') :
    UInt16.ofNat k = UInt16.ofNat k' := by
  have read := congrArg readHeader same
  simp only [timerFrame, frame, List.append_assoc, readHeader_bytes, AppPacketHeader.mk.injEq] at read
  exact read.2.1

theorem uint16_ofNat_succ (n : Nat) : UInt16.ofNat n + 1 = UInt16.ofNat (n + 1) := by
  apply UInt16.toNat.inj
  show (n % 65536 + 1) % 65536 = (n + 1) % 65536
  rw [Nat.mod_add_mod]

theorem txTimerCallback_tick {p : AppPacket} {n : Nat} (id : p.uniqueId = txUniqueId)
    (lifesign : p.lifesign = UInt16.ofNat n) :
    ∃ p', txTimerCallback p = (p', some (timerFrame n ++ List.replicate 229 0, 27)) ∧
      p'.uniqueId = txUniqueId ∧ p'.lifesign = UInt16.ofNat (n + 1) := by
  set q := p.setDataPointer (some txPayload) txPayload.length
  have stored : q = { p with error := .none, dataPtr := some txPayload, dataLength := 15 } :=
    AppPacket.setDataPointer_some p txPayload (by decide)
  have length : q.dataLength = 15 := by rw [stored]
  have encoded := encode_eq q txPayload (List.replicate 256 0) 256 (by rw [stored])
    (by rw [length]; decide) (by rw [length]; decide)
  have header : q.header = ⟨txUniqueId, UInt16.ofNat n, UInt16.ofNat txPayload.length⟩ := by
    rw [stored, ← id, ← lifesign]
    rfl
  refine ⟨(q.encode (some (List.replicate 256 0)) 256).packet, ?_, ?_, ?_⟩
  · rw [txTimerCallback, encoded, header, stored]
    rfl
  · rw [encoded, stored]
    exact id
  · rw [encoded, stored, ← uint16_ofNat_succ, ← lifesign]

/-! ## What the sender has done -/

def Pending (t : TxState) (n : Nat) (ks : List Nat) : Prop :=
  match t.main with
  | .pushing => ∃ m data, n = m + 1 ∧ t.txQueue.producer.call? = some (data, 27) ∧
      data.take 27 = timerFrame m ∧ ∀ k ∈ ks, k < m
  | _ => ∀ k ∈ ks, k < n

section Pending

variable {t t' : TxState} {n : Nat} {ks : List Nat}

theorem pending_pushing (pushing : t.main = .pushing) :
    Pending t n ks ↔ ∃ m data, n = m + 1 ∧ t.txQueue.producer.call? = some (data, 27) ∧
      data.take 27 = timerFrame m ∧ ∀ k ∈ ks, k < m := by
  simp only [Pending, pushing]

theorem pending_of_ne (other : t.main ≠ .pushing) : Pending t n ks ↔ ∀ k ∈ ks, k < n := by
  unfold Pending
  split
  · contradiction
  · rfl

theorem Pending.before (pending : Pending t n ks) : ∀ k ∈ ks, k < n := by
  by_cases pushing : t.main = .pushing
  · obtain ⟨m, -, rfl, -, -, before⟩ := (pending_pushing pushing).1 pending
    exact fun k mem => Nat.lt_succ_of_lt (before k mem)
  · exact (pending_of_ne pushing).1 pending

theorem Pending.congr (pending : Pending t n ks) (main : t'.main = t.main)
    (producer : t'.txQueue.producer = t.txQueue.producer) : Pending t' n ks := by
  unfold Pending
  rw [main, producer]
  exact pending

end Pending

/-- What the sender has done after `n` ticks of its TX timer: `history` is what its TX path
showed, and `ks` are the ticks whose frames `queueTxPacket` accepted, in order. -/
structure Sends (l : Link) (n : Nat) (history : List TxOutcome) (ks : List Nat) : Prop where
  id : l.txPacket.uniqueId = txUniqueId
  lifesign : l.txPacket.lifesign = UInt16.ofNat n
  tx : TxInv l.tx history
  accepted : history.flatMap TxOutcome.accepts = ks.map timerFrame
  sorted : ks.Sorted (· < ·)
  pending : Pending l.tx n ks
  wire : l.wire.Sublist (history.flatMap TxOutcome.sends)
  calls : history.countP TxOutcome.endsCall + l.tx.busy = n
  sent : l.wire.length = history.countP TxOutcome.isSuccess + l.tx.sentUncounted

structure SenderStep (l l' : Link) : Prop where
  wire : l.wire ⊆ l'.wire
  rx : l'.rx = l.rx
  rxPacket : l'.rxPacket = l.rxPacket
  rxLog : l'.rxLog = l.rxLog

structure ReceiverStep (l l' : Link) : Prop where
  txPacket : l'.txPacket = l.txPacket
  tx : l'.tx = l.tx
  wire : l'.wire = l.wire

section Sender

variable {l l' : Link} {n : Nat} {history : List TxOutcome} {ks : List Nat}

theorem Sends.wire_ticks (inv : Sends l n history ks) :
    ∃ ks' : List Nat, ks'.Sorted (· < ·) ∧ (∀ k ∈ ks', k < n) ∧ l.wire = ks'.map timerFrame := by
  have sent : (history.flatMap TxOutcome.sends).IsPrefix (ks.map timerFrame) :=
    ⟨_, by rw [← List.append_assoc, inv.tx.order, inv.accepted]⟩
  obtain ⟨ks', sub, wire⟩ := List.sublist_map_iff.1 (inv.wire.trans sent.sublist)
  exact ⟨ks', inv.sorted.sublist sub, fun k mem => inv.pending.before k (sub.subset mem), wire⟩

theorem Sends.frames (inv : Sends l n history ks) : ∀ f ∈ l.wire, ∃ k, f = timerFrame k := by
  obtain ⟨ks', -, -, wire⟩ := inv.wire_ticks
  intro f mem
  rw [wire] at mem
  obtain ⟨k, -, rfl⟩ := List.mem_map.1 mem
  exact ⟨k, rfl⟩

theorem Sends.advance (inv : Sends l n history ks) {a : TxAction} {o : TxOutcome} {ks' : List Nat}
    (stepped : l.tx.step a = some (l'.tx, o)) (id : l'.txPacket.uniqueId = txUniqueId)
    (lifesign : l'.txPacket.lifesign = UInt16.ofNat (n + if a.isCall then 1 else 0))
    (accepted : ks.map timerFrame ++ o.accepts = ks'.map timerFrame)
    (sorted : ks'.Sorted (· < ·)) (pending : Pending l'.tx (n + if a.isCall then 1 else 0) ks')
    (wire : l'.wire.Sublist (l.wire ++ o.sends))
    (sent : l'.wire.length + l.tx.sentUncounted =
      l.wire.length + (if o.isSuccess then 1 else 0) + l'.tx.sentUncounted) :
    Sends l' (n + if a.isCall then 1 else 0) (history ++ [o]) ks' where
  id := id
  lifesign := lifesign
  tx := inv.tx.step stepped
  accepted := by rw [List.flatMap_append, List.flatMap_singleton, inv.accepted, accepted]
  sorted := sorted
  pending := pending
  wire := by
    rw [List.flatMap_append, List.flatMap_singleton]
    exact wire.trans (inv.wire.append (List.Sublist.refl _))
  calls := by
    rw [List.countP_append, List.countP_singleton]
    have := inv.calls
    have := TxState.step_calls stepped
    omega
  sent := by
    rw [List.countP_append, List.countP_singleton]
    have := inv.sent
    omega

theorem Sends.receiver (inv : Sends l n history ks) (step : ReceiverStep l l') :
    Sends l' n history ks := by
  obtain ⟨id, lifesign, tx, accepted, sorted, pending, wire, calls, sent⟩ := inv
  rw [← step.txPacket] at id lifesign
  rw [← step.tx] at tx pending calls sent
  rw [← step.wire] at wire sent
  exact ⟨id, lifesign, tx, accepted, sorted, pending, wire, calls, sent⟩

theorem SenderStep.of_wire {wire : List (List UInt8)} (grows : l.wire ⊆ wire) (txPacket : AppPacket)
    (tx : TxState) : SenderStep l { l with txPacket, tx, wire } :=
  ⟨grows, rfl, rfl, rfl⟩

theorem Sends.txTimer (inv : Sends l n history ks) (h : l.step .txTimer = some l') :
    ∃ o, Sends l' (n + 1) (history ++ [o]) ks ∧ SenderStep l l' := by
  obtain ⟨p', tick, id, lifesign⟩ := txTimerCallback_tick inv.id inv.lifesign
  simp only [Link.step] at h
  split at h
  · rw [tick] at h
    obtain ⟨⟨t', o⟩, queued, rfl⟩ := Option.map_eq_some'.1 h
    obtain ⟨rfl, idle, worker, entered⟩ := TxState.step_queueTxPacket queued
    refine ⟨_, inv.advance queued id lifesign (by simp) inv.sorted ?_ (by simp)
      (by simp [TxState.sentUncounted_congr worker]), SenderStep.of_wire (List.Subset.refl _) p' t'⟩
    have before := (pending_of_ne (by rw [idle]; nofun)).1 inv.pending
    rcases entered with ⟨pushing, call⟩ | dropping
    · exact (pending_pushing pushing).2 ⟨n, _, rfl, call, List.take_left' (timerFrame_length n), before⟩
    · exact (pending_of_ne (by rw [dropping]; nofun)).2 fun k mem => Nat.lt_succ_of_lt (before k mem)
  · cases h

theorem Sends.main (inv : Sends l n history ks) (h : l.step .main = some l') :
    ∃ o ks', Sends l' n (history ++ [o]) ks' ∧ SenderStep l l' := by
  simp only [Link.step] at h
  obtain ⟨⟨t', o⟩, stepped, rfl⟩ := Option.map_eq_some'.1 h
  suffices ∃ ks', Sends { l with tx := t' } n (history ++ [o]) ks' from
    let ⟨ks', sends⟩ := this
    ⟨o, ks', sends, SenderStep.of_wire (List.Subset.refl _) l.txPacket t'⟩
  rcases TxState.step_main stepped with ⟨pushing, q, ro, ringStep, after⟩ | ⟨dropping, idle, worker, rfl⟩
  · obtain ⟨m, data, rfl, call, frame, before⟩ := (pending_pushing pushing).1 inv.pending
    obtain ⟨s', o', ringStep', continues⟩ := Ring.producerStep_call call
    obtain ⟨rfl, rfl⟩ := Prod.mk.inj (Option.some.inj (ringStep.symm.trans ringStep'))
    obtain ⟨rfl, rfl⟩ := Prod.ext_iff.1 after.symm
    obtain ⟨-, worker, -, -, -, -, -, success, -⟩ := l.tx.afterPush_spec q ro
    have sent : l.wire.length + l.tx.sentUncounted = l.wire.length +
        (if (l.tx.afterPush q ro).2.isSuccess then 1 else 0) + (l.tx.afterPush q ro).1.sentUncounted := by
      rw [success, TxState.sentUncounted_congr worker]
      rfl
    rcases continues with ⟨rfl, call', -⟩ | ⟨ok, rfl, -⟩
    · -- still inside `push`
      exact ⟨ks, inv.advance stepped inv.id inv.lifesign (by simp [TxState.afterPush]) inv.sorted
        ((pending_pushing rfl).2 ⟨m, data, rfl, call', frame, before⟩) (by simp [TxState.afterPush]) sent⟩
    · cases ok
      · -- `push` returned `false`: the queue was full
        exact ⟨ks, inv.advance stepped inv.id inv.lifesign (by simp [TxState.afterPush]) inv.sorted
          ((pending_of_ne (by simp [TxState.afterPush])).2 fun k mem => Nat.lt_succ_of_lt (before k mem))
          (by simp [TxState.afterPush]) sent⟩
      · -- `push` returned `true`: tick `m` is accepted
        refine ⟨ks ++ [m], inv.advance stepped inv.id inv.lifesign (by simp [TxState.afterPush, frame])
          (List.pairwise_append.2 ⟨inv.sorted, List.pairwise_singleton _ m, fun a mem b mem' => ?_⟩)
          ((pending_of_ne (by simp [TxState.afterPush])).2 fun k mem => ?_) (by simp [TxState.afterPush]) sent⟩
        · rw [List.mem_singleton.1 mem']
          exact before a mem
        · rcases List.mem_append.1 mem with mem | mem
          · exact Nat.lt_succ_of_lt (before k mem)
          · rw [List.mem_singleton.1 mem]
            exact Nat.lt_succ_self m
  · -- `m_txDropCount.fetch_add(1)`
    exact ⟨ks, inv.advance stepped inv.id inv.lifesign (by simp) inv.sorted
      ((pending_of_ne (by rw [idle]; nofun)).2 inv.pending.before) (by simp)
      (by simp [TxState.sentUncounted_congr worker])⟩

theorem Sends.worker (inv : Sends l n history ks) (h : l.step .worker = some l') :
    ∃ o, Sends l' n (history ++ [o]) ks ∧ SenderStep l l' := by
  simp only [Link.step] at h
  obtain ⟨⟨t', o⟩, stepped, rfl⟩ := Option.map_eq_some'.1 h
  obtain ⟨main, producer, accepts, sends, counted⟩ := TxState.step_worker stepped
  exact ⟨o, inv.advance stepped inv.id inv.lifesign (by rw [accepts, List.append_nil])
    inv.sorted (inv.pending.congr main producer) (by rw [sends, List.append_nil])
    (by dsimp only; omega), SenderStep.of_wire (List.Subset.refl _) l.txPacket t'⟩

theorem Sends.send (inv : Sends l n history ks) {sentLen : Int} (h : l.step (.send sentLen) = some l') :
    ∃ o, Sends l' n (history ++ [o]) ks ∧ SenderStep l l' := by
  simp only [Link.step] at h
  obtain ⟨⟨t', o⟩, stepped, rfl⟩ := Option.map_eq_some'.1 h
  obtain ⟨packet, sending, rfl, rfl⟩ := TxState.step_send stepped
  have grows : l.wire ⊆ if sentLen > 0 then l.wire ++ [packet.data] else l.wire := by
    split
    · exact List.subset_append_left _ _
    · exact List.Subset.refl _
  have sent : (if sentLen > 0 then l.wire ++ [packet.data] else l.wire).length + l.tx.sentUncounted =
      l.wire.length + 0 + (if sentLen > 0 then 1 else 0) := by
    simp only [TxState.sentUncounted, sending]
    split <;> simp
  refine ⟨.sent packet.data, inv.advance stepped inv.id inv.lifesign (List.append_nil _) inv.sorted
    (inv.pending.congr rfl rfl) ?_ sent, SenderStep.of_wire grows l.txPacket _⟩
  dsimp only
  split
  · exact List.Sublist.refl _
  · exact List.sublist_append_left _ _

end Sender

/-! ## What the receiver has done -/

def HoldsSent (wire : List (List UInt8)) (p : AppPacket) : Prop :=
  p.uniqueId = txUniqueId ∧ p.dataLength = txPayload.length ∧ p.error = .none ∧
    ∃ k, p.rxLifesign = UInt16.ofNat k ∧ timerFrame k ∈ wire

def RxLog.Sent (wire : List (List UInt8)) : RxLog → Prop
  | .received uniqueId lifesign dataLength _ => uniqueId = txUniqueId ∧
      dataLength = txPayload.length ∧ ∃ k, lifesign = UInt16.ofNat k ∧ timerFrame k ∈ wire
  | .unstable _ => True
  | .decodeFailed _ => False

/-- What the receiver has done after its RX loop handled the datagrams `handled`. -/
structure Receives (l : Link) (handled : List Arrival) : Prop where
  rx : Handled l.rx true handled
  delivered : ∀ a ∈ handled, a.bytes ∈ l.wire
  rxPacket : handled ≠ [] → HoldsSent l.wire l.rxPacket
  rxLog : ∀ line ∈ l.rxLog, line.Sent l.wire
  logged : ∃ ks : List Nat, handled.map Arrival.bytes = ks.map timerFrame ∧
    l.rxLog.filterMap RxLog.lifesign? = ks.map UInt16.ofNat

section Receiver

variable {l l' : Link} {handled : List Arrival} {wire wire' : List (List UInt8)}

theorem HoldsSent.mono {p : AppPacket} (held : HoldsSent wire p) (grows : wire ⊆ wire') :
    HoldsSent wire' p :=
  let ⟨id, length, error, k, lifesign, sent⟩ := held
  ⟨id, length, error, k, lifesign, grows sent⟩

theorem RxLog.Sent.mono {line : RxLog} (sent : line.Sent wire) (grows : wire ⊆ wire') :
    line.Sent wire' := by
  cases line with
  | received =>
    obtain ⟨id, length, k, lifesign, mem⟩ := sent
    exact ⟨id, length, k, lifesign, grows mem⟩
  | unstable => trivial
  | decodeFailed => exact sent

theorem Receives.sender (inv : Receives l handled) (step : SenderStep l l') : Receives l' handled where
  rx := by rw [step.rx]; exact inv.rx
  delivered a mem := step.wire (inv.delivered a mem)
  rxPacket nonempty := by rw [step.rxPacket]; exact (inv.rxPacket nonempty).mono step.wire
  rxLog line mem := by rw [step.rxLog] at mem; exact (inv.rxLog line mem).mono step.wire
  logged := by rw [step.rxLog]; exact inv.logged

theorem decode_timerFrame (p : AppPacket) (now k : Nat) (rest : List UInt8) :
    ∃ q, p.decode now (some (timerFrame k ++ rest)) 27 = (true, q) ∧ q.uniqueId = txUniqueId ∧
      q.dataLength = txPayload.length ∧ q.error = .none ∧ q.rxLifesign = UInt16.ofNat k := by
  rw [← timerFrame_length k]
  obtain ⟨ok, stored, -⟩ := decode_append p now (timerFrame k) rest
  have decoded := decode_frame p now ⟨txUniqueId, UInt16.ofNat k, UInt16.ofNat txPayload.length⟩
    txPayload [] rfl (by decide)
  rw [List.append_nil] at decoded
  change p.decode now (some (timerFrame k)) (timerFrame k).length = _ at decoded
  rw [decoded] at ok stored
  generalize p.decode now (some (timerFrame k ++ rest)) (timerFrame k).length = r at ok stored ⊢
  obtain ⟨decodeOk, q⟩ := r
  dsimp only at ok
  subst ok
  exact ⟨q, rfl, by simpa only [AppPacket.updateReceivedLifesign_uniqueId] using congrArg AppPacket.uniqueId stored,
    by simpa only [AppPacket.updateReceivedLifesign_dataLength] using congrArg AppPacket.dataLength stored,
    congrArg AppPacket.error stored,
    by simpa only [AppPacket.updateReceivedLifesign_rxLifesign] using congrArg AppPacket.rxLifesign stored⟩

theorem rxPacketHandler_timerFrame (now : Nat) (p : AppPacket) {k : Nat} (rest : List UInt8)
    (sent : timerFrame k ∈ wire) :
    HoldsSent wire (rxPacketHandler now p (timerFrame k ++ rest) 27).1 ∧
      (∀ line ∈ (rxPacketHandler now p (timerFrame k ++ rest) 27).2, line.Sent wire) ∧
      (rxPacketHandler now p (timerFrame k ++ rest) 27).2.filterMap RxLog.lifesign? = [UInt16.ofNat k] := by
  obtain ⟨q, decoded, id, length, error, lifesign⟩ := decode_timerFrame p now k rest
  simp only [rxPacketHandler, decoded, if_true]
  refine ⟨⟨id, length, error, k, lifesign, sent⟩, fun line mem => ?_, ?_⟩
  swap
  · simp only [List.filterMap_cons, RxLog.lifesign?, lifesign]
    split <;> rfl
  rcases List.mem_cons.1 mem with rfl | mem
  · exact ⟨id, length, k, lifesign, sent⟩
  · split at mem
    · rw [List.mem_singleton.1 mem]
      trivial
    · cases mem

theorem Receives.receive (inv : Receives l handled) (frames : ∀ f ∈ l.wire, ∃ k, f = timerFrame k)
    {r : Received} {now : Nat} (h : l.step (.receive r now) = some l') :
    ReceiverStep l l' ∧ ∃ handled', Receives l' handled' := by
  simp only [Link.step] at h
  split at h
  · rename_i carried
    obtain ⟨rx, stepped, rfl⟩ := Option.map_eq_some'.1 h
    refine ⟨⟨rfl, rfl, rfl⟩, ?_⟩
    rcases Handled.step inv.rx stepped with
      ⟨books, same⟩ | ⟨bytes, rxStart, rxEnd, buffer, rfl, books, calls, taken⟩
    · -- nothing handled, no callback
      refine ⟨handled, ?_⟩
      simp only [same, List.drop_length, rxPacketHandlers, List.foldl_nil]
      exact ⟨books, inv.delivered, inv.rxPacket, inv.rxLog, inv.logged⟩
    · have sent : bytes ∈ l.wire := of_decide_eq_true carried
      obtain ⟨k, rfl⟩ := frames bytes sent
      have whole : (timerFrame k).take rxBufferSize = timerFrame k :=
        List.take_of_length_le (by simp [rxBufferSize])
      rw [whole] at books calls taken
      rw [timerFrame_length] at calls taken
      have front : buffer = timerFrame k ++ buffer.drop 27 := by
        rw [← taken, List.take_append_drop]
      obtain ⟨fresh, logged, header⟩ := rxPacketHandler_timerFrame now l.rxPacket (buffer.drop 27) sent
      rw [← front] at fresh logged header
      refine ⟨handled ++ [⟨timerFrame k, rxStart, rxEnd⟩], ?_⟩
      simp only [calls, List.drop_left, rxPacketHandlers, List.foldl_cons, List.foldl_nil]
      obtain ⟨ks, frames, lines⟩ := inv.logged
      refine ⟨books, fun a mem => ?_, fun _ => fresh, fun line mem => ?_, ⟨ks ++ [k], ?_, ?_⟩⟩
      · rcases List.mem_append.1 mem with mem | mem
        · exact inv.delivered a mem
        · rw [List.mem_singleton.1 mem]
          exact sent
      · rcases List.mem_append.1 mem with mem | mem
        · exact inv.rxLog line mem
        · exact logged line mem
      · rw [List.map_append, frames, List.map_append]
        rfl
      · rw [List.filterMap_append, lines, header, List.map_append]
        rfl
  · cases h

theorem Receives.receive_frame (inv : Receives l handled) (running : l.rx.shouldExit = false)
    {bytes : List UInt8} (sent : bytes ∈ l.wire) (nonempty : 0 < (bytes.take rxBufferSize).length)
    (rxStart rxEnd now : Nat) :
    ∃ l', l.step (.receive (.datagram bytes rxStart rxEnd) now) = some l' ∧
      l'.rx.rxCallbacks.length = l.rx.rxCallbacks.length + 1 := by
  obtain ⟨rx, stepped, -, books⟩ := inv.rx.datagram running bytes rxStart rxEnd nonempty
  have before := congrArg List.length inv.rx.callbacks
  have after := congrArg List.length books.callbacks
  simp only [List.length_map, if_true, List.length_append, List.length_singleton] at before after
  simp only [Link.step, carries, decide_eq_true sent, if_true, stepped, Option.map_some', Option.some.injEq,
    exists_eq_left']
  omega

end Receiver

/-! ## Runs -/

/-- The link after `n` ticks of the TX timer. -/
structure Inv (l : Link) (n : Nat) : Prop where
  sends : ∃ history ks, Sends l n history ks
  receives : ∃ handled, Receives l handled

section Runs

variable {l l' : Link} {n : Nat}

theorem Inv.init (txClock rxClock : Nat × Nat) (txSlots rxSlots : Fin packetQueue.capacity → Slot)
    (rxBuffer : Fin rxBufferSize → UInt8) (constructedAt : Nat) :
    Inv (Link.init txClock rxClock txSlots rxSlots rxBuffer constructedAt) 0 where
  sends := ⟨[], [], rfl, rfl, TxInv.init txSlots, rfl, List.Pairwise.nil, nofun, List.Sublist.slnil, rfl, rfl⟩
  receives := ⟨[], Handled.init rxSlots rxBuffer true constructedAt, nofun, fun nonempty => absurd rfl nonempty,
    nofun, [], rfl, rfl⟩

theorem Inv.sender {history : List TxOutcome} {ks : List Nat} {handled : List Arrival}
    (sends : Sends l' n history ks) (receives : Receives l handled) (step : SenderStep l l') : Inv l' n :=
  ⟨⟨history, ks, sends⟩, ⟨handled, receives.sender step⟩⟩

theorem Inv.step (inv : Inv l n) {a : LinkAction} (h : l.step a = some l') : Inv l' (n + a.tick) := by
  obtain ⟨⟨history, ks, sends⟩, ⟨handled, receives⟩⟩ := inv
  cases a with
  | txTimer =>
    obtain ⟨_, sends', step⟩ := sends.txTimer h
    exact .sender sends' receives step
  | main =>
    obtain ⟨_, _, sends', step⟩ := sends.main h
    exact .sender sends' receives step
  | worker =>
    obtain ⟨_, sends', step⟩ := sends.worker h
    exact .sender sends' receives step
  | send =>
    obtain ⟨_, sends', step⟩ := sends.send h
    exact .sender sends' receives step
  | receive =>
    obtain ⟨step, handled', receives'⟩ := receives.receive sends.frames h
    exact ⟨⟨history, ks, sends.receiver step⟩, ⟨handled', receives'⟩⟩

theorem Link.run_append (l : Link) (xs ys : List LinkAction) :
    l.run (xs ++ ys) = (l.run xs).bind fun l' => l'.run ys := by
  induction xs generalizing l with
  | nil => rfl
  | cons a xs ih =>
    show ((l.step a).bind fun l' => l'.run (xs ++ ys)) =
      ((l.step a).bind fun l' => l'.run xs).bind fun l' => l'.run ys
    simp only [ih, Option.bind_assoc]

theorem Inv.run (inv : Inv l n) {actions : List LinkAction} (ran : l.run actions = some l') :
    Inv l' (n + ticks actions) := by
  induction actions generalizing l n with
  | nil =>
    cases Option.some.inj ran
    exact inv
  | cons a actions ih =>
    obtain ⟨l₁, stepped, ran⟩ := Option.bind_eq_some.1 ran
    rw [ticks, ← Nat.add_assoc]
    exact ih (inv.step stepped) ran

variable (txClock rxClock : Nat × Nat) (txSlots rxSlots : Fin packetQueue.capacity → Slot)
  (rxBuffer : Fin rxBufferSize → UInt8) (constructedAt : Nat) (actions : List LinkAction)

theorem Inv.of_run (ran : (Link.init txClock rxClock txSlots rxSlots rxBuffer constructedAt).run actions = some l) :
    Inv l (ticks actions) := by
  simpa only [Nat.zero_add] using (Inv.init txClock rxClock txSlots rxSlots rxBuffer constructedAt).run ran

theorem Sends.tick_of_mem {history : List TxOutcome} {ks : List Nat} (inv : Sends l n history ks)
    {k : Nat} (mem : timerFrame k ∈ l.wire) : ∃ k' < n, timerFrame k' = timerFrame k := by
  obtain ⟨ks', -, before, wire⟩ := inv.wire_ticks
  rw [wire] at mem
  obtain ⟨k', mem', same⟩ := List.mem_map.1 mem
  exact ⟨k', before k' mem', same⟩

/-- Over every run of the link, the wire holds the frames of distinct ticks of the TX timer, in
the order of their ticks: however the main thread and the TX worker interleave, they never
reorder, repeat or alter a frame, and never send one that was not encoded. -/
theorem link_wire_frames
    (ran : (Link.init txClock rxClock txSlots rxSlots rxBuffer constructedAt).run actions = some l) :
    ∃ ks : List Nat, ks.Sorted (· < ·) ∧ (∀ k ∈ ks, k < ticks actions) ∧ l.wire = ks.map timerFrame := by
  obtain ⟨⟨history, ks, sends⟩, -⟩ := Inv.of_run txClock rxClock txSlots rxSlots rxBuffer constructedAt actions ran
  exact sends.wire_ticks

def firstFrame : List LinkAction :=
  [.txTimer, .main, .main, .main, .main, .main, .worker, .worker, .worker, .worker, .worker, .worker,
    .send 27, .receive (.error .eagain) 0]

set_option maxRecDepth 2000 in
theorem link_wire_frames_first :
    ∃ l, (Link.init (0, 0) (0, 0) (fun _ => ⟨0, []⟩) (fun _ => ⟨0, []⟩) (fun _ => 0) 0).run firstFrame = some l ∧
      ∃ ks : List Nat, ks.Sorted (· < ·) ∧ (∀ k ∈ ks, k < ticks firstFrame) ∧ l.wire = ks.map timerFrame :=
  ⟨_, rfl, link_wire_frames (0, 0) (0, 0) (fun _ => ⟨0, []⟩) (fun _ => ⟨0, []⟩) (fun _ => 0) 0 firstFrame rfl⟩

def deliveredFrame : List LinkAction :=
  firstFrame ++ [.receive (.datagram (timerFrame 0) 1 2) 3]

set_option maxRecDepth 2000 in
theorem deliveredFrame_run :
    ∃ l, (Link.init (0, 0) (0, 0) (fun _ => ⟨0, []⟩) (fun _ => ⟨0, []⟩) (fun _ => 0) 0).run deliveredFrame =
      some l ∧ l.rx.rxCallbacks ≠ [] := by
  obtain ⟨l₁, first, running, sent⟩ : ∃ l₁,
      (Link.init (0, 0) (0, 0) (fun _ => ⟨0, []⟩) (fun _ => ⟨0, []⟩) (fun _ => 0) 0).run firstFrame = some l₁ ∧
        l₁.rx.shouldExit = false ∧ l₁.wire.length = 1 :=
    ⟨_, rfl, rfl, rfl⟩
  obtain ⟨⟨history, ks, sends⟩, handled, receives⟩ :=
    Inv.of_run (0, 0) (0, 0) (fun _ => ⟨0, []⟩) (fun _ => ⟨0, []⟩) (fun _ => 0) 0 firstFrame first
  -- the one frame on the wire is that of the first tick
  obtain ⟨ks, -, before, wire⟩ := sends.wire_ticks
  obtain ⟨k, rfl⟩ := List.length_eq_one.1 (show ks.length = 1 by rw [← List.length_map ks timerFrame, ← wire, sent])
  obtain rfl : k = 0 := Nat.lt_one_iff.1 (before k (List.mem_singleton_self k))
  obtain ⟨l₂, received, called⟩ := receives.receive_frame running (by rw [wire]; exact List.mem_singleton_self _)
    (by rw [List.length_take, timerFrame_length]; decide) 1 2 3
  refine ⟨l₂, ?_, fun none => by simp [none] at called⟩
  rw [deliveredFrame, Link.run_append, first, Option.some_bind]
  simp only [Link.run, received, Option.some_bind]

/-- Over every run of the link, the receiver's callback is handed frames from the wire, each with
its length. `decode` accepts every one of them, so "Decode failed" is never logged: the RX log
holds only instability warnings and headers of frames on the wire, with the sender's id, the
payload's 15 bytes and the lifesign of a tick of the TX timer. From the first datagram on,
`rx_packet` holds such a header and no error. -/
theorem link_rx_genuine
    (ran : (Link.init txClock rxClock txSlots rxSlots rxBuffer constructedAt).run actions = some l) :
    (∀ c ∈ l.rx.rxCallbacks, c.1.take c.2 ∈ l.wire ∧ c.2 = 27) ∧
    (∀ line ∈ l.rxLog, (∃ count, line = .unstable count) ∨
      ∃ k < ticks actions, ∃ intervalUs,
        line = .received txUniqueId (UInt16.ofNat k) 15 intervalUs ∧ timerFrame k ∈ l.wire) ∧
    (l.rx.rxCallbacks ≠ [] → l.rxPacket.uniqueId = txUniqueId ∧ l.rxPacket.dataLength = 15 ∧
      l.rxPacket.error = .none ∧
      ∃ k < ticks actions, l.rxPacket.rxLifesign = UInt16.ofNat k ∧ timerFrame k ∈ l.wire) := by
  obtain ⟨⟨history, ks, sends⟩, ⟨handled, receives⟩⟩ :=
    Inv.of_run txClock rxClock txSlots rxSlots rxBuffer constructedAt actions ran
  have calls := receives.rx.callbacks
  rw [if_pos rfl] at calls
  -- a lifesign read from the wire is that of an earlier tick
  have earlier {k : Nat} (mem : timerFrame k ∈ l.wire) :
      ∃ k' < ticks actions, UInt16.ofNat k = UInt16.ofNat k' ∧ timerFrame k' ∈ l.wire := by
    obtain ⟨k', before, same⟩ := sends.tick_of_mem mem
    exact ⟨k', before, timerFrame_lifesign same.symm, same ▸ mem⟩
  refine ⟨fun c mem => ?_, fun line mem => ?_, fun called => ?_⟩
  · obtain ⟨a, handledA, same⟩ := List.mem_map.1 (calls ▸ List.mem_map_of_mem _ mem)
    obtain ⟨k, frame⟩ := sends.frames a.bytes (receives.delivered a handledA)
    obtain ⟨bytes, length⟩ := Prod.mk.inj same
    rw [← bytes, ← length, frame, timerFrame_length]
    exact ⟨frame ▸ receives.delivered a handledA, rfl⟩
  · have sent := receives.rxLog line mem
    cases line with
    | received uniqueId lifesign dataLength intervalUs =>
      obtain ⟨rfl, rfl, k, rfl, onWire⟩ := sent
      obtain ⟨k', before, same, onWire'⟩ := earlier onWire
      exact .inr ⟨k', before, intervalUs, by rw [same]; rfl, onWire'⟩
    | unstable count => exact .inl ⟨count, rfl⟩
    | decodeFailed => exact sent.elim
  · have nonempty : handled ≠ [] := by
      intro none
      rw [none, List.map_nil, List.map_eq_nil_iff] at calls
      exact called calls
    obtain ⟨id, length, error, k, lifesign, onWire⟩ := receives.rxPacket nonempty
    obtain ⟨k', before, same, onWire'⟩ := earlier onWire
    exact ⟨id, length, error, k', before, lifesign.trans same, onWire'⟩

theorem link_rx_genuine_delivered :
    ∃ l, (Link.init (0, 0) (0, 0) (fun _ => ⟨0, []⟩) (fun _ => ⟨0, []⟩) (fun _ => 0) 0).run deliveredFrame = some l ∧
    l.rx.rxCallbacks ≠ [] ∧
    (∀ c ∈ l.rx.rxCallbacks, c.1.take c.2 ∈ l.wire ∧ c.2 = 27) ∧
    (∀ line ∈ l.rxLog, (∃ count, line = .unstable count) ∨
      ∃ k < ticks deliveredFrame, ∃ intervalUs,
        line = .received txUniqueId (UInt16.ofNat k) 15 intervalUs ∧ timerFrame k ∈ l.wire) ∧
    (l.rx.rxCallbacks ≠ [] → l.rxPacket.uniqueId = txUniqueId ∧ l.rxPacket.dataLength = 15 ∧
      l.rxPacket.error = .none ∧
      ∃ k < ticks deliveredFrame, l.rxPacket.rxLifesign = UInt16.ofNat k ∧ timerFrame k ∈ l.wire) := by
  obtain ⟨l, ran, called⟩ := deliveredFrame_run
  exact ⟨l, ran, called,
    link_rx_genuine (0, 0) (0, 0) (fun _ => ⟨0, []⟩) (fun _ => ⟨0, []⟩) (fun _ => 0) 0 deliveredFrame ran⟩

/-- Over every run of the link, the receiver's callback logs exactly one header line for each
datagram its RX loop took in, in the order they came, with the lifesign of the frame it got, and
`m_rxPacketCount` counts them: the datagrams handed to the callback are the frames of ticks `ks`,
and the header lines carry the lifesigns of `ks`, in the same order. -/
theorem link_rx_logs_each
    (ran : (Link.init txClock rxClock txSlots rxSlots rxBuffer constructedAt).run actions = some l) :
    ∃ ks : List Nat, (∀ k ∈ ks, timerFrame k ∈ l.wire) ∧
      l.rx.rxCallbacks.map (fun c => c.1.take c.2) = ks.map timerFrame ∧
      l.rxLog.filterMap RxLog.lifesign? = ks.map UInt16.ofNat ∧ l.rx.rxPacketCount.toNat = ks.length % 2 ^ 64 := by
  obtain ⟨-, ⟨handled, receives⟩⟩ := Inv.of_run txClock rxClock txSlots rxSlots rxBuffer constructedAt actions ran
  obtain ⟨ks, frames, lines⟩ := receives.logged
  have counted : handled.length = ks.length := by
    simpa only [List.length_map] using congrArg List.length frames
  have calls := congrArg (List.map Prod.fst) receives.rx.callbacks
  simp only [if_true, List.map_map, Function.comp_def] at calls
  refine ⟨ks, fun k mem => ?_, calls.trans frames, lines, by rw [receives.rx.count, counted]⟩
  obtain ⟨a, handledA, bytes⟩ := List.mem_map.1 (frames ▸ List.mem_map_of_mem timerFrame mem)
  exact bytes ▸ receives.delivered a handledA

theorem link_rx_logs_each_delivered :
    ∃ l, (Link.init (0, 0) (0, 0) (fun _ => ⟨0, []⟩) (fun _ => ⟨0, []⟩) (fun _ => 0) 0).run deliveredFrame = some l ∧
      l.rx.rxCallbacks ≠ [] ∧
      ∃ ks : List Nat, (∀ k ∈ ks, timerFrame k ∈ l.wire) ∧
        l.rx.rxCallbacks.map (fun c => c.1.take c.2) = ks.map timerFrame ∧
        l.rxLog.filterMap RxLog.lifesign? = ks.map UInt16.ofNat ∧ l.rx.rxPacketCount.toNat = ks.length % 2 ^ 64 := by
  obtain ⟨l, ran, called⟩ := deliveredFrame_run
  exact ⟨l, ran, called,
    link_rx_logs_each (0, 0) (0, 0) (fun _ => ⟨0, []⟩) (fun _ => ⟨0, []⟩) (fun _ => 0) 0 deliveredFrame ran⟩

/-- Over every run of the link with fewer than 2^64 ticks of the TX timer, every tick is accounted
for: its frame is on the wire, or was counted in `m_txDropCount` because the queue was full or
`sendto` failed, or is still in flight. `m_txPacketCount` counts the datagrams on the wire, but one
the worker has sent and not yet counted. -/
theorem link_tx_accounting
    (ran : (Link.init txClock rxClock txSlots rxSlots rxBuffer constructedAt).run actions = some l)
    (few : ticks actions < 2 ^ 64) :
    l.tx.txPacketCount.toNat + l.tx.sentUncounted = l.wire.length ∧
      ticks actions = l.wire.length + l.tx.txDropCount.toNat + l.tx.inFlight := by
  obtain ⟨⟨history, ks, sends⟩, -⟩ := Inv.of_run txClock rxClock txSlots rxSlots rxBuffer constructedAt actions ran
  have order := congrArg List.length sends.tx.order
  have counts := sends.tx.counts
  have total := calls_add_counts history
  have calls := sends.calls
  have sent := sends.sent
  have le := l.tx.sentUncounted_le_uncounted
  simp only [List.length_append, List.length_map] at order
  rw [sends.tx.txPacketCount, sends.tx.txDropCount, Nat.mod_eq_of_lt (by omega), Nat.mod_eq_of_lt (by omega),
    TxState.inFlight]
  omega

set_option maxRecDepth 2000 in
theorem link_tx_accounting_first :
    ∃ l, (Link.init (0, 0) (0, 0) (fun _ => ⟨0, []⟩) (fun _ => ⟨0, []⟩) (fun _ => 0) 0).run firstFrame = some l ∧
      ticks firstFrame < 2 ^ 64 ∧
      l.tx.txPacketCount.toNat + l.tx.sentUncounted = l.wire.length ∧
      ticks firstFrame = l.wire.length + l.tx.txDropCount.toNat + l.tx.inFlight :=
  ⟨_, rfl, by decide,
    link_tx_accounting (0, 0) (0, 0) (fun _ => ⟨0, []⟩) (fun _ => ⟨0, []⟩) (fun _ => 0) 0 firstFrame rfl (by decide)⟩

end Runs

end UdpPeer.App
