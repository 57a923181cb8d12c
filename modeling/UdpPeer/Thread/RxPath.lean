import UdpPeer.Thread.TxPath
import UdpPeer.Stats.LatencyStats

/-!
# The RX worker of `UdpThreadManager`

`rxThreadLoop` receives into its 2048-byte buffer. For each datagram it counts it, records the
gap since the previous datagram in `m_rxIntervalStats` (not on the first), pushes the bytes onto
`m_rxQueue` and counts a drop when the push fails, calls the RX callback, and records the time
the iteration took in `m_rxLatencyStats`. A zero-length read and a transient error do nothing;
any other error ends the loop.

The RX worker is the only thread that touches `m_rxQueue`: nothing in the repository pops it.
So each `push` runs from its call to its return with the consumer idle, and the queue is the
sequential FIFO of `Fifo.push` (`Ring.push_spec`). It fills after 1023 datagrams, and every
later push is a counted drop.
-/

namespace UdpPeer.Thread

open UdpPeer.Packet (writeBytes)
open UdpPeer.Stats (LatencyStats durationNs)

/-! ## A `push` with no other step in between -/

def ProducerPc.call? {P : RingParams} : ProducerPc P → Option (List UInt8 × Nat)
  | .idle => none
  | .loadWrite data length | .loadRead data length _ | .storeLength data length _
  | .copy data length _ | .publish data length _ => some (data, length)

namespace Ring

variable {P : RingParams}

def finishPush : Nat → Ring P → Outcome → Option (Ring P × Bool)
  | _, s, .pushed _ _ ok => some (s, ok)
  | 0, _, _ => none
  | fuel + 1, s, _ => s.producerStep.bind fun (s', o) => finishPush fuel s' o

/-- `push(data, length)` from its call to its return, no other thread stepping in between. -/
def push (s : Ring P) (data : List UInt8) (length : Nat) : Option (Ring P × Bool) :=
  (s.callPush data length).bind fun (s', o) => finishPush 5 s' o

theorem producerStep_call {s : Ring P} {data : List UInt8} {length : Nat}
    (inside : s.producer.call? = some (data, length)) :
    ∃ s' o, s.producerStep = some (s', o) ∧
      (o = .none ∧ s'.producer.call? = some (data, length) ∧
          s'.producer.stepsLeft + 1 = s.producer.stepsLeft ∨
        ∃ ok, o = .pushed data length ok ∧ s'.producer = .idle) := by
  cases pc : s.producer <;> rw [pc] at inside <;>
    simp only [ProducerPc.call?, Option.some.injEq, Prod.mk.injEq, reduceCtorEq] at inside
  all_goals obtain ⟨rfl, rfl⟩ := inside
  all_goals simp only [producerStep, pc]
  · exact ⟨_, _, rfl, .inl ⟨rfl, rfl, rfl⟩⟩
  · -- the full check returns `false` or goes on
    split_ifs
    · exact ⟨_, _, rfl, .inr ⟨false, rfl, rfl⟩⟩
    · exact ⟨_, _, rfl, .inl ⟨rfl, rfl, rfl⟩⟩
  · exact ⟨_, _, rfl, .inl ⟨rfl, rfl, rfl⟩⟩
  · exact ⟨_, _, rfl, .inl ⟨rfl, rfl, rfl⟩⟩
  · exact ⟨_, _, rfl, .inr ⟨true, rfl, rfl⟩⟩

theorem finishPush_pushed (fuel : Nat) (s : Ring P) (data : List UInt8) (length : Nat) (ok : Bool) :
    finishPush fuel s (.pushed data length ok) = some (s, ok) := by
  cases fuel <;> rfl

theorem finishPush_spec {fuel : Nat} {s : Ring P} (inv : Inv s) {data : List UInt8} {length : Nat}
    (inside : s.producer.call? = some (data, length)) (enough : s.producer.stepsLeft ≤ fuel) :
    ∃ s' ok, finishPush fuel s .none = some (s', ok) ∧ Inv s' ∧ s'.producer = .idle ∧
      Fifo.push P s.contents data length = (ok, s'.contents) := by
  induction fuel generalizing s with
  | zero =>
    cases pc : s.producer <;> rw [pc] at inside enough <;> simp [ProducerPc.call?, ProducerPc.stepsLeft] at inside enough
  | succ fuel ih =>
    obtain ⟨s', o, stepped, next⟩ := producerStep_call inside
    have sound := producerStep_sound inv stepped
    have unfolded : finishPush (fuel + 1) s .none = finishPush fuel s' o := by
      simp only [finishPush, stepped, Option.some_bind]
    rw [unfolded]
    rcases next with ⟨rfl, inside', fewer⟩ | ⟨ok, rfl, idle⟩
    · obtain ⟨s'', ok, finished, inv'', idle, pushed⟩ := ih sound.inv inside' (by omega)
      have same : s'.contents = s.contents := sound.linearizes
      exact ⟨s'', ok, finished, inv'', idle, same ▸ pushed⟩
    · exact ⟨s', ok, finishPush_pushed _ _ _ _ _, sound.inv, idle, sound.linearizes⟩

theorem push_spec {s : Ring P} (inv : Inv s) (idle : s.producer = .idle) {data : List UInt8}
    {length : Nat} (readable : length ≤ data.length) :
    ∃ s' ok, s.push data length = some (s', ok) ∧ Inv s' ∧ s'.producer = .idle ∧
      Fifo.push P s.contents data length = (ok, s'.contents) := by
  obtain ⟨s₁, o, called⟩ := callPush_isSome idle readable
  have sound := callPush_sound inv called
  unfold callPush at called
  rw [idle, if_pos readable] at called
  split_ifs at called with long <;> obtain ⟨rfl, rfl⟩ := Prod.mk.inj (Option.some.inj called)
  · -- `length > MaxPacketSize`
    exact ⟨s, false, by simp only [push, callPush, idle, if_pos readable, if_pos long,
      Option.some_bind, finishPush_pushed], inv, idle, sound.linearizes⟩
  · have enough : (ProducerPc.loadWrite (P := P) data length).stepsLeft ≤ 5 := le_refl 5
    obtain ⟨s', ok, finished, inv', idle', pushed⟩ := finishPush_spec sound.inv rfl enough
    refine ⟨s', ok, ?_, inv', idle', pushed⟩
    simp only [push, callPush, idle, if_pos readable, if_neg long, Option.some_bind]
    exact finished

end Ring

/-! ## The loop -/

inductive Errno
  | eagain
  | ewouldblock
  | eintr
  | econnrefused
  | other (code : Nat)

def Errno.isTransient : Errno → Bool
  | .other _ => false
  | _ => true

/-- What `m_udpNode->receive(rxBuffer, sizeof(rxBuffer))` meets: a datagram, possibly empty, of
which `recvfrom` copies at most `sizeof(rxBuffer)` bytes, with the clock read at `rxStart` after
the receive and at `rxEnd` after the callback; or a return of -1. -/
inductive Received
  | datagram (bytes : List UInt8) (rxStart rxEnd : Nat)
  | error (errno : Errno)

def rxBufferSize : Nat := 2048

def latencyStatsDefaultCapacity : Nat := 100000

instance latencyStatsDefaultCapacity_neZero : NeZero latencyStatsDefaultCapacity := ⟨by decide⟩

structure RxState where
  rxBuffer : List UInt8
  rxQueue : Ring packetQueue
  hasRxCallback : Bool
  rxPacketCount : UInt64
  rxDropCount : UInt64
  rxLatencyStats : LatencyStats latencyStatsDefaultCapacity
  rxIntervalStats : LatencyStats latencyStatsDefaultCapacity
  lastRxTime : Nat
  firstRxPacket : Bool
  shouldExit : Bool
  rxCallbacks : List (List UInt8 × Nat)

namespace RxState

variable (t : RxState)

def init (slots : Fin packetQueue.capacity → Slot) (rxBuffer : Fin rxBufferSize → UInt8)
    (hasRxCallback : Bool) (constructedAt : Nat) : RxState :=
  ⟨List.ofFn rxBuffer, Ring.init slots, hasRxCallback, 0, 0, LatencyStats.new _, LatencyStats.new _,
    constructedAt, true, false, []⟩

/-- One iteration of `rxThreadLoop`. Once the loop has ended nothing more is received. -/
def step (r : Received) : Option RxState :=
  if t.shouldExit then some t
  else
    match r with
    | .datagram bytes rxStart rxEnd =>
      let received := bytes.take rxBufferSize
      let recvLen := received.length
      if recvLen > 0 then
        let rxBuffer := writeBytes t.rxBuffer 0 received
        (t.rxQueue.push rxBuffer recvLen).map fun (rxQueue, pushed) =>
          { t with
            rxBuffer, rxQueue
            rxPacketCount := t.rxPacketCount + 1
            rxIntervalStats := if t.firstRxPacket then t.rxIntervalStats
              else t.rxIntervalStats.recordSampleBetween t.lastRxTime rxStart
            firstRxPacket := false
            lastRxTime := rxStart
            rxDropCount := if pushed then t.rxDropCount else t.rxDropCount + 1
            rxCallbacks := if t.hasRxCallback then t.rxCallbacks ++ [(rxBuffer, recvLen)]
              else t.rxCallbacks
            rxLatencyStats := t.rxLatencyStats.recordSampleBetween rxStart rxEnd }
      else some t
    | .error errno => some (if errno.isTransient then t else { t with shouldExit := true })

def run : RxState → List Received → Option RxState
  | t, [] => some t
  | t, r :: rs => (t.step r).bind fun t' => t'.run rs

end RxState

/-! ## What the loop handled -/

structure Arrival where
  bytes : List UInt8
  rxStart : Nat
  rxEnd : Nat

/-- The datagrams the loop handles: those of at least one byte, up to the first error that is
not transient. -/
def arrivals : List Received → List Arrival
  | [] => []
  | .datagram bytes rxStart rxEnd :: rs =>
    (if (bytes.take rxBufferSize).length > 0 then [⟨bytes.take rxBufferSize, rxStart, rxEnd⟩]
      else []) ++ arrivals rs
  | .error errno :: rs => if errno.isTransient then arrivals rs else []

def gaps : List Nat → List UInt64
  | a :: b :: rest => durationNs a b :: gaps (b :: rest)
  | _ => []

theorem gaps_concat : ∀ (ts : List Nat) (x : Nat),
    gaps (ts ++ [x]) = gaps ts ++ (ts.getLast?.map fun a => durationNs a x).toList
  | [], _ => rfl
  | [_], _ => rfl
  | a :: b :: rest, x => by
    rw [List.cons_append, List.cons_append, gaps, ← List.cons_append, gaps_concat (b :: rest) x,
      List.getLast?_cons_cons, gaps, List.cons_append]

def Arrival.packet (a : Arrival) : Packet := ⟨a.bytes.length, a.bytes⟩

/-! ## The loop keeps its books -/

/-- The RX state after the loop handled the datagrams `handled`: each field is a function of
them. -/
structure Handled (t : RxState) (hasRxCallback : Bool) (handled : List Arrival) : Prop where
  buffer : t.rxBuffer.length = rxBufferSize
  inv : t.rxQueue.Inv
  idle : t.rxQueue.producer = .idle
  queue : t.rxQueue.contents = (handled.take 1023).map Arrival.packet
  count : t.rxPacketCount.toNat = handled.length % 2 ^ 64
  drops : t.rxDropCount.toNat = (handled.length - 1023) % 2 ^ 64
  callback : t.hasRxCallback = hasRxCallback
  callbacks : t.rxCallbacks.map (fun c => (c.1.take c.2, c.2)) =
    if hasRxCallback then handled.map fun a => (a.bytes, a.bytes.length) else []
  latency : t.rxLatencyStats =
    (LatencyStats.new _).recordSamples (handled.map fun a => durationNs a.rxStart a.rxEnd)
  interval : t.rxIntervalStats = (LatencyStats.new _).recordSamples (gaps (handled.map Arrival.rxStart))
  first : t.firstRxPacket = handled.isEmpty
  last : ∀ a ∈ handled.getLast?, t.lastRxTime = a.rxStart

theorem Handled.init (slots : Fin packetQueue.capacity → Slot) (rxBuffer : Fin rxBufferSize → UInt8)
    (hasRxCallback : Bool) (constructedAt : Nat) :
    Handled (RxState.init slots rxBuffer hasRxCallback constructedAt) hasRxCallback [] where
  buffer := by simp only [RxState.init, List.length_ofFn]
  inv := Ring.inv_init slots
  idle := rfl
  queue := Ring.contents_init slots
  count := rfl
  drops := rfl
  callback := rfl
  callbacks := by cases hasRxCallback <;> rfl
  latency := rfl
  interval := rfl
  first := rfl
  last := nofun

theorem writeBytes_front (buffer src : List UInt8) (fits : src.length ≤ buffer.length) :
    (writeBytes buffer 0 src).length = buffer.length ∧ (writeBytes buffer 0 src).take src.length = src := by
  simp only [writeBytes, List.take_zero, List.nil_append, Nat.zero_add]
  exact ⟨by simp; omega, List.take_left' rfl⟩

theorem recordSamples_concat {capacity : Nat} [NeZero capacity] (s : LatencyStats capacity)
    (samples : List UInt64) (x : UInt64) :
    s.recordSamples (samples ++ [x]) = (s.recordSamples samples).recordSample x := by
  simp only [LatencyStats.recordSamples, List.foldl_append, List.foldl_cons, List.foldl_nil]

theorem push_window {handled : List Arrival} {a : Arrival} {data : List UInt8}
    (copied : data.take a.bytes.length = a.bytes) (small : a.bytes.length ≤ packetQueue.maxPacketSize)
    {ok : Bool} {queue : List Packet}
    (pushed : Fifo.push packetQueue ((handled.take 1023).map Arrival.packet) data a.bytes.length = (ok, queue))
    {drops : UInt64} (counted : drops.toNat = (handled.length - 1023) % 2 ^ 64) :
    queue = ((handled ++ [a]).take 1023).map Arrival.packet ∧
      (if ok then drops else drops + 1).toNat = ((handled ++ [a]).length - 1023) % 2 ^ 64 := by
  have queued : (handled.take 1023).length = min 1023 handled.length := List.length_take _ _
  rw [Fifo.push, if_neg (Nat.not_lt.2 small), copied] at pushed
  rw [List.length_append, List.length_singleton]
  by_cases full : 1023 ≤ handled.length
  · rw [if_pos (by rw [List.length_map, queued]; show 1023 ≤ _; omega)] at pushed
    obtain ⟨rfl, rfl⟩ := Prod.mk.inj pushed
    refine ⟨by rw [List.take_append_of_le_length full], ?_⟩
    rw [if_neg Bool.false_ne_true, uint64_succ_toNat counted,
      show handled.length + 1 - 1023 = handled.length - 1023 + 1 by omega]
  · rw [if_neg (by rw [List.length_map, queued]; show ¬ 1023 ≤ _; omega)] at pushed
    obtain ⟨rfl, rfl⟩ := Prod.mk.inj pushed
    refine ⟨?_, by rw [if_pos rfl, counted, show handled.length + 1 - 1023 = handled.length - 1023 by omega]⟩
    rw [List.take_of_length_le (by omega), List.take_of_length_le (by simp; omega), List.map_append]
    rfl

theorem intervals_concat {handled : List Arrival} {first : Bool} {lastRxTime : Nat}
    {stats : LatencyStats latencyStatsDefaultCapacity} (firstEq : first = handled.isEmpty)
    (last : ∀ a ∈ handled.getLast?, lastRxTime = a.rxStart)
    (statsEq : stats = (LatencyStats.new _).recordSamples (gaps (handled.map Arrival.rxStart))) (a : Arrival) :
    (if first then stats else stats.recordSampleBetween lastRxTime a.rxStart) =
      (LatencyStats.new _).recordSamples (gaps ((handled ++ [a]).map Arrival.rxStart)) := by
  rw [List.map_append, List.map_singleton, gaps_concat, firstEq, statsEq]
  rcases List.eq_nil_or_concat handled with rfl | ⟨front, previous, rfl⟩
  · rfl
  · rw [List.concat_eq_append] at last ⊢
    rw [last previous (by simp), show (front ++ [previous]).isEmpty = false by simp, if_neg Bool.false_ne_true,
      List.map_append, List.map_singleton, List.getLast?_concat, Option.map_some', Option.toList_some,
      recordSamples_concat]
    rfl

theorem Handled.datagram {t : RxState} {hasRxCallback : Bool} {handled : List Arrival}
    (books : Handled t hasRxCallback handled) (running : t.shouldExit = false)
    (bytes : List UInt8) (rxStart rxEnd : Nat) (nonempty : 0 < (bytes.take rxBufferSize).length) :
    ∃ t', t.step (.datagram bytes rxStart rxEnd) = some t' ∧ t'.shouldExit = false ∧
      Handled t' hasRxCallback (handled ++ [⟨bytes.take rxBufferSize, rxStart, rxEnd⟩]) := by
  set received := bytes.take rxBufferSize with received_def
  have fits : received.length ≤ rxBufferSize := List.length_take_le _ _
  have size := books.buffer
  obtain ⟨written, copied⟩ := writeBytes_front t.rxBuffer received (by omega)
  obtain ⟨q, ok, pushed, inv, idle, fifo⟩ := Ring.push_spec books.inv books.idle
    (show received.length ≤ (writeBytes t.rxBuffer 0 received).length by omega)
  simp only [RxState.step, running, Bool.false_eq_true, if_false, ← received_def, if_pos nonempty,
    pushed, Option.map_some']
  refine ⟨_, rfl, rfl, ?_⟩
  rw [books.queue] at fifo
  obtain ⟨queue, drops⟩ := push_window (a := ⟨received, rxStart, rxEnd⟩) copied fits fifo books.drops
  have cb := books.callback
  refine ⟨written.trans books.buffer, inv, idle, queue, ?_, drops, cb, ?_, ?_, ?_, ?_, ?_⟩
  · show (t.rxPacketCount + 1).toNat = _
    rw [List.length_append, List.length_singleton]
    exact uint64_succ_toNat books.count
  · -- the callback is handed the buffer and the datagram's length
    dsimp only
    have calls := books.callbacks
    rw [cb]
    cases hasRxCallback <;> simp only [if_true, if_false, Bool.false_eq_true, List.map_append,
      List.map_cons, List.map_nil, calls, copied] at calls ⊢
  · show t.rxLatencyStats.recordSampleBetween rxStart rxEnd = _
    rw [List.map_append, List.map_singleton, recordSamples_concat, ← books.latency]
    rfl
  · show (if t.firstRxPacket then _ else _) = _
    exact intervals_concat books.first books.last books.interval ⟨received, rxStart, rxEnd⟩
  · show false = _
    simp
  · intro a last
    simp only [List.getLast?_concat, Option.mem_def, Option.some.injEq] at last
    rw [← last]

theorem Handled.exit {t : RxState} {hasRxCallback : Bool} {handled : List Arrival}
    (books : Handled t hasRxCallback handled) : Handled { t with shouldExit := true } hasRxCallback handled :=
  ⟨books.1, books.2, books.3, books.4, books.5, books.6, books.7, books.8, books.9, books.10, books.11,
    books.12⟩

theorem RxState.run_exited {t : RxState} (exited : t.shouldExit = true) (rs : List Received) :
    t.run rs = some t := by
  induction rs with
  | nil => rfl
  | cons r rs ih => simp only [RxState.run, RxState.step, exited, if_true, Option.some_bind, ih]

theorem Handled.run {t : RxState} {hasRxCallback : Bool} {handled : List Arrival}
    (books : Handled t hasRxCallback handled) (running : t.shouldExit = false) (rs : List Received) :
    ∃ t', t.run rs = some t' ∧ Handled t' hasRxCallback (handled ++ arrivals rs) := by
  induction rs generalizing t handled with
  | nil => exact ⟨t, rfl, by rwa [arrivals, List.append_nil]⟩
  | cons r rs ih =>
    cases r with
    | datagram bytes rxStart rxEnd =>
      by_cases nonempty : 0 < (bytes.take rxBufferSize).length
      · obtain ⟨t₁, stepped, running₁, books₁⟩ := books.datagram running bytes rxStart rxEnd nonempty
        obtain ⟨t', ran, books'⟩ := ih books₁ running₁
        refine ⟨t', by rw [RxState.run, stepped, Option.some_bind, ran], ?_⟩
        rwa [arrivals, if_pos nonempty, List.singleton_append, ← List.singleton_append,
          ← List.append_assoc]
      · -- a zero-length read
        obtain ⟨t', ran, books'⟩ := ih books running
        refine ⟨t', ?_, by rwa [arrivals, if_neg nonempty, List.nil_append]⟩
        simp only [RxState.run, RxState.step, running, Bool.false_eq_true, if_false, if_neg nonempty,
          Option.some_bind, ran]
    | error errno =>
      cases transient : errno.isTransient
      · -- the loop ends
        refine ⟨{ t with shouldExit := true }, ?_, by simpa [arrivals, transient] using books.exit⟩
        simp only [RxState.run, RxState.step, running, transient, Bool.false_eq_true, if_false,
          Option.some_bind]
        exact RxState.run_exited rfl rs
      · obtain ⟨t', ran, books'⟩ := ih books running
        refine ⟨t', ?_, by rwa [arrivals, if_pos transient]⟩
        simp only [RxState.run, RxState.step, running, transient, Bool.false_eq_true, if_false,
          if_true, Option.some_bind, ran]

theorem gaps_length : ∀ ts : List Nat, (gaps ts).length = ts.length - 1
  | [] | [_] => rfl
  | _ :: b :: rest => by
    rw [gaps, List.length_cons, gaps_length (b :: rest)]
    rfl

/-- The RX worker's books over every sequence of receive outcomes. The loop runs to its end. For
the datagrams it handled, `i` of them, `m_rxPacketCount` is `i`; the callback, when one is set, is
called once per datagram in order, with the datagram's bytes and length; `m_rxLatencyStats`
recorded one sample per datagram, and `m_rxIntervalStats` the `i - 1` gaps between consecutive
arrival instants; the undrained queue keeps the first 1023 datagrams, and every later one is a
counted drop. The counters are `uint64_t`. -/
theorem rx_bookkeeping (slots : Fin packetQueue.capacity → Slot) (rxBuffer : Fin rxBufferSize → UInt8)
    (hasRxCallback : Bool) (constructedAt : Nat) (rs : List Received) :
    ∃ t, (RxState.init slots rxBuffer hasRxCallback constructedAt).run rs = some t ∧
      t.rxPacketCount.toNat = (arrivals rs).length % 2 ^ 64 ∧
      t.rxCallbacks.map (fun c => (c.1.take c.2, c.2)) =
        (if hasRxCallback then (arrivals rs).map fun a => (a.bytes, a.bytes.length) else []) ∧
      t.rxLatencyStats =
        (LatencyStats.new _).recordSamples ((arrivals rs).map fun a => durationNs a.rxStart a.rxEnd) ∧
      t.rxIntervalStats = (LatencyStats.new _).recordSamples (gaps ((arrivals rs).map Arrival.rxStart)) ∧
      t.rxQueue.contents = ((arrivals rs).take 1023).map Arrival.packet ∧
      t.rxDropCount.toNat = ((arrivals rs).length - 1023) % 2 ^ 64 := by
  obtain ⟨t, ran, books⟩ := (Handled.init slots rxBuffer hasRxCallback constructedAt).run rfl rs
  rw [List.nil_append] at books
  exact ⟨t, ran, books.count, books.callbacks, books.latency, books.interval, books.queue, books.drops⟩

end UdpPeer.Thread
