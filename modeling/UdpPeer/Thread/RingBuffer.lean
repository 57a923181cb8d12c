import UdpPeer.Packet.Wire
import Mathlib.Logic.Function.Basic
import Mathlib.Data.List.Range

/-!
# `LockFreeRingBuffer<MaxPacketSize, Capacity>`

One producer runs `push` and one consumer runs `pop`, and their steps interleave in any order.
Each thread's step is one access to shared memory: a load or a store of an index, the store of a
slot's length, or a `memcpy` of a slot's bytes; the arguments of the call in progress and what
it has loaded are the thread's local state (`ProducerPc`, `ConsumerPc`).

The ring implements a FIFO of capacity `Capacity - 1` (`Fifo`). The packets it holds are the
slots from the read index up to the write index (`contents`). A call takes effect at the step
that ends it: every step either leaves `contents` alone or ends a call, and then it changes
`contents` as the FIFO operation of that call would, returning what that operation returns
(`Sound`). The invariant behind this (`Inv`) is that inside its critical section each thread
owns its slot: the producer's slot is outside the queued window and the consumer's is its head.
Neither thread waits for the other: a thread inside its call can always take its next step, and
the call returns within at most five of its own steps (`WaitFree`).
-/

namespace UdpPeer.Thread

open UdpPeer.Packet (writeBytes)

/-- The template parameters, with the bounds under which the ring is a FIFO: a slot's length is
a `uint16_t`, and `Capacity` divides the indices. -/
structure RingParams where
  maxPacketSize : Nat
  capacity : Nat
  capacity_pos : 0 < capacity
  maxPacketSize_le : maxPacketSize ≤ 65535

structure Slot where
  length : UInt16
  data : List UInt8

structure Packet where
  length : Nat
  data : List UInt8
  deriving DecidableEq, Repr

def Slot.packet (slot : Slot) : Packet := ⟨slot.length.toNat, slot.data.take slot.length.toNat⟩

/-! ## The sequential FIFO -/

inductive PopResult
  | empty
  | tooLong (actualLength : Nat)
  | popped (packet : Packet)
  deriving DecidableEq, Repr

namespace Fifo

variable (P : RingParams)

def push (queue : List Packet) (data : List UInt8) (length : Nat) : Bool × List Packet :=
  if length > P.maxPacketSize then (false, queue)
  else if P.capacity - 1 ≤ queue.length then (false, queue)
  else (true, queue ++ [⟨length, data.take length⟩])

def pop (queue : List Packet) (maxLength : Nat) : PopResult × List Packet :=
  match queue with
  | [] => (.empty, [])
  | packet :: rest =>
    if packet.length > maxLength then (.tooLong packet.length, packet :: rest)
    else (.popped packet, rest)

end Fifo

/-! ## The two threads -/

inductive ProducerPc (P : RingParams)
  | idle
  | loadWrite (data : List UInt8) (length : Nat)
  | loadRead (data : List UInt8) (length : Nat) (currentWrite : Fin P.capacity)
  | storeLength (data : List UInt8) (length : Nat) (currentWrite : Fin P.capacity)
  | copy (data : List UInt8) (length : Nat) (currentWrite : Fin P.capacity)
  | publish (data : List UInt8) (length : Nat) (currentWrite : Fin P.capacity)
  deriving DecidableEq

inductive ConsumerPc (P : RingParams)
  | idle
  | loadRead (maxLength : Nat)
  | loadWrite (maxLength : Nat) (currentRead : Fin P.capacity)
  | readLength (maxLength : Nat) (currentRead : Fin P.capacity)
  | copy (maxLength : Nat) (currentRead : Fin P.capacity) (actualLength : Nat)
  | publish (maxLength : Nat) (currentRead : Fin P.capacity) (packet : Packet)
  deriving DecidableEq

structure Ring (P : RingParams) where
  buffer : Fin P.capacity → Slot
  writeIdx : Fin P.capacity
  readIdx : Fin P.capacity
  producer : ProducerPc P
  consumer : ConsumerPc P

inductive Outcome
  | none
  | pushed (data : List UInt8) (length : Nat) (ok : Bool)
  | popped (maxLength : Nat) (result : PopResult)

inductive Action
  | push (data : List UInt8) (length : Nat)
  | producer
  | pop (maxLength : Nat)
  | consumer

namespace Action

def callsPush : Action → Bool
  | push .. => true
  | _ => false

def callsPop : Action → Bool
  | pop _ => true
  | _ => false

end Action

def RingParams.next (P : RingParams) (i : Fin P.capacity) : Fin P.capacity :=
  ⟨((i : Nat) + 1) % P.capacity, Nat.mod_lt _ P.capacity_pos⟩

def RingParams.offset (P : RingParams) (i : Fin P.capacity) (k : Nat) : Fin P.capacity :=
  ⟨((i : Nat) + k) % P.capacity, Nat.mod_lt _ P.capacity_pos⟩

namespace Ring

variable {P : RingParams} (s : Ring P)

def init (buffer : Fin P.capacity → Slot) : Ring P :=
  ⟨buffer, ⟨0, P.capacity_pos⟩, ⟨0, P.capacity_pos⟩, .idle, .idle⟩

/-- The producer calls `push(data, length)`, with `data` holding `length` bytes, and makes the
length check. -/
def callPush (data : List UInt8) (length : Nat) : Option (Ring P × Outcome) :=
  match s.producer with
  | .idle =>
    if length ≤ data.length then
      if length > P.maxPacketSize then some (s, .pushed data length false)
      else some ({ s with producer := .loadWrite data length }, .none)
    else none
  | _ => none

def producerStep : Option (Ring P × Outcome) :=
  match s.producer with
  | .idle => none
  | .loadWrite data length =>
    some ({ s with producer := .loadRead data length s.writeIdx }, .none)
  | .loadRead data length currentWrite =>
    if P.next currentWrite = s.readIdx then
      some ({ s with producer := .idle }, .pushed data length false)
    else some ({ s with producer := .storeLength data length currentWrite }, .none)
  | .storeLength data length currentWrite =>
    some ({ s with
      buffer := Function.update s.buffer currentWrite
        { s.buffer currentWrite with length := UInt16.ofNat length }
      producer := .copy data length currentWrite }, .none)
  | .copy data length currentWrite =>
    some ({ s with
      buffer := Function.update s.buffer currentWrite
        { s.buffer currentWrite with
          data := writeBytes (s.buffer currentWrite).data 0 (data.take length) }
      producer := .publish data length currentWrite }, .none)
  | .publish data length currentWrite =>
    some ({ s with writeIdx := P.next currentWrite, producer := .idle }, .pushed data length true)

/-- The consumer calls `pop(data, maxLength, actualLength)`. -/
def callPop (maxLength : Nat) : Option (Ring P × Outcome) :=
  match s.consumer with
  | .idle => some ({ s with consumer := .loadRead maxLength }, .none)
  | _ => none

def consumerStep : Option (Ring P × Outcome) :=
  match s.consumer with
  | .idle => none
  | .loadRead maxLength =>
    some ({ s with consumer := .loadWrite maxLength s.readIdx }, .none)
  | .loadWrite maxLength currentRead =>
    if currentRead = s.writeIdx then
      some ({ s with consumer := .idle }, .popped maxLength .empty)
    else some ({ s with consumer := .readLength maxLength currentRead }, .none)
  | .readLength maxLength currentRead =>
    let actualLength := (s.buffer currentRead).length.toNat
    if actualLength > maxLength then
      some ({ s with consumer := .idle }, .popped maxLength (.tooLong actualLength))
    else some ({ s with consumer := .copy maxLength currentRead actualLength }, .none)
  | .copy maxLength currentRead actualLength =>
    let packet : Packet := ⟨actualLength, (s.buffer currentRead).data.take actualLength⟩
    some ({ s with consumer := .publish maxLength currentRead packet }, .none)
  | .publish maxLength currentRead packet =>
    some ({ s with readIdx := P.next currentRead, consumer := .idle },
      .popped maxLength (.popped packet))

def step : Action → Option (Ring P × Outcome)
  | .push data length => s.callPush data length
  | .producer => s.producerStep
  | .pop maxLength => s.callPop maxLength
  | .consumer => s.consumerStep

def run : Ring P → List Action → Option (Ring P × List Outcome)
  | s, [] => some (s, [])
  | s, a :: actions => (s.step a).bind fun (s', o) => (s'.run actions).map fun (s'', os) => (s'', o :: os)

def size : Nat :=
  if s.readIdx ≤ s.writeIdx then s.writeIdx - s.readIdx
  else P.capacity - s.readIdx + s.writeIdx

/-- The packets between the read and the write index, oldest first. -/
def contents : List Packet :=
  (List.range s.size).map fun k => (s.buffer (P.offset s.readIdx k)).packet

end Ring

/-! ## Index arithmetic -/

theorem mod_of_lt_double {a n : Nat} (small : a < 2 * n) :
    a % n = if a < n then a else a - n := by
  split
  · exact Nat.mod_eq_of_lt ‹_›
  · rw [Nat.mod_eq_sub_mod (by omega), Nat.mod_eq_of_lt (by omega)]

namespace Ring

variable {P : RingParams} (s : Ring P)

theorem offset_size : P.offset s.readIdx s.size = s.writeIdx := by
  have := s.writeIdx.isLt
  have := s.readIdx.isLt
  apply Fin.ext
  simp only [RingParams.offset, size]
  rw [mod_of_lt_double (by split <;> omega)]
  split <;> split <;> omega

theorem offset_ne_writeIdx {k : Nat} (queued : k < s.size) :
    P.offset s.readIdx k ≠ s.writeIdx := by
  have := s.writeIdx.isLt
  have := s.readIdx.isLt
  intro same
  have value := congrArg Fin.val same
  simp only [RingParams.offset, size] at value queued
  rw [mod_of_lt_double (by split at queued <;> omega)] at value
  split at value <;> split at queued <;> omega

theorem next_eq_readIdx_iff : P.next s.writeIdx = s.readIdx ↔ P.capacity - 1 ≤ s.size := by
  have := s.writeIdx.isLt
  have := s.readIdx.isLt
  rw [Fin.ext_iff]
  simp only [RingParams.next, size]
  rw [mod_of_lt_double (by omega)]
  split <;> split <;> omega

theorem readIdx_eq_writeIdx_iff : s.readIdx = s.writeIdx ↔ s.size = 0 := by
  have := s.writeIdx.isLt
  rw [Fin.ext_iff]
  unfold size
  split <;> omega

theorem offset_zero (i : Fin P.capacity) : P.offset i 0 = i :=
  Fin.ext (Nat.mod_eq_of_lt i.isLt)

theorem offset_next (i : Fin P.capacity) (k : Nat) : P.offset (P.next i) k = P.offset i (k + 1) := by
  apply Fin.ext
  show (((i : Nat) + 1) % P.capacity + k) % P.capacity = ((i : Nat) + (k + 1)) % P.capacity
  rw [Nat.mod_add_mod, Nat.add_right_comm, Nat.add_assoc]

theorem size_next_write {s s' : Ring P} (write : s'.writeIdx = P.next s.writeIdx)
    (read : s'.readIdx = s.readIdx) (room : s.size + 1 < P.capacity) : s'.size = s.size + 1 := by
  have := s.writeIdx.isLt
  have := s.readIdx.isLt
  simp only [size, write, read, RingParams.next, Fin.le_def] at room ⊢
  rw [mod_of_lt_double (by omega)]
  split at room <;> split <;> split <;> omega

theorem size_next_read {s s' : Ring P} (read : s'.readIdx = P.next s.readIdx)
    (write : s'.writeIdx = s.writeIdx) (queued : 0 < s.size) : s'.size = s.size - 1 := by
  have := s.writeIdx.isLt
  have := s.readIdx.isLt
  simp only [size, write, read, RingParams.next, Fin.le_def] at queued ⊢
  rw [mod_of_lt_double (by omega)]
  split at queued <;> split <;> split <;> omega

/-! ## The queued packets -/

theorem contents_length : s.contents.length = s.size := by
  simp [contents]

theorem contents_publish_write {s s' : Ring P} (write : s'.writeIdx = P.next s.writeIdx)
    (buffer : s'.buffer = s.buffer) (read : s'.readIdx = s.readIdx)
    (room : s.size + 1 < P.capacity) :
    s'.contents = s.contents ++ [(s.buffer s.writeIdx).packet] := by
  simp only [contents, size_next_write write read room, buffer, read, List.range_succ,
    List.map_append, List.map_cons, List.map_nil, offset_size]

theorem contents_publish_read {s s' : Ring P} (read : s'.readIdx = P.next s.readIdx)
    (buffer : s'.buffer = s.buffer) (write : s'.writeIdx = s.writeIdx)
    (queued : 0 < s.size) : s.contents = (s.buffer s.readIdx).packet :: s'.contents := by
  simp only [contents, size_next_read read write queued, buffer, read]
  obtain ⟨n, hn⟩ : ∃ n, s.size = n + 1 := ⟨s.size - 1, by omega⟩
  rw [hn, List.range_succ_eq_map, List.map_cons, List.map_map, offset_zero, Nat.add_sub_cancel]
  congr 1
  exact List.map_congr_left fun k _ => by simp [offset_next]

theorem contents_head (queued : 0 < s.size) :
    ∃ rest, s.contents = (s.buffer s.readIdx).packet :: rest := by
  have read : ({ s with readIdx := P.next s.readIdx } : Ring P).readIdx = P.next s.readIdx := rfl
  exact ⟨_, contents_publish_read read rfl rfl queued⟩

theorem contents_update_writeIdx {s s' : Ring P} {slot : Slot}
    (buffer : s'.buffer = Function.update s.buffer s.writeIdx slot)
    (write : s'.writeIdx = s.writeIdx) (read : s'.readIdx = s.readIdx) :
    s'.contents = s.contents := by
  have same : s'.size = s.size := by simp only [size, write, read]
  simp only [contents, same, buffer, read]
  exact List.map_congr_left fun k member => by
    rw [Function.update_noteq (s.offset_ne_writeIdx (List.mem_range.1 member))]

end Ring

/-! ## What a step does to the queue -/

/-- A step leaves the queue alone, or applies the FIFO operation of the call it ends. -/
def Linearizes (P : RingParams) (queue : List Packet) : Outcome → List Packet → Prop
  | .none, queue' => queue' = queue
  | .pushed data length ok, queue' => Fifo.push P queue data length = (ok, queue')
  | .popped maxLength result, queue' => Fifo.pop queue maxLength = (result, queue')

namespace Outcome

def failed : Outcome → Bool
  | pushed _ _ ok => !ok
  | popped _ (.popped _) => false
  | popped _ _ => true
  | none => false

def accepted : Outcome → List Packet
  | pushed data length true => [⟨length, data.take length⟩]
  | _ => []

def delivered : Outcome → List Packet
  | popped _ (.popped packet) => [packet]
  | _ => []

def endsPush : Outcome → Bool
  | pushed .. => true
  | _ => false

def endsPop : Outcome → Bool
  | popped .. => true
  | _ => false

end Outcome

theorem Linearizes.history {P : RingParams} {queue queue' : List Packet} {o : Outcome}
    (effect : Linearizes P queue o queue') : o.delivered ++ queue' = queue ++ o.accepted := by
  cases o with
  | none => simp [Outcome.delivered, Outcome.accepted, show queue' = queue from effect]
  | pushed data length ok =>
    simp only [Linearizes, Fifo.push] at effect
    split_ifs at effect <;> obtain ⟨rfl, rfl⟩ := Prod.mk.inj effect <;>
      simp [Outcome.delivered, Outcome.accepted]
  | popped maxLength result =>
    simp only [Linearizes, Fifo.pop] at effect
    split at effect
    · obtain ⟨rfl, rfl⟩ := Prod.mk.inj effect
      rfl
    · split_ifs at effect <;> obtain ⟨rfl, rfl⟩ := Prod.mk.inj effect <;>
        simp [Outcome.delivered, Outcome.accepted]

/-! ## The invariant -/

namespace Ring

variable {P : RingParams}

def PushArgs (P : RingParams) (data : List UInt8) (length : Nat) : Prop :=
  length ≤ data.length ∧ length ≤ P.maxPacketSize

def ProducerInv (s : Ring P) : ProducerPc P → Prop
  | .idle => True
  | .loadWrite data length => PushArgs P data length
  | .loadRead data length currentWrite => PushArgs P data length ∧ currentWrite = s.writeIdx
  | .storeLength data length currentWrite =>
    PushArgs P data length ∧ currentWrite = s.writeIdx ∧ s.size + 1 < P.capacity
  | .copy data length currentWrite =>
    PushArgs P data length ∧ currentWrite = s.writeIdx ∧ s.size + 1 < P.capacity ∧
      (s.buffer currentWrite).length = UInt16.ofNat length
  | .publish data length currentWrite =>
    length ≤ P.maxPacketSize ∧ currentWrite = s.writeIdx ∧ s.size + 1 < P.capacity ∧
      (s.buffer currentWrite).packet = ⟨length, data.take length⟩

def ConsumerInv (s : Ring P) : ConsumerPc P → Prop
  | .idle | .loadRead _ => True
  | .loadWrite _ currentRead => currentRead = s.readIdx
  | .readLength _ currentRead => currentRead = s.readIdx ∧ 0 < s.size
  | .copy maxLength currentRead actualLength =>
    currentRead = s.readIdx ∧ 0 < s.size ∧
      actualLength = (s.buffer currentRead).length.toNat ∧ actualLength ≤ maxLength
  | .publish maxLength currentRead packet =>
    currentRead = s.readIdx ∧ 0 < s.size ∧
      packet = (s.buffer currentRead).packet ∧ packet.length ≤ maxLength

structure Inv (s : Ring P) : Prop where
  producer : ProducerInv s s.producer
  consumer : ConsumerInv s s.consumer

theorem ConsumerInv.frame {s s' : Ring P} {pc : ConsumerPc P} (inv : ConsumerInv s pc)
    (read : s'.readIdx = s.readIdx) (grows : s.size ≤ s'.size)
    (head : 0 < s.size → s'.buffer s.readIdx = s.buffer s.readIdx) : ConsumerInv s' pc := by
  cases pc with
  | idle | loadRead => trivial
  | loadWrite => exact inv.trans read.symm
  | readLength => exact ⟨inv.1.trans read.symm, Nat.lt_of_lt_of_le inv.2 grows⟩
  | copy =>
    obtain ⟨rfl, queued, actual, fits⟩ := inv
    exact ⟨read.symm, Nat.lt_of_lt_of_le queued grows, by rw [head queued]; exact actual, fits⟩
  | publish =>
    obtain ⟨rfl, queued, packet, fits⟩ := inv
    exact ⟨read.symm, Nat.lt_of_lt_of_le queued grows, by rw [head queued]; exact packet, fits⟩

theorem ProducerInv.frame {s s' : Ring P} {pc : ProducerPc P} (inv : ProducerInv s pc)
    (write : s'.writeIdx = s.writeIdx) (shrinks : s'.size ≤ s.size) (buffer : s'.buffer = s.buffer) :
    ProducerInv s' pc := by
  have room {n : Nat} (before : s.size + 1 < n) : s'.size + 1 < n := by omega
  cases pc with
  | idle => trivial
  | loadWrite => exact inv
  | loadRead => exact ⟨inv.1, inv.2.trans write.symm⟩
  | storeLength => exact ⟨inv.1, inv.2.1.trans write.symm, room inv.2.2⟩
  | copy => exact ⟨inv.1, inv.2.1.trans write.symm, room inv.2.2.1, by rw [buffer]; exact inv.2.2.2⟩
  | publish =>
    exact ⟨inv.1, inv.2.1.trans write.symm, room inv.2.2.1, by rw [buffer]; exact inv.2.2.2⟩

theorem inv_init (buffer : Fin P.capacity → Slot) : Inv (init buffer) := ⟨trivial, trivial⟩

structure Sound (s : Ring P) (o : Outcome) (s' : Ring P) : Prop where
  inv : Inv s'
  linearizes : Linearizes P s.contents o s'.contents
  failed_frame : o.failed = true →
    s'.buffer = s.buffer ∧ s'.writeIdx = s.writeIdx ∧ s'.readIdx = s.readIdx

theorem packet_of_copy {slot : Slot} {data : List UInt8} {length : Nat}
    (stored : slot.length = UInt16.ofNat length) (readable : length ≤ data.length)
    (fits : length ≤ 65535) :
    { slot with data := writeBytes slot.data 0 (data.take length) }.packet =
      ⟨length, data.take length⟩ := by
  have width : (UInt16.ofNat length).toNat = length := Nat.mod_eq_of_lt (by omega)
  simp only [Slot.packet, stored, width, writeBytes, List.take_zero, List.nil_append]
  rw [List.take_left' (List.length_take_of_le readable)]

theorem callPush_sound {s s' : Ring P} {o : Outcome} {data : List UInt8} {length : Nat}
    (inv : Inv s) (h : s.callPush data length = some (s', o)) : Sound s o s' := by
  unfold callPush at h
  split at h
  · split_ifs at h with readable long <;> obtain ⟨rfl, rfl⟩ := Prod.mk.inj (Option.some.inj h)
    · -- `length > MaxPacketSize`
      exact ⟨inv, by simp [Linearizes, Fifo.push, long], fun _ => ⟨rfl, rfl, rfl⟩⟩
    · exact ⟨⟨⟨readable, Nat.le_of_not_lt long⟩, inv.consumer.frame rfl le_rfl fun _ => rfl⟩,
        rfl, nofun⟩
  · cases h

theorem producerStep_sound {s s' : Ring P} {o : Outcome} (inv : Inv s)
    (h : s.producerStep = some (s', o)) : Sound s o s' := by
  have producer := inv.producer
  have consumer := inv.consumer
  have headSlot (slot : Slot) (queued : 0 < s.size) :
      Function.update s.buffer s.writeIdx slot s.readIdx = s.buffer s.readIdx :=
    Function.update_noteq (fun same => by
      rw [(readIdx_eq_writeIdx_iff s).1 same] at queued
      exact Nat.lt_irrefl 0 queued) _ _
  unfold producerStep at h
  cases hpc : s.producer with
  | idle => simp [hpc] at h
  | loadWrite data length =>
    simp only [hpc, Option.some.injEq, Prod.mk.injEq] at h producer
    obtain ⟨rfl, rfl⟩ := h
    exact ⟨⟨⟨producer, rfl⟩, consumer.frame rfl le_rfl fun _ => rfl⟩, rfl, nofun⟩
  | loadRead data length currentWrite =>
    simp only [hpc] at h producer
    obtain ⟨args, rfl⟩ := producer
    split_ifs at h with full <;> obtain ⟨rfl, rfl⟩ := Prod.mk.inj (Option.some.inj h)
    · -- the queue holds `Capacity - 1` packets
      have full := (next_eq_readIdx_iff s).1 full
      refine ⟨⟨trivial, consumer.frame rfl le_rfl fun _ => rfl⟩, ?_, fun _ => ⟨rfl, rfl, rfl⟩⟩
      simp only [Linearizes, Fifo.push, if_neg (Nat.not_lt.2 args.2), contents_length, full,
        if_true]
      rfl
    · have room : s.size + 1 < P.capacity := by
        have := (next_eq_readIdx_iff s).not.1 full
        have := P.capacity_pos
        omega
      exact ⟨⟨⟨args, rfl, room⟩, consumer.frame rfl le_rfl fun _ => rfl⟩, rfl, nofun⟩
  | storeLength data length currentWrite =>
    simp only [hpc, Option.some.injEq, Prod.mk.injEq] at h producer
    obtain ⟨args, rfl, room⟩ := producer
    obtain ⟨rfl, rfl⟩ := h
    refine ⟨⟨⟨args, rfl, room, ?_⟩, consumer.frame rfl le_rfl (headSlot _)⟩,
      contents_update_writeIdx rfl rfl rfl, nofun⟩
    simp only [Function.update_same]
  | copy data length currentWrite =>
    simp only [hpc, Option.some.injEq, Prod.mk.injEq] at h producer
    obtain ⟨args, rfl, room, stored⟩ := producer
    obtain ⟨rfl, rfl⟩ := h
    refine ⟨⟨⟨args.2, rfl, room, ?_⟩, consumer.frame rfl le_rfl (headSlot _)⟩,
      contents_update_writeIdx rfl rfl rfl, nofun⟩
    simp only [Function.update_same]
    exact packet_of_copy stored args.1 (args.2.trans P.maxPacketSize_le)
  | publish data length currentWrite =>
    simp only [hpc, Option.some.injEq, Prod.mk.injEq] at h producer
    obtain ⟨fits, rfl, room, packet⟩ := producer
    obtain ⟨post, rfl⟩ := h
    have write : s'.writeIdx = P.next s.writeIdx := by rw [← post]
    subst post
    have grown := size_next_write write rfl room
    refine ⟨⟨trivial, consumer.frame rfl (by omega) fun _ => rfl⟩, ?_, nofun⟩
    simp only [Linearizes, Fifo.push, if_neg (Nat.not_lt.2 fits), contents_length,
      if_neg (show ¬P.capacity - 1 ≤ s.size by omega), contents_publish_write write rfl rfl room,
      packet]

theorem callPop_sound {s s' : Ring P} {o : Outcome} {maxLength : Nat} (inv : Inv s)
    (h : s.callPop maxLength = some (s', o)) : Sound s o s' := by
  unfold callPop at h
  split at h
  · obtain ⟨rfl, rfl⟩ := Prod.mk.inj (Option.some.inj h)
    exact ⟨⟨inv.producer.frame rfl le_rfl rfl, trivial⟩, rfl, nofun⟩
  · cases h

theorem consumerStep_sound {s s' : Ring P} {o : Outcome} (inv : Inv s)
    (h : s.consumerStep = some (s', o)) : Sound s o s' := by
  have producer := inv.producer
  have consumer := inv.consumer
  unfold consumerStep at h
  cases hpc : s.consumer with
  | idle => simp [hpc] at h
  | loadRead maxLength =>
    simp only [hpc, Option.some.injEq, Prod.mk.injEq] at h
    obtain ⟨rfl, rfl⟩ := h
    exact ⟨⟨producer.frame rfl le_rfl rfl, rfl⟩, rfl, nofun⟩
  | loadWrite maxLength currentRead =>
    simp only [hpc] at h consumer
    subst consumer
    split_ifs at h with empty <;> obtain ⟨rfl, rfl⟩ := Prod.mk.inj (Option.some.inj h)
    · -- no packet is visible
      have none : s.contents = [] := by
        rw [← List.length_eq_zero, contents_length, ← readIdx_eq_writeIdx_iff, empty]
      refine ⟨⟨producer.frame rfl le_rfl rfl, trivial⟩, ?_, fun _ => ⟨rfl, rfl, rfl⟩⟩
      show Fifo.pop s.contents maxLength = (.empty, s.contents)
      rw [none]
      rfl
    · have queued : 0 < s.size := Nat.pos_of_ne_zero ((readIdx_eq_writeIdx_iff s).not.1 empty)
      exact ⟨⟨producer.frame rfl le_rfl rfl, rfl, queued⟩, rfl, nofun⟩
  | readLength maxLength currentRead =>
    simp only [hpc] at h consumer
    obtain ⟨rfl, queued⟩ := consumer
    split_ifs at h with long <;> obtain ⟨rfl, rfl⟩ := Prod.mk.inj (Option.some.inj h)
    · -- the head packet is longer than `maxLength`
      refine ⟨⟨producer.frame rfl le_rfl rfl, trivial⟩, ?_, fun _ => ⟨rfl, rfl, rfl⟩⟩
      show Fifo.pop s.contents maxLength = (_, s.contents)
      obtain ⟨rest, head⟩ := s.contents_head queued
      simp only [head, Fifo.pop, Slot.packet, if_pos long]
    · exact ⟨⟨producer.frame rfl le_rfl rfl, rfl, queued, rfl, Nat.le_of_not_lt long⟩, rfl, nofun⟩
  | copy maxLength currentRead actualLength =>
    simp only [hpc, Option.some.injEq, Prod.mk.injEq] at h consumer
    obtain ⟨rfl, queued, rfl, fits⟩ := consumer
    obtain ⟨rfl, rfl⟩ := h
    exact ⟨⟨producer.frame rfl le_rfl rfl, rfl, queued, rfl, fits⟩, rfl, nofun⟩
  | publish maxLength currentRead packet =>
    simp only [hpc, Option.some.injEq, Prod.mk.injEq] at h consumer
    obtain ⟨rfl, queued, rfl, fits⟩ := consumer
    obtain ⟨post, rfl⟩ := h
    have read : s'.readIdx = P.next s.readIdx := by rw [← post]
    subst post
    have shrunk := size_next_read read rfl queued
    refine ⟨⟨producer.frame rfl (by omega) rfl, trivial⟩, ?_, nofun⟩
    show Fifo.pop s.contents maxLength = _
    rw [contents_publish_read read rfl rfl queued]
    simp only [Fifo.pop, if_neg (Nat.not_lt.2 fits)]

theorem callPush_delivered {s s' : Ring P} {o : Outcome} {data : List UInt8} {length : Nat}
    (h : s.callPush data length = some (s', o)) : o.delivered = [] := by
  unfold callPush at h
  split at h <;> (try split_ifs at h) <;>
    first | (obtain ⟨-, rfl⟩ := Prod.mk.inj (Option.some.inj h); rfl) | cases h

theorem producerStep_delivered {s s' : Ring P} {o : Outcome} (h : s.producerStep = some (s', o)) :
    o.delivered = [] := by
  unfold producerStep at h
  split at h <;> (try split_ifs at h) <;>
    first | (obtain ⟨-, rfl⟩ := Prod.mk.inj (Option.some.inj h); rfl) | cases h

theorem callPop_contents {s s' : Ring P} {o : Outcome} {maxLength : Nat}
    (h : s.callPop maxLength = some (s', o)) : s'.contents = s.contents ∧ o = .none := by
  unfold callPop at h
  split at h
  · obtain ⟨rfl, rfl⟩ := Prod.mk.inj (Option.some.inj h)
    exact ⟨rfl, rfl⟩
  · cases h

theorem consumerStep_accepted {s s' : Ring P} {o : Outcome} (h : s.consumerStep = some (s', o)) :
    o.accepted = [] := by
  unfold consumerStep at h
  split at h <;> (try dsimp only at h) <;> (try split_ifs at h) <;>
    first | (obtain ⟨-, rfl⟩ := Prod.mk.inj (Option.some.inj h); rfl) | cases h


end Ring

/-! ## Progress -/

def ProducerPc.stepsLeft {P : RingParams} : ProducerPc P → Nat
  | .idle => 0
  | .loadWrite .. => 5
  | .loadRead .. => 4
  | .storeLength .. => 3
  | .copy .. => 2
  | .publish .. => 1

namespace ConsumerPc

variable {P : RingParams}

def stepsLeft : ConsumerPc P → Nat
  | .idle => 0
  | .loadRead _ => 5
  | .loadWrite _ _ => 4
  | .readLength _ _ => 3
  | .copy _ _ _ => 2
  | .publish _ _ _ => 1

def maxLength : ConsumerPc P → Nat
  | .idle => 0
  | .loadRead maxLength | .loadWrite maxLength _ | .readLength maxLength _ | .copy maxLength _ _
  | .publish maxLength _ _ => maxLength

end ConsumerPc

namespace Ring

variable {P : RingParams} {s s' : Ring P} {o : Outcome}

/-! ### Which thread a step moves -/

theorem callPush_consumer {data : List UInt8} {length : Nat} (h : s.callPush data length = some (s', o)) :
    s'.consumer = s.consumer := by
  unfold callPush at h
  split at h <;> (try split_ifs at h) <;>
    first | (obtain ⟨rfl, -⟩ := Prod.mk.inj (Option.some.inj h); rfl) | cases h

theorem producerStep_consumer (h : s.producerStep = some (s', o)) : s'.consumer = s.consumer := by
  unfold producerStep at h
  split at h <;> (try split_ifs at h) <;>
    first | (obtain ⟨rfl, -⟩ := Prod.mk.inj (Option.some.inj h); rfl) | cases h

theorem callPop_producer {maxLength : Nat} (h : s.callPop maxLength = some (s', o)) :
    s'.producer = s.producer := by
  unfold callPop at h
  split at h
  · obtain ⟨rfl, -⟩ := Prod.mk.inj (Option.some.inj h)
    rfl
  · cases h

theorem consumerStep_producer (h : s.consumerStep = some (s', o)) : s'.producer = s.producer := by
  unfold consumerStep at h
  split at h <;> (try dsimp only at h) <;> (try split_ifs at h) <;>
    first | (obtain ⟨rfl, -⟩ := Prod.mk.inj (Option.some.inj h); rfl) | cases h

/-! ### Where each thread is inside its call -/

theorem callPush_outcome {data : List UInt8} {length : Nat} (h : s.callPush data length = some (s', o)) :
    s.producer = .idle ∧
      (o = .none ∧ s'.producer ≠ .idle ∨ (∃ d len ok, o = .pushed d len ok) ∧ s'.producer = .idle) := by
  unfold callPush at h
  split at h
  · rename_i idle
    split_ifs at h
    · obtain ⟨rfl, rfl⟩ := Prod.mk.inj (Option.some.inj h)
      exact ⟨idle, .inr ⟨⟨_, _, _, rfl⟩, idle⟩⟩
    · obtain ⟨rfl, rfl⟩ := Prod.mk.inj (Option.some.inj h)
      exact ⟨idle, .inl ⟨rfl, nofun⟩⟩
  · cases h

theorem producerStep_outcome (h : s.producerStep = some (s', o)) :
    o = .none ∧ s'.producer ≠ .idle ∧ s'.producer.stepsLeft + 1 = s.producer.stepsLeft ∨
      ∃ d len ok, o = .pushed d len ok ∧ s'.producer = .idle ∧ s.producer.stepsLeft = if ok then 1 else 4 := by
  cases pc : s.producer with
  | idle => simp only [producerStep, pc, reduceCtorEq] at h
  | loadRead data length currentWrite =>
    simp only [producerStep, pc] at h
    split_ifs at h
    · obtain ⟨rfl, rfl⟩ := Prod.mk.inj (Option.some.inj h)
      exact .inr ⟨data, length, false, rfl, rfl, rfl⟩
    · obtain ⟨rfl, rfl⟩ := Prod.mk.inj (Option.some.inj h)
      exact .inl ⟨rfl, nofun, rfl⟩
  | publish data length currentWrite =>
    simp only [producerStep, pc] at h
    obtain ⟨rfl, rfl⟩ := Prod.mk.inj (Option.some.inj h)
    exact .inr ⟨data, length, true, rfl, rfl, rfl⟩
  | _ =>
    simp only [producerStep, pc] at h
    obtain ⟨rfl, rfl⟩ := Prod.mk.inj (Option.some.inj h)
    exact .inl ⟨rfl, nofun, rfl⟩

theorem callPop_outcome {maxLength : Nat} (h : s.callPop maxLength = some (s', o)) :
    s.consumer = .idle ∧ o = .none ∧ s'.consumer ≠ .idle := by
  unfold callPop at h
  split at h
  · obtain ⟨rfl, rfl⟩ := Prod.mk.inj (Option.some.inj h)
    exact ⟨‹_›, rfl, nofun⟩
  · cases h

theorem consumerStep_outcome (h : s.consumerStep = some (s', o)) :
    s.consumer ≠ .idle ∧ ((o = .none ∧ s'.consumer ≠ .idle ∧ s'.consumer.maxLength = s.consumer.maxLength ∧
        s'.consumer.stepsLeft + 1 = s.consumer.stepsLeft) ∨
      (∃ result, o = .popped s.consumer.maxLength result) ∧ s'.consumer = .idle) := by
  unfold consumerStep at h
  split at h
  · cases h
  all_goals rename_i pc
  all_goals
    (try dsimp only at h)
    (try split_ifs at h) <;> obtain ⟨rfl, rfl⟩ := Prod.mk.inj (Option.some.inj h)
  all_goals simp [ConsumerPc.stepsLeft, ConsumerPc.maxLength, pc]

/-! ### Each thread can always move -/

theorem callPush_isSome {data : List UInt8} {length : Nat} (idle : s.producer = .idle)
    (readable : length ≤ data.length) : ∃ s' o, s.callPush data length = some (s', o) := by
  unfold callPush
  rw [idle, if_pos readable]
  split_ifs <;> exact ⟨_, _, rfl⟩

theorem consumerStep_isSome (busy : s.consumer ≠ .idle) : ∃ s' o, s.consumerStep = some (s', o) := by
  unfold consumerStep
  split
  · contradiction
  all_goals (try dsimp only)
  all_goals (try split) <;> exact ⟨_, _, rfl⟩

/-! ### Calls, returns and the steps left -/

theorem step_calls {a : Action} (h : s.step a = some (s', o)) :
    (if a.callsPush then 1 else 0) + (if s.producer = .idle then 0 else 1) =
        (if o.endsPush then 1 else 0) + (if s'.producer = .idle then 0 else 1) ∧
      (if a.callsPop then 1 else 0) + (if s.consumer = .idle then 0 else 1) =
        (if o.endsPop then 1 else 0) + (if s'.consumer = .idle then 0 else 1) := by
  cases a with
  | push data length =>
    have consumer := callPush_consumer h
    obtain ⟨idle, ⟨rfl, busy⟩ | ⟨⟨d, len, ok, rfl⟩, idle'⟩⟩ := callPush_outcome h <;>
      simp [Action.callsPush, Action.callsPop, Outcome.endsPush, Outcome.endsPop, idle, consumer, *]
  | producer =>
    have consumer := producerStep_consumer h
    rcases producerStep_outcome h with ⟨rfl, busy, left⟩ | ⟨d, len, ok, rfl, idle, left⟩
    · have busy₀ : s.producer ≠ .idle := fun idle => by simp [idle, ProducerPc.stepsLeft] at left
      simp [Action.callsPush, Action.callsPop, Outcome.endsPush, Outcome.endsPop, busy, busy₀, consumer]
    · have busy₀ : s.producer ≠ .idle := fun idle => by cases ok <;> simp [idle, ProducerPc.stepsLeft] at left
      simp [Action.callsPush, Action.callsPop, Outcome.endsPush, Outcome.endsPop, idle, busy₀, consumer]
  | pop maxLength =>
    have producer := callPop_producer h
    obtain ⟨idle, rfl, busy⟩ := callPop_outcome h
    simp [Action.callsPush, Action.callsPop, Outcome.endsPush, Outcome.endsPop, idle, busy, producer]
  | consumer =>
    have producer := consumerStep_producer h
    obtain ⟨busy₀, ⟨rfl, busy, -⟩ | ⟨⟨result, rfl⟩, idle⟩⟩ := consumerStep_outcome h <;>
      simp [Action.callsPush, Action.callsPop, Outcome.endsPush, Outcome.endsPop, busy₀, producer, *]

theorem run_cons {a : Action} {actions : List Action} {s'' : Ring P} {outs : List Outcome}
    (ran : s.run (a :: actions) = some (s'', outs)) :
    ∃ s' o rest, s.step a = some (s', o) ∧ s'.run actions = some (s'', rest) ∧ outs = o :: rest := by
  obtain ⟨⟨s', o⟩, stepped, ran⟩ := Option.bind_eq_some.1 ran
  dsimp only at ran
  obtain ⟨⟨s₂, rest⟩, later, same⟩ := Option.map_eq_some'.1 ran
  obtain ⟨rfl, rfl⟩ := Prod.mk.inj same
  exact ⟨s', o, rest, stepped, later, rfl⟩

theorem run_calls {actions : List Action} {outs : List Outcome} (ran : s.run actions = some (s', outs)) :
    actions.countP Action.callsPush + (if s.producer = .idle then 0 else 1) =
        outs.countP Outcome.endsPush + (if s'.producer = .idle then 0 else 1) ∧
      actions.countP Action.callsPop + (if s.consumer = .idle then 0 else 1) =
        outs.countP Outcome.endsPop + (if s'.consumer = .idle then 0 else 1) := by
  induction actions generalizing s outs with
  | nil =>
    obtain ⟨rfl, rfl⟩ := Prod.mk.inj (Option.some.inj ran)
    exact ⟨rfl, rfl⟩
  | cons a actions ih =>
    obtain ⟨s₁, o, rest, stepped, later, rfl⟩ := run_cons ran
    obtain ⟨pushes, pops⟩ := step_calls stepped
    obtain ⟨pushes', pops'⟩ := ih later
    simp only [List.countP_cons]
    omega

theorem contents_init (buffer : Fin P.capacity → Slot) : (init buffer).contents = [] := rfl

end Ring

/-- `LockFreeRingBuffer<2048, 1024>`, the type of `m_rxQueue` and `m_txQueue`. -/
def packetQueue : RingParams := ⟨2048, 1024, by decide, by decide⟩

end UdpPeer.Thread
