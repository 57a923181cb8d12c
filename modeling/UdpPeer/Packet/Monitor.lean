import UdpPeer.Packet.Codec

/-!
# Runs of the link-health monitor

A receiver `AppPacket` goes through any sequence of the calls that change it. The monitor sees
two of them: `updateReceivedLifesign`, called directly or by `decode` once the header has passed
its checks (also when the CRC then fails), and `resetCommMonitor`. A run is summed up by the
events the monitor saw, and `Tracks` says that the monitor's fields are functions of that
history: the instant of the latest lifesign change, the length of the current streak of
out-of-tolerance arrivals and whether the latest arrival was out of tolerance. Every call keeps
`Tracks` (`Tracks.call`), so every run does (`Tracks.run`).

`isCommLost` casts the elapsed milliseconds to `uint32_t` before it compares them, so it is
exact for silences shorter than 2^32 ms and wrong from there on.
-/

namespace UdpPeer.Packet

open AppPacket

/-- A call that changes an `AppPacket`. -/
inductive Call
  | setUniqueId (id : UInt32)
  | setDataPointer (data : Option (List UInt8)) (length : Nat)
  | encode (buffer : Option (List UInt8)) (bufferSize : Nat)
  | decode (now : Nat) (buffer : Option (List UInt8)) (bufferSize : Nat)
  | updateReceivedLifesign (now : Nat) (lifesign : UInt16)
  | setCommTimeout (timeoutMs : UInt32)
  | setExpectedInterval (intervalMs toleranceUs : UInt32)
  | resetCommMonitor (now : Nat)

def Call.apply (p : AppPacket) : Call → AppPacket
  | .setUniqueId id => p.setUniqueId id
  | .setDataPointer data length => p.setDataPointer data length
  | .encode buffer bufferSize => (p.encode buffer bufferSize).packet
  | .decode now buffer bufferSize => (p.decode now buffer bufferSize).2
  | .updateReceivedLifesign now lifesign => p.updateReceivedLifesign now lifesign
  | .setCommTimeout timeoutMs => p.setCommTimeout timeoutMs
  | .setExpectedInterval intervalMs toleranceUs => p.setExpectedInterval intervalMs toleranceUs
  | .resetCommMonitor now => p.resetCommMonitor now

def run (p : AppPacket) (calls : List Call) : AppPacket := calls.foldl Call.apply p

/-! ## What the monitor sees -/

inductive MonitorEvent
  | arrival (now : Nat) (lifesignChanged outOfTolerance : Bool)
  | reset (now : Nat)
  deriving DecidableEq, Repr

namespace MonitorEvent

def outOfTolerance : MonitorEvent → Bool
  | arrival _ _ out => out
  | reset _ => false

def changeInstant? : MonitorEvent → Option Nat
  | arrival now changed _ => if changed then some now else none
  | reset now => some now

end MonitorEvent

def arrivalEvent (p : AppPacket) (now : Nat) (lifesign : UInt16) : MonitorEvent :=
  .arrival now (lifesign != p.rxLifesign) (p.arrivalOutOfTolerance now)

def Call.events (p : AppPacket) : Call → List MonitorEvent
  | .decode now buffer bufferSize =>
    match checkFrame buffer bufferSize with
    | .ok (_, header) => [arrivalEvent p now header.lifesign]
    | .error _ => []
  | .updateReceivedLifesign now lifesign => [arrivalEvent p now lifesign]
  | .resetCommMonitor now => [.reset now]
  | _ => []

def runEvents : AppPacket → List Call → List MonitorEvent
  | _, [] => []
  | p, c :: calls => c.events p ++ runEvents (c.apply p) calls

/-! ## The history's meaning -/

def lastChange (start : Nat) (events : List MonitorEvent) : Nat :=
  (events.filterMap MonitorEvent.changeInstant?).getLast?.getD start

def streak (events : List MonitorEvent) : Nat :=
  (events.reverse.takeWhile MonitorEvent.outOfTolerance).length

def latestArrivalOutOfTolerance (events : List MonitorEvent) : Bool :=
  events.getLast?.any MonitorEvent.outOfTolerance

theorem lastChange_concat (start : Nat) (events : List MonitorEvent) (e : MonitorEvent) :
    lastChange start (events ++ [e]) = e.changeInstant?.getD (lastChange start events) := by
  cases h : e.changeInstant? <;> simp [lastChange, List.filterMap_append, h]

theorem streak_concat (events : List MonitorEvent) (e : MonitorEvent) :
    streak (events ++ [e]) = if e.outOfTolerance then streak events + 1 else 0 := by
  cases h : e.outOfTolerance <;> simp [streak, h]

theorem latestArrivalOutOfTolerance_concat (events : List MonitorEvent) (e : MonitorEvent) :
    latestArrivalOutOfTolerance (events ++ [e]) = e.outOfTolerance := by
  simp [latestArrivalOutOfTolerance]

theorem streak_pos_iff (events : List MonitorEvent) :
    0 < streak events ↔ latestArrivalOutOfTolerance events = true := by
  rcases List.eq_nil_or_concat events with rfl | ⟨init, e, rfl⟩
  · simp [streak, latestArrivalOutOfTolerance]
  · rw [List.concat_eq_append, streak_concat, latestArrivalOutOfTolerance_concat]
    cases e.outOfTolerance <;> simp

/-! ## The invariant -/

/-- The monitor's fields are what its history says, from a last change at `start`. -/
structure Tracks (start : Nat) (p : AppPacket) (events : List MonitorEvent) : Prop where
  lastChangeTime : p.lastChangeTime = lastChange start events
  unstableCounter : p.unstableCounter.toNat = min 65535 (streak events)
  commUnstable : p.commUnstable = latestArrivalOutOfTolerance events

section Tracks

variable {start : Nat} {p : AppPacket} {events : List MonitorEvent}

theorem Tracks.init (changeTime recvTime : Nat) : Tracks changeTime (init changeTime recvTime) [] :=
  ⟨rfl, rfl, rfl⟩

theorem Tracks.congr (tracks : Tracks start p events) {q : AppPacket}
    (lastChangeTime : q.lastChangeTime = p.lastChangeTime)
    (unstableCounter : q.unstableCounter = p.unstableCounter)
    (commUnstable : q.commUnstable = p.commUnstable) : Tracks start q events :=
  ⟨lastChangeTime.trans tracks.1, unstableCounter ▸ tracks.2, commUnstable.trans tracks.3⟩

theorem uint16_lt_iff (a b : UInt16) : a < b ↔ a.toNat < b.toNat := Iff.rfl

theorem saturating_succ {c : UInt16} {n : Nat} (counter : c.toNat = min 65535 n) :
    (if c < 65535 then c + 1 else c).toNat = min 65535 (n + 1) := by
  have top : (65535 : UInt16).toNat = 65535 := rfl
  split
  · rename_i below
    rw [uint16_lt_iff, top] at below
    rw [UInt16.toNat_add]
    change (c.toNat + 1) % 65536 = _
    omega
  · rename_i above
    rw [uint16_lt_iff, top] at above
    omega

theorem Tracks.arrive (tracks : Tracks start p events) (now : Nat) (lifesign : UInt16) :
    Tracks start (p.updateReceivedLifesign now lifesign)
      (events ++ [arrivalEvent p now lifesign]) where
  lastChangeTime := by
    rw [lastChange_concat, ← tracks.lastChangeTime, updateReceivedLifesign_lastChangeTime]
    by_cases changed : lifesign = p.rxLifesign <;>
      simp [arrivalEvent, MonitorEvent.changeInstant?, changed]
  unstableCounter := by
    rw [streak_concat, updateReceivedLifesign_unstableCounter]
    cases out : p.arrivalOutOfTolerance now
    · simp [arrivalEvent, MonitorEvent.outOfTolerance, out]
    · simpa [arrivalEvent, MonitorEvent.outOfTolerance, out] using saturating_succ tracks.2
  commUnstable := by
    rw [latestArrivalOutOfTolerance_concat, updateReceivedLifesign_commUnstable]
    rfl

theorem Tracks.reset (p : AppPacket) (events : List MonitorEvent) (now : Nat) :
    Tracks start (p.resetCommMonitor now) (events ++ [.reset now]) where
  lastChangeTime := by rw [lastChange_concat]; rfl
  unstableCounter := by rw [streak_concat]; rfl
  commUnstable := by rw [latestArrivalOutOfTolerance_concat]; rfl

theorem Tracks.decoded (tracks : Tracks start p events) (now : Nat) (buffer : Option (List UInt8))
    (bufferSize : Nat) :
    Tracks start (p.decode now buffer bufferSize).2
      (events ++ (Call.decode now buffer bufferSize).events p) := by
  cases checked : checkFrame buffer bufferSize with
  | error e =>
    simp only [Call.events, checked, List.append_nil, decode_rejected_early checked]
    exact tracks.congr rfl rfl rfl
  | ok frame =>
    obtain ⟨b, header⟩ := frame
    simp only [Call.events, checked, AppPacket.decode, storeFrame_eq]
    -- `decode` hands the monitor the packet with the new id and length, which it does not read
    have stored : Tracks start
        { p with uniqueId := header.uniqueId, dataLength := header.dataLength.toNat } events :=
      tracks.congr rfl rfl rfl
    exact (stored.arrive now header.lifesign).congr rfl rfl rfl

theorem Tracks.call (tracks : Tracks start p events) (c : Call) :
    Tracks start (c.apply p) (events ++ c.events p) := by
  cases c with
  | decode now buffer bufferSize => exact tracks.decoded now buffer bufferSize
  | updateReceivedLifesign now lifesign => exact tracks.arrive now lifesign
  | resetCommMonitor now => exact Tracks.reset p events now
  | setDataPointer data length =>
    obtain ⟨_, _, _, written⟩ := setDataPointer_frame p data length
    simp only [Call.apply, Call.events, written, List.append_nil]
    exact tracks.congr rfl rfl rfl
  | encode buffer bufferSize =>
    obtain ⟨_, _, _, written⟩ := encode_frame p buffer bufferSize
    simp only [Call.apply, Call.events, written, List.append_nil]
    exact tracks.congr rfl rfl rfl
  | setUniqueId _ | setCommTimeout _ | setExpectedInterval _ _ =>
    simp only [Call.events, List.append_nil]
    exact tracks.congr rfl rfl rfl

theorem Tracks.run_calls (tracks : Tracks start p events) (calls : List Call) :
    Tracks start (run p calls) (events ++ runEvents p calls) := by
  induction calls generalizing p events with
  | nil => simpa [run, runEvents] using tracks
  | cons c calls ih =>
    have after := ih (tracks.call c)
    rwa [List.append_assoc] at after

end Tracks

theorem tracks_run (changeTime recvTime : Nat) (calls : List Call) :
    Tracks changeTime (run (init changeTime recvTime) calls)
      (runEvents (init changeTime recvTime) calls) := by
  simpa using (Tracks.init changeTime recvTime).run_calls calls

/-! ## The instability streak -/

theorem unstable_counter_streak (changeTime recvTime : Nat) (calls : List Call) :
    let p := run (init changeTime recvTime) calls
    let events := runEvents (init changeTime recvTime) calls
    p.unstableCounter.toNat = min 65535 (streak events) ∧
    (p.commUnstable = true ↔ 0 < p.unstableCounter.toNat) ∧
    (0 < p.unstableCounter.toNat ↔ latestArrivalOutOfTolerance events = true) := by
  intro p events
  have tracks : Tracks changeTime p events := tracks_run changeTime recvTime calls
  have pos : 0 < p.unstableCounter.toNat ↔ latestArrivalOutOfTolerance events = true := by
    rw [tracks.unstableCounter, ← streak_pos_iff]
    omega
  exact ⟨tracks.unstableCounter, by rw [tracks.commUnstable, pos], pos⟩

/-! ## Loss of communication -/

theorem toUInt32Cast_natCast (n : Nat) : (toUInt32Cast n).toNat = n % 4294967296 := by
  simp only [toUInt32Cast, BitVec.ofInt_natCast]
  rfl

theorem elapsedMs_of_le {since now : Nat} (after : since ≤ now) :
    elapsedMs since now = ((now - since) / 1000000 : Nat) := by
  rw [elapsedMs, ← Int.ofNat_sub after, Int.ofNat_tdiv]
  rfl

/-- While the silence lasts less than 2^32 ms, `isCommLost` reports exactly a silence of at least
`m_commTimeoutMs`. -/
theorem isCommLost_iff (p : AppPacket) {now : Nat} (after : p.lastChangeTime ≤ now)
    (short : (now - p.lastChangeTime) / 1000000 < 4294967296) :
    p.isCommLost now = true ↔ p.commTimeoutMs.toNat ≤ (now - p.lastChangeTime) / 1000000 := by
  have elapsed := toUInt32Cast_natCast ((now - p.lastChangeTime) / 1000000)
  rw [Nat.mod_eq_of_lt short, ← elapsedMs_of_le after] at elapsed
  simp only [isCommLost, decide_eq_true_iff, ge_iff_le, ← elapsed]
  rfl

/-- At 2^32 ms of silence the millisecond count cast to `uint32_t` is 0 again. -/
theorem comm_lost_wraps :
    (init 0 0).commTimeoutMs.toNat ≤ (4294967296 * 1000000 - (init 0 0).lastChangeTime) / 1000000 ∧
      (init 0 0).isCommLost (4294967296 * 1000000) = false := by
  decide

/-! ## Interval tolerance -/

theorem uint32_lt_iff (a b : UInt32) : a < b ↔ a.toNat < b.toNat := Iff.rfl

theorem elapsedUs_of_le {since now : Nat} (after : since ≤ now) :
    elapsedUs since now = ((now - since) / 1000 : Nat) := by
  rw [elapsedUs, ← Int.ofNat_sub after, Int.ofNat_tdiv]
  rfl

theorem outOfTolerance_iff {intervalMs toleranceUs intervalUs : UInt32}
    (fits : intervalMs.toNat * 1000 + toleranceUs.toNat < 4294967296) :
    outOfTolerance intervalMs toleranceUs intervalUs = true ↔
      intervalUs.toNat + toleranceUs.toNat < intervalMs.toNat * 1000 ∨
        intervalMs.toNat * 1000 + toleranceUs.toNat < intervalUs.toNat := by
  have expected : (intervalMs * 1000).toNat = intervalMs.toNat * 1000 := by
    rw [UInt32.toNat_mul]
    show intervalMs.toNat * 1000 % 4294967296 = _
    exact Nat.mod_eq_of_lt (by omega)
  have upper : (intervalMs * 1000 + toleranceUs).toNat = intervalMs.toNat * 1000 + toleranceUs.toNat := by
    rw [UInt32.toNat_add, expected]
    exact Nat.mod_eq_of_lt fits
  unfold outOfTolerance
  simp only [Bool.or_eq_true, decide_eq_true_eq, gt_iff_lt, uint32_lt_iff, upper]
  split
  · rename_i above
    rw [UInt32.toNat_sub_of_le _ _ (Nat.le_of_lt above), expected]
    rw [expected] at above
    omega
  · rename_i below
    rw [expected] at below
    show _ < 0 ∨ _ ↔ _
    omega

/-- While the gap lasts less than 2^32 us, an arrival is out of tolerance exactly when the gap lies
outside the expected interval widened by the tolerance. -/
theorem arrivalOutOfTolerance_iff (p : AppPacket) {now : Nat} (after : p.lastRecvTime ≤ now)
    (short : (now - p.lastRecvTime) / 1000 < 4294967296)
    (fits : p.expectedIntervalMs.toNat * 1000 + p.toleranceUs.toNat < 4294967296) :
    p.arrivalOutOfTolerance now = true ↔
      (now - p.lastRecvTime) / 1000 + p.toleranceUs.toNat < p.expectedIntervalMs.toNat * 1000 ∨
        p.expectedIntervalMs.toNat * 1000 + p.toleranceUs.toNat < (now - p.lastRecvTime) / 1000 := by
  have gap : (p.intervalAt now).toNat = (now - p.lastRecvTime) / 1000 := by
    rw [intervalAt, elapsedUs_of_le after, toUInt32Cast_natCast, Nat.mod_eq_of_lt short]
  rw [arrivalOutOfTolerance, outOfTolerance_iff fits, gap]

/-- A gap of 2^32 us and 100 ms after construction: the arrival is far outside the default
`100 ms ± 5 ms`, but the gap cast to `uint32_t` is 100 ms again and the monitor reads it as
stable. -/
theorem long_gap_in_tolerance :
    (init 0 0).expectedIntervalMs.toNat * 1000 + (init 0 0).toleranceUs.toNat <
        ((4294967296 + 100000) * 1000 - (init 0 0).lastRecvTime) / 1000 ∧
      ((init 0 0).updateReceivedLifesign ((4294967296 + 100000) * 1000) 1).commUnstable = false ∧
      ((init 0 0).updateReceivedLifesign ((4294967296 + 100000) * 1000) 1).unstableCounter = 0 := by
  decide

end UdpPeer.Packet
