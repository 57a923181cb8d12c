import UdpPeer.Packet.Wire
import UdpPeer.Packet.Crc

/-!
# `AppPacket`

The packet object of `AppPacket.hpp` as a record and each method of `AppPacket.cpp` as a
function on it. A method that reads `std::chrono::steady_clock::now()` takes the reading as an
argument `now`, in nanoseconds. A raw pointer is the memory from it to the end of its region,
`none` for `nullptr`.
-/

namespace UdpPeer.Packet

inductive AppPacketError
  | none
  | invalidDataPointer
  | dataTooLarge
  | bufferTooSmall
  | invalidPacket
  | crcMismatch
  | unstableCommunication
  | lossOfCommunication
  deriving DecidableEq, Repr

def appPacketCommTimeoutMs : UInt32 := 1000

def appPacketExpectedIntervalMs : UInt32 := 100

def appPacketIntervalToleranceUs : UInt32 := 5000

structure AppPacketHeader where
  uniqueId : UInt32
  lifesign : UInt16
  dataLength : UInt16
  deriving DecidableEq, Repr

def AppPacketHeader.bytes (header : AppPacketHeader) : List UInt8 :=
  le32 header.uniqueId ++ le16 header.lifesign ++ le16 header.dataLength

def readHeader (buffer : List UInt8) : AppPacketHeader :=
  ⟨getLE32 buffer 0, getLE16 buffer 4, getLE16 buffer 6⟩

@[simp] theorem AppPacketHeader.bytes_length (header : AppPacketHeader) :
    header.bytes.length = headerSize := rfl

theorem readHeader_bytes (header : AppPacketHeader) (rest : List UInt8) :
    readHeader (header.bytes ++ rest) = header := by
  obtain ⟨uniqueId, lifesign, dataLength⟩ := header
  have id := getLE32_le32 [] (le16 lifesign ++ le16 dataLength ++ rest) uniqueId
  have ls := getLE16_le16 (le32 uniqueId) (le16 dataLength ++ rest) lifesign
  have len := getLE16_le16 (le32 uniqueId ++ le16 lifesign) rest dataLength
  simp only [List.nil_append, List.append_assoc, le32_length, le16_length, List.length_append]
    at id ls len
  simp only [readHeader, AppPacketHeader.bytes, List.append_assoc, AppPacketHeader.mk.injEq]
  exact ⟨id, ls, len⟩

theorem readHeader_bytes_take (b : List UInt8) (long : headerSize ≤ b.length) :
    (readHeader b).bytes = b.take headerSize := by
  unfold headerSize at long
  simp only [readHeader, AppPacketHeader.bytes, le32_getLE32_drop b 0 (by omega),
    le16_getLE16_drop b 4 (by omega), le16_getLE16_drop b 6 (by omega), List.drop_zero]
  rw [← List.take_add, show 6 = 4 + 2 from rfl, ← List.take_add]
  rfl

theorem readHeader_append {b : List UInt8} (rest : List UInt8) (long : headerSize ≤ b.length) :
    readHeader (b ++ rest) = readHeader b := by
  unfold headerSize at long
  simp only [readHeader, getLE32_append rest (show 0 + 4 ≤ b.length by omega),
    getLE16_append rest (show 4 + 2 ≤ b.length by omega),
    getLE16_append rest (show 6 + 2 ≤ b.length by omega)]

structure AppPacket where
  uniqueId : UInt32
  lifesign : UInt16
  dataPtr : Option (List UInt8)
  dataLength : Nat
  crc32 : UInt32
  rxLifesign : UInt16
  rxLifesignPrev : UInt16
  lastChangeTime : Nat
  lastRecvTime : Nat
  commTimeoutMs : UInt32
  expectedIntervalMs : UInt32
  toleranceUs : UInt32
  lastIntervalUs : UInt32
  unstableCounter : UInt16
  commUnstable : Bool
  error : AppPacketError
  deriving DecidableEq, Repr

def toUInt32Cast (x : Int) : UInt32 := ⟨BitVec.ofInt 32 x⟩

def elapsedUs (since now : Nat) : Int := Int.tdiv ((now : Int) - since) 1000

def elapsedMs (since now : Nat) : Int := Int.tdiv ((now : Int) - since) 1000000

/-- The tolerance test of `updateReceivedLifesign`, in the code's `uint32_t` arithmetic. -/
def outOfTolerance (expectedIntervalMs toleranceUs intervalUs : UInt32) : Bool :=
  let expectedUs := expectedIntervalMs * 1000
  let lowerBound := if expectedUs > toleranceUs then expectedUs - toleranceUs else 0
  let upperBound := expectedUs + toleranceUs
  intervalUs < lowerBound || intervalUs > upperBound

structure Encoded where
  written : Nat
  buffer : Option (List UInt8)
  packet : AppPacket

namespace AppPacket

/-- `AppPacket::AppPacket()`, which reads the clock twice. -/
def init (changeTime recvTime : Nat) : AppPacket where
  uniqueId := 0
  lifesign := 0
  dataPtr := none
  dataLength := 0
  crc32 := 0
  rxLifesign := 0
  rxLifesignPrev := 0
  lastChangeTime := changeTime
  lastRecvTime := recvTime
  commTimeoutMs := appPacketCommTimeoutMs
  expectedIntervalMs := appPacketExpectedIntervalMs
  toleranceUs := appPacketIntervalToleranceUs
  lastIntervalUs := 0
  unstableCounter := 0
  commUnstable := false
  error := .none

def setUniqueId (p : AppPacket) (id : UInt32) : AppPacket := { p with uniqueId := id }

def setDataPointer (p : AppPacket) (data : Option (List UInt8)) (length : Nat) : AppPacket :=
  match data with
  | none => { p with error := .invalidDataPointer, dataPtr := none, dataLength := 0 }
  | some data =>
    if length > appPacketMaxDataSize then
      { p with error := .dataTooLarge, dataPtr := none, dataLength := 0 }
    else { p with error := .none, dataPtr := some data, dataLength := length }

def payload (p : AppPacket) : List UInt8 :=
  match p.dataPtr with
  | none => []
  | some data => data.take p.dataLength

def header (p : AppPacket) : AppPacketHeader :=
  ⟨p.uniqueId, p.lifesign, UInt16.ofNat p.dataLength⟩

def writeBody (p : AppPacket) (buffer : List UInt8) : List UInt8 × Nat :=
  let buffer := writeBytes buffer 0 p.header.bytes
  match p.dataPtr with
  | some data =>
    if p.dataLength > 0 then (writeBytes buffer headerSize (data.take p.dataLength), headerSize + p.dataLength)
    else (buffer, headerSize)
  | none => (buffer, headerSize)

def encode (p : AppPacket) (buffer : Option (List UInt8)) (bufferSize : Nat) : Encoded :=
  match buffer with
  | none => ⟨0, none, { p with error := .invalidDataPointer }⟩
  | some buffer =>
    if bufferSize < headerSize + p.dataLength + footerSize then
      ⟨0, some buffer, { p with error := .bufferTooSmall }⟩
    else
      let (buffer, offset) := p.writeBody buffer
      let crc := calculateCrc32 (buffer.take offset)
      ⟨offset + footerSize, some (writeBytes buffer offset (le32 crc)),
        { p with crc32 := crc, error := .none, lifesign := p.lifesign + 1 }⟩

theorem setDataPointer_frame (p : AppPacket) (data : Option (List UInt8)) (length : Nat) :
    ∃ error dataPtr dataLength, p.setDataPointer data length =
      { p with error := error, dataPtr := dataPtr, dataLength := dataLength } := by
  unfold setDataPointer
  split
  · exact ⟨_, _, _, rfl⟩
  · split <;> exact ⟨_, _, _, rfl⟩

theorem setDataPointer_some (p : AppPacket) (data : List UInt8) {length : Nat}
    (small : length ≤ appPacketMaxDataSize) :
    p.setDataPointer (some data) length =
      { p with error := .none, dataPtr := some data, dataLength := length } :=
  if_neg (Nat.not_lt.2 small)

theorem encode_frame (p : AppPacket) (buffer : Option (List UInt8)) (bufferSize : Nat) :
    ∃ crc32 error lifesign, (p.encode buffer bufferSize).packet =
      { p with crc32 := crc32, error := error, lifesign := lifesign } := by
  unfold encode
  split
  · exact ⟨_, _, _, rfl⟩
  · split <;> exact ⟨_, _, _, rfl⟩

/-! ## Link health -/

/-- The stability half of `updateReceivedLifesign`. -/
def assessStability (p : AppPacket) (outOfTolerance : Bool) : AppPacket :=
  if outOfTolerance then
    { p with
      unstableCounter := if p.unstableCounter < 65535 then p.unstableCounter + 1 else p.unstableCounter
      commUnstable := true
      error := if p.error = .none then .unstableCommunication else p.error }
  else
    { p with
      unstableCounter := 0
      commUnstable := false
      error := if p.error = .unstableCommunication then .none else p.error }

/-- The liveness half of `updateReceivedLifesign`. -/
def trackLifesign (p : AppPacket) (now : Nat) (lifesign : UInt16) : AppPacket :=
  let p := { p with rxLifesignPrev := p.rxLifesign, rxLifesign := lifesign }
  if p.rxLifesign ≠ p.rxLifesignPrev then
    { p with
      lastChangeTime := now
      error := if p.error = .lossOfCommunication then .none else p.error }
  else p

def intervalAt (p : AppPacket) (now : Nat) : UInt32 := toUInt32Cast (elapsedUs p.lastRecvTime now)

def arrivalOutOfTolerance (p : AppPacket) (now : Nat) : Bool :=
  outOfTolerance p.expectedIntervalMs p.toleranceUs (p.intervalAt now)

def updateReceivedLifesign (p : AppPacket) (now : Nat) (lifesign : UInt16) : AppPacket :=
  ({ p with lastIntervalUs := p.intervalAt now, lastRecvTime := now }.assessStability
    (p.arrivalOutOfTolerance now)).trackLifesign now lifesign

@[simp] theorem updateReceivedLifesign_uniqueId (p : AppPacket) (now : Nat) (lifesign : UInt16) :
    (p.updateReceivedLifesign now lifesign).uniqueId = p.uniqueId := by
  simp only [updateReceivedLifesign, trackLifesign, assessStability, apply_ite AppPacket.uniqueId,
    ite_self]

@[simp] theorem updateReceivedLifesign_dataLength (p : AppPacket) (now : Nat) (lifesign : UInt16) :
    (p.updateReceivedLifesign now lifesign).dataLength = p.dataLength := by
  simp only [updateReceivedLifesign, trackLifesign, assessStability, apply_ite AppPacket.dataLength,
    ite_self]

@[simp] theorem updateReceivedLifesign_dataPtr (p : AppPacket) (now : Nat) (lifesign : UInt16) :
    (p.updateReceivedLifesign now lifesign).dataPtr = p.dataPtr := by
  simp only [updateReceivedLifesign, trackLifesign, assessStability, apply_ite AppPacket.dataPtr,
    ite_self]

@[simp] theorem updateReceivedLifesign_lifesign (p : AppPacket) (now : Nat) (lifesign : UInt16) :
    (p.updateReceivedLifesign now lifesign).lifesign = p.lifesign := by
  simp only [updateReceivedLifesign, trackLifesign, assessStability, apply_ite AppPacket.lifesign,
    ite_self]

@[simp] theorem updateReceivedLifesign_rxLifesign (p : AppPacket) (now : Nat) (lifesign : UInt16) :
    (p.updateReceivedLifesign now lifesign).rxLifesign = lifesign := by
  simp only [updateReceivedLifesign, trackLifesign, apply_ite AppPacket.rxLifesign, ite_self]

@[simp] theorem updateReceivedLifesign_lastChangeTime (p : AppPacket) (now : Nat) (lifesign : UInt16) :
    (p.updateReceivedLifesign now lifesign).lastChangeTime =
      if lifesign ≠ p.rxLifesign then now else p.lastChangeTime := by
  simp only [updateReceivedLifesign, trackLifesign, assessStability, apply_ite AppPacket.lastChangeTime,
    apply_ite AppPacket.rxLifesign, ite_self]

@[simp] theorem updateReceivedLifesign_unstableCounter (p : AppPacket) (now : Nat) (lifesign : UInt16) :
    (p.updateReceivedLifesign now lifesign).unstableCounter =
      if p.arrivalOutOfTolerance now then
        (if p.unstableCounter < 65535 then p.unstableCounter + 1 else p.unstableCounter)
      else 0 := by
  simp only [updateReceivedLifesign, trackLifesign, assessStability, apply_ite AppPacket.unstableCounter,
    ite_self]

@[simp] theorem updateReceivedLifesign_commUnstable (p : AppPacket) (now : Nat) (lifesign : UInt16) :
    (p.updateReceivedLifesign now lifesign).commUnstable = p.arrivalOutOfTolerance now := by
  simp only [updateReceivedLifesign, trackLifesign, assessStability, apply_ite AppPacket.commUnstable,
    ite_self]
  cases p.arrivalOutOfTolerance now <;> rfl

def isCommLost (p : AppPacket) (now : Nat) : Bool :=
  toUInt32Cast (elapsedMs p.lastChangeTime now) ≥ p.commTimeoutMs

def getTimeSinceLastChange (p : AppPacket) (now : Nat) : UInt32 :=
  toUInt32Cast (elapsedMs p.lastChangeTime now)

def setCommTimeout (p : AppPacket) (timeoutMs : UInt32) : AppPacket :=
  { p with commTimeoutMs := timeoutMs }

def setExpectedInterval (p : AppPacket) (intervalMs toleranceUs : UInt32) : AppPacket :=
  { p with expectedIntervalMs := intervalMs, toleranceUs := toleranceUs }

def resetCommMonitor (p : AppPacket) (now : Nat) : AppPacket :=
  { p with
    rxLifesign := 0
    rxLifesignPrev := 0
    lastChangeTime := now
    lastRecvTime := now
    lastIntervalUs := 0
    unstableCounter := 0
    commUnstable := false
    error := if p.error = .lossOfCommunication ∨ p.error = .unstableCommunication then .none
      else p.error }

/-! ## Decoding -/

/-- The checks `decode` makes before it stores anything. -/
def checkFrame (buffer : Option (List UInt8)) (bufferSize : Nat) :
    Except AppPacketError (List UInt8 × AppPacketHeader) :=
  match buffer with
  | none => .error .invalidDataPointer
  | some buffer =>
    if bufferSize < headerSize + footerSize then .error .invalidPacket
    else
      let header := readHeader buffer
      if bufferSize < headerSize + header.dataLength.toNat + footerSize then .error .invalidPacket
      else if header.dataLength.toNat > appPacketMaxDataSize then .error .dataTooLarge
      else .ok (buffer, header)

/-- What `decode` does once `checkFrame` has accepted the header. -/
def storeFrame (p : AppPacket) (now : Nat) (buffer : List UInt8) (header : AppPacketHeader) :
    Bool × AppPacket :=
  let p := ({ p with uniqueId := header.uniqueId, dataLength := header.dataLength.toNat }
    ).updateReceivedLifesign now header.lifesign
  let p := { p with
    dataPtr := if p.dataLength > 0 then some (buffer.drop headerSize) else none
    crc32 := getLE32 buffer (headerSize + p.dataLength) }
  if calculateCrc32 (buffer.take (headerSize + p.dataLength)) ≠ p.crc32 then
    (false, { p with error := .crcMismatch })
  else (true, { p with error := .none })

theorem storeFrame_eq (p : AppPacket) (now : Nat) (buffer : List UInt8) (header : AppPacketHeader) :
    p.storeFrame now buffer header =
      (decide (calculateCrc32 (buffer.take (headerSize + header.dataLength.toNat)) =
          getLE32 buffer (headerSize + header.dataLength.toNat)),
        { ({ p with uniqueId := header.uniqueId, dataLength := header.dataLength.toNat }
            ).updateReceivedLifesign now header.lifesign with
          dataPtr := if header.dataLength.toNat > 0 then some (buffer.drop headerSize) else none
          crc32 := getLE32 buffer (headerSize + header.dataLength.toNat)
          error := if calculateCrc32 (buffer.take (headerSize + header.dataLength.toNat)) =
            getLE32 buffer (headerSize + header.dataLength.toNat) then .none else .crcMismatch }) := by
  unfold storeFrame
  -- an opaque name for the monitored packet keeps `simp` from evaluating it
  generalize stored : updateReceivedLifesign _ now header.lifesign = q
  have length : q.dataLength = header.dataLength.toNat := by
    rw [← stored, updateReceivedLifesign_dataLength]
  simp only [length]
  by_cases ok : calculateCrc32 (buffer.take (headerSize + header.dataLength.toNat)) =
      getLE32 buffer (headerSize + header.dataLength.toNat)
  · simp only [ok, ne_eq, not_true_eq_false, if_false, if_true, decide_True]
  · simp only [ok, ne_eq, not_false_eq_true, if_true, if_false, decide_False]

def decode (p : AppPacket) (now : Nat) (buffer : Option (List UInt8)) (bufferSize : Nat) :
    Bool × AppPacket :=
  match checkFrame buffer bufferSize with
  | .error e => (false, { p with error := e })
  | .ok (buffer, header) => p.storeFrame now buffer header

end AppPacket

end UdpPeer.Packet
