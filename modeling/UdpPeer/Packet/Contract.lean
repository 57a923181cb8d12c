import UdpPeer.Packet.Monitor

/-!
# The contracts of `encode` and `decode`

`encode` trusts the payload view that `setDataPointer` and `decode` leave behind: at most
`APP_PACKET_MAX_DATA_SIZE` bytes, and none when the pointer is null. Every call keeps that view
sound (`PayloadView.call`). So from any reachable state, `encode` either writes a whole frame
that `decode` accepts, or fails having changed only the error slot. The frames of a run carry
consecutive lifesigns.

Two contracts that the spec states fail in the code. `setDataPointer` empties a view it rejects,
and the next `encode` then sends a frame with no payload. `decode` ends an accepted frame by
writing `None` over the `UnstableCommunication` that the monitor has just raised.
-/

namespace UdpPeer.Packet

open AppPacket

/-- The memory contract of the pointer arguments: `setDataPointer` is given at least `length`
bytes, and `decode` a buffer of at least `bufferSize` bytes. -/
def Call.Valid : Call → Prop
  | .setDataPointer (some data) length => length ≤ data.length
  | .decode _ (some buffer) bufferSize => bufferSize ≤ buffer.length
  | _ => True

/-- The payload view `encode` reads. -/
structure PayloadView (p : AppPacket) : Prop where
  small : p.dataLength ≤ appPacketMaxDataSize
  null : p.dataPtr = none → p.dataLength = 0
  covered : ∀ data, p.dataPtr = some data → p.dataLength ≤ data.length

namespace PayloadView

theorem init (changeTime recvTime : Nat) : PayloadView (AppPacket.init changeTime recvTime) :=
  ⟨Nat.zero_le _, fun _ => rfl, fun _ ptr => by cases ptr⟩

theorem congr {p q : AppPacket} (view : PayloadView p) (ptr : q.dataPtr = p.dataPtr)
    (length : q.dataLength = p.dataLength) : PayloadView q :=
  ⟨length ▸ view.small, fun null => length ▸ view.null (ptr ▸ null),
    fun data some => length ▸ view.covered data (ptr ▸ some)⟩

theorem setDataPointer (p : AppPacket) {data : Option (List UInt8)} {length : Nat}
    (valid : (Call.setDataPointer data length).Valid) : PayloadView (p.setDataPointer data length) := by
  unfold AppPacket.setDataPointer
  split
  · exact ⟨Nat.zero_le _, fun _ => rfl, fun _ ptr => by cases ptr⟩
  · split
    · exact ⟨Nat.zero_le _, fun _ => rfl, fun _ ptr => by cases ptr⟩
    · refine ⟨Nat.le_of_not_lt ‹_›, fun ptr => ?_, fun _ ptr => ?_⟩
      · cases ptr
      · cases ptr
        exact valid

theorem decode {p : AppPacket} (view : PayloadView p) {now : Nat} {buffer : Option (List UInt8)}
    {bufferSize : Nat} (valid : (Call.decode now buffer bufferSize).Valid) :
    PayloadView (p.decode now buffer bufferSize).2 := by
  cases checked : checkFrame buffer bufferSize with
  | error e =>
    rw [decode_rejected_early checked]
    exact view.congr rfl rfl
  | ok accepted =>
    obtain ⟨b, header⟩ := accepted
    obtain ⟨rfl, -, fits, small⟩ := checkFrame_ok checked
    simp only [AppPacket.decode, checked, storeFrame_eq]
    refine ⟨by simpa using small, fun null => ?_, fun data ptr => ?_⟩
    · simp only at null
      split at null
      · cases null
      · simp only [updateReceivedLifesign_dataLength]
        omega
    · simp only at ptr
      split at ptr
      · cases ptr
        simp only [updateReceivedLifesign_dataLength, List.length_drop, headerSize]
        simp only [Call.Valid, headerSize, footerSize] at valid fits
        omega
      · cases ptr

theorem call {p : AppPacket} (view : PayloadView p) {c : Call} (valid : c.Valid) :
    PayloadView (c.apply p) := by
  cases c with
  | setDataPointer data length => exact PayloadView.setDataPointer p valid
  | decode now buffer bufferSize => exact view.decode valid
  | encode buffer bufferSize =>
    obtain ⟨crc32, error, lifesign, packet⟩ := encode_frame p buffer bufferSize
    exact view.congr (by simp [Call.apply, packet]) (by simp [Call.apply, packet])
  | updateReceivedLifesign now lifesign => exact view.congr (by simp [Call.apply]) (by simp [Call.apply])
  | _ => exact view.congr rfl rfl

theorem run {p : AppPacket} (view : PayloadView p) {calls : List Call}
    (valid : ∀ c ∈ calls, c.Valid) : PayloadView (Packet.run p calls) := by
  induction calls generalizing p with
  | nil => exact view
  | cons c calls ih =>
    exact ih (view.call (valid c (List.mem_cons_self c calls)))
      fun c' member => valid c' (List.mem_cons_of_mem c member)

end PayloadView

/-! ## `encode` from a sound view -/

section Encode

variable {p : AppPacket}

theorem payload_length (view : PayloadView p) : p.payload.length = p.dataLength := by
  unfold AppPacket.payload
  split
  · exact (view.null ‹_›).symm
  · exact List.length_take_of_le (view.covered _ ‹_›)

theorem writeBody_view (view : PayloadView p) (buffer : List UInt8) :
    p.writeBody buffer = (p.header.bytes ++ p.payload ++ buffer.drop (headerSize + p.dataLength),
      headerSize + p.dataLength) := by
  cases ptr : p.dataPtr with
  | none =>
    have header : writeBytes buffer 0 p.header.bytes = p.header.bytes ++ buffer.drop headerSize := by
      simpa using writeBytes_append [] buffer p.header.bytes
    simp [writeBody, ptr, AppPacket.payload, view.null ptr, header]
  | some data =>
    rw [writeBody_eq p data buffer ptr (view.covered data ptr)]
    simp [AppPacket.payload, ptr]

theorem encode_view (view : PayloadView p) (buffer : List UInt8) {bufferSize : Nat}
    (room : 12 + p.dataLength ≤ bufferSize) :
    p.encode (some buffer) bufferSize =
      ⟨12 + p.dataLength, some (frame p.header p.payload ++ buffer.drop (12 + p.dataLength)),
        { p with
          crc32 := calculateCrc32 (p.header.bytes ++ p.payload)
          error := .none
          lifesign := p.lifesign + 1 }⟩ := by
  have body : (p.header.bytes ++ p.payload).length = headerSize + p.dataLength := by
    simp [payload_length view]
  simp only [encode]
  rw [if_neg (by simp only [headerSize, footerSize]; omega), writeBody_view view]
  dsimp only
  rw [← body, List.take_left, writeBytes_append, List.drop_drop, body]
  simp [frame, headerSize, footerSize, Nat.add_comm, Nat.add_left_comm]

end Encode

/-- What `encode` promises. With no buffer, or a buffer shorter than the frame, it returns 0,
writes nothing and sets only the error slot. Otherwise it writes a frame at the front of the
buffer and returns the frame's length: the frame declares as many payload bytes as it holds, it
carries the TX lifesign, which then moves on by one, and `decode` accepts it. -/
structure EncodeContract (p : AppPacket) : Prop where
  null : ∀ n, p.encode none n = ⟨0, none, { p with error := .invalidDataPointer }⟩
  short : ∀ (b : List UInt8) (n : Nat), n < 12 + p.dataLength →
    p.encode (some b) n = ⟨0, some b, { p with error := .bufferTooSmall }⟩
  fits : ∀ (b : List UInt8) (n : Nat), 12 + p.dataLength ≤ n →
    ∃ f : List UInt8,
      p.encode (some b) n = ⟨12 + p.dataLength, some (f ++ b.drop (12 + p.dataLength)),
        { p with
          crc32 := calculateCrc32 (f.take (8 + p.dataLength))
          error := .none
          lifesign := p.lifesign + 1 }⟩ ∧
      f.length = 12 + p.dataLength ∧ (f.drop 8).take p.dataLength = p.payload ∧
      (readHeader f).dataLength.toNat = p.payload.length ∧ (readHeader f).lifesign = p.lifesign ∧
      ∀ (q : AppPacket) (now : Nat), (q.decode now (some f) f.length).1 = true

theorem encodeContract_of_view {p : AppPacket} (view : PayloadView p) : EncodeContract p where
  null _ := rfl
  short b n short := by
    simp only [encode]
    rw [if_pos (by simp only [headerSize, footerSize]; omega)]
  fits b n room := by
    have length := payload_length view
    have small : p.payload.length ≤ appPacketMaxDataSize := length ▸ view.small
    have declared : p.header.dataLength.toNat = p.payload.length := by
      rw [← declared_length small, length]
      rfl
    have read : readHeader (frame p.header p.payload) = p.header := by
      simpa [frame, List.append_assoc] using readHeader_bytes p.header (p.payload ++ le32 _)
    refine ⟨frame p.header p.payload, ?_, ?_, ?_, ?_, ?_, fun q now => ?_⟩
    · rw [encode_view view b room, show 8 + p.dataLength = (p.header.bytes ++ p.payload).length by
        simp [length, headerSize], frame, List.append_assoc, List.take_left]
    · simp [length, headerSize, footerSize]
      omega
    · rw [frame, List.append_assoc, List.drop_left' (show p.header.bytes.length = 8 from rfl), ← length,
        List.take_left]
    · rw [read, declared]
    · rw [read]
      rfl
    · have accepted := decode_frame q now p.header p.payload [] declared small
      rw [List.append_nil] at accepted
      rw [accepted]

/-! ## Reachable states and the frames of a run -/

/-- The states that construction and calls keeping their pointer contracts lead to. -/
inductive Reachable : AppPacket → Prop
  | init (changeTime recvTime : Nat) : Reachable (AppPacket.init changeTime recvTime)
  | call {p : AppPacket} {c : Call} : Reachable p → c.Valid → Reachable (c.apply p)

theorem Reachable.view {p : AppPacket} (reachable : Reachable p) : PayloadView p := by
  induction reachable with
  | init changeTime recvTime => exact PayloadView.init changeTime recvTime
  | call _ valid view => exact view.call valid

instance Call.decidableValid : DecidablePred Call.Valid := fun c => by
  unfold Call.Valid
  split <;> infer_instance

def Call.frame? (p : AppPacket) : Call → Option (List UInt8)
  | .encode buffer bufferSize =>
    let e := p.encode buffer bufferSize
    if e.written > 0 then e.buffer.map (List.take e.written) else none
  | _ => none

def encodedFrames : AppPacket → List Call → List (List UInt8)
  | _, [] => []
  | p, c :: calls => (c.frame? p).toList ++ encodedFrames (c.apply p) calls

theorem decode_lifesign (p : AppPacket) (now : Nat) (buffer : Option (List UInt8)) (n : Nat) :
    (p.decode now buffer n).2.lifesign = p.lifesign := by
  cases checked : checkFrame buffer n with
  | error e => rw [decode_rejected_early checked]
  | ok accepted =>
    simp only [AppPacket.decode, checked, storeFrame_eq, updateReceivedLifesign_lifesign]

theorem Call.frame?_lifesign {p : AppPacket} (contract : EncodeContract p) (c : Call) :
    (c.apply p).lifesign.toNat = (p.lifesign.toNat + (c.frame? p).toList.length) % 65536 ∧
      ∀ f ∈ c.frame? p, (readHeader f).lifesign = p.lifesign := by
  have same : (c.apply p).lifesign = p.lifesign → (c.frame? p) = none →
      (c.apply p).lifesign.toNat = (p.lifesign.toNat + (c.frame? p).toList.length) % 65536 ∧
        ∀ f ∈ c.frame? p, (readHeader f).lifesign = p.lifesign := fun kept none => by
    rw [kept, none]
    exact ⟨(Nat.mod_eq_of_lt p.lifesign.toNat_lt).symm, fun _ member => by cases member⟩
  cases c with
  | encode buffer n =>
    cases buffer with
    | none => exact same rfl (by simp [Call.frame?, contract.null])
    | some b =>
      by_cases room : 12 + p.dataLength ≤ n
      · obtain ⟨f, encoded, length, -, -, lifesign, -⟩ := contract.fits b n room
        have frame : (Call.encode (some b) n).frame? p = some f := by
          simp only [Call.frame?, encoded, Option.map_some', ← length, List.take_left]
          exact if_pos (by omega)
        rw [frame]
        refine ⟨?_, fun f' member => by cases member; exact lifesign⟩
        simp only [Call.apply, encoded, UInt16.toNat_add, Option.toList_some, List.length_singleton]
        rfl
      · have encoded := contract.short b n (by omega)
        exact same (by simp [Call.apply, encoded]) (by simp [Call.frame?, encoded])
  | decode now buffer n => exact same (decode_lifesign p now buffer n) rfl
  | updateReceivedLifesign now lifesign => exact same (updateReceivedLifesign_lifesign p now lifesign) rfl
  | setDataPointer data length =>
    obtain ⟨error, dataPtr, dataLength, set⟩ := setDataPointer_frame p data length
    exact same (by simp [Call.apply, set]) rfl
  | setUniqueId | setCommTimeout | setExpectedInterval | resetCommMonitor => exact same rfl rfl

theorem encodedFrames_lifesigns {p : AppPacket} (view : PayloadView p) {calls : List Call}
    (valid : ∀ c ∈ calls, c.Valid) :
    (encodedFrames p calls).map (fun f => (readHeader f).lifesign.toNat) =
      (List.range (encodedFrames p calls).length).map fun i => (p.lifesign.toNat + i) % 65536 := by
  induction calls generalizing p with
  | nil => rfl
  | cons c calls ih =>
    have rest := ih (view.call (valid c (List.mem_cons_self c calls)))
      fun c' member => valid c' (List.mem_cons_of_mem c member)
    obtain ⟨moved, carried⟩ := Call.frame?_lifesign (encodeContract_of_view view) c
    simp only [encodedFrames, List.map_append, List.length_append, rest, moved]
    cases framed : c.frame? p with
    | none => simp [Nat.add_mod_mod]
    | some f =>
      simp only [Option.toList_some, List.map_cons, List.map_nil, List.length_singleton,
        carried f framed, Nat.add_comm 1, List.range_succ_eq_map, List.map_cons]
      rw [List.singleton_append, List.map_map]
      have below : p.lifesign.toNat < 65536 := p.lifesign.toNat_lt
      congr 1
      · omega
      · refine List.map_congr_left fun i _ => ?_
        simp only [Function.comp, Nat.succ_eq_add_one]
        omega

/-- In every reachable state the payload view is sound, so `encode` keeps its contract, and the
frames of any run from there carry consecutive lifesigns modulo 2^16. -/
theorem encode_contract_reachable {p : AppPacket} (reachable : Reachable p) :
    p.dataLength ≤ appPacketMaxDataSize ∧ (p.dataPtr = none → p.dataLength = 0) ∧ EncodeContract p ∧
      ∀ calls : List Call, (∀ c ∈ calls, c.Valid) →
        (encodedFrames p calls).map (fun f => (readHeader f).lifesign.toNat) =
          (List.range (encodedFrames p calls).length).map fun i => (p.lifesign.toNat + i) % 65536 :=
  have view := reachable.view
  ⟨view.small, view.null, encodeContract_of_view view, fun _ valid => encodedFrames_lifesigns view valid⟩

theorem encode_contract_after_send :
    let p := (Call.encode (some (List.replicate 15 0)) 15).apply
      ((Call.setDataPointer (some [1, 2, 3]) 3).apply (AppPacket.init 0 0))
    Reachable p ∧
      (p.dataLength ≤ appPacketMaxDataSize ∧ (p.dataPtr = none → p.dataLength = 0) ∧ EncodeContract p ∧
        ∀ calls : List Call, (∀ c ∈ calls, c.Valid) →
          (encodedFrames p calls).map (fun f => (readHeader f).lifesign.toNat) =
            (List.range (encodedFrames p calls).length).map fun i => (p.lifesign.toNat + i) % 65536) :=
  have reachable := Reachable.call (Reachable.call (Reachable.init 0 0) (by decide)) (by decide)
  ⟨reachable, encode_contract_reachable reachable⟩

/-! ## A rejected payload is sent empty -/

theorem setDataPointer_rejected (p : AppPacket) {data : Option (List UInt8)} {length : Nat}
    (rejected : data = none ∨ appPacketMaxDataSize < length) :
    ∃ error, p.setDataPointer data length = { p with error := error, dataPtr := none, dataLength := 0 } := by
  rcases rejected with rfl | large
  · exact ⟨_, rfl⟩
  · cases data with
    | none => exact ⟨_, rfl⟩
    | some data => exact ⟨_, if_pos large⟩

/-- `setDataPointer` empties the view it rejects, and the next `encode` into a buffer with room
for a header and a footer succeeds: it returns 12, reports no error, sends a frame with no
payload and consumes a lifesign. -/
theorem rejected_payload_sent_empty (p : AppPacket) (data : Option (List UInt8)) (length : Nat)
    (rejected : data = none ∨ appPacketMaxDataSize < length) (b : List UInt8) (n : Nat) (room : 12 ≤ n) :
    ((p.setDataPointer data length).encode (some b) n).written = 12 ∧
      ((p.setDataPointer data length).encode (some b) n).buffer =
        some (frame ⟨p.uniqueId, p.lifesign, 0⟩ [] ++ b.drop 12) ∧
      ((p.setDataPointer data length).encode (some b) n).packet.error = .none ∧
      ((p.setDataPointer data length).encode (some b) n).packet.lifesign = p.lifesign + 1 := by
  obtain ⟨error, emptied⟩ := setDataPointer_rejected p rejected
  have view : PayloadView { p with error := error, dataPtr := none, dataLength := 0 } :=
    ⟨Nat.zero_le _, fun _ => rfl, fun _ ptr => by cases ptr⟩
  rw [emptied, encode_view view b room]
  exact ⟨rfl, rfl, rfl, rfl⟩

theorem oversized_payload_sent_empty :
    ((some (List.replicate 257 0) = none ∨ appPacketMaxDataSize < 257) ∧ 12 ≤ 256) ∧
      (((AppPacket.init 0 0).setDataPointer (some (List.replicate 257 0)) 257).encode
          (some (List.replicate 256 0)) 256).written = 12 ∧
      (((AppPacket.init 0 0).setDataPointer (some (List.replicate 257 0)) 257).encode
          (some (List.replicate 256 0)) 256).buffer =
        some (frame ⟨0, 0, 0⟩ [] ++ (List.replicate 256 0).drop 12) ∧
      (((AppPacket.init 0 0).setDataPointer (some (List.replicate 257 0)) 257).encode
          (some (List.replicate 256 0)) 256).packet.error = .none ∧
      (((AppPacket.init 0 0).setDataPointer (some (List.replicate 257 0)) 257).encode
          (some (List.replicate 256 0)) 256).packet.lifesign = 0 + 1 :=
  ⟨⟨.inr (by decide), by decide⟩, rejected_payload_sent_empty (AppPacket.init 0 0) _ 257
    (.inr (by decide)) (List.replicate 256 0) 256 (by decide)⟩

/-! ## An accepted frame clears the instability report -/

theorem decode_accepted {p : AppPacket} {now : Nat} {buffer : Option (List UInt8)} {n : Nat}
    (accepted : (p.decode now buffer n).1 = true) :
    (p.decode now buffer n).2.error = .none ∧
      (p.decode now buffer n).2.commUnstable = p.arrivalOutOfTolerance now := by
  unfold AppPacket.decode at accepted ⊢
  cases checked : checkFrame buffer n with
  | error e => simp [checked] at accepted
  | ok result =>
    obtain ⟨b, header⟩ := result
    simp only [checked, storeFrame_eq, decide_eq_true_eq] at accepted ⊢
    simp only [accepted, if_true, updateReceivedLifesign_commUnstable]
    exact ⟨trivial, rfl⟩

set_option maxRecDepth 4000 in
theorem accepted_frame_clears_instability :
    (∀ (p : AppPacket) (now : Nat) (buffer : Option (List UInt8)) (n : Nat),
      (p.decode now buffer n).1 = true →
        (p.decode now buffer n).2.error = .none ∧
          (p.decode now buffer n).2.commUnstable = p.arrivalOutOfTolerance now) ∧
      (AppPacket.init 0 0).error = .none ∧
      ((AppPacket.init 0 0).decode 2000000000 (some (frame ⟨0, 1, 0⟩ [])) 12).1 = true ∧
      ((AppPacket.init 0 0).decode 2000000000 (some (frame ⟨0, 1, 0⟩ [])) 12).2.commUnstable = true ∧
      ((AppPacket.init 0 0).decode 2000000000 (some (frame ⟨0, 1, 0⟩ [])) 12).2.error = .none :=
  ⟨fun _ _ _ _ accepted => decode_accepted accepted, rfl, by decide, by decide, by decide⟩

end UdpPeer.Packet
