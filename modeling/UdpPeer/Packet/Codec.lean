import UdpPeer.Packet.AppPacket

/-!
# The codec

`encode` writes a frame, `decode` accepts exactly the frames followed by any bytes, and reads
back what was encoded. A frame that `decode` rejects after its length checks has already been
fed to the link-health monitor.
-/

namespace UdpPeer.Packet
open AppPacket

/-- The frame `encode` writes for a header and a payload. -/
def frame (header : AppPacketHeader) (payload : List UInt8) : List UInt8 :=
  header.bytes ++ payload ++ le32 (calculateCrc32 (header.bytes ++ payload))

@[simp] theorem frame_length (header : AppPacketHeader) (payload : List UInt8) :
    (frame header payload).length = headerSize + payload.length + footerSize := by
  simp [frame, footerSize]
  omega

/-! ## Encoding -/

theorem writeBody_eq (p : AppPacket) (data buffer : List UInt8) (ptr : p.dataPtr = some data)
    (held : p.dataLength ≤ data.length) :
    p.writeBody buffer = (p.header.bytes ++ data.take p.dataLength ++
      buffer.drop (headerSize + p.dataLength), headerSize + p.dataLength) := by
  have first : writeBytes buffer 0 p.header.bytes = p.header.bytes ++ buffer.drop headerSize := by
    simpa using writeBytes_append [] buffer p.header.bytes
  simp only [writeBody, ptr, first]
  by_cases positive : p.dataLength > 0
  · have second := writeBytes_append p.header.bytes (buffer.drop headerSize) (data.take p.dataLength)
    rw [AppPacketHeader.bytes_length] at second
    rw [if_pos positive, second, List.drop_drop, List.length_take, Nat.min_eq_left held]
  · have zero : p.dataLength = 0 := by omega
    simp [zero]

theorem encode_eq (p : AppPacket) (data buffer : List UInt8) (bufferSize : Nat)
    (ptr : p.dataPtr = some data) (held : p.dataLength ≤ data.length)
    (room : headerSize + p.dataLength + footerSize ≤ bufferSize) :
    p.encode (some buffer) bufferSize =
      ⟨headerSize + p.dataLength + footerSize,
        some (frame p.header (data.take p.dataLength) ++
          buffer.drop (headerSize + p.dataLength + footerSize)),
        { p with
          crc32 := calculateCrc32 (p.header.bytes ++ data.take p.dataLength)
          error := .none
          lifesign := p.lifesign + 1 }⟩ := by
  have body : (p.header.bytes ++ data.take p.dataLength).length = headerSize + p.dataLength := by
    simp [held]
  simp only [encode]
  rw [if_neg (by omega), writeBody_eq p data buffer ptr held]
  dsimp only
  rw [← body, List.take_left, writeBytes_append, List.drop_drop, body]
  simp [frame, footerSize, Nat.add_comm]

/-! ## Decoding a frame -/

theorem checkFrame_frame (header : AppPacketHeader) (payload trailing : List UInt8)
    (declared : header.dataLength.toNat = payload.length)
    (small : payload.length ≤ appPacketMaxDataSize) :
    checkFrame (some (frame header payload ++ trailing)) (frame header payload ++ trailing).length =
      .ok (frame header payload ++ trailing, header) := by
  have read : readHeader (frame header payload ++ trailing) = header := by
    simpa [frame, List.append_assoc] using readHeader_bytes header (payload ++ le32 _ ++ trailing)
  simp only [checkFrame, read, declared, List.length_append, frame_length]
  rw [if_neg (by omega), if_neg (by omega), if_neg (by omega)]

theorem decode_frame (p : AppPacket) (now : Nat) (header : AppPacketHeader)
    (payload trailing : List UInt8) (declared : header.dataLength.toNat = payload.length)
    (small : payload.length ≤ appPacketMaxDataSize) :
    p.decode now (some (frame header payload ++ trailing)) (frame header payload ++ trailing).length =
      (true, { ({ p with uniqueId := header.uniqueId, dataLength := payload.length }
          ).updateReceivedLifesign now header.lifesign with
        dataPtr := if payload.length > 0 then some (payload ++ le32 (calculateCrc32 (header.bytes ++ payload)) ++ trailing) else none
        crc32 := calculateCrc32 (header.bytes ++ payload)
        error := .none }) := by
  have body : (header.bytes ++ payload).length = headerSize + payload.length := by simp
  have footer : getLE32 (frame header payload ++ trailing) (headerSize + payload.length) =
      calculateCrc32 (header.bytes ++ payload) := by
    rw [← body]
    simpa [frame, List.append_assoc] using
      getLE32_le32 (header.bytes ++ payload) trailing (calculateCrc32 (header.bytes ++ payload))
  have covered : (frame header payload ++ trailing).take (headerSize + payload.length) =
      header.bytes ++ payload := by
    rw [show frame header payload ++ trailing = header.bytes ++ payload ++
      (le32 (calculateCrc32 (header.bytes ++ payload)) ++ trailing) by simp [frame]]
    exact List.take_left' body
  have view : (frame header payload ++ trailing).drop headerSize =
      payload ++ le32 (calculateCrc32 (header.bytes ++ payload)) ++ trailing := by
    simp [frame, List.append_assoc]
  rw [decode, checkFrame_frame header payload trailing declared small]
  dsimp only
  rw [storeFrame_eq, declared]
  simp only [footer, covered, view, decide_True, if_true]

theorem payload_view (p : AppPacket) (data rest : List UInt8)
    (ptr : p.dataPtr = if data.length > 0 then some (data ++ rest) else none)
    (len : p.dataLength = data.length) : p.payload = data := by
  unfold AppPacket.payload
  by_cases positive : data.length > 0
  · simp [ptr, positive, len]
  · simp only [ptr, if_neg positive]
    exact (List.eq_nil_of_length_eq_zero (by omega)).symm

theorem declared_length {payload : List UInt8} (small : payload.length ≤ appPacketMaxDataSize) :
    (UInt16.ofNat payload.length).toNat = payload.length := by
  rw [toNat_uint16_ofNat]
  exact Nat.mod_eq_of_lt (by unfold appPacketMaxDataSize at small; omega)

/-! ## What `decode` accepts -/

theorem checkFrame_ok {buffer : Option (List UInt8)} {bufferSize : Nat} {b : List UInt8}
    {header : AppPacketHeader} (accepted : checkFrame buffer bufferSize = .ok (b, header)) :
    buffer = some b ∧ header = readHeader b ∧
      headerSize + header.dataLength.toNat + footerSize ≤ bufferSize ∧
      header.dataLength.toNat ≤ appPacketMaxDataSize := by
  match buffer with
  | none => cases accepted
  | some b' =>
    simp only [checkFrame] at accepted
    split_ifs at accepted with short declared large
    cases accepted
    exact ⟨rfl, rfl, by omega, by omega⟩

theorem checkFrame_append (b rest : List UInt8) :
    checkFrame (some (b ++ rest)) b.length =
      (checkFrame (some b) b.length).map (fun accepted => (accepted.1 ++ rest, accepted.2)) := by
  simp only [checkFrame]
  by_cases short : b.length < headerSize + footerSize
  · simp only [if_pos short]
    rfl
  · rw [if_neg short, if_neg short,
      readHeader_append rest (by simp only [headerSize, footerSize] at short ⊢; omega)]
    split_ifs <;> rfl

theorem decode_append (p : AppPacket) (now : Nat) (b rest : List UInt8) :
    let r := p.decode now (some (b ++ rest)) b.length
    let r' := p.decode now (some b) b.length
    r.1 = r'.1 ∧ { r.2 with dataPtr := none } = { r'.2 with dataPtr := none } ∧
      r.2.payload = r'.2.payload := by
  intro r r'
  simp only [r, r', decode, checkFrame_append]
  cases checked : checkFrame (some b) b.length with
  | error e => exact ⟨rfl, rfl, rfl⟩
  | ok accepted =>
    obtain ⟨buf, header⟩ := accepted
    obtain ⟨same, -, fits, -⟩ := checkFrame_ok checked
    cases same
    have footer : getLE32 (b ++ rest) (headerSize + header.dataLength.toNat) =
        getLE32 b (headerSize + header.dataLength.toNat) :=
      getLE32_append rest (by unfold footerSize at fits; omega)
    have covered : (b ++ rest).take (headerSize + header.dataLength.toNat) =
        b.take (headerSize + header.dataLength.toNat) :=
      List.take_append_of_le_length (by omega)
    have viewed : ((b ++ rest).drop headerSize).take header.dataLength.toNat =
        (b.drop headerSize).take header.dataLength.toNat := by
      rw [List.drop_append_of_le_length (by omega),
        List.take_append_of_le_length (by rw [List.length_drop]; omega)]
    simp only [Except.map, storeFrame_eq, footer, covered, true_and]
    split <;> simp only [AppPacket.payload, updateReceivedLifesign_dataLength, viewed]

theorem decode_true {p : AppPacket} {now : Nat} {buffer : Option (List UInt8)} {n : Nat}
    (accepted : (p.decode now buffer n).1 = true) :
    ∃ b header, checkFrame buffer n = .ok (b, header) ∧
      calculateCrc32 (b.take (headerSize + header.dataLength.toNat)) =
        getLE32 b (headerSize + header.dataLength.toNat) ∧
      (p.decode now buffer n).2.uniqueId = header.uniqueId ∧
      (p.decode now buffer n).2.rxLifesign = header.lifesign ∧
      (p.decode now buffer n).2.dataLength = header.dataLength.toNat := by
  unfold decode at accepted ⊢
  cases checked : checkFrame buffer n with
  | error e => simp [checked] at accepted
  | ok result =>
    obtain ⟨b, header⟩ := result
    simp only [checked, storeFrame_eq, decide_eq_true_eq] at accepted ⊢
    exact ⟨b, header, rfl, accepted, updateReceivedLifesign_uniqueId _ _ _,
      updateReceivedLifesign_rxLifesign _ _ _, updateReceivedLifesign_dataLength _ _ _⟩

theorem accepted_frame {b : List UInt8} {header : AppPacketHeader}
    (long : headerSize + header.dataLength.toNat + footerSize ≤ b.length) (read : header = readHeader b)
    (crc : calculateCrc32 (b.take (headerSize + header.dataLength.toNat)) =
      getLE32 b (headerSize + header.dataLength.toNat)) :
    frame header ((b.drop headerSize).take header.dataLength.toNat) =
      b.take (headerSize + header.dataLength.toNat + footerSize) := by
  have bytes : header.bytes = b.take headerSize := by
    rw [read]
    exact readHeader_bytes_take b (by omega)
  have body : header.bytes ++ (b.drop headerSize).take header.dataLength.toNat =
      b.take (headerSize + header.dataLength.toNat) := by
    rw [bytes, List.take_add]
  rw [frame, body, crc, le32_getLE32_drop b _ (by unfold footerSize at long; omega), ← List.take_add]
  rfl

/-! ## Soundness of the decoder -/

theorem decode_sound (p : AppPacket) (now : Nat) (b : List UInt8) :
    (∀ rest : List UInt8,
      let r := p.decode now (some (b ++ rest)) b.length
      let r' := p.decode now (some b) b.length
      r.1 = r'.1 ∧ { r.2 with dataPtr := none } = { r'.2 with dataPtr := none } ∧
        r.2.payload = r'.2.payload) ∧
    let q := p.decode now (some b) b.length
    (q.1 = true →
      q.2.dataLength ≤ 256 ∧ 12 + q.2.dataLength ≤ b.length ∧
      ∀ (sender : AppPacket) (out : List UInt8), sender.lifesign = q.2.rxLifesign →
        12 + q.2.dataLength ≤ out.length →
        let encoded := ((sender.setUniqueId q.2.uniqueId).setDataPointer
          (some ((b.drop 8).take q.2.dataLength)) q.2.dataLength).encode (some out) out.length
        encoded.written = 12 + q.2.dataLength ∧
        encoded.buffer = some (b.take (12 + q.2.dataLength) ++ out.drop (12 + q.2.dataLength))) := by
  refine ⟨decode_append p now b, ?_⟩
  intro q accepted
  obtain ⟨b', header, checked, crc, uniqueId_eq, lifesign_eq, length_eq⟩ := decode_true accepted
  obtain ⟨same, read, long, small⟩ := checkFrame_ok checked
  cases same
  have twelve : headerSize + header.dataLength.toNat + footerSize = 12 + header.dataLength.toNat := by
    simp only [headerSize, footerSize]
    omega
  rw [length_eq, uniqueId_eq, lifesign_eq]
  refine ⟨small, twelve ▸ long, ?_⟩
  intro sender out lifesign room
  let tx := (sender.setUniqueId header.uniqueId).setDataPointer
    (some ((b.drop 8).take header.dataLength.toNat)) header.dataLength.toNat
  have tx_eq : tx = { sender with
      uniqueId := header.uniqueId, error := .none,
      dataPtr := some ((b.drop 8).take header.dataLength.toNat),
      dataLength := header.dataLength.toNat } :=
    setDataPointer_some _ _ small
  have header_eq : tx.header = header := by
    rw [tx_eq]
    simp only [AppPacket.header, lifesign, uint16_ofNat_toNat]
  have encoded_eq := encode_eq tx ((b.drop 8).take header.dataLength.toNat) out out.length
    (by rw [tx_eq]) (by rw [tx_eq]; simp only [List.length_take, List.length_drop]; omega)
    (by rw [tx_eq, twelve]; exact room)
  have frame_eq : frame header ((b.drop 8).take header.dataLength.toNat) =
      b.take (12 + header.dataLength.toNat) := by
    rw [← twelve]
    exact accepted_frame long read crc
  rw [show tx.dataLength = header.dataLength.toNat by rw [tx_eq], header_eq, List.take_take,
    min_self, twelve, frame_eq] at encoded_eq
  exact ⟨congrArg Encoded.written encoded_eq, congrArg Encoded.buffer encoded_eq⟩

/-! ## Rejected frames -/

theorem decode_rejected_early {p : AppPacket} {now : Nat} {buffer : Option (List UInt8)} {n : Nat}
    {e : AppPacketError} (rejected : checkFrame buffer n = .error e) :
    p.decode now buffer n = (false, { p with error := e }) := by
  simp only [decode, rejected]

theorem decode_crc_mismatch {p : AppPacket} {now : Nat} {buffer : Option (List UInt8)} {n : Nat}
    {b : List UInt8} {header : AppPacketHeader} (checked : checkFrame buffer n = .ok (b, header))
    (corrupt : calculateCrc32 (b.take (headerSize + header.dataLength.toNat)) ≠
      getLE32 b (headerSize + header.dataLength.toNat)) :
    p.decode now buffer n = (false, { ({ p with
        uniqueId := header.uniqueId, dataLength := header.dataLength.toNat }
      ).updateReceivedLifesign now header.lifesign with
      dataPtr := if header.dataLength.toNat > 0 then some (b.drop headerSize) else none
      crc32 := getLE32 b (headerSize + header.dataLength.toNat)
      error := .crcMismatch }) := by
  simp only [decode, checked]
  rw [storeFrame_eq, decide_eq_false corrupt, if_neg corrupt]

/-- A corrupted frame arriving two seconds after construction, when the link reads Lost, with a
new lifesign in its header: `decode` rejects it, and the link no longer reads Lost. -/
theorem corrupt_frame_masks_loss :
    (AppPacket.init 0 0).isCommLost 2000000000 = true ∧
      (let r := (AppPacket.init 0 0).decode 2000000000 (some [0, 0, 0, 0, 1, 0, 0, 0, 0, 0, 0, 0]) 12
       r.1 = false ∧ r.2.error = .crcMismatch ∧ r.2.rxLifesign ≠ (AppPacket.init 0 0).rxLifesign ∧
        r.2.lastChangeTime ≠ (AppPacket.init 0 0).lastChangeTime ∧
        r.2.isCommLost 2000000000 = false) := by
  set_option maxRecDepth 4000 in decide

/-! ## Single-bit errors -/

def bitMask (i : Nat) : UInt8 := UInt8.ofNat (2 ^ (i % 8))

/-- `bytes` with bit `i` flipped: bit `i % 8` of byte `i / 8`. -/
def flipBit (bytes : List UInt8) (i : Nat) : List UInt8 :=
  bytes.set (i / 8) (bytes.getD (i / 8) 0 ^^^ bitMask i)

theorem bitMask_ne_zero (i : Nat) : bitMask i ≠ 0 := by
  intro zero
  have value := congrArg UInt8.toNat zero
  have small : 2 ^ (i % 8) < 2 ^ 8 := Nat.pow_lt_pow_right (by decide) (Nat.mod_lt _ (by decide))
  rw [bitMask, toNat_uint8_ofNat, Nat.mod_eq_of_lt (by simpa using small)] at value
  exact absurd value (by simp)

theorem xor_ne_self (x : UInt8) {mask : UInt8} (nonzero : mask ≠ 0) : x ^^^ mask ≠ x := by
  intro same
  apply nonzero
  apply UInt8.eq_of_toBitVec_eq
  have bits : x.toBitVec ^^^ mask.toBitVec = x.toBitVec := congrArg UInt8.toBitVec same
  calc mask.toBitVec = x.toBitVec ^^^ x.toBitVec ^^^ mask.toBitVec := by
        rw [BitVec.xor_self, BitVec.zero_xor]
    _ = 0 := by rw [BitVec.xor_assoc, bits, BitVec.xor_self]; rfl

theorem flipBit_eq {bytes : List UInt8} {i : Nat} (inside : i / 8 < bytes.length) :
    flipBit bytes i = bytes.take (i / 8) ++ (bytes[i / 8] ^^^ bitMask i) :: bytes.drop (i / 8 + 1) := by
  rw [flipBit, List.set_eq_take_append_cons_drop, if_pos inside, List.getD_eq_getElem _ _ inside]

theorem split_at {bytes : List UInt8} {j : Nat} (inside : j < bytes.length) :
    bytes = bytes.take j ++ bytes[j] :: bytes.drop (j + 1) := by
  rw [← List.drop_eq_getElem_cons inside, List.take_append_drop]

theorem take_replace (pre post : List UInt8) (y : UInt8) (k : Nat) :
    (pre ++ y :: post).take (pre.length + (k + 1)) = pre ++ y :: post.take k := by
  rw [List.take_append, List.take_succ_cons]

theorem footer_replace (pre post : List UInt8) (y : UInt8) {d : Nat} (before : d ≤ pre.length)
    (within : pre.length < d + 4) :
    ((pre ++ y :: post).drop d).take 4 = pre.drop d ++ y :: post.take (3 - (pre.length - d)) := by
  rw [List.drop_append_of_le_length before, List.take_append_eq_append_take,
    List.take_of_length_le (by rw [List.length_drop]; omega), List.length_drop,
    show 4 - (pre.length - d) = 3 - (pre.length - d) + 1 by omega, List.take_succ_cons]

theorem frame_footer (header : AppPacketHeader) (payload : List UInt8) :
    getLE32 (frame header payload) (headerSize + payload.length) =
      calculateCrc32 (header.bytes ++ payload) := by
  have body : (header.bytes ++ payload).length = headerSize + payload.length := by simp
  rw [← body]
  simpa [frame] using getLE32_le32 (header.bytes ++ payload) [] (calculateCrc32 (header.bytes ++ payload))

theorem frame_take (header : AppPacketHeader) (payload : List UInt8) :
    (frame header payload).take (headerSize + payload.length) = header.bytes ++ payload := by
  simp [frame, List.take_append_eq_append_take, headerSize]

theorem flip_breaks_crc {header : AppPacketHeader} {payload pre post : List UInt8} {x : UInt8}
    (split : frame header payload = pre ++ x :: post) (i : Nat) :
    calculateCrc32 ((pre ++ (x ^^^ bitMask i) :: post).take (headerSize + payload.length)) ≠
      getLE32 (pre ++ (x ^^^ bitMask i) :: post) (headerSize + payload.length) := by
  have total := congrArg List.length split
  simp only [frame_length, List.length_append, List.length_cons, footerSize] at total
  by_cases body : pre.length < headerSize + payload.length
  · -- the flip is in the header or the payload: the CRC of the body changes
    obtain ⟨k, hk⟩ : ∃ k, headerSize + payload.length = pre.length + (k + 1) :=
      ⟨headerSize + payload.length - pre.length - 1, by omega⟩
    have f_body := frame_take header payload
    rw [split, hk, take_replace] at f_body
    rw [getLE32_replace pre post x _ (Or.inl body), ← split, frame_footer, ← f_body, hk,
      take_replace]
    exact calculateCrc32_ne_of_xor_byte pre (post.take k) x (bitMask_ne_zero i)
  · -- the flip is in the footer: the CRC read back changes
    have same_body : (pre ++ (x ^^^ bitMask i) :: post).take (headerSize + payload.length) =
        (frame header payload).take (headerSize + payload.length) := by
      rw [split, List.take_append_of_le_length (by omega), List.take_append_of_le_length (by omega)]
    have footer : headerSize + payload.length ≤ pre.length := by omega
    have within : pre.length < headerSize + payload.length + 4 := by omega
    have room (y : UInt8) : headerSize + payload.length + 4 ≤ (pre ++ y :: post).length := by
      simp only [List.length_append, List.length_cons]
      omega
    rw [same_body, frame_take, ← frame_footer, split]
    intro same
    have bytes := congrArg le32 same
    rw [le32_getLE32_drop _ _ (room _), le32_getLE32_drop _ _ (room _),
      footer_replace pre post _ footer within, footer_replace pre post _ footer within] at bytes
    exact xor_ne_self x (bitMask_ne_zero i) (List.cons.inj (List.append_cancel_left bytes.symm)).1

/-- Outside the `data_length` field a flipped bit is caught by the CRC, and a flip that makes
the frame declare a longer payload than it has is caught by the length check. -/
theorem bit_flip_rejected (u : UInt32) (lifesign : UInt16) (payload : List UInt8)
    (receiver : AppPacket) (now i : Nat) (small : payload.length ≤ 256)
    (bit : i < 8 * (12 + payload.length)) :
    let f := frame ⟨u, lifesign, UInt16.ofNat payload.length⟩ payload
    let r := receiver.decode now (some (flipBit f i)) f.length
    (i / 8 ≠ 6 → i / 8 ≠ 7 → r.1 = false ∧ r.2.error = .crcMismatch) ∧
    (payload.length < (readHeader (flipBit f i)).dataLength.toNat →
      r.1 = false ∧ r.2.error = .invalidPacket) := by
  intro f r
  have len : f.length = 12 + payload.length := by simp [f, headerSize, footerSize]; omega
  have inside : i / 8 < f.length := by omega
  have pre_len : (f.take (i / 8)).length = i / 8 := List.length_take_of_le (by omega)
  have split := split_at inside
  have flipped := flipBit_eq inside
  generalize f.take (i / 8) = pre at split flipped pre_len
  generalize f[i / 8] = x at split flipped
  generalize f.drop (i / 8 + 1) = post at split flipped
  constructor
  · intro not6 not7
    let header : AppPacketHeader := ⟨u, lifesign, UInt16.ofNat payload.length⟩
    have read_f : readHeader f = header := by
      simpa [f, frame, List.append_assoc] using readHeader_bytes header (payload ++ le32 _)
    have declared : (readHeader (flipBit f i)).dataLength = UInt16.ofNat payload.length := by
      show getLE16 (flipBit f i) 6 = _
      rw [flipped, getLE16_replace pre post x _ (by omega), ← split]
      exact congrArg AppPacketHeader.dataLength read_f
    have checked : checkFrame (some (flipBit f i)) f.length =
        .ok (flipBit f i, readHeader (flipBit f i)) := by
      simp only [checkFrame, declared, declared_length small, len, headerSize, footerSize,
        appPacketMaxDataSize]
      rw [if_neg (by omega), if_neg (by omega), if_neg (by omega)]
    have corrupt := flip_breaks_crc split i
    rw [← flipped, ← declared_length small, ← declared] at corrupt
    simp only [r, decode_crc_mismatch checked corrupt, and_self]
  · intro longer
    have rejected : checkFrame (some (flipBit f i)) f.length = .error .invalidPacket := by
      simp only [checkFrame, len, headerSize, footerSize]
      rw [if_neg (by omega), if_pos (by omega)]
    simp only [r, decode_rejected_early rejected, and_self]

set_option maxRecDepth 4000 in
/-- In a one-byte frame, flipping bit 2 of the CRC's first byte is caught by the CRC check, and
flipping bit 1 of `data_length`, which raises it from 1 to 3, by the length check. -/
theorem crc_and_length_flips_rejected :
    let f := frame ⟨0x12345678, 0, UInt16.ofNat [0x41].length⟩ [0x41]
    let r := fun i => (AppPacket.init 0 0).decode 0 (some (flipBit f i)) f.length
    ((r 82).1 = false ∧ (r 82).2.error = .crcMismatch) ∧
      ((r 49).1 = false ∧ (r 49).2.error = .invalidPacket) :=
  ⟨(bit_flip_rejected 0x12345678 0 [0x41] (AppPacket.init 0 0) 0 82 (by decide) (by decide)).1
      (by decide) (by decide),
    (bit_flip_rejected 0x12345678 0 [0x41] (AppPacket.init 0 0) 0 49 (by decide) (by decide)).2
      (by decide)⟩

/-- A flip that lowers `data_length` to 0 makes decode take the CRC from the first payload
bytes; when they hold the CRC of the shortened header, the damaged frame is accepted. -/
theorem shortened_length_accepted :
    let sender := ((AppPacket.init 0 0).setUniqueId 0).setDataPointer
      (some [0x69, 0xdf, 0x22, 0x65]) 4
    let f : List UInt8 := [0, 0, 0, 0, 0, 0, 4, 0, 0x69, 0xdf, 0x22, 0x65, 0x0a, 0x9d, 0xd5, 0xba]
    (sender.encode (some (List.replicate 16 0)) 16).buffer = some f ∧ 50 < 8 * 16 ∧
      ((AppPacket.init 0 0).decode 0 (some (flipBit f 50)) 16).1 = true := by
  set_option maxRecDepth 4000 in decide

/-! ## The round trip -/

theorem encode_decode_round_trip (sender receiver : AppPacket) (u : UInt32)
    (payload buffer trailing : List UInt8) (now : Nat) (small : payload.length ≤ 256)
    (room : 12 + payload.length ≤ buffer.length) :
    let tx := (sender.setUniqueId u).setDataPointer (some payload) payload.length
    let body := le32 u ++ le16 sender.lifesign ++ le16 (UInt16.ofNat payload.length) ++ payload
    let encoded := tx.encode (some buffer) buffer.length
    let wire := body ++ le32 (calculateCrc32 body) ++ trailing
    let decoded := receiver.decode now (some wire) wire.length
    encoded.written = 12 + payload.length ∧
    encoded.buffer =
      some (body ++ le32 (calculateCrc32 body) ++ buffer.drop (12 + payload.length)) ∧
    encoded.packet.crc32 = calculateCrc32 body ∧
    encoded.packet.lifesign.toNat = (sender.lifesign.toNat + 1) % 65536 ∧
    decoded.1 = true ∧ decoded.2.uniqueId = u ∧ decoded.2.rxLifesign = sender.lifesign ∧
    decoded.2.dataLength = payload.length ∧ decoded.2.payload = payload ∧
    decoded.2.crc32 = calculateCrc32 body := by
  intro tx body encoded wire decoded
  have tx_eq : tx = { sender with
      uniqueId := u, error := .none, dataPtr := some payload, dataLength := payload.length } :=
    setDataPointer_some _ _ small
  have header_eq : tx.header = ⟨u, sender.lifesign, UInt16.ofNat payload.length⟩ := by
    rw [tx_eq]
    rfl
  have length_eq : tx.dataLength = payload.length := by rw [tx_eq]
  have bytes : tx.header.bytes ++ payload = body := by
    rw [header_eq]
    rfl
  have framed : frame tx.header payload = body ++ le32 (calculateCrc32 body) := by
    rw [frame, bytes]
  have encoded_eq := encode_eq tx payload buffer buffer.length (by rw [tx_eq]) length_eq.le
    (by rw [length_eq]; simp only [headerSize, footerSize]; omega)
  have decoded_eq := decode_frame receiver now tx.header payload trailing
    (by rw [header_eq]; exact declared_length small) small
  rw [framed, bytes, header_eq] at decoded_eq
  rw [length_eq, List.take_length, framed, bytes,
    show headerSize + payload.length + footerSize = 12 + payload.length by
      simp only [headerSize, footerSize]; omega] at encoded_eq
  simp only [encoded, decoded, wire, encoded_eq, decoded_eq, updateReceivedLifesign_uniqueId,
    updateReceivedLifesign_rxLifesign, updateReceivedLifesign_dataLength, UInt16.toNat_add,
    true_and, and_true]
  exact ⟨by rw [tx_eq]; rfl,
    payload_view _ payload (le32 (calculateCrc32 body) ++ trailing) (by rw [List.append_assoc]) rfl⟩

/-- The first frame `main` sends: id 0x12345678, lifesign 0 and the 15 bytes of "Agent Team Test". -/
theorem round_trip_scenario :
    let sender := AppPacket.init 0 0
    let payload : List UInt8 :=
      [0x41, 0x67, 0x65, 0x6e, 0x74, 0x20, 0x54, 0x65, 0x61, 0x6d, 0x20, 0x54, 0x65, 0x73, 0x74]
    let buffer := List.replicate 27 (0 : UInt8)
    payload.length ≤ 256 ∧ 12 + payload.length ≤ buffer.length ∧
    let tx := (sender.setUniqueId 0x12345678).setDataPointer (some payload) payload.length
    let body := le32 0x12345678 ++ le16 sender.lifesign ++ le16 (UInt16.ofNat payload.length) ++
      payload
    let encoded := tx.encode (some buffer) buffer.length
    let wire := body ++ le32 (calculateCrc32 body) ++ []
    let decoded := sender.decode 0 (some wire) wire.length
    encoded.written = 12 + payload.length ∧
    encoded.buffer =
      some (body ++ le32 (calculateCrc32 body) ++ buffer.drop (12 + payload.length)) ∧
    encoded.packet.crc32 = calculateCrc32 body ∧
    encoded.packet.lifesign.toNat = (sender.lifesign.toNat + 1) % 65536 ∧
    decoded.1 = true ∧ decoded.2.uniqueId = 0x12345678 ∧ decoded.2.rxLifesign = sender.lifesign ∧
    decoded.2.dataLength = payload.length ∧ decoded.2.payload = payload ∧
    decoded.2.crc32 = calculateCrc32 body :=
  ⟨by decide, by decide, encode_decode_round_trip (AppPacket.init 0 0) (AppPacket.init 0 0)
    0x12345678 _ (List.replicate 27 0) [] 0 (by decide) (by decide)⟩

end UdpPeer.Packet
