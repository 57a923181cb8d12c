import Mathlib.Data.String.Basic
import Mathlib.Data.List.GetD

/-!
# The wire layout of an application packet

`AppPacket::encode` and `AppPacket::decode` copy `AppPacketHeader` and `AppPacketFooter` with
`memmove`. The structures have no padding and the host is little-endian, so a frame is
`unique_id` in four bytes, `lifesign` and `data_length` in two bytes each, the payload, and
`crc32` in four bytes, every integer low byte first.
-/

namespace UdpPeer.Packet

def headerSize : Nat := 8

def footerSize : Nat := 4

/-- `APP_PACKET_MAX_DATA_SIZE` -/
def appPacketMaxDataSize : Nat := 256

/-! ## Integers as bytes -/

def le16 (x : UInt16) : List UInt8 :=
  [UInt8.ofNat x.toNat, UInt8.ofNat (x.toNat / 256)]

def le32 (x : UInt32) : List UInt8 :=
  [UInt8.ofNat x.toNat, UInt8.ofNat (x.toNat / 256), UInt8.ofNat (x.toNat / 65536),
    UInt8.ofNat (x.toNat / 16777216)]

/-- The byte at `i` read as a number; a read past the end is never made by the modelled code. -/
def byteAt (buffer : List UInt8) (i : Nat) : Nat := (buffer.getD i 0).toNat

def getLE16 (buffer : List UInt8) (offset : Nat) : UInt16 :=
  UInt16.ofNat (byteAt buffer offset + 256 * byteAt buffer (offset + 1))

def getLE32 (buffer : List UInt8) (offset : Nat) : UInt32 :=
  UInt32.ofNat (byteAt buffer offset + 256 * byteAt buffer (offset + 1) +
    65536 * byteAt buffer (offset + 2) + 16777216 * byteAt buffer (offset + 3))

/-- `memmove(&buffer[offset], src, src.length)`. -/
def writeBytes (buffer : List UInt8) (offset : Nat) (src : List UInt8) : List UInt8 :=
  buffer.take offset ++ src ++ buffer.drop (offset + src.length)

@[simp] theorem le16_length (x : UInt16) : (le16 x).length = 2 := rfl

@[simp] theorem le32_length (x : UInt32) : (le32 x).length = 4 := rfl

theorem writeBytes_append (pre rest src : List UInt8) :
    writeBytes (pre ++ rest) pre.length src = pre ++ src ++ rest.drop src.length := by
  simp only [writeBytes, List.take_left, List.drop_append]

theorem toNat_uint8_ofNat (n : Nat) : (UInt8.ofNat n).toNat = n % 256 := rfl

theorem toNat_uint16_ofNat (n : Nat) : (UInt16.ofNat n).toNat = n % 65536 := rfl

theorem toNat_uint32_ofNat (n : Nat) : (UInt32.ofNat n).toNat = n % 4294967296 := rfl

theorem byteAt_append_left {pre rest : List UInt8} {i : Nat} (inside : i < pre.length) :
    byteAt (pre ++ rest) i = byteAt pre i := by
  simp only [byteAt, List.getD_append _ _ _ _ inside]

theorem byteAt_append_right (pre rest : List UInt8) (i : Nat) :
    byteAt (pre ++ rest) (pre.length + i) = byteAt rest i := by
  simp only [byteAt, List.getD_append_right _ _ _ _ (Nat.le_add_right _ _), Nat.add_sub_cancel_left]

theorem byteAt_append_length (pre rest : List UInt8) :
    byteAt (pre ++ rest) pre.length = byteAt rest 0 :=
  byteAt_append_right pre rest 0

/-! ## Reading back what was written -/

theorem getLE16_le16 (pre rest : List UInt8) (x : UInt16) :
    getLE16 (pre ++ le16 x ++ rest) pre.length = x := by
  have bound := x.toNat_lt
  apply UInt16.ext
  simp only [getLE16, List.append_assoc, byteAt_append_right,
    byteAt_append_length, toNat_uint16_ofNat]
  simp only [byteAt, le16, List.cons_append, List.getD_cons_zero, List.getD_cons_succ,
    toNat_uint8_ofNat]
  omega

theorem getLE32_le32 (pre rest : List UInt8) (x : UInt32) :
    getLE32 (pre ++ le32 x ++ rest) pre.length = x := by
  have bound := x.toNat_lt
  apply UInt32.ext
  simp only [getLE32, List.append_assoc, byteAt_append_right,
    byteAt_append_length, Nat.add_assoc, toNat_uint32_ofNat]
  simp only [byteAt, le32, List.cons_append, List.getD_cons_zero, List.getD_cons_succ,
    toNat_uint8_ofNat]
  omega

theorem uint16_ofNat_toNat (x : UInt16) : UInt16.ofNat x.toNat = x :=
  UInt16.ext (Nat.mod_eq_of_lt x.toNat_lt)

/-- Bytes in the buffer are the little-endian bytes of what `getLE16` reads there. -/
theorem le16_getLE16 (pre rest : List UInt8) (a b : UInt8) :
    le16 (getLE16 (pre ++ [a, b] ++ rest) pre.length) = [a, b] := by
  have ha := a.toNat_lt
  have hb := b.toNat_lt
  simp only [le16, getLE16, List.append_assoc, byteAt_append_right,
    byteAt_append_length, toNat_uint16_ofNat]
  simp only [byteAt, List.cons_append, List.getD_cons_zero, List.getD_cons_succ, List.cons.injEq]
  refine ⟨?_, ?_, trivial⟩ <;> apply UInt8.ext <;> simp only [toNat_uint8_ofNat] <;> omega

theorem le32_getLE32 (pre rest : List UInt8) (a b c d : UInt8) :
    le32 (getLE32 (pre ++ [a, b, c, d] ++ rest) pre.length) = [a, b, c, d] := by
  have ha := a.toNat_lt
  have hb := b.toNat_lt
  have hc := c.toNat_lt
  have hd := d.toNat_lt
  simp only [le32, getLE32, List.append_assoc, byteAt_append_right,
    byteAt_append_length, Nat.add_assoc, toNat_uint32_ofNat]
  simp only [byteAt, List.cons_append, List.getD_cons_zero, List.getD_cons_succ, List.cons.injEq]
  refine ⟨?_, ?_, ?_, ?_, trivial⟩ <;> apply UInt8.ext <;> simp only [toNat_uint8_ofNat] <;> omega

theorem le16_getLE16_drop (b : List UInt8) (offset : Nat) (inside : offset + 2 ≤ b.length) :
    le16 (getLE16 b offset) = (b.drop offset).take 2 := by
  obtain ⟨pre, d, rfl, rfl⟩ : ∃ pre d, b = pre ++ d ∧ pre.length = offset :=
    ⟨b.take offset, b.drop offset, (List.take_append_drop offset b).symm,
      List.length_take_of_le (by omega)⟩
  rw [List.length_append] at inside
  match d, inside with
  | x0 :: x1 :: rest, _ => simpa using le16_getLE16 pre rest x0 x1
  | [], short | [_], short => simp at short

theorem le32_getLE32_drop (b : List UInt8) (offset : Nat) (inside : offset + 4 ≤ b.length) :
    le32 (getLE32 b offset) = (b.drop offset).take 4 := by
  obtain ⟨pre, d, rfl, rfl⟩ : ∃ pre d, b = pre ++ d ∧ pre.length = offset :=
    ⟨b.take offset, b.drop offset, (List.take_append_drop offset b).symm,
      List.length_take_of_le (by omega)⟩
  rw [List.length_append] at inside
  match d, inside with
  | x0 :: x1 :: x2 :: x3 :: rest, _ => simpa using le32_getLE32 pre rest x0 x1 x2 x3
  | [], short | [_], short | [_, _], short | [_, _, _], short => simp at short

/-! ## Bytes past the end are never read -/

theorem getLE16_append {b : List UInt8} (rest : List UInt8) {offset : Nat}
    (inside : offset + 2 ≤ b.length) : getLE16 (b ++ rest) offset = getLE16 b offset := by
  simp only [getLE16, byteAt_append_left (show offset < b.length by omega),
    byteAt_append_left (show offset + 1 < b.length by omega)]

theorem getLE32_append {b : List UInt8} (rest : List UInt8) {offset : Nat}
    (inside : offset + 4 ≤ b.length) : getLE32 (b ++ rest) offset = getLE32 b offset := by
  simp only [getLE32, byteAt_append_left (show offset < b.length by omega),
    byteAt_append_left (show offset + 1 < b.length by omega),
    byteAt_append_left (show offset + 2 < b.length by omega),
    byteAt_append_left (show offset + 3 < b.length by omega)]

/-! ## Reads away from a changed byte -/

theorem byteAt_replace (pre post : List UInt8) (x y : UInt8) {i : Nat} (away : i ≠ pre.length) :
    byteAt (pre ++ y :: post) i = byteAt (pre ++ x :: post) i := by
  rcases Nat.lt_or_gt_of_ne away with before | after
  · rw [byteAt_append_left before, byteAt_append_left before]
  · obtain ⟨k, rfl⟩ : ∃ k, i = pre.length + (k + 1) := ⟨i - pre.length - 1, by omega⟩
    rw [byteAt_append_right, byteAt_append_right]
    simp only [byteAt, List.getD_cons_succ]

theorem getLE16_replace (pre post : List UInt8) (x y : UInt8) {offset : Nat}
    (away : pre.length < offset ∨ offset + 2 ≤ pre.length) :
    getLE16 (pre ++ y :: post) offset = getLE16 (pre ++ x :: post) offset := by
  simp only [getLE16, byteAt_replace pre post x y (show offset ≠ pre.length by omega),
    byteAt_replace pre post x y (show offset + 1 ≠ pre.length by omega)]

theorem getLE32_replace (pre post : List UInt8) (x y : UInt8) {offset : Nat}
    (away : pre.length < offset ∨ offset + 4 ≤ pre.length) :
    getLE32 (pre ++ y :: post) offset = getLE32 (pre ++ x :: post) offset := by
  simp only [getLE32, byteAt_replace pre post x y (show offset ≠ pre.length by omega),
    byteAt_replace pre post x y (show offset + 1 ≠ pre.length by omega),
    byteAt_replace pre post x y (show offset + 2 ≠ pre.length by omega),
    byteAt_replace pre post x y (show offset + 3 ≠ pre.length by omega)]

end UdpPeer.Packet
