import Mathlib.Data.String.Basic

/-!
# `AppPacket::calculateCrc32`

The bitwise loop of the source: the register starts at `0xFFFFFFFF`, each byte is xored into
its low end and shifted out over eight steps that xor in `CRC32_POLYNOMIAL` whenever a one
falls off, and the result is xored with `0xFFFFFFFF`. Every step is linear over xor and keeps
a nonzero register nonzero, so changing one byte of a message changes its CRC.
-/

namespace UdpPeer.Packet

/-- `CRC32_POLYNOMIAL` -/
def crc32Polynomial : UInt32 := 0xEDB88320

/-- One pass of the inner loop of `calculateCrc32`. -/
def crcBit (crc : UInt32) : UInt32 :=
  if crc &&& 1 ≠ 0 then (crc >>> 1) ^^^ crc32Polynomial else crc >>> 1

def crcBits : Nat → UInt32 → UInt32
  | 0, crc => crc
  | n + 1, crc => crcBits n (crcBit crc)

/-- One pass of the outer loop of `calculateCrc32`. -/
def crcByte (crc : UInt32) (byte : UInt8) : UInt32 :=
  crcBits 8 (crc ^^^ byte.toUInt32)

def calculateCrc32 (data : List UInt8) : UInt32 :=
  data.foldl crcByte 0xFFFFFFFF ^^^ 0xFFFFFFFF

set_option maxRecDepth 4000 in
example : calculateCrc32 [0x31, 0x32, 0x33, 0x34, 0x35, 0x36, 0x37, 0x38, 0x39] = 0xCBF43926 := by
  decide

/-! ## Xor on registers -/

theorem uint32_xor_assoc (a b c : UInt32) : a ^^^ b ^^^ c = a ^^^ (b ^^^ c) :=
  UInt32.eq_of_toBitVec_eq (BitVec.xor_assoc a.toBitVec b.toBitVec c.toBitVec)

theorem uint32_xor_comm (a b : UInt32) : a ^^^ b = b ^^^ a :=
  UInt32.eq_of_toBitVec_eq (BitVec.xor_comm a.toBitVec b.toBitVec)

instance uint32_xor_associative : Std.Associative (α := UInt32) (· ^^^ ·) := ⟨uint32_xor_assoc⟩

instance uint32_xor_commutative : Std.Commutative (α := UInt32) (· ^^^ ·) := ⟨uint32_xor_comm⟩

theorem uint32_xor_self (a : UInt32) : a ^^^ a = 0 := UInt32.eq_of_toBitVec_eq BitVec.xor_self

theorem uint32_zero_xor (a : UInt32) : 0 ^^^ a = a := UInt32.eq_of_toBitVec_eq BitVec.zero_xor

/-! ## The bit step on bit vectors -/

def shiftReduce (x : BitVec 32) : BitVec 32 :=
  if x.getLsbD 0 then (x >>> 1) ^^^ crc32Polynomial.toBitVec else x >>> 1

theorem and_one_ne_zero (crc : UInt32) : crc &&& 1 ≠ 0 ↔ crc.toBitVec.getLsbD 0 = true := by
  have low : (crc &&& 1).toBitVec = BitVec.setWidth 32 (BitVec.ofBool (crc.toBitVec.getLsbD 0)) :=
    BitVec.and_one_eq_setWidth_ofBool_getLsbD
  constructor
  · intro nonzero
    cases bit : crc.toBitVec.getLsbD 0
    · rw [bit] at low
      exact absurd (UInt32.eq_of_toBitVec_eq (low.trans rfl)) nonzero
    · rfl
  · intro bit zero
    rw [bit, zero] at low
    exact absurd low (by decide)

theorem crcBit_toBitVec (crc : UInt32) : (crcBit crc).toBitVec = shiftReduce crc.toBitVec := by
  unfold crcBit shiftReduce
  by_cases bit : crc.toBitVec.getLsbD 0
  · rw [if_pos ((and_one_ne_zero crc).2 bit), if_pos bit]
    rfl
  · rw [if_neg (mt (and_one_ne_zero crc).1 bit), if_neg bit]
    rfl

theorem xor_xor_cancel_right (a b p : BitVec 32) : a ^^^ p ^^^ (b ^^^ p) = a ^^^ b := by
  ext i
  simp only [BitVec.getLsbD_xor]
  cases a.getLsbD i <;> cases b.getLsbD i <;> cases p.getLsbD i <;> rfl

theorem shiftReduce_xor (a b : BitVec 32) : shiftReduce (a ^^^ b) = shiftReduce a ^^^ shiftReduce b := by
  unfold shiftReduce
  simp only [BitVec.getLsbD_xor, BitVec.ushiftRight_xor_distrib]
  cases a.getLsbD 0 <;> cases b.getLsbD 0 <;> simp only [Bool.xor_false, Bool.false_xor,
    Bool.xor_true, Bool.not_true, Bool.not_false, if_true, if_false, Bool.false_eq_true]
  all_goals first | ac_rfl | exact (xor_xor_cancel_right _ _ _).symm

theorem shiftReduce_ne_zero {x : BitVec 32} (nonzero : x ≠ 0) : shiftReduce x ≠ 0 := by
  unfold shiftReduce
  intro zero
  split at zero
  · -- bit 31 of the shifted register is clear and that of the polynomial is set
    have top := congrArg (fun y : BitVec 32 => y.getLsbD 31) zero
    simp only [BitVec.getLsbD_xor, BitVec.getLsbD_ushiftRight, BitVec.getLsbD_zero] at top
    rw [BitVec.getLsbD_ge x (1 + 31) (by omega)] at top
    exact absurd top (by decide)
  · rename_i low
    apply nonzero
    apply BitVec.eq_of_getLsbD_eq
    intro ⟨i, _⟩
    cases i with
    | zero => simpa using low
    | succ j =>
      have shifted := congrArg (fun y : BitVec 32 => y.getLsbD j) zero
      simpa [BitVec.getLsbD_ushiftRight, Nat.add_comm] using shifted

/-! ## The loops -/

theorem crcBit_xor (a b : UInt32) : crcBit (a ^^^ b) = crcBit a ^^^ crcBit b := by
  apply UInt32.eq_of_toBitVec_eq
  show (crcBit (a ^^^ b)).toBitVec = (crcBit a).toBitVec ^^^ (crcBit b).toBitVec
  rw [crcBit_toBitVec, crcBit_toBitVec, crcBit_toBitVec]
  exact shiftReduce_xor _ _

theorem crcBit_ne_zero {crc : UInt32} (nonzero : crc ≠ 0) : crcBit crc ≠ 0 := by
  intro zero
  have bits := crcBit_toBitVec crc
  rw [zero] at bits
  exact shiftReduce_ne_zero (fun h => nonzero (UInt32.eq_of_toBitVec_eq h)) bits.symm

theorem crcBits_xor (n : Nat) (a b : UInt32) : crcBits n (a ^^^ b) = crcBits n a ^^^ crcBits n b := by
  induction n generalizing a b with
  | zero => rfl
  | succ n ih => simp only [crcBits, crcBit_xor, ih]

theorem crcBits_ne_zero (n : Nat) {crc : UInt32} (nonzero : crc ≠ 0) : crcBits n crc ≠ 0 := by
  induction n generalizing crc with
  | zero => exact nonzero
  | succ n ih => exact ih (crcBit_ne_zero nonzero)

theorem crcBits_add (m n : Nat) (crc : UInt32) : crcBits (m + n) crc = crcBits m (crcBits n crc) := by
  induction n generalizing crc with
  | zero => rfl
  | succ n ih => exact ih (crcBit crc)

theorem toUInt32_xor (x y : UInt8) : (x ^^^ y).toUInt32 = x.toUInt32 ^^^ y.toUInt32 := by
  apply UInt32.ext
  rw [UInt8.toUInt32_toNat]
  show (x.toBitVec ^^^ y.toBitVec).toNat = (x.toUInt32.toBitVec ^^^ y.toUInt32.toBitVec).toNat
  rw [BitVec.toNat_xor, BitVec.toNat_xor]
  rfl

theorem foldl_crcByte_xor (post : List UInt8) (u v : UInt32) :
    post.foldl crcByte (u ^^^ v) = post.foldl crcByte u ^^^ crcBits (8 * post.length) v := by
  induction post generalizing u v with
  | nil => rfl
  | cons y ys ih =>
    have step : crcByte (u ^^^ v) y = crcByte u y ^^^ crcBits 8 v := by
      rw [crcByte, crcByte, ← crcBits_xor]
      congr 1
      ac_rfl
    rw [List.foldl_cons, List.foldl_cons, step, ih, ← crcBits_add, List.length_cons,
      Nat.mul_succ]

theorem calculateCrc32_xor_byte (pre post : List UInt8) (x mask : UInt8) :
    calculateCrc32 (pre ++ (x ^^^ mask) :: post) =
      calculateCrc32 (pre ++ x :: post) ^^^ crcBits (8 * post.length) (crcBits 8 mask.toUInt32) := by
  have byte : crcByte (pre.foldl crcByte 0xFFFFFFFF) (x ^^^ mask) =
      crcByte (pre.foldl crcByte 0xFFFFFFFF) x ^^^ crcBits 8 mask.toUInt32 := by
    rw [crcByte, crcByte, ← crcBits_xor, toUInt32_xor]
    congr 1
    ac_rfl
  simp only [calculateCrc32, List.foldl_append, List.foldl_cons, byte, foldl_crcByte_xor]
  ac_rfl

theorem calculateCrc32_ne_of_xor_byte (pre post : List UInt8) (x : UInt8) {mask : UInt8}
    (nonzero : mask ≠ 0) :
    calculateCrc32 (pre ++ (x ^^^ mask) :: post) ≠ calculateCrc32 (pre ++ x :: post) := by
  have widened : mask.toUInt32 ≠ 0 := by
    intro zero
    apply nonzero
    apply UInt8.ext
    simpa using congrArg UInt32.toNat zero
  have change := crcBits_ne_zero (8 * post.length) (crcBits_ne_zero 8 widened)
  rw [calculateCrc32_xor_byte]
  intro same
  apply change
  calc crcBits (8 * post.length) (crcBits 8 mask.toUInt32)
      = calculateCrc32 (pre ++ x :: post) ^^^ calculateCrc32 (pre ++ x :: post) ^^^
          crcBits (8 * post.length) (crcBits 8 mask.toUInt32) := by
        rw [uint32_xor_self, uint32_zero_xor]
    _ = 0 := by rw [uint32_xor_assoc, same, uint32_xor_self]

end UdpPeer.Packet
