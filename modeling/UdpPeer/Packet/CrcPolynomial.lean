import Mathlib
import UdpPeer.Packet.Crc

/-!
# `calculateCrc32` is the CRC-32 of IEEE 802.3

The definition over GF(2): the message bits, least significant bit of each byte first, are the
coefficients of `M(x)`, first bit highest; the remainder is
`R(x) = (x^32 * M(x) + x^(8|m|) * (x^31 + ... + 1)) mod G(x)`, and the CRC is the 32
coefficients of `R` in reflected order, xored with `0xFFFFFFFF`.

The register of the bitwise loop is read as a polynomial with bit `i` the coefficient of
`x^(31 - i)` (`reflectedPoly`). Then xor is addition, one pass of the inner loop is
multiplication by `x` modulo `G` (`reflectedPoly_shiftReduce`), and one pass of the outer loop
appends a byte to `M` (`mk_crcByte`). The loop over a message therefore computes `R`, and the
initial `0xFFFFFFFF` contributes the `x^(8|m|) * (x^31 + ... + 1)` term.
-/

namespace UdpPeer.Packet

open Polynomial

noncomputable def crcGenerator : (ZMod 2)[X] :=
  X ^ 32 + X ^ 26 + X ^ 23 + X ^ 22 + X ^ 16 + X ^ 12 + X ^ 11 + X ^ 10 + X ^ 8 + X ^ 7 + X ^ 5 +
    X ^ 4 + X ^ 2 + X + 1

noncomputable def allOnesPoly : (ZMod 2)[X] := ∑ i ∈ Finset.range 32, X ^ i

def byteBits (b : UInt8) : List Bool := (List.range 8).map b.toNat.testBit

def messageBits (m : List UInt8) : List Bool := m.flatMap byteBits

noncomputable def bitsPoly (bits : List Bool) : (ZMod 2)[X] :=
  bits.foldl (fun acc bit => X * acc + if bit then 1 else 0) 0

noncomputable def crcRemainder (m : List UInt8) : (ZMod 2)[X] :=
  (X ^ 32 * bitsPoly (messageBits m) + X ^ (8 * m.length) * allOnesPoly) %ₘ crcGenerator

noncomputable def reflectedPoly (x : BitVec 32) : (ZMod 2)[X] :=
  ∑ i ∈ Finset.range 32, if x.getLsbD i then X ^ (31 - i) else 0

/-! ## The register as a polynomial -/

theorem coeff_ite_X_pow (c : Bool) (k n : Nat) :
    (if c then (X : (ZMod 2)[X]) ^ k else 0).coeff n = if c ∧ n = k then 1 else 0 := by
  cases c <;> simp [coeff_X_pow]

theorem coeff_reflectedPoly (x : BitVec 32) (n : Nat) :
    (reflectedPoly x).coeff n = if n < 32 ∧ x.getLsbD (31 - n) then 1 else 0 := by
  simp only [reflectedPoly, finset_sum_coeff, coeff_ite_X_pow]
  rw [Finset.sum_eq_single (31 - n)]
  · by_cases small : n < 32
    · have back : n = 31 - (31 - n) := by omega
      simp only [← back, small, true_and, and_true]
    · simp only [small, false_and, and_false, if_false]
      exact if_neg (by omega)
  · intro i inside other
    simp only [Finset.mem_range] at inside
    exact if_neg (by omega)
  · intro outside
    simp only [Finset.mem_range] at outside
    omega

theorem reflectedPoly_xor (x y : BitVec 32) :
    reflectedPoly (x ^^^ y) = reflectedPoly x + reflectedPoly y := by
  ext n
  simp only [coeff_reflectedPoly, coeff_add, BitVec.getLsbD_xor]
  by_cases small : n < 32
  · simp only [small, true_and]
    cases x.getLsbD (31 - n) <;> cases y.getLsbD (31 - n) <;> decide
  · simp only [small, false_and, if_false, add_zero]

theorem degree_reflectedPoly_lt (x : BitVec 32) : (reflectedPoly x).degree < 32 := by
  rw [show (32 : WithBot Nat) = ((32 : Nat) : WithBot Nat) from rfl, degree_lt_iff_coeff_zero]
  intro m large
  rw [coeff_reflectedPoly, if_neg (by omega)]

theorem reflectedPoly_ushiftRight (x : BitVec 32) :
    reflectedPoly (x >>> 1) + (if x.getLsbD 0 then X ^ 32 else 0) = X * reflectedPoly x := by
  ext n
  cases n with
  | zero => simp [coeff_reflectedPoly, coeff_ite_X_pow]
  | succ m =>
    rw [coeff_add, coeff_X_mul, coeff_reflectedPoly, coeff_reflectedPoly, coeff_ite_X_pow,
      BitVec.getLsbD_ushiftRight]
    rcases Nat.lt_or_ge m 31 with small | large
    · rw [show 1 + (31 - (m + 1)) = 31 - m by omega]
      simp [small, show m + 1 < 32 by omega, show m + 1 ≠ 32 by omega, show m < 32 by omega]
    · rcases Nat.eq_or_lt_of_le large with rfl | larger
      · cases x.getLsbD 0 <;> simp
      · simp [show ¬ m + 1 < 32 by omega, show m + 1 ≠ 32 by omega, show ¬ m < 32 by omega]

theorem crcGenerator_eq : crcGenerator = X ^ 32 + reflectedPoly crc32Polynomial.toBitVec := by
  ext n
  simp only [crcGenerator, coeff_add, coeff_reflectedPoly, coeff_X_pow, coeff_X, coeff_one]
  rcases Nat.lt_or_ge n 33 with small | large
  · interval_cases n <;> decide
  · simp (disch := omega) only [if_neg, false_and, add_zero]

theorem crcGenerator_monic : crcGenerator.Monic := by
  rw [crcGenerator_eq]
  exact monic_X_pow_add (degree_reflectedPoly_lt _)

theorem degree_crcGenerator : crcGenerator.degree = 32 := by
  rw [crcGenerator_eq, degree_add_eq_left_of_degree_lt] <;> rw [degree_X_pow]
  · rfl
  · exact degree_reflectedPoly_lt _

theorem reflectedPoly_shiftReduce (x : BitVec 32) :
    reflectedPoly (shiftReduce x) = X * reflectedPoly x + if x.getLsbD 0 then crcGenerator else 0 := by
  rw [← reflectedPoly_ushiftRight, shiftReduce]
  by_cases low : x.getLsbD 0
  · simp only [low, if_true, reflectedPoly_xor, crcGenerator_eq]
    rw [add_assoc, ← add_assoc (X ^ 32), CharTwo.add_self_eq_zero, zero_add]
  · simp only [low, Bool.false_eq_true, if_false, add_zero]

/-! ## Bit strings as polynomials -/

theorem foldl_horner (bits : List Bool) (acc : (ZMod 2)[X]) :
    bits.foldl (fun acc bit => X * acc + if bit then 1 else 0) acc = X ^ bits.length * acc + bitsPoly bits := by
  induction bits generalizing acc with
  | nil => rw [List.foldl_nil, List.length_nil, pow_zero, one_mul, bitsPoly, List.foldl_nil, add_zero]
  | cons b bs ih =>
    have cons : bitsPoly (b :: bs) = X ^ bs.length * (X * 0 + if b then 1 else 0) + bitsPoly bs := ih _
    rw [List.foldl_cons, ih, cons, List.length_cons]
    ring

theorem bitsPoly_append (bs cs : List Bool) :
    bitsPoly (bs ++ cs) = X ^ cs.length * bitsPoly bs + bitsPoly cs := by
  rw [bitsPoly, List.foldl_append, foldl_horner]
  rfl

theorem bitsPoly_range (f : Nat → Bool) (k : Nat) :
    bitsPoly ((List.range k).map f) = ∑ i ∈ Finset.range k, if f i then X ^ (k - 1 - i) else 0 := by
  induction k with
  | zero => rfl
  | succ k ih =>
    rw [List.range_succ, List.map_append, bitsPoly_append, ih, Finset.sum_range_succ, Finset.mul_sum]
    congr 1
    · refine Finset.sum_congr rfl fun i inside => ?_
      rw [Finset.mem_range] at inside
      rw [List.length_map, List.length_singleton, pow_one, mul_ite, mul_zero, ← pow_succ',
        show k - 1 - i + 1 = k + 1 - 1 - i by omega]
    · simp [bitsPoly]

theorem reflectedPoly_toUInt32 (b : UInt8) :
    reflectedPoly b.toUInt32.toBitVec = X ^ 24 * bitsPoly (byteBits b) := by
  have bits (i : Nat) : b.toUInt32.toBitVec.getLsbD i = b.toNat.testBit i := by
    rw [← BitVec.testBit_toNat]
    rfl
  rw [byteBits, bitsPoly_range, Finset.mul_sum, reflectedPoly]
  refine (Finset.sum_subset (Finset.range_subset.2 (by decide)) fun i _ outside => ?_).symm.trans
    (Finset.sum_congr rfl fun i inside => ?_)
  · rw [Finset.mem_range, not_lt] at outside
    rw [bits, Nat.testBit_eq_false_of_lt (lt_of_lt_of_le b.toNat_lt (Nat.pow_le_pow_right two_pos outside))]
    rfl
  · rw [Finset.mem_range] at inside
    rw [bits, mul_ite, mul_zero, ← pow_add, show 24 + (8 - 1 - i) = 31 - i by omega]

/-! ## The loops modulo `G` -/

noncomputable def residue : (ZMod 2)[X] →+* AdjoinRoot crcGenerator := AdjoinRoot.mk crcGenerator

theorem residue_crcBit (r : UInt32) :
    residue (reflectedPoly (crcBit r).toBitVec) = residue X * residue (reflectedPoly r.toBitVec) := by
  rw [crcBit_toBitVec, reflectedPoly_shiftReduce, RingHom.map_add, RingHom.map_mul]
  split
  · rw [residue, AdjoinRoot.mk_self, add_zero]
  · rw [RingHom.map_zero, add_zero]

theorem residue_crcBits (n : Nat) (r : UInt32) :
    residue (reflectedPoly (crcBits n r).toBitVec) = residue X ^ n * residue (reflectedPoly r.toBitVec) := by
  induction n generalizing r with
  | zero => rw [crcBits, pow_zero, one_mul]
  | succ n ih => rw [crcBits, ih, residue_crcBit, pow_succ, mul_assoc]

theorem residue_crcByte (r : UInt32) (b : UInt8) :
    residue (reflectedPoly (crcByte r b).toBitVec) =
      residue X ^ 8 * residue (reflectedPoly r.toBitVec) + residue (X ^ 32 * bitsPoly (byteBits b)) := by
  rw [crcByte, residue_crcBits, show (r ^^^ b.toUInt32).toBitVec = r.toBitVec ^^^ b.toUInt32.toBitVec from rfl,
    reflectedPoly_xor, reflectedPoly_toUInt32]
  simp only [RingHom.map_add, RingHom.map_mul, RingHom.map_pow]
  ring

theorem bitsPoly_messageBits_append (m : List UInt8) (b : UInt8) :
    bitsPoly (messageBits (m ++ [b])) = X ^ 8 * bitsPoly (messageBits m) + bitsPoly (byteBits b) := by
  rw [messageBits, List.flatMap_append, List.flatMap_singleton, bitsPoly_append]
  rfl

theorem residue_foldl_crcByte (m pre : List UInt8) (r : UInt32) :
    residue (reflectedPoly (m.foldl crcByte r).toBitVec) - residue (X ^ 32 * bitsPoly (messageBits (pre ++ m))) =
      residue X ^ (8 * m.length) *
        (residue (reflectedPoly r.toBitVec) - residue (X ^ 32 * bitsPoly (messageBits pre))) := by
  induction m generalizing pre r with
  | nil => rw [List.foldl_nil, List.append_nil, List.length_nil, Nat.mul_zero, pow_zero, one_mul]
  | cons b m ih =>
    rw [List.foldl_cons, List.append_cons, ih, residue_crcByte, bitsPoly_messageBits_append, List.length_cons]
    simp only [RingHom.map_add, RingHom.map_mul, RingHom.map_pow]
    ring

theorem reflectedPoly_allOnes : reflectedPoly (0xFFFFFFFF : UInt32).toBitVec = allOnesPoly := by
  rw [reflectedPoly, allOnesPoly, ← Finset.sum_range_reflect]
  refine Finset.sum_congr rfl fun i inside => ?_
  rw [Finset.mem_range] at inside
  rw [show (0xFFFFFFFF : UInt32).toBitVec = BitVec.allOnes 32 from rfl, BitVec.getLsbD_allOnes,
    decide_eq_true (show 32 - 1 - i < 32 by omega), if_pos rfl, show 31 - (32 - 1 - i) = i by omega]

/-! ## The CRC -/

theorem calculateCrc32_register (m : List UInt8) :
    calculateCrc32 m ^^^ 0xFFFFFFFF = m.foldl crcByte 0xFFFFFFFF := by
  rw [calculateCrc32, uint32_xor_assoc, uint32_xor_self, uint32_xor_comm, uint32_zero_xor]

theorem reflectedPoly_foldl_crcByte (m : List UInt8) :
    reflectedPoly (m.foldl crcByte 0xFFFFFFFF).toBitVec = crcRemainder m := by
  have loop := residue_foldl_crcByte m [] 0xFFFFFFFF
  rw [List.nil_append, reflectedPoly_allOnes, show bitsPoly (messageBits []) = 0 from rfl, mul_zero, RingHom.map_zero, sub_zero, sub_eq_iff_eq_add] at loop
  have dvd : crcGenerator ∣ X ^ 32 * bitsPoly (messageBits m) + X ^ (8 * m.length) * allOnesPoly -
      reflectedPoly (m.foldl crcByte 0xFFFFFFFF).toBitVec := by
    refine AdjoinRoot.mk_eq_mk.1 ?_
    show residue _ = residue _
    rw [loop, RingHom.map_add, add_comm]
    simp only [RingHom.map_mul, RingHom.map_pow]
  rw [crcRemainder, modByMonic_eq_of_dvd_sub crcGenerator_monic dvd,
    (modByMonic_eq_self_iff crcGenerator_monic).2 (degree_crcGenerator ▸ degree_reflectedPoly_lt _)]

/-- `calculateCrc32` is the CRC-32 of IEEE 802.3: the coefficients of `R(x)` in reflected order,
xored with `0xFFFFFFFF`. Bit `i` of the CRC is set exactly when `R` has no `x^(31 - i)`. -/
theorem calculateCrc32_eq_crcRemainder (m : List UInt8) :
    reflectedPoly (calculateCrc32 m ^^^ 0xFFFFFFFF).toBitVec = crcRemainder m ∧
      ∀ i < 32, ((calculateCrc32 m).toBitVec.getLsbD i = true ↔ (crcRemainder m).coeff (31 - i) = 0) := by
  refine ⟨by rw [calculateCrc32_register]; exact reflectedPoly_foldl_crcByte m, fun i small => ?_⟩
  have flipped : (calculateCrc32 m).toBitVec.getLsbD i = !(m.foldl crcByte 0xFFFFFFFF).toBitVec.getLsbD i := by
    rw [calculateCrc32, show (m.foldl crcByte 0xFFFFFFFF ^^^ 0xFFFFFFFF).toBitVec =
      (m.foldl crcByte 0xFFFFFFFF).toBitVec ^^^ BitVec.allOnes 32 from rfl, BitVec.getLsbD_xor,
      BitVec.getLsbD_allOnes, decide_eq_true small, Bool.xor_true]
  rw [flipped, ← reflectedPoly_foldl_crcByte, coeff_reflectedPoly, show 31 - (31 - i) = i by omega]
  cases (m.foldl crcByte 0xFFFFFFFF).toBitVec.getLsbD i <;> simp [show 31 - i < 32 by omega]

end UdpPeer.Packet
