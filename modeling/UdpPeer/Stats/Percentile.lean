import UdpPeer.Stats.LatencyStats

/-!
# The percentiles of `computeStats`

`computeStats` reports the minimum, the maximum and five percentiles of the sorted snapshot in
microseconds, computed in `double`. `percentile(sorted, p)` takes the nearest rank
`ceil(p / 100 * n)`, clamps it into `[1, n]` and reads that element.

`double` is binary64 with rounding to nearest, ties to even (`toDouble`); every value rounded
here is far below the overflow threshold, so overflow is left out. All the report's order needs
of the rounding is that it is monotone (`toDouble_mono`): a larger `p` gives a rank no smaller,
a later element of the sorted snapshot converts to a value no smaller, and so
`min_us ≤ p50_us ≤ ... ≤ p9999_us ≤ max_us`.
-/

namespace UdpPeer.Stats

/-! ## `double` -/

/-- Rounding to an integer, ties to even. -/
def roundHalfEven (q : ℚ) : ℤ :=
  if q - ⌊q⌋ < 1 / 2 then ⌊q⌋
  else if 1 / 2 < q - ⌊q⌋ then ⌊q⌋ + 1
  else if ⌊q⌋ % 2 = 0 then ⌊q⌋ else ⌊q⌋ + 1

def doubleExponent (q : ℚ) : ℤ := max (Int.log 2 |q| - 52) (-1074)

/-- The binary64 value nearest to `q`, ties to even. -/
def toDouble (q : ℚ) : ℚ := roundHalfEven (q / 2 ^ doubleExponent q) * 2 ^ doubleExponent q

theorem floor_le_roundHalfEven (q : ℚ) : ⌊q⌋ ≤ roundHalfEven q := by
  unfold roundHalfEven
  split_ifs <;> omega

theorem roundHalfEven_le_floor_add_one (q : ℚ) : roundHalfEven q ≤ ⌊q⌋ + 1 := by
  unfold roundHalfEven
  split_ifs <;> omega

@[simp] theorem roundHalfEven_intCast (n : ℤ) : roundHalfEven n = n := by
  simp [roundHalfEven]

theorem roundHalfEven_mono {a b : ℚ} (le : a ≤ b) : roundHalfEven a ≤ roundHalfEven b := by
  rcases (Int.floor_mono le).lt_or_eq with lt | same
  · calc roundHalfEven a ≤ ⌊a⌋ + 1 := roundHalfEven_le_floor_add_one a
      _ ≤ ⌊b⌋ := lt
      _ ≤ roundHalfEven b := floor_le_roundHalfEven b
  · -- one integer part: compare the fractions
    have fraction : a - ⌊b⌋ ≤ b - ⌊b⌋ := by linarith
    unfold roundHalfEven
    rw [same]
    split_ifs <;> first | omega | linarith

section Grid

variable {q : ℚ} {m : ℤ} (e : ℤ)

theorem roundHalfEven_mul_le (below : q ≤ m * 2 ^ e) :
    (roundHalfEven (q / 2 ^ e) : ℚ) * 2 ^ e ≤ m * 2 ^ e := by
  have scaled : q / 2 ^ e ≤ m := (div_le_iff₀ (zpow_pos two_pos e)).2 below
  have rounded := roundHalfEven_mono scaled
  rw [roundHalfEven_intCast] at rounded
  exact mul_le_mul_of_nonneg_right (Int.cast_le.2 rounded) (zpow_pos two_pos e).le

theorem le_roundHalfEven_mul (above : m * 2 ^ e ≤ q) :
    (m : ℚ) * 2 ^ e ≤ roundHalfEven (q / 2 ^ e) * 2 ^ e := by
  have scaled : (m : ℚ) ≤ q / 2 ^ e := (le_div_iff₀ (zpow_pos two_pos e)).2 above
  have rounded := roundHalfEven_mono scaled
  rw [roundHalfEven_intCast] at rounded
  exact mul_le_mul_of_nonneg_right (Int.cast_le.2 rounded) (zpow_pos two_pos e).le

end Grid

@[simp] theorem toDouble_zero : toDouble 0 = 0 := by
  simp [toDouble, roundHalfEven]

theorem toDouble_le_zpow {a : ℚ} (pos : 0 < a) :
    toDouble a ≤ (2 ^ 53 : ℤ) * 2 ^ doubleExponent a := by
  have below : a < 2 ^ (Int.log 2 a + 1) := Int.lt_zpow_succ_log_self (by decide) a
  have reach : (2 : ℚ) ^ (Int.log 2 a + 1) ≤ 2 ^ (doubleExponent a + 53) :=
    zpow_le_zpow_right₀ (by norm_num) (by rw [doubleExponent, abs_of_pos pos]; omega)
  refine roundHalfEven_mul_le _ (le_of_lt (lt_of_lt_of_le below (reach.trans_eq ?_)))
  rw [zpow_add₀ two_ne_zero, mul_comm]
  norm_num

theorem zpow_le_toDouble {b : ℚ} (pos : 0 < b) (coarse : -1074 < doubleExponent b) :
    (2 ^ 52 : ℤ) * 2 ^ doubleExponent b ≤ toDouble b := by
  have exponent : doubleExponent b = Int.log 2 b - 52 := by
    rw [doubleExponent, abs_of_pos pos] at coarse ⊢
    omega
  have above : (2 : ℚ) ^ Int.log 2 b ≤ b := Int.zpow_log_le_self (by decide) pos
  refine le_roundHalfEven_mul _ (le_trans (le_of_eq ?_) above)
  rw [exponent, show Int.log 2 b = 52 + (Int.log 2 b - 52) by ring, zpow_add₀ two_ne_zero]
  norm_num

theorem toDouble_mono {a b : ℚ} (nonneg : 0 ≤ a) (le : a ≤ b) : toDouble a ≤ toDouble b := by
  rcases nonneg.lt_or_eq with pos | rfl
  · have exponent : doubleExponent a ≤ doubleExponent b := by
      have logs := Int.log_mono_right (b := 2) pos le
      rw [doubleExponent, doubleExponent, abs_of_pos pos, abs_of_pos (pos.trans_le le)]
      omega
    rcases exponent.lt_or_eq with coarser | same
    · -- the power of two where the grid coarsens lies between the two doubles
      calc toDouble a ≤ (2 ^ 53 : ℤ) * 2 ^ doubleExponent a := toDouble_le_zpow pos
        _ ≤ (2 ^ 52 : ℤ) * 2 ^ doubleExponent b := by
          rw [show doubleExponent b = doubleExponent a + 1 + (doubleExponent b - doubleExponent a - 1) by ring,
            zpow_add₀ two_ne_zero, zpow_add₀ two_ne_zero]
          have more : (1 : ℚ) ≤ 2 ^ (doubleExponent b - doubleExponent a - 1) :=
            one_le_zpow₀ (by norm_num) (by omega)
          have grid : (0 : ℚ) < 2 ^ doubleExponent a := zpow_pos two_pos _
          push_cast
          nlinarith
        _ ≤ toDouble b := zpow_le_toDouble (pos.trans_le le) (by
          have := le_max_right (Int.log 2 |a| - 52) (-1074)
          rw [← doubleExponent] at this
          omega)
    · unfold toDouble
      rw [same]
      have grid : (0 : ℚ) < 2 ^ doubleExponent b := zpow_pos two_pos _
      exact mul_le_mul_of_nonneg_right
        (Int.cast_le.2 (roundHalfEven_mono (div_le_div_of_nonneg_right le grid.le))) grid.le
  · simpa using le_roundHalfEven_mul (m := 0) (doubleExponent b) (by simpa using le)

theorem toDouble_nonneg {q : ℚ} (nonneg : 0 ≤ q) : 0 ≤ toDouble q := by
  simpa using toDouble_mono le_rfl nonneg

/-! ## `percentile` and the report -/

def toUs (x : UInt64) : ℚ := toDouble (toDouble x.toNat / 1000)

/-- The index `percentile(sorted, p)` reads, from 1: `ceil(p / 100.0 * n)`, clamped into
`[1, n]`. -/
def percentileRank (n : Nat) (p : ℚ) : Nat :=
  let idx := ⌈toDouble (toDouble (p / 100) * toDouble n)⌉₊
  let idx := if idx = 0 then 1 else idx
  if idx > n then n else idx

def percentile (sorted : List UInt64) (p : ℚ) : ℚ :=
  if sorted.isEmpty then 0 else toUs (sorted.getD (percentileRank sorted.length p - 1) 0)

structure ResultUs where
  minUs : ℚ
  maxUs : ℚ
  p50Us : ℚ
  p95Us : ℚ
  p99Us : ℚ
  p999Us : ℚ
  p9999Us : ℚ

def reportedPercentiles : List ℚ := [50, 95, 99, 999 / 10, 9999 / 100].map toDouble

namespace LatencyStats

variable {capacity : Nat} [NeZero capacity]

/-- The microsecond fields `computeStats` fills from the sorted snapshot. -/
def computeStatsUs (s : LatencyStats capacity) : ResultUs :=
  if s.count = 0 then ⟨0, 0, 0, 0, 0, 0, 0⟩
  else
    let sorted := s.snapshot.mergeSort fun a b => decide (a ≤ b)
    ⟨toUs (sorted.headD 0), toUs (sorted.getLastD 0), percentile sorted (toDouble 50),
      percentile sorted (toDouble 95), percentile sorted (toDouble 99),
      percentile sorted (toDouble (999 / 10)), percentile sorted (toDouble (9999 / 100))⟩

end LatencyStats

theorem toUs_mono {x y : UInt64} (le : x ≤ y) : toUs x ≤ toUs y :=
  toDouble_mono (div_nonneg (toDouble_nonneg (Nat.cast_nonneg _)) (by norm_num))
    (div_le_div_of_nonneg_right (toDouble_mono (Nat.cast_nonneg _) (Nat.cast_le.2 le)) (by norm_num))

theorem percentileRank_mem {n : Nat} (pos : 0 < n) (p : ℚ) :
    1 ≤ percentileRank n p ∧ percentileRank n p ≤ n := by
  unfold percentileRank
  dsimp only
  split_ifs <;> omega

theorem percentileRank_mono (n : Nat) {p q : ℚ} (nonneg : 0 ≤ p) (le : p ≤ q) :
    percentileRank n p ≤ percentileRank n q := by
  have scaled := toDouble_mono (div_nonneg nonneg (by norm_num))
    (div_le_div_of_nonneg_right le (by norm_num : (0 : ℚ) ≤ 100))
  have size := toDouble_nonneg (Nat.cast_nonneg (α := ℚ) n)
  have rank := toDouble_mono (mul_nonneg (toDouble_nonneg (div_nonneg nonneg (by norm_num))) size)
    (mul_le_mul_of_nonneg_right scaled size)
  have ceil := Nat.ceil_mono rank
  unfold percentileRank
  dsimp only
  split_ifs <;> omega

theorem getD_le_getD {sorted : List UInt64} (ordered : sorted.Pairwise fun a b => decide (a ≤ b) = true)
    {i j : Nat} (le : i ≤ j) (inside : j < sorted.length) : sorted.getD i 0 ≤ sorted.getD j 0 := by
  rw [List.getD_eq_getElem _ _ (by omega), List.getD_eq_getElem _ _ inside]
  rcases le.lt_or_eq with lt | rfl
  · simpa using List.pairwise_iff_getElem.1 ordered i j (by omega) inside lt
  · exact (uint64_le_iff _ _).2 le_rfl

theorem toUs_reads_sorted {sorted : List UInt64}
    (ordered : sorted.Pairwise fun a b => decide (a ≤ b) = true) {idxs : List Nat}
    (chain : idxs.Sorted (· ≤ ·)) (inside : ∀ i ∈ idxs, i < sorted.length) :
    (idxs.map fun i => toUs (sorted.getD i 0)).Sorted (· ≤ ·) := by
  rw [List.Sorted, List.pairwise_map]
  exact chain.imp_of_mem fun _ member le => toUs_mono (getD_le_getD ordered le (inside _ member))

theorem report_indices {n : Nat} {ranks : List Nat} (pos : 0 < n) (increasing : ranks.Sorted (· ≤ ·))
    (ranked : ∀ k ∈ ranks, 1 ≤ k ∧ k ≤ n) :
    (0 :: (ranks.map (· - 1) ++ [n - 1])).Sorted (· ≤ ·) ∧ ∀ i ∈ 0 :: (ranks.map (· - 1) ++ [n - 1]), i < n := by
  refine ⟨List.sorted_cons.2 ⟨fun _ _ => Nat.zero_le _, List.pairwise_append.2
    ⟨List.pairwise_map.2 (increasing.imp fun le => Nat.sub_le_sub_right le 1), List.pairwise_singleton _ _, ?_⟩⟩,
    fun i member => ?_⟩
  · intro i member j last
    obtain ⟨k, rank, rfl⟩ := List.mem_map.1 member
    rw [List.mem_singleton.1 last]
    have := ranked k rank
    omega
  · simp only [List.mem_cons, List.mem_append, List.mem_map, List.mem_singleton, List.not_mem_nil,
      or_false] at member
    rcases member with rfl | ⟨k, rank, rfl⟩ | rfl
    · exact pos
    · have := ranked k rank
      omega
    · omega

namespace LatencyStats

variable {capacity : Nat} [NeZero capacity]

theorem snapshot_ne_nil {s : LatencyStats capacity} (recorded : s.count ≠ 0) : s.snapshot ≠ [] := by
  have counted : s.count.toNat ≠ 0 := fun zero =>
    recorded (UInt64.eq_of_toBitVec_eq (BitVec.eq_of_toNat_eq zero))
  have := Nat.pos_of_neZero capacity
  rw [← List.length_pos]
  unfold snapshot
  dsimp only
  split_ifs <;> simp [s.samples_length] <;> omega

/-- For every snapshot of at least one sample, each percentile `computeStats` reports is an
element of the sorted snapshot, in microseconds, read at a rank clamped into `[1, n]`; the ranks
do not decrease as `p` grows, and so `min_us ≤ p50_us ≤ ... ≤ p9999_us ≤ max_us`. -/
theorem percentile_report_ordered (s : LatencyStats capacity) (recorded : s.count ≠ 0) :
    s.snapshot ≠ [] ∧
      (let sorted := s.snapshot.mergeSort fun a b => decide (a ≤ b)
       let ranks := reportedPercentiles.map (percentileRank sorted.length)
       let r := s.computeStatsUs
       (∀ k ∈ ranks, 1 ≤ k ∧ k ≤ sorted.length) ∧ ranks.Sorted (· ≤ ·) ∧
         [r.p50Us, r.p95Us, r.p99Us, r.p999Us, r.p9999Us] =
           ranks.map (fun k => toUs (sorted.getD (k - 1) 0)) ∧
         [r.minUs, r.p50Us, r.p95Us, r.p99Us, r.p999Us, r.p9999Us, r.maxUs].Sorted (· ≤ ·)) := by
  have nonempty := snapshot_ne_nil recorded
  refine ⟨nonempty, ?_⟩
  intro sorted ranks r
  have ordered : sorted.Pairwise fun a b => decide (a ≤ b) = true := sorted_samples _
  have length : sorted.length = s.snapshot.length := (List.mergeSort_perm _ _).length_eq
  have pos : 0 < sorted.length := by rw [length]; exact List.length_pos.2 nonempty
  have ranked : ∀ k ∈ ranks, 1 ≤ k ∧ k ≤ sorted.length := fun k member => by
    obtain ⟨p, -, rfl⟩ := List.mem_map.1 member
    exact percentileRank_mem pos p
  -- the literals are nonnegative and increase, and so do their doubles and their ranks
  have literals : ([50, 95, 99, 999 / 10, 9999 / 100] : List ℚ).Pairwise fun p q => 0 ≤ p ∧ p ≤ q := by
    norm_num [List.pairwise_cons]
  have increasing : ranks.Sorted (· ≤ ·) := by
    simp only [ranks, List.Sorted, reportedPercentiles, List.map_map, List.pairwise_map]
    exact literals.imp fun le =>
      percentileRank_mono _ (toDouble_nonneg le.1) (toDouble_mono le.1 le.2)
  have values : [r.p50Us, r.p95Us, r.p99Us, r.p999Us, r.p9999Us] =
      ranks.map (fun k => toUs (sorted.getD (k - 1) 0)) := by
    simp only [r, ranks, computeStatsUs, if_neg recorded, percentile, reportedPercentiles,
      List.isEmpty_eq_false.2 (List.ne_nil_of_length_pos pos), List.map_cons, List.map_nil]
    rfl
  refine ⟨ranked, increasing, values, ?_⟩
  -- the report reads the sorted snapshot at 0, at the five ranks less one, and at `n - 1`
  have ends : r.minUs = toUs (sorted.getD 0 0) ∧ r.maxUs = toUs (sorted.getD (sorted.length - 1) 0) := by
    simp only [r, computeStatsUs, if_neg recorded, List.headD_eq_head?_getD, List.getLastD_eq_getLast?,
      List.head?_eq_getElem?, List.getLast?_eq_getElem?, List.getD_eq_getElem?_getD]
    exact ⟨trivial, trivial⟩
  have reads : [r.minUs, r.p50Us, r.p95Us, r.p99Us, r.p999Us, r.p9999Us, r.maxUs] =
      (0 :: (ranks.map (· - 1) ++ [sorted.length - 1])).map fun i => toUs (sorted.getD i 0) := by
    show r.minUs :: ([r.p50Us, r.p95Us, r.p99Us, r.p999Us, r.p9999Us] ++ [r.maxUs]) = _
    rw [values, ends.1, ends.2, List.map_cons, List.map_append, List.map_map]
    rfl
  obtain ⟨chain, inside⟩ := report_indices pos increasing ranked
  rw [reads]
  exact toUs_reads_sorted ordered chain inside

/-- Three samples into a ring of three. -/
theorem percentile_report_three :
    let s := (new 3).recordSamples [5, 1, 7]
    s.count ≠ 0 ∧ s.snapshot ≠ [] ∧
      (let sorted := s.snapshot.mergeSort fun a b => decide (a ≤ b)
       let ranks := reportedPercentiles.map (percentileRank sorted.length)
       let r := s.computeStatsUs
       (∀ k ∈ ranks, 1 ≤ k ∧ k ≤ sorted.length) ∧ ranks.Sorted (· ≤ ·) ∧
         [r.p50Us, r.p95Us, r.p99Us, r.p999Us, r.p9999Us] =
           ranks.map (fun k => toUs (sorted.getD (k - 1) 0)) ∧
         [r.minUs, r.p50Us, r.p95Us, r.p99Us, r.p999Us, r.p9999Us, r.maxUs].Sorted (· ≤ ·)) :=
  ⟨by decide, percentile_report_ordered _ (by decide)⟩

end LatencyStats

end UdpPeer.Stats
