import Mathlib

/-!
# `LatencyStats<Capacity>`

`recordSample` writes a sample at the write index and advances the index modulo `Capacity`, so
the ring keeps the latest `Capacity` samples. `computeStats` copies the retained samples out
before it sorts them: the first samples in order while the ring has not wrapped, and from the
write index around to it once it has.

Seen from the write index, the ring holds zeros for the slots not yet written and then the
retained samples, oldest first (`Holds.ring`). One `recordSample` drops the oldest slot of that
view and appends the new sample (`ringView_concat`), so the view of every run is its window of
the last `Capacity` samples, and `computeStats` copies out exactly that window.

The floating-point fields of `Result` (mean, deviation, percentiles, the conversion to
microseconds) are left out: `count` is modelled, and `min_us` and `max_us` as the samples they
are computed from.
-/

namespace UdpPeer.Stats

/-- `m_samples`, `m_writeIdx` and `m_count`. -/
structure LatencyStats (capacity : Nat) where
  samples : List UInt64
  writeIdx : Fin capacity
  count : UInt64
  samples_length : samples.length = capacity

structure Result where
  count : UInt64
  minNs : UInt64
  maxNs : UInt64
  deriving DecidableEq, Repr

def durationNs (start finish : Nat) : UInt64 := UInt64.ofNat (((finish : Int) - start) % 2 ^ 64).toNat

theorem durationNs_of_le {start finish : Nat} (after : start ≤ finish) :
    (durationNs start finish).toNat = (finish - start) % 2 ^ 64 := by
  rw [durationNs, ← Int.ofNat_sub after, show (2 : Int) ^ 64 = ((2 ^ 64 : Nat) : Int) from rfl,
    ← Int.ofNat_emod, Int.toNat_ofNat]
  exact Nat.mod_mod _ _

namespace LatencyStats

variable {capacity : Nat} [NeZero capacity]

def new (capacity : Nat) [NeZero capacity] : LatencyStats capacity :=
  ⟨List.replicate capacity 0, 0, 0, List.length_replicate _ _⟩

def recordSample (s : LatencyStats capacity) (latencyNs : UInt64) : LatencyStats capacity where
  samples := s.samples.set s.writeIdx latencyNs
  writeIdx := ⟨((s.writeIdx : Nat) + 1) % capacity, Nat.mod_lt _ (Nat.pos_of_neZero capacity)⟩
  count := s.count + 1
  samples_length := by rw [List.length_set, s.samples_length]

def recordSamples (s : LatencyStats capacity) (samples : List UInt64) : LatencyStats capacity :=
  samples.foldl recordSample s

/-- `recordSample(start, end)` -/
def recordSampleBetween (s : LatencyStats capacity) (start finish : Nat) : LatencyStats capacity :=
  s.recordSample (durationNs start finish)

def reset (s : LatencyStats capacity) : LatencyStats capacity :=
  { s with
    writeIdx := 0
    count := 0
    samples := List.replicate capacity 0
    samples_length := List.length_replicate _ _ }

theorem reset_eq_new (s : LatencyStats capacity) : s.reset = new capacity := rfl

def snapshot (s : LatencyStats capacity) : List UInt64 :=
  let totalCount := s.count.toNat
  let numSamples := if totalCount < capacity then totalCount else capacity
  if totalCount ≤ capacity then s.samples.take numSamples
  else
    let writePos : Nat := s.writeIdx
    s.samples.drop writePos ++ s.samples.take writePos

def computeStats (s : LatencyStats capacity) : Result :=
  if s.count = 0 then ⟨0, 0, 0⟩
  else
    let sorted := s.snapshot.mergeSort (fun a b => decide (a ≤ b))
    ⟨s.count, sorted.headD 0, sorted.getLastD 0⟩

omit [NeZero capacity] in
theorem computeStats_count (s : LatencyStats capacity) : s.computeStats.count = s.count := by
  unfold computeStats
  split
  · next zero => exact zero.symm
  · rfl

end LatencyStats

/-! ## The window of retained samples -/

/-- The latest `capacity` samples of `history`, oldest first. -/
def window (capacity : Nat) (history : List UInt64) : List UInt64 :=
  history.drop (history.length - min history.length capacity)

def ringView (capacity : Nat) (history : List UInt64) : List UInt64 :=
  List.replicate (capacity - min history.length capacity) 0 ++ window capacity history

theorem rotate_set_succ {α : Type} {ring : List α} {w : Nat} (inside : w < ring.length) (x : α) :
    (ring.set w x).rotate (w + 1) = (ring.rotate w).tail ++ [x] := by
  obtain ⟨A, y, B, rfl, rfl⟩ : ∃ A y B, ring = A ++ y :: B ∧ A.length = w :=
    ⟨_, _, _, (List.take_append_drop w ring).symm.trans (by rw [List.drop_eq_getElem_cons inside]),
      List.length_take_of_le inside.le⟩
  rw [List.set_append, if_neg (Nat.lt_irrefl _), Nat.sub_self, List.set_cons_zero,
    List.rotate_append_length_eq, show A ++ x :: B = (A ++ [x]) ++ B by simp,
    show A.length + 1 = (A ++ [x]).length by simp, List.rotate_append_length_eq]
  simp

theorem ringView_concat {capacity : Nat} (pos : 0 < capacity) (history : List UInt64) (x : UInt64) :
    (ringView capacity history).tail ++ [x] = ringView capacity (history ++ [x]) := by
  simp only [ringView, window, List.length_append, List.length_singleton]
  by_cases full : capacity ≤ history.length
  · -- the oldest retained sample leaves the window
    rw [Nat.min_eq_right full, Nat.min_eq_right (by omega), Nat.sub_self, List.replicate_zero,
      List.nil_append, List.nil_append, List.tail_drop,
      List.drop_append_of_le_length (by omega), show history.length + 1 - capacity =
        history.length - capacity + 1 by omega]
  · -- a slot never written leaves the view
    rw [Nat.min_eq_left (by omega), Nat.min_eq_left (by omega), Nat.sub_self, Nat.sub_self,
      List.drop_zero, List.drop_zero, show capacity - history.length =
        capacity - (history.length + 1) + 1 by omega, List.replicate_succ]
    simp

/-! ## Runs of `recordSample` -/

namespace LatencyStats

variable {capacity : Nat} [NeZero capacity]

/-- `s` is the ring after `history` was recorded into an empty one. -/
structure Holds (s : LatencyStats capacity) (history : List UInt64) : Prop where
  writeIdx : (s.writeIdx : Nat) = history.length % capacity
  count : s.count.toNat = history.length % 2 ^ 64
  ring : s.samples.rotate (history.length % capacity) = ringView capacity history

theorem holds_new : Holds (new capacity) [] where
  writeIdx := rfl
  count := rfl
  ring := by simp [new, ringView, window]

theorem Holds.record {s : LatencyStats capacity} {history : List UInt64} (holds : Holds s history)
    (x : UInt64) : Holds (s.recordSample x) (history ++ [x]) where
  writeIdx := by
    rw [List.length_append, List.length_singleton]
    show ((s.writeIdx : Nat) + 1) % capacity = (history.length + 1) % capacity
    rw [holds.writeIdx, Nat.mod_add_mod]
  count := by
    rw [List.length_append, List.length_singleton]
    show (s.count.toNat + 1) % 2 ^ 64 = (history.length + 1) % 2 ^ 64
    rw [holds.count, Nat.mod_add_mod]
  ring := by
    have inside : (s.writeIdx : Nat) < s.samples.length := by
      rw [s.samples_length]
      exact s.writeIdx.isLt
    have wrap := List.rotate_mod (s.samples.set s.writeIdx x) ((s.writeIdx : Nat) + 1)
    rw [List.length_set, s.samples_length] at wrap
    show (s.samples.set s.writeIdx x).rotate ((history ++ [x]).length % capacity) = _
    rw [List.length_append, List.length_singleton, ← Nat.mod_add_mod, ← holds.writeIdx, wrap,
      rotate_set_succ inside, holds.writeIdx, holds.ring,
      ringView_concat (Nat.pos_of_neZero capacity)]

theorem Holds.recordSamples {s : LatencyStats capacity} {history : List UInt64}
    (holds : Holds s history) (samples : List UInt64) :
    Holds (s.recordSamples samples) (history ++ samples) := by
  induction samples generalizing s history with
  | nil => simpa [LatencyStats.recordSamples] using holds
  | cons x samples ih =>
    have after := ih (holds.record x)
    rwa [List.append_assoc, List.singleton_append] at after

omit [NeZero capacity] in
theorem Holds.snapshot {s : LatencyStats capacity} {history : List UInt64} (holds : Holds s history)
    (few : history.length < 2 ^ 64) : s.snapshot = window capacity history := by
  have count : s.count.toNat = history.length := by rw [holds.count, Nat.mod_eq_of_lt few]
  have ring := holds.ring
  simp only [LatencyStats.snapshot, count]
  by_cases wrapped : capacity < history.length
  · -- from the write index around to it
    rw [if_neg (by omega), ← List.rotate_eq_drop_append_take
      (by rw [s.samples_length]; exact s.writeIdx.isLt.le), holds.writeIdx, ring]
    simp only [ringView, Nat.min_eq_right wrapped.le, Nat.sub_self, List.replicate_zero,
      List.nil_append]
  · -- the first samples, the slots after them never written
    rw [if_pos (by omega)]
    simp only [ringView, window, Nat.min_eq_left (Nat.le_of_not_lt wrapped), Nat.sub_self,
      List.drop_zero] at ring ⊢
    rcases Nat.lt_or_ge history.length capacity with short | full
    · rw [if_pos short]
      rw [Nat.mod_eq_of_lt short, List.rotate_eq_drop_append_take
        (by rw [s.samples_length]; exact short.le)] at ring
      exact (List.append_inj ring (by simp [s.samples_length])).2
    · have full : history.length = capacity := by omega
      rw [if_neg (by omega), List.take_of_length_le (by rw [s.samples_length])]
      rw [full, Nat.mod_self, List.rotate_zero, Nat.sub_self, List.replicate_zero,
        List.nil_append] at ring
      exact ring

end LatencyStats

/-! ## Minimum and maximum -/

theorem uint64_le_iff (a b : UInt64) : a ≤ b ↔ a.toNat ≤ b.toNat := Iff.rfl

theorem sorted_samples (l : List UInt64) :
    (l.mergeSort (fun a b => decide (a ≤ b))).Pairwise (fun a b => decide (a ≤ b) = true) :=
  @List.sorted_mergeSort _ (fun a b => decide (a ≤ b))
    (fun a b c ab bc => by simp only [decide_eq_true_iff, uint64_le_iff] at *; omega)
    (fun a b => by simp only [Bool.or_eq_true, decide_eq_true_iff, uint64_le_iff]; omega) l

theorem headD_least {l sorted : List UInt64} (perm : sorted.Perm l)
    (ordered : sorted.Pairwise (fun a b => decide (a ≤ b) = true)) (nonempty : l ≠ []) :
    sorted.headD 0 ∈ l ∧ ∀ y ∈ l, sorted.headD 0 ≤ y := by
  match sorted, perm, ordered with
  | [], perm, _ => exact absurd (List.perm_nil.1 perm.symm) nonempty
  | a :: rest, perm, ordered =>
    have mem (y : UInt64) : y ∈ l ↔ y = a ∨ y ∈ rest := by rw [← perm.mem_iff, List.mem_cons]
    refine ⟨(mem a).2 (.inl rfl), fun y member => ?_⟩
    rcases (mem y).1 member with rfl | later
    · exact (uint64_le_iff _ _).2 le_rfl
    · simpa using List.rel_of_pairwise_cons ordered later

theorem getLastD_greatest {l sorted : List UInt64} (perm : sorted.Perm l)
    (ordered : sorted.Pairwise (fun a b => decide (a ≤ b) = true)) (nonempty : l ≠ []) :
    sorted.getLastD 0 ∈ l ∧ ∀ y ∈ l, y ≤ sorted.getLastD 0 := by
  rcases List.eq_nil_or_concat sorted with rfl | ⟨front, b, rfl⟩
  · exact absurd (List.perm_nil.1 perm.symm) nonempty
  · rw [List.concat_eq_append] at perm ordered ⊢
    have mem (y : UInt64) : y ∈ l ↔ y ∈ front ∨ y = b := by
      rw [← perm.mem_iff, List.mem_append, List.mem_singleton]
    rw [List.pairwise_append] at ordered
    simp only [List.getLastD_eq_getLast?, List.getLast?_concat, Option.getD_some]
    refine ⟨(mem b).2 (.inr rfl), fun y member => ?_⟩
    rcases (mem y).1 member with earlier | rfl
    · simpa using ordered.2.2 y earlier b (List.mem_singleton_self b)
    · exact (uint64_le_iff _ _).2 le_rfl

theorem window_length (capacity : Nat) (history : List UInt64) :
    (window capacity history).length = min history.length capacity := by
  simp only [window, List.length_drop]
  omega

/-! ## The sample ring over a whole run -/

namespace LatencyStats

variable {capacity : Nat} [NeZero capacity]

theorem recorded_window (start : LatencyStats capacity)
    (fresh : start = new capacity ∨ ∃ s : LatencyStats capacity, start = s.reset)
    (samples : List UInt64) (few : samples.length < 2 ^ 64) :
    let s := start.recordSamples samples
    let retained := window capacity samples
    (s.writeIdx : Nat) = samples.length % capacity ∧ s.snapshot = retained ∧
    s.computeStats.count.toNat = samples.length ∧
    (samples ≠ [] →
      s.computeStats.minNs ∈ retained ∧ (∀ y ∈ retained, s.computeStats.minNs ≤ y) ∧
      s.computeStats.maxNs ∈ retained ∧ ∀ y ∈ retained, y ≤ s.computeStats.maxNs) := by
  intro s retained
  have empty : start = new capacity := by
    rcases fresh with rfl | ⟨s, rfl⟩
    · rfl
    · exact reset_eq_new s
  have holds : Holds s samples := by simpa [s, empty] using holds_new.recordSamples samples
  have count : s.count.toNat = samples.length := by rw [holds.count, Nat.mod_eq_of_lt few]
  have snapshot : s.snapshot = retained := holds.snapshot few
  refine ⟨holds.writeIdx, snapshot, by rw [computeStats_count, count], fun nonempty => ?_⟩
  have counted : s.count ≠ 0 := fun zero => nonempty (List.length_eq_zero.1 (by
    rw [← count, zero]
    rfl))
  have kept : retained ≠ [] := fun none => nonempty (List.length_eq_zero.1 (by
    have := window_length capacity samples
    rw [show window capacity samples = [] from none, List.length_nil] at this
    have := Nat.pos_of_neZero capacity
    omega))
  simp only [computeStats, if_neg counted, snapshot]
  exact ⟨(headD_least (List.mergeSort_perm _ _) (sorted_samples _) kept).1,
    (headD_least (List.mergeSort_perm _ _) (sorted_samples _) kept).2,
    getLastD_greatest (List.mergeSort_perm _ _) (sorted_samples _) kept⟩

/-- Four samples into a ring of three, which wraps once. -/
theorem recorded_window_wrapped :
    let samples : List UInt64 := [5, 1, 7, 2]
    (new 3 = new 3 ∨ ∃ s : LatencyStats 3, new 3 = s.reset) ∧ samples.length < 2 ^ 64 ∧
    let s := (new 3).recordSamples samples
    let retained := window 3 samples
    (s.writeIdx : Nat) = samples.length % 3 ∧ s.snapshot = retained ∧
    s.computeStats.count.toNat = samples.length ∧
    (samples ≠ [] →
      s.computeStats.minNs ∈ retained ∧ (∀ y ∈ retained, s.computeStats.minNs ≤ y) ∧
      s.computeStats.maxNs ∈ retained ∧ ∀ y ∈ retained, y ≤ s.computeStats.maxNs) :=
  ⟨.inl rfl, by decide, recorded_window (new 3) (.inl rfl) [5, 1, 7, 2] (by decide)⟩

end LatencyStats

end UdpPeer.Stats
