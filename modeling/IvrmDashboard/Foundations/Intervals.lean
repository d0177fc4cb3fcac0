import Mathlib

/-!
# Intervals of time

Half-open intervals between whole numbers, the instants they cover together, and the length of what
they cover. `HasLength` is kept by unions of sets that lie apart, which is what a sweep over sorted
intervals adds up.
-/

open MeasureTheory

/-- The instants from `start` until before `finish`. -/
structure Period where
  start : ℤ
  finish : ℤ
  deriving DecidableEq

namespace Period

/-- The instants of an interval. -/
def points (i : Period) : Set ℝ := Set.Ico (i.start : ℝ) i.finish

theorem mem_points {i : Period} {t : ℝ} : t ∈ i.points ↔ (i.start : ℝ) ≤ t ∧ t < i.finish :=
  Iff.rfl

/-- The instants that some interval of the list covers. -/
def covered (l : List Period) : Set ℝ := {t | ∃ i ∈ l, t ∈ i.points}

theorem mem_covered {l : List Period} {t : ℝ} : t ∈ covered l ↔ ∃ i ∈ l, t ∈ i.points := Iff.rfl

@[simp] theorem covered_nil : covered [] = ∅ := by
  ext t
  simp [covered]

@[simp] theorem covered_cons (i : Period) (l : List Period) :
    covered (i :: l) = i.points ∪ covered l := by
  ext t
  simp [covered]

@[simp] theorem covered_append (l l' : List Period) :
    covered (l ++ l') = covered l ∪ covered l' := by
  ext t
  simp [covered, or_and_right, exists_or]

theorem covered_flatMap {α : Type*} (f : α → List Period) (l : List α) :
    covered (l.flatMap f) = {t | ∃ a ∈ l, t ∈ covered (f a)} := by
  ext t
  rw [Set.mem_ofPred_eq]
  simp only [mem_covered, List.mem_flatMap]
  constructor
  · rintro ⟨i, ⟨a, ha, hi⟩, ht⟩
    exact ⟨a, ha, i, hi, ht⟩
  · rintro ⟨a, ha, i, hi, ht⟩
    exact ⟨i, ⟨a, ha, hi⟩, ht⟩

theorem covered_perm {l l' : List Period} (h : l.Perm l') : covered l = covered l' := by
  ext t
  simp only [mem_covered, h.mem_iff]

/-- Two intervals that overlap or touch make one. -/
theorem points_union_points {i j : Period} (hstart : i.start ≤ j.start)
    (htouch : j.start ≤ i.finish) :
    i.points ∪ j.points = points ⟨i.start, max i.finish j.finish⟩ := by
  have hstart : (i.start : ℝ) ≤ j.start := Int.cast_le.2 hstart
  have htouch : (j.start : ℝ) ≤ i.finish := Int.cast_le.2 htouch
  ext t
  simp only [Set.mem_union, mem_points, Int.cast_max, lt_max_iff]
  constructor
  · rintro (⟨hs, hf⟩ | ⟨hs, hf⟩)
    · exact ⟨hs, .inl hf⟩
    · exact ⟨hstart.trans hs, .inr hf⟩
  · rintro ⟨hs, hf | hf⟩
    · exact .inl ⟨hs, hf⟩
    · rcases lt_or_ge t i.finish with h | h
      · exact .inl ⟨hs, h⟩
      · exact .inr ⟨htouch.trans h, hf⟩

/-- What begins after an interval is over lies apart from it. -/
theorem disjoint_covered {i : Period} {l : List Period} (h : ∀ j ∈ l, i.finish ≤ j.start) :
    Disjoint i.points (covered l) := by
  rw [Set.disjoint_left]
  rintro t ht ⟨j, hj, htj⟩
  have hle : (i.finish : ℝ) ≤ j.start := Int.cast_le.2 (h j hj)
  exact absurd (hle.trans htj.1) (not_le.2 ht.2)

end Period

/-! ## Length -/

/-- A set of instants of the length `n`. -/
structure HasLength (s : Set ℝ) (n : ℤ) : Prop where
  measurable : MeasurableSet s
  nonneg : 0 ≤ n
  volume_eq : volume s = ENNReal.ofReal n

namespace HasLength

theorem empty : HasLength ∅ 0 := ⟨.empty, le_rfl, by simp⟩

theorem points {i : Period} (h : i.start ≤ i.finish) :
    HasLength i.points (i.finish - i.start) where
  measurable := measurableSet_Ico
  nonneg := Int.sub_nonneg.2 h
  volume_eq := by rw [Period.points, Real.volume_Ico, Int.cast_sub]

theorem union {s t : Set ℝ} {m n : ℤ} (hs : HasLength s m) (ht : HasLength t n)
    (hd : Disjoint s t) : HasLength (s ∪ t) (m + n) where
  measurable := hs.measurable.union ht.measurable
  nonneg := Int.add_nonneg hs.nonneg ht.nonneg
  volume_eq := by
    rw [measure_union hd ht.measurable, hs.volume_eq, ht.volume_eq, Int.cast_add,
      ENNReal.ofReal_add (Int.cast_nonneg hs.nonneg) (Int.cast_nonneg ht.nonneg)]

variable {s t : Set ℝ} {m n : ℤ}

theorem real_volume (h : HasLength s n) : volume.real s = n := by
  rw [Measure.real, h.volume_eq, ENNReal.toReal_ofReal (Int.cast_nonneg h.nonneg)]

theorem mono (hs : HasLength s m) (ht : HasLength t n) (hle : s ⊆ t) : m ≤ n := by
  have hvolume := measure_mono (μ := volume) hle
  rw [hs.volume_eq, ht.volume_eq, ENNReal.ofReal_le_ofReal_iff (Int.cast_nonneg ht.nonneg)] at hvolume
  exact Int.cast_le.1 hvolume

end HasLength
