import Mathlib.Data.Set.Lattice
import Mathlib.Order.Bounds.Basic
import Mathlib.Order.Lattice
import Mathlib.Order.MinMax

/-!
# The peak of some observations

An observation has a time, a level and a label. `Peak` says that a record keeps of a set of
observations the greatest time, the least upper bound of the levels and the label of the latest. It
does not depend on an order, and there is at most one (`Peak.unique`). A record that takes up the level
of a later observation and leaves an earlier one aside stays the peak exactly if the observation fits
(`Peak.absorb_iff`): what is left aside may not stand out.
-/

/-- An observation, or what is kept of some. -/
@[ext]
structure Observation (τ α β : Type) where
  time : τ
  level : α
  label : β

namespace Observation

variable {τ α β : Type} [LinearOrder τ] [SemilatticeSup α]

/-- What is kept of the observations. -/
structure Peak (s : Observation τ α β) (X : Set (Observation τ α β)) : Prop where
  time : IsGreatest (time '' X) s.time
  level : IsLUB (level '' X) s.level
  label : ∀ x ∈ X, x.time = s.time → x.label = s.label

variable {s t x : Observation τ α β} {X Y : Set (Observation τ α β)}

theorem peak_singleton (x : Observation τ α β) : x.Peak {x} where
  time := by
    rw [Set.image_singleton]
    exact isGreatest_singleton
  level := by
    rw [Set.image_singleton]
    exact isLUB_singleton
  label y hy _ := by rw [Set.mem_singleton_iff.1 hy]

/-- **The observations determine their peak.** -/
theorem Peak.unique (hs : s.Peak X) (ht : t.Peak X) : s = t := by
  have htime : s.time = t.time := hs.time.unique ht.time
  obtain ⟨x, hx, hxtime⟩ := hs.time.1
  refine Observation.ext htime (hs.level.unique ht.level) ?_
  rw [← hs.label x hx hxtime, ← ht.label x hx (hxtime.trans htime)]

/-- Two peaks, the second of which is later, as one. -/
theorem Peak.join (hs : s.Peak X) (ht : t.Peak Y) (hlt : s.time < t.time) :
    (⟨t.time, s.level ⊔ t.level, t.label⟩ : Observation τ α β).Peak (X ∪ Y) where
  time := by
    refine ⟨?_, ?_⟩
    · obtain ⟨y, hy, hytime⟩ := ht.time.1
      exact ⟨y, .inr hy, hytime⟩
    · rintro _ ⟨z, hz | hz, rfl⟩
      · exact (hs.time.2 ⟨z, hz, rfl⟩).trans hlt.le
      · exact ht.time.2 ⟨z, hz, rfl⟩
  level := by
    rw [Set.image_union]
    exact hs.level.union ht.level
  label z hz hztime := by
    rcases hz with hz | hz
    · exact absurd hztime ((hs.time.2 ⟨z, hz, rfl⟩).trans_lt hlt).ne
    · exact ht.label z hz hztime

/-! ## Observations one by one -/

/-- An observation is taken up unless it is earlier. -/
def absorb (s x : Observation τ α β) : Observation τ α β :=
  if s.time ≤ x.time then ⟨x.time, s.level ⊔ x.level, x.label⟩ else s

/-- The observation is later, or agrees at the same time, or does not stand out. -/
def Fits (s x : Observation τ α β) : Prop :=
  s.time < x.time ∨ s.time = x.time ∧ s.label = x.label ∨ x.time < s.time ∧ x.level ≤ s.level

/-- **The record stays the peak exactly if the observation fits.** -/
theorem Peak.absorb_iff (hs : s.Peak X) : (s.absorb x).Peak (insert x X) ↔ s.Fits x := by
  unfold absorb
  rcases lt_trichotomy s.time x.time with hlt | heq | hgt
  · rw [if_pos hlt.le]
    refine iff_of_true ?_ (.inl hlt)
    rw [Set.insert_eq, Set.union_comm]
    exact hs.join (peak_singleton x) hlt
  · rw [if_pos heq.le]
    obtain ⟨y, hy, hytime⟩ := hs.time.1
    constructor
    · intro h
      refine .inr (.inl ⟨heq, ?_⟩)
      rw [← hs.label y hy hytime]
      exact h.label y (.inr hy) (hytime.trans heq)
    · rintro (hlt | ⟨-, hlabel⟩ | ⟨hgt, -⟩)
      · exact absurd heq hlt.ne
      · refine ⟨⟨⟨x, .inl rfl, rfl⟩, ?_⟩, ?_, ?_⟩
        · rintro _ ⟨z, rfl | hz, rfl⟩
          · exact le_rfl
          · exact (hs.time.2 ⟨z, hz, rfl⟩).trans heq.le
        · rw [Set.image_insert_eq, sup_comm]
          exact hs.level.insert x.level
        · rintro z (rfl | hz) hztime
          · rfl
          · rw [← hlabel]
            exact hs.label z hz (hztime.trans heq.symm)
      · exact absurd heq hgt.ne'
  · rw [if_neg hgt.not_ge]
    constructor
    · intro h
      exact .inr (.inr ⟨hgt, h.level.1 ⟨x, .inl rfl, rfl⟩⟩)
    · rintro (hlt | ⟨heq, -⟩ | ⟨-, hle⟩)
      · exact absurd hlt hgt.not_gt
      · exact absurd heq hgt.ne'
      · refine ⟨⟨?_, ?_⟩, ⟨?_, ?_⟩, ?_⟩
        · obtain ⟨y, hy, hytime⟩ := hs.time.1
          exact ⟨y, .inr hy, hytime⟩
        · rintro _ ⟨z, rfl | hz, rfl⟩
          · exact hgt.le
          · exact hs.time.2 ⟨z, hz, rfl⟩
        · rintro _ ⟨z, rfl | hz, rfl⟩
          · exact hle
          · exact hs.level.1 ⟨z, hz, rfl⟩
        · intro b hb
          exact hs.level.2 fun a ⟨z, hz, ha⟩ => hb ⟨z, .inr hz, ha⟩
        · rintro z (rfl | hz) hztime
          · exact absurd hztime hgt.ne
          · exact hs.label z hz hztime

/-! ## Several records -/

/-- **A peak of peaks is the peak of all.** -/
theorem Peak.biUnion {ι : Type} {record : ι → Observation τ α β} {R : Set ι}
    {group : ι → Set (Observation τ α β)} (hrecord : ∀ r ∈ R, (record r).Peak (group r))
    (hs : s.Peak (record '' R)) : s.Peak (⋃ r ∈ R, group r) where
  time := by
    refine ⟨?_, ?_⟩
    · obtain ⟨_, ⟨r, hr, rfl⟩, hrtime⟩ := hs.time.1
      obtain ⟨x, hx, hxtime⟩ := (hrecord r hr).time.1
      exact ⟨x, Set.mem_biUnion hr hx, hxtime.trans hrtime⟩
    · rintro _ ⟨x, hx, rfl⟩
      obtain ⟨r, hr, hxr⟩ := Set.mem_iUnion₂.1 hx
      exact ((hrecord r hr).time.2 ⟨x, hxr, rfl⟩).trans (hs.time.2 ⟨_, ⟨r, hr, rfl⟩, rfl⟩)
  level := by
    refine ⟨?_, ?_⟩
    · rintro _ ⟨x, hx, rfl⟩
      obtain ⟨r, hr, hxr⟩ := Set.mem_iUnion₂.1 hx
      exact ((hrecord r hr).level.1 ⟨x, hxr, rfl⟩).trans (hs.level.1 ⟨_, ⟨r, hr, rfl⟩, rfl⟩)
    · intro b hb
      apply hs.level.2
      rintro _ ⟨_, ⟨r, hr, rfl⟩, rfl⟩
      apply (hrecord r hr).level.2
      rintro _ ⟨x, hxr, rfl⟩
      exact hb ⟨x, Set.mem_biUnion hr hxr, rfl⟩
  label x hx hxtime := by
    obtain ⟨r, hr, hxr⟩ := Set.mem_iUnion₂.1 hx
    have hle : x.time ≤ (record r).time := (hrecord r hr).time.2 ⟨x, hxr, rfl⟩
    have hge : (record r).time ≤ s.time := hs.time.2 ⟨_, ⟨r, hr, rfl⟩, rfl⟩
    have hrtime : (record r).time = s.time := le_antisymm hge (hxtime ▸ hle)
    rw [(hrecord r hr).label x hxr (hxtime.trans hrtime.symm)]
    exact hs.label _ ⟨r, hr, rfl⟩ hrtime

/-- What is kept of the levels in part. -/
def mapLevel {γ : Type} (g : α → γ) (s : Observation τ α β) : Observation τ γ β :=
  ⟨s.time, g s.level, s.label⟩

/-- A part of the levels that keeps least upper bounds. -/
theorem Peak.mapLevel {γ : Type} [SemilatticeSup γ] {g : α → γ}
    (hg : ∀ (S : Set α) (a : α), IsLUB S a → IsLUB (g '' S) (g a)) (hs : s.Peak X) :
    (s.mapLevel g).Peak (Observation.mapLevel g '' X) where
  time := by
    rw [Set.image_image]
    exact hs.time
  level := by
    rw [Set.image_image]
    have hlevel := hg _ _ hs.level
    rw [Set.image_image] at hlevel
    exact hlevel
  label := by
    rintro _ ⟨x, hx, rfl⟩ hxtime
    exact hs.label x hx hxtime

end Observation
