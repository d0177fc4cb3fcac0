import Mathlib.Data.List.Basic
import Mathlib.Order.Lattice

/-!
# A switch that ignores what is old

Reports turn a switch on or off, each as of a time. A report older than the last one seen is
dropped, and the first report that turns it on creates it. So a report of the present does not
always win: the reports of one pass, which all say the same, leave the switch as they say exactly
if it is already so, or does not exist yet, or one of them is not older than what was last seen
(`isOn_foldl_see`).
-/

/-- Whether it is on, and the time of the last report that was not dropped. -/
structure Switch (τ : Type*) where
  on : Bool
  seen : τ

namespace Switch

variable {τ : Type*} [LinearOrder τ]

/-- The switch after a report. To turn off what is off is not recorded. -/
def see (s : Option (Switch τ)) (r : Bool × τ) : Option (Switch τ) :=
  match s with
  | none => if r.1 then some ⟨true, r.2⟩ else none
  | some s => if r.2 < s.seen then some s else if r.1 || s.on then some ⟨r.1, r.2⟩ else some s

/-- A switch that does not exist is off. -/
def isOn (s : Option (Switch τ)) : Bool := s.any (·.on)

/-- The report is not older than what was last seen. -/
def Fresh (s : Option (Switch τ)) (t : τ) : Prop := ∀ sw ∈ s, sw.seen ≤ t

instance (s : Option (Switch τ)) (t : τ) : Decidable (Fresh s t) :=
  match s with
  | none => isTrue nofun
  | some sw => decidable_of_iff (sw.seen ≤ t) (by simp [Fresh])

variable {s : Option (Switch τ)} {b : Bool} {t : τ}

theorem isOn_see_of_fresh (h : Fresh s t) : isOn (see s (b, t)) = b := by
  cases s with
  | none => cases b <;> rfl
  | some sw =>
    have hlt : ¬ t < sw.seen := not_lt.2 (h sw rfl)
    obtain ⟨on, seen⟩ := sw
    cases b <;> cases on <;> simp [see, isOn, hlt]

theorem see_of_not_fresh (h : ¬ Fresh s t) : see s (b, t) = s := by
  cases s with
  | none => exact absurd nofun h
  | some sw =>
    have hlt : t < sw.seen := by
      by_contra hle
      exact h fun sw' hsw' => Option.some.inj hsw' ▸ not_lt.1 hle
    exact if_pos hlt

theorem isOn_see_of_eq (h : isOn s = b) : isOn (see s (b, t)) = b := by
  by_cases hfresh : Fresh s t
  · exact isOn_see_of_fresh hfresh
  · rw [see_of_not_fresh hfresh]
    exact h

theorem isOn_foldl_of_eq {times : List τ} (h : isOn s = b) :
    isOn ((times.map fun t => (b, t)).foldl see s) = b := by
  induction times generalizing s with
  | nil => exact h
  | cons t times ih => exact ih (isOn_see_of_eq h)

/-- **When a pass leaves the switch as it says.** -/
theorem isOn_foldl_see {times : List τ} :
    isOn ((times.map fun t => (b, t)).foldl see s) = b ↔ isOn s = b ∨ ∃ t ∈ times, Fresh s t := by
  induction times with
  | nil =>
    rw [List.map_nil, List.foldl_nil]
    constructor
    · exact .inl
    · rintro (h | ⟨t, ht, -⟩)
      · exact h
      · exact absurd ht List.not_mem_nil
  | cons t times ih =>
    rw [List.map_cons, List.foldl_cons]
    by_cases hfresh : Fresh s t
    · refine iff_of_true (isOn_foldl_of_eq (isOn_see_of_fresh hfresh)) ?_
      exact .inr ⟨t, List.mem_cons_self, hfresh⟩
    · rw [see_of_not_fresh hfresh, ih]
      constructor
      · rintro (h | ⟨u, hu, hu'⟩)
        · exact .inl h
        · exact .inr ⟨u, List.mem_cons_of_mem _ hu, hu'⟩
      · rintro (h | ⟨u, hu, hu'⟩)
        · exact .inl h
        · rcases List.mem_cons.1 hu with rfl | hu
          · exact absurd hu' hfresh
          · exact .inr ⟨u, hu, hu'⟩

end Switch
