import Mathlib.Data.List.Induction
import Mathlib.Order.Lattice

/-!
# A register that keeps the newest entry

Entries arrive in any order, each with its time. The register takes an entry that is newer than the
one it holds and drops every other (`keep`). After a list of entries it holds the first of those
with the greatest time (`newest_eq_some`): every entry before it is older, none after it is newer.
-/

namespace Newest

variable {α τ : Type*} [LinearOrder τ] (time : α → τ)

/-- The entry is newer than what the register holds. -/
def Newer (held : Option α) (a : α) : Prop := ∀ b ∈ held, time b < time a

instance (held : Option α) (a : α) : Decidable (Newer time held a) :=
  match held with
  | none => isTrue nofun
  | some b => decidable_of_iff (time b < time a) (by simp [Newer])

/-- The register after an entry. -/
def keep (held : Option α) (a : α) : Option α := if Newer time held a then some a else held

/-- The register after a list of entries. -/
def newest (l : List α) : Option α := l.foldl (keep time) none

/-- The entry is the first of those with the greatest time. -/
def IsNewest (l : List α) (x : α) : Prop :=
  ∃ front back, l = front ++ x :: back ∧ (∀ a ∈ front, time a < time x) ∧
    ∀ a ∈ back, time a ≤ time x

variable {time} {l : List α} {a x y : α}

@[simp] theorem newest_nil : newest time [] = none := rfl

theorem newest_concat (l : List α) (a : α) :
    newest time (l ++ [a]) = keep time (newest time l) a := by
  rw [newest, List.foldl_append]
  rfl

theorem IsNewest.le (h : IsNewest time l x) (ha : a ∈ l) : time a ≤ time x := by
  obtain ⟨front, back, rfl, hfront, hback⟩ := h
  rcases List.mem_append.1 ha with ha | ha
  · exact le_of_lt (hfront a ha)
  · rcases List.mem_cons.1 ha with rfl | ha
    · exact le_refl _
    · exact hback a ha

theorem IsNewest.mem (h : IsNewest time l x) : x ∈ l := by
  obtain ⟨front, back, rfl, -⟩ := h
  exact List.mem_append_right _ List.mem_cons_self

/-- Another entry that is not newer changes nothing. -/
theorem IsNewest.concat_old (h : IsNewest time l x) (ha : time a ≤ time x) :
    IsNewest time (l ++ [a]) x := by
  obtain ⟨front, back, rfl, hfront, hback⟩ := h
  refine ⟨front, back ++ [a], by rw [List.append_assoc, List.cons_append], hfront, ?_⟩
  intro b hb
  rcases List.mem_append.1 hb with hb | hb
  · exact hback b hb
  · rw [List.mem_singleton.1 hb]
    exact ha

theorem isNewest_concat_new (h : ∀ b ∈ l, time b < time a) : IsNewest time (l ++ [a]) a :=
  ⟨l, [], rfl, h, nofun⟩

theorem IsNewest.eq (hx : IsNewest time l x) (hy : IsNewest time l y) : x = y := by
  have heq : time x = time y := le_antisymm (hy.le hx.mem) (hx.le hy.mem)
  obtain ⟨front, back, hl, hfront, -⟩ := hx
  obtain ⟨front', back', hl', hfront', -⟩ := hy
  -- neither of the two can stand before the other
  rcases List.append_eq_append_iff.1 (hl.symm.trans hl') with ⟨m, rfl, hm⟩ | ⟨m, rfl, hm⟩
  · cases m with
    | nil => exact (List.cons.inj hm).1
    | cons b m =>
      obtain ⟨rfl, -⟩ := List.cons.inj hm
      exact absurd heq (ne_of_lt (hfront' x (by simp)))
  · cases m with
    | nil => exact (List.cons.inj hm).1.symm
    | cons b m =>
      obtain ⟨rfl, -⟩ := List.cons.inj hm
      exact absurd heq.symm (ne_of_lt (hfront y (by simp)))

theorem newest_spec (l : List α) :
    (l = [] ∧ newest time l = none) ∨ ∃ x, IsNewest time l x ∧ newest time l = some x := by
  induction l using List.reverseRecOn with
  | nil => exact .inl ⟨rfl, rfl⟩
  | append_singleton l a ih =>
    refine .inr ?_
    rw [newest_concat, keep]
    rcases ih with ⟨rfl, hnone⟩ | ⟨x, hx, hsome⟩
    · refine ⟨a, isNewest_concat_new nofun, ?_⟩
      rw [hnone, if_pos nofun]
    · rw [hsome]
      by_cases h : time x < time a
      · refine ⟨a, isNewest_concat_new fun b hb => lt_of_le_of_lt (hx.le hb) h, ?_⟩
        exact if_pos fun b hb => Option.some.inj hb ▸ h
      · refine ⟨x, hx.concat_old (le_of_not_gt h), ?_⟩
        exact if_neg fun hn => h (hn x rfl)

theorem newest_eq_some : newest time l = some x ↔ IsNewest time l x := by
  rcases @newest_spec _ _ _ time l with ⟨rfl, hnone⟩ | ⟨y, hy, hsome⟩
  · refine iff_of_false (by rw [hnone]; exact nofun) fun h => absurd h.mem List.not_mem_nil
  · rw [hsome, Option.some.injEq]
    constructor
    · rintro rfl
      exact hy
    · exact hy.eq

theorem newest_eq_none : newest time l = none ↔ l = [] := by
  rcases @newest_spec _ _ _ time l with ⟨rfl, -⟩ | ⟨y, hy, hsome⟩
  · exact iff_of_true rfl rfl
  · refine iff_of_false (by rw [hsome]; exact nofun) ?_
    rintro rfl
    exact absurd hy.mem List.not_mem_nil

end Newest
