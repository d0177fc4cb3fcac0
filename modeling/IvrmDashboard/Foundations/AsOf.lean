import Mathlib.Data.Int.Order.Basic
import Mathlib.Data.List.TakeWhile

/-!
# Calls up to a time

A list of calls in the order of their commits, cut at a time: who looks at time `t` sees the calls
of `upTo clock t calls`. Later on there are more of them, and all the further ones have committed
after `t` (`exists_upTo_append`).
-/

namespace Runs

variable {α : Type*} (clock : α → ℤ)

/-- The calls that have committed by `t`. -/
def upTo (t : ℤ) (calls : List α) : List α := calls.takeWhile (clock · ≤ t)

/-- The calls come in the order of their commits. -/
def Committed (calls : List α) : Prop := calls.Pairwise fun x y => clock x ≤ clock y

variable {clock} {t t' : ℤ} {calls : List α}

theorem clock_le_of_mem_upTo {x : α} (hx : x ∈ upTo clock t calls) : clock x ≤ t := by
  have h := List.mem_takeWhile_imp hx
  exact of_decide_eq_true h

theorem upTo_prefix_append (t : ℤ) (calls : List α) :
    upTo clock t calls ++ calls.dropWhile (clock · ≤ t) = calls :=
  List.takeWhile_append_dropWhile

theorem lt_clock_of_mem_dropWhile (h : Committed clock calls) :
    ∀ x ∈ calls.dropWhile (clock · ≤ t), t < clock x := by
  induction calls with
  | nil => simp
  | cons a calls ih =>
    obtain ⟨ha, htail⟩ := List.pairwise_cons.1 h
    rw [List.dropWhile_cons]
    split
    next => exact ih htail
    next hlt =>
      have hlt : t < clock a := by simpa using hlt
      intro x hx
      rcases List.mem_cons.1 hx with rfl | hx
      · exact hlt
      · exact hlt.trans_le (ha x hx)

theorem Committed.upTo (h : Committed clock calls) (t : ℤ) :
    Committed clock (upTo clock t calls) :=
  h.sublist (List.takeWhile_sublist _)

/-- The calls that follow those up to `t`. -/
theorem exists_append (h : Committed clock calls) (t : ℤ) :
    ∃ back, calls = upTo clock t calls ++ back ∧ ∀ x ∈ back, t < clock x :=
  ⟨_, (upTo_prefix_append t calls).symm, lt_clock_of_mem_dropWhile h⟩

/-- **Later there are only more calls.** -/
theorem exists_upTo_append (h : Committed clock calls) (hle : t ≤ t') :
    ∃ middle, upTo clock t' calls = upTo clock t calls ++ middle ∧ ∀ x ∈ middle, t < clock x := by
  obtain ⟨middle, hsplit, hmiddle⟩ := exists_append (h.upTo t') t
  have hfront : upTo clock t (upTo clock t' calls) = upTo clock t calls := by
    rw [upTo, upTo, upTo, List.takeWhile_takeWhile]
    congr 1
    funext x
    have : clock x ≤ t → clock x ≤ t' := fun hx => hx.trans hle
    simpa using this
  exact ⟨middle, by rw [← hfront]; exact hsplit, hmiddle⟩

end Runs
