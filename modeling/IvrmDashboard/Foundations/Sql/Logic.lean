import Mathlib.Data.Option.Basic
import Mathlib.Data.Bool.Basic

/-!
# SQL truth values

A condition over columns that may be `NULL` has three values. `IF` and `WHERE` take the branch
only when the condition is true (`Tri.holds`); a `CHECK` constraint is violated only when it is
false (`Tri.checks`). Comparisons are strict: `NULL` on either side gives unknown, except for
`IS DISTINCT FROM`, which is the two-valued `isDistinct`.
-/

namespace Sql

/-- A SQL truth value; `none` is unknown. -/
abbrev Tri := Option Bool

namespace Tri

protected def not : Tri → Tri := Option.map (!·)

protected def and : Tri → Tri → Tri
  | some false, _ => some false
  | _, some false => some false
  | some true, some true => some true
  | _, _ => none

protected def or : Tri → Tri → Tri
  | some true, _ => some true
  | _, some true => some true
  | some false, some false => some false
  | _, _ => none

/-- The condition of an `IF` or a `WHERE` is met. -/
def holds (t : Tri) : Bool := t == some true

/-- A `CHECK` with this value lets the row through. -/
def checks (t : Tri) : Bool := t != some false

@[simp] theorem holds_some (b : Bool) : holds (some b) = b := by cases b <;> rfl

@[simp] theorem holds_none : holds none = false := rfl

@[simp] theorem holds_and (a b : Tri) : holds (a.and b) = (holds a && holds b) := by
  rcases a with _ | _ | _ <;> rcases b with _ | _ | _ <;> rfl

@[simp] theorem holds_or (a b : Tri) : holds (a.or b) = (holds a || holds b) := by
  rcases a with _ | _ | _ <;> rcases b with _ | _ | _ <;> rfl

/-- A conjunction of conditions. -/
def all (conditions : List Tri) : Tri := conditions.foldr Tri.and (some true)

theorem all_eq_true {conditions : List Tri} :
    all conditions = some true ↔ ∀ t ∈ conditions, t = some true := by
  induction conditions with
  | nil => simp [all]
  | cons t conditions ih =>
    have hcons : all (t :: conditions) = t.and (all conditions) := rfl
    rw [hcons, List.forall_mem_cons, ← ih]
    generalize all conditions = u
    rcases t with _ | _ | _ <;> rcases u with _ | _ | _ <;> simp [Tri.and]

/-- A conjunction of decided conditions is decided. -/
theorem isSome_all {conditions : List Tri} (h : ∀ t ∈ conditions, t.isSome) :
    (all conditions).isSome := by
  induction conditions with
  | nil => rfl
  | cons t conditions ih =>
    obtain ⟨ht, hrest⟩ := List.forall_mem_cons.1 h
    have hcons : all (t :: conditions) = t.and (all conditions) := rfl
    rw [hcons]
    have := ih hrest
    generalize all conditions = u at this
    rcases t with _ | _ | _ <;> rcases u with _ | _ | _ <;> simp_all [Tri.and]

end Tri

section Comparisons

variable {α : Type*}

/-- A strict comparison: unknown as soon as one side is `NULL`. -/
def compare (r : α → α → Bool) (a b : Option α) : Tri :=
  match a, b with
  | some x, some y => some (r x y)
  | _, _ => none

/-- `a = b` -/
def eq [DecidableEq α] : Option α → Option α → Tri := compare fun x y => decide (x = y)

/-- `a <> b` -/
def ne [DecidableEq α] : Option α → Option α → Tri := compare fun x y => decide (x ≠ y)

/-- `a IN (l)` for a list of constants. -/
def isIn [DecidableEq α] (a : Option α) (l : List α) : Tri := a.map fun x => decide (x ∈ l)

/-- `a NOT IN (l)` for a list of constants. -/
def notIn [DecidableEq α] (a : Option α) (l : List α) : Tri := (isIn a l).not

/-- `a IS DISTINCT FROM b` -/
def isDistinct [DecidableEq α] (a b : Option α) : Bool := decide (a ≠ b)

variable [DecidableEq α]

@[simp] theorem holds_eq (a b : Option α) : (eq a b).holds = true ↔ ∃ x, a = some x ∧ b = some x := by
  cases a <;> cases b <;> simp [eq, compare, eq_comm]

theorem eq_swap (a b : Option α) : eq a b = eq b a := by
  cases a <;> cases b <;> simp [eq, compare, eq_comm]

@[simp] theorem holds_ne_some (x y : α) : (ne (some x) (some y)).holds = decide (x ≠ y) := by
  simp [ne, compare]

@[simp] theorem holds_isIn_some (x : α) (l : List α) : (isIn (some x) l).holds = decide (x ∈ l) := by
  simp [isIn]

@[simp] theorem holds_notIn_some (x : α) (l : List α) :
    (notIn (some x) l).holds = decide (x ∉ l) := by
  simp [notIn, isIn, Tri.not]

@[simp] theorem isDistinct_eq_false (a b : Option α) : isDistinct a b = false ↔ a = b := by
  simp [isDistinct]

end Comparisons

end Sql
