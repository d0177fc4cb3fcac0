import Mathlib.Data.List.Sort

/-!
# Rows in order

`orderBy` is the `ORDER BY` of a query; rows that compare equal keep the order of the table.
-/

namespace Sql

variable {α : Type*} (le : α → α → Bool)

/-- `order by` -/
def orderBy (rows : List α) : List α := rows.insertionSort fun a b => le a b = true

@[simp] theorem mem_orderBy {rows : List α} {a : α} : a ∈ orderBy le rows ↔ a ∈ rows :=
  List.mem_insertionSort _

@[simp] theorem orderBy_eq_nil {rows : List α} : orderBy le rows = [] ↔ rows = [] := by
  rw [← List.length_eq_zero_iff, ← List.length_eq_zero_iff, orderBy, List.length_insertionSort]

@[simp] theorem length_orderBy {rows : List α} : (orderBy le rows).length = rows.length :=
  List.length_insertionSort _ rows

theorem orderBy_perm {rows : List α} : (orderBy le rows).Perm rows := List.perm_insertionSort _ rows

/-- `order by … limit 1` -/
def firstBy (rows : List α) : Option α := (orderBy le rows).head?

variable {le}

theorem mem_of_firstBy {rows : List α} {a : α} (h : firstBy le rows = some a) : a ∈ rows :=
  (mem_orderBy le).1 (List.mem_of_head? h)

@[simp] theorem firstBy_eq_none {rows : List α} : firstBy le rows = none ↔ rows = [] := by
  rw [firstBy, List.head?_eq_none_iff, orderBy_eq_nil]

/-- Nothing comes before the first row, in an order that is total and transitive. -/
theorem firstBy_le {rows : List α} {a b : α} (htotal : ∀ a b, le a b = true ∨ le b a = true)
    (htrans : ∀ a b c, le a b = true → le b c = true → le a c = true)
    (h : firstBy le rows = some a) (hb : b ∈ rows) : le a b = true := by
  have : Std.Total fun a b => le a b = true := ⟨htotal⟩
  have : IsTrans α fun a b => le a b = true := ⟨htrans⟩
  have hsorted : (orderBy le rows).Pairwise fun a b => le a b = true :=
    List.pairwise_insertionSort _ rows
  have hmem : b ∈ orderBy le rows := (mem_orderBy le).2 hb
  obtain ⟨tail, htail⟩ := List.head?_eq_some_iff.1 h
  rw [htail] at hsorted hmem
  rcases List.mem_cons.1 hmem with rfl | hmem
  · exact (htotal b b).elim id id
  · exact (List.pairwise_cons.1 hsorted).1 b hmem

/-- `order by … limit n` takes first what comes first. -/
theorem le_of_mem_take_orderBy {rows : List α} {n : ℕ} {a b : α}
    (htotal : ∀ a b, le a b = true ∨ le b a = true)
    (htrans : ∀ a b c, le a b = true → le b c = true → le a c = true)
    (ha : a ∈ (orderBy le rows).take n) (hb : b ∈ rows) (hb' : b ∉ (orderBy le rows).take n) :
    le a b = true := by
  have : Std.Total fun a b => le a b = true := ⟨htotal⟩
  have : IsTrans α fun a b => le a b = true := ⟨htrans⟩
  have hsorted : (orderBy le rows).Pairwise fun a b => le a b = true :=
    List.pairwise_insertionSort _ rows
  have hmem : b ∈ orderBy le rows := (mem_orderBy le).2 hb
  rw [← List.take_append_drop n (orderBy le rows)] at hsorted hmem
  have hdrop : b ∈ (orderBy le rows).drop n := (List.mem_append.1 hmem).resolve_left hb'
  exact (List.pairwise_append.1 hsorted).2.2 a ha b hdrop

/-! ## Unique indexes -/

/-- Rows no two of which are in a relation that all of them share are at most one. -/
theorem length_le_one_of_pairwise {R : α → α → Prop} {rows : List α} (h : rows.Pairwise R)
    (hno : ∀ a ∈ rows, ∀ b ∈ rows, ¬ R a b) : rows.length ≤ 1 := by
  match rows, h with
  | [], _ => exact Nat.zero_le 1
  | [a], _ => exact Nat.le_refl 1
  | a :: b :: rows, h =>
    have hab : R a b := (List.pairwise_cons.1 h).1 b List.mem_cons_self
    exact absurd hab (hno a (by simp) b (by simp))

/-- A lookup under a unique key finds the row that is there. -/
theorem find?_eq_some_of_unique {p : α → Bool} {rows : List α} {a : α} (ha : a ∈ rows)
    (hpa : p a = true) (h : ∀ b ∈ rows, p b = true → b = a) : rows.find? p = some a := by
  cases hfind : rows.find? p with
  | none => exact absurd hpa (List.find?_eq_none.1 hfind a ha)
  | some b => rw [h b (List.mem_of_find?_eq_some hfind) (List.find?_some hfind)]

/-- What one row of a unique key yields, when the others yield nothing. -/
theorem flatMap_eq_of_unique {β κ : Type*} {key : α → κ} {f : α → List β} {rows : List α} {a : α}
    (hkey : (rows.map key).Nodup) (ha : a ∈ rows) (h : ∀ b ∈ rows, key b ≠ key a → f b = []) :
    rows.flatMap f = f a := by
  have hnil : ∀ l : List α, (∀ b ∈ l, f b = []) → l.flatMap f = [] := by
    intro l hl
    exact List.flatMap_eq_nil_iff.2 hl
  obtain ⟨front, back, rfl⟩ := List.append_of_mem ha
  rw [List.map_append, List.map_cons, List.nodup_append] at hkey
  obtain ⟨-, hback, hfront⟩ := hkey
  rw [List.flatMap_append, List.flatMap_cons, hnil front, hnil back, List.append_nil,
    List.nil_append]
  · intro b hb
    apply h b (by simp [hb])
    intro heq
    exact (List.nodup_cons.1 hback).1 (heq ▸ List.mem_map_of_mem hb)
  · intro b hb
    apply h b (by simp [hb])
    exact hfront _ (List.mem_map_of_mem hb) _ List.mem_cons_self

/-! ## Updates -/

/-- `update … set … where …` -/
def updateWhere (p : α → Bool) (f : α → α) (rows : List α) : List α :=
  rows.map fun a => if p a then f a else a

variable {p : α → Bool} {f : α → α} {rows : List α}

theorem mem_updateWhere {b : α} :
    b ∈ updateWhere p f rows ↔ ∃ a ∈ rows, (if p a then f a else a) = b :=
  List.mem_map

@[simp] theorem length_updateWhere : (updateWhere p f rows).length = rows.length :=
  List.length_map ..

/-- A column the update leaves as it is in the rows it concerns. -/
theorem map_updateWhere_of_mem {β : Type*} {g : α → β}
    (h : ∀ a ∈ rows, p a = true → g (f a) = g a) :
    (updateWhere p f rows).map g = rows.map g := by
  rw [updateWhere, List.map_map]
  refine List.map_congr_left fun a ha => ?_
  rw [Function.comp_apply]
  split
  next hp => exact h a ha hp
  next => rfl

/-- A column the update does not set. -/
theorem map_updateWhere {β : Type*} {g : α → β} (h : ∀ a, g (f a) = g a) :
    (updateWhere p f rows).map g = rows.map g :=
  map_updateWhere_of_mem fun a _ _ => h a

end Sql
