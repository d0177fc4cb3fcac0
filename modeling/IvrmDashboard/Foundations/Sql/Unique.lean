import IvrmDashboard.Foundations.Sql.Table

/-!
# Unique columns, and rows that stay

A unique column determines its row (`Unique.eq`, `Unique.find?_eq`) and survives an insert of a new
value and an update that leaves it alone. `Kept` relates two states of a table in which no row has
gone: every old row has a row it became, with the same fixed columns.
-/

namespace Sql

variable {α κ : Type*}

/-- No two rows agree in the column. -/
def Unique (key : α → κ) (rows : List α) : Prop := (rows.map key).Nodup

namespace Unique

variable {key : α → κ} {rows : List α} {a b : α}

theorem nil (key : α → κ) : Unique key [] := List.nodup_nil

theorem concat (h : Unique key rows) (hnew : ∀ b ∈ rows, key b ≠ key a) :
    Unique key (rows ++ [a]) := by
  rw [Unique, List.map_append, List.nodup_append]
  refine ⟨h, by simp, ?_⟩
  intro x hx y hy
  obtain ⟨b, hb, rfl⟩ := List.mem_map.1 hx
  rw [List.map_singleton, List.mem_singleton] at hy
  rw [hy]
  exact hnew b hb

theorem updateWhere {p : α → Bool} {f : α → α} (h : Unique key rows)
    (hf : ∀ a ∈ rows, p a = true → key (f a) = key a) : Unique key (updateWhere p f rows) := by
  rw [Unique, map_updateWhere_of_mem hf]
  exact h

theorem eq (h : Unique key rows) (ha : a ∈ rows) (hb : b ∈ rows) (hkey : key a = key b) :
    a = b :=
  List.inj_on_of_nodup_map h ha hb hkey

theorem find?_eq [DecidableEq κ] (h : Unique key rows) (ha : a ∈ rows) :
    rows.find? (key · = key a) = some a := by
  apply find?_eq_some_of_unique ha (decide_eq_true rfl)
  intro b hb hkey
  exact h.eq hb ha (of_decide_eq_true hkey)

end Unique

theorem find?_key_eq_none [DecidableEq κ] {key : α → κ} {rows : List α} {k : κ} :
    rows.find? (key · = k) = none ↔ ∀ a ∈ rows, key a ≠ k := by
  simp

theorem find?_key_eq_some [DecidableEq κ] {key : α → κ} {rows : List α} {k : κ} {a : α}
    (h : rows.find? (key · = k) = some a) : a ∈ rows ∧ key a = k := by
  have hkey := List.find?_some h
  exact ⟨List.mem_of_find?_eq_some h, of_decide_eq_true hkey⟩

theorem any_key_eq_false [DecidableEq κ] {key : α → κ} {rows : List α} {k : κ} :
    rows.any (key · = k) = false ↔ ∀ a ∈ rows, key a ≠ k := by
  simp

/-- What is found under a key after the row of a key has been replaced. -/
theorem find?_updateWhere_key [DecidableEq κ] (key : α → κ) (k l : κ) {f : α → α}
    (hf : ∀ a, key a = k → key (f a) = k) (rows : List α) :
    (updateWhere (key · = k) f rows).find? (key · = l) =
      if l = k then (rows.find? (key · = k)).map f else rows.find? (key · = l) := by
  induction rows with
  | nil => simp [updateWhere]
  | cons a rows ih =>
    have hcons : updateWhere (key · = k) f (a :: rows) =
        (if key a = k then f a else a) :: updateWhere (key · = k) f rows := by
      simp [updateWhere]
    rw [hcons, List.find?_cons, ih]
    by_cases ha : key a = k
    · by_cases hk : l = k
      · simp [ha, hf a ha, hk]
      · have hkl : k ≠ l := fun heq => hk heq.symm
        simp [ha, hf a ha, hk, hkl]
    · by_cases hk : l = k
      · simp [ha, hk]
      · simp [List.find?_cons, ha, hk]

/-- What is found under a key after the rows of a key have been removed. -/
theorem find?_filter_key_ne [DecidableEq κ] {key : α → κ} {k k' : κ} (rows : List α) :
    (rows.filter (key · ≠ k)).find? (key · = k') =
      if k' = k then none else rows.find? (key · = k') := by
  induction rows with
  | nil => simp
  | cons a rows ih =>
    by_cases ha : key a = k
    · rw [List.filter_cons_of_neg (by simpa using ha), ih]
      by_cases hk : k' = k
      · simp [hk]
      · have hk' : k ≠ k' := fun heq => hk heq.symm
        simp [ha, hk, hk']
    · rw [List.filter_cons_of_pos (by simpa using ha), List.find?_cons, ih, List.find?_cons]
      by_cases hk : k' = k
      · simp [ha, hk]
      · simp [hk]

/-- Every old row has become a new one that agrees with it in what is fixed. -/
def Kept (fixed : α → κ) (old new : List α) : Prop := ∀ a ∈ old, ∃ b ∈ new, fixed b = fixed a

namespace Kept

variable {fixed : α → κ} {old new rows : List α}

theorem refl (rows : List α) : Kept fixed rows rows := fun a ha => ⟨a, ha, rfl⟩

theorem trans (h : Kept fixed old new) (h' : Kept fixed new rows) : Kept fixed old rows := by
  intro a ha
  obtain ⟨b, hb, hab⟩ := h a ha
  obtain ⟨c, hc, hbc⟩ := h' b hb
  exact ⟨c, hc, hbc.trans hab⟩

theorem append (rows more : List α) : Kept fixed rows (rows ++ more) :=
  fun a ha => ⟨a, List.mem_append_left _ ha, rfl⟩

theorem updateWhere {p : α → Bool} {f : α → α}
    (hf : ∀ a ∈ rows, p a = true → fixed (f a) = fixed a) :
    Kept fixed rows (updateWhere p f rows) := by
  intro a ha
  refine ⟨if p a then f a else a, mem_updateWhere.2 ⟨a, ha, rfl⟩, ?_⟩
  split
  next hp => exact hf a ha hp
  next => rfl

end Kept

end Sql
