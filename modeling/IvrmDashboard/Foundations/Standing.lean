import IvrmDashboard.Foundations.Sql.Unique

/-!
# Rows that stand for the reports of a key

A table with one row for every key takes reports one after the other: the first report of a key
becomes its row, a later one changes it. Whatever a row means for the list of its reports (`P`) holds
of all rows as long as a first report and a change keep it (`Standing`).
-/

namespace Standing

open Sql

variable {α κ : Type*} [DecidableEq κ] {key : α → κ} {P : List α → α → Prop}
  {reports rows : List α} {r row : α}

/-- The reports of one key. -/
def reportsOf (key : α → κ) (reports : List α) (k : κ) : List α := reports.filter (key · = k)

@[simp] theorem reportsOf_concat_self (reports : List α) (r : α) :
    reportsOf key (reports ++ [r]) (key r) = reportsOf key reports (key r) ++ [r] := by
  simp [reportsOf]

theorem reportsOf_concat_of_ne {k : κ} (h : key r ≠ k) :
    reportsOf key (reports ++ [r]) k = reportsOf key reports k := by
  simp [reportsOf, h]

variable (key P) in
/-- Every row stands for the reports of its key, and every report has a row. -/
structure Stands (reports rows : List α) : Prop where
  unique : Unique key rows
  row : ∀ row ∈ rows, P (reportsOf key reports (key row)) row
  covered : ∀ r ∈ reports, ∃ row ∈ rows, key row = key r

theorem stands_nil : Stands key P [] [] := ⟨.nil key, by simp, by simp⟩

/-- A key that has no row has no reports. -/
theorem Stands.reportsOf_eq_nil (h : Stands key P reports rows) {k : κ}
    (hk : ∀ row ∈ rows, key row ≠ k) : reportsOf key reports k = [] := by
  rw [reportsOf, List.filter_eq_nil_iff]
  intro r hr hrk
  obtain ⟨row, hrow, hkey⟩ := h.covered r hr
  exact hk row hrow (hkey.trans (of_decide_eq_true hrk))

/-- The first report of a key. -/
theorem Stands.insert (h : Stands key P reports rows) (hkey : key row = key r)
    (hnew : ∀ old ∈ rows, key old ≠ key r) (hrow : P [r] row) :
    Stands key P (reports ++ [r]) (rows ++ [row]) where
  unique := h.unique.concat fun old hold => hkey ▸ hnew old hold
  row a ha := by
    rcases List.mem_append.1 ha with ha | ha
    · rw [reportsOf_concat_of_ne (Ne.symm (hnew a ha))]
      exact h.row a ha
    · rw [List.mem_singleton.1 ha, hkey, reportsOf_concat_self, h.reportsOf_eq_nil hnew]
      exact hrow
  covered a ha := by
    rcases List.mem_append.1 ha with ha | ha
    · obtain ⟨old, hold, hold'⟩ := h.covered a ha
      exact ⟨old, List.mem_append_left _ hold, hold'⟩
    · rw [List.mem_singleton.1 ha]
      exact ⟨row, List.mem_append_right _ (List.mem_singleton_self row), hkey⟩

/-- A later report of a key. -/
theorem Stands.update (h : Stands key P reports rows) {p : α → Bool} {f : α → α} {old : α}
    (hold : old ∈ rows) (hkey : key old = key r) (hp : ∀ a ∈ rows, p a = true ↔ a = old)
    (hf : key (f old) = key old)
    (hrow : P (reportsOf key reports (key r) ++ [r]) (f old)) :
    Stands key P (reports ++ [r]) (updateWhere p f rows) where
  unique := h.unique.updateWhere fun a ha hpa => by rw [(hp a ha).1 hpa, hf]
  row b hb := by
    obtain ⟨a, ha, rfl⟩ := mem_updateWhere.1 hb
    split
    next hpa =>
      rw [(hp a ha).1 hpa, hf, hkey, reportsOf_concat_self]
      exact hrow
    next hpa =>
      have hne : key r ≠ key a := fun hra =>
        hpa ((hp a ha).2 (h.unique.eq ha hold (hra.symm.trans hkey.symm)))
      rw [reportsOf_concat_of_ne hne]
      exact h.row a ha
  covered a ha := by
    have hmem : ∀ b ∈ rows, ∃ row ∈ updateWhere p f rows, key row = key b := by
      intro b hb
      refine ⟨_, mem_updateWhere.2 ⟨b, hb, rfl⟩, ?_⟩
      split
      next hpb => rw [(hp b hb).1 hpb, hf]
      next => rfl
    rcases List.mem_append.1 ha with ha | ha
    · obtain ⟨b, hb, hba⟩ := h.covered a ha
      obtain ⟨row, hrow, hrowb⟩ := hmem b hb
      exact ⟨row, hrow, hrowb.trans hba⟩
    · obtain ⟨row, hrow, hrowb⟩ := hmem old hold
      rw [List.mem_singleton.1 ha]
      exact ⟨row, hrow, hrowb.trans hkey⟩

end Standing
