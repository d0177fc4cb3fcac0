import IvrmDashboard.Foundations.Sql.Table

/-!
# Rows in the order of a key

Rows with equal keys keep the order of the table, so the order of the rows depends on the table, but
the order of the keys does not (`map_key_orderBy`).
-/

namespace Sql

variable {α β κ : Type*}

/-- Rows that are renamed without a change of their order are sorted as before. -/
theorem orderBy_map {le : α → α → Bool} {le' : β → β → Bool} {f : α → β}
    (h : ∀ a b, le' (f a) (f b) = le a b) (rows : List α) :
    orderBy le' (rows.map f) = (orderBy le rows).map f := by
  unfold orderBy
  refine (List.map_insertionSort _ _ f rows fun a _ b _ => ?_).symm
  rw [h a b]

variable [LinearOrder κ] (key : α → κ)

/-- `order by` a key. -/
def byKey (a b : α) : Bool := decide (key a ≤ key b)

theorem pairwise_byKey (rows : List α) :
    (orderBy (byKey key) rows).Pairwise fun a b => key a ≤ key b := by
  have : Std.Total fun a b => byKey key a b = true :=
    ⟨fun a b => by simpa [byKey] using le_total (key a) (key b)⟩
  have : IsTrans α fun a b => byKey key a b = true :=
    ⟨fun a b c hab hbc => decide_eq_true ((of_decide_eq_true hab).trans (of_decide_eq_true hbc))⟩
  have hsorted := List.pairwise_insertionSort (fun a b => byKey key a b = true) rows
  exact hsorted.imp of_decide_eq_true

/-- The keys come in one order, whatever the order of the rows was. -/
theorem map_key_orderBy {rows rows' : List α} (h : rows.Perm rows') :
    (orderBy (byKey key) rows).map key = (orderBy (byKey key) rows').map key := by
  have hperm : (orderBy (byKey key) rows).Perm (orderBy (byKey key) rows') :=
    ((orderBy_perm _).trans h).trans (orderBy_perm _).symm
  refine (hperm.map key).eq_of_pairwise (fun a b _ _ hab hba => le_antisymm hab hba) ?_ ?_
  · exact List.pairwise_map.2 (pairwise_byKey key rows)
  · exact List.pairwise_map.2 (pairwise_byKey key rows')

/-- Where the keys differ, the rows come in one order as well. -/
theorem orderBy_byKey_perm {rows rows' : List α} (h : rows.Perm rows')
    (hinj : ∀ a ∈ rows, ∀ b ∈ rows, key a = key b → a = b) :
    orderBy (byKey key) rows = orderBy (byKey key) rows' := by
  have hperm : (orderBy (byKey key) rows).Perm (orderBy (byKey key) rows') :=
    ((orderBy_perm _).trans h).trans (orderBy_perm _).symm
  refine hperm.eq_of_pairwise (fun a b ha hb hab hba => ?_) (pairwise_byKey key rows)
    (pairwise_byKey key rows')
  rw [mem_orderBy] at ha hb
  exact hinj a ha b (h.mem_iff.2 hb) (le_antisymm hab hba)

end Sql
