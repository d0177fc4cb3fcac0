import Mathlib.Data.List.Pairwise
import Mathlib.Order.Lattice
import Mathlib.Order.MinMax
import IvrmDashboard.Foundations.Keyset
import IvrmDashboard.Foundations.Sql.ByKey

/-!
# Following a table by its numbers

A reader keeps the greatest number it has seen and asks for the rows that come after it. What it has
got so far covers an interval of numbers (`Covers`). The interval is kept when the rows change above
it only, and it grows by a page that was asked for from inside it, wherever the reader has got to in
the meantime. After a page that is short nothing is left above it.
-/

namespace Tailing

/-! ## What a reader has got -/

section Reader

variable {α κ : Type} [LinearOrder κ] {key : α → κ} {rows rows' : List α} {low high mid : κ}
  {got got' : α → Prop}

variable (key) in
/-- The reader has got every row above `low` and up to `high`. -/
def Covers (rows : List α) (low high : κ) (got : α → Prop) : Prop :=
  ∀ a ∈ rows, low < key a → key a ≤ high → got a

variable (key) in
/-- The reader has got every row above `low`. -/
def Complete (rows : List α) (low : κ) (got : α → Prop) : Prop := ∀ a ∈ rows, low < key a → got a

namespace Covers

theorem empty (rows : List α) (low : κ) (got : α → Prop) : Covers key rows low low got :=
  fun _ _ hlow hhigh => absurd hlow hhigh.not_gt

/-- The rows change above the interval only. -/
theorem change (h : Covers key rows low high got)
    (hrows : ∀ a ∈ rows', low < key a → key a ≤ high → a ∈ rows) :
    Covers key rows' low high got :=
  fun a ha hlow hhigh => h a (hrows a ha hlow hhigh) hlow hhigh

theorem imp (h : Covers key rows low high got) (hgot : ∀ a ∈ rows, got a → got' a) :
    Covers key rows low high got' :=
  fun a ha hlow hhigh => hgot a ha (h a ha hlow hhigh)

/-- Two intervals without a gap. -/
theorem union (h : Covers key rows low mid got) {from' : κ} (h' : Covers key rows from' high got)
    (hfrom : from' ≤ mid) : Covers key rows low (max mid high) got := by
  intro a ha hlow hhigh
  rcases le_or_gt (key a) mid with hmid | hmid
  · exact h a ha hlow hmid
  · refine h' a ha (hfrom.trans_lt hmid) ?_
    exact (le_max_iff.1 hhigh).resolve_left hmid.not_ge

/-- No row is above the interval. -/
theorem complete (h : Covers key rows low high got) (hrows : ∀ a ∈ rows', a ∈ rows)
    (hhigh : ∀ a ∈ rows', key a ≤ high) : Complete key rows' low got :=
  fun a ha hlow => h a (hrows a ha) hlow (hhigh a ha)

end Covers

/-! ## A page in ascending order -/

/-- `order by … limit …` of the rows after the cursor -/
def nextOf (key : α → κ) (size : ℕ) (rows : List α) (after : κ) : List α :=
  (Sql.orderBy (Sql.byKey key) (rows.filter fun a => after < key a)).take size

/-- It is a page of the reversed order. -/
theorem isPage_nextOf (size : ℕ) (after : κ) (h : Keyset.Distinct key rows) :
    Keyset.IsPage (fun a => OrderDual.toDual (key a)) size rows (some (OrderDual.toDual after))
      (nextOf key size rows after) := by
  have hdistinct : Keyset.Distinct (fun a => OrderDual.toDual (key a)) rows :=
    ⟨h.nodup, fun a ha b hb heq => h.keys a ha b hb (OrderDual.toDual_inj.1 heq)⟩
  have hpage : Keyset.IsPage (fun a => OrderDual.toDual (key a)) size rows
      (some (OrderDual.toDual after)) (Keyset.pageOf _ size rows (some (OrderDual.toDual after))) :=
    Keyset.isPage_pageOf _ hdistinct
  have hfilter : (rows.filter fun a => Keyset.After (some (OrderDual.toDual after))
      (OrderDual.toDual (key a))) = rows.filter fun a => after < key a := by
    refine List.filter_congr fun a _ => ?_
    rw [decide_eq_decide]
    simp [Keyset.After]
  rw [Keyset.pageOf, hfilter] at hpage
  exact hpage

variable {size : ℕ} {after : κ} {a : α}

/-- The page covers what is between the cursor and its last row. -/
theorem covers_nextOf (h : Keyset.Distinct key rows) {last : α}
    (hlast : (nextOf key size rows after).getLast? = some last) :
    Covers key rows after (key last) (· ∈ nextOf key size rows after) := by
  intro a ha hafter hle
  have hpage := isPage_nextOf size after h
  rcases hpage.complete a ha (by simpa [Keyset.After] using hafter) with hmem | ⟨-, hbelow⟩
  · exact hmem
  · have hlt := hbelow last (List.mem_of_getLast? hlast)
    rw [OrderDual.toDual_lt_toDual] at hlt
    exact absurd hlt hle.not_gt

/-- A page that is short holds everything after the cursor. -/
theorem mem_nextOf_of_short (h : Keyset.Distinct key rows)
    (hshort : (nextOf key size rows after).length < size) (ha : a ∈ rows) (hafter : after < key a) :
    a ∈ nextOf key size rows after := by
  have hpage := isPage_nextOf size after h
  rcases hpage.complete a ha (by simpa [Keyset.After] using hafter) with hmem | ⟨hfull, -⟩
  · exact hmem
  · exact absurd hfull hshort.not_ge

/-- After a short page nothing is left above the new cursor. -/
theorem le_of_short (h : Keyset.Distinct key rows)
    (hshort : (nextOf key size rows after).length < size) (ha : a ∈ rows) :
    key a ≤ ((nextOf key size rows after).getLast?.map key).getD after := by
  have hpage := isPage_nextOf size after h
  rcases le_or_gt (key a) after with hle | hgt
  · cases hlast : (nextOf key size rows after).getLast? with
    | none => exact hle
    | some last =>
      have hafter := (hpage.sound last (List.mem_of_getLast? hlast)).2
      exact hle.trans (OrderDual.toDual_lt_toDual.1 (hafter _ rfl)).le
  · have hmem := mem_nextOf_of_short h hshort ha hgt
    obtain ⟨last, hlast⟩ : ∃ last, (nextOf key size rows after).getLast? = some last :=
      ⟨_, List.getLast?_eq_some_getLast (List.ne_nil_of_mem hmem)⟩
    rw [hlast]
    exact OrderDual.toDual_le_toDual.1 (hpage.key_last_le hlast hmem)

theorem mem_nextOf (h : a ∈ nextOf key size rows after) : a ∈ rows ∧ after < key a := by
  have hmem := List.mem_of_mem_take h
  rw [Sql.mem_orderBy, List.mem_filter, decide_eq_true_eq] at hmem
  exact hmem

end Reader

end Tailing
