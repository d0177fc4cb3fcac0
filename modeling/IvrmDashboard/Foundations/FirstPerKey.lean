import Mathlib.Data.List.Induction
import Mathlib.Data.List.TakeWhile
import IvrmDashboard.Foundations.Sql.Table

/-!
# The first row of every key

A reader that walks over the rows of a query and keeps the first one of every key holds exactly what
a look-up would find (`find?_firstPerKey`). When the query returns only so many rows, a key is found
as long as fewer rows come before its first one (`find?_take_eq_some`), whatever they are about.
-/

namespace FirstPerKey

variable {α κ : Type*} [DecidableEq κ] {key : α → κ} {rows : List α} {a : α} {k : κ}

/-- `if (!map.has(key(a))) map.set(key(a), a)` -/
def keepFirst (key : α → κ) (kept : List α) (a : α) : List α :=
  if kept.any (key · = key a) then kept else kept ++ [a]

/-- The rows kept of a list. -/
def firstPerKey (key : α → κ) (rows : List α) : List α := rows.foldl (keepFirst key) []

theorem firstPerKey_concat (rows : List α) (a : α) :
    firstPerKey key (rows ++ [a]) = keepFirst key (firstPerKey key rows) a := by
  rw [firstPerKey, List.foldl_append]
  rfl

/-- **The map holds under a key what comes first under it.** -/
theorem find?_firstPerKey (rows : List α) (k : κ) :
    (firstPerKey key rows).find? (key · = k) = rows.find? (key · = k) := by
  induction rows using List.reverseRecOn with
  | nil => rfl
  | append_singleton rows a ih =>
    rw [firstPerKey_concat, List.find?_append, ← ih, keepFirst]
    split
    next hany =>
      cases hfind : (firstPerKey key rows).find? (key · = k) with
      | some b => rfl
      | none =>
        have hne : key a ≠ k := by
          rintro rfl
          obtain ⟨b, hb, hba⟩ := List.any_eq_true.1 hany
          exact List.find?_eq_none.1 hfind b hb hba
        simp [hne]
    next => rw [List.find?_append]

/-- What the map holds is what it holds under some key. -/
theorem find?_of_mem_firstPerKey (h : a ∈ firstPerKey key rows) :
    rows.find? (key · = key a) = some a := by
  induction rows using List.reverseRecOn with
  | nil => exact absurd h List.not_mem_nil
  | append_singleton rows b ih =>
    rw [firstPerKey_concat, keepFirst] at h
    rw [List.find?_append]
    split at h
    next => rw [ih h, Option.some_or]
    next hany =>
      rcases List.mem_append.1 h with h | h
      · rw [ih h, Option.some_or]
      · obtain rfl := List.mem_singleton.1 h
        have hnone : rows.find? (key · = key a) = none := by
          rw [← find?_firstPerKey]
          refine List.find?_eq_none.2 fun c hc hca => hany ?_
          exact List.any_eq_true.2 ⟨c, hc, hca⟩
        rw [hnone, Option.none_or]
        exact List.find?_cons_of_pos (by simp)

theorem mem_firstPerKey : a ∈ firstPerKey key rows ↔ rows.find? (key · = key a) = some a := by
  refine ⟨find?_of_mem_firstPerKey, fun h => ?_⟩
  rw [← find?_firstPerKey] at h
  exact List.mem_of_find?_eq_some h

/-- Every key is kept once. -/
theorem nodup_map_firstPerKey (rows : List α) : ((firstPerKey key rows).map key).Nodup := by
  induction rows using List.reverseRecOn with
  | nil => exact List.nodup_nil
  | append_singleton rows a ih =>
    rw [firstPerKey_concat, keepFirst]
    split
    next => exact ih
    next hany =>
      rw [List.map_append, List.map_singleton]
      refine List.nodup_append.2 ⟨ih, List.nodup_singleton _, fun k hk k' hk' => ?_⟩
      obtain rfl := List.mem_singleton.1 hk'
      obtain ⟨b, hb, rfl⟩ := List.mem_map.1 hk
      intro heq
      exact hany (List.any_eq_true.2 ⟨b, hb, decide_eq_true heq⟩)

/-- Every key of a row is kept. -/
theorem key_mem_map_firstPerKey (h : a ∈ rows) : key a ∈ (firstPerKey key rows).map key := by
  cases hfind : rows.find? (key · = key a) with
  | none => exact absurd (decide_eq_true rfl) (List.find?_eq_none.1 hfind a h)
  | some b =>
    have hkey : key b = key a := by simpa using List.find?_some hfind
    rw [← hkey] at hfind ⊢
    exact List.mem_map_of_mem (mem_firstPerKey.2 hfind)

/-- How many rows come before the first one of a key. -/
def ahead (key : α → κ) (rows : List α) (k : κ) : ℕ := (rows.takeWhile (key · ≠ k)).length

/-- **A key is found among the first `n` rows if fewer come before it.** -/
theorem find?_take_eq_some {n : ℕ} : (rows.take n).find? (key · = k) = some a ↔
    rows.find? (key · = k) = some a ∧ ahead key rows k < n := by
  induction rows generalizing n with
  | nil => simp
  | cons b rows ih =>
    cases n with
    | zero => simp
    | succ n =>
      rw [List.take_succ_cons]
      by_cases hb : key b = k
      · simp [ahead, hb]
      · rw [List.find?_cons_of_neg (by simpa using hb), List.find?_cons_of_neg (by simpa using hb), ih]
        simp [ahead, hb]

theorem find?_take_eq_none {n : ℕ} (h : n ≤ ahead key rows k) :
    (rows.take n).find? (key · = k) = none := by
  cases hfind : (rows.take n).find? (key · = k) with
  | none => rfl
  | some a => exact absurd (find?_take_eq_some.1 hfind).2 (Nat.not_lt.2 h)

end FirstPerKey
