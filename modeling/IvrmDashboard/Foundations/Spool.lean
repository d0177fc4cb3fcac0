import Mathlib.Data.List.Basic
import Mathlib.Logic.Function.Basic

/-!
# Spool directories

A directory through which one party hands files to another. A file is put under a name that must
be free (`link`), and is taken away either unread (`remove`) or to be acted on (`take`). The logs
of both sides are kept: a name has been acted on at most as often as it was published, and a file
that still lies there has not been acted on (`Bounded`).
-/

/-- A directory with the names published so far and the files acted on so far. -/
structure Spool (κ β : Type*) where
  file : κ → Option β
  published : List κ
  consumed : List (κ × β)

namespace Spool

variable {κ β : Type*} [DecidableEq κ] {s : Spool κ β}

/-- Nothing has been published. -/
def empty : Spool κ β := ⟨fun _ => none, [], []⟩

/-- Put a file under a name; nothing happens when the name is taken. -/
def link (s : Spool κ β) (k : κ) (b : β) : Option (Spool κ β) :=
  match s.file k with
  | some _ => none
  | none => some { s with
      file := Function.update s.file k (some b)
      published := s.published ++ [k] }

/-- Take a file away unread. -/
def remove (s : Spool κ β) (k : κ) : Spool κ β :=
  { s with file := Function.update s.file k none }

/-- Take a file away to act on it. -/
def take (s : Spool κ β) (k : κ) : Spool κ β :=
  match s.file k with
  | none => s
  | some b => { s.remove k with consumed := s.consumed ++ [(k, b)] }

/-- How often a name was published. -/
def publications (s : Spool κ β) (k : κ) : ℕ := s.published.count k

/-- How often a file of this name was acted on. -/
def executions (s : Spool κ β) (k : κ) : ℕ := (s.consumed.map Prod.fst).count k

/-- The files acted on and the file present were published one by one. -/
def Bounded (s : Spool κ β) : Prop :=
  ∀ k, s.executions k + (s.file k).toList.length ≤ s.publications k

@[simp] theorem publications_empty (k : κ) : (empty : Spool κ β).publications k = 0 := rfl

@[simp] theorem publications_remove (k l : κ) : (s.remove k).publications l = s.publications l :=
  rfl

@[simp] theorem consumed_remove (k : κ) : (s.remove k).consumed = s.consumed := rfl

@[simp] theorem publications_take (k l : κ) : (s.take k).publications l = s.publications l := by
  unfold take
  split <;> rfl

theorem consumed_subset_take (k : κ) : s.consumed ⊆ (s.take k).consumed := by
  unfold take
  split
  · exact List.Subset.refl _
  · exact List.subset_append_left _ _

theorem mem_consumed_take {k : κ} {b : β} (h : s.file k = some b) :
    (k, b) ∈ (s.take k).consumed := by
  simp [take, h]

theorem link_eq_some {k : κ} {b : β} {s' : Spool κ β} (h : s.link k b = some s') :
    s.file k = none ∧ s' = { s with
      file := Function.update s.file k (some b)
      published := s.published ++ [k] } := by
  unfold link at h
  split at h
  · cases h
  next hfree => exact ⟨hfree, (Option.some.inj h).symm⟩

theorem publications_link {k : κ} {b : β} {s' : Spool κ β} (h : s.link k b = some s') (l : κ) :
    s'.publications l = s.publications l + if l = k then 1 else 0 := by
  obtain ⟨-, rfl⟩ := link_eq_some h
  by_cases hl : l = k
  · simp [publications, hl]
  · simp [publications, hl, Ne.symm hl]

theorem consumed_link {k : κ} {b : β} {s' : Spool κ β} (h : s.link k b = some s') :
    s'.consumed = s.consumed := by
  obtain ⟨-, rfl⟩ := link_eq_some h
  rfl

/-! ## Every operation keeps the bound -/

theorem bounded_empty : (empty : Spool κ β).Bounded := fun _ => Nat.le_refl _

theorem Bounded.link (hs : s.Bounded) {k : κ} {b : β} {s' : Spool κ β}
    (h : s.link k b = some s') : s'.Bounded := by
  intro l
  have hle := hs l
  rw [publications_link h]
  obtain ⟨hfree, rfl⟩ := link_eq_some h
  simp only [executions] at hle ⊢
  by_cases hl : l = k
  · subst hl
    rw [hfree] at hle
    simpa using hle
  · simpa [hl] using hle

theorem Bounded.remove (hs : s.Bounded) (k : κ) : (s.remove k).Bounded := by
  intro l
  have hle := hs l
  simp only [executions, Spool.remove, publications] at hle ⊢
  by_cases hl : l = k
  · subst hl
    simp only [Function.update_self, Option.toList_none, List.length_nil]
    omega
  · simpa [hl] using hle

theorem Bounded.take (hs : s.Bounded) (k : κ) : (s.take k).Bounded := by
  intro l
  have hle := hs l
  rw [publications_take]
  unfold Spool.take
  split
  · exact hle
  next b hb =>
    simp only [executions, Spool.remove, List.map_append, List.count_append] at hle ⊢
    by_cases hl : l = k
    · subst hl
      rw [hb] at hle
      simpa using hle
    · simpa [hl, List.count_singleton, Ne.symm hl] using hle

/-- A name published at most once is acted on at most once. -/
theorem Bounded.executions_le (hs : s.Bounded) (k : κ) : s.executions k ≤ s.publications k :=
  Nat.le_of_add_right_le (hs k)

end Spool
