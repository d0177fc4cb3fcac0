import Mathlib.Data.List.Pairwise
import Mathlib.Data.List.Perm.Basic
import Mathlib.Data.Int.Order.Basic

/-!
# Replay protection with a retention window

A ledger refuses a key it still holds and forgets an entry once it is older than a window. Against
the history of everything it ever accepted this gives two facts, kept by every acceptance
(`accept`): an entry of the history is in the ledger or has left the window (`Recorded`), and two
entries of one key are more than the window apart (`Spaced`). So keys that can only be presented
within a span shorter than the window are accepted once (`key_ne_of_close`).
-/

namespace ReplayWindow

/-- A key and when it was accepted. -/
@[ext]
structure Entry (Key : Type*) where
  key : Key
  time : ℤ

variable {Key : Type*} {window now : ℤ} {ledger ledger' history : List (Entry Key)}

/-- What the history still has in the ledger: everything younger than the window. -/
def Recorded (window now : ℤ) (ledger history : List (Entry Key)) : Prop :=
  ∀ e ∈ history, e ∈ ledger ∨ e.time + window < now

/-- Two entries of one key, in the order of their acceptance, are more than the window apart. -/
def Spaced (window : ℤ) (history : List (Entry Key)) : Prop :=
  history.Pairwise fun e f => e.key = f.key → e.time + window < f.time

theorem recorded_nil : Recorded window now ledger [] := by simp [Recorded]

/-- Time may pass, and what is older than the window may be forgotten. -/
theorem Recorded.prune {later : ℤ} (h : Recorded window now ledger history) (hle : now ≤ later)
    (hkept : ∀ e ∈ ledger, e ∈ ledger' ∨ e.time + window < later) :
    Recorded window later ledger' history := by
  intro e he
  rcases h e he with hmem | hold
  · exact hkept e hmem
  · exact .inr (lt_of_lt_of_le hold hle)

/-- An acceptance is recorded. -/
theorem Recorded.accept {e : Entry Key} (h : Recorded window now ledger history)
    (hle : now ≤ e.time) : Recorded window e.time (ledger ++ [e]) (history ++ [e]) := by
  intro f hf
  rcases List.mem_append.1 hf with hf | hf
  · rcases h f hf with hmem | hold
    · exact .inl (List.mem_append_left _ hmem)
    · exact .inr (lt_of_lt_of_le hold hle)
  · exact .inl (List.mem_append_right _ hf)

/-- **A key that is not in the ledger was not accepted within the window.** -/
theorem Spaced.accept {e : Entry Key} (h : Spaced window history)
    (hrec : Recorded window now ledger history) (hfresh : ∀ f ∈ ledger, f.key ≠ e.key)
    (hle : now ≤ e.time) : Spaced window (history ++ [e]) := by
  refine List.pairwise_append.2 ⟨h, List.pairwise_singleton .., fun f hf g hg => ?_⟩
  rw [List.mem_singleton.1 hg]
  intro hkey
  rcases hrec f hf with hmem | hold
  · exact absurd hkey (hfresh f hmem)
  · exact lt_of_lt_of_le hold hle

/-- The distance of two entries of one key does not depend on their order. -/
def Apart (window : ℤ) (e f : Entry Key) : Prop :=
  e.key = f.key → e.time + window < f.time ∨ f.time + window < e.time

theorem apart_symm {e f : Entry Key} (h : Apart window e f) : Apart window f e :=
  fun hkey => (h hkey.symm).symm

/-- Any selection of the history, in any order, is spaced as well. -/
theorem Spaced.apart (h : Spaced window history) {chosen rest : List (Entry Key)}
    (hperm : (chosen ++ rest).Perm history) : chosen.Pairwise (Apart window) := by
  have hall : history.Pairwise (Apart window) := h.imp fun hef hkey => .inl (hef hkey)
  have hchosen := (hperm.pairwise_iff fun hab => apart_symm hab).2 hall
  exact (List.pairwise_append.1 hchosen).1

/-- Entries within the window of each other have different keys. -/
theorem key_ne_of_close {e f : Entry Key} (h : Apart window e f) (hef : f.time ≤ e.time + window)
    (hfe : e.time ≤ f.time + window) : e.key ≠ f.key := by
  intro hkey
  rcases h hkey with hlt | hlt
  · exact absurd hef (not_le_of_gt hlt)
  · exact absurd hfe (not_le_of_gt hlt)

end ReplayWindow
