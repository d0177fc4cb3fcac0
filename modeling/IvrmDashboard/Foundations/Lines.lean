import Mathlib.Data.List.Basic
import Mathlib.Order.Basic
import Mathlib.Order.Lattice

/-!
# Queues that deliver in lines

The rows of a queue stand in lines, each row at its place. A row waits, is being sent, has been
sent, or is out of the queue; rows that are out may come back, and a row being sent may have to
wait again. What keeps a line in order is that whatever has been started precedes whatever is
still to be delivered (`Reading.InOrder`). Starting a row that is first in its line keeps it
(`InOrder.start`), and so does putting a row back behind everything started (`InOrder.reopen`).
From it follow that a line has at most one row being sent (`InOrder.sending_unique`), and that a
row reaches the end after all that reached it before (`InOrder.sent_le`).
-/

namespace Lines

/-- Where a row stands. -/
inductive Phase
  | waiting
  | sending
  | sent
  | out
  deriving DecidableEq

namespace Phase

/-- It is being sent, or has been. -/
def Started : Phase → Prop
  | sending | sent => True
  | waiting | out => False

/-- It is still to be delivered. -/
def Undelivered : Phase → Prop
  | waiting | sending => True
  | sent | out => False

end Phase

/-- How the rows of a queue are read; a row outside every line has none. -/
structure Reading (α κ τ : Type*) where
  line : α → Option κ
  place : α → τ
  phase : α → Phase

namespace Reading

variable {α κ τ : Type*} [LinearOrder τ] (q : Reading α κ τ)

/-- What has been started precedes what is still to be delivered. -/
def InOrder (rows : List α) : Prop :=
  ∀ a ∈ rows, ∀ b ∈ rows, (q.phase a).Started → (q.phase b).Undelivered →
    ∀ k, q.line a = some k → q.line b = some k → q.place a ≤ q.place b

/-- The update leaves the rows where they are. -/
def Fixes (f : α → α) (rows : List α) : Prop :=
  ∀ a ∈ rows, q.line (f a) = q.line a ∧ q.place (f a) = q.place a

/-- No undelivered row of its line precedes the row. -/
def First (rows : List α) (a : α) : Prop :=
  ∀ b ∈ rows, (q.phase b).Undelivered → ∀ k, q.line a = some k → q.line b = some k →
    q.place a ≤ q.place b

/-- Everything started in its line precedes the row. -/
def Behind (rows : List α) (b : α) : Prop :=
  ∀ a ∈ rows, (q.phase a).Started → ∀ k, q.line a = some k → q.line b = some k →
    q.place a ≤ q.place b

variable {q} {rows : List α} {f : α → α}

theorem inOrder_nil : q.InOrder [] := fun _ h => absurd h List.not_mem_nil

/-- The general form: an update that starts only first rows and puts back only rows behind. The two
may not meet, which is why nothing is put back while something is started. -/
private theorem InOrder.map (h : q.InOrder rows) (hf : q.Fixes f rows)
    (hstart : ∀ a ∈ rows, (q.phase (f a)).Started → (q.phase a).Started ∨ q.First rows a)
    (hback : ∀ b ∈ rows, (q.phase (f b)).Undelivered → (q.phase b).Undelivered ∨ q.Behind rows b)
    (hmeet : ∀ a ∈ rows, ∀ b ∈ rows, (q.phase (f a)).Started → (q.phase (f b)).Undelivered →
      (q.phase a).Started ∨ (q.phase b).Undelivered) : q.InOrder (rows.map f) := by
  intro a' ha' b' hb' hsa hub k hka hkb
  obtain ⟨a, ha, rfl⟩ := List.mem_map.1 ha'
  obtain ⟨b, hb, rfl⟩ := List.mem_map.1 hb'
  obtain ⟨hla, hpa⟩ := hf a ha
  obtain ⟨hlb, hpb⟩ := hf b hb
  rw [hla] at hka
  rw [hlb] at hkb
  rw [hpa, hpb]
  rcases hstart a ha hsa with hs | hfirst
  · rcases hback b hb hub with hu | hbehind
    · exact h a ha b hb hs hu k hka hkb
    · exact hbehind a ha hs k hka hkb
  · rcases hmeet a ha b hb hsa hub with hs | hu
    · rcases hback b hb hub with hu | hbehind
      · exact h a ha b hb hs hu k hka hkb
      · exact hbehind a ha hs k hka hkb
    · exact hfirst b hb hu k hka hkb

/-- Rows that are first in their lines are started, and none is put back. -/
theorem InOrder.start (h : q.InOrder rows) (hf : q.Fixes f rows)
    (hstart : ∀ a ∈ rows, (q.phase (f a)).Started → (q.phase a).Started ∨ q.First rows a)
    (hback : ∀ b ∈ rows, (q.phase (f b)).Undelivered → (q.phase b).Undelivered) :
    q.InOrder (rows.map f) :=
  h.map hf hstart (fun b hb hu => .inl (hback b hb hu)) fun _ _ b hb _ hu => .inr (hback b hb hu)

/-- Rows behind everything started are put back, and none is started. -/
theorem InOrder.reopen (h : q.InOrder rows) (hf : q.Fixes f rows)
    (hstart : ∀ a ∈ rows, (q.phase (f a)).Started → (q.phase a).Started)
    (hback : ∀ b ∈ rows, (q.phase (f b)).Undelivered →
      (q.phase b).Undelivered ∨ q.Behind rows b) : q.InOrder (rows.map f) :=
  h.map hf (fun a ha hs => .inl (hstart a ha hs)) hback fun a ha _ _ hs _ => .inl (hstart a ha hs)

/-- Neither happens. -/
theorem InOrder.keep (h : q.InOrder rows) (hf : q.Fixes f rows)
    (hstart : ∀ a ∈ rows, (q.phase (f a)).Started → (q.phase a).Started)
    (hback : ∀ b ∈ rows, (q.phase (f b)).Undelivered → (q.phase b).Undelivered) :
    q.InOrder (rows.map f) :=
  h.start hf (fun a ha hs => .inl (hstart a ha hs)) hback

/-- Another reading that puts the rows in the same places. -/
theorem InOrder.congr {q' : Reading α κ τ} (h : q.InOrder rows)
    (hphase : ∀ a ∈ rows, q'.phase a = q.phase a)
    (hrows : ∀ a ∈ rows, q'.line a = q.line a ∧ q'.place a = q.place a) : q'.InOrder rows := by
  intro a ha b hb hs hu k hka hkb
  rw [hphase a ha] at hs
  rw [hphase b hb] at hu
  rw [(hrows a ha).1] at hka
  rw [(hrows b hb).1] at hkb
  rw [(hrows a ha).2, (hrows b hb).2]
  exact h a ha b hb hs hu k hka hkb

/-- New rows that are not started join their lines at the end. -/
theorem InOrder.append {new : List α} (h : q.InOrder rows)
    (hstart : ∀ a ∈ new, ¬ (q.phase a).Started) (hback : ∀ b ∈ new, q.Behind rows b) :
    q.InOrder (rows ++ new) := by
  intro a ha b hb hs hu k hka hkb
  rcases List.mem_append.1 ha with ha | ha
  · rcases List.mem_append.1 hb with hb | hb
    · exact h a ha b hb hs hu k hka hkb
    · exact hback b hb a ha hs k hka hkb
  · exact absurd hs (hstart a ha)

/-- At most one row of a line is being sent. -/
theorem InOrder.sending_unique (h : q.InOrder rows) {a b : α} (ha : a ∈ rows) (hb : b ∈ rows)
    (hsa : q.phase a = .sending) (hsb : q.phase b = .sending) {k : κ} (hka : q.line a = some k)
    (hkb : q.line b = some k) : q.place a = q.place b := by
  have started : ∀ {c}, q.phase c = .sending → (q.phase c).Started := fun hc => by rw [hc]; trivial
  have undelivered : ∀ {c}, q.phase c = .sending → (q.phase c).Undelivered :=
    fun hc => by rw [hc]; trivial
  apply le_antisymm
  · exact h a ha b hb (started hsa) (undelivered hsb) k hka hkb
  · exact h b hb a ha (started hsb) (undelivered hsa) k hkb hka

/-- A row being sent comes after all that were sent before. -/
theorem InOrder.sent_le (h : q.InOrder rows) {a b : α} (ha : a ∈ rows) (hb : b ∈ rows)
    (hsa : q.phase a = .sent) (hsb : q.phase b = .sending) {k : κ} (hka : q.line a = some k)
    (hkb : q.line b = some k) : q.place a ≤ q.place b := by
  apply h a ha b hb _ _ k hka hkb
  · rw [hsa]; trivial
  · rw [hsb]; trivial

end Reading

end Lines
