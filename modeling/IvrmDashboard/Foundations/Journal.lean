import Mathlib.Data.Int.Order.Basic
import Mathlib.Data.List.Pairwise
import Mathlib.Logic.Function.Basic
import Mathlib.Logic.Relation

/-!
# A journal written by transactions

The rows of a table belong to groups, get numbers from one counter, and are deleted when they are
old. A group has at most one open transaction; what it has inserted and what it means to delete is
seen by nobody else before it commits, and transactions of different groups commit in any order. A
key is in use at most once in a group.

Over all rows ever committed, the numbers of a group ascend in the order of the commits, a key comes
again only when its row was old, and a row that is no longer there was old (`Sound`). A number that
was drawn for a transaction that is taken back is used by no row.
-/

/-- The state of the table: the rows ever committed, those that are there, and for every group the
rows and the deletions of its transaction. -/
structure Journal (α γ : Type) where
  now : ℤ
  next : ℕ
  history : List α
  table : List α
  pending : γ → List α
  doomed : γ → List ℕ

namespace Journal

variable {α γ κ : Type} (group : α → γ) (key : α → κ) (number : α → ℕ) (time : α → ℤ) (keep : ℤ)

/-- These are numbers of old rows. -/
def Old (now : ℤ) (rows : List α) (numbers : List ℕ) : Prop :=
  ∀ n ∈ numbers, ∃ a ∈ rows, number a = n ∧ time a + keep < now

/-- An earlier and a later row of one group. -/
def Follows (a b : α) : Prop := number a < number b ∧ (key a = key b → time a + keep < time b)

/-- The row has been committed, or will be unless its transaction is taken back. -/
def Live (j : Journal α γ) (a : α) : Prop := a ∈ j.history ∨ ∃ g, a ∈ j.pending g

/-- What holds of a journal at any time. -/
structure Sound (j : Journal α γ) : Prop where
  fresh : ∀ a, j.Live a → number a < j.next
  unique : ∀ a b, j.Live a → j.Live b → number a = number b → a = b
  grouped : ∀ g, ∀ a ∈ j.pending g, group a = g
  present : j.table.Sublist j.history
  kept : ∀ a ∈ j.history, a ∈ j.table ∨ time a + keep < j.now
  ascending : j.history.Pairwise fun a b => group a = group b → Follows key number time keep a b
  drawn : ∀ g, (j.pending g).Pairwise (Follows key number time keep)
  later : ∀ a ∈ j.history, ∀ b ∈ j.pending (group a), Follows key number time keep a b
  doomed : ∀ g, Old number time keep j.now (j.history ++ j.pending g) (j.doomed g)

/-- What can happen to a journal. -/
inductive Step [DecidableEq γ] : Journal α γ → Journal α γ → Prop
  | wait (j : Journal α γ) (duration : ℕ) : Step j { j with now := j.now + duration }
  | skip (j : Journal α γ) : Step j { j with next := j.next + 1 }
  | insert (j : Journal α γ) (a : α) (hnumber : number a = j.next) (htime : time a = j.now)
      (hkey : ∀ b ∈ j.table ++ j.pending (group a), group b = group a → key b ≠ key a) :
      Step j { j with
        next := j.next + 1
        pending := Function.update j.pending (group a) (j.pending (group a) ++ [a]) }
  | doom (j : Journal α γ) (g : γ) (numbers : List ℕ)
      (hold : Old number time keep j.now (j.table ++ j.pending g) numbers) :
      Step j { j with doomed := Function.update j.doomed g numbers }
  | commit (j : Journal α γ) (g : γ) : Step j { j with
      history := j.history ++ j.pending g
      table := (j.table ++ j.pending g).filter (number · ∉ j.doomed g)
      pending := Function.update j.pending g []
      doomed := Function.update j.doomed g [] }
  | drop (j : Journal α γ) (g : γ) : Step j { j with
      pending := Function.update j.pending g []
      doomed := Function.update j.doomed g [] }
  | prune (j : Journal α γ) (numbers : List ℕ)
      (hold : Old number time keep j.now j.table numbers) :
      Step j { j with table := j.table.filter (number · ∉ numbers) }

variable {group key number time keep} {j j' : Journal α γ} {a : α} {g : γ}

/-! ## Before the first row -/

theorem sound_empty (now : ℤ) (next : ℕ) :
    Sound group key number time keep
      (⟨now, next, [], [], fun _ => [], fun _ => []⟩ : Journal α γ) where
  fresh := by simp [Live]
  unique := by simp [Live]
  grouped := by simp
  present := List.Sublist.refl _
  kept := by simp
  ascending := List.Pairwise.nil
  drawn := fun _ => List.Pairwise.nil
  later := by simp
  doomed := by simp [Old]

/-! ## Old rows -/

theorem Old.mono {now now' : ℤ} {rows rows' : List α} {numbers : List ℕ}
    (h : Old number time keep now rows numbers) (hnow : now ≤ now')
    (hrows : ∀ a ∈ rows, a ∈ rows') : Old number time keep now' rows' numbers := by
  intro n hn
  obtain ⟨a, ha, hnumber, hold⟩ := h n hn
  exact ⟨a, hrows a ha, hnumber, by omega⟩

/-- A live row whose number is that of an old one is old. -/
theorem Sound.old (h : Sound group key number time keep j) {rows : List α} {numbers : List ℕ}
    (hold : Old number time keep j.now rows numbers) (hrows : ∀ a ∈ rows, j.Live a)
    (ha : j.Live a) (hn : number a ∈ numbers) : time a + keep < j.now := by
  obtain ⟨b, hb, hnumber, hlt⟩ := hold _ hn
  rw [h.unique a b ha (hrows b hb) hnumber.symm]
  exact hlt

theorem live_append (ha : a ∈ j.history ++ j.pending g) : j.Live a :=
  (List.mem_append.1 ha).imp_right fun ha => ⟨g, ha⟩

/-! ## One step -/

theorem sound_wait (h : Sound group key number time keep j) (duration : ℕ) :
    Sound group key number time keep { j with now := j.now + duration } := by
  refine { h with kept := fun a ha => ?_, doomed := fun g => ?_ }
  · refine (h.kept a ha).imp_right fun hold => ?_
    show time a + keep < j.now + duration
    omega
  · refine (h.doomed g).mono ?_ fun a ha => ha
    show j.now ≤ j.now + duration
    omega

theorem sound_skip (h : Sound group key number time keep j) :
    Sound group key number time keep { j with next := j.next + 1 } :=
  { h with fresh := fun a ha => Nat.lt_succ_of_lt (h.fresh a ha) }

theorem sound_prune (h : Sound group key number time keep j) {numbers : List ℕ}
    (hold : Old number time keep j.now j.table numbers) :
    Sound group key number time keep { j with
      table := j.table.filter (number · ∉ numbers) } := by
  refine { h with present := List.filter_sublist.trans h.present, kept := fun a ha => ?_ }
  rcases h.kept a ha with htable | hlt
  · by_cases hn : number a ∈ numbers
    · exact Or.inr (h.old hold (fun b hb => Or.inl (h.present.subset hb)) (Or.inl ha) hn)
    · exact Or.inl (List.mem_filter.2 ⟨htable, by simpa using hn⟩)
  · exact Or.inr hlt

/-- The new row follows every row of its group. -/
theorem follows_new (h : Sound group key number time keep j) (hnumber : number a = j.next)
    (htime : time a = j.now)
    (hkey : ∀ b ∈ j.table ++ j.pending (group a), group b = group a → key b ≠ key a) {b : α}
    (hb : b ∈ j.history ++ j.pending (group a)) (hgroup : group b = group a) :
    Follows key number time keep b a := by
  refine ⟨by rw [hnumber]; exact h.fresh b (live_append hb), fun heq => ?_⟩
  rcases List.mem_append.1 hb with hb | hb
  · rcases h.kept b hb with htable | hold
    · exact absurd heq (hkey b (List.mem_append_left _ htable) hgroup)
    · rwa [htime]
  · exact absurd heq (hkey b (List.mem_append_right _ hb) hgroup)

section Steps

variable [DecidableEq γ]

theorem live_insert {b : α} (hb : Live { j with
      next := j.next + 1
      pending := Function.update j.pending (group a) (j.pending (group a) ++ [a]) } b) :
    j.Live b ∨ b = a := by
  rcases hb with hb | ⟨g, hb⟩
  · exact Or.inl (Or.inl hb)
  · by_cases hg : g = group a
    · subst hg
      simp only [Function.update_self, List.mem_append, List.mem_singleton] at hb
      exact hb.imp_left fun hb => Or.inr ⟨_, hb⟩
    · simp only [Function.update_of_ne hg] at hb
      exact Or.inl (Or.inr ⟨g, hb⟩)

theorem sound_insert (h : Sound group key number time keep j) (hnumber : number a = j.next)
    (htime : time a = j.now)
    (hkey : ∀ b ∈ j.table ++ j.pending (group a), group b = group a → key b ≠ key a) :
    Sound group key number time keep { j with
      next := j.next + 1
      pending := Function.update j.pending (group a) (j.pending (group a) ++ [a]) } := by
  have hnew := fun b => follows_new h hnumber htime hkey (b := b)
  refine { h with fresh := ?_, unique := ?_, grouped := ?_, drawn := ?_, later := ?_, doomed := ?_ }
  · intro b hb
    rcases live_insert hb with hb | rfl
    · exact Nat.lt_succ_of_lt (h.fresh b hb)
    · exact hnumber ▸ Nat.lt_succ_self _
  · intro b c hb hc heq
    rcases live_insert hb with hb' | hb' <;> rcases live_insert hc with hc' | hc'
    · exact h.unique b c hb' hc' heq
    · have := h.fresh b hb'
      rw [heq, hc', hnumber] at this
      omega
    · have := h.fresh c hc'
      rw [← heq, hb', hnumber] at this
      omega
    · rw [hb', hc']
  · intro g b hb
    by_cases hg : g = group a
    · subst hg
      simp only [Function.update_self, List.mem_append, List.mem_singleton] at hb
      rcases hb with hb | rfl
      · exact h.grouped _ b hb
      · rfl
    · simp only [Function.update_of_ne hg] at hb
      exact h.grouped g b hb
  · intro g
    by_cases hg : g = group a
    · subst hg
      simp only [Function.update_self]
      refine List.pairwise_append.2 ⟨h.drawn _, List.pairwise_singleton _ _, fun b hb c hc => ?_⟩
      rw [List.mem_singleton.1 hc]
      exact hnew b (List.mem_append_right _ hb) (h.grouped _ b hb)
    · simp only [Function.update_of_ne hg]
      exact h.drawn g
  · intro b hb c hc
    by_cases hg : group b = group a
    · simp only [hg, Function.update_self, List.mem_append, List.mem_singleton] at hc
      rcases hc with hc | rfl
      · exact h.later b hb c (hg ▸ hc)
      · exact hnew b (List.mem_append_left _ hb) hg
    · simp only [Function.update_of_ne hg] at hc
      exact h.later b hb c hc
  · intro g
    refine (h.doomed g).mono le_rfl fun b hb => ?_
    refine List.mem_append.2 ((List.mem_append.1 hb).imp_right fun hb => ?_)
    by_cases hg : g = group a
    · subst hg
      simp only [Function.update_self]
      exact List.mem_append_left _ hb
    · simpa only [Function.update_of_ne hg] using hb

theorem sound_doom (h : Sound group key number time keep j) {numbers : List ℕ}
    (hold : Old number time keep j.now (j.table ++ j.pending g) numbers) :
    Sound group key number time keep { j with doomed := Function.update j.doomed g numbers } := by
  refine { h with doomed := fun g' => ?_ }
  by_cases hg : g' = g
  · subst hg
    simp only [Function.update_self]
    refine hold.mono le_rfl fun a ha => List.mem_append.2 ?_
    exact (List.mem_append.1 ha).imp_left fun ha => h.present.subset ha
  · simp only [Function.update_of_ne hg]
    exact h.doomed g'

theorem sound_drop (h : Sound group key number time keep j) (g : γ) :
    Sound group key number time keep { j with
      pending := Function.update j.pending g []
      doomed := Function.update j.doomed g [] } := by
  have hmem : ∀ {g' a}, a ∈ Function.update j.pending g [] g' → g' ≠ g ∧ a ∈ j.pending g' := by
    intro g' a ha
    by_cases hg : g' = g
    · simp [hg] at ha
    · exact ⟨hg, by rwa [Function.update_of_ne hg] at ha⟩
  have hlive : ∀ a, Live { j with
      pending := Function.update j.pending g []
      doomed := Function.update j.doomed g [] } a → j.Live a :=
    fun a ha => ha.imp_right fun ⟨g', ha⟩ => ⟨g', (hmem ha).2⟩
  refine { h with fresh := ?_, unique := ?_, grouped := ?_, drawn := ?_, later := ?_, doomed := ?_ }
  · exact fun a ha => h.fresh a (hlive a ha)
  · exact fun a b ha hb => h.unique a b (hlive a ha) (hlive b hb)
  · exact fun g' a ha => h.grouped g' a (hmem ha).2
  · intro g'
    by_cases hg : g' = g
    · simp [hg]
    · simpa only [Function.update_of_ne hg] using h.drawn g'
  · exact fun a ha b hb => h.later a ha b (hmem hb).2
  · intro g'
    by_cases hg : g' = g
    · simp [hg, Old]
    · simpa only [Function.update_of_ne hg] using h.doomed g'

/-- The rows of the transaction follow those that are there, and what it deletes is old. -/
theorem sound_append (h : Sound group key number time keep j) (g : γ) :
    Sound group key number time keep { j with
      history := j.history ++ j.pending g
      table := (j.table ++ j.pending g).filter (number · ∉ j.doomed g)
      pending := Function.update j.pending g []
      doomed := Function.update j.doomed g [] } := by
  have hdrop := sound_drop h g
  have hlive : ∀ a, Live { j with
      history := j.history ++ j.pending g
      table := (j.table ++ j.pending g).filter (number · ∉ j.doomed g)
      pending := Function.update j.pending g []
      doomed := Function.update j.doomed g [] } a → j.Live a := by
    rintro a (ha | ⟨g', ha⟩)
    · exact live_append ha
    · by_cases hg : g' = g
      · simp [hg] at ha
      · exact Or.inr ⟨g', by simpa only [Function.update_of_ne hg] using ha⟩
  refine { hdrop with
    fresh := ?_, unique := ?_, present := ?_, kept := ?_, ascending := ?_, later := ?_, doomed := ?_ }
  · exact fun a ha => h.fresh a (hlive a ha)
  · exact fun a b ha hb => h.unique a b (hlive a ha) (hlive b hb)
  · exact List.filter_sublist.trans (h.present.append (List.Sublist.refl _))
  · intro a ha
    have hthere : a ∈ j.table ++ j.pending g ∨ time a + keep < j.now := by
      rcases List.mem_append.1 ha with ha | ha
      · exact (h.kept a ha).imp_left fun ha => List.mem_append_left _ ha
      · exact Or.inl (List.mem_append_right _ ha)
    refine hthere.elim (fun hthere => ?_) Or.inr
    by_cases hn : number a ∈ j.doomed g
    · exact Or.inr (h.old (h.doomed g) (fun b hb => live_append hb) (live_append ha) hn)
    · exact Or.inl (List.mem_filter.2 ⟨hthere, by simpa using hn⟩)
  · refine List.pairwise_append.2 ⟨h.ascending, ?_, fun a ha b hb heq => ?_⟩
    · exact (h.drawn g).imp fun {a b} hab (_ : group a = group b) => hab
    · rw [← h.grouped g b hb, ← heq] at hb
      exact h.later a ha b hb
  · intro a ha b hb
    rcases List.mem_append.1 ha with ha | ha
    · exact hdrop.later a ha b hb
    · simp [h.grouped g a ha] at hb
  · intro g'
    refine (hdrop.doomed g').mono le_rfl fun a ha => ?_
    refine List.mem_append.2 ((List.mem_append.1 ha).imp_left fun ha => ?_)
    exact List.mem_append_left _ ha

/-- **A step keeps what holds of a journal.** -/
theorem Step.sound (hstep : Step group key number time keep j j')
    (h : Sound group key number time keep j) : Sound group key number time keep j' := by
  cases hstep with
  | wait duration => exact sound_wait h duration
  | skip => exact sound_skip h
  | insert a hnumber htime hkey => exact sound_insert h hnumber htime hkey
  | doom g numbers hold => exact sound_doom h hold
  | commit g => exact sound_append h g
  | drop g => exact sound_drop h g
  | prune numbers hold => exact sound_prune h hold

end Steps

/-- A later state: rows have been committed, and the table has got no others. -/
def Extends (j j' : Journal α γ) : Prop :=
  j.now ≤ j'.now ∧ ∃ new, j'.history = j.history ++ new ∧ ∀ a ∈ j'.table, a ∈ j.table ∨ a ∈ new

theorem Extends.refl (j : Journal α γ) : Extends j j := ⟨le_rfl, [], by simp, fun _ ha => .inl ha⟩

theorem Extends.trans {j'' : Journal α γ} (h : Extends j j') (h' : Extends j' j'') :
    Extends j j'' := by
  obtain ⟨hnow, new, hhistory, htable⟩ := h
  obtain ⟨hnow', new', hhistory', htable'⟩ := h'
  refine ⟨le_trans hnow hnow', new ++ new', ?_, fun a ha => ?_⟩
  · rw [hhistory', hhistory, List.append_assoc]
  · rw [List.mem_append, ← or_assoc]
    exact (htable' a ha).imp_left (htable a)

theorem Step.extends [DecidableEq γ] (hstep : Step group key number time keep j j') :
    Extends j j' := by
  cases hstep with
  | wait duration => exact ⟨Int.le_add_of_nonneg_right (by omega), [], by simp, fun _ ha => .inl ha⟩
  | skip => exact ⟨le_rfl, [], by simp, fun _ ha => .inl ha⟩
  | insert a hnumber htime hkey => exact ⟨le_rfl, [], by simp, fun _ ha => .inl ha⟩
  | doom g numbers hold => exact ⟨le_rfl, [], by simp, fun _ ha => .inl ha⟩
  | commit g =>
    exact ⟨le_rfl, j.pending g, rfl, fun _ ha => List.mem_append.1 (List.filter_sublist.subset ha)⟩
  | drop g => exact ⟨le_rfl, [], by simp, fun _ ha => .inl ha⟩
  | prune numbers hold => exact ⟨le_rfl, [], by simp, fun _ ha => .inl (List.filter_sublist.subset ha)⟩

/-! ## Runs -/

theorem extends_of_steps [DecidableEq γ]
    (hsteps : Relation.ReflTransGen (Step group key number time keep) j j') : Extends j j' := by
  induction hsteps with
  | refl => exact Extends.refl _
  | tail _ hstep ih => exact ih.trans hstep.extends

theorem sound_of_steps [DecidableEq γ]
    (hsteps : Relation.ReflTransGen (Step group key number time keep) j j')
    (h : Sound group key number time keep j) : Sound group key number time keep j' := by
  induction hsteps with
  | refl => exact h
  | tail _ hstep ih => exact hstep.sound ih

end Journal
