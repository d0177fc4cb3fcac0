import Mathlib.Data.Int.Order.Basic
import Mathlib.Data.List.Pairwise
import Mathlib.Order.MinMax
import Mathlib.Order.RelClasses

/-!
# Merging spans with a sweep

Every span has a key. A sweep over spans that are sorted by key and start joins a span to the one
before it when they have the same key and the gap between them is small. The spans it ends with
cover what the given ones cover and the small gaps between them (`covered_sweep`), and those of one
key lie further apart (`apart_sweep`). So they are the longest stretches that are covered
(`mem_sweep_iff`), and depend on nothing but what is covered.
-/

namespace Sweeps

/-- Spans with a key, that can be made longer. -/
structure Spans (α κ : Type*) where
  key : α → κ
  start : α → ℤ
  finish : α → ℤ
  extend : α → ℤ → α
  proper : ∀ a, start a < finish a
  key_extend : ∀ a t, finish a ≤ t → key (extend a t) = key a
  start_extend : ∀ a t, finish a ≤ t → start (extend a t) = start a
  finish_extend : ∀ a t, finish a ≤ t → finish (extend a t) = t

variable {α κ : Type*} (S : Spans α κ) (gap : ℤ)

/-- The instants of a span. -/
def Spans.Covers (a : α) (t : ℤ) : Prop := S.start a ≤ t ∧ t < S.finish a

/-- The span can be joined to the one before it. -/
def Spans.Joins (a b : α) : Prop := S.key a = S.key b ∧ S.start b ≤ S.finish a + gap

instance [DecidableEq κ] (a b : α) : Decidable (S.Joins gap a b) := inferInstanceAs (Decidable (_ ∧ _))

/-- The spans of a key cover the instant. -/
def Spans.Covered (l : List α) (k : κ) (t : ℤ) : Prop := ∃ a ∈ l, S.key a = k ∧ S.Covers a t

/-- The spans of a key cover the instant, or it lies in a small gap between two of them. -/
def Spans.Bridged (l : List α) (k : κ) (t : ℤ) : Prop :=
  S.Covered l k t ∨ ∃ a ∈ l, ∃ b ∈ l, S.key a = k ∧ S.key b = k ∧
    S.finish a ≤ t ∧ t < S.start b ∧ S.start b ≤ S.finish a + gap

/-- Two spans are joined. -/
def merged (a b : α) : α := S.extend a (max (S.finish a) (S.finish b))

section Sweep

variable [DecidableEq κ]

/-- The sweep, with a span to which others may be joined. -/
def sweepFrom (a : α) : List α → List α
  | [] => [a]
  | b :: l =>
    if S.Joins gap a b then sweepFrom (merged S a b) l
    else a :: sweepFrom b l

/-- The sweep -/
def sweep : List α → List α
  | [] => []
  | a :: l => sweepFrom S gap a l

end Sweep

/-! ## Sorted spans -/

variable (before : κ → κ → Prop)

/-- The spans are sorted by key and start. -/
def Spans.Sorted (l : List α) : Prop :=
  l.Pairwise fun a b => before (S.key a) (S.key b) ∨ S.key a = S.key b ∧ S.start a ≤ S.start b

/-- The spans are sorted by key, and those of one key lie apart. -/
def Spans.Apart (l : List α) : Prop :=
  l.Pairwise fun a b =>
    before (S.key a) (S.key b) ∨ S.key a = S.key b ∧ S.finish a + gap < S.start b

variable {S gap before} {a b : α} {l : List α} {k : κ} {t : ℤ}

@[simp] theorem key_merged : S.key (merged S a b) = S.key a := S.key_extend _ _ (le_max_left _ _)

@[simp] theorem start_merged : S.start (merged S a b) = S.start a :=
  S.start_extend _ _ (le_max_left _ _)

@[simp] theorem finish_merged : S.finish (merged S a b) = max (S.finish a) (S.finish b) :=
  S.finish_extend _ _ (le_max_left _ _)

theorem Spans.Sorted.merged (h : S.Sorted before (a :: b :: l)) :
    S.Sorted before (merged S a b :: l) := by
  obtain ⟨ha, hl⟩ := List.pairwise_cons.1 h
  refine List.pairwise_cons.2 ⟨fun c hc => ?_, (List.pairwise_cons.1 hl).2⟩
  rw [key_merged, start_merged]
  exact ha c (List.mem_cons_of_mem _ hc)

/-- Of the spans of one key the later ones begin later. -/
theorem Spans.Sorted.start_le [Std.Irrefl before] (h : S.Sorted before (a :: l)) {c : α}
    (hc : c ∈ l) (hkey : S.key a = S.key c) : S.start a ≤ S.start c := by
  rcases (List.pairwise_cons.1 h).1 c hc with hbefore | ⟨-, hle⟩
  · rw [hkey] at hbefore
    exact (Std.Irrefl.irrefl _ hbefore).elim
  · exact hle

theorem Spans.Bridged.of_mem {a : α} (ha : a ∈ l) (hk : S.key a = k) (hs : S.start a ≤ t)
    (hf : t < S.finish a) : S.Bridged gap l k t :=
  .inl ⟨a, ha, hk, hs, hf⟩

theorem Spans.Bridged.mono {l' : List α} (h : S.Bridged gap l k t) (hsub : l ⊆ l') :
    S.Bridged gap l' k t := by
  rcases h with ⟨a, ha, h⟩ | ⟨a, ha, b, hb, h⟩
  · exact .inl ⟨a, hsub ha, h⟩
  · exact .inr ⟨a, hsub ha, b, hsub hb, h⟩

/-- What two spans that are joined cover or bridge was covered or bridged. -/
theorem bridged_of_merged [Std.Irrefl before] (h : S.Sorted before (a :: b :: l))
    (hjoins : S.Joins gap a b) (hm : S.Bridged gap (merged S a b :: l) k t) :
    S.Bridged gap (a :: b :: l) k t := by
  obtain ⟨hkey, hgap⟩ := hjoins
  have hl : l ⊆ a :: b :: l := fun c hc => by simp [hc]
  have hma : a ∈ a :: b :: l := by simp
  have hmb : b ∈ a :: b :: l := by simp
  rcases hm with ⟨c, hc, hk, hs, hf⟩ | ⟨c, hc, d, hd, hkc, hkd, hs, hf, hle⟩
  · rcases List.mem_cons.1 hc with rfl | hc
    · rw [key_merged] at hk
      rw [start_merged] at hs
      rw [finish_merged, lt_max_iff] at hf
      -- the instant lies in the first span, in the second one, or between them
      rcases lt_or_ge t (S.finish a) with hfa | hfa
      · exact .of_mem hma hk hs hfa
      · rcases lt_or_ge t (S.start b) with hsb | hsb
        · exact .inr ⟨a, hma, b, hmb, hk, hkey.symm.trans hk, hfa, hsb, hgap⟩
        · exact .of_mem hmb (hkey.symm.trans hk) hsb (hf.resolve_left hfa.not_gt)
    · exact .of_mem (hl hc) hk hs hf
  · rcases List.mem_cons.1 hd with rfl | hd
    · -- nothing ends before the joined span begins
      rw [start_merged] at hf
      rcases List.mem_cons.1 hc with rfl | hc
      · rw [finish_merged] at hs
        exact absurd (lt_of_le_of_lt (le_of_max_le_left hs) hf) (S.proper a).not_gt
      · rw [key_merged] at hkd
        have hac := h.start_le (List.mem_cons_of_mem _ hc) (hkd.trans hkc.symm)
        have hpc := S.proper c
        omega
    · rcases List.mem_cons.1 hc with rfl | hc
      · rw [key_merged] at hkc
        rw [finish_merged] at hs hle
        rcases le_total (S.finish a) (S.finish b) with hab | hab
        · rw [max_eq_right hab] at hs hle
          exact .inr ⟨b, hmb, d, hl hd, hkey.symm.trans hkc, hkd, hs, hf, hle⟩
        · rw [max_eq_left hab] at hs hle
          exact .inr ⟨a, hma, d, hl hd, hkc, hkd, hs, hf, hle⟩
      · exact .inr ⟨c, hl hc, d, hl hd, hkc, hkd, hs, hf, hle⟩

/-- What was covered or bridged is so by the two spans that are joined. -/
theorem bridged_merged [Std.Irrefl before] (h : S.Sorted before (a :: b :: l))
    (hjoins : S.Joins gap a b) (hb : S.Bridged gap (a :: b :: l) k t) :
    S.Bridged gap (merged S a b :: l) k t := by
  obtain ⟨hkey, hgap⟩ := hjoins
  have hm : merged S a b ∈ merged S a b :: l := List.mem_cons_self
  have hab := h.start_le List.mem_cons_self hkey
  have hpa := S.proper a
  have hpb := S.proper b
  -- the joined span covers what lies between its ends
  have hin (hk : S.key a = k) (hs : S.start a ≤ t) (hf : t < max (S.finish a) (S.finish b)) :
      S.Bridged gap (merged S a b :: l) k t :=
    .of_mem hm (key_merged.trans hk) (start_merged.trans_le hs) (hf.trans_eq finish_merged.symm)
  -- every span but the first is the second one or a later one
  have hcases : ∀ c ∈ a :: b :: l, S.key c = k → S.key a = k ∧ S.start a ≤ S.start c ∧
      S.finish c ≤ max (S.finish a) (S.finish b) ∨ c ∈ l := by
    intro c hc hk
    simp only [List.mem_cons] at hc
    rcases hc with rfl | rfl | hc
    · exact .inl ⟨hk, le_rfl, le_max_left _ _⟩
    · exact .inl ⟨hkey.trans hk, hab, le_max_right _ _⟩
    · exact .inr hc
  rcases hb with ⟨c, hc, hk, hs, hf⟩ | ⟨c, hc, d, hd, hkc, hkd, hs, hf, hle⟩
  · rcases hcases c hc hk with ⟨hka, hsc, hfc⟩ | hc
    · exact hin hka (hsc.trans hs) (hf.trans_le hfc)
    · exact .of_mem (List.mem_cons_of_mem _ hc) hk hs hf
  · have hpc := S.proper c
    have hpd := S.proper d
    rcases hcases d hd hkd with ⟨hka, hsd, hfd⟩ | hd
    · rcases hcases c hc hkc with ⟨-, hsc, -⟩ | hc
      · exact hin hka (by omega) (by omega)
      · have hac := h.start_le (List.mem_cons_of_mem _ hc) (hka.trans hkc.symm)
        exact hin hka (by omega) (by omega)
    · rcases hcases c hc hkc with ⟨hka, hsc, hfc⟩ | hc
      · rcases lt_or_ge t (max (S.finish a) (S.finish b)) with hlt | hge
        · exact hin hka (by omega) hlt
        · refine .inr ⟨_, hm, d, List.mem_cons_of_mem _ hd, key_merged.trans hka, hkd,
            finish_merged.trans_le hge, hf, ?_⟩
          rw [finish_merged]
          omega
      · exact .inr ⟨c, List.mem_cons_of_mem _ hc, d, List.mem_cons_of_mem _ hd, hkc, hkd, hs, hf,
          hle⟩

/-- A span that is not joined lies apart from all that follow. -/
theorem apart_of_not_joins [IsStrictOrder κ before] (h : S.Sorted before (a :: b :: l))
    (hjoins : ¬ S.Joins gap a b) {c : α} (hc : c ∈ b :: l) :
    before (S.key a) (S.key c) ∨ S.key a = S.key c ∧ S.finish a + gap < S.start c := by
  have hb : S.Sorted before (b :: l) := (List.pairwise_cons.1 h).2
  refine ((List.pairwise_cons.1 h).1 c hc).imp_right fun ⟨hkey, hle⟩ => ⟨hkey, ?_⟩
  -- what lies between two spans of a key has this key
  have hkeyb : S.key a = S.key b := by
    rcases (List.pairwise_cons.1 h).1 b List.mem_cons_self with hab | ⟨hab, -⟩
    · rcases List.mem_cons.1 hc with rfl | hc
      · exact hkey
      · rcases (List.pairwise_cons.1 hb).1 c hc with hbc | ⟨hbc, -⟩
        · rw [hkey] at hab
          exact (irrefl_of before _ (trans_of before hab hbc)).elim
        · exact hkey.trans hbc.symm
    · exact hab
  have hgap : S.finish a + gap < S.start b := not_le.1 fun hle => hjoins ⟨hkeyb, hle⟩
  rcases List.mem_cons.1 hc with rfl | hc
  · exact hgap
  · exact hgap.trans_le (hb.start_le hc (hkeyb.symm.trans hkey))

theorem bridged_of_not_joins [IsStrictOrder κ before] (h : S.Sorted before (a :: b :: l))
    (hjoins : ¬ S.Joins gap a b) :
    S.Bridged gap (a :: b :: l) k t ↔ S.key a = k ∧ S.Covers a t ∨ S.Bridged gap (b :: l) k t := by
  constructor
  · rintro (⟨c, hc, hk, hcovers⟩ | ⟨c, hc, d, hd, hkc, hkd, hs, hf, hle⟩)
    · rcases List.mem_cons.1 hc with rfl | hc
      · exact .inl ⟨hk, hcovers⟩
      · exact .inr (.inl ⟨c, hc, hk, hcovers⟩)
    · have hpc := S.proper c
      rcases List.mem_cons.1 hd with rfl | hd'
      · rcases List.mem_cons.1 hc with rfl | hc'
        · omega
        · have hac := h.start_le hc' (hkd.trans hkc.symm)
          omega
      · rcases List.mem_cons.1 hc with rfl | hc'
        · rcases apart_of_not_joins h hjoins hd' with hbefore | ⟨-, hgap⟩
          · rw [hkc, hkd] at hbefore
            exact (irrefl_of before _ hbefore).elim
          · omega
        · exact .inr (.inr ⟨c, hc', d, hd', hkc, hkd, hs, hf, hle⟩)
  · rintro (⟨hk, hcovers⟩ | hb)
    · exact .inl ⟨a, List.mem_cons_self, hk, hcovers⟩
    · exact hb.mono (List.subset_cons_self a _)

/-! ## The sweep -/

section

variable [DecidableEq κ]

theorem mem_sweepFrom {c : α} (hc : c ∈ sweepFrom S gap a l) :
    ∃ d ∈ a :: l, S.key c = S.key d ∧ S.start c = S.start d := by
  induction l generalizing a with
  | nil => exact ⟨c, hc, rfl, rfl⟩
  | cons b l ih =>
    rw [sweepFrom] at hc
    split at hc
    · obtain ⟨d, hd, hkey, hstart⟩ := ih hc
      rcases List.mem_cons.1 hd with rfl | hd
      · exact ⟨a, List.mem_cons_self, hkey.trans key_merged, hstart.trans start_merged⟩
      · exact ⟨d, by simp [hd], hkey, hstart⟩
    · rcases List.mem_cons.1 hc with rfl | hc
      · exact ⟨c, List.mem_cons_self, rfl, rfl⟩
      · obtain ⟨d, hd, hkey, hstart⟩ := ih hc
        exact ⟨d, List.mem_cons_of_mem _ hd, hkey, hstart⟩

variable [IsStrictOrder κ before]

theorem covered_sweepFrom (h : S.Sorted before (a :: l)) :
    S.Covered (sweepFrom S gap a l) k t ↔ S.Bridged gap (a :: l) k t := by
  induction l generalizing a with
  | nil =>
    have hproper := S.proper a
    refine ⟨.inl, fun hb => hb.resolve_right ?_⟩
    rintro ⟨c, hc, d, hd, -, -, hs, hf, -⟩
    rw [List.mem_singleton.1 hc] at hs
    rw [List.mem_singleton.1 hd] at hf
    omega
  | cons b l ih =>
    rw [sweepFrom]
    split
    next hjoins =>
      rw [ih h.merged]
      exact ⟨bridged_of_merged h hjoins, bridged_merged h hjoins⟩
    next hjoins =>
      rw [bridged_of_not_joins h hjoins, ← ih (List.pairwise_cons.1 h).2]
      simp only [Spans.Covered, List.mem_cons, exists_eq_or_imp]

theorem apart_sweepFrom (h : S.Sorted before (a :: l)) :
    S.Apart gap before (sweepFrom S gap a l) := by
  induction l generalizing a with
  | nil => exact List.pairwise_singleton _ a
  | cons b l ih =>
    rw [sweepFrom]
    split
    next => exact ih h.merged
    next hjoins =>
      refine List.pairwise_cons.2 ⟨fun c hc => ?_, ih (List.pairwise_cons.1 h).2⟩
      obtain ⟨d, hd, hkey, hstart⟩ := mem_sweepFrom hc
      rw [hkey, hstart]
      exact apart_of_not_joins h hjoins hd

/-- **The sweep covers what was covered, and the small gaps.** -/
theorem covered_sweep (h : S.Sorted before l) :
    S.Covered (sweep S gap l) k t ↔ S.Bridged gap l k t := by
  cases l with
  | nil => simp [sweep, Spans.Covered, Spans.Bridged]
  | cons a l => exact covered_sweepFrom h

/-- **What is left lies apart.** -/
theorem apart_sweep (h : S.Sorted before l) : S.Apart gap before (sweep S gap l) := by
  cases l with
  | nil => exact .nil
  | cons a l => exact apart_sweepFrom h

/-- Spans that lie apart are not joined. -/
theorem sweep_of_apart (h : S.Apart gap before l) : sweep S gap l = l := by
  cases l with
  | nil => rfl
  | cons a l =>
    induction l generalizing a with
    | nil => rfl
    | cons b l ih =>
      have hjoins : ¬ S.Joins gap a b := by
        rintro ⟨hkey, hle⟩
        rcases (List.pairwise_cons.1 h).1 b List.mem_cons_self with hbefore | ⟨-, hlt⟩
        · rw [hkey] at hbefore
          exact irrefl_of before _ hbefore
        · omega
      rw [sweep, sweepFrom, if_neg hjoins]
      exact congrArg (a :: ·) (ih b (List.pairwise_cons.1 h).2)

end

/-! ## The longest stretches -/

/-- The stretch is covered, and not the instants next to it. -/
structure Stretch (p : ℤ → Prop) (start finish : ℤ) : Prop where
  lt : start < finish
  inside : ∀ t, start ≤ t → t < finish → p t
  front : ¬ p (start - 1)
  back : ¬ p finish

/-- Of two spans of a key the one is over before the other begins. -/
theorem Spans.Apart.lt_or_lt [Std.Irrefl before] (h : S.Apart gap before l) (ha : a ∈ l)
    (hb : b ∈ l) (hne : a ≠ b) (hkey : S.key a = S.key b) :
    S.finish a + gap < S.start b ∨ S.finish b + gap < S.start a := by
  have hall : l.Pairwise fun a b => S.key a = S.key b →
      S.finish a + gap < S.start b ∨ S.finish b + gap < S.start a := by
    refine List.Pairwise.imp (fun {a b} hab hkey => ?_) h
    rcases hab with hbefore | ⟨-, hlt⟩
    · rw [hkey] at hbefore
      exact (Std.Irrefl.irrefl _ hbefore).elim
    · exact .inl hlt
  have : Std.Symm fun a b => S.key a = S.key b →
      S.finish a + gap < S.start b ∨ S.finish b + gap < S.start a :=
    ⟨fun a b hab hkey => (hab hkey.symm).symm⟩
  exact hall.forall ha hb hne hkey

/-- A span of those that lie apart is a stretch of what they cover. -/
theorem Spans.Apart.stretch [Std.Irrefl before] (h : S.Apart gap before l) (hgap : 0 ≤ gap)
    (ha : a ∈ l) : Stretch (S.Covered l (S.key a)) (S.start a) (S.finish a) where
  lt := S.proper a
  inside t hs hf := ⟨a, ha, rfl, hs, hf⟩
  front := by
    rintro ⟨b, hb, hkey, hs, hf⟩
    have hne : a ≠ b := by
      rintro rfl
      omega
    have hpa := S.proper a
    rcases h.lt_or_lt ha hb hne hkey.symm with hlt | hlt <;> omega
  back := by
    rintro ⟨b, hb, hkey, hs, hf⟩
    have hne : a ≠ b := by
      rintro rfl
      omega
    have hpa := S.proper a
    rcases h.lt_or_lt ha hb hne hkey.symm with hlt | hlt <;> omega

/-- A stretch is where it begins. -/
theorem Stretch.unique {p : ℤ → Prop} {s f s' f' : ℤ} (h : Stretch p s f) (h' : Stretch p s' f')
    (hs : s ≤ s') (hf : s' < f) : s = s' ∧ f = f' := by
  have hstart : s = s' := by
    by_contra hne
    exact h'.front (h.inside _ (by omega) (by omega))
  subst hstart
  refine ⟨rfl, ?_⟩
  rcases lt_trichotomy f f' with hlt | heq | hlt
  · exact (h.back (h'.inside f h.lt.le hlt)).elim
  · exact heq
  · exact (h'.back (h.inside f' h'.lt.le hlt)).elim

/-- **The sweep leaves the longest stretches** of what was covered or bridged. -/
theorem mem_sweep_iff [DecidableEq κ] [IsStrictOrder κ before] (h : S.Sorted before l)
    (hgap : 0 ≤ gap) {s f : ℤ} :
    (∃ a ∈ sweep S gap l, S.key a = k ∧ S.start a = s ∧ S.finish a = f) ↔
      Stretch (S.Bridged gap l k) s f := by
  have hcovered : S.Covered (sweep S gap l) k = S.Bridged gap l k := by
    funext t
    exact propext (covered_sweep h)
  rw [← hcovered]
  constructor
  · rintro ⟨a, ha, rfl, rfl, rfl⟩
    exact (apart_sweep h).stretch hgap ha
  · intro hstretch
    obtain ⟨a, ha, rfl, hs, hf⟩ := hstretch.inside s le_rfl hstretch.lt
    obtain ⟨hstart, hfinish⟩ := ((apart_sweep h).stretch hgap ha).unique hstretch hs hf
    exact ⟨a, ha, rfl, hstart, hfinish⟩

end Sweeps
