import Mathlib.Data.List.Perm.Subperm
import Mathlib.Order.Lattice
import IvrmDashboard.Foundations.Sql.Table

/-!
# Reading page by page

A reader asks for a page of the rows in descending order of a key, then for the rows after the last
one it got, and so on until a page is short. What it reads may change from page to page. Whatever it
ends with is in strictly descending order, and no key is missing that was there at every read
(`collect_spec`); over rows that stay it ends after as many pages as the rows fill
(`collect_terminates`). The reader may know the rows under another form (`collect_map`).
-/

namespace Keyset

variable {α κ : Type}

/-! ## Pages -/

section Pages

variable [LinearOrder κ] (key : α → κ)

/-- The key comes after the cursor. -/
def After (before : Option κ) (k : κ) : Prop := ∀ c ∈ before, k < c

instance (before : Option κ) (k : κ) : Decidable (After before k) :=
  match before with
  | none => isTrue nofun
  | some c => decidable_of_iff (k < c) (by simp [After])

/-- The first rows after the cursor. -/
structure IsPage (size : ℕ) (rows : List α) (before : Option κ) (page : List α) : Prop where
  sorted : page.Pairwise fun a b => key b < key a
  sound : ∀ a ∈ page, a ∈ rows ∧ After before (key a)
  complete : ∀ a ∈ rows, After before (key a) →
    a ∈ page ∨ size ≤ page.length ∧ ∀ b ∈ page, key a < key b

/-- `order by … desc limit …` of the rows after the cursor -/
def pageOf (size : ℕ) (rows : List α) (before : Option κ) : List α :=
  (Sql.orderBy (fun a b => decide (key b ≤ key a))
    (rows.filter fun a => After before (key a))).take size

/-- The rows are different and have different keys. -/
structure Distinct (rows : List α) : Prop where
  nodup : rows.Nodup
  keys : ∀ a ∈ rows, ∀ b ∈ rows, key a = key b → a = b

theorem isPage_pageOf {size : ℕ} {rows : List α} {before : Option κ} (h : Distinct key rows) :
    IsPage key size rows before (pageOf key size rows before) := by
  have : Std.Total fun a b => decide (key b ≤ key a) = true :=
    ⟨fun a b => by simpa using le_total (key b) (key a)⟩
  have : IsTrans α fun a b => decide (key b ≤ key a) = true :=
    ⟨fun a b c hab hbc => by simpa using (of_decide_eq_true hbc).trans (of_decide_eq_true hab)⟩
  have hmem : ∀ a, a ∈ Sql.orderBy (fun a b => decide (key b ≤ key a))
      (rows.filter fun a => After before (key a)) ↔ a ∈ rows ∧ After before (key a) := by
    intro a
    rw [Sql.mem_orderBy, List.mem_filter, decide_eq_true_eq]
  have hsorted : (Sql.orderBy (fun a b => decide (key b ≤ key a))
      (rows.filter fun a => After before (key a))).Pairwise fun a b => key b < key a := by
    have hle := List.pairwise_insertionSort (fun a b => decide (key b ≤ key a) = true)
      (rows.filter fun a => After before (key a))
    have hne : (Sql.orderBy (fun a b => decide (key b ≤ key a))
        (rows.filter fun a => After before (key a))).Nodup :=
      (Sql.orderBy_perm _).nodup_iff.2 (h.nodup.filter _)
    refine (hle.and hne).imp_of_mem fun {a b} ha hb hab => ?_
    refine lt_of_le_of_ne (of_decide_eq_true hab.1) fun hkey => hab.2 ?_
    exact h.keys a ((hmem a).1 ha).1 b ((hmem b).1 hb).1 hkey.symm
  unfold pageOf
  generalize hall : Sql.orderBy (fun a b => decide (key b ≤ key a))
    (rows.filter fun a => After before (key a)) = all at hmem hsorted
  refine ⟨hsorted.sublist (List.take_sublist _ _), fun a ha => ?_, fun a ha hafter => ?_⟩
  · exact (hmem a).1 (List.mem_of_mem_take ha)
  · have ha := (hmem a).2 ⟨ha, hafter⟩
    rw [← List.take_append_drop size all] at ha hsorted
    refine (List.mem_append.1 ha).imp_right fun hdrop => ⟨?_, fun b hb => ?_⟩
    · have hlength : (all.drop size).length ≠ 0 := List.length_pos_of_mem hdrop |>.ne'
      rw [List.length_drop] at hlength
      rw [List.length_take]
      omega
    · exact (List.pairwise_append.1 hsorted).2.2 b hb a hdrop

variable {key} {size : ℕ} {rows page : List α} {before : Option κ}

/-- All rows of a page are at or before its last. -/
theorem IsPage.key_last_le (h : IsPage key size rows before page) {last a : α}
    (hlast : page.getLast? = some last) (ha : a ∈ page) : key last ≤ key a := by
  obtain ⟨front, rfl⟩ := List.getLast?_eq_some_iff.1 hlast
  rcases List.mem_append.1 ha with ha | ha
  · exact ((List.pairwise_append.1 h.sorted).2.2 a ha last List.mem_cons_self).le
  · rw [List.mem_singleton.1 ha]

/-- What is left after a full page is fewer by the size of a page. -/
theorem IsPage.length_add_le (h : IsPage key size rows before page) (hnodup : rows.Nodup)
    {last : α} (hlast : page.getLast? = some last) :
    (rows.filter fun a => After (some (key last)) (key a)).length + page.length ≤
      (rows.filter fun a => After before (key a)).length := by
  have hlt : ∀ a, After (some (key last)) (key a) ↔ key a < key last := by simp [After]
  have hlastmem : last ∈ page := List.mem_of_getLast? hlast
  rw [← List.length_append]
  refine (List.Nodup.subperm ?_ fun a ha => ?_).length_le
  · refine List.nodup_append.2 ⟨hnodup.filter _, ?_, ?_⟩
    · exact h.sorted.imp fun hab heq => absurd (heq ▸ hab) (lt_irrefl _)
    · rintro a ha _ hb rfl
      have hrest := (List.mem_filter.1 ha).2
      rw [decide_eq_true_eq, hlt] at hrest
      exact absurd (h.key_last_le hlast hb) hrest.not_ge
  · rcases List.mem_append.1 ha with ha | ha
    · obtain ⟨hrow, hrest⟩ := List.mem_filter.1 ha
      rw [decide_eq_true_eq, hlt] at hrest
      refine List.mem_filter.2 ⟨hrow, decide_eq_true fun c hc => ?_⟩
      exact hrest.trans ((h.sound last hlastmem).2 c hc)
    · obtain ⟨hrow, hafter⟩ := h.sound a ha
      exact List.mem_filter.2 ⟨hrow, decide_eq_true hafter⟩

end Pages

/-! ## The reader -/

section Reader

variable {ε : Type}

/-- Pages are fetched one after the other until one is short; `fetch n` is the `n`-th read. There is
no result yet when the number of pages is used up. -/
def collect (fetch : ℕ → Option κ → Except ε (List α)) (cursor : α → κ) (size : ℕ) :
    ℕ → ℕ → Option κ → Except ε (Option (List α))
  | 0, _, _ => .ok none
  | pages + 1, n, before =>
    match fetch n before with
    | .error e => .error e
    | .ok page =>
      if page.length < size then .ok (some page)
      else
        match page.getLast? with
        | none => .ok (some page)
        | some last =>
          match collect fetch cursor size pages (n + 1) (some (cursor last)) with
          | .error e => .error e
          | .ok rest => .ok (rest.map (page ++ ·))

variable {fetch : ℕ → Option κ → Except ε (List α)} {size pages n : ℕ} {before : Option κ}
  {rows : List α}

section Ordered

variable [LinearOrder κ] {key : α → κ} {tables : ℕ → List α}

/-- **What a reader ends with**: rows in strictly descending order, and among them every key that
was there at every read. -/
theorem collect_spec (hsize : 0 < size)
    (hpage : ∀ n before page, fetch n before = .ok page → IsPage key size (tables n) before page)
    (h : collect fetch key size pages n before = .ok (some rows)) :
    rows.Pairwise (fun a b => key b < key a) ∧
      (∀ a ∈ rows, After before (key a) ∧ ∃ m, a ∈ tables m) ∧
      ∀ k, After before k → (∀ m, ∃ a ∈ tables m, key a = k) → ∃ a ∈ rows, key a = k := by
  induction pages generalizing n before rows with
  | zero => exact absurd (Except.ok.inj h) nofun
  | succ pages ih =>
    rw [collect] at h
    cases hfetch : fetch n before with
    | error e =>
      rw [hfetch] at h
      exact absurd h nofun
    | ok page =>
      rw [hfetch] at h
      have hp := hpage n before page hfetch
      have hsound : ∀ a ∈ page, After before (key a) ∧ ∃ m, a ∈ tables m := fun a ha =>
        ⟨(hp.sound a ha).2, n, (hp.sound a ha).1⟩
      by_cases hshort : page.length < size
      · -- a short page has all that is left
        simp only [hshort, if_true] at h
        obtain rfl := Option.some.inj (Except.ok.inj h)
        refine ⟨hp.sorted, hsound, fun k hk hthere => ?_⟩
        obtain ⟨a, ha, rfl⟩ := hthere n
        rcases hp.complete a ha hk with ha | ⟨hfull, -⟩
        · exact ⟨a, ha, rfl⟩
        · exact absurd hshort hfull.not_gt
      · simp only [hshort, if_false] at h
        cases hlast : page.getLast? with
        | none =>
          rw [List.getLast?_eq_none_iff.1 hlast] at hshort
          exact absurd hsize hshort
        | some last =>
          rw [hlast] at h
          have hlastmem : last ∈ page := List.mem_of_getLast? hlast
          cases hrest : collect fetch key size pages (n + 1) (some (key last)) with
          | error e =>
            simp only [hrest] at h
            exact absurd h nofun
          | ok rest =>
            simp only [hrest] at h
            cases rest with
            | none => exact absurd (Except.ok.inj h) nofun
            | some rest =>
              obtain rfl := Option.some.inj (Except.ok.inj h)
              obtain ⟨hsorted, hrestsound, hrestcomplete⟩ := ih hrest
              have hlt : ∀ a ∈ rest, key a < key last := fun a ha =>
                (hrestsound a ha).1 _ rfl
              refine ⟨List.pairwise_append.2 ⟨hp.sorted, hsorted, fun a ha b hb => ?_⟩,
                fun a ha => ?_, fun k hk hthere => ?_⟩
              · exact (hlt b hb).trans_le (hp.key_last_le hlast ha)
              · rcases List.mem_append.1 ha with ha | ha
                · exact hsound a ha
                · refine ⟨fun c hc => ?_, (hrestsound a ha).2⟩
                  exact (hlt a ha).trans ((hp.sound last hlastmem).2 c hc)
              · obtain ⟨a, ha, rfl⟩ := hthere n
                rcases hp.complete a ha hk with ha | ⟨-, hafter⟩
                · exact ⟨a, List.mem_append_left _ ha, rfl⟩
                · -- what is not on this page comes after its last row
                  have hnext : After (some (key last)) (key a) := by
                    rintro _ ⟨⟩
                    exact hafter last hlastmem
                  obtain ⟨b, hb, hkey⟩ := hrestcomplete (key a) hnext hthere
                  exact ⟨b, List.mem_append_right _ hb, hkey⟩

/-- **A reader of rows that stay ends.** -/
theorem collect_terminates {table : List α} (hnodup : table.Nodup)
    (hpage : ∀ n before, (∀ c ∈ before, ∃ a ∈ table, key a = c) →
      ∃ page, fetch n before = .ok page ∧ IsPage key size table before page)
    (hbefore : ∀ c ∈ before, ∃ a ∈ table, key a = c)
    (hfew : (table.filter fun a => After before (key a)).length < pages * size) :
    ∃ rows, collect fetch key size pages n before = .ok (some rows) := by
  induction pages generalizing n before with
  | zero => exact absurd hfew (by simp)
  | succ pages ih =>
    obtain ⟨page, hfetch, hp⟩ := hpage n before hbefore
    simp only [collect, hfetch]
    by_cases hshort : page.length < size
    · exact ⟨page, if_pos hshort⟩
    · rw [if_neg hshort]
      cases hlast : page.getLast? with
      | none => exact ⟨page, rfl⟩
      | some last =>
        have hlength := hp.length_add_le hnodup hlast
        have hrow := (hp.sound last (List.mem_of_getLast? hlast)).1
        obtain ⟨rest, hrest⟩ := @ih (n + 1) (some (key last)) (by
          rintro _ ⟨⟩
          exact ⟨last, hrow, rfl⟩) (by
          rw [Nat.add_mul, Nat.one_mul] at hfew
          omega)
        exact ⟨page ++ rest, by simp only [hrest, Option.map_some]⟩

end Ordered

/-! ## Tables -/

section Tables

variable [LinearOrder κ] {key : α → κ} {tables : ℕ → List α}

variable (key) in
/-- A reader of tables from the first page on. -/
def collectPages (size : ℕ) (tables : ℕ → List α) (pages : ℕ) : Except ε (Option (List α)) :=
  collect (fun n before => .ok (pageOf key size (tables n) before)) key size pages 0 none

theorem isPage_of_fetch (htables : ∀ n, Distinct key (tables n)) (n : ℕ) (before : Option κ)
    (page : List α)
    (h : (.ok (pageOf key size (tables n) before) : Except ε (List α)) = .ok page) :
    IsPage key size (tables n) before page := by
  obtain rfl := Except.ok.inj h
  exact isPage_pageOf key (htables n)

/-- **A table that stays is read as a whole.** -/
theorem collectPages_fixed {table : List α} (hsize : 0 < size) (htable : Distinct key table)
    (hfew : table.length < pages * size) :
    ∃ rows, (collectPages key size (fun _ => table) pages : Except ε _) = .ok (some rows) ∧
      rows.Pairwise (fun a b => key b < key a) ∧ ∀ a, a ∈ rows ↔ a ∈ table := by
  obtain ⟨rows, hrows⟩ : ∃ rows,
      (collectPages key size (fun _ => table) pages : Except ε _) = .ok (some rows) := by
    refine collect_terminates htable.nodup
      (fun n before _ => ⟨_, rfl, isPage_pageOf key htable⟩) nofun ?_
    exact (List.length_filter_le _ _).trans_lt hfew
  obtain ⟨hsorted, hsound, hcomplete⟩ :=
    collect_spec hsize (isPage_of_fetch fun _ => htable) hrows
  refine ⟨rows, hrows, hsorted, fun a => ⟨fun ha => ?_, fun ha => ?_⟩⟩
  · obtain ⟨-, -, ha⟩ := hsound a ha
    exact ha
  · obtain ⟨b, hb, hkey⟩ := hcomplete (key a) nofun fun _ => ⟨a, ha, rfl⟩
    obtain ⟨-, -, hbtable⟩ := hsound b hb
    rwa [htable.keys b hbtable a ha hkey] at hb

/-- **Rows whose keys stay are read once**, and none is missing that was there throughout. -/
theorem collectPages_changing {ι : Type} {ident : α → ι} (hsize : 0 < size)
    (htables : ∀ n, Distinct key (tables n))
    (hident : ∀ m, ∀ a ∈ tables m, ∀ n, ∀ b ∈ tables n, ident a = ident b → key a = key b)
    (h : (collectPages key size tables pages : Except ε _) = .ok (some rows)) :
    (rows.map ident).Nodup ∧
      ∀ i, (∀ n, ∃ a ∈ tables n, ident a = i) → ∃ a ∈ rows, ident a = i := by
  obtain ⟨hsorted, hsound, hcomplete⟩ := collect_spec hsize (isPage_of_fetch htables) h
  constructor
  · refine List.pairwise_map.2 (hsorted.imp_of_mem fun {a b} ha hb hlt heq => ?_)
    obtain ⟨-, m, ha⟩ := hsound a ha
    obtain ⟨-, n, hb⟩ := hsound b hb
    exact absurd (hident m a ha n b hb heq) hlt.ne'
  · intro i hthere
    obtain ⟨a, ha, rfl⟩ := hthere 0
    have hkey : ∀ n, ∃ b ∈ tables n, key b = key a := fun n => by
      obtain ⟨b, hb, hab⟩ := hthere n
      exact ⟨b, hb, hident n b hb 0 a ha hab⟩
    obtain ⟨b, hb, hbkey⟩ := hcomplete (key a) nofun hkey
    obtain ⟨-, m, hbtable⟩ := hsound b hb
    obtain ⟨c, hc, hac⟩ := hthere m
    have hcb : c = b := (htables m).keys c hc b hbtable
      ((hident m c hc 0 a ha hac).trans hbkey.symm)
    exact ⟨b, hb, hcb ▸ hac⟩

end Tables

/-- **A reader of other forms of the rows and keys** gets the other form of the same rows. -/
theorem collect_map {β κ' : Type} {f : α → β} {enc : κ → κ'} {key : α → κ} {cursor : β → κ'}
    {fetch' : ℕ → Option κ' → Except ε (List β)} {P : κ → Prop}
    (hfetch : ∀ n before, (∀ c ∈ before, P c) →
      fetch' n (before.map enc) = (fetch n before).map (List.map f))
    (hcursor : ∀ n before page, fetch n before = .ok page →
      ∀ a ∈ page, P (key a) ∧ cursor (f a) = enc (key a))
    (hbefore : ∀ c ∈ before, P c) :
    collect fetch' cursor size pages n (before.map enc) =
      (collect fetch key size pages n before).map (Option.map (List.map f)) := by
  induction pages generalizing n before with
  | zero => rfl
  | succ pages ih =>
    rw [collect, collect, hfetch n before hbefore]
    cases hpage : fetch n before with
    | error e => rfl
    | ok page =>
      simp only [Except.map, List.length_map, List.getLast?_map]
      by_cases hshort : page.length < size
      · simp only [hshort, if_true]
        rfl
      · simp only [hshort, if_false]
        cases hlast : page.getLast? with
        | none => rfl
        | some last =>
          obtain ⟨hP, henc⟩ := hcursor n before page hpage last (List.mem_of_getLast? hlast)
          have hrest := @ih (n + 1) (some (key last)) (by
            rintro _ ⟨⟩
            exact hP)
          simp only [Option.map_some, henc] at hrest ⊢
          rw [hrest]
          cases collect fetch key size pages (n + 1) (some (key last)) with
          | error e => rfl
          | ok rest =>
            cases rest with
            | none => rfl
            | some rest => simp only [Except.map, Option.map_some, List.map_append]

end Reader

/-! ## Times and ids -/

/-- A time and, where times are equal, an id. -/
@[ext]
structure Stamp where
  time : ℤ
  id : ℕ
  deriving DecidableEq

namespace Stamp

instance : LE Stamp := ⟨fun a b => a.time < b.time ∨ a.time = b.time ∧ a.id ≤ b.id⟩

instance : LT Stamp := ⟨fun a b => a.time < b.time ∨ a.time = b.time ∧ a.id < b.id⟩

theorem le_def {a b : Stamp} : a ≤ b ↔ a.time < b.time ∨ a.time = b.time ∧ a.id ≤ b.id := Iff.rfl

theorem lt_def {a b : Stamp} : a < b ↔ a.time < b.time ∨ a.time = b.time ∧ a.id < b.id := Iff.rfl

instance : LinearOrder Stamp where
  le_refl a := .inr ⟨rfl, Nat.le_refl _⟩
  le_trans a b c hab hbc := by
    rw [le_def] at *
    omega
  lt_iff_le_not_ge a b := by
    rw [lt_def, le_def, le_def]
    omega
  le_antisymm a b hab hba := by
    rw [le_def] at hab hba
    exact Stamp.ext (by omega) (by omega)
  le_total a b := by
    rw [le_def, le_def]
    omega
  toDecidableLE a b := decidable_of_iff _ le_def.symm

end Stamp

end Keyset
