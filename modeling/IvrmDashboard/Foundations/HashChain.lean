import Mathlib.Data.List.Induction
import Mathlib.Data.List.Nodup

/-!
# Hash chains

A log whose rows carry the hash of the row before them (`prev`) and a hash of their own (`own`).
`Linked` is the check a reader of the log makes: the first row has no predecessor, every row names
the hash of the row before it, and every own hash is recomputed from the row by `link`. Appending
a row built by `link` keeps the check (`linked_append`).

`Committing rows` says that the recomputed hashes of these rows determine what they were computed
from. Under it the last hash commits to the whole log: two linked logs with the same last hash
agree row by row (`keys_eq_of_lastHash_eq`), and no hash occurs twice in one log (`nodup_own`).
-/

namespace HashChain

variable {Row Hash Key : Type*} (prev : Row → Option Hash) (own : Row → Hash)
  (link : Option Hash → Row → Hash) (key : Row → Key)

/-- The rows in order, the first of them following the hash `p`. -/
def Linked : Option Hash → List Row → Prop
  | _, [] => True
  | p, r :: rows => prev r = p ∧ own r = link p r ∧ Linked (some (own r)) rows

/-- The hash the next row has to name, after `rows` appended behind `p`. -/
def lastHash (p : Option Hash) (rows : List Row) : Option Hash :=
  rows.foldl (fun _ r => some (own r)) p

/-- The hashes recomputed for these rows determine the predecessor and the key of each. -/
def Committing (rows : List Row) : Prop :=
  ∀ r ∈ rows, ∀ s ∈ rows, link (prev r) r = link (prev s) s → prev r = prev s ∧ key r = key s

variable {prev own link key}

@[simp] theorem lastHash_nil (p : Option Hash) : lastHash own p [] = p := rfl

@[simp] theorem lastHash_append (p : Option Hash) (rows : List Row) (r : Row) :
    lastHash own p (rows ++ [r]) = some (own r) := by
  simp [lastHash]

theorem lastHash_none (rows : List Row) : lastHash own none rows = rows.getLast?.map own := by
  rcases List.eq_nil_or_concat rows with rfl | ⟨rows, r, rfl⟩
  · rfl
  · rw [List.concat_eq_append, lastHash_append, List.getLast?_concat, Option.map_some]

theorem linked_append {p : Option Hash} {rows : List Row} {r : Row} :
    Linked prev own link p (rows ++ [r]) ↔ Linked prev own link p rows ∧
      prev r = lastHash own p rows ∧ own r = link (lastHash own p rows) r := by
  induction rows generalizing p with
  | nil => simp [Linked]
  | cons s rows ih =>
    simp only [List.cons_append, Linked, ih, and_assoc]
    rfl

/-- Every row of a linked log recomputes to its own hash, from the hash it names. -/
theorem Linked.own_eq {p : Option Hash} {rows : List Row} (h : Linked prev own link p rows) :
    ∀ r ∈ rows, own r = link (prev r) r := by
  induction rows generalizing p with
  | nil => simp
  | cons s rows ih =>
    obtain ⟨hprev, hown, hrest⟩ := h
    intro r hr
    rcases List.mem_cons.1 hr with rfl | hr
    · rw [hprev, hown]
    · exact ih hrest r hr

/-- The hash a row names is the starting one or the own hash of some row. -/
theorem Linked.prev_mem {p : Option Hash} {rows : List Row} (h : Linked prev own link p rows) :
    ∀ r ∈ rows, prev r = p ∨ ∃ s ∈ rows, prev r = some (own s) := by
  induction rows generalizing p with
  | nil => simp
  | cons s rows ih =>
    obtain ⟨hprev, -, hrest⟩ := h
    intro r hr
    rcases List.mem_cons.1 hr with rfl | hr
    · exact .inl hprev
    · rcases ih hrest r hr with h | ⟨t, ht, h⟩
      · exact .inr ⟨s, by simp, h⟩
      · exact .inr ⟨t, by simp [ht], h⟩

theorem Committing.subset {rows rows' : List Row} (h : Committing prev link key rows)
    (hsub : rows' ⊆ rows) : Committing prev link key rows' :=
  fun r hr s hs => h r (hsub hr) s (hsub hs)

/-- **The last hash commits to the log.** By induction from the last row backwards: equal own
hashes give equal keys and equal predecessors, and the predecessors are the last hashes of the
two shorter logs. -/
theorem keys_eq_of_lastHash_eq {rows rows' : List Row} (h : Linked prev own link none rows)
    (h' : Linked prev own link none rows') (hc : Committing prev link key (rows ++ rows'))
    (hlast : lastHash own none rows = lastHash own none rows') :
    rows.map key = rows'.map key := by
  induction rows using List.reverseRecOn generalizing rows' with
  | nil =>
    rcases List.eq_nil_or_concat rows' with rfl | ⟨rows', r', rfl⟩
    · rfl
    · simp at hlast
  | append_singleton rows r ih =>
    rcases List.eq_nil_or_concat rows' with rfl | ⟨rows', r', rfl⟩
    · simp at hlast
    · rw [List.concat_eq_append] at h' hc hlast ⊢
      obtain ⟨hrows, hprev, hown⟩ := linked_append.1 h
      obtain ⟨hrows', hprev', hown'⟩ := linked_append.1 h'
      simp only [lastHash_append, Option.some.injEq] at hlast
      rw [hown, hown', ← hprev, ← hprev'] at hlast
      obtain ⟨hp, hk⟩ := hc r (by simp) r' (by simp) hlast
      have hshort := ih hrows hrows' (hc.subset (by intro x hx; simp at hx ⊢; tauto))
        (by rw [← hprev, ← hprev', hp])
      rw [List.map_append, List.map_append, hshort, List.map_singleton, List.map_singleton, hk]

/-- The rows up to a given one, of a linked log. -/
theorem Linked.of_append {p : Option Hash} {rows rows' : List Row}
    (h : Linked prev own link p (rows ++ rows')) : Linked prev own link p rows := by
  induction rows' using List.reverseRecOn with
  | nil => simpa using h
  | append_singleton rows' r ih =>
    rw [← List.append_assoc] at h
    exact ih (linked_append.1 h).1

/-- **No hash occurs twice.** A repeated hash would end two logs, one a proper prefix of the
other, and these have different lengths. -/
theorem nodup_own {rows : List Row} (h : Linked prev own link none rows)
    (hc : Committing prev link key rows) : (rows.map own).Nodup := by
  induction rows using List.reverseRecOn with
  | nil => simp
  | append_singleton rows r ih =>
    have hrows := (linked_append.1 h).1
    have hnew : own r ∉ rows.map own := by
      rintro hmem
      obtain ⟨s, hs, heq⟩ := List.mem_map.1 hmem
      obtain ⟨front, back, rfl⟩ := List.append_of_mem hs
      have hfront : Linked prev own link none (front ++ [s]) :=
        Linked.of_append (by simpa using hrows)
      have hkeys := keys_eq_of_lastHash_eq h hfront
        (hc.subset (by intro x hx; simp at hx ⊢; tauto))
        (by rw [lastHash_append, lastHash_append, heq])
      have := congrArg List.length hkeys
      simp at this
    rw [List.map_append, List.map_singleton, ← List.concat_eq_append, List.nodup_concat]
    exact ⟨hnew, ih hrows (hc.subset (by simp))⟩

end HashChain
