import IvrmDashboard.ConsoleLogs.Viewer
import IvrmDashboard.Foundations.Sql.Unique

/-!
# Merging what a poll brings

What the viewer shows is in the order of the ids, every id once, and at most 800 lines; a line that
is still in the range is left out only when 800 lines with greater ids are shown (`isMerge`).
-/

namespace IvrmDashboard.ConsoleLogs

open Sql

/-! ## The map by id -/

theorem setById_ids {m : List ConsoleLogEntry} (h : Sql.Unique (·.id) m) (e : ConsoleLogEntry) :
    Sql.Unique (·.id) (setById m e) := by
  unfold setById
  split_ifs with hany
  · exact h.updateWhere fun a _ ha => (of_decide_eq_true ha).symm
  · exact h.concat (any_key_eq_false.1 (by simpa using hany))

/-- An entry of the map is an old one or the new one. -/
theorem mem_setById {m : List ConsoleLogEntry} {e x : ConsoleLogEntry} (h : x ∈ setById m e) :
    x ∈ m ∨ x = e := by
  unfold setById at h
  split_ifs at h
  · obtain ⟨a, ha, rfl⟩ := mem_updateWhere.1 h
    split_ifs
    · exact .inr rfl
    · exact .inl ha
  · simpa using h

/-- No id is lost, and the new one is there. -/
theorem exists_setById {m : List ConsoleLogEntry} {e x : ConsoleLogEntry} (h : x ∈ m ∨ x = e) :
    ∃ y ∈ setById m e, y.id = x.id := by
  unfold setById
  split_ifs with hany
  · rw [List.any_eq_true] at hany
    obtain ⟨a, ha, hid⟩ := hany
    have hid := of_decide_eq_true hid
    have hnew : e ∈ updateWhere (·.id = e.id) (fun _ => e) m :=
      mem_updateWhere.2 ⟨a, ha, by simp [hid]⟩
    rcases h with hx | rfl
    · by_cases hxe : x.id = e.id
      · exact ⟨e, hnew, hxe.symm⟩
      · exact ⟨x, mem_updateWhere.2 ⟨x, hx, by simp [hxe]⟩, rfl⟩
    · exact ⟨x, hnew, rfl⟩
  · exact ⟨x, by simpa using h, rfl⟩

/-- What the map holds after a list of entries. -/
structure IsIndex (entries m : List ConsoleLogEntry) : Prop where
  ids : Sql.Unique (·.id) m
  sound : ∀ x ∈ m, x ∈ entries
  complete : ∀ e ∈ entries, ∃ x ∈ m, x.id = e.id

theorem isIndex_foldl (entries : List ConsoleLogEntry) :
    IsIndex entries (entries.foldl setById []) := by
  induction entries using List.reverseRecOn with
  | nil => exact ⟨Sql.Unique.nil _, by simp, by simp⟩
  | append_singleton entries e ih =>
    rw [List.foldl_append, List.foldl_cons, List.foldl_nil]
    refine ⟨setById_ids ih.ids e, fun x hx => ?_, fun x hx => ?_⟩
    · rcases mem_setById hx with hx | rfl
      · exact List.mem_append_left _ (ih.sound x hx)
      · simp
    · rcases List.mem_append.1 hx with hx | hx
      · obtain ⟨y, hy, hid⟩ := ih.complete x hx
        obtain ⟨z, hz, hid'⟩ := exists_setById (e := e) (.inl hy)
        exact ⟨z, hz, hid'.trans hid⟩
      · rw [List.mem_singleton.1 hx]
        exact exists_setById (.inr rfl)

/-! ## The newest of a sorted list -/

theorem length_newest_le (l : List ConsoleLogEntry) : (newest l).length ≤ maxRenderedEntries := by
  rw [newest, List.length_drop]
  omega

theorem newest_eq_self {l : List ConsoleLogEntry} (h : l.length ≤ maxRenderedEntries) :
    newest l = l := by
  rw [newest, Nat.sub_eq_zero_of_le h, List.drop_zero]

/-- What is cut off comes before all that is kept, and then 800 are kept. -/
theorem mem_newest_or {l : List ConsoleLogEntry} (h : l.Pairwise fun a b => a.id < b.id)
    {e : ConsoleLogEntry} (he : e ∈ l) :
    e ∈ newest l ∨ (newest l).length = maxRenderedEntries ∧ ∀ x ∈ newest l, e.id < x.id := by
  unfold newest
  rw [← List.take_append_drop (l.length - maxRenderedEntries) l] at h he
  rcases List.mem_append.1 he with he | he
  · have hpos : (l.take (l.length - maxRenderedEntries)).length ≠ 0 :=
      (List.length_pos_of_mem he).ne'
    rw [List.length_take] at hpos
    refine .inr ⟨?_, fun x hx => (List.pairwise_append.1 h).2.2 e he x hx⟩
    rw [List.length_drop]
    omega
  · exact .inl he

/-! ## The merge -/

/-- What is shown after a poll at the time `polledAt`. -/
structure IsMerge (q : LogQuery) (current incoming : List ConsoleLogEntry) (polledAt : ℤ)
    (shown : List ConsoleLogEntry) : Prop where
  sorted : shown.Pairwise fun a b => a.id < b.id
  bounded : shown.length ≤ maxRenderedEntries
  sound : ∀ e ∈ shown, (e ∈ current ∨ e ∈ incoming) ∧ q.inRange polledAt e.observedAt = true
  complete : ∀ e, e ∈ current ∨ e ∈ incoming → q.inRange polledAt e.observedAt = true →
    (∃ x ∈ shown, x.id = e.id) ∨
      shown.length = maxRenderedEntries ∧ ∀ x ∈ shown, e.id < x.id

/-- The lines are in the order of their ids, and not too many. -/
def Ordered (shown : List ConsoleLogEntry) : Prop :=
  shown.Pairwise (fun a b => a.id < b.id) ∧ shown.length ≤ maxRenderedEntries

theorem IsMerge.ordered {q : LogQuery} {current incoming shown : List ConsoleLogEntry}
    {polledAt : ℤ} (h : IsMerge q current incoming polledAt shown) : Ordered shown :=
  ⟨h.sorted, h.bounded⟩

theorem isMerge (q : LogQuery) (current incoming : List ConsoleLogEntry) (polledAt : ℤ) :
    IsMerge q current incoming polledAt (mergeEntries q current incoming polledAt) := by
  unfold mergeEntries
  dsimp only
  have hindex := isIndex_foldl
    ((current ++ incoming).filter fun e => q.inRange polledAt e.observedAt)
  generalize ((current ++ incoming).filter fun e => q.inRange polledAt e.observedAt).foldl setById
    [] = m at hindex
  have hmem : ∀ e, e ∈ orderBy (byKey (·.id)) m ↔ e ∈ m := fun e => mem_orderBy _
  have hsorted : (orderBy (byKey (·.id)) m).Pairwise fun a b => a.id < b.id := by
    have hperm : (orderBy (byKey ConsoleLogEntry.id) m).Perm m := orderBy_perm _
    have hids : ((orderBy (byKey ConsoleLogEntry.id) m).map (·.id)).Nodup :=
      (hperm.map _).nodup_iff.2 hindex.ids
    have hne : (orderBy (byKey (·.id)) m).Pairwise fun a b => a.id ≠ b.id :=
      List.pairwise_map.1 hids
    exact ((pairwise_byKey _ m).and hne).imp fun hab => lt_of_le_of_ne hab.1 hab.2
  refine ⟨hsorted.sublist (List.drop_sublist _ _), length_newest_le _, fun e he => ?_,
    fun e he hrange => ?_⟩
  · have hin := hindex.sound e ((hmem e).1 (List.mem_of_mem_drop he))
    rw [List.mem_filter, List.mem_append] at hin
    exact hin
  · obtain ⟨x, hx, hid⟩ := hindex.complete e
      (List.mem_filter.2 ⟨List.mem_append.2 he, hrange⟩)
    rcases mem_newest_or hsorted ((hmem x).2 hx) with hkept | ⟨hfull, hbelow⟩
    · exact .inl ⟨x, hkept, hid⟩
    · exact .inr ⟨hfull, fun y hy => hid ▸ hbelow y hy⟩

end IvrmDashboard.ConsoleLogs
