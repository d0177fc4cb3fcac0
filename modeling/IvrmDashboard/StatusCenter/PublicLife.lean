import Mathlib.Order.MinMax
import IvrmDashboard.Foundations.AsOf
import IvrmDashboard.StatusCenter.Feed

/-!
# The public life of an announcement

The feed works out from the columns of an announcement whether to list it and whether it is active.
Between its publication and its archiving this is what the columns say
(`announcement_public_life`), as long as no call leaves a moment between reading the clock and
committing at which the announcement it writes is due (`Request.Prompt`). A call that archives an
announcement before its time and commits afterwards takes back what the feed has already shown
(`late_archive_takes_back`).
-/

namespace IvrmDashboard.StatusCenter

open Sql Notifications

/-! ## The times of an announcement -/

namespace Announcement

variable (a : Announcement) (t : ℤ)

/-- `publish_at` has come and `expires_at` has not. -/
def Due : Prop := a.publishAt ≤ .ofInstant t ∧ ∀ e ∈ a.expiresAt, .ofInstant t < e

/-- From `published_at` and `publish_at` on, until `expires_at` or `archived_at`. -/
def PublicLife : Prop :=
  (∃ p ∈ a.publishedAt, max (.ofInstant p) a.publishAt ≤ .ofInstant t) ∧
    (∀ e ∈ a.expiresAt, .ofInstant t < e) ∧ ∀ q ∈ a.archivedAt, t < q

/-- It was never published, or it was archived before `publish_at`. -/
def Withheld : Prop :=
  a.publishedAt = none ∨ ∃ q ∈ a.archivedAt, .ofInstant q < a.publishAt

/-- The row `publish_status_announcement_v1` writes. -/
def publish (v : Invocation) : Announcement :=
  { a with
    publicationState := .published
    publishedAt := some v.sampledAt
    updatedAt := v.sampledAt }

/-- The row `archive_status_announcement_v1` writes. -/
def archive (v : Invocation) : Announcement :=
  { a with
    publicationState := .archived
    archivedAt := some v.sampledAt
    updatedAt := v.sampledAt }

end Announcement

/-! ## What was seen at a time -/

/-- When a call commits. -/
def Call.commit (x : Call) : ℤ := x.invocation.clock

/-- The tables as of `t`. -/
def Center.asOf [Server] (c : Center) (calls : List Call) (t : ℤ) : Center :=
  c.run (Runs.upTo Call.commit t calls)

/-- What the feed lists at `t`, whatever its beginning and its limit would cut off. -/
def Center.announcementsAt [Server] (c : Center) (calls : List Call) (t : ℤ) :
    List Announcement :=
  (c.asOf calls t).announcements.filter (Announcement.listed (.ofInstant t))

/-- A limit and a beginning that cut nothing off leave what is listed. -/
theorem mem_publicAnnouncements {s : Store} {now : ℤ} {since : Timestamptz} {limit : ℕ}
    (hlimit : s.announcements.length ≤ limit) (hsince : ∀ a ∈ s.announcements, since ≤ a.publishAt)
    {a : Announcement} :
    a ∈ s.publicAnnouncements now since limit ↔
      a ∈ s.announcements.filter (Announcement.listed (.ofInstant now)) := by
  have hrows : s.announcements.filter (fun a => a.listed (.ofInstant now) && since ≤ a.publishAt) =
      s.announcements.filter (Announcement.listed (.ofInstant now)) := by
    apply List.filter_congr
    intro a ha
    rw [decide_eq_true (hsince a ha), Bool.and_true]
  rw [Store.publicAnnouncements, hrows, firstRows, List.take_of_length_le, mem_orderBy]
  rw [orderBy, List.length_insertionSort]
  exact (List.length_filter_le _ _).trans hlimit

/-- A moment between reading the clock and committing. -/
def Invocation.Pending (v : Invocation) (t : ℤ) : Prop := v.sampledAt ≤ t ∧ t < v.clock

/-- While the call waits, the draft it publishes is not due, nor is the published announcement it
archives. -/
def Request.Prompt (v : Invocation) (s : Store) : Request → Prop
  | .publishAnnouncement p =>
    ∀ a ∈ s.announcements, p.publicId = some a.publicId → a.publicationState = .draft →
      ∀ t, v.Pending t → ¬ a.Due t
  | .archiveAnnouncement p =>
    ∀ a ∈ s.announcements, p.publicId = some a.publicId → a.publicationState = .published →
      ∀ t, v.Pending t → (∃ published ∈ a.publishedAt, published ≤ t) → ¬ a.Due t
  | _ => True

/-- Every call of the run is prompt. -/
def Prompt [Server] (c : Center) (calls : List Call) : Prop :=
  ∀ front x back, calls = front ++ x :: back →
    x.request.Prompt x.invocation (c.run front).toStore

/-! ## One call -/

/-- What a call makes of the announcements. -/
inductive AnnouncementsAfter (x : Call) (rows : List Announcement) : List Announcement → Prop
  | same : AnnouncementsAfter x rows rows
  | created (a : Announcement) (hdraft : a.publishedAt = none) (hkept : a.archivedAt = none)
    (hfresh : announcementTable.keys.Fresh rows a) : AnnouncementsAfter x rows (rows ++ [a])
  | published (p : MutationParams) (a : Announcement) (hrequest : x.request = .publishAnnouncement p)
    (hid : p.publicId = some a.publicId) (ha : a ∈ rows) (hstate : a.publicationState = .draft)
    (hexpires : ∀ e ∈ a.expiresAt, x.invocation.now < e) :
    AnnouncementsAfter x rows
      (updateWhere (·.id = a.id) (fun _ => a.publish x.invocation) rows)
  | archived (p : MutationParams) (a : Announcement) (hrequest : x.request = .archiveAnnouncement p)
    (hid : p.publicId = some a.publicId) (ha : a ∈ rows) (hstate : a.publicationState = .published) :
    AnnouncementsAfter x rows
      (updateWhere (·.id = a.id) (fun _ => a.archive x.invocation) rows)

/-- The three states of an announcement. -/
theorem Announcement.states {a : Announcement} (h : Checked a.checks) :
    (a.publicationState = .draft ∧ a.publishedAt = none ∧ a.archivedAt = none) ∨
      (a.publicationState = .published ∧ (∃ p, a.publishedAt = some p) ∧ a.archivedAt = none) ∨
      (a.publicationState = .archived ∧ (∃ p, a.publishedAt = some p) ∧
        ∃ q, a.archivedAt = some q) := by
  simp only [Announcement.checks, checked_cons] at h
  obtain ⟨-, -, -, -, htimes, -⟩ := h
  cases hstate : a.publicationState with
  | draft => simpa [hstate, Option.isNone_iff_eq_none] using htimes
  | published => simpa [hstate, Option.isSome_iff_exists, Option.isNone_iff_eq_none] using htimes
  | cancelled => simp [hstate] at htimes
  | archived => simpa [hstate, Option.isSome_iff_exists] using htimes

theorem Mutation.Performed.refuse_eq_ok {ρ : Type} {m : Mutation ρ} {v : Invocation}
    {requestId : Uuid} {s s' : Store} {r r' : ρ} (h : m.Performed v requestId s r r' s') :
    m.refuse v r = .ok () := by
  cases h with
  | settled hrefuse _ => exact hrefuse
  | written _ hrefuse _ _ _ => exact hrefuse

section

variable [Server] {v : Invocation} {c c' : Center}

/-- Calls that concern no announcement leave them as they are. -/
theorem createStatusIncident_announcements {p : IncidentParams} {i : Incident}
    (h : createStatusIncident v p c = .ok (i, c')) : c'.announcements = c.announcements := by
  obtain ⟨d, -, ⟨-, -, rfl⟩ | ⟨impact, -, rfl, hstore, -, -⟩⟩ := createStatusIncident_eq_ok h
  · rfl
  · rw [hstore]
    rfl

theorem publishStatusIncident_announcements {p : MutationParams} {i : Incident}
    (h : publishStatusIncident v p c = .ok (i, c')) : c'.announcements = c.announcements := by
  obtain ⟨requestId, publicId, j, -, hj, ⟨u, -, -, -, rfl⟩ | ⟨-, ⟨-, -, rfl⟩ | ⟨-, -, h⟩⟩⟩ :=
    publishStatusIncident_eq_ok h
  · rfl
  · rfl
  · obtain ⟨rfl, -, -, -, hstore⟩ := publishDraft_eq_ok h
    rw [hstore]
    rfl

theorem appendStatusIncidentUpdate_announcements {p : UpdateParams} {i : Incident}
    (h : appendStatusIncidentUpdate v p c = .ok (i, c')) : c'.announcements = c.announcements := by
  obtain ⟨d, -, ⟨u, -, -, -, rfl⟩ | ⟨-, j, -, happend⟩⟩ := appendStatusIncidentUpdate_eq_ok h
  · rfl
  · obtain ⟨status, -, -, -, rfl, -, -, -, hstore⟩ := append_eq_ok happend
    rw [hstore]
    rfl

theorem createStatusMaintenance_announcements {p : MaintenanceParams} {m : MaintenanceNotice}
    (h : createStatusMaintenance v p c = .ok (m, c')) : c'.announcements = c.announcements := by
  obtain ⟨key, -, -, ⟨-, -, rfl⟩ | ⟨-, -, -, hstore⟩⟩ := createStatusMaintenance_eq_ok h
  · rfl
  · rw [hstore]

theorem noticeMutation_announcements {m : Mutation MaintenanceNotice} {p : MutationParams}
    {r : MaintenanceNotice} (hm : m = publishMaintenance ∨ m = cancelMaintenance)
    (h : m.run v p c = .ok (r, c')) : c'.announcements = c.announcements := by
  obtain ⟨_, _, _, -, -, ⟨_, -, -, -, -, rfl⟩ | ⟨-, hperformed⟩⟩ := Mutation.run_eq_ok h
  · rfl
  · obtain ⟨-, rows, -, hstore⟩ := noticeMutation_store hm hperformed
    rw [hstore]

/-- A new announcement is a draft. -/
theorem createStatusAnnouncement_announcements {p : AnnouncementParams} {a : Announcement} (x : Call)
    (h : createStatusAnnouncement v p c = .ok (a, c')) :
    AnnouncementsAfter x c.announcements c'.announcements := by
  obtain ⟨key, -, -, ⟨-, -, rfl⟩ | ⟨hrow, hfresh, -, hstore⟩⟩ := createStatusAnnouncement_eq_ok h
  · exact .same
  · rw [hstore]
    refine .created a ?_ ?_ hfresh
    all_goals
      simp only [AnnouncementParams.row, bind_eq_ok, pure_eq_ok] at hrow
      obtain ⟨_, -, _, -, _, -, _, -, _, -, _, -, _, -, rfl⟩ := hrow
      rfl

/-- A draft is published. -/
theorem publishStatusAnnouncement_announcements {p : MutationParams} {a : Announcement}
    (hs : c.Sound) (h : publishStatusAnnouncement v p c = .ok (a, c')) :
    AnnouncementsAfter ⟨.publishAnnouncement p, v⟩ c.announcements c'.announcements := by
  obtain ⟨requestId, publicId, r, hp, hr, ⟨_, -, -, -, -, rfl⟩ | ⟨-, hperformed⟩⟩ :=
    Mutation.run_eq_ok h
  · exact .same
  · obtain ⟨-, rows, hafter, hstore⟩ := announcementMutation_store (.inl rfl) hperformed
    obtain ⟨hmem, hpublicId⟩ := find?_key_eq_some hr
    rw [hstore]
    rcases hafter with ⟨-, -, rfl⟩ | ⟨hsettled, hwrite, -, rfl⟩
    · exact .same
    · have hdraft : r.publicationState = .draft := by
        have harchived := raiseIf_eq_ok.1 hperformed.refuse_eq_ok
        simp only [publishAnnouncement, decide_eq_false_iff_not] at harchived hsettled
        rcases Announcement.states (hs.announcementsChecked r hmem) with h | h | h
        · exact h.1
        · exact absurd h.1 hsettled
        · exact absurd h.1 harchived
      simp only [publishAnnouncement, bind_eq_ok, raiseIf_eq_ok, pure_eq_ok] at hwrite
      obtain ⟨_, hexpires, rfl⟩ := hwrite
      refine .published p r rfl ?_ hmem hdraft ?_
      · rw [(MutationParams.validate_eq_ok hp).2.1]
        exact congrArg some hpublicId.symm
      · intro e he
        rw [Option.any_eq_false] at hexpires
        simpa using hexpires e he

/-- A published announcement is archived. -/
theorem archiveStatusAnnouncement_announcements {p : MutationParams} {a : Announcement}
    (hs : c.Sound) (h : archiveStatusAnnouncement v p c = .ok (a, c')) :
    AnnouncementsAfter ⟨.archiveAnnouncement p, v⟩ c.announcements c'.announcements := by
  obtain ⟨requestId, publicId, r, hp, hr, ⟨_, -, -, -, -, rfl⟩ | ⟨-, hperformed⟩⟩ :=
    Mutation.run_eq_ok h
  · exact .same
  · obtain ⟨-, rows, hafter, hstore⟩ := announcementMutation_store (.inr rfl) hperformed
    obtain ⟨hmem, hpublicId⟩ := find?_key_eq_some hr
    rw [hstore]
    rcases hafter with ⟨-, -, rfl⟩ | ⟨hsettled, hwrite, -, rfl⟩
    · exact .same
    · have hpublished : r.publicationState = .published := by
        have hdraft := raiseIf_eq_ok.1 hperformed.refuse_eq_ok
        simp only [archiveAnnouncement, decide_eq_false_iff_not] at hdraft hsettled
        rcases Announcement.states (hs.announcementsChecked r hmem) with h | h | h
        · exact absurd h.1 hdraft
        · exact h.1
        · exact absurd h.1 hsettled
      obtain rfl := Except.ok.inj hwrite
      refine .archived p r rfl ?_ hmem hpublished
      rw [(MutationParams.validate_eq_ok hp).2.1]
      exact congrArg some hpublicId.symm

/-- **A call adds a draft, publishes a draft, archives what is published, or does nothing.** -/
theorem Request.perform_announcements {r : Request} {publicId : String} (hs : c.Sound)
    (h : r.perform v c = .ok (publicId, c')) :
    AnnouncementsAfter ⟨r, v⟩ c.announcements c'.announcements := by
  cases r with
  | createIncident p =>
    obtain ⟨⟨i, _⟩, hcall, rfl, rfl⟩ := by simpa only [perform, map_eq_ok, Prod.mk.injEq] using h
    exact createStatusIncident_announcements hcall ▸ .same
  | publishIncident p =>
    obtain ⟨⟨i, _⟩, hcall, rfl, rfl⟩ := by simpa only [perform, map_eq_ok, Prod.mk.injEq] using h
    exact publishStatusIncident_announcements hcall ▸ .same
  | appendIncidentUpdate p =>
    obtain ⟨⟨i, _⟩, hcall, rfl, rfl⟩ := by simpa only [perform, map_eq_ok, Prod.mk.injEq] using h
    exact appendStatusIncidentUpdate_announcements hcall ▸ .same
  | createMaintenance p =>
    obtain ⟨⟨m, _⟩, hcall, rfl, rfl⟩ := by simpa only [perform, map_eq_ok, Prod.mk.injEq] using h
    exact createStatusMaintenance_announcements hcall ▸ .same
  | publishMaintenance p =>
    obtain ⟨⟨m, _⟩, hcall, rfl, rfl⟩ := by simpa only [perform, map_eq_ok, Prod.mk.injEq] using h
    exact noticeMutation_announcements (.inl rfl) hcall ▸ .same
  | cancelMaintenance p =>
    obtain ⟨⟨m, _⟩, hcall, rfl, rfl⟩ := by simpa only [perform, map_eq_ok, Prod.mk.injEq] using h
    exact noticeMutation_announcements (.inr rfl) hcall ▸ .same
  | createAnnouncement p =>
    obtain ⟨⟨a, _⟩, hcall, rfl, rfl⟩ := by simpa only [perform, map_eq_ok, Prod.mk.injEq] using h
    exact createStatusAnnouncement_announcements _ hcall
  | publishAnnouncement p =>
    obtain ⟨⟨a, _⟩, hcall, rfl, rfl⟩ := by simpa only [perform, map_eq_ok, Prod.mk.injEq] using h
    exact publishStatusAnnouncement_announcements hs hcall
  | archiveAnnouncement p =>
    obtain ⟨⟨a, _⟩, hcall, rfl, rfl⟩ := by simpa only [perform, map_eq_ok, Prod.mk.injEq] using h
    exact archiveStatusAnnouncement_announcements hs hcall

theorem Center.step_announcements (hs : c.Sound) (x : Call) :
    AnnouncementsAfter x c.announcements (c.step x).announcements := by
  unfold step
  split
  next publicId c' h => exact Request.perform_announcements hs h
  next => exact .same

end

/-! ## What has been seen, and what comes later -/

/-- The times of an announcement that is seen at `t`. -/
structure Announcement.Seen (t : ℤ) (a : Announcement) : Prop where
  published : ∀ p ∈ a.publishedAt, p ≤ t ∧ ∀ e ∈ a.expiresAt, .ofInstant p < e
  archived : ∀ q ∈ a.archivedAt, q ≤ t

/-- Calls that commit after `t` publish `a` at a time from which on it is not due until `t`. -/
def Announcement.LatePublished (t : ℤ) (a : Announcement) : Prop :=
  ∀ p ∈ a.publishedAt, ∀ u, p ≤ u → u ≤ t → ¬ a.Due u

/-- Calls that commit after `t` archive `a` at a time from which on it is not due until `t`. -/
def Announcement.LateArchived (t : ℤ) (a : Announcement) : Prop :=
  ∀ q ∈ a.archivedAt, ∀ p ∈ a.publishedAt, ∀ u, q ≤ u → p ≤ u → u ≤ t → ¬ a.Due u

/-- What calls that commit after `t` may have made of `b`. -/
structure Announcement.Later (t : ℤ) (b a : Announcement) : Prop where
  fixed : a.fixed = b.fixed
  published : a.publishedAt = b.publishedAt ∨ b.publishedAt = none ∧ a.LatePublished t
  archived : a.archivedAt = b.archivedAt ∨ b.archivedAt = none ∧ a.LateArchived t

/-- An announcement that was there at `t`, or has not been due since its publication until then. -/
def Announcement.Known (t : ℤ) (old : List Announcement) (a : Announcement) : Prop :=
  (∃ b ∈ old, b.id = a.id) ∨ a.LatePublished t

section

variable {t : ℤ} {x : Call} {rows rows' : List Announcement}

theorem Announcement.due_iff_of_fixed {a b : Announcement} (h : a.fixed = b.fixed) (u : ℤ) :
    a.Due u ↔ b.Due u := by
  have hpublish : a.publishAt = b.publishAt := congrArg (fun x => x.2.2.2.1) h
  have hexpires : a.expiresAt = b.expiresAt := congrArg (fun x => x.2.2.2.2.1) h
  rw [Due, Due, hpublish, hexpires]

theorem Announcement.content_eq_of_fixed {a b : Announcement} (h : a.fixed = b.fixed) :
    a.content = b.content := by
  simp only [fixed, Prod.mk.injEq] at h
  obtain ⟨⟨-, hpublicId, -⟩, hkind, ⟨htitle, hbody, hservices⟩, hpublish, hexpires, -⟩ := h
  rw [content, content, hpublicId, hkind, htitle, hbody, hservices, hpublish, hexpires]

theorem AnnouncementsAfter.seen (h : AnnouncementsAfter x rows rows') (hx : x.commit ≤ t)
    (hrows : ∀ a ∈ rows, a.Seen t) : ∀ a ∈ rows', a.Seen t := by
  have hsampled : x.invocation.sampledAt ≤ t := x.invocation.sampled_le.trans hx
  cases h with
  | same => exact hrows
  | created a hdraft hkept _ =>
    refine forall_concat hrows ⟨?_, ?_⟩
    · simp [hdraft]
    · simp [hkept]
  | published p a _ _ ha _ hexpires =>
    refine Keys.forall_replace hrows ⟨?_, (hrows a ha).archived⟩
    intro p hp
    obtain rfl := Option.mem_some_iff.1 hp
    exact ⟨hsampled, hexpires⟩
  | archived p a _ _ ha _ =>
    refine Keys.forall_replace hrows ⟨(hrows a ha).published, ?_⟩
    intro q hq
    obtain rfl := Option.mem_some_iff.1 hq
    exact hsampled

/-- What is replaced carries on what has become of an old row. -/
theorem exists_replaced {P : Announcement → Prop} {a a' : Announcement}
    (hrows : announcementTable.keys.Unique rows) (ha : a ∈ rows) (hreplace : P a → P a')
    (h : ∃ r ∈ rows, P r) : ∃ r ∈ updateWhere (·.id = a.id) (fun _ => a') rows, P r := by
  obtain ⟨r, hr, hP⟩ := h
  refine ⟨if r.id = a.id then a' else r, mem_updateWhere.2 ⟨r, hr, by simp⟩, ?_⟩
  split
  next hid =>
    obtain rfl := hrows.id.eq hr ha hid
    exact hreplace hP
  next => exact hP

/-- **A prompt call that commits after `t`** makes a later row of every row. -/
theorem AnnouncementsAfter.later (h : AnnouncementsAfter x rows rows')
    (hrows : announcementTable.keys.Unique rows) (hchecked : ∀ a ∈ rows, Checked a.checks)
    {s : Store} (hs : s.announcements = rows) (hx : t < x.commit)
    (hprompt : x.request.Prompt x.invocation s) {b : Announcement}
    (hb : ∃ a ∈ rows, Announcement.Later t b a) : ∃ a ∈ rows', Announcement.Later t b a := by
  cases h with
  | same => exact hb
  | created a _ _ _ =>
    obtain ⟨r, hr, hlater⟩ := hb
    exact ⟨r, List.mem_append_left _ hr, hlater⟩
  | published p a hrequest hid ha hstate _ =>
    obtain ⟨-, hpublished, harchived⟩ : a.publicationState = .draft ∧ a.publishedAt = none ∧
        a.archivedAt = none := by
      rcases Announcement.states (hchecked a ha) with h | h | h
      · exact h
      · simp [hstate] at h
      · simp [hstate] at h
    rw [hrequest] at hprompt
    have hwait := hprompt a (hs ▸ ha) hid hstate
    refine exists_replaced hrows ha ?_ hb
    intro hlater
    refine ⟨hlater.fixed, .inr ⟨?_, ?_⟩, ?_⟩
    · rcases hlater.published with h | h
      · rw [← h, hpublished]
      · exact h.1
    · intro p hp u hpu hut
      obtain rfl := Option.mem_some_iff.1 hp
      exact hwait u ⟨hpu, hut.trans_lt hx⟩
    · refine .inl ?_
      rcases hlater.archived with h | h
      · exact h
      · rw [h.1]
        exact harchived
  | archived p a hrequest hid ha hstate =>
    have harchived : a.archivedAt = none := by
      rcases Announcement.states (hchecked a ha) with h | h | h
      · exact h.2.2
      · exact h.2.2
      · simp [hstate] at h
    rw [hrequest] at hprompt
    have hwait := hprompt a (hs ▸ ha) hid hstate
    refine exists_replaced hrows ha ?_ hb
    intro hlater
    refine ⟨hlater.fixed, hlater.published, .inr ⟨?_, ?_⟩⟩
    · rcases hlater.archived with h | h
      · rw [← h, harchived]
      · exact h.1
    · intro q hq p hp u hqu hpu hut
      obtain rfl := Option.mem_some_iff.1 hq
      exact hwait u ⟨hqu, hut.trans_lt hx⟩ ⟨p, hp, hpu⟩

/-- No announcement that is new after `t` would have been shown before. -/
theorem AnnouncementsAfter.known (h : AnnouncementsAfter x rows rows') {old : List Announcement}
    {s : Store} (hs : s.announcements = rows) (hx : t < x.commit)
    (hprompt : x.request.Prompt x.invocation s) (hold : ∀ a ∈ rows, a.Known t old) :
    ∀ a ∈ rows', a.Known t old := by
  cases h with
  | same => exact hold
  | created a hdraft _ _ =>
    refine forall_concat hold (.inr ?_)
    simp [Announcement.LatePublished, hdraft]
  | published p a hrequest hid ha hstate _ =>
    rw [hrequest] at hprompt
    have hwait := hprompt a (hs ▸ ha) hid hstate
    refine Keys.forall_replace hold (.inr ?_)
    intro p hp u hpu hut
    obtain rfl := Option.mem_some_iff.1 hp
    exact hwait u ⟨hpu, hut.trans_lt hx⟩
  | archived p a _ _ ha _ => exact Keys.forall_replace hold (hold a ha)

end

/-! ## Runs -/

namespace Center

variable [Server] {c : Center} {t : ℤ} {calls : List Call}

theorem run_seen (hs : c.Sound) (hcalls : ∀ x ∈ calls, x.commit ≤ t)
    (hseen : ∀ a ∈ c.announcements, a.Seen t) : ∀ a ∈ (c.run calls).announcements, a.Seen t := by
  refine (@Runs.run_invariant_of _ _ step
    (fun c : Center => c.Sound ∧ ∀ a ∈ c.announcements, a.Seen t)
    (fun _ x => x.commit ≤ t) ?_ c calls ?_ ⟨hs, hseen⟩).2
  · rintro c x ⟨hs, hseen⟩ hx
    exact ⟨step_sound x hs, (step_announcements hs x).seen hx hseen⟩
  · intro front x back h
    exact hcalls x (by rw [h]; simp)

/-- What a run after `t` makes of the announcements. -/
theorem run_later (hs : c.Sound) (hcalls : ∀ x ∈ calls, t < x.commit) (hprompt : Prompt c calls) :
    (∀ b ∈ c.announcements, ∃ a ∈ (c.run calls).announcements, b.Later t a) ∧
      ∀ a ∈ (c.run calls).announcements, a.Known t c.announcements := by
  refine (@Runs.run_invariant_of _ _ step
    (fun d : Center => d.Sound ∧
      (∀ b ∈ c.announcements, ∃ a ∈ d.announcements, Announcement.Later t b a) ∧
      ∀ a ∈ d.announcements, a.Known t c.announcements)
    (fun d x => t < x.commit ∧ x.request.Prompt x.invocation d.toStore) ?_ c calls ?_ ?_).2
  · rintro d x ⟨hd, hlater, hknown⟩ ⟨hx, hprompt⟩
    have hafter := step_announcements hd x
    refine ⟨step_sound x hd, ?_, hafter.known rfl hx hprompt hknown⟩
    intro b hb
    exact hafter.later hd.announcements hd.announcementsChecked rfl hx hprompt (hlater b hb)
  · intro front x back h
    exact ⟨hcalls x (by rw [h]; simp), hprompt front x back h⟩
  · refine ⟨hs, ?_, fun a ha => .inl ⟨a, ha, rfl⟩⟩
    intro b hb
    exact ⟨b, hb, rfl, .inl rfl, .inl rfl⟩

end Center

/-! ## One announcement at two times -/

theorem exists_instant {q t : ℤ} {x : Timestamptz} (hq : .ofInstant q < x) (ht : x ≤ .ofInstant t) :
    ∃ u, x = .ofInstant u := by
  match x with
  | none => exact absurd hq (not_lt_bot)
  | some none => exact absurd ht (not_le_of_gt (WithBot.coe_lt_coe.2 (WithTop.coe_lt_top t)))
  | some (some u) => exact ⟨u, rfl⟩

namespace Announcement

variable {t : ℤ} {a b : Announcement}

theorem active_iff : b.active (.ofInstant t) = true ↔ b.publicationState = .published ∧ b.Due t := by
  simp [active, Due, and_assoc, Option.all_eq_true]

theorem listed_iff : b.listed (.ofInstant t) = true ↔
    (b.publicationState = .published ∨ b.publicationState = .archived) ∧
      b.publishAt ≤ .ofInstant t ∧
      (b.publicationState = .published ∨ ∃ q ∈ b.archivedAt, b.publishAt ≤ .ofInstant q) := by
  simp [listed, and_assoc, Option.any_eq_true]

theorem listed_of_active (h : b.active (.ofInstant t) = true) : b.listed (.ofInstant t) = true := by
  obtain ⟨hstate, hdue, -⟩ := active_iff.1 h
  exact listed_iff.2 ⟨.inl hstate, hdue, .inl hstate⟩

theorem publishAt_lt_of_checked (h : Checked a.checks) : ∀ e ∈ a.expiresAt, a.publishAt < e := by
  simp only [checks, checked_cons] at h
  obtain ⟨-, hexpiry, -⟩ := h
  simpa [Option.all_eq_true] using hexpiry

/-- What has been listed is not taken back by archiving it. -/
theorem Later.publishAt_le (h : b.Later t a) (hseen : b.Seen t) (hb : Checked b.checks)
    (hlisted : b.listed (.ofInstant t) = true) : ∀ q ∈ a.archivedAt, a.publishAt ≤ .ofInstant q := by
  intro q hq
  have hpublish : a.publishAt = b.publishAt := congrArg (fun x => x.2.2.2.1) h.fixed
  obtain ⟨-, hdue, harchived⟩ := listed_iff.1 hlisted
  rw [hpublish]
  rcases h.archived with heq | ⟨hnone, hlate⟩
  · rw [heq] at hq
    rcases harchived with hstate | ⟨q', hq', hle⟩
    · rcases b.states hb with hb | hb | hb
      · simp [hb.2.2] at hq
      · simp [hb.2.2] at hq
      · simp [hb.1] at hstate
    · rwa [Option.mem_unique hq hq']
  · -- the announcement was due since it was published, and the call that archived it knew
    by_contra hlt
    rw [not_le] at hlt
    obtain ⟨p, hp⟩ : ∃ p, b.publishedAt = some p := by
      rcases b.states hb with hb | hb | hb
      · simp [listed, hb.1] at hlisted
      · exact hb.2.1
      · exact hb.2.1
    obtain ⟨hpt, hexpires⟩ := hseen.published p hp
    have hpa : p ∈ a.publishedAt := by
      rcases h.published with heq | ⟨hnone, -⟩
      · rw [heq, hp]
        rfl
      · simp [hp] at hnone
    obtain ⟨u, hu⟩ := exists_instant hlt hdue
    rw [hu, Timestamptz.ofInstant_lt] at hlt
    rw [hu, Timestamptz.ofInstant_le] at hdue
    refine hlate q hq p hpa (max u p) (hlt.le.trans (le_max_left u p)) (le_max_right u p)
      (max_le hdue hpt) ((due_iff_of_fixed h.fixed _).2 ⟨?_, ?_⟩)
    · rw [hu, Timestamptz.ofInstant_le]
      exact le_max_left u p
    · intro e he
      rcases max_choice u p with hmax | hmax
      · rw [hmax, ← hu]
        exact publishAt_lt_of_checked hb e he
      · rw [hmax]
        exact hexpires e he

/-- **Active is what the columns say**, also if they are read later. -/
theorem Later.active_iff (h : b.Later t a) (hseen : b.Seen t) (hb : Checked b.checks) :
    b.active (.ofInstant t) = true ↔ a.PublicLife t := by
  have hpublish : a.publishAt = b.publishAt := congrArg (fun x => x.2.2.2.1) h.fixed
  have hexpiresAt : a.expiresAt = b.expiresAt := congrArg (fun x => x.2.2.2.2.1) h.fixed
  rw [Announcement.active_iff]
  constructor
  · rintro ⟨hstate, hdue⟩
    obtain ⟨-, ⟨p, hp⟩, harchived⟩ : b.publicationState = .published ∧
        (∃ p, b.publishedAt = some p) ∧ b.archivedAt = none := by
      rcases b.states hb with hb | hb | hb
      · simp [hb.1] at hstate
      · exact hb
      · simp [hb.1] at hstate
    have hpt : p ≤ t := (hseen.published p hp).1
    have hpa : p ∈ a.publishedAt := by
      rcases h.published with heq | ⟨hnone, -⟩
      · rw [heq, hp]
        rfl
      · simp [hp] at hnone
    refine ⟨⟨p, hpa, max_le ?_ ?_⟩, ?_, ?_⟩
    · exact Timestamptz.ofInstant_le.2 hpt
    · rw [hpublish]
      exact hdue.1
    · rw [hexpiresAt]
      exact hdue.2
    · intro q hq
      rcases h.archived with heq | ⟨-, hlate⟩
      · simp [heq, harchived] at hq
      · by_contra hle
        exact hlate q hq p hpa t (not_lt.1 hle) hpt le_rfl ((due_iff_of_fixed h.fixed t).2 hdue)
  · rintro ⟨⟨p, hp, hmax⟩, hexpires, harchived⟩
    have hdue : a.Due t := ⟨(le_max_right _ _).trans hmax, hexpires⟩
    have hpt : p ≤ t := Timestamptz.ofInstant_le.1 ((le_max_left _ _).trans hmax)
    have hpb : p ∈ b.publishedAt := by
      rcases h.published with heq | ⟨-, hlate⟩
      · rwa [← heq]
      · exact absurd hdue (hlate p hp t hpt le_rfl)
    have hkept : b.archivedAt = none := by
      rcases h.archived with heq | ⟨hnone, -⟩
      · rw [Option.eq_none_iff_forall_not_mem]
        intro q hq
        have hqt : q ≤ t := hseen.archived q hq
        exact absurd (harchived q (heq ▸ hq)) (not_lt.2 hqt)
      · exact hnone
    refine ⟨?_, (due_iff_of_fixed h.fixed t).1 hdue⟩
    rcases b.states hb with hb | hb | ⟨-, -, q, hq⟩
    · simp [hb.2.1] at hpb
    · exact hb.1
    · simp [hq] at hkept

/-- **What has been listed stays listed.** -/
theorem Later.listed {t' : ℤ} (h : b.Later t a) (hle : t ≤ t') (hseen : b.Seen t)
    (hb : Checked b.checks) (ha : Checked a.checks) (hlisted : b.listed (.ofInstant t) = true) :
    a.listed (.ofInstant t') = true := by
  have hpublish : a.publishAt = b.publishAt := congrArg (fun x => x.2.2.2.1) h.fixed
  obtain ⟨-, hdue, -⟩ := listed_iff.1 hlisted
  have htime : a.publishAt ≤ .ofInstant t' := by
    rw [hpublish]
    exact hdue.trans (Timestamptz.ofInstant_le.2 hle)
  rcases a.states ha with ⟨-, hnone, -⟩ | ⟨hstate, -, -⟩ | ⟨hstate, -, q, hq⟩
  · -- an announcement that is listed has been published
    exfalso
    have hdraft : b.publishedAt = none := by
      rcases h.published with heq | h
      · rw [← heq, hnone]
      · exact h.1
    rcases b.states hb with hb | hb | hb
    · simp [Announcement.listed, hb.1] at hlisted
    · simp [hdraft] at hb
    · simp [hdraft] at hb
  · exact listed_iff.2 ⟨.inl hstate, htime, .inl hstate⟩
  · exact listed_iff.2 ⟨.inr hstate, htime, .inr ⟨q, hq, h.publishAt_le hseen hb hlisted q hq⟩⟩

/-- What is withheld has never been listed. -/
theorem Later.not_listed (h : b.Later t a) (hseen : b.Seen t) (hb : Checked b.checks)
    (hwithheld : a.Withheld) : b.listed (.ofInstant t) = false := by
  rw [← Bool.not_eq_true]
  intro hlisted
  rcases hwithheld with hnone | ⟨q, hq, hlt⟩
  · have hdraft : b.publishedAt = none := by
      rcases h.published with heq | h
      · rw [← heq, hnone]
      · exact h.1
    rcases b.states hb with hb | hb | hb
    · simp [Announcement.listed, hb.1] at hlisted
    · simp [hdraft] at hb
    · simp [hdraft] at hb
  · exact absurd (h.publishAt_le hseen hb hlisted q hq) (not_le.2 hlt)

end Announcement

/-! ## The feed over time -/

/-- The feed marks an announcement with this id as active at `t`. -/
def Center.ActiveAt [Server] (c : Center) (calls : List Call) (id : Uuid) (t : ℤ) : Prop :=
  ∃ b ∈ c.announcementsAt calls t, b.id = id ∧ b.active (.ofInstant t) = true

/-- What the feed promises of an announcement, `a` being what has become of it. -/
structure Center.Presents [Server] (c : Center) (calls : List Call) (a : Announcement) :
    Prop where
  active : ∀ t, c.ActiveAt calls a.id t ↔ a.PublicLife t
  withheld : a.Withheld → ∀ t, ∀ b ∈ c.announcementsAt calls t, b.id ≠ a.id
  stays : ∀ t t', t ≤ t' → ∀ b ∈ c.announcementsAt calls t, b.id = a.id →
    ∃ b' ∈ c.announcementsAt calls t', b'.id = a.id ∧ b'.content = b.content
  once : ∀ t t' t'', t ≤ t' → t' ≤ t'' → c.ActiveAt calls a.id t → c.ActiveAt calls a.id t'' →
    c.ActiveAt calls a.id t'

section

variable [Server] {c : Center} {calls : List Call} {t : ℤ}

theorem mem_announcementsAt {b : Announcement} : b ∈ c.announcementsAt calls t ↔
    b ∈ (c.asOf calls t).announcements ∧ b.listed (.ofInstant t) = true :=
  List.mem_filter

theorem Center.asOf_sound (hs : c.Sound) (calls : List Call) (t : ℤ) : (c.asOf calls t).Sound :=
  run_sound _ hs

theorem Center.asOf_seen (hs : c.Sound) (hempty : c.announcements = []) (calls : List Call)
    (t : ℤ) : ∀ a ∈ (c.asOf calls t).announcements, a.Seen t := by
  refine run_seen hs (fun x hx => Runs.clock_le_of_mem_upTo hx) ?_
  simp [hempty]

theorem Prompt.back {front back : List Call} (h : Prompt c (front ++ back)) :
    Prompt (c.run front) back := by
  intro before x after heq
  rw [Center.run, Center.run, ← Runs.run_append]
  exact h (front ++ before) x after (by rw [heq, List.append_assoc])

theorem Prompt.front {front back : List Call} (h : Prompt c (front ++ back)) :
    Prompt c front := by
  intro before x after heq
  refine h before x (after ++ back) ?_
  rw [heq, List.append_assoc, List.cons_append]

/-- What has become in the end of what was there at `t`. -/
theorem Center.later_end (hs : c.Sound) (hcommitted : Runs.Committed Call.commit calls)
    (hprompt : Prompt c calls) (t : ℤ) :
    (∀ b ∈ (c.asOf calls t).announcements, ∃ a ∈ (c.run calls).announcements, b.Later t a) ∧
      ∀ a ∈ (c.run calls).announcements, a.Known t (c.asOf calls t).announcements := by
  obtain ⟨back, hsplit, hback⟩ := Runs.exists_append hcommitted t
  rw [hsplit] at hprompt
  have h := run_later (asOf_sound hs calls t) hback hprompt.back
  rw [asOf, run, run, ← Runs.run_append, ← hsplit] at h
  exact h

/-- What has become at `t'` of what was there at `t`. -/
theorem Center.later_at (hs : c.Sound) (hcommitted : Runs.Committed Call.commit calls)
    (hprompt : Prompt c calls) {t t' : ℤ} (hle : t ≤ t') :
    ∀ b ∈ (c.asOf calls t).announcements, ∃ a ∈ (c.asOf calls t').announcements, b.Later t a := by
  obtain ⟨middle, hmore, hmiddle⟩ := Runs.exists_upTo_append hcommitted hle
  obtain ⟨back, hsplit, -⟩ := Runs.exists_append hcommitted t'
  rw [hsplit, hmore] at hprompt
  have h := (run_later (asOf_sound hs calls t) hmiddle hprompt.front.back).1
  rw [asOf, run, run, ← Runs.run_append, ← hmore] at h
  exact h

end

/-- **The feed shows an announcement exactly for its public life** in every run of prompt calls, in
the order of their commits. -/
theorem announcement_public_life [Server] (t₀ : ℤ) (calls : List Call)
    (hcommitted : Runs.Committed Call.commit calls) (hprompt : Prompt (Center.initial t₀) calls) :
    ∀ a ∈ ((Center.initial t₀).run calls).announcements,
      (Center.initial t₀).Presents calls a := by
  intro a ha
  have hs : (Center.initial t₀).Sound := Store.empty_sound
  have hend : ((Center.initial t₀).run calls).Sound := Center.run_sound calls hs
  have hseen := Center.asOf_seen hs rfl calls
  have hsound := Center.asOf_sound hs calls
  -- what was there at `t` under the id of `a` has become `a`
  have hlater : ∀ t, ∀ b ∈ ((Center.initial t₀).asOf calls t).announcements, b.id = a.id →
      b.Later t a := by
    intro t b hb hid
    obtain ⟨a', ha', h⟩ := (Center.later_end hs hcommitted hprompt t).1 b hb
    have hid' : a'.id = b.id := congrArg (fun x => x.1.1) h.fixed
    rwa [hend.announcements.id.eq ha ha' (hid.symm.trans hid'.symm)]
  have hactive : ∀ t, (Center.initial t₀).ActiveAt calls a.id t ↔ a.PublicLife t := by
    intro t
    constructor
    · rintro ⟨b, hb, hid, hactive⟩
      obtain ⟨hb, -⟩ := mem_announcementsAt.1 hb
      exact ((hlater t b hb hid).active_iff (hseen t b hb)
        ((hsound t).announcementsChecked b hb)).1 hactive
    · intro hlife
      obtain ⟨⟨p, hp, hmax⟩, hexpires, -⟩ := id hlife
      rcases (Center.later_end hs hcommitted hprompt t).2 a ha with ⟨b, hb, hid⟩ | hlate
      · have hactive := ((hlater t b hb hid).active_iff (hseen t b hb)
          ((hsound t).announcementsChecked b hb)).2 hlife
        exact ⟨b, mem_announcementsAt.2 ⟨hb, Announcement.listed_of_active hactive⟩, hid, hactive⟩
      · have hpt : p ≤ t := Timestamptz.ofInstant_le.1 ((le_max_left _ _).trans hmax)
        exact absurd ⟨(le_max_right _ _).trans hmax, hexpires⟩ (hlate p hp t hpt le_rfl)
  refine ⟨hactive, ?_, ?_, ?_⟩
  · intro hwithheld t b hb hid
    obtain ⟨hb, hlisted⟩ := mem_announcementsAt.1 hb
    rw [(hlater t b hb hid).not_listed (hseen t b hb) ((hsound t).announcementsChecked b hb)
      hwithheld] at hlisted
    cases hlisted
  · intro t t' hle b hb hid
    obtain ⟨hb, hlisted⟩ := mem_announcementsAt.1 hb
    obtain ⟨b', hb', h⟩ := Center.later_at hs hcommitted hprompt hle b hb
    have hid' : b'.id = b.id := congrArg (fun x => x.1.1) h.fixed
    refine ⟨b', mem_announcementsAt.2 ⟨hb', ?_⟩, hid'.trans hid, ?_⟩
    · exact h.listed hle (hseen t b hb) ((hsound t).announcementsChecked b hb)
        ((hsound t').announcementsChecked b' hb') hlisted
    · exact Announcement.content_eq_of_fixed h.fixed
  · intro t t' t'' hle hle' hfirst hlast
    rw [hactive] at *
    obtain ⟨⟨p, hp, hmax⟩, -, -⟩ := hfirst
    obtain ⟨-, hexpires, harchived⟩ := hlast
    refine ⟨⟨p, hp, hmax.trans (Timestamptz.ofInstant_le.2 hle)⟩, ?_, ?_⟩
    · intro e he
      exact (Timestamptz.ofInstant_le.2 hle').trans_lt (hexpires e he)
    · intro q hq
      exact hle'.trans_lt (harchived q hq)

/-! ## Calls that commit at once, and one that does not -/

/-- Nothing is due while a call waits that does not wait. -/
theorem Request.prompt_of_instant {v : Invocation} (h : v.clock = v.sampledAt) (s : Store)
    (r : Request) : r.Prompt v s := by
  have hnever : ∀ t, ¬ v.Pending t := by
    rintro t ⟨hfrom, huntil⟩
    rw [h] at huntil
    exact absurd hfrom (not_le.2 huntil)
  cases r with
  | publishAnnouncement p => exact fun _ _ _ _ t ht => absurd ht (hnever t)
  | archiveAnnouncement p => exact fun _ _ _ _ t ht => absurd ht (hnever t)
  | _ => trivial

theorem prompt_of_instant [Server] (c : Center) {calls : List Call}
    (h : ∀ x ∈ calls, x.invocation.clock = x.invocation.sampledAt) : Prompt c calls := by
  intro front x back heq
  exact Request.prompt_of_instant (h x (by rw [heq]; simp)) _ _

/-- An announcement that is to be shown from 6 on. -/
def sampleAnnouncement : Request :=
  .createAnnouncement
    { kind := some "info"
      title := some "New rooms"
      body := some "They open today"
      affectedServiceIds := none
      publishAt := some (.ofInstant 6)
      expiresAt := none
      idempotencyKey := some ⟨7#128⟩
      actor := sampleActor }

/-- It is published. -/
def samplePublishAnnouncement : Request :=
  .publishAnnouncement ⟨some "ANN-000000000000", some ⟨8#128⟩, sampleActor⟩

/-- It is archived. -/
def sampleArchiveAnnouncement : Request :=
  .archiveAnnouncement ⟨some "ANN-000000000000", some ⟨9#128⟩, sampleActor⟩

open Sample in
/-- Calls that do not wait are prompt. -/
theorem prompt_calls_public_life :
    let calls : List Call :=
      [⟨sampleAnnouncement, sampleWait 1 0⟩, ⟨samplePublishAnnouncement, sampleWait 2 0⟩,
        ⟨sampleArchiveAnnouncement, sampleWait 8 0⟩]
    ∀ a ∈ ((Center.initial 0).run calls).announcements, (Center.initial 0).Presents calls a := by
  refine announcement_public_life 0 _ ?_ (prompt_of_instant _ ?_)
  · simp [Runs.Committed, Call.commit, sampleWait]
  · simp [sampleWait]

/-- It is archived by a call that reads the clock at 5 and commits at 7. -/
def lateArchive : List Call :=
  [⟨sampleAnnouncement, sampleWait 1 0⟩, ⟨samplePublishAnnouncement, sampleWait 2 0⟩,
    ⟨sampleArchiveAnnouncement, sampleWait 5 2⟩]

open Sample in
/-- At 6 the feed shows the announcement as active, and at 7 it has never been there. -/
theorem late_archive_takes_back :
    ((Center.initial 0).announcementsAt lateArchive 6).map
          (fun a => (a.publicId, a.active (.ofInstant 6))) = [("ANN-000000000000", true)] ∧
      (Center.initial 0).announcementsAt lateArchive 7 = [] ∧
      ¬ ∀ a ∈ ((Center.initial 0).run lateArchive).announcements,
        (Center.initial 0).Presents lateArchive a := by
  have hshown : ((Center.initial 0).announcementsAt lateArchive 6).map
      (fun a => (a.publicId, a.active (.ofInstant 6))) = [("ANN-000000000000", true)] := by
    decide +kernel
  have hgone : (Center.initial 0).announcementsAt lateArchive 7 = [] := by
    decide +kernel
  have hids : ((Center.initial 0).announcementsAt lateArchive 6).map Announcement.id =
      ((Center.initial 0).run lateArchive).announcements.map Announcement.id := by
    decide +kernel
  refine ⟨hshown, hgone, ?_⟩
  intro h
  obtain ⟨b, hb⟩ : ∃ b, b ∈ (Center.initial 0).announcementsAt lateArchive 6 := by
    apply List.exists_mem_of_ne_nil
    intro hnil
    simp [hnil] at hshown
  obtain ⟨a, ha, hid⟩ : ∃ a ∈ ((Center.initial 0).run lateArchive).announcements, a.id = b.id := by
    have hmem := List.mem_map_of_mem (f := Announcement.id) hb
    rw [hids] at hmem
    exact List.mem_map.1 hmem
  obtain ⟨b', hb', -⟩ := (h a ha).stays 6 7 (by decide) b hb hid.symm
  simp [hgone] at hb'

end IvrmDashboard.StatusCenter
