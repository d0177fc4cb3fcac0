import IvrmDashboard.StatusCenter.Calls

/-!
# What holds of the store at any time

Ids, public ids and keys are unique, every request occurs once, and every row passes its constraints
(`Store.Sound`). No row ever goes, and what a caller has chosen when creating an object stays as it
is (`Store.Becomes`). Both are read off the changes a call can write and carried along a run.
-/

namespace IvrmDashboard.StatusCenter

open Sql Notifications

/-! ## Unique keys -/

/-- The keys of a table are unique. -/
structure Keys.Unique {ρ : Type} (k : Keys ρ) (rows : List ρ) : Prop where
  id : Sql.Unique k.id rows
  publicId : Sql.Unique k.publicId rows
  createRequestId : Sql.Unique k.createRequestId rows

/-- Two rows have the same keys. -/
structure Keys.Same {ρ : Type} (k : Keys ρ) (old new : ρ) : Prop where
  id : k.id new = k.id old
  publicId : k.publicId new = k.publicId old
  createRequestId : k.createRequestId new = k.createRequestId old

namespace Keys

variable {ρ : Type} {k : Keys ρ} {rows : List ρ} {old new : ρ}

theorem unique_nil (k : Keys ρ) : k.Unique [] := ⟨.nil _, .nil _, .nil _⟩

theorem Unique.concat (h : k.Unique rows) (hnew : k.Fresh rows new) : k.Unique (rows ++ [new]) :=
  ⟨h.id.concat hnew.id, h.publicId.concat hnew.publicId,
    h.createRequestId.concat hnew.createRequestId⟩

/-- The rows an update of one row finds are that row. -/
theorem Unique.eq_of_id (h : k.Unique rows) (hold : old ∈ rows) {a : ρ} (ha : a ∈ rows)
    (hid : decide (k.id a = k.id old) = true) : a = old :=
  h.id.eq ha hold (of_decide_eq_true hid)

theorem Unique.replace (h : k.Unique rows) (hold : old ∈ rows) (hsame : k.Same old new) :
    k.Unique (updateWhere (k.id · = k.id old) (fun _ => new) rows) := by
  have hold_of : ∀ a ∈ rows, decide (k.id a = k.id old) = true → a = old :=
    fun a ha => h.eq_of_id hold ha
  refine ⟨h.id.updateWhere ?_, h.publicId.updateWhere ?_, h.createRequestId.updateWhere ?_⟩
  · intro a ha hid
    rw [hold_of a ha hid, hsame.id]
  · intro a ha hid
    rw [hold_of a ha hid, hsame.publicId]
  · intro a ha hid
    rw [hold_of a ha hid, hsame.createRequestId]

/-- Replacing one row keeps what the old and the new one share. -/
theorem Unique.kept_replace {κ : Type} {fixed : ρ → κ} (h : k.Unique rows) (hold : old ∈ rows)
    (hfixed : fixed new = fixed old) :
    Kept fixed rows (updateWhere (k.id · = k.id old) (fun _ => new) rows) := by
  refine Kept.updateWhere ?_
  intro a ha hid
  rw [h.eq_of_id hold ha hid]
  exact hfixed

theorem forall_replace {P : ρ → Prop} {p : ρ → Bool} (h : ∀ r ∈ rows, P r) (hnew : P new) :
    ∀ r ∈ updateWhere p (fun _ => new) rows, P r := by
  intro r hr
  obtain ⟨a, ha, rfl⟩ := mem_updateWhere.1 hr
  split
  next => exact hnew
  next => exact h a ha

theorem mem_replace (hold : old ∈ rows) (new : ρ) : new ∈ updateWhere (k.id · = k.id old) (fun _ => new) rows :=
  mem_updateWhere.2 ⟨old, hold, by simp⟩

end Keys

/-- The requests of a list of rows are unique, and stay so when a new one is added. -/
theorem unique_requests {α : Type} {request : α → Uuid} {rows : List α} {a : α} {requestId : Uuid}
    (h : Sql.Unique request rows) (hnew : ∀ b ∈ rows, request b ≠ requestId)
    (ha : request a = requestId) : Sql.Unique request (rows ++ [a]) := by
  apply h.concat
  rw [ha]
  exact hnew

theorem forall_concat {α : Type} {P : α → Prop} {l : List α} {a : α} (h : ∀ x ∈ l, P x) (ha : P a) :
    ∀ x ∈ l ++ [a], P x := by
  intro x hx
  rcases List.mem_append.1 hx with hx | hx
  · exact h x hx
  · rw [List.mem_singleton.1 hx]
    exact ha

/-! ## What stays as it was created -/

/-- The columns of an incident that no call changes. -/
def Incident.fixed (i : Incident) :
    (Uuid × String × Uuid) × String × Impact × TextArray × Timestamptz × SourceType × ℤ :=
  ((i.id, i.publicId, i.createRequestId), i.title, i.impact, i.affectedServiceIds, i.startedAt,
    i.sourceType, i.createdAt)

/-- The columns of a notice that no call changes. -/
def MaintenanceNotice.fixed (m : MaintenanceNotice) :
    (Uuid × String × Uuid) × (String × String × TextArray) × Timestamptz × Timestamptz ×
      Option Uuid × ℤ :=
  ((m.id, m.publicId, m.createRequestId), (m.title, m.body, m.affectedServiceIds), m.startsAt,
    m.endsAt, m.reliabilityWindowId, m.createdAt)

/-- The columns of an announcement that no call changes. -/
def Announcement.fixed (a : Announcement) :
    (Uuid × String × Uuid) × AnnouncementKind × (String × String × Option TextArray) ×
      Timestamptz × Option Timestamptz × ℤ :=
  ((a.id, a.publicId, a.createRequestId), a.kind, (a.title, a.body, a.affectedServiceIds),
    a.publishAt, a.expiresAt, a.createdAt)

theorem publishMaintenance_fixed {v : Invocation} {r r' : MaintenanceNotice}
    (h : publishMaintenance.write v r = .ok r') : r'.fixed = r.fixed := by
  obtain rfl := Except.ok.inj h
  rfl

theorem cancelMaintenance_fixed {v : Invocation} {r r' : MaintenanceNotice}
    (h : cancelMaintenance.write v r = .ok r') : r'.fixed = r.fixed := by
  simp only [cancelMaintenance, bind_eq_ok, pure_eq_ok] at h
  obtain ⟨-, -, rfl⟩ := h
  rfl

theorem publishAnnouncement_fixed {v : Invocation} {r r' : Announcement}
    (h : publishAnnouncement.write v r = .ok r') : r'.fixed = r.fixed := by
  simp only [publishAnnouncement, bind_eq_ok, pure_eq_ok] at h
  obtain ⟨-, -, rfl⟩ := h
  rfl

theorem archiveAnnouncement_fixed {v : Invocation} {r r' : Announcement}
    (h : archiveAnnouncement.write v r = .ok r') : r'.fixed = r.fixed := by
  obtain rfl := Except.ok.inj h
  rfl

/-- The rows a mutation leaves behind: those it found, or those with one row written. -/
def Mutation.RowsAfter {ρ : Type} (m : Mutation ρ) (v : Invocation) (r r' : ρ)
    (rows rows' : List ρ) : Prop :=
  (m.settled r = true ∧ r' = r ∧ rows' = rows) ∨
    (m.settled r = false ∧ m.write v r = .ok r' ∧ Checked (m.table.checks r') ∧
      rows' = updateWhere (m.table.id · = m.table.id r) (fun _ => r') rows)

/-- The object of a mutation is among the rows afterwards. -/
theorem Mutation.RowsAfter.mem {ρ : Type} {m : Mutation ρ} {v : Invocation} {r r' : ρ}
    {rows rows' : List ρ} (h : m.RowsAfter v r r' rows rows') (hr : r ∈ rows) : r' ∈ rows' := by
  rcases h with ⟨-, rfl, rfl⟩ | ⟨-, -, -, rfl⟩
  · exact hr
  · exact Keys.mem_replace (k := m.table.keys) hr r'

section

variable {v : Invocation} {s s' : Store} {requestId : Uuid}

/-- A mutation of a notice writes notices and the ledger. -/
theorem noticeMutation_store {m : Mutation MaintenanceNotice} {r r' : MaintenanceNotice}
    (hm : m = publishMaintenance ∨ m = cancelMaintenance)
    (h : m.Performed v requestId s r r' s') :
    r'.fixed = r.fixed ∧ ∃ rows, m.RowsAfter v r r' s.notices rows ∧
      s' = { s with
        notices := rows
        noticeRequests := s.noticeRequests ++ [⟨requestId, r.id, m.action⟩] } := by
  cases h with
  | settled hrefuse hsettled =>
    refine ⟨rfl, s.notices, .inl ⟨hsettled, rfl, rfl⟩, ?_⟩
    rcases hm with rfl | rfl <;> rfl
  | written _ hrefuse hsettled hwrite hchecked =>
    have hfixed : r'.fixed = r.fixed := by
      rcases hm with rfl | rfl
      · exact publishMaintenance_fixed hwrite
      · exact cancelMaintenance_fixed hwrite
    have hid : r'.id = r.id := congrArg (fun x => x.1.1) hfixed
    refine ⟨hfixed, _, .inr ⟨hsettled, hwrite, hchecked, rfl⟩, ?_⟩
    rcases hm with rfl | rfl
    · simp [Mutation.record, Table.replace, publishMaintenance, maintenanceTable, hid]
    · simp [Mutation.record, Table.replace, cancelMaintenance, maintenanceTable, hid]

/-- A mutation of an announcement writes announcements and the ledger. -/
theorem announcementMutation_store {m : Mutation Announcement} {r r' : Announcement}
    (hm : m = publishAnnouncement ∨ m = archiveAnnouncement)
    (h : m.Performed v requestId s r r' s') :
    r'.fixed = r.fixed ∧ ∃ rows, m.RowsAfter v r r' s.announcements rows ∧
      s' = { s with
        announcements := rows
        announcementRequests := s.announcementRequests ++ [⟨requestId, r.id, m.action⟩] } := by
  cases h with
  | settled hrefuse hsettled =>
    refine ⟨rfl, s.announcements, .inl ⟨hsettled, rfl, rfl⟩, ?_⟩
    rcases hm with rfl | rfl <;> rfl
  | written _ hrefuse hsettled hwrite hchecked =>
    have hfixed : r'.fixed = r.fixed := by
      rcases hm with rfl | rfl
      · exact publishAnnouncement_fixed hwrite
      · exact archiveAnnouncement_fixed hwrite
    have hid : r'.id = r.id := congrArg (fun x => x.1.1) hfixed
    refine ⟨hfixed, _, .inr ⟨hsettled, hwrite, hchecked, rfl⟩, ?_⟩
    rcases hm with rfl | rfl
    · simp [Mutation.record, Table.replace, publishAnnouncement, announcementTable, hid]
    · simp [Mutation.record, Table.replace, archiveAnnouncement, announcementTable, hid]

end

/-! ## The invariant -/

/-- What holds of the store at any time. -/
structure Store.Sound (s : Store) : Prop where
  incidents : incidentKeys.Unique s.incidents
  notices : maintenanceTable.keys.Unique s.notices
  announcements : announcementTable.keys.Unique s.announcements
  updates : Unique IncidentUpdate.requestId s.updates
  noticeRequests : Unique MutationRequest.requestId s.noticeRequests
  announcementRequests : Unique MutationRequest.requestId s.announcementRequests
  incidentsChecked : ∀ i ∈ s.incidents, Checked i.checks
  updatesChecked : ∀ u ∈ s.updates, Checked u.checks
  noticesChecked : ∀ m ∈ s.notices, Checked m.checks
  announcementsChecked : ∀ a ∈ s.announcements, Checked a.checks

/-- The incidents that are published. -/
def Store.publishedIncidents (s : Store) : List Incident :=
  s.incidents.filter (·.publicationState = .published)

/-- What may have become of a store: no row has gone, and what is fixed is still there. -/
structure Store.Becomes (s s' : Store) : Prop where
  incidents : Kept Incident.fixed s.incidents s'.incidents
  published : Kept Incident.fixed s.publishedIncidents s'.publishedIncidents
  updates : s.updates ⊆ s'.updates
  notices : Kept MaintenanceNotice.fixed s.notices s'.notices
  noticeRequests : s.noticeRequests ⊆ s'.noticeRequests
  announcements : Kept Announcement.fixed s.announcements s'.announcements
  announcementRequests : s.announcementRequests ⊆ s'.announcementRequests

theorem Store.empty_sound : Store.empty.Sound :=
  ⟨Keys.unique_nil _, Keys.unique_nil _, Keys.unique_nil _, .nil _, .nil _, .nil _,
    by simp [Store.empty], by simp [Store.empty], by simp [Store.empty], by simp [Store.empty]⟩

theorem Store.Becomes.refl (s : Store) : s.Becomes s :=
  ⟨.refl _, .refl _, fun _ => id, .refl _, fun _ => id, .refl _, fun _ => id⟩

theorem Store.Becomes.trans {s t u : Store} (h : s.Becomes t) (h' : t.Becomes u) : s.Becomes u :=
  ⟨h.incidents.trans h'.incidents, h.published.trans h'.published,
    fun _ hx => h'.updates (h.updates hx),
    h.notices.trans h'.notices, fun _ hx => h'.noticeRequests (h.noticeRequests hx),
    h.announcements.trans h'.announcements,
    fun _ hx => h'.announcementRequests (h.announcementRequests hx)⟩

section

variable {v : Invocation} {s s' : Store}

theorem Incident.same_of_fixed {i j : Incident} (h : j.fixed = i.fixed) : incidentKeys.Same i j :=
  ⟨congrArg (fun x => x.1.1) h, congrArg (fun x => x.1.2.1) h, congrArg (fun x => x.1.2.2) h⟩

/-- An incident that is published stays so when a row is replaced by a published one. -/
theorem published_kept (i : Incident) {j : Incident} {rows : List Incident}
    (hrows : incidentKeys.Unique rows) (hi : i ∈ rows) (hfixed : j.fixed = i.fixed)
    (hj : j.publicationState = .published) :
    Kept Incident.fixed (rows.filter (·.publicationState = .published))
      ((updateWhere (·.id = i.id) (fun _ => j) rows).filter (·.publicationState = .published)) := by
  intro a ha
  obtain ⟨ha, hpublished⟩ := List.mem_filter.1 ha
  refine ⟨if a.id = i.id then j else a, List.mem_filter.2 ⟨?_, ?_⟩, ?_⟩
  · exact mem_updateWhere.2 ⟨a, ha, by simp⟩
  · split
    next => exact decide_eq_true hj
    next => exact hpublished
  · split
    next hid => rw [hfixed, hrows.eq_of_id hi ha (decide_eq_true hid)]
    next => rfl

/-- The changes of incidents. -/
theorem IncidentWritten.preserves (hs : s.Sound) (h : IncidentWritten v s s') :
    s'.Sound ∧ s.Becomes s' := by
  cases h with
  | created d impact hfresh hchecked =>
    constructor
    · exact { hs with
        incidents := hs.incidents.concat hfresh
        incidentsChecked := forall_concat hs.incidentsChecked hchecked }
    · refine { Store.Becomes.refl s with incidents := .append _ _, published := ?_ }
      rw [Store.publishedIncidents, Store.publishedIncidents, Store.addIncident, List.filter_append]
      exact .append _ _
  | published i requestId hi harchived hpublished hrequest hchecked hupdate =>
    have hfixed : (i.publish v).fixed = i.fixed := rfl
    constructor
    · exact { hs with
        incidents := hs.incidents.replace hi (Incident.same_of_fixed hfixed)
        incidentsChecked := Keys.forall_replace hs.incidentsChecked hchecked
        updates := unique_requests hs.updates hrequest rfl
        updatesChecked := forall_concat hs.updatesChecked hupdate }
    · exact { Store.Becomes.refl s with
        incidents := hs.incidents.kept_replace hi hfixed
        published := published_kept i hs.incidents hi hfixed rfl
        updates := fun u hu => List.mem_append_left _ hu }
  | advanced i status message requestId hi hpublished hstatus hrequest hchecked hupdate =>
    have hfixed : (i.advance v status message).fixed = i.fixed := rfl
    constructor
    · exact { hs with
        incidents := hs.incidents.replace hi (Incident.same_of_fixed hfixed)
        incidentsChecked := Keys.forall_replace hs.incidentsChecked hchecked
        updates := unique_requests hs.updates hrequest rfl
        updatesChecked := forall_concat hs.updatesChecked hupdate }
    · exact { Store.Becomes.refl s with
        incidents := hs.incidents.kept_replace hi hfixed
        published := published_kept i hs.incidents hi hfixed hpublished
        updates := fun u hu => List.mem_append_left _ hu }

/-- What a mutation does to its rows. -/
theorem Mutation.RowsAfter.preserves {ρ κ : Type} {m : Mutation ρ} {k : Keys ρ} {fixed : ρ → κ}
    {r r' : ρ} {rows rows' : List ρ} (hid : m.table.id = k.id) (h : m.RowsAfter v r r' rows rows')
    (hrows : k.Unique rows) (hr : r ∈ rows) (hsame : k.Same r r') (hfixed : fixed r' = fixed r)
    (hchecked : ∀ x ∈ rows, Checked (m.table.checks x)) :
    k.Unique rows' ∧ (∀ x ∈ rows', Checked (m.table.checks x)) ∧
      Kept fixed rows rows' := by
  rcases h with ⟨-, rfl, rfl⟩ | ⟨-, -, hnew, rfl⟩
  · exact ⟨hrows, hchecked, .refl _⟩
  · rw [hid]
    exact ⟨hrows.replace hr hsame, Keys.forall_replace hchecked hnew,
      hrows.kept_replace hr hfixed⟩

theorem noticeMutation_preserves {m : Mutation MaintenanceNotice} {requestId : Uuid}
    {r r' : MaintenanceNotice} (hm : m = publishMaintenance ∨ m = cancelMaintenance)
    (hs : s.Sound) (hr : r ∈ s.notices)
    (hrequest : ∀ q ∈ s.noticeRequests, q.requestId ≠ requestId)
    (h : m.Performed v requestId s r r' s') : s'.Sound ∧ s.Becomes s' := by
  obtain ⟨hfixed, rows, hafter, rfl⟩ := noticeMutation_store hm h
  have htable : m.table = maintenanceTable := by rcases hm with rfl | rfl <;> rfl
  have hsame : maintenanceTable.keys.Same r r' :=
    ⟨congrArg (fun x => x.1.1) hfixed, congrArg (fun x => x.1.2.1) hfixed,
      congrArg (fun x => x.1.2.2) hfixed⟩
  obtain ⟨hunique, hchecked, hkept⟩ :=
    hafter.preserves (k := maintenanceTable.keys) (by rw [htable]; rfl) hs.notices hr hsame hfixed
      (by rw [htable]; exact hs.noticesChecked)
  constructor
  · exact { hs with
      notices := hunique
      noticesChecked := by
        rw [htable] at hchecked
        exact hchecked
      noticeRequests := unique_requests hs.noticeRequests hrequest rfl }
  · exact { Store.Becomes.refl s with
      notices := hkept
      noticeRequests := fun q hq => List.mem_append_left _ hq }

theorem announcementMutation_preserves {m : Mutation Announcement} {requestId : Uuid}
    {r r' : Announcement} (hm : m = publishAnnouncement ∨ m = archiveAnnouncement)
    (hs : s.Sound) (hr : r ∈ s.announcements)
    (hrequest : ∀ q ∈ s.announcementRequests, q.requestId ≠ requestId)
    (h : m.Performed v requestId s r r' s') : s'.Sound ∧ s.Becomes s' := by
  obtain ⟨hfixed, rows, hafter, rfl⟩ := announcementMutation_store hm h
  have htable : m.table = announcementTable := by rcases hm with rfl | rfl <;> rfl
  have hsame : announcementTable.keys.Same r r' :=
    ⟨congrArg (fun x => x.1.1) hfixed, congrArg (fun x => x.1.2.1) hfixed,
      congrArg (fun x => x.1.2.2) hfixed⟩
  obtain ⟨hunique, hchecked, hkept⟩ :=
    hafter.preserves (k := announcementTable.keys) (by rw [htable]; rfl) hs.announcements hr hsame
      hfixed (by rw [htable]; exact hs.announcementsChecked)
  constructor
  · exact { hs with
      announcements := hunique
      announcementsChecked := by
        rw [htable] at hchecked
        exact hchecked
      announcementRequests := unique_requests hs.announcementRequests hrequest rfl }
  · exact { Store.Becomes.refl s with
      announcements := hkept
      announcementRequests := fun q hq => List.mem_append_left _ hq }

/-- **A change keeps the store sound and takes nothing away.** -/
theorem Written.preserves (hs : s.Sound) (h : Written v s s') : s'.Sound ∧ s.Becomes s' := by
  cases h with
  | nothing => exact ⟨hs, .refl s⟩
  | incident _ h => exact h.preserves hs
  | notice p key m hrow hfresh hchecked =>
    constructor
    · exact { hs with
        notices := hs.notices.concat hfresh
        noticesChecked := forall_concat hs.noticesChecked hchecked }
    · exact { Store.Becomes.refl s with notices := .append _ _ }
  | noticeMutation m hm requestId r r' _ hr hrequest h =>
    exact noticeMutation_preserves hm hs hr hrequest h
  | announcement p key a hrow hfresh hchecked =>
    constructor
    · exact { hs with
        announcements := hs.announcements.concat hfresh
        announcementsChecked := forall_concat hs.announcementsChecked hchecked }
    · exact { Store.Becomes.refl s with announcements := .append _ _ }
  | announcementMutation m hm requestId r r' _ hr hrequest h =>
    exact announcementMutation_preserves hm hs hr hrequest h

end

namespace Center

variable [Server] {c : Center}

theorem step_sound (x : Call) (hs : c.Sound) : (c.step x).Sound :=
  ((c.step_written x).preserves hs).1

theorem run_sound (calls : List Call) (hs : c.Sound) : (c.run calls).Sound :=
  Runs.run_invariant (P := fun c : Center => c.Sound) (fun _ x h => step_sound x h) hs calls

/-- **A run keeps every row and what is fixed in it.** -/
theorem run_becomes (calls : List Call) (hs : c.Sound) : c.Becomes (c.run calls).toStore :=
  Runs.run_relation (P := fun c : Center => c.Sound) (R := fun c c' => c.Becomes c'.toStore)
    (fun _ x h => step_sound x h) (fun c => .refl c.toStore) (fun _ _ _ h h' => h.trans h')
    (fun c x h => ((c.step_written x).preserves h).2) hs calls

end Center

end IvrmDashboard.StatusCenter
