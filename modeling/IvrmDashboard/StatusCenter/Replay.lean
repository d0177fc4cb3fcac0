import IvrmDashboard.StatusCenter.Invariants

/-!
# Whether a call can be repeated

A call that has succeeded leaves something behind by which it is recognised later: the object under
its key, an update under its request or an entry of a ledger (`Request.Remembered`). It stays there
for good. Seven of the nine functions compare the repeated call with nothing that changes. The other
two compare it with the incident as it is by then, and creating an incident judges its start by the
present time first; so those two are recognised only as long as the incident is left alone
(`Request.Unspoiled`), and `repeat_iff` says that this is all that can go wrong.
-/

namespace IvrmDashboard.StatusCenter

open Sql Notifications

/-! ## When a repeated call is recognised -/

/-- Nothing has happened to what the call is compared with. -/
def Request.Unspoiled (v : Invocation) (s : Store) : Request → Prop
  | createIncident p =>
    (∀ t ∈ p.startedAt, .ofInstant (v.sampledAt - thirtyDays) ≤ t) ∧
      ∀ i ∈ s.incidents, p.idempotencyKey = some i.createRequestId →
        p.summary.map Text.btrim = some i.summary
  | publishIncident p =>
    ∀ i ∈ s.incidents, p.publicId = some i.publicId →
      ∀ u ∈ s.updates, p.requestId = some u.requestId →
        u.incidentId = i.id ∧ u.lifecycleStatus = i.lifecycleStatus ∧ u.message = i.summary
  | _ => True

/-- What a mutation leaves in its ledger. -/
def Mutation.Remembered [Server] {ρ : Type} (m : Mutation ρ) (p : MutationParams)
    (publicId : String) (s : Store) : Prop :=
  ∃ requestId, p.validate m.table.name m.table.source = .ok (requestId, publicId) ∧
    ∃ r ∈ m.table.rows s, m.table.publicId r = publicId ∧
      ⟨requestId, m.table.id r, m.action⟩ ∈ m.table.requests s

/-- The incident agrees with the arguments in what does not change. -/
def IncidentDraft.Created (d : IncidentDraft) (i : Incident) : Prop :=
  i.createRequestId = d.key ∧ i.title = d.title ∧ (ne (some i.impact) d.impact).holds = false ∧
    i.affectedServiceIds = d.affectedServiceIds ∧ i.startedAt = d.startedAt ∧
    i.sourceType = .manual

/-- What a call leaves behind: by this it is recognised. -/
def Request.Remembered [Server] (now : ℤ) (publicId : String) (s : Store) : Request → Prop
  | createIncident p =>
    ∃ t d, t ≤ now ∧ p.validate t = .ok d ∧
      ∃ i ∈ s.incidents, d.Created i ∧ i.publicId = publicId
  | publishIncident p =>
    ∃ requestId, p.validate "status_incident" .incident = .ok (requestId, publicId) ∧
      ∃ i ∈ s.publishedIncidents, i.publicId = publicId
  | appendIncidentUpdate p =>
    ∃ d, p.validate = .ok d ∧ ∃ u ∈ s.updates, u.requestId = d.requestId ∧
      ∃ i ∈ s.incidents, i.id = u.incidentId ∧ d.agrees u i = true ∧ i.publicId = publicId
  | createMaintenance p =>
    (statusActorValid p.actor).not.holds = false ∧ ∃ m ∈ s.notices,
      p.idempotencyKey = some m.createRequestId ∧ p.agrees m = true ∧ m.publicId = publicId
  | publishMaintenance p => StatusCenter.publishMaintenance.Remembered p publicId s
  | cancelMaintenance p => StatusCenter.cancelMaintenance.Remembered p publicId s
  | createAnnouncement p =>
    (statusActorValid p.actor).not.holds = false ∧ ∃ a ∈ s.announcements,
      p.idempotencyKey = some a.createRequestId ∧ p.agrees a = true ∧ a.publicId = publicId
  | publishAnnouncement p => StatusCenter.publishAnnouncement.Remembered p publicId s
  | archiveAnnouncement p => StatusCenter.archiveAnnouncement.Remembered p publicId s

/-! ## It stays there -/

section Persistence

variable {s s' : Store}

theorem IncidentDraft.Created.of_fixed {d : IncidentDraft} {i j : Incident} (h : d.Created i)
    (hfixed : j.fixed = i.fixed) : d.Created j := by
  simp only [Incident.fixed, Prod.mk.injEq] at hfixed
  obtain ⟨⟨-, -, hkey⟩, htitle, himpact, hservices, hstarted, hsource, -⟩ := hfixed
  rw [Created, hkey, htitle, himpact, hservices, hstarted, hsource]
  exact h

theorem Incident.publicId_of_fixed {i j : Incident} (h : j.fixed = i.fixed) :
    j.publicId = i.publicId :=
  congrArg (fun x => x.1.2.1) h

theorem MaintenanceParams.agrees_of_fixed {p : MaintenanceParams} {m n : MaintenanceNotice}
    (hfixed : n.fixed = m.fixed) : p.agrees n = p.agrees m := by
  simp only [MaintenanceNotice.fixed, Prod.mk.injEq] at hfixed
  obtain ⟨-, ⟨htitle, hbody, hservices⟩, hstarts, hends, hwindow, -⟩ := hfixed
  rw [agrees, agrees, htitle, hbody, hservices, hstarts, hends, hwindow]

theorem AnnouncementParams.agrees_of_fixed {p : AnnouncementParams} {a b : Announcement}
    (hfixed : b.fixed = a.fixed) : p.agrees b = p.agrees a := by
  simp only [Announcement.fixed, Prod.mk.injEq] at hfixed
  obtain ⟨-, hkind, ⟨htitle, hbody, hservices⟩, hpublish, hexpires, -⟩ := hfixed
  rw [agrees, agrees, hkind, htitle, hbody, hservices, hpublish, hexpires]

variable [Server] {publicId : String}

theorem noticeMutation_remembered {m : Mutation MaintenanceNotice} {p : MutationParams}
    (htable : m.table = maintenanceTable) (hbecomes : s.Becomes s') (h : m.Remembered p publicId s) :
    m.Remembered p publicId s' := by
  obtain ⟨requestId, hp, r, hr, hpublicId, hledger⟩ := h
  rw [htable] at hr hledger hpublicId
  obtain ⟨r', hr', hfixed⟩ := hbecomes.notices r hr
  have hid : r'.id = r.id := congrArg (fun x => x.1.1) hfixed
  have hpublicId' : r'.publicId = r.publicId := congrArg (fun x => x.1.2.1) hfixed
  refine ⟨requestId, hp, r', ?_⟩
  rw [htable]
  refine ⟨hr', hpublicId'.trans hpublicId, ?_⟩
  have hmem := hbecomes.noticeRequests hledger
  rw [← show maintenanceTable.id r' = maintenanceTable.id r from hid] at hmem
  exact hmem

theorem announcementMutation_remembered {m : Mutation Announcement} {p : MutationParams}
    (htable : m.table = announcementTable) (hbecomes : s.Becomes s')
    (h : m.Remembered p publicId s) : m.Remembered p publicId s' := by
  obtain ⟨requestId, hp, r, hr, hpublicId, hledger⟩ := h
  rw [htable] at hr hledger hpublicId
  obtain ⟨r', hr', hfixed⟩ := hbecomes.announcements r hr
  have hid : r'.id = r.id := congrArg (fun x => x.1.1) hfixed
  have hpublicId' : r'.publicId = r.publicId := congrArg (fun x => x.1.2.1) hfixed
  refine ⟨requestId, hp, r', ?_⟩
  rw [htable]
  refine ⟨hr', hpublicId'.trans hpublicId, ?_⟩
  have hmem := hbecomes.announcementRequests hledger
  rw [← show announcementTable.id r' = announcementTable.id r from hid] at hmem
  exact hmem

/-- **What is remembered stays so.** -/
theorem Request.Remembered.becomes {r : Request} {now now' : ℤ} (hnow : now ≤ now')
    (hbecomes : s.Becomes s') (h : r.Remembered now publicId s) :
    r.Remembered now' publicId s' := by
  cases r with
  | createIncident p =>
    obtain ⟨t, d, ht, hd, i, hi, hcreated, hpublicId⟩ := h
    obtain ⟨j, hj, hfixed⟩ := hbecomes.incidents i hi
    exact ⟨t, d, ht.trans hnow, hd, j, hj, hcreated.of_fixed hfixed,
      (Incident.publicId_of_fixed hfixed).trans hpublicId⟩
  | publishIncident p =>
    obtain ⟨requestId, hp, i, hi, hpublicId⟩ := h
    obtain ⟨j, hj, hfixed⟩ := hbecomes.published i hi
    exact ⟨requestId, hp, j, hj, (Incident.publicId_of_fixed hfixed).trans hpublicId⟩
  | appendIncidentUpdate p =>
    obtain ⟨d, hd, u, hu, hrequest, i, hi, hid, hagrees, hpublicId⟩ := h
    obtain ⟨j, hj, hfixed⟩ := hbecomes.incidents i hi
    have hsame := Incident.publicId_of_fixed hfixed
    have hid' : j.id = i.id := congrArg (fun x => x.1.1) hfixed
    refine ⟨d, hd, u, hbecomes.updates hu, hrequest, j, hj, hid'.trans hid, ?_,
      hsame.trans hpublicId⟩
    rw [UpdateDraft.agrees, hsame]
    exact hagrees
  | createMaintenance p =>
    obtain ⟨hactor, m, hm, hkey, hagrees, hpublicId⟩ := h
    obtain ⟨n, hn, hfixed⟩ := hbecomes.notices m hm
    have hkey' : n.createRequestId = m.createRequestId := congrArg (fun x => x.1.2.2) hfixed
    have hpublicId' : n.publicId = m.publicId := congrArg (fun x => x.1.2.1) hfixed
    exact ⟨hactor, n, hn, by rw [hkey', hkey],
      (MaintenanceParams.agrees_of_fixed hfixed).trans hagrees, hpublicId'.trans hpublicId⟩
  | publishMaintenance p => exact noticeMutation_remembered rfl hbecomes h
  | cancelMaintenance p => exact noticeMutation_remembered rfl hbecomes h
  | createAnnouncement p =>
    obtain ⟨hactor, a, ha, hkey, hagrees, hpublicId⟩ := h
    obtain ⟨b, hb, hfixed⟩ := hbecomes.announcements a ha
    have hkey' : b.createRequestId = a.createRequestId := congrArg (fun x => x.1.2.2) hfixed
    have hpublicId' : b.publicId = a.publicId := congrArg (fun x => x.1.2.1) hfixed
    exact ⟨hactor, b, hb, by rw [hkey', hkey],
      (AnnouncementParams.agrees_of_fixed hfixed).trans hagrees, hpublicId'.trans hpublicId⟩
  | publishAnnouncement p => exact announcementMutation_remembered rfl hbecomes h
  | archiveAnnouncement p => exact announcementMutation_remembered rfl hbecomes h

end Persistence

/-! ## A call that succeeds is remembered -/

theorem IncidentDraft.agrees_iff {d : IncidentDraft} {i : Incident}
    (hkey : i.createRequestId = d.key) :
    d.agrees i = true ↔ d.Created i ∧ i.summary = d.summary := by
  simp only [agrees, Created, hkey, Bool.and_eq_true, decide_eq_true_eq, Bool.not_eq_true', true_and]
  tauto

theorem IncidentDraft.created_row (d : IncidentDraft) (v : Invocation) {impact : Impact}
    (h : d.impact = some impact) : d.Created (d.row v impact) := by
  refine ⟨rfl, rfl, ?_, rfl, rfl, rfl⟩
  rw [h, holds_ne_some]
  simp [row]

theorem trimmedWithin_eq_some {lo hi : ℕ} {p : Option String} {s : String}
    (h : trimmedWithin lo hi p = some s) : p.map Text.btrim = some s := by
  rw [trimmedWithin, Option.filter_eq_some_iff] at h
  exact h.1

theorem MaintenanceParams.row_eq_ok {p : MaintenanceParams} {v : Invocation} {key : Uuid}
    {m : MaintenanceNotice} (h : p.row v key = .ok m) :
    m.createRequestId = key ∧ p.agrees m = true := by
  simp only [row, bind_eq_ok, orRaise_eq_ok, raiseIf_eq_ok, pure_eq_ok,
    Option.filter_eq_some_iff] at h
  obtain ⟨title, htitle, body, hbody, services, ⟨hservices, -⟩, ⟨startsAt, endsAt⟩, hschedule, -, -,
    rfl⟩ := h
  refine ⟨rfl, ?_⟩
  have hstarts : p.startsAt = some startsAt ∧ p.endsAt = some endsAt := by
    unfold schedule? at hschedule
    split at hschedule
    next a b ha hb =>
      simp only [Option.ite_none_right_eq_some, Option.some.injEq, Prod.mk.injEq] at hschedule
      obtain ⟨-, rfl, rfl⟩ := hschedule
      exact ⟨ha, hb⟩
    next => cases hschedule
  simp [agrees, isDistinct, trimmedWithin_eq_some htitle, trimmedWithin_eq_some hbody, hservices,
    hstarts]

theorem AnnouncementKind.text_of_ofText? {s : String} {k : AnnouncementKind}
    (h : ofText? s = some k) : k.text = s := by
  have := List.find?_some h
  simpa using this

theorem named_eq_ok {α : Type} {ofText? : String → Option α} {e : DbError} {p : Option String}
    {o : Option α} (h : named ofText? e p = .ok o) :
    (p = none ∧ o = none) ∨ ∃ s a, p = some s ∧ ofText? s = some a ∧ o = some a := by
  cases p with
  | none =>
    obtain rfl := Except.ok.inj h
    exact .inl ⟨rfl, rfl⟩
  | some s =>
    obtain ⟨a, ha, rfl⟩ := map_eq_ok.1 h
    exact .inr ⟨s, a, rfl, orRaise_eq_ok.1 ha, rfl⟩

theorem AnnouncementParams.row_eq_ok {p : AnnouncementParams} {v : Invocation} {key : Uuid}
    {a : Announcement} (h : p.row v key = .ok a) :
    a.createRequestId = key ∧ p.agrees a = true := by
  simp only [row, bind_eq_ok, orRaise_eq_ok, raiseIf_eq_ok, pure_eq_ok] at h
  obtain ⟨kind, hkind, title, htitle, body, hbody, -, -, publishAt, hpublishAt, -, -, k, hk, rfl⟩ := h
  refine ⟨rfl, ?_⟩
  obtain ⟨-, rfl⟩ | ⟨s, k', hs, hk', rfl⟩ := named_eq_ok hkind
  · cases hk
  · obtain rfl := Option.some.inj hk
    simp [agrees, isDistinct, trimmedWithin_eq_some htitle, trimmedWithin_eq_some hbody, hs,
      AnnouncementKind.text_of_ofText? hk', hpublishAt]

section

variable [Server] {v : Invocation} {c c' : Center}

theorem noticeMutation_eq_ok_remembered {m : Mutation MaintenanceNotice} {p : MutationParams}
    {r : MaintenanceNotice} (hm : m = StatusCenter.publishMaintenance ∨ m = cancelMaintenance)
    (h : m.run v p c = .ok (r, c')) : m.Remembered p r.publicId c'.toStore := by
  have htable : m.table = maintenanceTable := by rcases hm with rfl | rfl <;> rfl
  obtain ⟨requestId, publicId, x, hp, hx, ⟨q, hq, hobject, haction, rfl, rfl⟩ | ⟨-, hperformed⟩⟩ :=
    Mutation.run_eq_ok h
  · obtain ⟨hmem, rfl⟩ := find?_key_eq_some hx
    obtain ⟨hqmem, rfl⟩ := find?_key_eq_some hq
    rw [htable] at hp hmem hqmem hobject
    refine ⟨q.requestId, by rw [htable]; exact hp, r, by rw [htable]; exact hmem,
      by rw [htable]; rfl, ?_⟩
    rw [htable, ← hobject, ← haction]
    exact hqmem
  · obtain ⟨hmem, rfl⟩ := find?_key_eq_some hx
    obtain ⟨hfixed, rows, hafter, hstore⟩ := noticeMutation_store hm hperformed
    have hid : r.id = x.id := congrArg (fun y => y.1.1) hfixed
    have hpublicId : r.publicId = x.publicId := congrArg (fun y => y.1.2.1) hfixed
    rw [htable] at hp hmem
    refine ⟨requestId, ?_, r, ?_, ?_, ?_⟩
    · rw [htable, hpublicId]
      exact hp
    · rw [htable, hstore]
      exact hafter.mem hmem
    · rw [htable]
      rfl
    · rw [htable, hstore, show maintenanceTable.id r = x.id from hid]
      exact List.mem_append_right _ List.mem_cons_self

theorem announcementMutation_eq_ok_remembered {m : Mutation Announcement} {p : MutationParams}
    {r : Announcement} (hm : m = StatusCenter.publishAnnouncement ∨ m = archiveAnnouncement)
    (h : m.run v p c = .ok (r, c')) : m.Remembered p r.publicId c'.toStore := by
  have htable : m.table = announcementTable := by rcases hm with rfl | rfl <;> rfl
  obtain ⟨requestId, publicId, x, hp, hx, ⟨q, hq, hobject, haction, rfl, rfl⟩ | ⟨-, hperformed⟩⟩ :=
    Mutation.run_eq_ok h
  · obtain ⟨hmem, rfl⟩ := find?_key_eq_some hx
    obtain ⟨hqmem, rfl⟩ := find?_key_eq_some hq
    rw [htable] at hp hmem hqmem hobject
    refine ⟨q.requestId, by rw [htable]; exact hp, r, by rw [htable]; exact hmem,
      by rw [htable]; rfl, ?_⟩
    rw [htable, ← hobject, ← haction]
    exact hqmem
  · obtain ⟨hmem, rfl⟩ := find?_key_eq_some hx
    obtain ⟨hfixed, rows, hafter, hstore⟩ := announcementMutation_store hm hperformed
    have hid : r.id = x.id := congrArg (fun y => y.1.1) hfixed
    have hpublicId : r.publicId = x.publicId := congrArg (fun y => y.1.2.1) hfixed
    rw [htable] at hp hmem
    refine ⟨requestId, ?_, r, ?_, ?_, ?_⟩
    · rw [htable, hpublicId]
      exact hp
    · rw [htable, hstore]
      exact hafter.mem hmem
    · rw [htable]
      rfl
    · rw [htable, hstore, show announcementTable.id r = x.id from hid]
      exact List.mem_append_right _ List.mem_cons_self

theorem createIncident_remembered {p : IncidentParams} {i : Incident}
    (h : createStatusIncident v p c = .ok (i, c')) :
    (Request.createIncident p).Remembered v.sampledAt i.publicId c'.toStore := by
  obtain ⟨d, hd, ⟨hi, hagrees, rfl⟩ | ⟨impact, himpact, rfl, hstore, -, -⟩⟩ :=
    createStatusIncident_eq_ok h
  · obtain ⟨hmem, hkey⟩ := find?_key_eq_some hi
    exact ⟨_, d, le_refl _, hd, i, hmem, ((d.agrees_iff hkey).1 hagrees).1, rfl⟩
  · refine ⟨_, d, le_refl _, hd, _, ?_, d.created_row v himpact, rfl⟩
    rw [hstore]
    exact List.mem_append_right _ List.mem_cons_self

omit [Server] in
theorem replayIncidentPublish_eq_ok {i : Incident} {u : IncidentUpdate} :
    replayIncidentPublish i u = .ok () ↔
      (u.incidentId = i.id ∧ u.lifecycleStatus = i.lifecycleStatus ∧ u.message = i.summary) ∧
        i.publicationState = .published := by
  simp only [replayIncidentPublish, bind_eq_ok, raiseIf_eq_ok, Bool.or_eq_false_iff,
    decide_eq_false_iff_not, not_not]
  constructor
  · rintro ⟨-, ⟨⟨hid, hstatus⟩, hmessage⟩, hpublished⟩
    exact ⟨⟨hid, hstatus, hmessage⟩, hpublished⟩
  · rintro ⟨⟨hid, hstatus, hmessage⟩, hpublished⟩
    exact ⟨(), ⟨⟨hid, hstatus⟩, hmessage⟩, hpublished⟩

omit [Server] in
theorem Store.mem_publishedIncidents {s : Store} {i : Incident} :
    i ∈ s.publishedIncidents ↔ i ∈ s.incidents ∧ i.publicationState = .published := by
  simp [publishedIncidents]

theorem publishIncident_remembered {p : MutationParams} {i : Incident}
    (h : publishStatusIncident v p c = .ok (i, c')) :
    (Request.publishIncident p).Remembered v.sampledAt i.publicId c'.toStore := by
  obtain ⟨requestId, publicId, j, hp, hj, hcase⟩ := publishStatusIncident_eq_ok h
  obtain ⟨hmem, rfl⟩ := find?_key_eq_some hj
  rcases hcase with ⟨u, -, hreplay, rfl, rfl⟩ | ⟨-, ⟨hpublished, rfl, rfl⟩ | ⟨-, -, hdraft⟩⟩
  · exact ⟨requestId, hp, i, Store.mem_publishedIncidents.2
      ⟨hmem, (replayIncidentPublish_eq_ok.1 hreplay).2⟩, rfl⟩
  · exact ⟨requestId, hp, i, Store.mem_publishedIncidents.2 ⟨hmem, hpublished⟩, rfl⟩
  · obtain ⟨rfl, -, -, -, hstore⟩ := publishDraft_eq_ok hdraft
    refine ⟨requestId, hp, j.publish v, Store.mem_publishedIncidents.2 ⟨?_, rfl⟩, rfl⟩
    rw [hstore]
    exact Keys.mem_replace (k := incidentKeys) hmem (j.publish v)

theorem appendIncidentUpdate_remembered {p : UpdateParams} {i : Incident}
    (h : appendStatusIncidentUpdate v p c = .ok (i, c')) :
    (Request.appendIncidentUpdate p).Remembered v.sampledAt i.publicId c'.toStore := by
  obtain ⟨d, hd, ⟨u, hu, hi, hagrees, rfl⟩ | ⟨-, j, hj, happend⟩⟩ :=
    appendStatusIncidentUpdate_eq_ok h
  · obtain ⟨humem, hrequest⟩ := find?_key_eq_some hu
    obtain ⟨himem, hid⟩ := find?_key_eq_some hi
    exact ⟨d, hd, u, humem, hrequest, i, himem, hid, hagrees, rfl⟩
  · obtain ⟨hmem, hpublicId⟩ := find?_key_eq_some hj
    obtain ⟨status, hstatus, -, -, rfl, -, -, -, hstore⟩ := append_eq_ok happend
    have hi : j.advance v status d.message ∈ c'.incidents := by
      rw [hstore]
      exact Keys.mem_replace (k := incidentKeys) hmem (j.advance v status d.message)
    refine ⟨d, hd, c.newUpdate v j status d.message d.requestId, ?_, rfl, _, hi, rfl, ?_, rfl⟩
    · rw [hstore]
      exact List.mem_append_right _ List.mem_cons_self
    · simp [UpdateDraft.agrees, Incident.advance, Store.newUpdate, hpublicId, hstatus]

theorem createMaintenance_remembered {p : MaintenanceParams} {m : MaintenanceNotice}
    (h : createStatusMaintenance v p c = .ok (m, c')) :
    (Request.createMaintenance p).Remembered v.sampledAt m.publicId c'.toStore := by
  obtain ⟨key, hkey, hactor, ⟨hm, hagrees, rfl⟩ | ⟨hrow, -, -, hstore⟩⟩ :=
    createStatusMaintenance_eq_ok h
  · obtain ⟨hmem, rfl⟩ := find?_key_eq_some hm
    exact ⟨hactor, m, hmem, hkey, hagrees, rfl⟩
  · obtain ⟨rfl, hagrees⟩ := MaintenanceParams.row_eq_ok hrow
    refine ⟨hactor, m, ?_, hkey, hagrees, rfl⟩
    rw [hstore]
    exact List.mem_append_right _ List.mem_cons_self

theorem createAnnouncement_remembered {p : AnnouncementParams} {a : Announcement}
    (h : createStatusAnnouncement v p c = .ok (a, c')) :
    (Request.createAnnouncement p).Remembered v.sampledAt a.publicId c'.toStore := by
  obtain ⟨key, hkey, hactor, ⟨ha, hagrees, rfl⟩ | ⟨hrow, -, -, hstore⟩⟩ :=
    createStatusAnnouncement_eq_ok h
  · obtain ⟨hmem, rfl⟩ := find?_key_eq_some ha
    exact ⟨hactor, a, hmem, hkey, hagrees, rfl⟩
  · obtain ⟨rfl, hagrees⟩ := AnnouncementParams.row_eq_ok hrow
    refine ⟨hactor, a, ?_, hkey, hagrees, rfl⟩
    rw [hstore]
    exact List.mem_append_right _ List.mem_cons_self

/-- **A call that succeeds is remembered.** -/
theorem Request.perform_remembered {r : Request} {publicId : String}
    (h : r.perform v c = .ok (publicId, c')) :
    r.Remembered v.sampledAt publicId c'.toStore := by
  cases r with
  | createIncident p =>
    obtain ⟨⟨i, _⟩, hcall, rfl, rfl⟩ := by simpa only [perform, map_eq_ok, Prod.mk.injEq] using h
    exact createIncident_remembered hcall
  | publishIncident p =>
    obtain ⟨⟨i, _⟩, hcall, rfl, rfl⟩ := by simpa only [perform, map_eq_ok, Prod.mk.injEq] using h
    exact publishIncident_remembered hcall
  | appendIncidentUpdate p =>
    obtain ⟨⟨i, _⟩, hcall, rfl, rfl⟩ := by simpa only [perform, map_eq_ok, Prod.mk.injEq] using h
    exact appendIncidentUpdate_remembered hcall
  | createMaintenance p =>
    obtain ⟨⟨m, _⟩, hcall, rfl, rfl⟩ := by simpa only [perform, map_eq_ok, Prod.mk.injEq] using h
    exact createMaintenance_remembered hcall
  | publishMaintenance p =>
    obtain ⟨⟨m, _⟩, hcall, rfl, rfl⟩ := by simpa only [perform, map_eq_ok, Prod.mk.injEq] using h
    exact noticeMutation_eq_ok_remembered (.inl rfl) hcall
  | cancelMaintenance p =>
    obtain ⟨⟨m, _⟩, hcall, rfl, rfl⟩ := by simpa only [perform, map_eq_ok, Prod.mk.injEq] using h
    exact noticeMutation_eq_ok_remembered (.inr rfl) hcall
  | createAnnouncement p =>
    obtain ⟨⟨a, _⟩, hcall, rfl, rfl⟩ := by simpa only [perform, map_eq_ok, Prod.mk.injEq] using h
    exact createAnnouncement_remembered hcall
  | publishAnnouncement p =>
    obtain ⟨⟨a, _⟩, hcall, rfl, rfl⟩ := by simpa only [perform, map_eq_ok, Prod.mk.injEq] using h
    exact announcementMutation_eq_ok_remembered (.inl rfl) hcall
  | archiveAnnouncement p =>
    obtain ⟨⟨a, _⟩, hcall, rfl, rfl⟩ := by simpa only [perform, map_eq_ok, Prod.mk.injEq] using h
    exact announcementMutation_eq_ok_remembered (.inr rfl) hcall

end

/-! ## What is remembered is recognised -/

section

variable [Server] {v : Invocation} {c : Center} {publicId : String}

/-- The call succeeds with this public id and writes nothing. -/
def Request.Repeats (r : Request) (v : Invocation) (publicId : String) (c : Center) : Prop :=
  r.perform v c = .ok (publicId, c)

theorem Mutation.run_of_remembered {ρ : Type} {m : Mutation ρ} {p : MutationParams}
    (hpublicId : Unique m.table.publicId (m.table.rows c.toStore))
    (hrequests : Unique MutationRequest.requestId (m.table.requests c.toStore))
    (h : m.Remembered p publicId c.toStore) :
    ∃ r, m.run v p c = .ok (r, c) ∧ m.table.publicId r = publicId := by
  obtain ⟨requestId, hp, r, hr, rfl, hledger⟩ := h
  have hq := hrequests.find?_eq hledger
  refine ⟨r, ?_, rfl⟩
  simp only [run, bind_eq_ok, orRaise_eq_ok]
  refine ⟨_, hp, r, hpublicId.find?_eq hr, ?_⟩
  simp only [hq, bind_eq_ok, raiseIf_eq_ok, pure_eq_ok]
  exact ⟨(), by simp, trivial⟩

omit [Server] in
theorem Table.createOnce_of_mem {ρ : Type} {t : Table ρ} {key : Uuid} {agrees : ρ → Bool}
    {create : Except DbError (ρ × Center)} {r : ρ}
    (hkeys : Unique t.createRequestId (t.rows c.toStore)) (hr : r ∈ t.rows c.toStore)
    (hkey : t.createRequestId r = key) (hagrees : agrees r = true) :
    t.createOnce key agrees create c = .ok (r, c) := by
  obtain rfl := hkey
  simp only [createOnce, hkeys.find?_eq hr, bind_eq_ok, raiseIf_eq_ok, pure_eq_ok]
  exact ⟨(), by simp [hagrees], trivial⟩

/-- The checks of the arguments give the same result at any time at which the start is allowed. -/
theorem IncidentParams.validate_at {p : IncidentParams} {t now : ℤ} {d : IncidentDraft}
    (h : p.validate t = .ok d) {e : IncidentDraft} :
    p.validate now = .ok e ↔ startedAtOk now d.startedAt = true ∧ e = d := by
  simp only [validate, bind_eq_ok, orRaise_eq_ok, pure_eq_ok, Option.filter_eq_some_iff] at h ⊢
  obtain ⟨key, hkey, title, htitle, impact, himpact, services, hservices, startedAt,
    ⟨hstartedAt, -⟩, summary, hsummary, rfl⟩ := h
  constructor
  · rintro ⟨key', hkey', title', htitle', impact', himpact', services', hservices', startedAt',
      ⟨hstartedAt', hok⟩, summary', hsummary', rfl⟩
    obtain rfl := Except.ok.inj (hkey.symm.trans hkey')
    obtain rfl := Option.some.inj (htitle.symm.trans htitle')
    obtain rfl := Except.ok.inj (himpact.symm.trans himpact')
    obtain rfl := Option.some.inj (hservices.1.symm.trans hservices'.1)
    obtain rfl := Option.some.inj (hstartedAt.symm.trans hstartedAt')
    obtain rfl := Option.some.inj (hsummary.symm.trans hsummary')
    exact ⟨hok, rfl⟩
  · rintro ⟨hok, rfl⟩
    exact ⟨key, hkey, title, htitle, impact, himpact, services, hservices, startedAt,
      ⟨hstartedAt, hok⟩, summary, hsummary, rfl⟩

theorem IncidentParams.validate_eq_ok {p : IncidentParams} {t : ℤ} {d : IncidentDraft}
    (h : p.validate t = .ok d) :
    p.idempotencyKey = some d.key ∧ p.startedAt = some d.startedAt ∧
      startedAtOk t d.startedAt = true ∧ p.summary.map Text.btrim = some d.summary := by
  simp only [validate, bind_eq_ok, orRaise_eq_ok, pure_eq_ok, Option.filter_eq_some_iff,
    authorize_eq_ok] at h
  obtain ⟨key, ⟨hkey, -⟩, _, -, _, -, _, -, startedAt, ⟨hstartedAt, hok⟩, summary, hsummary, rfl⟩ :=
    h
  exact ⟨hkey, hstartedAt, hok, trimmedWithin_eq_some hsummary⟩

omit [Server] in
/-- What was not too far ahead is not so later. -/
theorem startedAtOk_later {t now : ℤ} {startedAt : Timestamptz} (hnow : t ≤ now)
    (h : startedAtOk t startedAt = true) :
    startedAtOk now startedAt = true ↔ .ofInstant (now - thirtyDays) ≤ startedAt := by
  rw [startedAtOk, Bool.and_eq_true, decide_eq_true_eq, decide_eq_true_eq] at h ⊢
  refine ⟨And.left, fun hle => ⟨hle, le_trans h.2 ?_⟩⟩
  rw [Timestamptz.ofInstant_le]
  exact Int.add_le_add_right hnow _

/-- **Creating an incident again** succeeds as long as its start is recent and its summary is the
first one. -/
theorem createIncident_repeats_iff {p : IncidentParams} (hs : c.Sound)
    (h : (Request.createIncident p).Remembered v.sampledAt publicId c.toStore) :
    (Request.createIncident p).Repeats v publicId c ↔
      (Request.createIncident p).Unspoiled v c.toStore := by
  obtain ⟨t, d, ht, hd, i, hi, hcreated, rfl⟩ := h
  obtain ⟨hkey, hstartedAt, hok, hsummary⟩ := IncidentParams.validate_eq_ok hd
  have hfind : c.incidents.find? (·.createRequestId = d.key) = some i := by
    rw [← hcreated.1]
    exact hs.incidents.createRequestId.find?_eq hi
  have hunspoiled : (Request.createIncident p).Unspoiled v c.toStore ↔
      startedAtOk v.sampledAt d.startedAt = true ∧ i.summary = d.summary := by
    simp only [Request.Unspoiled, hstartedAt, hkey, hsummary, Option.mem_some_iff, forall_eq',
      Option.some.injEq, startedAtOk_later ht hok]
    refine and_congr_right fun _ => ⟨fun h => (h i hi hcreated.1.symm).symm, ?_⟩
    intro heq j hj hjkey
    rw [hs.incidents.createRequestId.eq hj hi (hjkey.symm.trans hcreated.1.symm), heq]
  rw [hunspoiled, Request.Repeats, Request.perform, map_eq_ok]
  simp only [createStatusIncident, bind_eq_ok, IncidentParams.validate_at hd]
  constructor
  · rintro ⟨⟨j, c'⟩, ⟨e, ⟨hnow, he⟩, hcall⟩, -⟩
    rw [he] at hcall
    simp only [hfind, bind_eq_ok, raiseIf_eq_ok, Bool.not_eq_false'] at hcall
    obtain ⟨-, hagrees, -⟩ := hcall
    exact ⟨hnow, ((d.agrees_iff hcreated.1).1 hagrees).2⟩
  · rintro ⟨hnow, hsame⟩
    refine ⟨(i, c), ⟨d, ⟨hnow, rfl⟩, ?_⟩, rfl⟩
    simp only [hfind, bind_eq_ok, raiseIf_eq_ok, Bool.not_eq_false']
    exact ⟨(), (d.agrees_iff hcreated.1).2 ⟨hcreated, hsame⟩, rfl⟩

/-- **Publishing an incident again** succeeds as long as the update of the request, if there is one,
is what the incident is now. -/
theorem publishIncident_repeats_iff {p : MutationParams} (hs : c.Sound) {now : ℤ}
    (h : (Request.publishIncident p).Remembered now publicId c.toStore) :
    (Request.publishIncident p).Repeats v publicId c ↔
      (Request.publishIncident p).Unspoiled v c.toStore := by
  obtain ⟨requestId, hp, i, hi, rfl⟩ := h
  obtain ⟨hi, hpublished⟩ := Store.mem_publishedIncidents.1 hi
  obtain ⟨hrequest, hpublicId, -⟩ := MutationParams.validate_eq_ok hp
  have hincident : c.incident? i.publicId = some i := hs.incidents.publicId.find?_eq hi
  have hunspoiled : (Request.publishIncident p).Unspoiled v c.toStore ↔
      ∀ u, c.update? requestId = some u → replayIncidentPublish i u = .ok () := by
    simp only [Request.Unspoiled, hpublicId, hrequest, Option.some.injEq,
      replayIncidentPublish_eq_ok, hpublished, and_true]
    constructor
    · intro h u hu
      obtain ⟨humem, hureq⟩ := find?_key_eq_some hu
      exact h i hi rfl u humem hureq.symm
    · rintro h j hj hjid u hu rfl
      rw [← hs.incidents.publicId.eq hi hj hjid]
      exact h u (hs.updates.find?_eq hu)
  rw [hunspoiled, Request.Repeats, Request.perform, map_eq_ok]
  simp only [publishStatusIncident, bind_eq_ok, orRaise_eq_ok]
  constructor
  · rintro ⟨⟨j, c'⟩, ⟨⟨_, _⟩, hp', k, hk, hcall⟩, -⟩ u hu
    obtain ⟨rfl, rfl⟩ := Prod.mk.inj (Except.ok.inj (hp.symm.trans hp'))
    obtain rfl := Option.some.inj (hincident.symm.trans hk)
    simp only [hu, bind_eq_ok] at hcall
    obtain ⟨_, hreplay, -⟩ := hcall
    exact hreplay
  · intro h
    refine ⟨(i, c), ⟨_, hp, i, hincident, ?_⟩, rfl⟩
    cases hu : c.update? requestId with
    | some u =>
      simp only [h u hu]
      rfl
    | none =>
      simp only [hpublished, if_true]
      rfl

/-- **Appending an update again** always succeeds. -/
theorem appendIncidentUpdate_repeats {p : UpdateParams} (hs : c.Sound) {now : ℤ}
    (h : (Request.appendIncidentUpdate p).Remembered now publicId c.toStore) :
    (Request.appendIncidentUpdate p).Repeats v publicId c := by
  obtain ⟨d, hd, u, hu, hrequest, i, hi, hid, hagrees, rfl⟩ := h
  have hupdate : c.update? d.requestId = some u := by
    rw [← hrequest]
    exact hs.updates.find?_eq hu
  have hincident : c.incidentById? u.incidentId = some i := by
    rw [← hid]
    exact hs.incidents.id.find?_eq hi
  rw [Request.Repeats, Request.perform, map_eq_ok]
  refine ⟨(i, c), ?_, rfl⟩
  simp only [appendStatusIncidentUpdate, bind_eq_ok]
  refine ⟨d, hd, ?_⟩
  simp only [hupdate, hincident, Option.filter_some_pos hagrees, bind_eq_ok, orRaise_eq_ok]
  exact ⟨i, rfl, rfl⟩

/-- **What is remembered is recognised**, unless it is spoiled. -/
theorem Request.repeats_iff {r : Request} (hs : c.Sound)
    (h : r.Remembered v.sampledAt publicId c.toStore) :
    r.Repeats v publicId c ↔ r.Unspoiled v c.toStore := by
  cases r with
  | createIncident p => exact createIncident_repeats_iff hs h
  | publishIncident p => exact publishIncident_repeats_iff hs h
  | appendIncidentUpdate p => exact iff_of_true (appendIncidentUpdate_repeats hs h) trivial
  | createMaintenance p =>
    obtain ⟨hactor, m, hm, hkey, hagrees, rfl⟩ := h
    refine iff_of_true (map_eq_ok.2 ⟨(m, c), ?_, rfl⟩) trivial
    simp only [createStatusMaintenance, bind_eq_ok, authorize_eq_ok]
    exact ⟨_, ⟨hkey, hactor⟩, Table.createOnce_of_mem hs.notices.createRequestId hm rfl hagrees⟩
  | publishMaintenance p =>
    obtain ⟨r, hrun, hpublicId⟩ := Mutation.run_of_remembered hs.notices.publicId hs.noticeRequests h
    exact iff_of_true (map_eq_ok.2 ⟨(r, c), hrun, by rw [← hpublicId]; rfl⟩) trivial
  | cancelMaintenance p =>
    obtain ⟨r, hrun, hpublicId⟩ := Mutation.run_of_remembered hs.notices.publicId hs.noticeRequests h
    exact iff_of_true (map_eq_ok.2 ⟨(r, c), hrun, by rw [← hpublicId]; rfl⟩) trivial
  | createAnnouncement p =>
    obtain ⟨hactor, a, ha, hkey, hagrees, rfl⟩ := h
    refine iff_of_true (map_eq_ok.2 ⟨(a, c), ?_, rfl⟩) trivial
    simp only [createStatusAnnouncement, bind_eq_ok, authorize_eq_ok]
    exact ⟨_, ⟨hkey, hactor⟩,
      Table.createOnce_of_mem hs.announcements.createRequestId ha rfl hagrees⟩
  | publishAnnouncement p =>
    obtain ⟨r, hrun, hpublicId⟩ :=
      Mutation.run_of_remembered hs.announcements.publicId hs.announcementRequests h
    exact iff_of_true (map_eq_ok.2 ⟨(r, c), hrun, by rw [← hpublicId]; rfl⟩) trivial
  | archiveAnnouncement p =>
    obtain ⟨r, hrun, hpublicId⟩ :=
      Mutation.run_of_remembered hs.announcements.publicId hs.announcementRequests h
    exact iff_of_true (map_eq_ok.2 ⟨(r, c), hrun, by rw [← hpublicId]; rfl⟩) trivial

end

/-! ## Runs -/

/-- The calls are made one after the other. -/
def Clocked (calls : List Call) : Prop :=
  calls.Pairwise fun x y => x.invocation.clock ≤ y.invocation.begunAt

/-- **A call that has succeeded can be repeated** at any later time and after any other calls, with
the same answer and without writing anything, exactly if nothing has happened to what it is compared
with. -/
theorem repeat_iff [Server] (t : ℤ) (front : List Call) (x : Call) (back : List Call)
    (v : Invocation) {publicId : String} {c : Center}
    (hclock : Clocked (front ++ x :: back ++ [⟨x.request, v⟩]))
    (h : x.request.perform x.invocation ((Center.initial t).run front) = .ok (publicId, c)) :
    x.request.Repeats v publicId (c.run back) ↔ x.request.Unspoiled v (c.run back).toStore := by
  have hfront : ((Center.initial t).run front).Sound :=
    Center.run_sound front Store.empty_sound
  have hc : c.Sound := ((Request.perform_written h).preserves hfront).1
  have hnow : x.invocation.sampledAt ≤ v.sampledAt := by
    have hpair : x.invocation.clock ≤ v.begunAt :=
      (List.pairwise_append.1 hclock).2.2 x (by simp) _ List.mem_cons_self
    have := x.invocation.sampled_le
    have := v.begun_le
    omega
  apply Request.repeats_iff (Center.run_sound back hc)
  exact (Request.perform_remembered h).becomes hnow (Center.run_becomes back hc)

/-! ## An incident that was resolved -/

/-- A call at a time, all of its clocks at once. -/
def sampleInvocation (t : ℤ) : Invocation where
  begunAt := t
  sampledAt := t
  clock := t
  begun_le := le_refl t
  sampled_le := le_refl t
  newId := ⟨1#128⟩
  newSeed := ⟨0#128⟩
  windowOpen _ := false
  settings := ⟨[], [], [], [], []⟩

/-- An owner of the console. -/
def sampleActor : Actor := ⟨none, some "owner", some "123456789012345678"⟩

/-- An incident that starts at time 0. -/
def sampleCreate : Request :=
  .createIncident
    { title := some "Login fails"
      impact := some "major"
      affectedServiceIds := some (.ofList ["web"])
      startedAt := some (.ofInstant 0)
      summary := some "Under investigation"
      idempotencyKey := some ⟨2#128⟩
      actor := sampleActor }

/-- It is published. -/
def samplePublish : Request :=
  .publishIncident ⟨some "INC-000000000000", some ⟨3#128⟩, sampleActor⟩

/-- It is resolved. -/
def sampleResolve : Request :=
  .appendIncidentUpdate
    { publicId := some "INC-000000000000"
      lifecycleStatus := some "resolved"
      message := some "Fixed"
      requestId := some ⟨4#128⟩
      actor := sampleActor }

/-- The answer to a request. -/
def Request.answer [Server] (r : Request) (t : ℤ) (c : Center) : Except DbError String :=
  (r.perform (sampleInvocation t) c).map Prod.fst

/-- The tables after requests made at the given times. -/
def sampleCenter [Server] (calls : List (Request × ℤ)) : Center :=
  (Center.initial 0).run (calls.map fun x => ⟨x.1, sampleInvocation x.2⟩)

open Sample in
/-- Both calls succeed and are refused when they come again after the incident was resolved; the
first is also refused when it comes again after a month. -/
theorem repeated_calls_refused :
    sampleCreate.answer 1 (sampleCenter []) = .ok "INC-000000000000" ∧
      samplePublish.answer 2 (sampleCenter [(sampleCreate, 1)]) = .ok "INC-000000000000" ∧
      sampleCreate.answer 4
          (sampleCenter [(sampleCreate, 1), (samplePublish, 2), (sampleResolve, 3)]) =
        .error (.raised "status_incident_idempotency_conflict" "23505") ∧
      samplePublish.answer 4
          (sampleCenter [(sampleCreate, 1), (samplePublish, 2), (sampleResolve, 3)]) =
        .error (.raised "status_incident_publish_idempotency_conflict" "23505") ∧
      sampleCreate.answer (31 * day) (sampleCenter [(sampleCreate, 1)]) =
        .error (.raised "status_incident_started_at_invalid" "22023") := by
  decide +kernel

open Sample in
/-- The incident that was just created, asked for once more. -/
theorem repeat_after_create : ∃ c : Center,
    sampleCreate.perform (sampleInvocation 1) ((Center.initial 0).run []) =
        .ok ("INC-000000000000", c) ∧
      (sampleCreate.Repeats (sampleInvocation 4) "INC-000000000000" (c.run []) ↔
        sampleCreate.Unspoiled (sampleInvocation 4) (c.run []).toStore) := by
  have h : sampleCreate.answer 1 ((Center.initial 0).run []) = .ok "INC-000000000000" := by
    decide +kernel
  obtain ⟨⟨publicId, c⟩, hc, rfl⟩ := map_eq_ok.1 h
  refine ⟨c, hc, repeat_iff 0 [] ⟨sampleCreate, sampleInvocation 1⟩ [] (sampleInvocation 4) ?_ hc⟩
  simp [Clocked, sampleInvocation]

end IvrmDashboard.StatusCenter
