import IvrmDashboard.Foundations.Runs
import IvrmDashboard.Foundations.Sql.Unique
import IvrmDashboard.StatusCenter.Notices

/-!
# The calls of the Status Center

The nine functions as one step of a machine. Each has an inversion lemma: a call that commits has
either recognised an earlier one and written nothing, or it has written one change of the store
(`Written`), whose rows pass their constraints and whose keys are new.
-/

namespace IvrmDashboard.StatusCenter

open Sql Notifications

/-! ## Requests -/

/-- A function with its arguments. -/
inductive Request
  | createIncident (p : IncidentParams)
  | publishIncident (p : MutationParams)
  | appendIncidentUpdate (p : UpdateParams)
  | createMaintenance (p : MaintenanceParams)
  | publishMaintenance (p : MutationParams)
  | cancelMaintenance (p : MutationParams)
  | createAnnouncement (p : AnnouncementParams)
  | publishAnnouncement (p : MutationParams)
  | archiveAnnouncement (p : MutationParams)

/-- The public id of the row that is returned, and the tables afterwards. -/
def Request.perform [Server] (r : Request) (v : Invocation) (c : Center) :
    Except DbError (String × Center) :=
  match r with
  | createIncident p => (createStatusIncident v p c).map fun x => (x.1.publicId, x.2)
  | publishIncident p => (publishStatusIncident v p c).map fun x => (x.1.publicId, x.2)
  | appendIncidentUpdate p => (appendStatusIncidentUpdate v p c).map fun x => (x.1.publicId, x.2)
  | createMaintenance p => (createStatusMaintenance v p c).map fun x => (x.1.publicId, x.2)
  | publishMaintenance p => (publishStatusMaintenance v p c).map fun x => (x.1.publicId, x.2)
  | cancelMaintenance p => (cancelStatusMaintenance v p c).map fun x => (x.1.publicId, x.2)
  | createAnnouncement p => (createStatusAnnouncement v p c).map fun x => (x.1.publicId, x.2)
  | publishAnnouncement p => (publishStatusAnnouncement v p c).map fun x => (x.1.publicId, x.2)
  | archiveAnnouncement p => (archiveStatusAnnouncement v p c).map fun x => (x.1.publicId, x.2)

/-- A request and what its call finds. -/
structure Call where
  request : Request
  invocation : Invocation

namespace Center

/-- A call that aborts leaves the tables as they were. -/
def step [Server] (c : Center) (x : Call) : Center :=
  match x.request.perform x.invocation c with
  | .ok (_, c') => c'
  | .error _ => c

/-- The tables after a list of calls. -/
def run [Server] (c : Center) (calls : List Call) : Center := Runs.run step c calls

theorem run_concat [Server] (c : Center) (calls : List Call) (x : Call) :
    c.run (calls ++ [x]) = (c.run calls).step x :=
  Runs.run_concat c calls x

end Center

/-! ## What every call does on its way -/

theorem authorize_eq_ok [Server] {name missing : String} {requestId : Option Uuid} {a : Actor}
    {k : Uuid} : authorize name requestId missing a = .ok k ↔
      requestId = some k ∧ (statusActorValid a).not.holds = false := by
  simp only [authorize, bind_eq_ok, orRaise_eq_ok, raiseIf_eq_ok, pure_eq_ok]
  constructor
  · rintro ⟨k', hk, -, ha, rfl⟩
    exact ⟨hk, ha⟩
  · rintro ⟨hk, ha⟩
    exact ⟨k, hk, (), ha, rfl⟩

namespace Center

theorem appendAudit_toStore [Server] {v : Invocation} {c c' : Center} {requestId : Uuid}
    {a : Actor} {action targetType publicId : String} {fields : List (String × Jsonb)}
    (h : c.appendAudit v requestId a action targetType publicId fields = .ok c') :
    c'.toStore = c.toStore := by
  simp only [appendAudit, bind_eq_ok, pure_eq_ok] at h
  obtain ⟨_, _, rfl⟩ := h
  rfl

theorem notify_toStore {v : Invocation} {c c' : Center} {p : StatusEventParams}
    (h : c.notify v p = .ok c') : c'.toStore = c.toStore := by
  simp only [notify, bind_eq_ok, pure_eq_ok] at h
  obtain ⟨_, _, rfl⟩ := h
  rfl

end Center

/-- All constraints hold. -/
def Checked (checks : List (String × Bool)) : Prop := ∀ check ∈ checks, check.2 = true

/-- The constraints of a list, one after the other. -/
theorem checked_cons {name : String} {ok : Bool} {checks : List (String × Bool)} :
    Checked ((name, ok) :: checks) ↔ ok = true ∧ Checked checks :=
  List.forall_mem_cons

/-! ## New rows -/

/-- The columns of a table of objects that are unique. -/
structure Keys (ρ : Type) where
  id : ρ → Uuid
  publicId : ρ → String
  createRequestId : ρ → Uuid

/-- No row has a key of the new one. -/
structure Keys.Fresh {ρ : Type} (k : Keys ρ) (rows : List ρ) (r : ρ) : Prop where
  id : ∀ x ∈ rows, k.id x ≠ k.id r
  publicId : ∀ x ∈ rows, k.publicId x ≠ k.publicId r
  createRequestId : ∀ x ∈ rows, k.createRequestId x ≠ k.createRequestId r

/-- The keys of `status_incidents`. -/
def incidentKeys : Keys Incident :=
  ⟨Incident.id, Incident.publicId, Incident.createRequestId⟩

/-- The keys of a table with a ledger. -/
def Table.keys {ρ : Type} (t : Table ρ) : Keys ρ := ⟨t.id, t.publicId, t.createRequestId⟩

/-! ## Incidents -/

namespace Store

/-- The store with a new incident. -/
def addIncident (i : Incident) (s : Store) : Store := { s with incidents := s.incidents ++ [i] }

/-- The store in which an incident has become `i` with a new update. -/
def writeIncident (i : Incident) (u : IncidentUpdate) (s : Store) : Store :=
  { s with
    incidents := updateWhere (·.id = i.id) (fun _ => i) s.incidents
    updates := s.updates ++ [u]
    nextUpdateId := s.nextUpdateId + 1 }

end Store

/-- What a call that committed did to the incidents. -/
inductive IncidentWritten (v : Invocation) (s : Store) : Store → Prop
  | created (d : IncidentDraft) (impact : Impact)
    (hfresh : incidentKeys.Fresh s.incidents (d.row v impact))
    (hchecked : Checked (d.row v impact).checks) :
    IncidentWritten v s (s.addIncident (d.row v impact))
  | published (i : Incident) (requestId : Uuid) (hi : i ∈ s.incidents)
    (harchived : i.publicationState ≠ .archived) (hpublished : i.publicationState ≠ .published)
    (hrequest : ∀ u ∈ s.updates, u.requestId ≠ requestId)
    (hchecked : Checked (i.publish v).checks)
    (hupdate : Checked (s.newUpdate v i i.lifecycleStatus i.summary requestId).checks) :
    IncidentWritten v s
      (s.writeIncident (i.publish v) (s.newUpdate v i i.lifecycleStatus i.summary requestId))
  | advanced (i : Incident) (status : Lifecycle) (message : String) (requestId : Uuid)
    (hi : i ∈ s.incidents) (hpublished : i.publicationState = .published)
    (hstatus : status ∈ i.lifecycleStatus.successors)
    (hrequest : ∀ u ∈ s.updates, u.requestId ≠ requestId)
    (hchecked : Checked (i.advance v status message).checks)
    (hupdate : Checked (s.newUpdate v i status message requestId).checks) :
    IncidentWritten v s
      (s.writeIncident (i.advance v status message) (s.newUpdate v i status message requestId))

section Incidents

variable [Server] {v : Invocation} {c c' : Center} {i : Incident}

/-- **Creating an incident** finds the one under the key or stores a new one. -/
theorem createStatusIncident_eq_ok {p : IncidentParams}
    (h : createStatusIncident v p c = .ok (i, c')) :
    ∃ d, p.validate v.sampledAt = .ok d ∧
      ((c.incidents.find? (·.createRequestId = d.key) = some i ∧ d.agrees i = true ∧ c' = c) ∨
        ∃ impact, d.impact = some impact ∧ i = d.row v impact ∧
          c'.toStore = c.toStore.addIncident i ∧ incidentKeys.Fresh c.incidents i ∧
          Checked i.checks) := by
  simp only [createStatusIncident, bind_eq_ok] at h
  obtain ⟨d, hd, h⟩ := h
  refine ⟨d, hd, ?_⟩
  split at h
  next j hj =>
    simp only [bind_eq_ok, raiseIf_eq_ok, pure_eq_ok, Prod.mk.injEq] at h
    obtain ⟨-, hagrees, rfl, rfl⟩ := h
    exact .inl ⟨hj, by simpa using hagrees, rfl⟩
  next hnone =>
    simp only [IncidentDraft.create, Center.insertIncident, bind_eq_ok, orRaise_eq_ok,
      checkAll_eq_ok, raiseIf_eq_ok, pure_eq_ok, Prod.mk.injEq, any_key_eq_false] at h
    obtain ⟨impact, himpact, _, ⟨-, hchecked, -, hid, -, hpublicId, rfl⟩, c₂, haudit, rfl, rfl⟩ := h
    refine .inr ⟨impact, himpact, rfl, Center.appendAudit_toStore haudit, ?_, hchecked⟩
    exact ⟨hid, hpublicId, find?_key_eq_none.1 hnone⟩

omit [Server] in
theorem insertUpdate_eq_ok {u : IncidentUpdate} (h : c.insertUpdate v u = .ok c') :
    c'.toStore =
        { c.toStore with updates := c.updates ++ [u], nextUpdateId := c.nextUpdateId + 1 } ∧
      (∀ w ∈ c.updates, w.requestId ≠ u.requestId) ∧ Checked u.checks := by
  simp only [Center.insertUpdate, Center.incidentNotificationEventTrigger, bind_eq_ok,
    checkAll_eq_ok, raiseIf_eq_ok, any_key_eq_false, orRaise_eq_ok] at h
  obtain ⟨-, hchecked, -, hrequest, _, _, hnotify⟩ := h
  exact ⟨Center.notify_toStore hnotify, hrequest, hchecked⟩

theorem publishDraft_eq_ok {j : Incident} {requestId : Uuid} {a : Actor}
    (h : j.publishDraft v requestId a c = .ok (i, c')) :
    i = j.publish v ∧ Checked i.checks ∧ (∀ w ∈ c.updates, w.requestId ≠ requestId) ∧
      Checked (c.newUpdate v j j.lifecycleStatus j.summary requestId).checks ∧
      c'.toStore = c.toStore.writeIncident i
        (c.newUpdate v j j.lifecycleStatus j.summary requestId) := by
  simp only [Incident.publishDraft, Center.updateIncident, bind_eq_ok, checkAll_eq_ok, pure_eq_ok,
    Prod.mk.injEq] at h
  obtain ⟨_, ⟨-, hchecked, rfl⟩, c₂, hinsert, c₃, haudit, rfl, rfl⟩ := h
  obtain ⟨hstore, hrequest, hupdate⟩ := insertUpdate_eq_ok hinsert
  refine ⟨rfl, hchecked, hrequest, hupdate, ?_⟩
  rw [Center.appendAudit_toStore haudit, hstore]
  rfl

theorem MutationParams.validate_eq_ok {name : String} {source : StatusSource} {p : MutationParams}
    {requestId : Uuid} {publicId : String}
    (h : p.validate name source = .ok (requestId, publicId)) :
    p.requestId = some requestId ∧ p.publicId = some publicId ∧
      source.publicIdOk publicId = true := by
  simp only [MutationParams.validate, bind_eq_ok, orRaise_eq_ok, authorize_eq_ok, pure_eq_ok,
    Option.filter_eq_some_iff, Prod.mk.injEq] at h
  obtain ⟨_, ⟨hrequest, -⟩, _, ⟨hpublicId, hok⟩, rfl, rfl⟩ := h
  exact ⟨hrequest, hpublicId, hok⟩

/-- **Publishing an incident** finds the update of the request, finds the incident published, or
publishes a draft. -/
theorem publishStatusIncident_eq_ok {p : MutationParams}
    (h : publishStatusIncident v p c = .ok (i, c')) :
    ∃ requestId publicId j, p.validate "status_incident" .incident = .ok (requestId, publicId) ∧
      c.incident? publicId = some j ∧
      ((∃ u, c.update? requestId = some u ∧ replayIncidentPublish j u = .ok () ∧ i = j ∧ c' = c) ∨
        c.update? requestId = none ∧
          ((j.publicationState = .published ∧ i = j ∧ c' = c) ∨
            j.publicationState ≠ .archived ∧ j.publicationState ≠ .published ∧
              j.publishDraft v requestId p.actor c = .ok (i, c'))) := by
  simp only [publishStatusIncident, bind_eq_ok, orRaise_eq_ok] at h
  obtain ⟨⟨requestId, publicId⟩, hp, j, hj, h⟩ := h
  refine ⟨requestId, publicId, j, hp, hj, ?_⟩
  split at h
  next u hu =>
    simp only [bind_eq_ok, pure_eq_ok, Prod.mk.injEq] at h
    obtain ⟨_, hreplay, rfl, rfl⟩ := h
    exact .inl ⟨u, hu, hreplay, rfl, rfl⟩
  next hnone =>
    simp only [bind_eq_ok, raiseIf_eq_ok, decide_eq_false_iff_not] at h
    obtain ⟨-, harchived, h⟩ := h
    refine .inr ⟨hnone, ?_⟩
    split at h
    next hpublished =>
      simp only [pure_eq_ok, Prod.mk.injEq] at h
      exact .inl ⟨hpublished, h.1.symm, h.2.symm⟩
    next hpublished => exact .inr ⟨harchived, hpublished, h⟩

/-- The new update of an incident. -/
theorem append_eq_ok {d : UpdateDraft} {a : Actor} {j : Incident}
    (h : d.append v a j c = .ok (i, c')) :
    ∃ status, d.lifecycleStatus = some status ∧ j.publicationState = .published ∧
      status ∈ j.lifecycleStatus.successors ∧ i = j.advance v status d.message ∧
      Checked i.checks ∧ (∀ w ∈ c.updates, w.requestId ≠ d.requestId) ∧
      Checked (c.newUpdate v j status d.message d.requestId).checks ∧
      c'.toStore =
        c.toStore.writeIncident i (c.newUpdate v j status d.message d.requestId) := by
  simp only [UpdateDraft.append, Center.updateIncident, bind_eq_ok, raiseIf_eq_ok, orRaise_eq_ok,
    checkAll_eq_ok, pure_eq_ok, Prod.mk.injEq] at h
  obtain ⟨-, hpublished, -, -, -, hstatus, status, hlifecycle, c₁, hinsert, _,
    ⟨-, hchecked, rfl⟩, c₂, haudit, rfl, rfl⟩ := h
  obtain ⟨hstore, hrequest, hupdate⟩ := insertUpdate_eq_ok hinsert
  refine ⟨status, hlifecycle, by simpa using hpublished, ?_, rfl, hchecked, hrequest, hupdate, ?_⟩
  · simpa [hlifecycle, isIn, Tri.not] using hstatus
  · rw [Center.appendAudit_toStore haudit]
    simp only [hstore]
    rfl

/-- **Appending an update** finds the update of the request or stores a new one. -/
theorem appendStatusIncidentUpdate_eq_ok {p : UpdateParams}
    (h : appendStatusIncidentUpdate v p c = .ok (i, c')) :
    ∃ d, p.validate = .ok d ∧
      ((∃ u, c.update? d.requestId = some u ∧ c.incidentById? u.incidentId = some i ∧
          d.agrees u i = true ∧ c' = c) ∨
        c.update? d.requestId = none ∧
          ∃ j, c.incident? d.publicId = some j ∧ d.append v p.actor j c = .ok (i, c')) := by
  simp only [appendStatusIncidentUpdate, bind_eq_ok] at h
  obtain ⟨d, hd, h⟩ := h
  refine ⟨d, hd, ?_⟩
  split at h
  next u hu =>
    simp only [bind_eq_ok, orRaise_eq_ok, pure_eq_ok, Prod.mk.injEq,
      Option.filter_eq_some_iff] at h
    obtain ⟨_, ⟨hi, hagrees⟩, rfl, rfl⟩ := h
    exact .inl ⟨u, hu, hi, hagrees, rfl⟩
  next hnone =>
    simp only [bind_eq_ok, orRaise_eq_ok] at h
    obtain ⟨j, hj, h⟩ := h
    exact .inr ⟨hnone, j, hj, h⟩

end Incidents

/-! ## Notices and announcements -/

section Ledgers

variable {ρ : Type} {t : Table ρ} {v : Invocation} {c c' : Center} {r r' : ρ}

/-- A keyed call finds the object under the key or goes on to create one. -/
theorem Table.createOnce_eq_ok {key : Uuid} {agrees : ρ → Bool}
    {create : Except DbError (ρ × Center)} (h : t.createOnce key agrees create c = .ok (r, c')) :
    ((t.rows c.toStore).find? (t.createRequestId · = key) = some r ∧ agrees r = true ∧ c' = c) ∨
      ((t.rows c.toStore).find? (t.createRequestId · = key) = none ∧ create = .ok (r, c')) := by
  unfold createOnce at h
  split at h
  next x hx =>
    simp only [bind_eq_ok, raiseIf_eq_ok, pure_eq_ok, Prod.mk.injEq] at h
    obtain ⟨-, hagrees, rfl, rfl⟩ := h
    exact .inl ⟨hx, by simpa using hagrees, rfl⟩
  next hnone => exact .inr ⟨hnone, h⟩

theorem Table.insert_eq_ok (h : t.insert r c = .ok c') :
    Checked (t.checks r) ∧ (∀ x ∈ t.rows c.toStore, t.id x ≠ t.id r) ∧
      (∀ x ∈ t.rows c.toStore, t.publicId x ≠ t.publicId r) ∧
      c'.toStore = t.setRows (t.rows c.toStore ++ [r]) c.toStore := by
  simp only [insert, bind_eq_ok, checkAll_eq_ok, raiseIf_eq_ok, any_key_eq_false, pure_eq_ok] at h
  obtain ⟨-, hchecked, -, hid, -, hpublicId, rfl⟩ := h
  exact ⟨hchecked, hid, hpublicId, rfl⟩

theorem Table.update_eq_ok (h : t.update v r r' c = .ok c') :
    Checked (t.checks r') ∧ c'.toStore = t.replace r r' c.toStore := by
  simp only [update, bind_eq_ok, checkAll_eq_ok] at h
  obtain ⟨-, hchecked, event, -, h⟩ := h
  refine ⟨hchecked, ?_⟩
  split at h
  next =>
    rw [← pure_eq_ok.1 h]
  next p => exact Center.notify_toStore h

/-- What a mutation that was new to the ledger did to the store. -/
inductive Mutation.Performed (m : Mutation ρ) (v : Invocation) (requestId : Uuid) (s : Store)
    (r : ρ) : ρ → Store → Prop
  | settled (hrefuse : m.refuse v r = .ok ()) (hsettled : m.settled r = true) :
    m.Performed v requestId s r r (m.record requestId r s)
  | written (new : ρ) (hrefuse : m.refuse v r = .ok ()) (hsettled : m.settled r = false)
    (hwrite : m.write v r = .ok new) (hchecked : Checked (m.table.checks new)) :
    m.Performed v requestId s r new (m.record requestId new (m.table.replace r new s))

theorem Mutation.perform_eq_ok [Server] {m : Mutation ρ} {requestId : Uuid} {a : Actor}
    (h : m.perform v requestId a r c = .ok (r', c')) :
    m.Performed v requestId c.toStore r r' c'.toStore := by
  simp only [perform, bind_eq_ok, pure_eq_ok, Prod.mk.injEq] at h
  obtain ⟨_, hrefuse, ⟨new, c₁⟩, hsettle, c₂, haudit, rfl, rfl⟩ := h
  rw [Center.appendAudit_toStore haudit]
  unfold settle at hsettle
  split at hsettle
  next hsettled =>
    obtain ⟨rfl, rfl⟩ := Prod.mk.inj (Except.ok.inj hsettle)
    exact .settled hrefuse hsettled
  next hsettled =>
    simp only [bind_eq_ok, pure_eq_ok, Prod.mk.injEq] at hsettle
    obtain ⟨_, hwrite, _, hupdate, rfl, rfl⟩ := hsettle
    obtain ⟨hchecked, hstore⟩ := Table.update_eq_ok hupdate
    rw [hstore]
    exact .written _ hrefuse (by simpa using hsettled) hwrite hchecked

/-- **Publishing, cancelling, archiving** finds the request in the ledger or performs it. -/
theorem Mutation.run_eq_ok [Server] {m : Mutation ρ} {p : MutationParams}
    (h : m.run v p c = .ok (r', c')) :
    ∃ requestId publicId r, p.validate m.table.name m.table.source = .ok (requestId, publicId) ∧
      (m.table.rows c.toStore).find? (m.table.publicId · = publicId) = some r ∧
      ((∃ q, (m.table.requests c.toStore).find? (·.requestId = requestId) = some q ∧
          q.objectId = m.table.id r ∧ q.action = m.action ∧ r' = r ∧ c' = c) ∨
        (m.table.requests c.toStore).find? (·.requestId = requestId) = none ∧
          m.Performed v requestId c.toStore r r' c'.toStore) := by
  simp only [run, bind_eq_ok, orRaise_eq_ok] at h
  obtain ⟨⟨requestId, publicId⟩, hp, r, hr, h⟩ := h
  refine ⟨requestId, publicId, r, hp, hr, ?_⟩
  split at h
  next q hq =>
    simp only [bind_eq_ok, raiseIf_eq_ok, pure_eq_ok, Prod.mk.injEq, Bool.or_eq_false_iff,
      decide_eq_false_iff_not, not_not] at h
    obtain ⟨-, ⟨hobject, haction⟩, rfl, rfl⟩ := h
    exact .inl ⟨q, hq, hobject, haction, rfl, rfl⟩
  next hnone => exact .inr ⟨hnone, perform_eq_ok h⟩

end Ledgers

section Notices

variable [Server] {v : Invocation} {c c' : Center}

/-- **Creating a notice** finds the one under the key or stores a new one. -/
theorem createStatusMaintenance_eq_ok {p : MaintenanceParams} {m : MaintenanceNotice}
    (h : createStatusMaintenance v p c = .ok (m, c')) :
    ∃ key, p.idempotencyKey = some key ∧ (statusActorValid p.actor).not.holds = false ∧
      ((c.notices.find? (·.createRequestId = key) = some m ∧ p.agrees m = true ∧ c' = c) ∨
        p.row v key = .ok m ∧ maintenanceTable.keys.Fresh c.notices m ∧ Checked m.checks ∧
          c'.toStore = { c.toStore with notices := c.notices ++ [m] }) := by
  simp only [createStatusMaintenance, bind_eq_ok, authorize_eq_ok] at h
  obtain ⟨key, ⟨hkey, ha⟩, h⟩ := h
  refine ⟨key, hkey, ha, ?_⟩
  rcases Table.createOnce_eq_ok h with h | ⟨hnone, h⟩
  · exact .inl h
  · simp only [MaintenanceParams.create, bind_eq_ok, pure_eq_ok, Prod.mk.injEq] at h
    obtain ⟨_, hrow, _, hinsert, _, haudit, rfl, rfl⟩ := h
    obtain ⟨hchecked, hid, hpublicId, hstore⟩ := Table.insert_eq_ok hinsert
    refine .inr ⟨hrow, ⟨hid, hpublicId, ?_⟩, hchecked, ?_⟩
    · have hkey := find?_key_eq_none.1 hnone
      simp only [MaintenanceParams.row, bind_eq_ok, pure_eq_ok] at hrow
      obtain ⟨_, -, _, -, _, -, _, -, _, -, rfl⟩ := hrow
      exact hkey
    · rw [Center.appendAudit_toStore haudit, hstore]
      rfl

/-- **Creating an announcement** finds the one under the key or stores a new one. -/
theorem createStatusAnnouncement_eq_ok {p : AnnouncementParams} {a : Announcement}
    (h : createStatusAnnouncement v p c = .ok (a, c')) :
    ∃ key, p.idempotencyKey = some key ∧ (statusActorValid p.actor).not.holds = false ∧
      ((c.announcements.find? (·.createRequestId = key) = some a ∧ p.agrees a = true ∧ c' = c) ∨
        p.row v key = .ok a ∧ announcementTable.keys.Fresh c.announcements a ∧ Checked a.checks ∧
          c'.toStore = { c.toStore with announcements := c.announcements ++ [a] }) := by
  simp only [createStatusAnnouncement, bind_eq_ok, authorize_eq_ok] at h
  obtain ⟨key, ⟨hkey, ha⟩, h⟩ := h
  refine ⟨key, hkey, ha, ?_⟩
  rcases Table.createOnce_eq_ok h with h | ⟨hnone, h⟩
  · exact .inl h
  · simp only [AnnouncementParams.create, bind_eq_ok, pure_eq_ok, Prod.mk.injEq] at h
    obtain ⟨_, hrow, _, hinsert, _, haudit, rfl, rfl⟩ := h
    obtain ⟨hchecked, hid, hpublicId, hstore⟩ := Table.insert_eq_ok hinsert
    refine .inr ⟨hrow, ⟨hid, hpublicId, ?_⟩, hchecked, ?_⟩
    · have hkey := find?_key_eq_none.1 hnone
      simp only [AnnouncementParams.row, bind_eq_ok, pure_eq_ok] at hrow
      obtain ⟨_, -, _, -, _, -, _, -, _, -, _, -, _, -, rfl⟩ := hrow
      exact hkey
    · rw [Center.appendAudit_toStore haudit, hstore]
      rfl

end Notices

/-! ## One change of the store -/

/-- What a call that committed wrote. -/
inductive Written (v : Invocation) (s : Store) : Store → Prop
  | nothing : Written v s s
  | incident (s' : Store) (h : IncidentWritten v s s') : Written v s s'
  | notice (p : MaintenanceParams) (key : Uuid) (m : MaintenanceNotice) (hrow : p.row v key = .ok m)
    (hfresh : maintenanceTable.keys.Fresh s.notices m) (hchecked : Checked m.checks) :
    Written v s { s with notices := s.notices ++ [m] }
  | noticeMutation (m : Mutation MaintenanceNotice)
    (hm : m = publishMaintenance ∨ m = cancelMaintenance) (requestId : Uuid)
    (r r' : MaintenanceNotice) (s' : Store) (hr : r ∈ s.notices)
    (hrequest : ∀ q ∈ s.noticeRequests, q.requestId ≠ requestId)
    (h : m.Performed v requestId s r r' s') : Written v s s'
  | announcement (p : AnnouncementParams) (key : Uuid) (a : Announcement)
    (hrow : p.row v key = .ok a) (hfresh : announcementTable.keys.Fresh s.announcements a)
    (hchecked : Checked a.checks) :
    Written v s { s with announcements := s.announcements ++ [a] }
  | announcementMutation (m : Mutation Announcement)
    (hm : m = publishAnnouncement ∨ m = archiveAnnouncement) (requestId : Uuid)
    (r r' : Announcement) (s' : Store) (hr : r ∈ s.announcements)
    (hrequest : ∀ q ∈ s.announcementRequests, q.requestId ≠ requestId)
    (h : m.Performed v requestId s r r' s') : Written v s s'

section

variable [Server] {v : Invocation} {c c' : Center}

theorem createStatusIncident_written {p : IncidentParams} {i : Incident}
    (h : createStatusIncident v p c = .ok (i, c')) : Written v c.toStore c'.toStore := by
  obtain ⟨d, -, ⟨-, -, rfl⟩ | ⟨impact, -, rfl, hstore, hfresh, hchecked⟩⟩ :=
    createStatusIncident_eq_ok h
  · exact .nothing
  · rw [hstore]
    exact .incident _ (.created d impact hfresh hchecked)

theorem publishStatusIncident_written {p : MutationParams} {i : Incident}
    (h : publishStatusIncident v p c = .ok (i, c')) : Written v c.toStore c'.toStore := by
  obtain ⟨requestId, publicId, j, -, hj, ⟨u, -, -, -, rfl⟩ |
    ⟨-, ⟨-, -, rfl⟩ | ⟨harchived, hpublished, h⟩⟩⟩ := publishStatusIncident_eq_ok h
  · exact .nothing
  · exact .nothing
  · obtain ⟨rfl, hchecked, hrequest, hupdate, hstore⟩ := publishDraft_eq_ok h
    rw [hstore]
    exact .incident _ (.published j requestId (find?_key_eq_some hj).1 harchived hpublished hrequest
      hchecked hupdate)

theorem appendStatusIncidentUpdate_written {p : UpdateParams} {i : Incident}
    (h : appendStatusIncidentUpdate v p c = .ok (i, c')) : Written v c.toStore c'.toStore := by
  obtain ⟨d, -, ⟨u, -, -, -, rfl⟩ | ⟨-, j, hj, h⟩⟩ := appendStatusIncidentUpdate_eq_ok h
  · exact .nothing
  · obtain ⟨status, -, hpublished, hstatus, rfl, hchecked, hrequest, hupdate, hstore⟩ :=
      append_eq_ok h
    rw [hstore]
    exact .incident _ (.advanced j status d.message d.requestId (find?_key_eq_some hj).1 hpublished
      hstatus hrequest hchecked hupdate)

theorem createStatusMaintenance_written {p : MaintenanceParams} {m : MaintenanceNotice}
    (h : createStatusMaintenance v p c = .ok (m, c')) : Written v c.toStore c'.toStore := by
  obtain ⟨key, -, -, ⟨-, -, rfl⟩ | ⟨hrow, hfresh, hchecked, hstore⟩⟩ :=
    createStatusMaintenance_eq_ok h
  · exact .nothing
  · rw [hstore]
    exact .notice p key m hrow hfresh hchecked

theorem createStatusAnnouncement_written {p : AnnouncementParams} {a : Announcement}
    (h : createStatusAnnouncement v p c = .ok (a, c')) : Written v c.toStore c'.toStore := by
  obtain ⟨key, -, -, ⟨-, -, rfl⟩ | ⟨hrow, hfresh, hchecked, hstore⟩⟩ :=
    createStatusAnnouncement_eq_ok h
  · exact .nothing
  · rw [hstore]
    exact .announcement p key a hrow hfresh hchecked

theorem noticeMutation_written {m : Mutation MaintenanceNotice} {p : MutationParams}
    {r : MaintenanceNotice} (hm : m = publishMaintenance ∨ m = cancelMaintenance)
    (h : m.run v p c = .ok (r, c')) : Written v c.toStore c'.toStore := by
  obtain ⟨requestId, publicId, x, -, hx, ⟨q, -, -, -, -, rfl⟩ | ⟨hnone, hperformed⟩⟩ :=
    Mutation.run_eq_ok h
  · exact .nothing
  · have htable : m.table = maintenanceTable := by rcases hm with rfl | rfl <;> rfl
    rw [htable] at hx hnone
    exact .noticeMutation m hm requestId x r _ (find?_key_eq_some hx).1
      (find?_key_eq_none.1 hnone) hperformed

theorem announcementMutation_written {m : Mutation Announcement} {p : MutationParams}
    {r : Announcement} (hm : m = publishAnnouncement ∨ m = archiveAnnouncement)
    (h : m.run v p c = .ok (r, c')) : Written v c.toStore c'.toStore := by
  obtain ⟨requestId, publicId, x, -, hx, ⟨q, -, -, -, -, rfl⟩ | ⟨hnone, hperformed⟩⟩ :=
    Mutation.run_eq_ok h
  · exact .nothing
  · have htable : m.table = announcementTable := by rcases hm with rfl | rfl <;> rfl
    rw [htable] at hx hnone
    exact .announcementMutation m hm requestId x r _ (find?_key_eq_some hx).1
      (find?_key_eq_none.1 hnone) hperformed

/-- **A call that commits writes one change.** -/
theorem Request.perform_written {r : Request} {publicId : String}
    (h : r.perform v c = .ok (publicId, c')) : Written v c.toStore c'.toStore := by
  cases r with
  | createIncident p =>
    obtain ⟨⟨i, _⟩, hcall, rfl, rfl⟩ := by simpa only [perform, map_eq_ok, Prod.mk.injEq] using h
    exact createStatusIncident_written hcall
  | publishIncident p =>
    obtain ⟨⟨i, _⟩, hcall, rfl, rfl⟩ := by simpa only [perform, map_eq_ok, Prod.mk.injEq] using h
    exact publishStatusIncident_written hcall
  | appendIncidentUpdate p =>
    obtain ⟨⟨i, _⟩, hcall, rfl, rfl⟩ := by simpa only [perform, map_eq_ok, Prod.mk.injEq] using h
    exact appendStatusIncidentUpdate_written hcall
  | createMaintenance p =>
    obtain ⟨⟨i, _⟩, hcall, rfl, rfl⟩ := by simpa only [perform, map_eq_ok, Prod.mk.injEq] using h
    exact createStatusMaintenance_written hcall
  | publishMaintenance p =>
    obtain ⟨⟨i, _⟩, hcall, rfl, rfl⟩ := by simpa only [perform, map_eq_ok, Prod.mk.injEq] using h
    exact noticeMutation_written (.inl rfl) hcall
  | cancelMaintenance p =>
    obtain ⟨⟨i, _⟩, hcall, rfl, rfl⟩ := by simpa only [perform, map_eq_ok, Prod.mk.injEq] using h
    exact noticeMutation_written (.inr rfl) hcall
  | createAnnouncement p =>
    obtain ⟨⟨i, _⟩, hcall, rfl, rfl⟩ := by simpa only [perform, map_eq_ok, Prod.mk.injEq] using h
    exact createStatusAnnouncement_written hcall
  | publishAnnouncement p =>
    obtain ⟨⟨i, _⟩, hcall, rfl, rfl⟩ := by simpa only [perform, map_eq_ok, Prod.mk.injEq] using h
    exact announcementMutation_written (.inl rfl) hcall
  | archiveAnnouncement p =>
    obtain ⟨⟨i, _⟩, hcall, rfl, rfl⟩ := by simpa only [perform, map_eq_ok, Prod.mk.injEq] using h
    exact announcementMutation_written (.inr rfl) hcall

/-- A step writes one change or none. -/
theorem Center.step_written (c : Center) (x : Call) :
    Written x.invocation c.toStore (c.step x).toStore := by
  unfold step
  split
  next publicId c' h => exact Request.perform_written h
  next => exact .nothing

end

end IvrmDashboard.StatusCenter
