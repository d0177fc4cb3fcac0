import IvrmDashboard.StatusCenter.Announced

/-!
# Whether the checks of a call keep it within the constraints

The functions check their arguments, the tables have constraints of their own, and the triggers check
what they are given once more. `Clean` says that a call does not fail in the tables or in a trigger:
it commits or is refused by the function itself. What is announced never fails, so it comes down to the
rows that are written, and for each function these fit exactly if its clock does (`Request.Fits`).
-/

namespace IvrmDashboard.StatusCenter

open Sql Notifications

/-! ## Failures of the tables -/

/-- The exceptions of the triggers. -/
def triggerErrors : List String :=
  ["status_incident_notification_state_inconsistent",
    "status_maintenance_notification_timestamp_missing",
    "status_announcement_notification_publish_at_missing", "status_notification_event_invalid",
    "status_notification_event_resolution_failed", "status_notification_event_key_conflict"]

/-- The constraints of `audit_logs`. -/
def auditConstraints : List String :=
  ["audit_logs_action_check", "audit_logs_actor_email_check", "audit_logs_actor_role_check",
    "audit_logs_entry_hash_check", "audit_logs_metadata_check", "audit_logs_previous_hash_check",
    "audit_logs_result_check", "audit_logs_target_id_check", "audit_logs_target_type_check",
    "audit_logs_entry_hash_key", "audit_logs_actor_user_id_fkey"]

/-- A constraint of the Status Center or of the queue, or a trigger, has failed. -/
def breaks : DbError → Bool
  | .raised message _ => message ∈ triggerErrors
  | .notNullViolation _ => true
  | .checkViolation name | .foreignKeyViolation name | .uniqueViolation name =>
    name ∉ auditConstraints

/-- The call does not fail in the tables or in a trigger. -/
abbrev Clean {α : Type} (x : Except DbError α) : Prop := Fails (fun e => breaks e = false) x

section

variable {α β : Type}

theorem clean_of_ok {x : Except DbError α} {a : α} (h : x = .ok a) : Clean x := by
  rw [h]
  exact fails_ok a

theorem clean_bind_iff {x : Except DbError α} {f : α → Except DbError β} :
    Clean (x >>= f) ↔ Clean x ∧ ∀ a, x = .ok a → Clean (f a) :=
  fails_bind_iff

/-- A first part that commits leaves it to the second. -/
theorem clean_bind {x : Except DbError α} {f : α → Except DbError β} {a : α} (hx : x = .ok a) :
    Clean (x >>= f) ↔ Clean (f a) := by
  rw [hx]
  exact Iff.rfl

theorem clean_checkAll {checks : List (String × Bool)}
    (hnames : ∀ c ∈ checks, breaks (.checkViolation c.1) = true) :
    Clean (checkAll checks) ↔ Checked checks :=
  fails_checkAll_iff fun c hc => by
    rw [hnames c hc]
    exact nofun

theorem clean_map {x : Except DbError α} {f : α → β} : Clean (x.map f) ↔ Clean x := by
  cases x with
  | ok a => exact iff_of_true (fails_ok _) (fails_ok _)
  | error e => exact ⟨fun h e' he => h e' (by rw [Except.error.inj he]; rfl),
      fun h e' he => h e' (by rw [Except.error.inj he])⟩

end

section

variable [Server] {v : Invocation} {c : Center}

theorem authorize_clean {name missing : String} {requestId : Option Uuid} {a : Actor}
    (hmissing : name ++ missing ∉ triggerErrors) (hforbidden : name ++ "_actor_forbidden" ∉ triggerErrors) :
    Clean (authorize name requestId missing a) := by
  refine fails_bind (fails_orRaise fun _ => by simpa [breaks] using hmissing) fun _ _ => ?_
  refine fails_bind (fails_raiseIf fun _ => by simpa [breaks] using hforbidden) fun _ _ => ?_
  exact fails_pure _

/-- The audit log has constraints of its own. -/
theorem appendAudit_clean {requestId : Uuid} {a : Actor} {action targetType publicId : String}
    {fields : List (String × Jsonb)} :
    Clean (c.appendAudit v requestId a action targetType publicId fields) := by
  refine fails_bind (fails_bind ?_ fun columns _ => fails_bind ?_ fun _ _ => ?_) fun _ _ => fails_pure _
  · unfold Audit.Entry.validate
    refine fails_bind (fails_orRaise fun _ => by decide) fun _ _ => ?_
    refine fails_bind (fails_orRaise fun _ => by decide) fun _ _ => ?_
    refine fails_bind (fails_orRaise fun _ => by decide) fun _ _ => ?_
    refine fails_bind (fails_orRaise fun _ => by decide) fun _ _ => ?_
    refine fails_bind (fails_orRaise fun _ => by decide) fun _ _ => ?_
    exact fails_pure _
  · refine fails_checkAll_of_names fun check hcheck => ?_
    have hnames : ∀ name ∈ auditConstraints, breaks (.checkViolation name) = false := by decide
    have hfst : (c.audit.newRow columns).checks.map Prod.fst = auditConstraints.take 9 := rfl
    have hmem := List.mem_map_of_mem (f := Prod.fst) hcheck
    rw [hfst] at hmem
    exact hnames check.1 (List.mem_of_mem_take hmem)
  · refine fails_bind (fails_raiseIf fun _ => by decide) fun _ _ => ?_
    refine fails_bind (fails_raiseIf fun _ => by decide) fun _ _ => ?_
    exact fails_pure _

/-! ## Announcing -/

omit [Server] in
/-- What is announced for the first time is stored. -/
theorem notify_commits_of_fresh (hc : c.Told) {o : Occasion} (ho : o.Named)
    (hnot : ¬ o.Occurred c.toStore) {title message severity : String} {occurredAt : Timestamptz}
    (htitle : titleOk title = true) (hmessage : bodyOk 4000 message = true)
    (hseverity : (statusSeverity? severity).isSome = true) {s : Store} :
    ∃ c', Center.notify v { c with toStore := s }
      (o.params title message severity occurredAt) = .ok c' := by
  obtain ⟨content, hcontent⟩ := Occasion.content?_params ho htitle hmessage hseverity
  exact Center.notify_commits hcontent (hc.fresh ho hnot)

omit [Server] in
theorem bodyOk_mono {lo hi : ℕ} {s : String} (h : bodyOk lo s = true) (hle : lo ≤ hi) :
    bodyOk hi s = true := by
  simp only [bodyOk, Text.lengthBetween, Bool.and_eq_true, decide_eq_true_eq] at h ⊢
  exact ⟨⟨h.1.1, h.1.2.trans hle⟩, h.2⟩

omit [Server] in
/-- **An update of an incident is stored and announced** if it passes its constraints. -/
theorem insertUpdate_commits {s : Store} {i : Incident} {u : IncidentUpdate} (hc : c.Told)
    (hi : s.incidentById? u.incidentId = some i) (hstate : i.publicationState = .published)
    (hchecked : Checked i.checks) (hrequest : ∀ w ∈ s.updates, w.requestId ≠ u.requestId)
    (hnot : ¬ (i.occasion u (!(s.updates ++ [u]).any fun w =>
      w.incidentId = u.incidentId && w.id ≠ u.id)).Occurred c.toStore)
    (hu : Checked u.checks) :
    Commits (Center.insertUpdate v u { c with toStore := s }) := by
  have hmessage : bodyOk 2000 u.message = true := (List.forall_mem_cons.1 hu).1
  have hany : s.updates.any (·.requestId = u.requestId) = false := any_key_eq_false.2 hrequest
  have hfound : (s.incidentById? u.incidentId).filter (·.publicationState = .published) = some i := by
    rw [hi, Option.filter_some, if_pos (decide_eq_true hstate)]
  have hseverity : (statusSeverity? i.impact.severity).isSome = true := by
    cases i.impact <;> decide
  have htitle : titleOk i.title = true := by
    simp only [Incident.checks, checked_cons] at hchecked
    exact hchecked.2.2.2.2.2.2.2.1
  unfold Center.insertUpdate
  refine (commits_bind (a := ()) (checkAll_eq_ok.2 hu)).2 ?_
  refine (commits_bind (a := ()) (raiseIf_eq_ok.2 hany)).2 ?_
  unfold Center.incidentNotificationEventTrigger
  refine (commits_bind (orRaise_eq_ok.2 hfound)).2 ?_
  dsimp only
  rw [Incident.event_eq]
  exact notify_commits_of_fresh (v := v) hc (Incident.occasion_named hchecked u _)
    hnot htitle (bodyOk_mono hmessage (by decide)) hseverity

omit [Server] in
theorem insertUpdate_checked {u : IncidentUpdate} (h : Clean (c.insertUpdate v u)) :
    Checked u.checks := by
  have hnames : ∀ check ∈ u.checks, breaks (.checkViolation check.1) = true := by
    simp [IncidentUpdate.checks, breaks, auditConstraints]
  exact (clean_checkAll hnames).1 (clean_bind_iff.1 h).1

/-! ## Publishing and updating an incident -/

omit [Server] in
theorem updateIncident_clean {i : Incident} : Clean (c.updateIncident i) ↔ Checked i.checks := by
  unfold Center.updateIncident
  rw [clean_bind_iff, clean_checkAll (by simp [Incident.checks, breaks, auditConstraints])]
  exact and_iff_left_of_imp fun _ _ _ => fails_pure _

omit [Server] in
/-- A draft that is published passes its constraints if it was created before. -/
theorem publish_checked {i : Incident} (hi : Checked i.checks) :
    Checked (i.publish v).checks ↔ i.createdAt ≤ v.sampledAt := by
  simp only [Incident.checks, checked_cons] at hi ⊢
  obtain ⟨hid, -, -, hresolution, hservices, hsummary, -, htitle, hnil⟩ := hi
  constructor
  · rintro ⟨-, -, -, -, -, -, htime, -⟩
    exact of_decide_eq_true htime
  · intro htime
    exact ⟨hid, rfl, rfl, hresolution, hservices, hsummary, decide_eq_true htime, htitle, hnil⟩

omit [Server] in
/-- An update brings an incident forward if the incident was created before and, when it is
resolved, has started. -/
theorem advance_checked {i : Incident} {status : Lifecycle} {message : String}
    (hi : Checked i.checks) (hmessage : bodyOk 2000 message = true) :
    Checked (i.advance v status message).checks ↔
      i.createdAt ≤ v.sampledAt ∧ (status = .resolved → i.startedAt ≤ v.now) := by
  simp only [Incident.checks, checked_cons] at hi ⊢
  obtain ⟨hid, hpublication, htimes, -, hservices, -, -, htitle, hnil⟩ := hi
  have hresolution : (if status = .resolved then
      (if status = .resolved then some v.sampledAt else none : Option ℤ).any fun t =>
        i.startedAt ≤ .ofInstant t
      else (if status = .resolved then some v.sampledAt else none : Option ℤ).isNone) = true ↔
        (status = .resolved → i.startedAt ≤ v.now) := by
    by_cases hresolved : status = .resolved
    · simp [hresolved, Invocation.now]
    · simp [hresolved]
  constructor
  · rintro ⟨-, -, -, hresolved, -, -, htime, -⟩
    exact ⟨of_decide_eq_true htime, hresolution.1 hresolved⟩
  · rintro ⟨htime, hresolved⟩
    exact ⟨hid, hpublication, htimes, hresolution.2 hresolved, hservices, hmessage,
      decide_eq_true htime, htitle, hnil⟩

omit [Server] in
/-- An update passes its constraints if the transaction has begun at most five minutes before. -/
theorem newUpdate_checked {s : Store} {i : Incident} {status : Lifecycle} {message : String}
    {requestId : Uuid} (hmessage : bodyOk 2000 message = true) :
    Checked (s.newUpdate v i status message requestId).checks ↔
      v.sampledAt ≤ v.begunAt + fiveMinutes := by
  simp only [IncidentUpdate.checks, checked_cons]
  constructor
  · rintro ⟨-, htime, -⟩
    exact of_decide_eq_true htime
  · intro htime
    exact ⟨hmessage, decide_eq_true htime, fun _ h => absurd h List.not_mem_nil⟩

/-- **Publishing a draft** fails only when the clock is before its creation or too long after the
beginning of the transaction. -/
theorem publishDraft_clean (hc : c.Consistent) {i : Incident} {requestId : Uuid} {a : Actor}
    (hi : i ∈ c.incidents) (hdraft : i.publicationState = .draft)
    (hrequest : ∀ w ∈ c.updates, w.requestId ≠ requestId) :
    Clean (i.publishDraft v requestId a c) ↔
      i.createdAt ≤ v.sampledAt ∧ v.sampledAt ≤ v.begunAt + fiveMinutes := by
  have hchecked := hc.sound.incidentsChecked i hi
  have hsummary : bodyOk 2000 i.summary = true := by
    simp only [Incident.checks, checked_cons] at hchecked
    exact hchecked.2.2.2.2.2.1
  unfold Incident.publishDraft
  rw [clean_bind_iff, updateIncident_clean, publish_checked hchecked]
  refine and_congr_right fun hcreated => ?_
  have hpublished : Checked (i.publish v).checks := (publish_checked hchecked).2 hcreated
  set s : Store := { c.toStore with
    incidents := updateWhere (·.id = i.id) (fun _ => i.publish v) c.incidents } with hs
  have hupdate : c.updateIncident (i.publish v) = .ok { c with toStore := s } :=
    bind_eq_ok.2 ⟨(), checkAll_eq_ok.2 hpublished, rfl⟩
  have hfound : s.incidentById? i.id = some (i.publish v) := by
    have hunique : incidentKeys.Unique s.incidents :=
      hc.sound.incidents.replace hi (Incident.same_of_fixed rfl)
    have hmem : i.publish v ∈ s.incidents :=
      mem_updateWhere.2 ⟨i, hi, if_pos (decide_eq_true rfl)⟩
    exact hunique.id.find?_eq hmem
  have hnot : ∀ initial, ¬ ((i.publish v).occasion
      (s.newUpdate v (i.publish v) i.lifecycleStatus i.summary requestId) initial).Occurred
        c.toStore := by
    intro initial
    unfold Incident.occasion
    split
    · rintro ⟨k, hk, hpublicId, hstate⟩
      obtain rfl := hc.sound.incidents.publicId.eq hk hi hpublicId
      exact hstate hdraft
    · split
      next hresolved => exact absurd hresolved (hc.begun.drafts i hi hdraft)
      next =>
        rintro ⟨w, hw, hwrequest⟩
        exact hrequest w hw hwrequest
  have hupdateChecked :
      Checked (s.newUpdate v (i.publish v) i.lifecycleStatus i.summary requestId).checks ↔ _ :=
    newUpdate_checked hsummary
  rw [← hupdateChecked]
  constructor
  · intro h
    exact insertUpdate_checked (clean_bind_iff.1 (h _ hupdate)).1
  · intro h c₁ hc₁
    obtain rfl := Except.ok.inj (hupdate.symm.trans hc₁)
    obtain ⟨c₂, hc₂⟩ :=
      insertUpdate_commits (v := v) hc.told hfound rfl hpublished hrequest (hnot _) h
    exact (clean_bind hc₂).2 (clean_bind_iff.2 ⟨appendAudit_clean, fun _ _ => fails_pure _⟩)

/-- What the function itself asks of an incident that is updated. -/
structure UpdateDraft.Allowed (d : UpdateDraft) (i : Incident) : Prop where
  published : i.publicationState = .published
  unresolved : i.lifecycleStatus ≠ .resolved
  forward : (isIn d.lifecycleStatus i.lifecycleStatus.successors).not.holds = false

/-- **Updating an incident** fails only when no status is given, when the clock is before its
creation, before the start of an incident that is resolved, or too long after the beginning of the
transaction. -/
theorem append_clean (hc : c.Consistent) {d : UpdateDraft} {i : Incident} {a : Actor}
    (hi : i ∈ c.incidents) (hallowed : d.Allowed i) (hmessage : bodyOk 2000 d.message = true)
    (hrequest : ∀ w ∈ c.updates, w.requestId ≠ d.requestId) :
    Clean (d.append v a i c) ↔ ∃ status ∈ d.lifecycleStatus, i.createdAt ≤ v.sampledAt ∧
      v.sampledAt ≤ v.begunAt + fiveMinutes ∧ (status = .resolved → i.startedAt ≤ v.now) := by
  have hchecked := hc.sound.incidentsChecked i hi
  obtain ⟨hpublished, hunresolved, hforward⟩ := hallowed
  unfold UpdateDraft.append
  rw [clean_bind (a := ()) (raiseIf_eq_ok.2 (by simp [hpublished])),
    clean_bind (a := ()) (raiseIf_eq_ok.2 (by simp [hunresolved])),
    clean_bind (a := ()) (raiseIf_eq_ok.2 hforward)]
  cases hstatus : d.lifecycleStatus with
  | none =>
    refine iff_of_false (fun h => ?_) (by simp)
    exact absurd (h (.notNullViolation "lifecycle_status") rfl) nofun
  | some status =>
    rw [clean_bind (a := status) (orRaise_eq_ok.2 rfl)]
    set u := c.newUpdate v i status d.message d.requestId with hu
    have hfound : c.incidentById? i.id = some i := hc.sound.incidents.id.find?_eq hi
    have hinitial : (!(c.updates ++ [u]).any fun w =>
        w.incidentId = u.incidentId && w.id ≠ u.id) = false := by
      obtain ⟨w, hw, hwi⟩ := hc.begun.first i hi (by rw [hpublished]; exact nofun)
      have hwid : w.id ≠ u.id := (hc.begun.ids w hw).ne
      rw [Bool.not_eq_false', List.any_eq_true]
      refine ⟨w, List.mem_append_left _ hw, ?_⟩
      rw [Bool.and_eq_true]
      exact ⟨decide_eq_true hwi, decide_eq_true hwid⟩
    have hnot : ¬ (i.occasion u (!(c.updates ++ [u]).any fun w =>
        w.incidentId = u.incidentId && w.id ≠ u.id)).Occurred c.toStore := by
      rw [hinitial, Incident.occasion, if_neg (by decide)]
      split
      next =>
        rintro ⟨k, hk, hpublicId, hresolved⟩
        obtain rfl := hc.sound.incidents.publicId.eq hk hi hpublicId
        exact hunresolved hresolved
      next =>
        rintro ⟨w, hw, hwrequest⟩
        exact hrequest w hw hwrequest
    have hupdate : Checked u.checks ↔ v.sampledAt ≤ v.begunAt + fiveMinutes :=
      newUpdate_checked hmessage
    have hadvance : Checked (i.advance v status d.message).checks ↔
        i.createdAt ≤ v.sampledAt ∧ (status = .resolved → i.startedAt ≤ v.now) :=
      advance_checked hchecked hmessage
    constructor
    · intro h
      obtain ⟨hinsert, hrest⟩ := clean_bind_iff.1 h
      have hu := insertUpdate_checked hinsert
      obtain ⟨c₁, hc₁⟩ := insertUpdate_commits (v := v) hc.told hfound hpublished hchecked hrequest
        hnot hu
      have hafter := updateIncident_clean.1 (clean_bind_iff.1 (hrest c₁ hc₁)).1
      exact ⟨status, rfl, (hadvance.1 hafter).1, hupdate.1 hu, (hadvance.1 hafter).2⟩
    · rintro ⟨status', hstatus', hcreated, htransaction, hresolved⟩
      obtain rfl := Option.mem_some_iff.1 hstatus'
      obtain ⟨c₁, hc₁⟩ := insertUpdate_commits (v := v) hc.told hfound hpublished hchecked hrequest
        hnot (hupdate.2 htransaction)
      refine (clean_bind hc₁).2 (clean_bind_iff.2 ⟨?_, fun c₂ _ => ?_⟩)
      · exact updateIncident_clean.2 (hadvance.2 ⟨hcreated, hresolved⟩)
      · exact clean_bind_iff.2 ⟨appendAudit_clean, fun _ _ => fails_pure _⟩

end

end IvrmDashboard.StatusCenter
