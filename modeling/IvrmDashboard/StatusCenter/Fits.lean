import IvrmDashboard.StatusCenter.Constraints
import IvrmDashboard.StatusCenter.Replay

/-!
# When a call stays within the constraints

Every call that passes the checks of its function fits the tables, but for three kinds of slips. A
`NULL` passes the checks on names and is stopped by the column. A row is updated at a time before its
creation, or an incident is resolved before its start, which may lie five minutes ahead when it is
created. And an update of an incident that had to wait is told too long after its transaction began.
-/

namespace IvrmDashboard.StatusCenter

open Sql Notifications

/-! ## The condition -/

/-- No row has an id that is drawn. -/
def Keys.Drawn {ρ : Type} (k : Keys ρ) (v : Invocation) (source : StatusSource) (rows : List ρ) :
    Prop :=
  ∀ r ∈ rows, k.id r ≠ v.newId ∧ k.publicId r ≠ v.newPublicId source

/-- A row that is written was created before. -/
def Mutation.Fits [Server] {ρ : Type} (m : Mutation ρ) (createdAt : ρ → ℤ) (p : MutationParams)
    (v : Invocation) (s : Store) : Prop :=
  ∀ requestId publicId r, p.validate m.table.name m.table.source = .ok (requestId, publicId) →
    (m.table.rows s).find? (m.table.publicId · = publicId) = some r →
      (m.table.requests s).find? (·.requestId = requestId) = none →
        m.refuse v r = .ok () → m.settled r = false → Commits (m.write v r) →
          createdAt r ≤ v.sampledAt

/-- The arguments with some kind. -/
def AnnouncementParams.withKind (p : AnnouncementParams) : AnnouncementParams :=
  { p with kind := some (p.kind.getD "info") }

/-- If the checks of the function pass, the clock and the names that are drawn fit the tables. -/
def Request.Fits [Server] (v : Invocation) (s : Store) : Request → Prop
  | createIncident p =>
    ∀ d, p.validate v.sampledAt = .ok d →
      s.incidents.find? (·.createRequestId = d.key) = none →
        d.impact.isSome = true ∧ incidentKeys.Drawn v .incident s.incidents
  | publishIncident p =>
    ∀ requestId publicId i, p.validate "status_incident" .incident = .ok (requestId, publicId) →
      s.incident? publicId = some i → s.update? requestId = none →
        i.publicationState = .draft →
          i.createdAt ≤ v.sampledAt ∧ v.sampledAt ≤ v.begunAt + fiveMinutes
  | appendIncidentUpdate p =>
    ∀ d i, p.validate = .ok d → s.update? d.requestId = none →
      s.incident? d.publicId = some i → d.Allowed i →
        ∃ status ∈ d.lifecycleStatus, i.createdAt ≤ v.sampledAt ∧
          v.sampledAt ≤ v.begunAt + fiveMinutes ∧ (status = .resolved → i.startedAt ≤ v.now)
  | createMaintenance p =>
    ∀ key, authorize "status_maintenance" p.idempotencyKey "_idempotency_required" p.actor =
        .ok key →
      s.notices.find? (·.createRequestId = key) = none → Commits (p.row v key) →
        maintenanceTable.keys.Drawn v .maintenance s.notices
  | publishMaintenance p =>
    StatusCenter.publishMaintenance.Fits MaintenanceNotice.createdAt p v s
  | cancelMaintenance p => StatusCenter.cancelMaintenance.Fits MaintenanceNotice.createdAt p v s
  | createAnnouncement p =>
    ∀ key, authorize "status_announcement" p.idempotencyKey "_idempotency_required" p.actor =
        .ok key →
      s.announcements.find? (·.createRequestId = key) = none → Commits (p.withKind.row v key) →
        p.kind.isSome = true ∧ announcementTable.keys.Drawn v .announcement s.announcements
  | publishAnnouncement p => StatusCenter.publishAnnouncement.Fits Announcement.createdAt p v s
  | archiveAnnouncement p => StatusCenter.archiveAnnouncement.Fits Announcement.createdAt p v s

/-! ## New rows -/

section

variable {v : Invocation}

theorem newPublicId_ok (v : Invocation) (source : StatusSource) :
    source.publicIdOk (v.newPublicId source) = true := by
  have hprefix : source.idPrefix.toList.length = 4 := by cases source <;> rfl
  have hlength : (v.newPublicId source).length = 16 := by
    rw [Invocation.newPublicId, String.length_ofList, List.length_append, List.length_map,
      List.length_take, Uuid.length_digits, hprefix]
    rfl
  simp only [StatusSource.publicIdOk, Bool.and_eq_true, decide_eq_true_eq]
  refine ⟨⟨hlength, ?_⟩, ?_⟩
  · rw [Invocation.newPublicId, String.toList_ofList, List.isPrefixOf_iff_prefix]
    exact List.prefix_append _ _
  · rw [Invocation.newPublicId, String.toList_ofList, List.drop_left' hprefix, List.all_eq_true]
    intro c hc
    obtain ⟨d, hd, rfl⟩ := List.mem_map.1 hc
    exact Text.upperHex_of_hexDigit (Text.hexDigit_of_mem_fixedDigits (List.mem_of_mem_take hd))

/-- What is trimmed passes the test on trimmed texts. -/
theorem trimmed_ok {lo hi : ℕ} {p : Option String} {s : String}
    (h : trimmedWithin lo hi p = some s) :
    (Text.lengthBetween lo hi s && s == Text.btrim s) = true := by
  obtain ⟨hs, hlength⟩ := Option.filter_eq_some_iff.1 h
  obtain ⟨t, -, rfl⟩ := Option.map_eq_some_iff.1 hs
  rw [Bool.and_eq_true, beq_iff_eq]
  exact ⟨hlength, (Text.btrim_btrim t).symm⟩

theorem IncidentDraft.row_checked [Server] {p : IncidentParams} {now : ℤ} {d : IncidentDraft}
    (h : p.validate now = .ok d) (impact : Impact) : Checked (d.row v impact).checks := by
  simp only [IncidentParams.validate, bind_eq_ok, orRaise_eq_ok, pure_eq_ok] at h
  obtain ⟨_, -, title, htitle, _, -, services, hservices, startedAt, hstarted, summary, hsummary,
    rfl⟩ := h
  simp only [Incident.checks, checked_cons]
  exact ⟨newPublicId_ok v _, rfl, rfl, rfl, (Option.filter_eq_some_iff.1 hservices).2,
    trimmed_ok hsummary, decide_eq_true le_rfl, trimmed_ok htitle,
    fun _ h => absurd h List.not_mem_nil⟩

theorem MaintenanceParams.row_checked {p : MaintenanceParams} {key : Uuid} {m : MaintenanceNotice}
    (h : p.row v key = .ok m) :
    Checked m.checks ∧ m.id = v.newId ∧ m.publicId = v.newPublicId .maintenance := by
  simp only [row, bind_eq_ok, orRaise_eq_ok, raiseIf_eq_ok, pure_eq_ok] at h
  obtain ⟨title, htitle, body, hbody, services, hservices, ⟨startsAt, endsAt⟩, hschedule, _, -,
    rfl⟩ := h
  have htimes : startsAt < endsAt ∧ endsAt ≤ startsAt.add fourteenDays := by
    unfold schedule? at hschedule
    split at hschedule
    next s e _ _ =>
      split at hschedule
      next hok =>
        simp only [Bool.and_eq_true, decide_eq_true_eq] at hok
        obtain ⟨rfl, rfl⟩ := Prod.mk.inj (Option.some.inj hschedule)
        exact hok.1
      next => cases hschedule
    next => cases hschedule
  refine ⟨?_, rfl, rfl⟩
  simp only [MaintenanceNotice.checks, checked_cons, Bool.and_eq_true, decide_eq_true_eq]
  exact ⟨trimmed_ok hbody, rfl, newPublicId_ok v _, by decide, ⟨rfl, rfl⟩,
    (Option.filter_eq_some_iff.1 hservices).2, ⟨htimes, le_rfl⟩, trimmed_ok htitle,
    fun _ h => absurd h List.not_mem_nil⟩

theorem AnnouncementParams.row_checked {p : AnnouncementParams} {key : Uuid} {a : Announcement}
    (h : p.row v key = .ok a) :
    Checked a.checks ∧ a.id = v.newId ∧ a.publicId = v.newPublicId .announcement := by
  simp only [row, bind_eq_ok, orRaise_eq_ok, raiseIf_eq_ok, pure_eq_ok] at h
  obtain ⟨_, -, title, htitle, body, hbody, _, hservices, publishAt, -, _, hexpires, kind, -,
    rfl⟩ := h
  have hexpiry : p.expiresAt.all (publishAt < ·) = true := by
    cases hsome : p.expiresAt with
    | none => rfl
    | some e =>
      rw [hsome, Option.any_some, Bool.or_eq_false_iff] at hexpires
      rw [Option.all_some]
      exact decide_eq_true (not_le.1 (of_decide_eq_false hexpires.1))
  refine ⟨?_, rfl, rfl⟩
  simp only [Announcement.checks, checked_cons, Bool.and_eq_true, decide_eq_true_eq]
  exact ⟨trimmed_ok hbody, hexpiry, newPublicId_ok v _, by decide, ⟨rfl, rfl⟩,
    by simpa using hservices, trimmed_ok htitle, le_rfl,
    fun _ h => absurd h List.not_mem_nil⟩

/-! ## Creating -/

variable [Server] {c : Center}

omit [Server] in
theorem named_clean {α : Type} {ofText? : String → Option α} {e : DbError} {p : Option String}
    (he : breaks e = false) : Clean (named ofText? e p) := by
  cases p with
  | none => exact fails_ok _
  | some s => exact clean_map.2 (fails_orRaise fun _ => he)

omit [Server] in
theorem trimmed_clean {lo hi : ℕ} {p : Option String} {e : DbError} (he : breaks e = false) :
    Clean (orRaise (trimmedWithin lo hi p) e) :=
  fails_orRaise fun _ => he

theorem IncidentParams.validate_clean {p : IncidentParams} {now : ℤ} : Clean (p.validate now) := by
  refine fails_bind (authorize_clean (by decide) (by decide)) fun _ _ => ?_
  refine fails_bind (trimmed_clean (by decide)) fun _ _ => ?_
  refine fails_bind (named_clean (by decide)) fun _ _ => ?_
  refine fails_bind (fails_orRaise fun _ => by decide) fun _ _ => ?_
  refine fails_bind (fails_orRaise fun _ => by decide) fun _ _ => ?_
  refine fails_bind (trimmed_clean (by decide)) fun _ _ => ?_
  exact fails_pure _

theorem UpdateParams.validate_clean {p : UpdateParams} : Clean p.validate := by
  refine fails_bind (authorize_clean (by decide) (by decide)) fun _ _ => ?_
  refine fails_bind (fails_orRaise fun _ => by decide) fun _ _ => ?_
  refine fails_bind (named_clean (by decide)) fun _ _ => ?_
  refine fails_bind (trimmed_clean (by decide)) fun _ _ => ?_
  exact fails_pure _

omit [Server] in
theorem clean_raiseIf {b : Bool} {e : DbError} (he : breaks e = true) :
    Clean (raiseIf b e) ↔ b = false := by
  rw [Clean, fails_raiseIf_iff, he]
  cases b with
  | false => exact iff_of_true (fun h => absurd h nofun) rfl
  | true => exact iff_of_false (fun h => absurd (h rfl) nofun) nofun

omit [Server] in
/-- The ids of a new row have to be new. -/
theorem insert_clean {ρ β : Type} {k : Keys ρ} {rows : List ρ} {r : ρ}
    {checks : List (String × Bool)} {pkey publicIdKey : String} {x : β} (hchecked : Checked checks)
    (hpkey : breaks (.uniqueViolation pkey) = true)
    (hkey : breaks (.uniqueViolation publicIdKey) = true) :
    Clean (do
      checkAll checks
      raiseIf (rows.any (k.id · = k.id r)) (.uniqueViolation pkey)
      raiseIf (rows.any (k.publicId · = k.publicId r)) (.uniqueViolation publicIdKey)
      return x) ↔ ∀ y ∈ rows, k.id y ≠ k.id r ∧ k.publicId y ≠ k.publicId r := by
  rw [clean_bind (a := ()) (checkAll_eq_ok.2 hchecked)]
  constructor
  · intro h
    obtain ⟨hid, hrest⟩ := clean_bind_iff.1 h
    have hid := (clean_raiseIf hpkey).1 hid
    have hpublicId := (clean_bind_iff.1 (hrest () (raiseIf_eq_ok.2 hid))).1
    have hpublicId := (clean_raiseIf hkey).1 hpublicId
    exact fun y hy => ⟨any_key_eq_false.1 hid y hy, any_key_eq_false.1 hpublicId y hy⟩
  · intro h
    rw [clean_bind (a := ()) (raiseIf_eq_ok.2 (any_key_eq_false.2 fun y hy => (h y hy).1)),
      clean_bind (a := ()) (raiseIf_eq_ok.2 (any_key_eq_false.2 fun y hy => (h y hy).2))]
    exact fails_pure _

/-- A new incident fits if its ids are new. -/
theorem IncidentDraft.create_clean {p : IncidentParams} {d : IncidentDraft} {a : Actor}
    (hd : p.validate v.sampledAt = .ok d) : Clean (d.create v a c) ↔
      d.impact.isSome = true ∧ incidentKeys.Drawn v .incident c.incidents := by
  unfold IncidentDraft.create
  cases himpact : d.impact with
  | none =>
    refine iff_of_false (fun h => ?_) (fun h => nomatch h.1)
    exact absurd (h (.notNullViolation "impact") rfl) nofun
  | some impact =>
    have hchecked := row_checked (v := v) hd impact
    have hinsert : Clean (c.insertIncident (d.row v impact)) ↔
        incidentKeys.Drawn v .incident c.incidents :=
      insert_clean (k := incidentKeys) (r := d.row v impact) hchecked (by decide) (by decide)
    rw [clean_bind (a := impact) (orRaise_eq_ok.2 rfl), Option.isSome_some,
      and_iff_right (rfl : true = true), clean_bind_iff, hinsert]
    exact and_iff_left_of_imp fun _ _ _ => fails_bind appendAudit_clean fun _ _ => fails_pure _

theorem createStatusIncident_clean {p : IncidentParams} :
    Clean (createStatusIncident v p c) ↔ (Request.createIncident p).Fits v c.toStore := by
  unfold createStatusIncident
  rw [clean_bind_iff, and_iff_right IncidentParams.validate_clean]
  refine forall_congr' fun d => imp_congr_right fun hd => ?_
  cases hfind : c.incidents.find? (·.createRequestId = d.key) with
  | some i =>
    refine iff_of_true ?_ (fun h => nomatch h)
    exact fails_bind (fails_raiseIf fun _ => by decide) fun _ _ => fails_pure _
  | none => exact (IncidentDraft.create_clean hd).trans (imp_iff_right rfl).symm

/-! ## Creating a notice or an announcement -/

omit [Server] in
theorem Table.createOnce_clean {ρ : Type} {t : Table ρ} {key : Uuid} {agrees : ρ → Bool}
    {create : Except DbError (ρ × Center)}
    (hconflict : breaks (.raised (t.name ++ "_idempotency_conflict") "23505") = false) :
    Clean (t.createOnce key agrees create c) ↔
      ((t.rows c.toStore).find? (t.createRequestId · = key) = none → Clean create) := by
  unfold createOnce
  cases hfind : (t.rows c.toStore).find? (t.createRequestId · = key) with
  | some r =>
    refine iff_of_true ?_ (fun h => nomatch h)
    exact fails_bind (fails_raiseIf fun _ => hconflict) fun _ _ => fails_pure _
  | none => exact (imp_iff_right rfl).symm

omit [Server] in
theorem MaintenanceParams.row_clean {p : MaintenanceParams} {key : Uuid} : Clean (p.row v key) := by
  refine fails_bind (trimmed_clean (by decide)) fun _ _ => ?_
  refine fails_bind (trimmed_clean (by decide)) fun _ _ => ?_
  refine fails_bind (fails_orRaise fun _ => by decide) fun _ _ => ?_
  refine fails_bind (fails_orRaise fun _ => by decide) fun _ _ => ?_
  refine fails_bind (fails_raiseIf fun _ => by decide) fun _ _ => ?_
  exact fails_pure _

theorem createStatusMaintenance_clean {p : MaintenanceParams} :
    Clean (createStatusMaintenance v p c) ↔ (Request.createMaintenance p).Fits v c.toStore := by
  unfold createStatusMaintenance
  rw [clean_bind_iff, and_iff_right (authorize_clean (by decide) (by decide))]
  refine forall_congr' fun key => imp_congr_right fun _ => ?_
  rw [Table.createOnce_clean (by decide)]
  refine imp_congr_right fun _ => ?_
  unfold MaintenanceParams.create
  rw [clean_bind_iff, and_iff_right MaintenanceParams.row_clean]
  have hinsert : ∀ m, p.row v key = .ok m → (Clean (maintenanceTable.insert m c) ↔
      maintenanceTable.keys.Drawn v .maintenance c.notices) := by
    intro m hm
    obtain ⟨hchecked, hid, hpublicId⟩ := MaintenanceParams.row_checked hm
    rw [Keys.Drawn, ← hid, ← hpublicId]
    exact insert_clean (k := maintenanceTable.keys) (r := m) hchecked (by decide) (by decide)
  constructor
  · rintro h ⟨m, hm⟩
    exact (hinsert m hm).1 (clean_bind_iff.1 (h m hm)).1
  · intro h m hm
    refine clean_bind_iff.2 ⟨(hinsert m hm).2 (h ⟨m, hm⟩), fun _ _ => ?_⟩
    exact fails_bind appendAudit_clean fun _ _ => fails_pure _

omit [Server] in
theorem AnnouncementParams.row_withKind {p : AnnouncementParams} (h : p.kind.isSome = true) :
    p.withKind = p := by
  obtain ⟨kind, hkind⟩ := Option.isSome_iff_exists.1 h
  cases p
  cases hkind
  rfl

omit [Server] in
/-- A row fails in the column of its kind if nothing else is wrong. -/
theorem AnnouncementParams.row_clean {p : AnnouncementParams} {key : Uuid} :
    Clean (p.row v key) ↔ (Commits (p.withKind.row v key) → p.kind.isSome = true) := by
  constructor
  · rintro h ⟨a, ha⟩
    cases hkind : p.kind with
    | some kind => rfl
    | none =>
      refine absurd (h (.notNullViolation "kind") ?_) (by decide)
      simp only [row, bind_eq_ok, orRaise_eq_ok, raiseIf_eq_ok, pure_eq_ok] at ha
      obtain ⟨_, -, title, htitle, body, hbody, _, hservices, publishAt, hpublish, _, hexpires, -⟩ :=
        ha
      simp only [row, hkind, named]
      refine bind_eq_error.2 (.inr ⟨none, rfl, ?_⟩)
      refine bind_eq_error.2 (.inr ⟨title, orRaise_eq_ok.2 htitle, ?_⟩)
      refine bind_eq_error.2 (.inr ⟨body, orRaise_eq_ok.2 hbody, ?_⟩)
      refine bind_eq_error.2 (.inr ⟨(), raiseIf_eq_ok.2 hservices, ?_⟩)
      refine bind_eq_error.2 (.inr ⟨publishAt, orRaise_eq_ok.2 hpublish, ?_⟩)
      exact bind_eq_error.2 (.inr ⟨(), raiseIf_eq_ok.2 hexpires, rfl⟩)
  · intro h
    refine fails_bind (named_clean (by decide)) fun kind hkind => ?_
    refine fails_bind (trimmed_clean (by decide)) fun title htitle => ?_
    refine fails_bind (trimmed_clean (by decide)) fun body hbody => ?_
    refine fails_bind (fails_raiseIf fun _ => by decide) fun _ hservices => ?_
    refine fails_bind (fails_orRaise fun _ => by decide) fun publishAt hpublish => ?_
    refine fails_bind (fails_raiseIf fun _ => by decide) fun _ hexpires => ?_
    refine fails_bind (fails_orRaise fun hnone => ?_) fun _ _ => fails_pure _
    have hmissing : p.kind = none := by
      cases hp : p.kind with
      | none => rfl
      | some s =>
        rw [hp, hnone] at hkind
        obtain ⟨_, -, hsome⟩ := map_eq_ok.1 hkind
        cases hsome
    refine absurd (h ?_) (by rw [hmissing]; exact Bool.false_ne_true)
    have hname : named AnnouncementKind.ofText? (.raised "status_announcement_kind_invalid" "22023")
        p.withKind.kind = .ok (some .info) := by
      rw [withKind, hmissing]
      rfl
    refine ⟨_, bind_eq_ok.2 ⟨_, hname, bind_eq_ok.2 ⟨_, htitle, bind_eq_ok.2 ⟨_, hbody,
      bind_eq_ok.2 ⟨_, hservices, bind_eq_ok.2 ⟨_, hpublish, bind_eq_ok.2 ⟨_, hexpires,
        bind_eq_ok.2 ⟨_, rfl, rfl⟩⟩⟩⟩⟩⟩⟩⟩

theorem createStatusAnnouncement_clean {p : AnnouncementParams} :
    Clean (createStatusAnnouncement v p c) ↔ (Request.createAnnouncement p).Fits v c.toStore := by
  unfold createStatusAnnouncement
  rw [clean_bind_iff, and_iff_right (authorize_clean (by decide) (by decide))]
  refine forall_congr' fun key => imp_congr_right fun _ => ?_
  rw [Table.createOnce_clean (by decide)]
  refine imp_congr_right fun _ => ?_
  unfold AnnouncementParams.create
  rw [clean_bind_iff, AnnouncementParams.row_clean]
  have hinsert : ∀ a, p.row v key = .ok a → (Clean (announcementTable.insert a c) ↔
      announcementTable.keys.Drawn v .announcement c.announcements) := by
    intro a ha
    obtain ⟨hchecked, hid, hpublicId⟩ := AnnouncementParams.row_checked ha
    rw [Keys.Drawn, ← hid, ← hpublicId]
    exact insert_clean (k := announcementTable.keys) (r := a) hchecked (by decide) (by decide)
  constructor
  · rintro ⟨hkind, h⟩ hrow
    refine ⟨hkind hrow, ?_⟩
    rw [AnnouncementParams.row_withKind (hkind hrow)] at hrow
    obtain ⟨a, ha⟩ := hrow
    exact (hinsert a ha).1 (clean_bind_iff.1 (h a ha)).1
  · intro h
    refine ⟨fun hrow => (h hrow).1, fun a ha => ?_⟩
    have hkind : p.kind.isSome = true := by
      cases hp : p.kind with
      | some kind => rfl
      | none =>
        simp only [AnnouncementParams.row, hp, named, bind_eq_ok, orRaise_eq_ok] at ha
        obtain ⟨_, hnone, _, -, _, -, _, -, _, -, _, -, _, hsome, -⟩ := ha
        obtain rfl := Except.ok.inj hnone
        exact absurd hsome nofun
    have hrow : Commits (p.withKind.row v key) := by
      rw [AnnouncementParams.row_withKind hkind]
      exact ⟨a, ha⟩
    refine clean_bind_iff.2 ⟨(hinsert a ha).2 (h hrow).2, fun _ _ => ?_⟩
    exact fails_bind appendAudit_clean fun _ _ => fails_pure _

/-! ## Publishing, cancelling, archiving -/

section Mutations

variable {ρ : Type}

omit [Server] in
/-- A row that fits is written, and what it announces is new. -/
theorem Table.update_clean {t : Table ρ} {occasion? : ρ → ρ → Option Occasion}
    (ht : t.Tells occasion?) (hc : c.Told) {old new : ρ}
    (hnames : ∀ check ∈ t.checks new, breaks (.checkViolation check.1) = true)
    (hnot : ∀ o ∈ occasion? old new, ¬ o.Occurred c.toStore) :
    Clean (t.update v old new c) ↔ Checked (t.checks new) := by
  unfold Table.update
  rw [clean_bind_iff, clean_checkAll hnames]
  refine and_iff_left_of_imp fun hchecked u _ => ?_
  have hannounces := ht.announces old new hchecked
  cases ho : occasion? old new with
  | none =>
    rw [hannounces.none ho]
    exact fails_pure _
  | some o =>
    obtain ⟨hnamed, title, message, severity, occurredAt, hevent, htitle, hmessage, hseverity⟩ :=
      hannounces.some o ho
    rw [hevent]
    obtain ⟨c', hc'⟩ : ∃ c', Center.notify v { c with toStore := t.replace old new c.toStore }
        (o.params title message severity occurredAt) = .ok c' :=
      notify_commits_of_fresh hc hnamed (hnot o ho) htitle hmessage hseverity
    exact clean_of_ok hc'

/-- A function that publishes, cancels or archives: it fails in its own tests only, its row fits if
it was created before, and it announces what has not come. -/
structure Mutation.Regular (m : Mutation ρ) (createdAt : ρ → ℤ)
    (occasion? : ρ → ρ → Option Occasion) (s : Store) : Prop where
  tells : m.table.Tells occasion?
  names : ∀ r, ∀ check ∈ m.table.checks r, breaks (.checkViolation check.1) = true
  validate : ∀ p : MutationParams, Clean (p.validate m.table.name m.table.source)
  missing : breaks (.raised (m.table.name ++ "_not_found") "P0002") = false
  conflict : breaks (.raised (m.table.name ++ "_request_conflict") "23505") = false
  refuse : ∀ v r, Clean (m.refuse v r)
  write : ∀ v r, Clean (m.write v r)
  checked : ∀ v r new, r ∈ m.table.rows s → m.refuse v r = .ok () → m.settled r = false →
    m.write v r = .ok new → (Checked (m.table.checks new) ↔ createdAt r ≤ v.sampledAt)
  announced : ∀ v r new, r ∈ m.table.rows s → m.refuse v r = .ok () → m.settled r = false →
    m.write v r = .ok new → ∀ o ∈ occasion? r new, ¬ o.Occurred s

/-- **Such a function fits if the row was created before.** -/
theorem Mutation.run_clean {m : Mutation ρ} {createdAt : ρ → ℤ}
    {occasion? : ρ → ρ → Option Occasion} (hm : m.Regular createdAt occasion? c.toStore)
    (hc : c.Told) {p : MutationParams} :
    Clean (m.run v p c) ↔ m.Fits createdAt p v c.toStore := by
  unfold Mutation.run
  rw [clean_bind_iff, and_iff_right (hm.validate p)]
  constructor
  · rintro h requestId publicId r hp hr hrequest hrefuse hsettled ⟨new, hwrite⟩
    have hrow := List.mem_of_find?_eq_some hr
    have hrun := h _ hp
    dsimp only at hrun
    rw [clean_bind (a := r) (orRaise_eq_ok.2 hr), hrequest] at hrun
    simp only [perform, settle, hsettled] at hrun
    rw [clean_bind hrefuse] at hrun
    have hsettle := (clean_bind_iff.1 hrun).1
    simp only [Bool.false_eq_true, if_false] at hsettle
    rw [clean_bind hwrite] at hsettle
    have hupdate := (Table.update_clean hm.tells hc (hm.names new)
      (hm.announced v r new hrow hrefuse hsettled hwrite)).1 (clean_bind_iff.1 hsettle).1
    exact (hm.checked v r new hrow hrefuse hsettled hwrite).1 hupdate
  · rintro h ⟨requestId, publicId⟩ hp
    refine fails_bind (fails_orRaise fun _ => hm.missing) fun r hr => ?_
    have hr := orRaise_eq_ok.1 hr
    have hrow := List.mem_of_find?_eq_some hr
    cases hrequest : (m.table.requests c.toStore).find? (·.requestId = requestId) with
    | some q => exact fails_bind (fails_raiseIf fun _ => hm.conflict) fun _ _ => fails_pure _
    | none =>
      refine fails_bind (hm.refuse v r) fun _ hrefuse => ?_
      refine fails_bind ?_ fun _ _ => fails_bind appendAudit_clean fun _ _ => fails_pure _
      unfold settle
      cases hsettled : m.settled r with
      | true => exact fails_ok _
      | false =>
        simp only [Bool.false_eq_true, if_false]
        refine fails_bind (hm.write v r) fun new hwrite => ?_
        refine fails_bind ?_ fun _ _ => fails_pure _
        have hchecked := (hm.checked v r new hrow hrefuse hsettled hwrite).2
          (h requestId publicId r hp hr hrequest hrefuse hsettled ⟨new, hwrite⟩)
        exact (Table.update_clean hm.tells hc (hm.names new)
          (hm.announced v r new hrow hrefuse hsettled hwrite)).2 hchecked

theorem MutationParams.validate_clean {name : String} {source : StatusSource} {p : MutationParams}
    (hmissing : name ++ "_request_id_required" ∉ triggerErrors)
    (hforbidden : name ++ "_actor_forbidden" ∉ triggerErrors)
    (hpublicId : name ++ "_public_id_invalid" ∉ triggerErrors) : Clean (p.validate name source) := by
  refine fails_bind (authorize_clean hmissing hforbidden) fun _ _ => ?_
  refine fails_bind (fails_orRaise fun _ => by simpa [breaks] using hpublicId) fun _ _ => ?_
  exact fails_pure _

end Mutations

/-! ## The four functions -/

theorem publishMaintenance_regular {s : Store} (hs : s.Sound) :
    publishMaintenance.Regular MaintenanceNotice.createdAt MaintenanceNotice.occasion? s where
  tells := maintenanceTable_tells
  names r := by
    simp [publishMaintenance, maintenanceTable, MaintenanceNotice.checks, breaks, auditConstraints]
  validate p := MutationParams.validate_clean (by decide) (by decide) (by decide)
  missing := by decide
  conflict := by decide
  refuse v r := fails_bind (fails_raiseIf fun _ => by decide) fun _ _ =>
    fails_raiseIf fun _ => by decide
  write v r := fails_ok _
  checked v r new hr hrefuse hsettled hwrite := by
    have hchecked := hs.noticesChecked r hr
    obtain rfl := Except.ok.inj hwrite
    have hpublished : r.publicationState ≠ .published := of_decide_eq_false hsettled
    obtain ⟨u, hcancelled, -⟩ := bind_eq_ok.1 hrefuse
    have hcancelled : r.publicationState ≠ .cancelled :=
      of_decide_eq_false (raiseIf_eq_ok.1 hcancelled)
    simp only [publishMaintenance, maintenanceTable, MaintenanceNotice.checks, checked_cons,
      Bool.and_eq_true, decide_eq_true_eq] at hchecked ⊢
    obtain ⟨hbody, hcancel, hid, hstate, htimes, hservices, ⟨hschedule, -⟩, htitle, hnil⟩ := hchecked
    have hnone : r.cancelledAt.isNone = true := by
      cases hr : r.publicationState with
      | draft =>
        rw [hr] at htimes
        exact (Bool.and_eq_true_iff.1 htimes).2
      | published => exact absurd hr hpublished
      | cancelled => exact absurd hr hcancelled
      | archived =>
        rw [hr] at htimes
        exact absurd htimes Bool.false_ne_true
    constructor
    · rintro ⟨-, -, -, -, -, -, ⟨-, hcreated⟩, -⟩
      exact hcreated
    · intro hcreated
      exact ⟨hbody, hcancel, hid, by decide, ⟨rfl, hnone⟩, hservices, ⟨hschedule, hcreated⟩, htitle,
        hnil⟩
  announced v r new hr hrefuse hsettled hwrite o ho := by
    obtain rfl := Except.ok.inj hwrite
    have hpublished : r.publicationState ≠ .published := of_decide_eq_false hsettled
    unfold MaintenanceNotice.occasion? at ho
    split at ho
    next hdraft hnew =>
      obtain rfl := Option.mem_some_iff.1 ho
      rintro ⟨k, hk, hpublicId, hstate⟩
      obtain rfl := hs.notices.publicId.eq hk hr hpublicId
      exact hstate hdraft
    next hold hnew => exact absurd hold hpublished
    next => exact absurd ho (Option.not_mem_none _)

theorem cancelMaintenance_regular {s : Store} (hs : s.Sound) :
    cancelMaintenance.Regular MaintenanceNotice.createdAt MaintenanceNotice.occasion? s where
  tells := maintenanceTable_tells
  names r := by
    simp [cancelMaintenance, maintenanceTable, MaintenanceNotice.checks, breaks, auditConstraints]
  validate p := MutationParams.validate_clean (by decide) (by decide) (by decide)
  missing := by decide
  conflict := by decide
  refuse v r := fails_raiseIf fun _ => by decide
  write v r := fails_bind (fails_raiseIf fun _ => by decide) fun _ _ => fails_pure _
  checked v r new hr hrefuse hsettled hwrite := by
    have hchecked := hs.noticesChecked r hr
    obtain ⟨u, -, hwrite⟩ := bind_eq_ok.1 hwrite
    obtain rfl := Except.ok.inj hwrite
    have hcancelled : r.publicationState ≠ .cancelled := of_decide_eq_false hsettled
    have hdraft : r.publicationState ≠ .draft := of_decide_eq_false (raiseIf_eq_ok.1 hrefuse)
    simp only [cancelMaintenance, maintenanceTable, MaintenanceNotice.checks, checked_cons,
      Bool.and_eq_true, decide_eq_true_eq, Option.all_some] at hchecked ⊢
    obtain ⟨hbody, -, hid, hstate, htimes, hservices, ⟨hschedule, -⟩, htitle, hnil⟩ := hchecked
    have hsome : r.publishedAt.isSome = true := by
      cases hr : r.publicationState with
      | draft => exact absurd hr hdraft
      | published =>
        rw [hr] at htimes
        exact (Bool.and_eq_true_iff.1 htimes).1
      | cancelled => exact absurd hr hcancelled
      | archived =>
        rw [hr] at htimes
        exact absurd htimes Bool.false_ne_true
    constructor
    · rintro ⟨-, hcreated, -⟩
      exact hcreated
    · intro hcreated
      exact ⟨hbody, hcreated, hid, by decide, ⟨hsome, rfl⟩, hservices, ⟨hschedule, hcreated⟩, htitle,
        hnil⟩
  announced v r new hr hrefuse hsettled hwrite o ho := by
    obtain ⟨u, -, hwrite⟩ := bind_eq_ok.1 hwrite
    obtain rfl := Except.ok.inj hwrite
    have hcancelled : r.publicationState ≠ .cancelled := of_decide_eq_false hsettled
    unfold MaintenanceNotice.occasion? at ho
    split at ho
    next hold hnew => cases hnew
    next hold hnew =>
      obtain rfl := Option.mem_some_iff.1 ho
      rintro ⟨k, hk, hpublicId, hstate⟩
      obtain rfl := hs.notices.publicId.eq hk hr hpublicId
      exact hcancelled hstate
    next => exact absurd ho (Option.not_mem_none _)

theorem publishAnnouncement_regular {s : Store} (hs : s.Sound) :
    publishAnnouncement.Regular Announcement.createdAt Announcement.occasion? s where
  tells := announcementTable_tells
  names r := by
    simp [publishAnnouncement, announcementTable, Announcement.checks, breaks, auditConstraints]
  validate p := MutationParams.validate_clean (by decide) (by decide) (by decide)
  missing := by decide
  conflict := by decide
  refuse v r := fails_raiseIf fun _ => by decide
  write v r := fails_bind (fails_raiseIf fun _ => by decide) fun _ _ => fails_pure _
  checked v r new hr hrefuse hsettled hwrite := by
    have hchecked := hs.announcementsChecked r hr
    obtain ⟨u, -, hwrite⟩ := bind_eq_ok.1 hwrite
    obtain rfl := Except.ok.inj hwrite
    have hpublished : r.publicationState ≠ .published := of_decide_eq_false hsettled
    have harchived : r.publicationState ≠ .archived := of_decide_eq_false (raiseIf_eq_ok.1 hrefuse)
    simp only [publishAnnouncement, announcementTable, Announcement.checks, checked_cons,
      Bool.and_eq_true, decide_eq_true_eq] at hchecked ⊢
    obtain ⟨hbody, hexpiry, hid, hstate, htimes, hservices, htitle, -, hnil⟩ := hchecked
    have hnone : r.archivedAt.isNone = true := by
      cases hr : r.publicationState with
      | draft =>
        rw [hr] at htimes
        exact (Bool.and_eq_true_iff.1 htimes).2
      | published => exact absurd hr hpublished
      | archived => exact absurd hr harchived
      | cancelled =>
        rw [hr] at htimes
        exact absurd htimes Bool.false_ne_true
    constructor
    · rintro ⟨-, -, -, -, -, -, -, hcreated, -⟩
      exact hcreated
    · intro hcreated
      exact ⟨hbody, hexpiry, hid, by decide, ⟨rfl, hnone⟩, hservices, htitle, hcreated, hnil⟩
  announced v r new hr hrefuse hsettled hwrite o ho := by
    obtain ⟨u, -, hwrite⟩ := bind_eq_ok.1 hwrite
    obtain rfl := Except.ok.inj hwrite
    unfold Announcement.occasion? at ho
    split at ho
    · exact absurd ho (Option.not_mem_none _)
    next hstates =>
      obtain rfl := Option.mem_some_iff.1 ho
      simp only [Bool.or_eq_true, decide_eq_true_eq, not_or, not_not] at hstates
      rintro ⟨k, hk, hpublicId, hstate⟩
      obtain rfl := hs.announcements.publicId.eq hk hr hpublicId
      exact hstate hstates.1

theorem archiveAnnouncement_regular {s : Store} (hs : s.Sound) :
    archiveAnnouncement.Regular Announcement.createdAt Announcement.occasion? s where
  tells := announcementTable_tells
  names r := by
    simp [archiveAnnouncement, announcementTable, Announcement.checks, breaks, auditConstraints]
  validate p := MutationParams.validate_clean (by decide) (by decide) (by decide)
  missing := by decide
  conflict := by decide
  refuse v r := fails_raiseIf fun _ => by decide
  write v r := fails_ok _
  checked v r new hr hrefuse hsettled hwrite := by
    have hchecked := hs.announcementsChecked r hr
    obtain rfl := Except.ok.inj hwrite
    have harchived : r.publicationState ≠ .archived := of_decide_eq_false hsettled
    have hdraft : r.publicationState ≠ .draft := of_decide_eq_false (raiseIf_eq_ok.1 hrefuse)
    simp only [archiveAnnouncement, announcementTable, Announcement.checks, checked_cons,
      Bool.and_eq_true, decide_eq_true_eq] at hchecked ⊢
    obtain ⟨hbody, hexpiry, hid, hstate, htimes, hservices, htitle, -, hnil⟩ := hchecked
    have hsome : r.publishedAt.isSome = true := by
      cases hr : r.publicationState with
      | draft => exact absurd hr hdraft
      | published =>
        rw [hr] at htimes
        exact (Bool.and_eq_true_iff.1 htimes).1
      | archived => exact absurd hr harchived
      | cancelled =>
        rw [hr] at htimes
        exact absurd htimes Bool.false_ne_true
    constructor
    · rintro ⟨-, -, -, -, -, -, -, hcreated, -⟩
      exact hcreated
    · intro hcreated
      exact ⟨hbody, hexpiry, hid, by decide, ⟨hsome, rfl⟩, hservices, htitle, hcreated, hnil⟩
  announced v r new hr hrefuse hsettled hwrite o ho := by
    obtain rfl := Except.ok.inj hwrite
    unfold Announcement.occasion? at ho
    rw [if_pos (by simp)] at ho
    exact absurd ho (Option.not_mem_none _)

/-! ## The calls -/

theorem publishStatusIncident_clean (hc : c.Consistent) {p : MutationParams} :
    Clean (publishStatusIncident v p c) ↔ (Request.publishIncident p).Fits v c.toStore := by
  unfold publishStatusIncident
  rw [clean_bind_iff,
    and_iff_right (MutationParams.validate_clean (by decide) (by decide) (by decide))]
  constructor
  · intro h requestId publicId i hp hi hrequest hdraft
    have hrow : i ∈ c.incidents := (find?_key_eq_some hi).1
    have hrun := h _ hp
    dsimp only at hrun
    rw [clean_bind (a := i) (orRaise_eq_ok.2 hi), hrequest] at hrun
    dsimp only at hrun
    rw [clean_bind (a := ()) (raiseIf_eq_ok.2 (by simp [hdraft])), if_neg (by simp [hdraft])] at hrun
    exact (publishDraft_clean hc hrow hdraft (find?_key_eq_none.1 hrequest)).1 hrun
  · intro h ⟨requestId, publicId⟩ hp
    refine fails_bind (fails_orRaise fun _ => by decide) fun i hi => ?_
    have hi := orRaise_eq_ok.1 hi
    have hrow : i ∈ c.incidents := (find?_key_eq_some hi).1
    cases hrequest : c.update? requestId with
    | some u =>
      refine fails_bind ?_ fun _ _ => fails_pure _
      refine fails_bind (fails_raiseIf fun _ => by decide) fun _ _ => ?_
      exact fails_raiseIf fun _ => by decide
    | none =>
      refine fails_bind (fails_raiseIf fun _ => by decide) fun u harchived => ?_
      have harchived := of_decide_eq_false (raiseIf_eq_ok.1 harchived)
      by_cases hpublished : i.publicationState = .published
      · rw [if_pos hpublished]
        exact fails_pure _
      · rw [if_neg hpublished]
        have hdraft : i.publicationState = .draft := by
          have hchecked := hc.sound.incidentsChecked i hrow
          simp only [Incident.checks, checked_cons, decide_eq_true_eq] at hchecked
          have hstate := hchecked.2.1
          cases hi : i.publicationState with
          | draft => rfl
          | published => exact absurd hi hpublished
          | archived => exact absurd hi harchived
          | cancelled =>
            rw [hi] at hstate
            exact absurd hstate (by decide)
        exact (publishDraft_clean hc hrow hdraft (find?_key_eq_none.1 hrequest)).2
          (h requestId publicId i hp hi hrequest hdraft)

theorem appendStatusIncidentUpdate_clean (hc : c.Consistent) {p : UpdateParams} :
    Clean (appendStatusIncidentUpdate v p c) ↔
      (Request.appendIncidentUpdate p).Fits v c.toStore := by
  unfold appendStatusIncidentUpdate
  rw [clean_bind_iff, and_iff_right UpdateParams.validate_clean]
  have hmessage : ∀ d, p.validate = .ok d → bodyOk 2000 d.message = true := by
    intro d hd
    simp only [UpdateParams.validate, bind_eq_ok, orRaise_eq_ok, pure_eq_ok] at hd
    obtain ⟨_, -, _, -, _, -, message, hmessage, rfl⟩ := hd
    exact trimmed_ok hmessage
  constructor
  · intro h d i hd hrequest hi hallowed
    have hrow : i ∈ c.incidents := (find?_key_eq_some hi).1
    have hrun := h d hd
    rw [hrequest] at hrun
    dsimp only at hrun
    rw [clean_bind (a := i) (orRaise_eq_ok.2 hi)] at hrun
    exact (append_clean hc hrow hallowed (hmessage d hd) (find?_key_eq_none.1 hrequest)).1 hrun
  · intro h d hd
    cases hrequest : c.update? d.requestId with
    | some u => exact fails_bind (fails_orRaise fun _ => by decide) fun _ _ => fails_pure _
    | none =>
      refine fails_bind (fails_orRaise fun _ => by decide) fun i hi => ?_
      have hi := orRaise_eq_ok.1 hi
      have hrow : i ∈ c.incidents := (find?_key_eq_some hi).1
      by_cases hallowed : d.Allowed i
      · exact (append_clean hc hrow hallowed (hmessage d hd) (find?_key_eq_none.1 hrequest)).2
          (h d i hd hrequest hi hallowed)
      · unfold UpdateDraft.append
        refine fails_bind (fails_raiseIf fun _ => by decide) fun _ hpublished => ?_
        refine fails_bind (fails_raiseIf fun _ => by decide) fun _ hunresolved => ?_
        refine fails_bind (fails_raiseIf fun _ => by decide) fun _ hforward => ?_
        refine absurd ⟨?_, ?_, raiseIf_eq_ok.1 hforward⟩ hallowed
        · exact not_not.1 (of_decide_eq_false (raiseIf_eq_ok.1 hpublished))
        · exact of_decide_eq_false (raiseIf_eq_ok.1 hunresolved)

/-- **A call fails in the tables or in a trigger only if it does not fit.** -/
theorem constraints_iff (t : ℤ) (calls : List Call) (x : Call) :
    Clean (x.request.perform x.invocation ((Center.initial t).run calls)) ↔
      x.request.Fits x.invocation ((Center.initial t).run calls).toStore := by
  have hc := Center.run_consistent t calls
  generalize (Center.initial t).run calls = c at hc
  obtain ⟨request, v⟩ := x
  cases request with
  | createIncident p => exact clean_map.trans createStatusIncident_clean
  | publishIncident p => exact clean_map.trans (publishStatusIncident_clean hc)
  | appendIncidentUpdate p => exact clean_map.trans (appendStatusIncidentUpdate_clean hc)
  | createMaintenance p => exact clean_map.trans createStatusMaintenance_clean
  | publishMaintenance p =>
    exact clean_map.trans (Mutation.run_clean (publishMaintenance_regular hc.sound) hc.told)
  | cancelMaintenance p =>
    exact clean_map.trans (Mutation.run_clean (cancelMaintenance_regular hc.sound) hc.told)
  | createAnnouncement p => exact clean_map.trans createStatusAnnouncement_clean
  | publishAnnouncement p =>
    exact clean_map.trans (Mutation.run_clean (publishAnnouncement_regular hc.sound) hc.told)
  | archiveAnnouncement p =>
    exact clean_map.trans (Mutation.run_clean (archiveAnnouncement_regular hc.sound) hc.told)

end

/-! ## An incident that starts a little later -/

/-- An incident that starts at the fourth minute. -/
def sampleLater : Request :=
  .createIncident
    { title := some "Login fails"
      impact := some "major"
      affectedServiceIds := some (.ofList ["web"])
      startedAt := some (.ofInstant (240 * second))
      summary := some "Under investigation"
      idempotencyKey := some ⟨2#128⟩
      actor := sampleActor }

open Sample in
/-- It is created and published at once, but it cannot be resolved in the first minute. -/
theorem resolving_before_start_fails :
    sampleLater.answer 1 (sampleCenter []) = .ok "INC-000000000000" ∧
      samplePublish.answer 2 (sampleCenter [(sampleLater, 1)]) = .ok "INC-000000000000" ∧
      sampleResolve.answer (60 * second) (sampleCenter [(sampleLater, 1), (samplePublish, 2)]) =
        .error (.checkViolation "status_incidents_resolution_check") := by
  decide +kernel

end IvrmDashboard.StatusCenter
