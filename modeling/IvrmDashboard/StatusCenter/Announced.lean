import IvrmDashboard.StatusCenter.Invariants
import IvrmDashboard.StatusCenter.Occasions

/-!
# What has been announced

The rows only go forward: what is published, resolved or cancelled stays so. Every event of the queue
is of an occasion that has come (`Told`), so an occasion that comes for the first time never meets an
event that is there.
-/

namespace IvrmDashboard.StatusCenter

open Sql Notifications

/-! ## Rows go forward -/

/-- Every row has one that it has become. -/
def Leads {ρ : Type} (R : ρ → ρ → Prop) (rows rows' : List ρ) : Prop :=
  ∀ a ∈ rows, ∃ b ∈ rows', R a b

section

variable {ρ : Type} {R : ρ → ρ → Prop} {rows : List ρ}

theorem Leads.refl (hR : ∀ a, R a a) (rows : List ρ) : Leads R rows rows :=
  fun a ha => ⟨a, ha, hR a⟩

theorem Leads.append (hR : ∀ a, R a a) (rows more : List ρ) : Leads R rows (rows ++ more) :=
  fun a ha => ⟨a, List.mem_append_left _ ha, hR a⟩

theorem Keys.Unique.leads {k : Keys ρ} (h : k.Unique rows) {old new : ρ} (hold : old ∈ rows)
    (hR : ∀ a, R a a) (hnew : R old new) :
    Leads R rows (updateWhere (k.id · = k.id old) (fun _ => new) rows) := by
  intro a ha
  by_cases hid : decide (k.id a = k.id old) = true
  · obtain rfl := h.eq_of_id hold ha hid
    exact ⟨new, mem_updateWhere.2 ⟨a, ha, if_pos hid⟩, hnew⟩
  · exact ⟨a, mem_updateWhere.2 ⟨a, ha, if_neg hid⟩, hR a⟩

end

/-- An incident stays published and resolved. -/
structure Incident.Leads (i j : Incident) : Prop where
  publicId : j.publicId = i.publicId
  published : i.publicationState ≠ .draft → j.publicationState ≠ .draft
  resolved : i.lifecycleStatus = .resolved → j.lifecycleStatus = .resolved

/-- A notice stays published and cancelled. -/
structure MaintenanceNotice.Leads (m n : MaintenanceNotice) : Prop where
  publicId : n.publicId = m.publicId
  published : m.publicationState ≠ .draft → n.publicationState ≠ .draft
  cancelled : m.publicationState = .cancelled → n.publicationState = .cancelled

/-- An announcement stays published. -/
structure Announcement.Leads (a b : Announcement) : Prop where
  publicId : b.publicId = a.publicId
  published : a.publicationState ≠ .draft → b.publicationState ≠ .draft

theorem Incident.Leads.refl (i : Incident) : i.Leads i := ⟨rfl, fun h => h, fun h => h⟩

theorem MaintenanceNotice.Leads.refl (m : MaintenanceNotice) : m.Leads m := ⟨rfl, fun h => h, fun h => h⟩

theorem Announcement.Leads.refl (a : Announcement) : a.Leads a := ⟨rfl, fun h => h⟩

/-- All rows go forward. -/
structure Store.Leads (s s' : Store) : Prop where
  incidents : StatusCenter.Leads Incident.Leads s.incidents s'.incidents
  updates : s.updates ⊆ s'.updates
  notices : StatusCenter.Leads MaintenanceNotice.Leads s.notices s'.notices
  announcements : StatusCenter.Leads Announcement.Leads s.announcements s'.announcements

theorem Store.Leads.refl (s : Store) : s.Leads s :=
  ⟨.refl Incident.Leads.refl _, fun _ => id, .refl MaintenanceNotice.Leads.refl _,
    .refl Announcement.Leads.refl _⟩

section

variable {v : Invocation} {s s' : Store}

theorem IncidentWritten.leads (hs : s.Sound) (h : IncidentWritten v s s') : s.Leads s' := by
  cases h with
  | created d impact hfresh hchecked =>
    exact { Store.Leads.refl s with incidents := .append Incident.Leads.refl _ _ }
  | published i requestId hi harchived hpublished hrequest hchecked hupdate =>
    have hlead : i.Leads (i.publish v) := ⟨rfl, fun _ => nofun, fun h => h⟩
    exact { Store.Leads.refl s with
      incidents := hs.incidents.leads hi Incident.Leads.refl hlead
      updates := fun u hu => List.mem_append_left _ hu }
  | advanced i status message requestId hi hpublished hstatus hrequest hchecked hupdate =>
    have hlead : i.Leads (i.advance v status message) := by
      refine ⟨rfl, fun h => h, fun h => ?_⟩
      rw [h] at hstatus
      exact absurd hstatus List.not_mem_nil
    exact { Store.Leads.refl s with
      incidents := hs.incidents.leads hi Incident.Leads.refl hlead
      updates := fun u hu => List.mem_append_left _ hu }

theorem noticeMutation_leads {m : Mutation MaintenanceNotice} {r r' : MaintenanceNotice}
    {requestId : Uuid} (hm : m = publishMaintenance ∨ m = cancelMaintenance)
    (h : m.Performed v requestId s r r' s') : r.Leads r' := by
  cases h with
  | settled hrefuse hsettled => exact .refl r
  | written _ hrefuse hsettled hwrite hchecked =>
    rcases hm with rfl | rfl
    · have hcancelled : r.publicationState ≠ .cancelled := by
        obtain ⟨u, hcancelled, -⟩ := bind_eq_ok.1 hrefuse
        simpa using hcancelled
      obtain rfl := Except.ok.inj hwrite
      exact ⟨rfl, fun _ => nofun, fun h => absurd h hcancelled⟩
    · obtain ⟨u, -, hwrite⟩ := bind_eq_ok.1 hwrite
      obtain rfl := Except.ok.inj hwrite
      exact ⟨rfl, fun _ => nofun, fun _ => rfl⟩

theorem announcementMutation_leads {m : Mutation Announcement} {r r' : Announcement}
    {requestId : Uuid} (hm : m = publishAnnouncement ∨ m = archiveAnnouncement)
    (h : m.Performed v requestId s r r' s') : r.Leads r' := by
  cases h with
  | settled hrefuse hsettled => exact .refl r
  | written _ hrefuse hsettled hwrite hchecked =>
    rcases hm with rfl | rfl
    · obtain ⟨u, -, hwrite⟩ := bind_eq_ok.1 hwrite
      obtain rfl := Except.ok.inj hwrite
      exact ⟨rfl, fun _ => nofun⟩
    · obtain rfl := Except.ok.inj hwrite
      exact ⟨rfl, fun _ => nofun⟩

/-- The rows a mutation leaves behind go forward. -/
theorem Mutation.RowsAfter.leads {ρ : Type} {m : Mutation ρ} {k : Keys ρ} {R : ρ → ρ → Prop}
    {r r' : ρ} {rows rows' : List ρ} (hid : m.table.id = k.id) (h : m.RowsAfter v r r' rows rows')
    (hrows : k.Unique rows) (hr : r ∈ rows) (hR : ∀ a, R a a) (hlead : R r r') :
    StatusCenter.Leads R rows rows' := by
  rcases h with ⟨-, rfl, rfl⟩ | ⟨-, -, -, rfl⟩
  · exact .refl hR _
  · rw [hid]
    exact hrows.leads hr hR hlead

/-- **A change takes the rows forward.** -/
theorem Written.leads (hs : s.Sound) (h : Written v s s') : s.Leads s' := by
  cases h with
  | nothing => exact .refl s
  | incident _ h => exact h.leads hs
  | notice p key m hrow hfresh hchecked =>
    exact { Store.Leads.refl s with notices := .append MaintenanceNotice.Leads.refl _ _ }
  | noticeMutation m hm requestId r r' _ hr hrequest h =>
    have hlead := noticeMutation_leads hm h
    obtain ⟨-, rows, hafter, rfl⟩ := noticeMutation_store hm h
    have hid : m.table.id = maintenanceTable.keys.id := by rcases hm with rfl | rfl <;> rfl
    exact { Store.Leads.refl s with
      notices := hafter.leads hid hs.notices hr MaintenanceNotice.Leads.refl hlead }
  | announcement p key a hrow hfresh hchecked =>
    exact { Store.Leads.refl s with announcements := .append Announcement.Leads.refl _ _ }
  | announcementMutation m hm requestId r r' _ hr hrequest h =>
    have hlead := announcementMutation_leads hm h
    obtain ⟨-, rows, hafter, rfl⟩ := announcementMutation_store hm h
    have hid : m.table.id = announcementTable.keys.id := by rcases hm with rfl | rfl <;> rfl
    exact { Store.Leads.refl s with
      announcements := hafter.leads hid hs.announcements hr Announcement.Leads.refl hlead }

/-! ## What has come -/

/-- The occasion has come. -/
def Occasion.Occurred (s : Store) : Occasion → Prop
  | incidentPublished p => ∃ i ∈ s.incidents, i.publicId = p ∧ i.publicationState ≠ .draft
  | incidentResolved p => ∃ i ∈ s.incidents, i.publicId = p ∧ i.lifecycleStatus = .resolved
  | incidentUpdated _ requestId => ∃ u ∈ s.updates, u.requestId = requestId
  | maintenancePublished p => ∃ m ∈ s.notices, m.publicId = p ∧ m.publicationState ≠ .draft
  | maintenanceCancelled p => ∃ m ∈ s.notices, m.publicId = p ∧ m.publicationState = .cancelled
  | announcementPublished p => ∃ a ∈ s.announcements, a.publicId = p ∧ a.publicationState ≠ .draft

/-- An occasion that has come stays so. -/
theorem Occasion.Occurred.leads {o : Occasion} (ho : o.Occurred s) (h : s.Leads s') :
    o.Occurred s' := by
  cases o with
  | incidentPublished p =>
    obtain ⟨i, hi, rfl, hstate⟩ := ho
    obtain ⟨j, hj, hlead⟩ := h.incidents i hi
    exact ⟨j, hj, hlead.publicId, hlead.published hstate⟩
  | incidentResolved p =>
    obtain ⟨i, hi, rfl, hstate⟩ := ho
    obtain ⟨j, hj, hlead⟩ := h.incidents i hi
    exact ⟨j, hj, hlead.publicId, hlead.resolved hstate⟩
  | incidentUpdated p requestId =>
    obtain ⟨u, hu, hrequest⟩ := ho
    exact ⟨u, h.updates hu, hrequest⟩
  | maintenancePublished p =>
    obtain ⟨m, hm, rfl, hstate⟩ := ho
    obtain ⟨n, hn, hlead⟩ := h.notices m hm
    exact ⟨n, hn, hlead.publicId, hlead.published hstate⟩
  | maintenanceCancelled p =>
    obtain ⟨m, hm, rfl, hstate⟩ := ho
    obtain ⟨n, hn, hlead⟩ := h.notices m hm
    exact ⟨n, hn, hlead.publicId, hlead.cancelled hstate⟩
  | announcementPublished p =>
    obtain ⟨a, ha, rfl, hstate⟩ := ho
    obtain ⟨b, hb, hlead⟩ := h.announcements a ha
    exact ⟨b, hb, hlead.publicId, hlead.published hstate⟩

/-- An incident that is published has an update, and no draft is resolved. -/
structure Store.Begun (s : Store) : Prop where
  ids : ∀ u ∈ s.updates, u.id < s.nextUpdateId
  first : ∀ i ∈ s.incidents, i.publicationState ≠ .draft → ∃ u ∈ s.updates, u.incidentId = i.id
  drafts : ∀ i ∈ s.incidents, i.publicationState = .draft → i.lifecycleStatus ≠ .resolved

theorem Store.empty_begun : Store.empty.Begun :=
  ⟨by simp [Store.empty], by simp [Store.empty], by simp [Store.empty]⟩

/-- Writing an incident that is published, with its update. -/
theorem Store.Begun.writeIncident (hb : s.Begun) {i : Incident} {u : IncidentUpdate}
    (hu : u.id = s.nextUpdateId) (hid : u.incidentId = i.id)
    (hstate : i.publicationState = .published) : (s.writeIncident i u).Begun := by
  refine ⟨fun w hw => ?_, fun j hj hj' => ?_, fun j hj hj' => ?_⟩
  · rcases List.mem_append.1 hw with hw | hw
    · exact (hb.ids w hw).trans (Nat.lt_succ_self _)
    · obtain rfl := List.mem_singleton.1 hw
      exact hu.trans_lt (Nat.lt_succ_self _)
  · obtain ⟨k, hk, rfl⟩ := mem_updateWhere.1 hj
    by_cases hki : decide (k.id = i.id) = true
    · rw [if_pos hki]
      exact ⟨u, List.mem_append_right _ (List.mem_singleton_self u), hid⟩
    · rw [if_neg hki] at hj' ⊢
      obtain ⟨w, hw, hwk⟩ := hb.first k hk hj'
      exact ⟨w, List.mem_append_left _ hw, hwk⟩
  · obtain ⟨k, hk, rfl⟩ := mem_updateWhere.1 hj
    by_cases hki : decide (k.id = i.id) = true
    · rw [if_pos hki] at hj'
      exact absurd (hstate.symm.trans hj') nofun
    · rw [if_neg hki] at hj' ⊢
      exact hb.drafts k hk hj'

theorem Written.begun (hb : s.Begun) (h : Written v s s') : s'.Begun := by
  cases h with
  | nothing => exact hb
  | incident _ h =>
    cases h with
    | created d impact hfresh hchecked =>
      refine ⟨hb.ids, fun i hi hstate => ?_, fun i hi hstate => ?_⟩
      · rcases List.mem_append.1 hi with hi | hi
        · exact hb.first i hi hstate
        · obtain rfl := List.mem_singleton.1 hi
          exact absurd rfl hstate
      · rcases List.mem_append.1 hi with hi | hi
        · exact hb.drafts i hi hstate
        · obtain rfl := List.mem_singleton.1 hi
          exact nofun
    | published i requestId hi harchived hpublished hrequest hchecked hupdate =>
      exact hb.writeIncident rfl rfl rfl
    | advanced i status message requestId hi hpublished hstatus hrequest hchecked hupdate =>
      exact hb.writeIncident rfl rfl hpublished
  | notice p key m hrow hfresh hchecked => exact ⟨hb.ids, hb.first, hb.drafts⟩
  | noticeMutation m hm requestId r r' _ hr hrequest h =>
    obtain ⟨-, rows, -, rfl⟩ := noticeMutation_store hm h
    exact ⟨hb.ids, hb.first, hb.drafts⟩
  | announcement p key a hrow hfresh hchecked => exact ⟨hb.ids, hb.first, hb.drafts⟩
  | announcementMutation m hm requestId r r' _ hr hrequest h =>
    obtain ⟨-, rows, -, rfl⟩ := announcementMutation_store hm h
    exact ⟨hb.ids, hb.first, hb.drafts⟩

end

/-! ## What a call announces -/

/-- The occasion of an update of an incident. -/
def Incident.occasion (i : Incident) (u : IncidentUpdate) (initial : Bool) : Occasion :=
  if initial then .incidentPublished i.publicId
  else if u.lifecycleStatus = .resolved then .incidentResolved i.publicId
  else .incidentUpdated i.publicId u.requestId

theorem Incident.event_eq (i : Incident) (u : IncidentUpdate) (initial : Bool) :
    i.event u initial = (i.occasion u initial).params i.title u.message i.impact.severity
      (.ofInstant u.publishedAt) := by
  cases initial with
  | true => rfl
  | false =>
    by_cases hresolved : u.lifecycleStatus = .resolved
    · simp only [event, occasion, hresolved]
      rfl
    · simp only [event, occasion, hresolved]
      rfl

theorem Incident.occasion_publicId (i : Incident) (u : IncidentUpdate) (initial : Bool) :
    (i.occasion u initial).source = .incident ∧ (i.occasion u initial).publicId = i.publicId := by
  unfold occasion
  split
  · exact ⟨rfl, rfl⟩
  · split <;> exact ⟨rfl, rfl⟩

theorem Incident.occasion_named {i : Incident} (h : Checked i.checks) (u : IncidentUpdate)
    (initial : Bool) : (i.occasion u initial).Named := by
  obtain ⟨hsource, hpublicId⟩ := i.occasion_publicId u initial
  rw [Occasion.Named, hsource, hpublicId]
  exact (List.forall_mem_cons.1 h).1

/-- The occasion of what is written of a notice. -/
def MaintenanceNotice.occasion? (old new : MaintenanceNotice) : Option Occasion :=
  match old.publicationState, new.publicationState with
  | .draft, .published => some (.maintenancePublished new.publicId)
  | .published, .cancelled => some (.maintenanceCancelled new.publicId)
  | _, _ => none

/-- The occasion of what is written of an announcement. -/
def Announcement.occasion? (old new : Announcement) : Option Occasion :=
  if old.publicationState ≠ .draft || new.publicationState ≠ .published then none
  else some (.announcementPublished new.publicId)

/-- The event of a table is that of the occasion, with a title and a text in their limits. -/
structure Table.Announces {ρ : Type} (t : Table ρ) (old new : ρ) (o : Option Occasion) : Prop where
  none : o = .none → t.event old new = .ok .none
  some : ∀ x ∈ o, x.Named ∧ ∃ title message severity occurredAt,
    t.event old new = .ok (.some (x.params title message severity occurredAt)) ∧
      titleOk title = true ∧ bodyOk 4000 message = true ∧ (statusSeverity? severity).isSome = true

theorem MaintenanceNotice.announces {old new : MaintenanceNotice} (h : Checked new.checks) :
    maintenanceTable.Announces old new (old.occasion? new) := by
  simp only [checks, checked_cons] at h
  obtain ⟨hbody, -, hname, -, htimes, -, -, htitle, -⟩ := h
  constructor
  · intro hnone
    change event old new = .ok none
    unfold occasion? at hnone
    unfold event
    -- Both sides match on the two states, with matchers of their own.
    generalize old.publicationState = before at hnone ⊢
    generalize new.publicationState = after at hnone ⊢
    cases before <;> cases after <;> first | rfl | exact absurd hnone nofun
  · intro o ho
    unfold occasion? at ho
    split at ho
    next hold hnew =>
      obtain rfl := Option.mem_some_iff.1 ho
      rw [hnew, Bool.and_eq_true] at htimes
      obtain ⟨t, ht⟩ := Option.isSome_iff_exists.1 htimes.1
      refine ⟨hname, new.title, new.body, "info", .ofInstant t, ?_, htitle, hbody, rfl⟩
      change event old new = _
      rw [event, hold, hnew, ht]
      rfl
    next hold hnew =>
      obtain rfl := Option.mem_some_iff.1 ho
      rw [hnew, Bool.and_eq_true] at htimes
      obtain ⟨t, ht⟩ := Option.isSome_iff_exists.1 htimes.2
      refine ⟨hname, new.title, new.body, "warning", .ofInstant t, ?_, htitle, hbody, rfl⟩
      change event old new = _
      rw [event, hold, hnew, ht]
      rfl
    next => exact absurd ho (Option.not_mem_none _)

theorem Announcement.announces {old new : Announcement} (h : Checked new.checks) :
    announcementTable.Announces old new (old.occasion? new) := by
  simp only [checks, checked_cons] at h
  obtain ⟨hbody, -, hname, -, -, -, htitle, -⟩ := h
  constructor
  · intro hnone
    unfold occasion? at hnone
    split at hnone
    next hstate => exact if_pos hstate
    next => exact absurd hnone nofun
  · intro o ho
    unfold occasion? at ho
    split at ho
    · exact absurd ho (Option.not_mem_none _)
    next hstate =>
      obtain rfl := Option.mem_some_iff.1 ho
      refine ⟨hname, new.title, new.body, if new.kind = .warning then "warning" else "info",
        new.publishAt, if_neg hstate, htitle, hbody, ?_⟩
      split <;> rfl

/-! ## The queue -/

/-- Every event has the key of an occasion that has come. -/
def Center.Told (c : Center) : Prop :=
  ∀ e ∈ c.queue.events, ∃ o : Occasion, o.Named ∧ e.eventKey = o.key ∧ o.Occurred c.toStore

/-- The new events of a queue are of occasions that have come. -/
def Store.Tells (s : Store) (q q' : StatusQueue) : Prop :=
  ∀ e ∈ q'.events,
    e ∈ q.events ∨ ∃ o : Occasion, o.Named ∧ e.eventKey = o.key ∧ o.Occurred s

theorem Store.Tells.refl (s : Store) (q : StatusQueue) : s.Tells q q := fun _ he => .inl he

section

variable {v : Invocation} {c c' : Center} {s : Store}

theorem Center.Told.step (h : c.Told) (hlead : c.Leads c'.toStore)
    (htells : c'.Tells c.queue c'.queue) : c'.Told := by
  intro e he
  rcases htells e he with he | hnew
  · obtain ⟨o, ho, hkey, hoccurred⟩ := h e he
    exact ⟨o, ho, hkey, hoccurred.leads hlead⟩
  · exact hnew

/-- What has not come has not been told. -/
theorem Center.Told.fresh (h : c.Told) {o : Occasion} (ho : o.Named)
    (hnot : ¬ o.Occurred c.toStore) : ∀ e ∈ c.queue.events, e.eventKey ≠ o.key := by
  intro e he hkey
  obtain ⟨o', ho', hkey', hoccurred⟩ := h e he
  obtain rfl := Occasion.key_inj ho ho' (hkey.symm.trans hkey')
  exact hnot hoccurred

theorem Occasion.key_of_content? {o : Occasion} {title message severity key : String}
    {occurredAt : Timestamptz} {content : StatusContent}
    (h : (o.params title message severity occurredAt).content? = some (key, content)) :
    key = o.key := by
  simp only [StatusEventParams.content?, params, Option.bind_eq_bind, Option.bind_eq_some_iff,
    Option.filter_eq_some_iff, Option.some.injEq, Prod.mk.injEq] at h
  obtain ⟨k, ⟨hk, -⟩, -, -, -, -, -, -, -, -, -, -, -, -, -, -, -, -, hkey, -⟩ := h
  rw [← hkey, hk]

theorem notify_tells {o : Occasion} {title message severity : String} {occurredAt : Timestamptz}
    (h : c.notify v (o.params title message severity occurredAt) = .ok c') (ho : o.Named)
    (hoccurred : o.Occurred s) : s.Tells c.queue c'.queue := by
  intro e he
  obtain ⟨⟨n, queue⟩, hcreate, -⟩ := bind_eq_ok.1 h
  obtain ⟨key, content, hp, -⟩ := createStatusNotificationEvent_eq_ok hcreate
  rcases Center.notify_events hp h he with he | hkey
  · exact .inl he
  · exact .inr ⟨o, ho, hkey.trans (Occasion.key_of_content? hp), hoccurred⟩

theorem Incident.occasion_occurred {i : Incident} {u : IncidentUpdate} (hi : i ∈ s.incidents)
    (hstate : i.publicationState = .published) (hu : u ∈ s.updates)
    (hresolved : u.lifecycleStatus = .resolved → i.lifecycleStatus = .resolved) (initial : Bool) :
    (i.occasion u initial).Occurred s := by
  unfold occasion
  split
  · exact ⟨i, hi, rfl, by rw [hstate]; exact nofun⟩
  · split
    next h => exact ⟨i, hi, rfl, hresolved h⟩
    next => exact ⟨u, hu, rfl⟩

/-- The event of an update is of an occasion of its incident. -/
theorem insertUpdate_tells {u : IncidentUpdate} (h : c.insertUpdate v u = .ok c')
    (hchecked : ∀ i ∈ c.incidents, Checked i.checks)
    (hoccurred : ∀ i ∈ c.incidents, i.id = u.incidentId → i.publicationState = .published →
      ∀ initial, (i.occasion u initial).Occurred s) : s.Tells c.queue c'.queue := by
  simp only [Center.insertUpdate, Center.incidentNotificationEventTrigger, bind_eq_ok,
    checkAll_eq_ok, raiseIf_eq_ok, orRaise_eq_ok, Option.filter_eq_some_iff,
    decide_eq_true_eq] at h
  obtain ⟨-, -, -, -, i, ⟨hi, hstate⟩, hnotify⟩ := h
  obtain ⟨hmem, hid⟩ : i ∈ c.incidents ∧ i.id = u.incidentId := find?_key_eq_some hi
  rw [Incident.event_eq] at hnotify
  have htells := notify_tells hnotify (Incident.occasion_named (hchecked i hmem) u _)
    (hoccurred i hmem hid hstate _)
  exact htells

/-- A table whose rows announce what is written of them. -/
structure Table.Tells {ρ : Type} (t : Table ρ) (occasion? : ρ → ρ → Option Occasion) : Prop where
  announces : ∀ old new, Checked (t.checks new) → t.Announces old new (occasion? old new)
  occurred : ∀ old new, ∀ o ∈ occasion? old new, ∀ s, new ∈ t.rows s → o.Occurred s

theorem maintenanceTable_tells : maintenanceTable.Tells MaintenanceNotice.occasion? where
  announces _ _ := MaintenanceNotice.announces
  occurred old new o ho s hnew := by
    unfold MaintenanceNotice.occasion? at ho
    split at ho
    next hold hstate =>
      obtain rfl := Option.mem_some_iff.1 ho
      exact ⟨new, hnew, rfl, by rw [hstate]; exact nofun⟩
    next hold hstate =>
      obtain rfl := Option.mem_some_iff.1 ho
      exact ⟨new, hnew, rfl, hstate⟩
    next => exact absurd ho (Option.not_mem_none _)

theorem announcementTable_tells : announcementTable.Tells Announcement.occasion? where
  announces _ _ := Announcement.announces
  occurred old new o ho s hnew := by
    unfold Announcement.occasion? at ho
    split at ho
    · exact absurd ho (Option.not_mem_none _)
    next hstate =>
      obtain rfl := Option.mem_some_iff.1 ho
      simp only [Bool.or_eq_true, decide_eq_true_eq, not_or, not_not] at hstate
      exact ⟨new, hnew, rfl, by rw [hstate.2]; exact nofun⟩

section Ledgers

variable {ρ : Type} {t : Table ρ} {occasion? : ρ → ρ → Option Occasion}

theorem Table.update_tells (ht : t.Tells occasion?) {old new : ρ} (h : t.update v old new c = .ok c')
    (hnew : new ∈ t.rows s) : s.Tells c.queue c'.queue := by
  simp only [Table.update, bind_eq_ok, checkAll_eq_ok] at h
  obtain ⟨-, hchecked, event, hevent, h⟩ := h
  have hannounces := ht.announces old new hchecked
  cases ho : occasion? old new with
  | none =>
    obtain rfl := Except.ok.inj ((hannounces.none ho).symm.trans hevent)
    obtain rfl := Except.ok.inj h
    exact .refl _ _
  | some o =>
    obtain ⟨hnamed, title, message, severity, occurredAt, hevent', -⟩ := hannounces.some o ho
    obtain rfl := Except.ok.inj (hevent'.symm.trans hevent)
    dsimp only at h
    have htells := notify_tells h hnamed (ht.occurred old new o ho s hnew)
    exact htells

theorem Table.createOnce_queue {key : Uuid} {agrees : ρ → Bool} {create : Except DbError (ρ × Center)}
    {r : ρ} (h : t.createOnce key agrees create c = .ok (r, c'))
    (hcreate : create = .ok (r, c') → c'.queue = c.queue) : c'.queue = c.queue := by
  rcases Table.createOnce_eq_ok h with ⟨-, -, rfl⟩ | ⟨-, h⟩
  · rfl
  · exact hcreate h

theorem Table.insert_queue {r : ρ} (h : t.insert r c = .ok c') : c'.queue = c.queue := by
  simp only [Table.insert, bind_eq_ok, checkAll_eq_ok, raiseIf_eq_ok, pure_eq_ok] at h
  obtain ⟨-, -, -, -, -, -, rfl⟩ := h
  rfl

end Ledgers

section Calls

variable [Server]

theorem createStatusIncident_queue {p : IncidentParams} {i : Incident}
    (h : createStatusIncident v p c = .ok (i, c')) : c'.queue = c.queue := by
  obtain ⟨d, -, h⟩ := bind_eq_ok.1 h
  cases hfind : c.incidents.find? (·.createRequestId = d.key) with
  | some j =>
    simp only [hfind, bind_eq_ok, pure_eq_ok, Prod.mk.injEq] at h
    obtain ⟨-, -, -, rfl⟩ := h
    rfl
  | none =>
    simp only [hfind, IncidentDraft.create, Center.insertIncident, bind_eq_ok, orRaise_eq_ok,
      checkAll_eq_ok, raiseIf_eq_ok, pure_eq_ok, Prod.mk.injEq] at h
    obtain ⟨_, -, _, ⟨-, -, -, -, -, -, rfl⟩, c₂, haudit, -, rfl⟩ := h
    have hqueue := Center.appendAudit_queue haudit
    exact hqueue

theorem publishStatusIncident_tells (hs : c.Sound) {p : MutationParams} {i : Incident}
    (h : publishStatusIncident v p c = .ok (i, c')) : c'.Tells c.queue c'.queue := by
  obtain ⟨requestId, publicId, j, -, hj, ⟨u, -, -, -, rfl⟩ |
    ⟨-, ⟨-, -, rfl⟩ | ⟨-, -, h⟩⟩⟩ := publishStatusIncident_eq_ok h
  · exact .refl _ _
  · exact .refl _ _
  · have hstore := (publishDraft_eq_ok h).2.2.2.2
    simp only [Incident.publishDraft, Center.updateIncident, bind_eq_ok, checkAll_eq_ok,
      pure_eq_ok, Prod.mk.injEq] at h
    obtain ⟨_, ⟨-, hchecked, rfl⟩, c₂, hinsert, c₃, haudit, rfl, rfl⟩ := h
    have hrows : ∀ k ∈ updateWhere (·.id = (j.publish v).id) (fun _ => j.publish v) c.incidents,
        Checked k.checks := Keys.forall_replace hs.incidentsChecked hchecked
    have htells := insertUpdate_tells (s := c₃.toStore) hinsert hrows fun k hk hid hstate => by
      have hk' : k ∈ c₃.incidents := by
        rw [hstore]
        exact hk
      refine Incident.occasion_occurred hk' hstate ?_ ?_
      · rw [hstore]
        exact List.mem_append_right _ (List.mem_singleton_self _)
      · obtain ⟨a, ha, rfl⟩ := mem_updateWhere.1 hk
        intro hresolved
        by_cases ha' : decide (a.id = (j.publish v).id) = true
        · rw [if_pos ha']
          exact hresolved
        · rw [if_neg ha'] at hid
          exact absurd (decide_eq_true hid) ha'
    rw [Center.appendAudit_queue haudit]
    exact htells

theorem appendStatusIncidentUpdate_tells (hs : c.Sound) {p : UpdateParams} {i : Incident}
    (h : appendStatusIncidentUpdate v p c = .ok (i, c')) : c'.Tells c.queue c'.queue := by
  obtain ⟨d, -, ⟨u, -, -, -, rfl⟩ | ⟨-, j, hj, h⟩⟩ := appendStatusIncidentUpdate_eq_ok h
  · exact .refl _ _
  · obtain ⟨status, hlifecycle, hpublished, -, -, -, -, -, hstore⟩ := append_eq_ok h
    simp only [UpdateDraft.append, Center.updateIncident, bind_eq_ok, raiseIf_eq_ok, orRaise_eq_ok,
      checkAll_eq_ok, pure_eq_ok, Prod.mk.injEq] at h
    obtain ⟨-, -, -, -, -, -, status', hlifecycle', c₁, hinsert, _, ⟨-, -, rfl⟩, c₂, haudit, rfl,
      rfl⟩ := h
    obtain rfl := Option.some.inj (hlifecycle.symm.trans hlifecycle')
    have htells := insertUpdate_tells (s := c₂.toStore) hinsert hs.incidentsChecked
      fun k hk hid hstate initial => by
        obtain rfl : k = j := hs.incidents.id.eq hk (find?_key_eq_some hj).1 hid
        have hmem : k.advance v status d.message ∈ c₂.incidents := by
          rw [hstore]
          exact mem_updateWhere.2 ⟨k, hk, if_pos (decide_eq_true rfl)⟩
        have hoccurred : ((k.advance v status d.message).occasion
            (c.newUpdate v k status d.message d.requestId) initial).Occurred c₂.toStore := by
          refine Incident.occasion_occurred hmem hpublished ?_ id initial
          rw [hstore]
          exact List.mem_append_right _ (List.mem_singleton_self _)
        exact hoccurred
    rw [Center.appendAudit_queue haudit]
    exact htells

theorem Mutation.run_tells {ρ : Type} {occasion? : ρ → ρ → Option Occasion} {m : Mutation ρ}
    (ht : m.table.Tells occasion?) {p : MutationParams} {r : ρ} (h : m.run v p c = .ok (r, c'))
    (hrow : r ∈ m.table.rows c'.toStore) : c'.Tells c.queue c'.queue := by
  obtain ⟨⟨requestId, publicId⟩, -, h⟩ := bind_eq_ok.1 h
  obtain ⟨old, -, h⟩ := bind_eq_ok.1 h
  cases hfind : (m.table.requests c.toStore).find? (·.requestId = requestId) with
  | some q =>
    simp only [hfind, bind_eq_ok, pure_eq_ok, Prod.mk.injEq] at h
    obtain ⟨-, -, -, rfl⟩ := h
    exact .refl _ _
  | none =>
    simp only [hfind, perform, bind_eq_ok, pure_eq_ok, Prod.mk.injEq] at h
    obtain ⟨_, -, ⟨new, c₁⟩, hsettle, c₂, haudit, rfl, rfl⟩ := h
    rw [Center.appendAudit_queue haudit]
    change c₂.Tells c.queue c₁.queue
    unfold settle at hsettle
    split at hsettle
    next =>
      obtain ⟨-, rfl⟩ := Prod.mk.inj (Except.ok.inj hsettle)
      exact .refl _ _
    next =>
      simp only [bind_eq_ok, pure_eq_ok, Prod.mk.injEq] at hsettle
      obtain ⟨_, -, _, hupdate, rfl, rfl⟩ := hsettle
      exact Table.update_tells ht hupdate hrow

theorem noticeMutation_tells {m : Mutation MaintenanceNotice} {p : MutationParams}
    {r : MaintenanceNotice} (hm : m = publishMaintenance ∨ m = cancelMaintenance)
    (h : m.run v p c = .ok (r, c')) : c'.Tells c.queue c'.queue := by
  obtain ⟨requestId, publicId, x, -, hx, ⟨q, -, -, -, -, rfl⟩ | ⟨-, hperformed⟩⟩ :=
    Mutation.run_eq_ok h
  · exact .refl _ _
  · have htable : m.table = maintenanceTable := by rcases hm with rfl | rfl <;> rfl
    refine Mutation.run_tells (by rw [htable]; exact maintenanceTable_tells) h ?_
    obtain ⟨-, rows, hafter, hstore⟩ := noticeMutation_store hm hperformed
    rw [htable] at hx ⊢
    rw [hstore]
    exact hafter.mem (find?_key_eq_some hx).1

theorem announcementMutation_tells {m : Mutation Announcement} {p : MutationParams}
    {r : Announcement} (hm : m = publishAnnouncement ∨ m = archiveAnnouncement)
    (h : m.run v p c = .ok (r, c')) : c'.Tells c.queue c'.queue := by
  obtain ⟨requestId, publicId, x, -, hx, ⟨q, -, -, -, -, rfl⟩ | ⟨-, hperformed⟩⟩ :=
    Mutation.run_eq_ok h
  · exact .refl _ _
  · have htable : m.table = announcementTable := by rcases hm with rfl | rfl <;> rfl
    refine Mutation.run_tells (by rw [htable]; exact announcementTable_tells) h ?_
    obtain ⟨-, rows, hafter, hstore⟩ := announcementMutation_store hm hperformed
    rw [htable] at hx ⊢
    rw [hstore]
    exact hafter.mem (find?_key_eq_some hx).1

theorem createStatusMaintenance_queue {p : MaintenanceParams} {m : MaintenanceNotice}
    (h : createStatusMaintenance v p c = .ok (m, c')) : c'.queue = c.queue := by
  obtain ⟨key, -, h⟩ := bind_eq_ok.1 h
  refine Table.createOnce_queue h fun h => ?_
  simp only [MaintenanceParams.create, bind_eq_ok, pure_eq_ok, Prod.mk.injEq] at h
  obtain ⟨_, -, _, hinsert, _, haudit, -, rfl⟩ := h
  rw [Center.appendAudit_queue haudit, Table.insert_queue hinsert]

theorem createStatusAnnouncement_queue {p : AnnouncementParams} {a : Announcement}
    (h : createStatusAnnouncement v p c = .ok (a, c')) : c'.queue = c.queue := by
  obtain ⟨key, -, h⟩ := bind_eq_ok.1 h
  refine Table.createOnce_queue h fun h => ?_
  simp only [AnnouncementParams.create, bind_eq_ok, pure_eq_ok, Prod.mk.injEq] at h
  obtain ⟨_, -, _, hinsert, _, haudit, -, rfl⟩ := h
  rw [Center.appendAudit_queue haudit, Table.insert_queue hinsert]

/-- **The events a call adds are of occasions that have come with it.** -/
theorem Request.perform_tells (hs : c.Sound) {r : Request} {publicId : String}
    (h : r.perform v c = .ok (publicId, c')) : c'.Tells c.queue c'.queue := by
  have hqueue : c'.queue = c.queue → c'.Tells c.queue c'.queue := by
    intro hqueue
    rw [hqueue]
    exact .refl _ _
  cases r with
  | createIncident p =>
    obtain ⟨⟨i, _⟩, hcall, rfl, rfl⟩ := by simpa only [perform, map_eq_ok, Prod.mk.injEq] using h
    exact hqueue (createStatusIncident_queue hcall)
  | publishIncident p =>
    obtain ⟨⟨i, _⟩, hcall, rfl, rfl⟩ := by simpa only [perform, map_eq_ok, Prod.mk.injEq] using h
    exact publishStatusIncident_tells hs hcall
  | appendIncidentUpdate p =>
    obtain ⟨⟨i, _⟩, hcall, rfl, rfl⟩ := by simpa only [perform, map_eq_ok, Prod.mk.injEq] using h
    exact appendStatusIncidentUpdate_tells hs hcall
  | createMaintenance p =>
    obtain ⟨⟨i, _⟩, hcall, rfl, rfl⟩ := by simpa only [perform, map_eq_ok, Prod.mk.injEq] using h
    exact hqueue (createStatusMaintenance_queue hcall)
  | publishMaintenance p =>
    obtain ⟨⟨i, _⟩, hcall, rfl, rfl⟩ := by simpa only [perform, map_eq_ok, Prod.mk.injEq] using h
    exact noticeMutation_tells (.inl rfl) hcall
  | cancelMaintenance p =>
    obtain ⟨⟨i, _⟩, hcall, rfl, rfl⟩ := by simpa only [perform, map_eq_ok, Prod.mk.injEq] using h
    exact noticeMutation_tells (.inr rfl) hcall
  | createAnnouncement p =>
    obtain ⟨⟨i, _⟩, hcall, rfl, rfl⟩ := by simpa only [perform, map_eq_ok, Prod.mk.injEq] using h
    exact hqueue (createStatusAnnouncement_queue hcall)
  | publishAnnouncement p =>
    obtain ⟨⟨i, _⟩, hcall, rfl, rfl⟩ := by simpa only [perform, map_eq_ok, Prod.mk.injEq] using h
    exact announcementMutation_tells (.inl rfl) hcall
  | archiveAnnouncement p =>
    obtain ⟨⟨i, _⟩, hcall, rfl, rfl⟩ := by simpa only [perform, map_eq_ok, Prod.mk.injEq] using h
    exact announcementMutation_tells (.inr rfl) hcall

/-! ## Runs -/

/-- What holds of the tables at any time. -/
structure Center.Consistent (c : Center) : Prop where
  sound : c.Sound
  begun : c.Begun
  told : c.Told

theorem Center.step_consistent (hc : c.Consistent) (x : Call) : (c.step x).Consistent := by
  unfold step
  split
  next publicId c' h =>
    have hwritten := Request.perform_written h
    exact ⟨(hwritten.preserves hc.sound).1, hwritten.begun hc.begun,
      hc.told.step (hwritten.leads hc.sound) (Request.perform_tells hc.sound h)⟩
  next => exact hc

theorem Center.run_consistent (t : ℤ) (calls : List Call) :
    ((Center.initial t).run calls).Consistent :=
  Runs.run_invariant (P := Center.Consistent) (fun _ x hc => Center.step_consistent hc x)
    ⟨Store.empty_sound, Store.empty_begun, fun _ he => absurd he List.not_mem_nil⟩ calls

end Calls

end

end IvrmDashboard.StatusCenter
