import IvrmDashboard.Notifications.StatusSteps
import IvrmDashboard.StatusCenter.Calls

/-!
# The occasions of status notifications

An event tells of an occasion: an incident has been published, resolved or given an update, a
maintenance published or cancelled, an announcement published. Its key names the occasion, and
different occasions have different keys (`key_inj`). What a row that passes its constraints says is
in the limits of an event (`content?_params`), so an event under a new key is always stored
(`notify_commits`).
-/

namespace IvrmDashboard.StatusCenter

open Sql Notifications

/-! ## Occasions -/

/-- What is announced. -/
inductive Occasion
  | incidentPublished (publicId : String)
  | incidentResolved (publicId : String)
  | incidentUpdated (publicId : String) (requestId : Uuid)
  | maintenancePublished (publicId : String)
  | maintenanceCancelled (publicId : String)
  | announcementPublished (publicId : String)

namespace Occasion

def eventType : Occasion → StatusEventType
  | incidentPublished _ => .incidentPublished
  | incidentResolved _ => .incidentResolved
  | incidentUpdated _ _ => .incidentUpdatePublished
  | maintenancePublished _ => .maintenancePublished
  | maintenanceCancelled _ => .maintenanceCancelled
  | announcementPublished _ => .announcementPublished

def source : Occasion → StatusSource
  | incidentPublished _ | incidentResolved _ | incidentUpdated _ _ => .incident
  | maintenancePublished _ | maintenanceCancelled _ => .maintenance
  | announcementPublished _ => .announcement

def publicId : Occasion → String
  | incidentPublished p | incidentResolved p | incidentUpdated p _ => p
  | maintenancePublished p | maintenanceCancelled p => p
  | announcementPublished p => p

/-- The end of the key. -/
def suffix : Occasion → String
  | incidentPublished _ | maintenancePublished _ | announcementPublished _ => ":published"
  | incidentResolved _ => ":resolved"
  | incidentUpdated _ requestId => ":update:" ++ requestId.text
  | maintenanceCancelled _ => ":cancelled"

end Occasion

/-- The beginning of the keys of a source. -/
def keyStart : StatusSource → String
  | .incident => "status:incident:"
  | .maintenance => "status:maintenance:"
  | .announcement => "status:announcement:"

namespace Occasion

variable {o o' : Occasion}

def key (o : Occasion) : String := keyStart o.source ++ o.publicId ++ o.suffix

/-- The object has a public id of its kind. -/
def Named (o : Occasion) : Prop := o.source.publicIdOk o.publicId = true

theorem length_publicId (ho : o.Named) : o.publicId.toList.length = 16 := by
  simp only [Named, StatusSource.publicIdOk, Bool.and_eq_true, decide_eq_true_eq] at ho
  rw [String.length_toList]
  exact ho.1.1

/-- The eighth character of a key tells the source. -/
theorem source_eq_of_key (h : o.key.toList = o'.key.toList) : o.source = o'.source := by
  have heighth : ∀ (s : StatusSource) (l : List Char),
      ((keyStart s).toList ++ l)[7]? = (keyStart s).toList[7]? := by
    intro s l
    exact List.getElem?_append_left (by cases s <;> decide)
  have hchar := congrArg (·[7]?) h
  simp only [key, String.toList_append, List.append_assoc, heighth] at hchar
  revert hchar
  cases o.source <;> cases o'.source <;> decide

theorem update_ne {requestId : Uuid} {s : String} (h : s.toList[1]? ≠ some 'u') :
    (":update:" ++ requestId.text).toList ≠ s.toList := by
  intro heq
  rw [← heq, String.toList_append] at h
  exact h rfl

/-- **Different occasions have different keys.** -/
theorem key_inj (ho : o.Named) (ho' : o'.Named) (h : o.key = o'.key) : o = o' := by
  have hlist := congrArg String.toList h
  have hsource := source_eq_of_key hlist
  simp only [key, String.toList_append, List.append_assoc, hsource] at hlist
  rw [List.append_cancel_left_eq] at hlist
  obtain ⟨hpublicId, hsuffix⟩ :=
    List.append_inj hlist ((length_publicId ho).trans (length_publicId ho').symm)
  have hpublicId := String.toList_injective hpublicId
  have hresolved : ":published".toList ≠ ":resolved".toList := by decide
  have hcancelled : ":published".toList ≠ ":cancelled".toList := by decide
  have hupdate : ∀ r : Uuid, (":update:" ++ r.text).toList ≠ ":published".toList := fun r =>
    update_ne (by decide)
  have hupdate' : ∀ r : Uuid, (":update:" ++ r.text).toList ≠ ":resolved".toList := fun r =>
    update_ne (by decide)
  cases o with
  | incidentPublished p =>
    cases o' with
    | incidentPublished p' => exact congrArg _ hpublicId
    | incidentResolved p' => exact absurd hsuffix hresolved
    | incidentUpdated p' r => exact absurd hsuffix.symm (hupdate r)
    | _ => exact nomatch hsource
  | incidentResolved p =>
    cases o' with
    | incidentPublished p' => exact absurd hsuffix.symm hresolved
    | incidentResolved p' => exact congrArg _ hpublicId
    | incidentUpdated p' r => exact absurd hsuffix.symm (hupdate' r)
    | _ => exact nomatch hsource
  | incidentUpdated p r =>
    cases o' with
    | incidentPublished p' => exact absurd hsuffix (hupdate r)
    | incidentResolved p' => exact absurd hsuffix (hupdate' r)
    | incidentUpdated p' r' =>
      simp only [suffix, String.toList_append, List.append_cancel_left_eq] at hsuffix
      rw [Uuid.text_inj (String.toList_injective hsuffix)]
      exact congrArg (incidentUpdated · r') hpublicId
    | _ => exact nomatch hsource
  | maintenancePublished p =>
    cases o' with
    | maintenancePublished p' => exact congrArg _ hpublicId
    | maintenanceCancelled p' => exact absurd hsuffix hcancelled
    | _ => exact nomatch hsource
  | maintenanceCancelled p =>
    cases o' with
    | maintenancePublished p' => exact absurd hsuffix.symm hcancelled
    | maintenanceCancelled p' => exact congrArg _ hpublicId
    | _ => exact nomatch hsource
  | announcementPublished p =>
    cases o' with
    | announcementPublished p' => exact congrArg _ hpublicId
    | _ => exact nomatch hsource

end Occasion

/-! ## Events -/

theorem eventKeyChar_of_publicIdOk {source : StatusSource} {s : String}
    (h : source.publicIdOk s = true) : s.toList.all eventKeyChar = true := by
  simp only [StatusSource.publicIdOk, Bool.and_eq_true] at h
  obtain ⟨⟨-, hstart⟩, hrest⟩ := h
  obtain ⟨rest, hs⟩ := List.isPrefixOf_iff_prefix.1 hstart
  have hdrop : s.toList.drop 4 = rest := by
    rw [← hs]
    exact List.drop_left' (by cases source <;> rfl)
  have hprefix : source.idPrefix.toList.all eventKeyChar = true := by cases source <;> decide
  rw [hdrop] at hrest
  rw [← hs, List.all_append, hprefix, Bool.true_and]
  refine List.all_eq_true.2 fun c hc => ?_
  have hchar := List.all_eq_true.1 hrest c hc
  simp only [Bool.or_eq_true, Bool.and_eq_true, decide_eq_true_eq] at hchar
  simp only [eventKeyChar, Bool.or_eq_true]
  rcases hchar with hchar | ⟨hle, hge⟩
  · exact .inl (.inr hchar)
  · refine .inl (.inl (.inl ?_))
    have hz : 'F' ≤ 'Z' := by decide
    simp only [Text.upperAlpha, Bool.and_eq_true, decide_eq_true_eq]
    exact ⟨hle, Char.le_trans hge hz⟩

theorem eventKeyChar_uuid (u : Uuid) : u.text.toList.all eventKeyChar = true := by
  refine List.all_eq_true.2 fun c hc => ?_
  rcases Uuid.hexDigit_or_dash_of_mem_text hc with hhex | rfl
  · simp only [Text.hexDigit, Bool.or_eq_true, Bool.and_eq_true, decide_eq_true_eq] at hhex
    simp only [eventKeyChar, Bool.or_eq_true]
    rcases hhex with hhex | ⟨hle, hge⟩
    · exact .inl (.inr hhex)
    · refine .inl (.inl (.inr ?_))
      have hz : 'f' ≤ 'z' := by decide
      simp only [Text.lowerAlpha, Bool.and_eq_true, decide_eq_true_eq]
      exact ⟨hle, Char.le_trans hge hz⟩
  · decide

namespace Occasion

variable {o : Occasion}

theorem suffix_ok (o : Occasion) :
    o.suffix.toList.all eventKeyChar = true ∧ o.suffix.length ≤ 44 := by
  have hfixed : ∀ s ∈ [":published", ":resolved", ":cancelled"],
      s.toList.all eventKeyChar = true ∧ s.length ≤ 44 := by decide
  cases o with
  | incidentUpdated p r =>
    have hstart : ":update:".toList.all eventKeyChar = true := by decide
    have hlength : ":update:".length = 8 := rfl
    rw [suffix, String.toList_append, List.all_append, hstart, eventKeyChar_uuid,
      String.length_append, Uuid.length_text, hlength]
    exact ⟨rfl, le_rfl⟩
  | _ => exact hfixed _ (by simp [suffix])

theorem key_ok (ho : o.Named) :
    (Text.lengthBetween 1 256 o.key && Text.matchesPlus eventKeyChar o.key) = true := by
  obtain ⟨hchars, hlength⟩ := o.suffix_ok
  have hid := length_publicId ho
  rw [String.length_toList] at hid
  have hstart : (keyStart o.source).toList.all eventKeyChar = true ∧
      1 ≤ (keyStart o.source).length ∧ (keyStart o.source).length ≤ 20 := by
    cases o.source <;> decide
  have hkey : o.key.length = (keyStart o.source).length + o.publicId.length + o.suffix.length := by
    rw [key, String.length_append, String.length_append]
  have hne : o.key ≠ "" := by
    intro hempty
    rw [hempty] at hkey
    have hzero : "".length = 0 := rfl
    omega
  simp only [Text.lengthBetween, Text.matchesPlus, Bool.and_eq_true, decide_eq_true_eq]
  refine ⟨⟨by omega, by omega⟩, hne, ?_⟩
  rw [key, String.toList_append, String.toList_append, List.all_append, List.all_append, hstart.1,
    eventKeyChar_of_publicIdOk ho, hchars]
  rfl

/-- What is said of an occasion. -/
def params (o : Occasion) (title message severity : String) (occurredAt : Timestamptz) :
    StatusEventParams where
  eventKey := some o.key
  eventType := some o.eventType.text
  sourceType := some o.source.text
  sourcePublicId := some o.publicId
  title := some title
  message := some message
  detailHref := some "/status-center"
  severity := some severity
  occurredAt := some occurredAt

/-- What the tables say is in the limits of an event. -/
theorem content?_params (ho : o.Named) {title message severity : String} {occurredAt : Timestamptz}
    (htitle : titleOk title = true) (hmessage : bodyOk 4000 message = true)
    (hseverity : (statusSeverity? severity).isSome = true) :
    ∃ content, (o.params title message severity occurredAt).content? = some (o.key, content) := by
  obtain ⟨level, hlevel⟩ := Option.isSome_iff_exists.1 hseverity
  have htype : StatusEventType.ofText? o.eventType.text = some o.eventType := by
    cases o.eventType <;> decide
  have hsource : StatusSource.ofText? o.source.text = some o.source := by
    cases o.source <;> decide
  have hhref : relativeHrefOk "/status-center" = true := by decide
  have hid : o.source.publicIdOk o.publicId = true := ho
  have hkey := key_ok ho
  rw [titleOk, Bool.and_eq_true, beq_iff_eq] at htitle
  rw [bodyOk, Bool.and_eq_true, beq_iff_eq] at hmessage
  have htitle' : (Text.lengthBetween 1 160 title && decide (title = Text.btrim title)) = true := by
    rw [Bool.and_eq_true, decide_eq_true_eq]
    exact htitle
  have hmessage' :
      (Text.lengthBetween 1 4000 message && decide (message = Text.btrim message)) = true := by
    rw [Bool.and_eq_true, decide_eq_true_eq]
    exact hmessage
  refine ⟨⟨o.eventType, o.source, o.publicId, title, message, "/status-center", level,
    occurredAt⟩, ?_⟩
  simp only [StatusEventParams.content?, params, Option.filter_some, hkey, hid, htitle', hmessage',
    hhref, if_true, Option.bind_some, htype, hsource, hlevel, bind]

end Occasion

theorem delivery_checked (c : Channel) (e : Env) (eventId : ℕ) (occurredAt : Timestamptz) (id : ℕ) :
    (c.delivery e eventId occurredAt id).Checked := by
  have hreason : ∀ s ∈ c.initialSuppression (e.settings.statusSuppressionReason occurredAt),
      Text.lengthBetween 1 256 s = true := by
    intro s hs
    simp only [Channel.initialSuppression, Settings.statusSuppressionReason] at hs
    repeat' split at hs
    all_goals first
      | (obtain rfl := Option.mem_some_iff.1 hs; decide)
      | exact absurd hs (Option.not_mem_none _)
  intro check hcheck
  cases hnone : c.initialSuppression (e.settings.statusSuppressionReason occurredAt) with
  | none =>
    simp only [StatusDelivery.checks, Channel.delivery, hnone] at hcheck
    revert check
    decide
  | some s =>
    have hs := hreason s hnone
    simp only [StatusDelivery.checks, Channel.delivery, hnone] at hcheck
    simp only [List.mem_cons, List.not_mem_nil, or_false] at hcheck
    rcases hcheck with rfl | rfl | rfl | rfl | rfl | rfl | rfl <;> first | rfl | exact hs

namespace Center

variable {v : Invocation} {c c' : Center}

/-- An event under a new key is stored, with its deliveries. -/
theorem notify_commits {p : StatusEventParams} {key : String} {content : StatusContent}
    (hp : p.content? = some (key, content)) (hnew : ∀ e ∈ c.queue.events, e.eventKey ≠ key) :
    ∃ c', c.notify v p = .ok c' := by
  have hnone : c.queue.events.find? (·.eventKey = key) = none := find?_key_eq_none.2 hnew
  have hcreate : Commits (createStatusNotificationEvent ⟨v.clock, v.settings⟩ p c.queue) := by
    refine (commits_bind (orRaise_eq_ok.2 hp)).2 ?_
    dsimp only
    rw [hnone]
    refine (commits_bind (a := ()) (checkAll_eq_ok.2 fun check hcheck => ?_)).2 (commits_pure _)
    obtain ⟨d, hd, hcheck⟩ := List.mem_flatMap.1 hcheck
    obtain ⟨channel, -, k, -, -, rfl⟩ := mem_fanOut hd
    exact delivery_checked _ _ _ _ _ check hcheck
  obtain ⟨r, hr⟩ := hcreate
  exact ⟨_, bind_eq_ok.2 ⟨r, hr, rfl⟩⟩

theorem notify_events {p : StatusEventParams} {key : String} {content : StatusContent}
    (hp : p.content? = some (key, content)) (h : c.notify v p = .ok c') {e : StatusEvent}
    (he : e ∈ c'.queue.events) : e ∈ c.queue.events ∨ e.eventKey = key := by
  obtain ⟨⟨n, queue⟩, hcreate, hc⟩ := bind_eq_ok.1 h
  obtain rfl := Except.ok.inj hc
  obtain ⟨key', content', hp', hcases⟩ := createStatusNotificationEvent_eq_ok hcreate
  obtain ⟨rfl, rfl⟩ := Prod.mk.inj (Option.some.inj (hp.symm.trans hp'))
  rcases hcases with ⟨-, -, -, -, -, rfl⟩ | ⟨-, -, rfl, -⟩
  · exact .inl he
  · rcases List.mem_append.1 he with he | he
    · exact .inl he
    · obtain rfl := List.mem_singleton.1 he
      exact .inr rfl

theorem appendAudit_queue [Server] {requestId : Uuid} {a : Actor}
    {action targetType publicId : String} {fields : List (String × Jsonb)}
    (h : c.appendAudit v requestId a action targetType publicId fields = .ok c') :
    c'.queue = c.queue := by
  simp only [appendAudit, bind_eq_ok, pure_eq_ok] at h
  obtain ⟨-, -, rfl⟩ := h
  rfl

end Center

end IvrmDashboard.StatusCenter
