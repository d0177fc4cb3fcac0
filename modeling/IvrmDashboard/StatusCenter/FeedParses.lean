import IvrmDashboard.StatusCenter.FeedReader
import IvrmDashboard.StatusCenter.PublicLife

/-!
# What the reader makes of the feed

The reader and the tables agree on every field but four: the reader counts UTF-16 units where the
constraints count code points, it takes at most 500 updates of an incident, it takes no services in
more than one dimension, and it reads the years from 1 to 9999 only. The feed is read, and comes
back as it was, if and only if no row it lists goes beyond one of these (`feed_parses_iff`).
-/

namespace IvrmDashboard.StatusCenter

open Sql Notifications

/-! ## What can be read -/

/-- The year of an instant has four digits and is one of our era. -/
def ReadableInstant (t : ℤ) : Prop :=
  1 ≤ (Field.dateOf t).year ∧ (Field.dateOf t).year ≤ 9999

/-- A finite timestamp of a readable year. -/
def ReadableTime (x : Timestamptz) : Prop := ∃ t, x = .ofInstant t ∧ ReadableInstant t

/-- The text of a timestamp inside `jsonb`. -/
def timeText : Timestamptz → String
  | none => "-infinity"
  | some none => "infinity"
  | some (some t) => jsonTimestamptz t

theorem toJsonb_eq_timeText (x : Timestamptz) : x.toJsonb = .str (timeText x) := by
  match x with
  | none => rfl
  | some none => rfl
  | some (some t) => rfl

/-- The services of an array, those that are `NULL` left out. -/
def serviceTexts (a : TextArray) : List String := a.elements.filterMap id

namespace PublicFeed

/-! ## Fields -/

theorem text_str {s label r : String} {max : ℕ} :
    text (some (.str s)) label max = .ok r ↔ (1 ≤ Js.length s ∧ Js.length s ≤ max) ∧ r = s := by
  rw [text, string?, Js.orThrow_eq_ok, Option.filter_eq_some_iff]
  simp only [Option.some.injEq, Bool.and_eq_true, decide_eq_true_eq]
  constructor
  · rintro ⟨rfl, h⟩
    exact ⟨h, rfl⟩
  · rintro ⟨h, rfl⟩
    exact ⟨rfl, h⟩

/-- A text that passes its constraint. -/
theorem text_checked {s label r : String} {lo hi max : ℕ} (hlo : 1 ≤ lo)
    (h : Text.lengthBetween lo hi s = true) :
    text (some (.str s)) label max = .ok r ↔ Js.length s ≤ max ∧ r = s := by
  simp only [Text.lengthBetween, Bool.and_eq_true, decide_eq_true_eq] at h
  have hpos : 1 ≤ Js.length s := hlo.trans (h.1.trans (Js.length_bounds s).1)
  rw [text_str, and_iff_right hpos]

theorem instant_str {s label r : String} :
    instant (some (.str s)) label = .ok r ↔
      (1 ≤ Js.length s ∧ Js.length s ≤ 64) ∧ Js.dateTime s = true ∧ r = s := by
  simp only [instant, Js.bind_eq_ok, text_str, Js.throwIf_eq_ok, Bool.not_eq_false', Js.pure_eq_ok]
  constructor
  · rintro ⟨_, ⟨hlength, rfl⟩, _, hdate, rfl⟩
    exact ⟨hlength, hdate, rfl⟩
  · rintro ⟨hlength, hdate, rfl⟩
    exact ⟨r, ⟨hlength, rfl⟩, (), hdate, rfl⟩

theorem instant_instantJson {t : ℤ} {label r : String} :
    instant (some (instantJson t)) label = .ok r ↔ ReadableInstant t ∧ r = jsonTimestamptz t := by
  rw [instantJson, instant_str, dateTime_jsonTimestamptz]
  constructor
  · rintro ⟨-, hyear, rfl⟩
    exact ⟨hyear, rfl⟩
  · rintro ⟨hyear, rfl⟩
    have hlength := length_jsonTimestamptz_le (w := 4) (by omega) hyear.1
      (Int.lt_add_one_of_le hyear.2)
    have hbounds := Js.length_bounds (jsonTimestamptz t)
    have hpos : 1 ≤ (jsonTimestamptz t).length := by
      rw [← String.length_toList, toList_jsonTimestamptz]
      simp only [List.length_append, List.length_cons]
      omega
    exact ⟨⟨by omega, by omega⟩, hyear, rfl⟩

theorem instant_toJsonb {x : Timestamptz} {label r : String} :
    instant (some x.toJsonb) label = .ok r ↔ ReadableTime x ∧ r = timeText x := by
  rw [toJsonb_eq_timeText]
  match x with
  | none =>
    refine instant_str.trans (iff_of_false ?_ ?_)
    · rintro ⟨-, hdate, -⟩
      exact absurd hdate (by decide)
    · rintro ⟨⟨t, ht, -⟩, -⟩
      cases ht
  | some none =>
    refine instant_str.trans (iff_of_false ?_ ?_)
    · rintro ⟨-, hdate, -⟩
      exact absurd hdate (by decide)
    · rintro ⟨⟨t, ht, -⟩, -⟩
      cases ht
  | some (some t) =>
    refine instant_instantJson.trans (and_congr_left' ?_)
    constructor
    · intro h
      exact ⟨t, rfl, h⟩
    · rintro ⟨u, hu, h⟩
      rwa [Timestamptz.ofInstant_inj.1 hu]

/-- A value that is `null` or read. -/
theorem optionalInstant_ofOption {α : Type} {f : α → Jsonb} {P : α → Prop} {name : α → String}
    (hnull : ∀ a, f a ≠ .null)
    (h : ∀ a label r, instant (some (f a)) label = .ok r ↔ P a ∧ r = name a) {o : Option α}
    {label : String} {r : Option String} :
    optionalInstant (some (.ofOption f o)) label = .ok r ↔ (∀ a ∈ o, P a) ∧ r = o.map name := by
  cases o with
  | none => simp [optionalInstant, Jsonb.ofOption, eq_comm]
  | some a =>
    have hread : optionalInstant (some (f a)) label = (instant (some (f a)) label).map some := by
      unfold optionalInstant
      split
      next heq => exact absurd (Option.some.inj heq) (hnull a)
      next => rfl
    rw [Jsonb.ofOption, hread]
    cases hvalue : instant (some (f a)) label with
    | error e =>
      have hno : ¬ P a := by
        intro ha
        have := (h a label (name a)).2 ⟨ha, rfl⟩
        rw [hvalue] at this
        cases this
      simp [Except.map, hno]
    | ok s =>
      obtain ⟨ha, rfl⟩ := (h a label s).1 hvalue
      simp [Except.map, ha, eq_comm]

theorem enumValue_str {α : Type} {values : List α} {name : α → String} {label : String} {a r : α}
    (h : values.find? (name · == name a) = some a) :
    enumValue (some (.str (name a))) values name label = .ok r ↔ r = a := by
  rw [enumValue, string?, Option.bind_some, h, Js.orThrow_eq_ok, Option.some.injEq, eq_comm]

theorem publicId_str {source : StatusSource} {s r : String} (h : source.publicIdOk s = true) :
    publicId (some (.str s)) source = .ok r ↔ r = s := by
  have hparts := h
  simp only [StatusSource.publicIdOk, Bool.and_eq_true, decide_eq_true_eq] at hparts
  have hlength := Js.length_bounds s
  have htest : publicIdTest s = true := by
    cases source <;> simp [publicIdTest, h]
  simp only [publicId, Js.bind_eq_ok, text_str, Js.throwIf_eq_ok, Js.pure_eq_ok, Bool.or_eq_false_iff,
    Bool.not_eq_false']
  constructor
  · rintro ⟨_, ⟨-, rfl⟩, _, -, rfl⟩
    rfl
  · rintro rfl
    exact ⟨r, ⟨⟨by omega, by omega⟩, rfl⟩, (), ⟨htest, hparts.1.2⟩, rfl⟩

theorem serviceId_str {s r : String} :
    serviceId (.str s) = .ok r ↔ serviceIdMatches s = true ∧ r = s := by
  rw [serviceId, string?, Js.orThrow_eq_ok, Option.filter_eq_some_iff, Option.some.injEq]
  constructor
  · rintro ⟨rfl, h⟩
    exact ⟨h, rfl⟩
  · rintro ⟨h, rfl⟩
    exact ⟨rfl, h⟩

/-- Services in one dimension. -/
theorem services_ofList {l r : List String} (hlength : l.length ≤ 32)
    (hmatches : ∀ s ∈ l, serviceIdMatches s = true) (hdedup : l.dedup.length = l.length) :
    services (some (.arr (l.map .str))) = .ok r ↔ r = l := by
  have hitems : ∀ ss, (l.map Jsonb.str).mapM serviceId = .ok ss ↔ ss = l := by
    intro ss
    rw [Js.mapM_eq_ok (fun s _ c => serviceId_str) ss, and_iff_right hmatches, List.map_id']
  have harray : (items? (some (.arr (l.map .str)))).filter (fun items => items.length ≤ 32) =
      some (l.map .str) := by
    simp [items?, Option.filter, hlength]
  simp only [services, harray, Js.bind_eq_ok, Js.orThrow_eq_ok, Js.throwIf_eq_ok, Js.pure_eq_ok,
    decide_eq_false_iff_not, not_not]
  constructor
  · rintro ⟨items, heq, ss, hss, -, -, rfl⟩
    rw [← Option.some.inj heq] at hss
    exact (hitems ss).1 hss
  · rintro rfl
    exact ⟨_, rfl, r, (hitems r).2 rfl, (), hdedup, rfl⟩

/-- **Services in more dimensions are not read.** -/
theorem services_toJsonb {a : TextArray} {r : List String}
    (h : statusServiceIdsValid (some a) = true) :
    services (some a.toJsonb) = .ok r ↔ a.outer = [] ∧ r = serviceTexts a := by
  simp only [statusServiceIdsValid, Bool.and_eq_true, decide_eq_true_eq, List.all_eq_true] at h
  obtain ⟨⟨⟨-, hlength⟩, hmatches⟩, hdedup⟩ := h
  by_cases houter : a.outer = []
  · have hnull : ∀ x ∈ a.elements, x ≠ none := by
      rintro x hx rfl
      simpa using hmatches none hx
    obtain ⟨l, rfl⟩ := TextArray.eq_ofList_of_flat houter hnull
    have htexts : serviceTexts (.ofList l) = l := by simp [serviceTexts, TextArray.ofList]
    rw [and_iff_right houter, htexts, TextArray.toJsonb_ofList]
    apply services_ofList
    · simpa [TextArray.cardinality, TextArray.ofList] using hlength
    · intro s hs
      have := hmatches (some s) (List.mem_map_of_mem hs)
      simp only [Option.any_some, Bool.and_eq_true] at this
      exact this.2
    · have hcard : (TextArray.ofList l).cardinality = l.length := by
        simp [TextArray.cardinality, TextArray.ofList]
      rw [hcard] at hdedup
      rw [hdedup]
      simp [TextArray.ofList]
  · obtain ⟨inner, rest, hnested⟩ := TextArray.toJsonb_of_nested houter
    rw [hnested]
    refine iff_of_false ?_ fun h => houter h.1
    simp only [services, Js.bind_eq_ok]
    rintro ⟨items, hitems, ss, hss, -⟩
    rw [Js.orThrow_eq_ok, Option.filter_eq_some_iff] at hitems
    obtain rfl := Option.some.inj hitems.1
    -- the first item is an array itself
    rw [List.mapM_cons, Js.bind_eq_ok] at hss
    obtain ⟨s, hs, -⟩ := hss
    cases hs

/-- Services in one dimension come back as they are. -/
theorem toJsonb_of_flat {a : TextArray} (h : statusServiceIdsValid (some a) = true)
    (houter : a.outer = []) : a.toJsonb = .arr ((serviceTexts a).map .str) := by
  simp only [statusServiceIdsValid, Bool.and_eq_true, List.all_eq_true] at h
  have hnull : ∀ x ∈ a.elements, x ≠ none := by
    rintro x hx rfl
    simpa using h.1.2 none hx
  obtain ⟨l, rfl⟩ := TextArray.eq_ofList_of_flat houter hnull
  rw [TextArray.toJsonb_ofList]
  simp [serviceTexts, TextArray.ofList]

theorem ofOption_map {α : Type} {f : α → Jsonb} {name : α → String}
    (h : ∀ a, f a = .str (name a)) (o : Option α) :
    Jsonb.ofOption .str (o.map name) = Jsonb.ofOption f o := by
  cases o with
  | none => rfl
  | some a => exact (h a).symm

theorem row_buildObject {fields : List (String × Jsonb)} {label : String} {v : Jsonb} :
    row (some (Jsonb.buildObject fields)) label = .ok v ↔ v = Jsonb.buildObject fields := by
  have hobject : (some (Jsonb.buildObject fields)).filter Jsonb.isObject =
      some (Jsonb.buildObject fields) := rfl
  rw [row, hobject, Js.orThrow_eq_ok, Option.some.injEq, eq_comm]

end PublicFeed

/-! ## Updates and incidents -/

namespace IncidentUpdate

/-- The reader takes the update. -/
structure Readable (u : IncidentUpdate) : Prop where
  message : Js.length u.message ≤ 2000
  publishedAt : ReadableInstant u.publishedAt

/-- The update as it is read. -/
def shown (u : IncidentUpdate) : PublicStatusIncidentUpdate :=
  ⟨u.lifecycleStatus, u.message, jsonTimestamptz u.publishedAt⟩

theorem json_shown (u : IncidentUpdate) : u.shown.json = u.item := rfl

theorem lengthBetween_message {u : IncidentUpdate} (h : Checked u.checks) :
    Text.lengthBetween 1 2000 u.message = true := by
  simp only [checks, checked_cons, bodyOk, Bool.and_eq_true] at h
  exact h.1.1

theorem parse_item {u : IncidentUpdate} (h : Checked u.checks) {r : PublicStatusIncidentUpdate} :
    PublicFeed.parseUpdate u.item = .ok r ↔ u.Readable ∧ r = u.shown := by
  have hstatus : ∀ label s, PublicFeed.enumValue (some (.str u.lifecycleStatus.text)) Lifecycle.all
      Lifecycle.text label = .ok s ↔ s = u.lifecycleStatus := by
    intro label s
    apply PublicFeed.enumValue_str
    cases u.lifecycleStatus <;> decide
  simp only [PublicFeed.parseUpdate, item, Js.bind_eq_ok, PublicFeed.row_buildObject,
    exists_eq_left, Jsonb.get?_buildObject]
  simp [List.lookup_cons, hstatus, PublicFeed.text_checked (le_refl 1) (lengthBetween_message h),
    PublicFeed.instant_instantJson]
  constructor
  · rintro ⟨hmessage, htime, rfl⟩
    exact ⟨⟨hmessage, htime⟩, rfl⟩
  · rintro ⟨⟨hmessage, htime⟩, rfl⟩
    exact ⟨hmessage, htime, rfl⟩

end IncidentUpdate

namespace Incident

/-- The reader takes the incident with its timeline. -/
structure Readable (i : Incident) (timeline : List IncidentUpdate) : Prop where
  few : timeline.length ≤ 500
  title : Js.length i.title ≤ 160
  services : i.affectedServiceIds.outer = []
  startedAt : ReadableTime i.startedAt
  resolvedAt : ∀ t ∈ i.resolvedAt, ReadableInstant t
  updatedAt : ReadableInstant i.updatedAt
  summary : Js.length i.summary ≤ 2000
  updates : ∀ u ∈ timeline, u.Readable

/-- The incident as it is read. -/
def shown (i : Incident) (timeline : List IncidentUpdate) : PublicStatusIncident where
  publicId := i.publicId
  title := i.title
  status := i.lifecycleStatus
  impact := i.impact
  affectedServiceIds := serviceTexts i.affectedServiceIds
  startedAt := timeText i.startedAt
  resolvedAt := i.resolvedAt.map jsonTimestamptz
  updatedAt := jsonTimestamptz i.updatedAt
  summary := i.summary
  source := i.sourceType
  updates := timeline.map IncidentUpdate.shown

theorem parse_item {i : Incident} {timeline : List IncidentUpdate} (h : Checked i.checks)
    (hupdates : ∀ u ∈ timeline, Checked u.checks) {r : PublicStatusIncident} :
    PublicFeed.parseIncident (i.item timeline) = .ok r ↔
      i.Readable timeline ∧ r = i.shown timeline := by
  simp only [checks, checked_cons, bodyOk, titleOk, Bool.and_eq_true] at h
  obtain ⟨hpublicId, -, -, -, hservices, ⟨hsummary, -⟩, -, ⟨htitle, -⟩, -⟩ := h
  have hstatus : ∀ label s, PublicFeed.enumValue (some (.str i.lifecycleStatus.text)) Lifecycle.all
      Lifecycle.text label = .ok s ↔ s = i.lifecycleStatus := by
    intro label s
    apply PublicFeed.enumValue_str
    cases i.lifecycleStatus <;> decide
  have himpact : ∀ label s, PublicFeed.enumValue (some (.str i.impact.text)) Impact.all
      Impact.text label = .ok s ↔ s = i.impact := by
    intro label s
    apply PublicFeed.enumValue_str
    cases i.impact <;> decide
  have hsource : ∀ label s, PublicFeed.enumValue (some (.str i.sourceType.text))
      [SourceType.automatic, .manual] SourceType.text label = .ok s ↔ s = i.sourceType := by
    intro label s
    apply PublicFeed.enumValue_str
    cases i.sourceType <;> decide
  have hresolved : ∀ label r, PublicFeed.optionalInstant
      (some (.ofOption instantJson i.resolvedAt)) label = .ok r ↔
        (∀ t ∈ i.resolvedAt, ReadableInstant t) ∧ r = i.resolvedAt.map jsonTimestamptz := by
    intro label r
    exact PublicFeed.optionalInstant_ofOption (fun t => by simp [instantJson])
      fun t label r => PublicFeed.instant_instantJson
  have hitems : ∀ us, (timeline.map IncidentUpdate.item).mapM PublicFeed.parseUpdate = .ok us ↔
      (∀ u ∈ timeline, u.Readable) ∧ us = timeline.map IncidentUpdate.shown :=
    Js.mapM_eq_ok fun u hu r => IncidentUpdate.parse_item (hupdates u hu)
  have hfew : ∀ us, (PublicFeed.items? (some (.arr (timeline.map IncidentUpdate.item)))).filter
      (fun updates => updates.length ≤ 500) = some us ↔
        timeline.length ≤ 500 ∧ us = timeline.map IncidentUpdate.item := by
    intro us
    rw [PublicFeed.items?, Option.filter_eq_some_iff, Option.some.injEq]
    constructor
    · rintro ⟨rfl, hlength⟩
      exact ⟨by simpa using hlength, rfl⟩
    · rintro ⟨hlength, rfl⟩
      exact ⟨rfl, by simpa using hlength⟩
  simp only [PublicFeed.parseIncident, item, Js.bind_eq_ok, PublicFeed.row_buildObject,
    exists_eq_left, Jsonb.get?_buildObject]
  simp [-List.mapM_map, List.lookup_cons, hstatus, himpact, hsource, hresolved, hfew, hitems,
    PublicFeed.publicId_str hpublicId, PublicFeed.text_checked (le_refl 1) htitle,
    PublicFeed.text_checked (le_refl 1) hsummary, PublicFeed.services_toJsonb hservices,
    PublicFeed.instant_instantJson, PublicFeed.instant_toJsonb]
  constructor
  · rintro ⟨hfew, htitle, houter, hstarted, hresolved, hupdated, hsummary, hupdates, rfl⟩
    exact ⟨⟨hfew, htitle, houter, hstarted, hresolved, hupdated, hsummary, hupdates⟩, rfl⟩
  · rintro ⟨⟨hfew, htitle, houter, hstarted, hresolved, hupdated, hsummary, hupdates⟩, rfl⟩
    exact ⟨hfew, htitle, houter, hstarted, hresolved, hupdated, hsummary, hupdates, rfl⟩

theorem json_shown {i : Incident} {timeline : List IncidentUpdate} (h : Checked i.checks)
    (hreadable : i.Readable timeline) : (i.shown timeline).json = i.item timeline := by
  simp only [checks, checked_cons] at h
  obtain ⟨-, -, -, -, hservices, -⟩ := h
  rw [PublicStatusIncident.json, item, PublicFeed.toJsonb_of_flat hservices hreadable.services,
    toJsonb_eq_timeText, shown, List.map_map, PublicFeed.ofOption_map fun t => rfl]
  rfl

end Incident

/-! ## Maintenance notices -/

namespace MaintenanceNotice

/-- The reader takes the notice. -/
structure Readable (m : MaintenanceNotice) : Prop where
  title : Js.length m.title ≤ 160
  summary : Js.length m.body ≤ 4000
  services : m.affectedServiceIds.outer = []
  startsAt : ReadableTime m.startsAt
  endsAt : ReadableTime m.endsAt
  updatedAt : ReadableInstant m.updatedAt

/-- The state of a notice. -/
def state (now : Timestamptz) (m : MaintenanceNotice) : MaintenanceState :=
  if m.publicationState = .cancelled then .cancelled
  else if now < m.startsAt then .scheduled
  else if now < m.endsAt then .inProgress
  else .completed

theorem text_state (now : Timestamptz) (m : MaintenanceNotice) :
    (m.state now).text = m.publicState now := by
  unfold state publicState
  split_ifs <;> rfl

/-- The notice as it is read. -/
def shown (now : Timestamptz) (m : MaintenanceNotice) : PublicStatusMaintenance where
  publicId := m.publicId
  title := m.title
  summary := m.body
  affectedServiceIds := serviceTexts m.affectedServiceIds
  startsAt := timeText m.startsAt
  endsAt := timeText m.endsAt
  state := m.state now
  updatedAt := jsonTimestamptz m.updatedAt

theorem parse_item {now : Timestamptz} {m : MaintenanceNotice} (h : Checked m.checks)
    {r : PublicStatusMaintenance} :
    PublicFeed.parseMaintenance (m.item now) = .ok r ↔ m.Readable ∧ r = m.shown now := by
  simp only [checks, checked_cons, bodyOk, titleOk, Bool.and_eq_true] at h
  obtain ⟨⟨hbody, -⟩, -, hpublicId, -, -, hservices, -, ⟨htitle, -⟩, -⟩ := h
  have hstate : ∀ label s, PublicFeed.enumValue (some (.str (m.publicState now)))
      MaintenanceState.all MaintenanceState.text label = .ok s ↔ s = m.state now := by
    intro label s
    rw [← text_state]
    apply PublicFeed.enumValue_str
    cases m.state now <;> decide
  simp only [PublicFeed.parseMaintenance, item, Js.bind_eq_ok, PublicFeed.row_buildObject,
    exists_eq_left, Jsonb.get?_buildObject]
  simp [List.lookup_cons, hstate, PublicFeed.publicId_str hpublicId,
    PublicFeed.text_checked (le_refl 1) htitle, PublicFeed.text_checked (le_refl 1) hbody,
    PublicFeed.services_toJsonb hservices, PublicFeed.instant_instantJson,
    PublicFeed.instant_toJsonb]
  constructor
  · rintro ⟨htitle, hbody, houter, hstarts, hends, hupdated, rfl⟩
    exact ⟨⟨htitle, hbody, houter, hstarts, hends, hupdated⟩, rfl⟩
  · rintro ⟨⟨htitle, hbody, houter, hstarts, hends, hupdated⟩, rfl⟩
    exact ⟨htitle, hbody, houter, hstarts, hends, hupdated, rfl⟩

theorem json_shown {now : Timestamptz} {m : MaintenanceNotice} (h : Checked m.checks)
    (hreadable : m.Readable) : (m.shown now).json = m.item now := by
  simp only [checks, checked_cons] at h
  obtain ⟨-, -, -, -, -, hservices, -⟩ := h
  rw [PublicStatusMaintenance.json, item, PublicFeed.toJsonb_of_flat hservices hreadable.services,
    toJsonb_eq_timeText, toJsonb_eq_timeText, ← text_state]
  rfl

end MaintenanceNotice

/-! ## Announcements -/

namespace Announcement

/-- The reader takes the announcement. -/
structure Readable (a : Announcement) : Prop where
  title : Js.length a.title ≤ 160
  body : Js.length a.body ≤ 4000
  services : ∀ s ∈ a.affectedServiceIds, s.outer = []
  publishAt : ReadableTime a.publishAt
  expiresAt : ∀ e ∈ a.expiresAt, ReadableTime e

/-- The announcement as it is read. -/
def shown (now : Timestamptz) (a : Announcement) : PublicStatusAnnouncement where
  publicId := a.publicId
  kind := a.kind
  title := a.title
  body := a.body
  affectedServiceIds := (a.affectedServiceIds.map serviceTexts).getD []
  publishedAt := timeText a.publishAt
  expiresAt := a.expiresAt.map timeText
  active := a.active now

theorem services_item {a : Announcement} (h : Checked a.checks) {r : List String} :
    PublicFeed.services (some ((a.affectedServiceIds.map TextArray.toJsonb).getD (.arr []))) =
        .ok r ↔
      (∀ s ∈ a.affectedServiceIds, s.outer = []) ∧
        r = (a.affectedServiceIds.map serviceTexts).getD [] := by
  simp only [checks, checked_cons] at h
  obtain ⟨-, -, -, -, -, hservices, -⟩ := h
  cases hids : a.affectedServiceIds with
  | none =>
    rw [Option.map_none, Option.getD_none]
    refine (PublicFeed.services_ofList (l := []) (by simp) (by simp) (by simp)).trans ?_
    simp
  | some s =>
    rw [hids, Option.all_some] at hservices
    refine (PublicFeed.services_toJsonb hservices).trans ?_
    simp

theorem parse_item {now : Timestamptz} {a : Announcement} (h : Checked a.checks)
    {r : PublicStatusAnnouncement} :
    PublicFeed.parseAnnouncement (a.item now) = .ok r ↔ a.Readable ∧ r = a.shown now := by
  have hservices := fun r => services_item h (r := r)
  simp only [checks, checked_cons, bodyOk, titleOk, Bool.and_eq_true] at h
  obtain ⟨⟨hbody, -⟩, -, hpublicId, -, -, -, ⟨htitle, -⟩, -⟩ := h
  have hkind : ∀ label s, PublicFeed.enumValue (some (.str a.kind.text))
      [AnnouncementKind.info, .warning] AnnouncementKind.text label = .ok s ↔ s = a.kind := by
    intro label s
    apply PublicFeed.enumValue_str
    cases a.kind <;> decide
  have hexpires : ∀ label r, PublicFeed.optionalInstant
      (some (.ofOption Timestamptz.toJsonb a.expiresAt)) label = .ok r ↔
        (∀ e ∈ a.expiresAt, ReadableTime e) ∧ r = a.expiresAt.map timeText := by
    intro label r
    exact PublicFeed.optionalInstant_ofOption (fun x => by simp [toJsonb_eq_timeText])
      fun x label r => PublicFeed.instant_toJsonb
  simp only [PublicFeed.parseAnnouncement, item, content, List.cons_append, List.nil_append,
    Js.bind_eq_ok, PublicFeed.row_buildObject, exists_eq_left, Jsonb.get?_buildObject]
  simp [List.lookup_cons, PublicFeed.bool?, hkind, hexpires, hservices, PublicFeed.publicId_str hpublicId,
    PublicFeed.text_checked (le_refl 1) htitle, PublicFeed.text_checked (le_refl 1) hbody,
    PublicFeed.instant_toJsonb]
  constructor
  · rintro ⟨htitle, hbody, houter, hpublish, hexpires, rfl⟩
    exact ⟨⟨htitle, hbody, houter, hpublish, hexpires⟩, rfl⟩
  · rintro ⟨⟨htitle, hbody, houter, hpublish, hexpires⟩, rfl⟩
    exact ⟨htitle, hbody, houter, hpublish, hexpires, rfl⟩

theorem json_shown {now : Timestamptz} {a : Announcement} (h : Checked a.checks)
    (hreadable : a.Readable) : (a.shown now).json = a.item now := by
  simp only [checks, checked_cons] at h
  obtain ⟨-, -, -, -, -, hservices, -⟩ := h
  have hids : (a.affectedServiceIds.map TextArray.toJsonb).getD (.arr []) =
      .arr (((a.affectedServiceIds.map serviceTexts).getD []).map .str) := by
    cases hids : a.affectedServiceIds with
    | none => rfl
    | some s =>
      rw [hids, Option.all_some] at hservices
      exact PublicFeed.toJsonb_of_flat hservices (hreadable.services s hids)
  rw [PublicStatusAnnouncement.json, item, content, hids, toJsonb_eq_timeText, shown,
    PublicFeed.ofOption_map toJsonb_eq_timeText]
  rfl

end Announcement

/-! ## The feed -/

/-- The reader takes every row that the feed lists. -/
structure Store.FeedReadable (s : Store) (now : ℤ) (since : Option Timestamptz)
    (limit : Option ℤ) : Prop where
  generatedAt : ReadableInstant now
  incidents : ∀ i ∈ s.publicIncidents (feedSince now since) (feedLimit limit),
    i.Readable (s.timeline i)
  notices : ∀ m ∈ s.publicNotices now (feedSince now since) (feedLimit limit), m.Readable
  announcements : ∀ a ∈ s.publicAnnouncements now (feedSince now since) (feedLimit limit),
    a.Readable

/-- The feed as it is read. -/
def Store.shownFeed (s : Store) (now : ℤ) (since : Option Timestamptz) (limit : Option ℤ) :
    PublicStatusFeed where
  generatedAt := jsonTimestamptz now
  incidents := (s.publicIncidents (feedSince now since) (feedLimit limit)).map fun i =>
    i.shown (s.timeline i)
  maintenance := (s.publicNotices now (feedSince now since) (feedLimit limit)).map
    (MaintenanceNotice.shown (.ofInstant now))
  announcements := (s.publicAnnouncements now (feedSince now since) (feedLimit limit)).map
    (Announcement.shown (.ofInstant now))

section

variable {s : Store} {now : ℤ} {since : Option Timestamptz} {limit : Option ℤ}

theorem Store.Sound.timeline_checked (hs : s.Sound) (i : Incident) :
    ∀ u ∈ s.timeline i, Checked u.checks := by
  intro u hu
  rw [timeline, mem_orderBy] at hu
  exact hs.updatesChecked u (List.mem_of_mem_filter hu)

theorem Store.Sound.incident_checked (hs : s.Sound) {from_ : Timestamptz} {limit : ℕ} :
    ∀ i ∈ s.publicIncidents from_ limit, Checked i.checks :=
  fun i hi => hs.incidentsChecked i (List.mem_of_mem_filter (mem_of_mem_firstRows hi))

theorem Store.Sound.notice_checked (hs : s.Sound) {from_ : Timestamptz} {limit : ℕ} :
    ∀ m ∈ s.publicNotices now from_ limit, Checked m.checks :=
  fun m hm => hs.noticesChecked m (List.mem_of_mem_filter (mem_of_mem_firstRows hm))

theorem Store.Sound.announcement_checked (hs : s.Sound) {from_ : Timestamptz} {limit : ℕ} :
    ∀ a ∈ s.publicAnnouncements now from_ limit, Checked a.checks :=
  fun a ha => hs.announcementsChecked a (List.mem_of_mem_filter (mem_of_mem_firstRows ha))

/-- **The answer is read if all its rows are**, and as what they are. -/
theorem getPublicStatusFeed_eq_ok (hs : s.Sound) {r : PublicStatusFeed} :
    PublicFeed.getPublicStatusFeed (getStatusPublicFeed now since limit s) = .ok r ↔
      s.FeedReadable now since limit ∧ r = s.shownFeed now since limit := by
  have hincidents : ∀ rs, ((s.publicIncidents (feedSince now since) (feedLimit limit)).map
      fun i => i.item (s.timeline i)).mapM PublicFeed.parseIncident = .ok rs ↔
        (∀ i ∈ s.publicIncidents (feedSince now since) (feedLimit limit),
          i.Readable (s.timeline i)) ∧ rs = (s.shownFeed now since limit).incidents :=
    Js.mapM_eq_ok fun i hi r =>
      Incident.parse_item (hs.incident_checked i hi) (hs.timeline_checked i)
  have hnotices : ∀ rs, ((s.publicNotices now (feedSince now since) (feedLimit limit)).map
      (MaintenanceNotice.item (.ofInstant now))).mapM PublicFeed.parseMaintenance = .ok rs ↔
        (∀ m ∈ s.publicNotices now (feedSince now since) (feedLimit limit), m.Readable) ∧
          rs = (s.shownFeed now since limit).maintenance :=
    Js.mapM_eq_ok fun m hm r => MaintenanceNotice.parse_item (hs.notice_checked m hm)
  have hannouncements : ∀ rs, ((s.publicAnnouncements now (feedSince now since)
      (feedLimit limit)).map (Announcement.item (.ofInstant now))).mapM
        PublicFeed.parseAnnouncement = .ok rs ↔
        (∀ a ∈ s.publicAnnouncements now (feedSince now since) (feedLimit limit), a.Readable) ∧
          rs = (s.shownFeed now since limit).announcements :=
    Js.mapM_eq_ok fun a ha r => Announcement.parse_item (hs.announcement_checked a ha)
  simp only [PublicFeed.getPublicStatusFeed, getStatusPublicFeed, Js.bind_eq_ok,
    PublicFeed.row_buildObject, exists_eq_left, PublicFeed.lists?, Jsonb.get?_buildObject]
  simp [-List.mapM_map, List.lookup_cons, PublicFeed.string?, PublicFeed.items?, hincidents, hnotices,
    hannouncements, PublicFeed.instant_instantJson]
  constructor
  · rintro ⟨hgenerated, hincidents, hnotices, hannouncements, rfl⟩
    exact ⟨⟨hgenerated, hincidents, hnotices, hannouncements⟩, rfl⟩
  · rintro ⟨⟨hgenerated, hincidents, hnotices, hannouncements⟩, rfl⟩
    exact ⟨hgenerated, hincidents, hnotices, hannouncements, rfl⟩

theorem json_shownFeed (hs : s.Sound) (h : s.FeedReadable now since limit) :
    (s.shownFeed now since limit).json = getStatusPublicFeed now since limit s := by
  have hincidents : (s.shownFeed now since limit).incidents.map PublicStatusIncident.json =
      (s.publicIncidents (feedSince now since) (feedLimit limit)).map
        fun i => i.item (s.timeline i) := by
    rw [Store.shownFeed, List.map_map]
    apply List.map_congr_left
    intro i hi
    exact Incident.json_shown (hs.incident_checked i hi) (h.incidents i hi)
  have hnotices : (s.shownFeed now since limit).maintenance.map PublicStatusMaintenance.json =
      (s.publicNotices now (feedSince now since) (feedLimit limit)).map
        (MaintenanceNotice.item (.ofInstant now)) := by
    rw [Store.shownFeed, List.map_map]
    apply List.map_congr_left
    intro m hm
    exact MaintenanceNotice.json_shown (hs.notice_checked m hm) (h.notices m hm)
  have hannouncements : (s.shownFeed now since limit).announcements.map
      PublicStatusAnnouncement.json =
      (s.publicAnnouncements now (feedSince now since) (feedLimit limit)).map
        (Announcement.item (.ofInstant now)) := by
    rw [Store.shownFeed, List.map_map]
    apply List.map_congr_left
    intro a ha
    exact Announcement.json_shown (hs.announcement_checked a ha) (h.announcements a ha)
  rw [PublicStatusFeed.json, getStatusPublicFeed, hincidents, hnotices, hannouncements]
  rfl

end

/-- **The feed is read, and comes back as it was, exactly if no row it lists goes beyond what the
reader takes**: in every state that is reached, at any time, with any beginning and any limit. -/
theorem feed_parses_iff [Server] (t₀ : ℤ) (calls : List Call) (now : ℤ)
    (since : Option Timestamptz) (limit : Option ℤ) :
    let s := ((Center.initial t₀).run calls).toStore
    (∃ r, PublicFeed.getPublicStatusFeed (getStatusPublicFeed now since limit s) = .ok r ∧
        r.json = getStatusPublicFeed now since limit s) ↔
      s.FeedReadable now since limit := by
  intro s
  have hs : s.Sound := Center.run_sound calls Store.empty_sound
  constructor
  · rintro ⟨r, hr, -⟩
    exact ((getPublicStatusFeed_eq_ok hs).1 hr).1
  · intro h
    exact ⟨_, (getPublicStatusFeed_eq_ok hs).2 ⟨h, rfl⟩, json_shownFeed hs h⟩

/-! ## A row the tables take and the reader does not -/

/-- An announcement that is never to expire. -/
def sampleEndless : Request :=
  .createAnnouncement
    { kind := some "info"
      title := some "New rooms"
      body := some "They open today"
      affectedServiceIds := none
      publishAt := some (.ofInstant 1)
      expiresAt := some ⊤
      idempotencyKey := some ⟨7#128⟩
      actor := sampleActor }

theorem sampleCenter_sound [Server] (calls : List (Request × ℤ)) : (sampleCenter calls).Sound :=
  Center.run_sound _ Store.empty_sound

theorem not_readableTime_top : ¬ ReadableTime ⊤ := by
  rintro ⟨t, ht, -⟩
  exact absurd ht (by simp [Timestamptz.ofInstant])

/-- One announcement without an end is enough. -/
theorem not_read_of_endless {s : Store} {now : ℤ} {since : Option Timestamptz} {limit : Option ℤ}
    (hs : s.Sound) (h : (s.publicAnnouncements now (feedSince now since) (feedLimit limit)).any
      (fun a => decide (a.expiresAt = some ⊤)) = true) :
    ¬ ∃ r, PublicFeed.getPublicStatusFeed (getStatusPublicFeed now since limit s) = .ok r := by
  rintro ⟨r, hr⟩
  obtain ⟨a, ha, hendless⟩ := List.any_eq_true.1 h
  have hread := ((getPublicStatusFeed_eq_ok hs).1 hr).1.announcements a ha
  exact not_readableTime_top (hread.expiresAt ⊤ (of_decide_eq_true hendless))

open Sample in
/-- The announcement is created and published, and nothing of the feed is read any more. -/
theorem endless_refuses_feed :
    ¬ ∃ r, PublicFeed.getPublicStatusFeed (getStatusPublicFeed 5 none none
      (sampleCenter [(sampleEndless, 1), (samplePublishAnnouncement, 2)]).toStore) = .ok r := by
  apply not_read_of_endless (sampleCenter_sound _)
  decide +kernel

end IvrmDashboard.StatusCenter
