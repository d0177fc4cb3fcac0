import IvrmDashboard.StatusCenter.Timeline

/-!
# The public feed

`get_status_public_feed_v1` lists the published incidents with their timelines, the maintenance
notices with a state derived from the clock, and the announcements whose time has come. Each list is
ordered by its time, cut off at a limit and built as `jsonb`.
-/

namespace IvrmDashboard.StatusCenter

open Sql Notifications

/-! ## Parameters -/

/-- `t - interval '10 years'`: the same day and time of the year ten years before; 29 February
becomes 28 February. -/
def tenYearsBefore (t : ℤ) : ℤ :=
  let d := civilOfDays (t / day)
  daysOfCivil ⟨d.year - 10, d.month, if d.month = 2 ∧ d.day = 29 then 28 else d.day⟩ * day + t % day

/-- `v_since` -/
def feedSince (now : ℤ) (since : Option Timestamptz) : Timestamptz :=
  max (since.getD (.ofInstant (now - 365 * day))) (.ofInstant (tenYearsBefore now))

/-- `v_limit` -/
def feedLimit (limit : Option ℤ) : ℕ := (min (max (limit.getD 200) 1) 500).toNat

/-- `order by … desc, id desc` -/
def newestFirst {ρ τ : Type} [LinearOrder τ] (time : ρ → τ) (id : ρ → Uuid) (a b : ρ) : Bool :=
  time b < time a || (time a = time b && (id b).bits ≤ (id a).bits)

/-- `order by … desc, id desc limit v_limit` -/
def firstRows {ρ τ : Type} [LinearOrder τ] (time : ρ → τ) (id : ρ → Uuid) (limit : ℕ)
    (rows : List ρ) : List ρ :=
  (orderBy (newestFirst time id) rows).take limit

theorem mem_of_mem_firstRows {ρ τ : Type} [LinearOrder τ] {time : ρ → τ} {id : ρ → Uuid}
    {limit : ℕ} {rows : List ρ} {r : ρ} (h : r ∈ firstRows time id limit rows) : r ∈ rows :=
  (mem_orderBy _).1 (List.mem_of_mem_take h)

/-! ## Incidents -/

/-- The object of an update. -/
def IncidentUpdate.item (u : IncidentUpdate) : Jsonb :=
  Jsonb.buildObject
    [("status", .str u.lifecycleStatus.text), ("message", .str u.message),
      ("publishedAt", instantJson u.publishedAt)]

/-- The object of an incident with its timeline. -/
def Incident.item (i : Incident) (timeline : List IncidentUpdate) : Jsonb :=
  Jsonb.buildObject
    [("publicId", .str i.publicId), ("title", .str i.title),
      ("status", .str i.lifecycleStatus.text), ("impact", .str i.impact.text),
      ("affectedServiceIds", i.affectedServiceIds.toJsonb), ("startedAt", i.startedAt.toJsonb),
      ("resolvedAt", .ofOption instantJson i.resolvedAt), ("updatedAt", instantJson i.updatedAt),
      ("summary", .str i.summary), ("source", .str i.sourceType.text),
      ("updates", .arr (timeline.map IncidentUpdate.item))]

/-- The incident is in the feed. -/
def Incident.listed (since : Timestamptz) (i : Incident) : Bool :=
  i.publicationState = .published &&
    (since ≤ .ofInstant i.updatedAt || i.lifecycleStatus ≠ .resolved)

/-! ## Maintenance notices -/

/-- `state` of a notice. -/
def MaintenanceNotice.publicState (now : Timestamptz) (m : MaintenanceNotice) : String :=
  if m.publicationState = .cancelled then "cancelled"
  else if now < m.startsAt then "scheduled"
  else if now < m.endsAt then "in_progress"
  else "completed"

/-- The object of a notice. -/
def MaintenanceNotice.item (now : Timestamptz) (m : MaintenanceNotice) : Jsonb :=
  Jsonb.buildObject
    [("publicId", .str m.publicId), ("title", .str m.title), ("summary", .str m.body),
      ("affectedServiceIds", m.affectedServiceIds.toJsonb), ("startsAt", m.startsAt.toJsonb),
      ("endsAt", m.endsAt.toJsonb), ("state", .str (m.publicState now)),
      ("updatedAt", instantJson m.updatedAt)]

/-- The notice is in the feed. -/
def MaintenanceNotice.listed (now since : Timestamptz) (m : MaintenanceNotice) : Bool :=
  (m.publicationState = .published || m.publicationState = .cancelled) &&
    (since ≤ .ofInstant m.updatedAt || (m.startsAt ≤ now && now ≤ m.endsAt))

/-! ## Announcements -/

namespace Announcement

variable (now : Timestamptz) (a : Announcement)

/-- `active` -/
def active : Bool :=
  a.publicationState = .published && a.publishAt ≤ now && a.expiresAt.all (now < ·)

/-- What the feed says of the announcement besides whether it is active. -/
def content : List (String × Jsonb) :=
  [("publicId", .str a.publicId), ("kind", .str a.kind.text), ("title", .str a.title),
    ("body", .str a.body),
    ("affectedServiceIds", (a.affectedServiceIds.map TextArray.toJsonb).getD (.arr [])),
    ("publishedAt", a.publishAt.toJsonb),
    ("expiresAt", .ofOption Timestamptz.toJsonb a.expiresAt)]

/-- The object of an announcement. -/
def item : Jsonb := Jsonb.buildObject (a.content ++ [("active", .bool (a.active now))])

/-- The announcement is in the feed, if neither the beginning nor the limit cuts it off. -/
def listed : Bool :=
  (a.publicationState = .published || a.publicationState = .archived) && a.publishAt ≤ now &&
    (a.publicationState = .published || a.archivedAt.any fun t => a.publishAt ≤ .ofInstant t)

end Announcement

/-! ## The feed -/

namespace Store

variable (s : Store) (now : ℤ) (since : Timestamptz) (limit : ℕ)

/-- The incidents of the feed. -/
def publicIncidents : List Incident :=
  firstRows Incident.updatedAt Incident.id limit (s.incidents.filter (Incident.listed since))

/-- The notices of the feed. -/
def publicNotices : List MaintenanceNotice :=
  firstRows MaintenanceNotice.updatedAt MaintenanceNotice.id limit
    (s.notices.filter (MaintenanceNotice.listed (.ofInstant now) since))

/-- The announcements of the feed. -/
def publicAnnouncements : List Announcement :=
  firstRows Announcement.publishAt Announcement.id limit
    (s.announcements.filter fun a => a.listed (.ofInstant now) && since ≤ a.publishAt)

end Store

/-- `get_status_public_feed_v1`, called at `now` -/
def getStatusPublicFeed (now : ℤ) (since : Option Timestamptz) (limit : Option ℤ) (s : Store) :
    Jsonb :=
  let from_ := feedSince now since
  let limit := feedLimit limit
  Jsonb.buildObject
    [("schemaVersion", .str "1.0"), ("generatedAt", instantJson now),
      ("incidents",
        .arr ((s.publicIncidents from_ limit).map fun i => i.item (s.timeline i))),
      ("maintenance",
        .arr ((s.publicNotices now from_ limit).map (MaintenanceNotice.item (.ofInstant now)))),
      ("announcements",
        .arr ((s.publicAnnouncements now from_ limit).map (Announcement.item (.ofInstant now))))]

end IvrmDashboard.StatusCenter
