import Mathlib.Data.List.Pairwise
import IvrmDashboard.Foundations.Sql.ToJsonb
import IvrmDashboard.Foundations.Sql.Unique
import IvrmDashboard.Operations.Audit

/-!
# Maintenance windows of the reliability metrics

A window excludes the downtime of its target from the service levels. It is created under a key, so
that a create can be repeated, and may be cancelled before it ends. A window that begins more than
five minutes before it is created is refused. Every call is one step; its clock is read when it
begins. Timestamps are microseconds.
-/

namespace IvrmDashboard.Reliability

open Sql

/-! ## Windows -/

/-- `scope_type` -/
inductive ScopeType
  | service
  | host
  | container
  | backup
  deriving DecidableEq

namespace ScopeType

def all : List ScopeType := [service, host, container, backup]

def text : ScopeType → String
  | service => "service"
  | host => "host"
  | container => "container"
  | backup => "backup"

/-- The scope a text names. -/
def ofText? (s : String) : Option ScopeType := all.find? fun t => t.text == s

end ScopeType

/-- The values of `service_id`. -/
def serviceIds : List String := ["overall", "host", "container", "backup"]

/-- The values of `backup_type`. -/
def backupTypes : List String := ["world", "config", "permissions", "full"]

/-- The columns that name what a window is about. -/
structure Target where
  serviceId : Option String
  hostId : Option Uuid
  containerName : Option String
  backupTarget : Option String
  gameMode : Option String
  backupType : Option String
  deriving DecidableEq

/-- A row of `reliability_maintenance_windows`. -/
structure Window where
  id : Uuid
  scopeType : ScopeType
  target : Target
  startsAt : Timestamptz
  endsAt : Timestamptz
  reason : String
  cancelledAt : Option ℤ
  createRequestId : Option Uuid
  deriving DecidableEq

/-- `s ~ '^[A-Za-z0-9][A-Za-z0-9_.-]{0,n}$'`, where `n` is one less than `hi`. -/
def nameWithin (hi : ℕ) (s : String) : Bool :=
  let alnum c := Text.upperAlpha c || Text.lowerAlpha c || Text.digit c
  Text.lengthBetween 1 hi s && s.toList.head?.all alnum &&
    s.toList.all fun c => alnum c || c ∈ "_.-".toList

/-- Longest window. -/
def sevenDays : ℤ := 7 * day

/-- How far back a new window may begin. -/
def fiveMinutes : ℤ := 300 * second

/-- The columns that go with a scope. -/
def Target.shapeOk (t : Target) : ScopeType → Bool
  | .service => t.serviceId.isSome && t.hostId.isNone && t.containerName.isNone &&
      t.backupTarget.isNone && t.gameMode.isNone && t.backupType.isNone
  | .host => t.serviceId.isNone && t.hostId.isSome && t.containerName.isNone &&
      t.backupTarget.isNone && t.gameMode.isNone && t.backupType.isNone
  | .container => t.serviceId.isNone && t.hostId.isSome && t.containerName.isSome &&
      t.backupTarget.isNone && t.gameMode.isNone && t.backupType.isNone
  | .backup => t.serviceId.isNone && t.hostId.isSome && t.containerName.isNone &&
      t.backupTarget.isSome && t.gameMode.isSome && t.backupType.isSome

/-- The `CHECK` constraints. -/
def Window.checks (w : Window) : List (String × Bool) :=
  [("reliability_maintenance_windows_backup_target_check",
      w.target.backupTarget.all (nameWithin 64)),
    ("reliability_maintenance_windows_backup_type_check",
      w.target.backupType.all (· ∈ backupTypes)),
    ("reliability_maintenance_windows_cancelled_check",
      w.cancelledAt.all fun t => .ofInstant t < w.endsAt),
    ("reliability_maintenance_windows_container_name_check",
      w.target.containerName.all (nameWithin 128)),
    ("reliability_maintenance_windows_game_mode_check", w.target.gameMode.all (nameWithin 64)),
    ("reliability_maintenance_windows_reason_check",
      Text.lengthBetween 1 200 w.reason && w.reason == Text.btrim w.reason),
    ("reliability_maintenance_windows_service_id_check",
      w.target.serviceId.all (· ∈ serviceIds)),
    ("reliability_maintenance_windows_target_shape_check", w.target.shapeOk w.scopeType),
    ("reliability_maintenance_windows_time_check",
      w.startsAt < w.endsAt && w.endsAt ≤ w.startsAt.add sevenDays)]

/-- The row with `cancelled_at` set. -/
def Window.cancelled (now : ℤ) (w : Window) : Window := { w with cancelledAt := some now }

/-! ## The table -/

/-- The rows stand under different keys, as far as they have one. -/
def DistinctRequests (a b : Window) : Prop :=
  ∀ k ∈ a.createRequestId, k ∉ b.createRequestId

/-- The table with its two unique indexes. -/
structure Windows where
  rows : List Window
  ids : Unique Window.id rows
  requests : rows.Pairwise DistinctRequests

namespace Windows

variable (t : Windows)

/-- No row has the primary key or the request of `w`. -/
def Fresh (w : Window) : Prop :=
  (∀ r ∈ t.rows, r.id ≠ w.id) ∧ ∀ r ∈ t.rows, ∀ k ∈ r.createRequestId, k ∉ w.createRequestId

instance (w : Window) : Decidable (t.Fresh w) := instDecidableAnd

/-- The table with a new row. -/
def add (w : Window) (h : t.Fresh w) : Windows where
  rows := t.rows ++ [w]
  ids := t.ids.concat h.1
  requests := by
    refine List.pairwise_append.2 ⟨t.requests, List.pairwise_singleton _ _, ?_⟩
    intro r hr x hx
    rw [List.mem_singleton.1 hx]
    exact h.2 r hr

/-- The row under a request. -/
def find? (key : Uuid) : Option Window := t.rows.find? (·.createRequestId = some key)

theorem find?_eq_some {key : Uuid} {w : Window} (h : t.find? key = some w) :
    w ∈ t.rows ∧ w.createRequestId = some key :=
  find?_key_eq_some h

theorem find?_eq_none {key : Uuid} :
    t.find? key = none ↔ ∀ r ∈ t.rows, r.createRequestId ≠ some key :=
  find?_key_eq_none

/-- Two rows under one request are the same. -/
theorem eq_of_request {a b : Window} {key : Uuid} (ha : a ∈ t.rows) (hb : b ∈ t.rows)
    (hakey : a.createRequestId = some key) (hbkey : b.createRequestId = some key) : a = b := by
  by_contra hne
  have : Std.Symm DistinctRequests := ⟨fun _ _ h k hb ha => h k ha hb⟩
  exact t.requests.forall ha hb hne key hakey hbkey

/-- `update … set cancelled_at = v_now where id = …` -/
def cancel (id : Uuid) (now : ℤ) : Windows where
  rows := updateWhere (·.id = id) (Window.cancelled now) t.rows
  ids := t.ids.updateWhere fun _ _ _ => rfl
  requests := by
    rw [updateWhere, List.pairwise_map]
    refine t.requests.imp fun {a b} hab => ?_
    rw [DistinctRequests, apply_ite Window.createRequestId, apply_ite Window.createRequestId]
    simp only [Window.cancelled, ite_self]
    exact hab

/-- `insert … on conflict (create_request_id) do nothing`; no row comes back where the request is
there already. -/
def insert (w : Window) : Except DbError (Option Windows) := do
  checkAll w.checks
  if t.rows.any fun r => r.createRequestId.any (· ∈ w.createRequestId) then return none
  if h : t.Fresh w then return some (t.add w h)
  .error (.uniqueViolation "reliability_maintenance_windows_pkey")

end Windows

/-! ## What a call finds -/

/-- A row of `backup_policies`. -/
structure BackupPolicy where
  hostId : Uuid
  backupTarget : String
  gameMode : String
  backupType : String
  enabled : Bool

/-- The tables a new window is looked up in: `hosts` with its `enabled` column,
`container_expectations` and `backup_policies`. -/
structure Catalog where
  hosts : List (Uuid × Bool)
  containers : List (Uuid × String)
  policies : List BackupPolicy

namespace Catalog

variable (c : Catalog)

/-- `exists (select 1 from hosts …)` -/
def hasHost (hostId : Uuid) : Bool := c.hosts.any fun h => h.1 = hostId && h.2

/-- `exists (select 1 from container_expectations … join hosts …)` -/
def hasContainer (hostId : Uuid) (containerName : String) : Bool :=
  c.containers.any (· = (hostId, containerName)) && c.hasHost hostId

/-- `exists (select 1 from backup_policies … join hosts …)` -/
def hasBackup (hostId : Uuid) (backupTarget gameMode backupType : String) : Bool :=
  (c.policies.any fun b => b.hostId = hostId && b.backupTarget = backupTarget &&
    b.gameMode = gameMode && b.backupType = backupType && b.enabled) && c.hasHost hostId

end Catalog

/-- What a call finds: its clock and that of the audit log, what `gen_random_uuid()` yields, and the
targets there are. -/
structure Invocation where
  now : ℤ
  auditedAt : ℤ
  newId : Uuid
  catalog : Catalog

/-- The tables the calls write. -/
structure Center where
  windows : Windows
  audit : Audit.Tables

/-! ## The actor -/

/-- Who makes a call, as the arguments report it. -/
structure Actor where
  email : Option String
  role : Option String
  discordUserId : Option String

/-- The checks of the actor; a role that is `NULL` passes. -/
def Actor.check [Server] (a : Actor) : Except DbError Unit := do
  raiseIf (notIn a.role ["administrator", "owner"]).holds
    (.raised "maintenance_actor_role_forbidden" "42501")
  raiseIf (a.email.any fun e => !Text.lengthBetween 3 320 e || e != Text.lower (Text.btrim e))
    (.raised "maintenance_actor_email_invalid" "22023")
  raiseIf (a.discordUserId.any fun d =>
      !Text.lengthBetween 17 20 d || !Text.matchesPlus Text.digit d)
    (.raised "maintenance_actor_discord_user_id_invalid" "22023")
  raiseIf (a.email.isNone && a.discordUserId.isNone)
    (.raised "maintenance_actor_identity_required" "42501")

/-- What the audit log tells about a window. -/
def Window.auditFields (w : Window) : List (String × Jsonb) :=
  [("scopeType", .str w.scopeType.text),
    ("serviceId", .ofOption .str w.target.serviceId),
    ("hostId", .ofOption (fun u => .str u.text) w.target.hostId),
    ("containerName", .ofOption .str w.target.containerName),
    ("backupTarget", .ofOption .str w.target.backupTarget),
    ("gameMode", .ofOption .str w.target.gameMode),
    ("backupType", .ofOption .str w.target.backupType),
    ("startsAt", w.startsAt.toJsonb),
    ("endsAt", w.endsAt.toJsonb)]

/-- `perform append_audit_log(…)` -/
def Center.appendAudit [Server] (v : Invocation) (requestId : Uuid) (a : Actor) (action : String)
    (w : Window) (fields : List (String × Jsonb)) (c : Center) : Except DbError Center := do
  let (_, audit) ← Audit.appendAuditLog (fun _ => false) v.auditedAt
    { requestId := some requestId
      actorUserId := none
      actorEmail := a.email
      actorRole := a.role
      actorIp := none
      action := some action
      targetType := some "reliability_maintenance_window"
      targetId := some w.id.text
      result := some "success"
      metadata := some (Jsonb.buildObject
        (("discordUserId", .ofOption .str a.discordUserId) :: fields)).stripNulls } c.audit
  return { c with audit }

/-! ## `create_reliability_maintenance_window_v2` -/

/-- The arguments; each may be `NULL`. -/
structure CreateParams where
  scopeType : Option String
  target : Target
  startsAt : Option Timestamptz
  endsAt : Option Timestamptz
  reason : Option String
  idempotencyKey : Option Uuid
  actor : Actor

/-- The arguments after their validation. A scope that is `NULL` has passed it. -/
structure Draft where
  key : Uuid
  scopeType : Option ScopeType
  target : Target
  startsAt : Timestamptz
  endsAt : Timestamptz
  reason : String

/-- `p_scope_type not in (…)` -/
def scopeOf : Option String → Except DbError (Option ScopeType)
  | none => .ok none
  | some s =>
    (orRaise (ScopeType.ofText? s) (.raised "maintenance_scope_type_invalid" "22023")).map some

/-- Both times, the second after the first. -/
def timesOf (startsAt endsAt : Option Timestamptz) : Option (Timestamptz × Timestamptz) := do
  let s ← startsAt
  let e ← endsAt
  if e ≤ s then none else some (s, e)

/-- The validation of the arguments. -/
def CreateParams.validate [Server] (p : CreateParams) : Except DbError Draft := do
  let key ← orRaise p.idempotencyKey (.raised "maintenance_idempotency_key_required" "22023")
  p.actor.check
  let scopeType ← scopeOf p.scopeType
  let reason ← orRaise ((p.reason.map Text.btrim).filter (Text.lengthBetween 1 200))
    (.raised "maintenance_reason_invalid" "22023")
  let times ← orRaise (timesOf p.startsAt p.endsAt) (.raised "maintenance_time_invalid" "22023")
  raiseIf (times.1.add sevenDays < times.2) (.raised "maintenance_duration_too_long" "22023")
  return { key, scopeType, target := p.target, startsAt := times.1, endsAt := times.2, reason }

namespace Draft

variable (d : Draft)

/-- The window that is there was created with other arguments. -/
def conflicts (w : Window) : Tri :=
  (ne (some w.scopeType) d.scopeType).or
    (some (isDistinct w.target.serviceId d.target.serviceId ||
      isDistinct w.target.hostId d.target.hostId ||
      isDistinct w.target.containerName d.target.containerName ||
      isDistinct w.target.backupTarget d.target.backupTarget ||
      isDistinct w.target.gameMode d.target.gameMode ||
      isDistinct w.target.backupType d.target.backupType || w.startsAt ≠ d.startsAt ||
      w.endsAt ≠ d.endsAt || w.reason ≠ d.reason))

/-- The answer where the key is there already. -/
def resolve (w : Window) (c : Center) : Except DbError (Window × Center) := do
  raiseIf (d.conflicts w).holds (.raised "maintenance_idempotency_conflict" "23505")
  return (w, c)

/-- The target is one that exists and is enabled; whatever is not one of the first three scopes is
taken for a backup. -/
def targetMissing (c : Catalog) : Tri × String :=
  let t := d.target
  match d.scopeType with
  | some .service =>
    ((notIn t.serviceId serviceIds).or (some (t.hostId.isSome || t.containerName.isSome ||
      t.backupTarget.isSome || t.gameMode.isSome || t.backupType.isSome)),
      "maintenance_service_target_invalid")
  | some .host =>
    (some (t.serviceId.isSome || t.hostId.isNone || t.containerName.isSome ||
      t.backupTarget.isSome || t.gameMode.isSome || t.backupType.isSome ||
      !t.hostId.any c.hasHost), "maintenance_host_target_invalid")
  | some .container =>
    (some (t.serviceId.isSome || t.hostId.isNone || t.containerName.isNone ||
      t.backupTarget.isSome || t.gameMode.isSome || t.backupType.isSome ||
      !t.hostId.any fun h => t.containerName.any (c.hasContainer h)),
      "maintenance_container_target_invalid")
  | _ =>
    (some (t.serviceId.isSome || t.hostId.isNone || t.containerName.isSome ||
      t.backupTarget.isNone || t.gameMode.isNone || t.backupType.isNone ||
      !t.hostId.any fun h => t.backupTarget.any fun b => t.gameMode.any fun g =>
        t.backupType.any (c.hasBackup h b g)), "maintenance_backup_target_invalid")

/-- The row of a window of the scope. -/
def row (v : Invocation) (scopeType : ScopeType) : Window where
  id := v.newId
  scopeType := scopeType
  target := d.target
  startsAt := d.startsAt
  endsAt := d.endsAt
  reason := d.reason
  cancelledAt := none
  createRequestId := some d.key

/-- A window that is not there yet. The foreign keys name what `targetMissing` has just found. -/
def create [Server] (v : Invocation) (a : Actor) (c : Center) :
    Except DbError (Window × Center) := do
  raiseIf (d.startsAt < .ofInstant (v.now - fiveMinutes))
    (.raised "maintenance_start_too_old" "22023")
  raiseIf (.ofInstant (v.now + 365 * day) < d.startsAt)
    (.raised "maintenance_start_too_far" "22023")
  raiseIf (d.targetMissing v.catalog).1.holds (.raised (d.targetMissing v.catalog).2 "22023")
  let scopeType ← orRaise d.scopeType (.notNullViolation "scope_type")
  match ← c.windows.insert (d.row v scopeType) with
  | none =>
    let existing ← orRaise (c.windows.find? d.key)
      (.raised "maintenance_idempotency_resolution_failed" "40001")
    d.resolve existing c
  | some windows =>
    let w := d.row v scopeType
    let c ← { c with windows }.appendAudit v d.key a "RELIABILITY_MAINTENANCE_CREATE" w
      w.auditFields
    return (w, c)

end Draft

/-- `create_reliability_maintenance_window_v2` -/
def createReliabilityMaintenanceWindow [Server] (v : Invocation) (p : CreateParams) (c : Center) :
    Except DbError (Window × Center) := do
  let d ← p.validate
  match c.windows.find? d.key with
  | some existing => d.resolve existing c
  | none => d.create v p.actor c

/-! ## `cancel_reliability_maintenance_window_v1` -/

/-- The arguments; each may be `NULL`. -/
structure CancelParams where
  windowId : Option Uuid
  requestId : Option Uuid
  actor : Actor

/-- `cancel_reliability_maintenance_window_v1` -/
def cancelReliabilityMaintenanceWindow [Server] (v : Invocation) (p : CancelParams) (c : Center) :
    Except DbError (Window × Center) := do
  let windowId ←
    orRaise p.windowId (.raised "maintenance_cancel_required_field_missing" "22023")
  let requestId ←
    orRaise p.requestId (.raised "maintenance_cancel_required_field_missing" "22023")
  p.actor.check
  let w ← orRaise (c.windows.rows.find? (·.id = windowId))
    (.raised "maintenance_window_not_found" "P0002")
  if w.cancelledAt.isSome then return (w, c)
  raiseIf (w.endsAt ≤ .ofInstant v.now) (.raised "maintenance_window_already_ended" "22023")
  checkAll (w.cancelled v.now).checks
  let c ← { c with windows := c.windows.cancel windowId v.now }.appendAudit v requestId p.actor
    "RELIABILITY_MAINTENANCE_CANCEL" (w.cancelled v.now)
    ((w.cancelled v.now).auditFields ++ [("cancelledAt", instantJson v.now)])
  return (w.cancelled v.now, c)

/-! ## Calls -/

/-- A function with its arguments. -/
inductive Request
  | create (p : CreateParams)
  | cancel (p : CancelParams)

/-- The window that is returned, and the tables afterwards. -/
def Request.perform [Server] (r : Request) (v : Invocation) (c : Center) :
    Except DbError (Window × Center) :=
  match r with
  | create p => createReliabilityMaintenanceWindow v p c
  | cancel p => cancelReliabilityMaintenanceWindow v p c

/-- A request and what its call finds. -/
structure Call where
  request : Request
  invocation : Invocation

/-- A call that aborts leaves the tables as they were. -/
def Center.step [Server] (c : Center) (x : Call) : Center :=
  match x.request.perform x.invocation c with
  | .ok (_, c') => c'
  | .error _ => c

/-! ## Exclusions -/

/-- `entityType` of an incident. -/
inductive EntityType
  | host
  | container
  | backup
  deriving DecidableEq

def EntityType.text : EntityType → String
  | host => "host"
  | container => "container"
  | backup => "backup"

/-- What the metrics read of an incident. -/
structure Incident where
  entityType : EntityType
  startReason : String
  hostId : String
  containerName : Option String
  backupTarget : Option String
  gameMode : Option String
  backupType : Option String

/-- `NON_EXCLUDABLE_CONTAINER_REASONS` -/
def nonExcludableContainerReasons : List String := ["OOMKilledを検知"]

/-- `maintenanceExcludable` -/
def maintenanceExcludable (i : Incident) : Bool :=
  !(i.entityType = .container && i.startReason ∈ nonExcludableContainerReasons)

/-- `appliesToIncident` -/
def appliesToIncident (w : Window) (i : Incident) : Bool :=
  let hostId := w.target.hostId.map Uuid.text
  maintenanceExcludable i &&
    match w.scopeType with
    | .service => w.target.serviceId = some "overall" || w.target.serviceId = some i.entityType.text
    | .host => hostId = some i.hostId
    | .container => i.entityType = .container && hostId = some i.hostId &&
        w.target.containerName = i.containerName
    | .backup => i.entityType = .backup && hostId = some i.hostId &&
        w.target.backupTarget = i.backupTarget && w.target.gameMode = i.gameMode &&
        w.target.backupType = i.backupType

/-- The end of a window, or the time it was cancelled if that is earlier. -/
def Window.effectiveEnd (w : Window) : Timestamptz :=
  match w.cancelledAt with
  | some t => min w.endsAt (.ofInstant t)
  | none => w.endsAt

/-- `effectiveWindowInterval`: the part of the window inside the range, if there is any. -/
def effectiveWindowInterval (w : Window) (rangeStart rangeEnd : ℤ) : Option (ℤ × ℤ) := do
  let startsAt ← w.startsAt.instant?
  let effectiveEnd ← w.effectiveEnd.instant?
  if max startsAt rangeStart < min effectiveEnd rangeEnd then
    some (max startsAt rangeStart, min effectiveEnd rangeEnd)
  else none

end IvrmDashboard.Reliability
