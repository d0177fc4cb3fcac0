import IvrmDashboard.Foundations.Sql.Table
import IvrmDashboard.Foundations.Sql.Timestamp
import IvrmDashboard.Operations.Jobs

/-!
# What decides whether a notification may go out

The tables that operators and other parts of the dashboard maintain and the notification
functions only read: hosts, container expectations, backup policies, suppressions and channels.
`suppressionReason` is the one test all of them go through; it asks for the channel first, then
for a pause or a maintenance of the entity, then for the suppressions in order of their scope.
-/

namespace IvrmDashboard.Notifications

open Sql Operations

/-! ## Enumerated columns -/

/-- `source_type` and `entity_type` -/
inductive Source
  | host
  | container
  | backup
  | reliability
  | cloud
  deriving DecidableEq

/-- `severity` of a signal -/
inductive Level
  | warning
  | critical
  deriving DecidableEq

/-- `severity` of a notification -/
inductive Severity
  | info
  | warning
  | critical
  | recovery
  deriving DecidableEq

/-- `transition` -/
inductive Transition
  | opened
  | escalated
  | recovered
  | event
  deriving DecidableEq

/-- `status` of a row of either queue -/
inductive DeliveryStatus
  | pending
  | sending
  | sent
  | retry
  | failed
  | suppressed
  deriving DecidableEq

/-- `scope_type` of a suppression -/
inductive Scope
  | global
  | host
  | container
  | backup
  | reliability
  | cloud
  | signal
  deriving DecidableEq

def Source.all : List Source := [.host, .container, .backup, .reliability, .cloud]

def Source.text : Source → String
  | .host => "host"
  | .container => "container"
  | .backup => "backup"
  | .reliability => "reliability"
  | .cloud => "cloud"

/-- The source a text names. -/
def Source.ofText? (s : String) : Option Source := Source.all.find? fun t => t.text == s

/-- The suppression scope of the same name. -/
def Source.scope : Source → Scope
  | .host => .host
  | .container => .container
  | .backup => .backup
  | .reliability => .reliability
  | .cloud => .cloud

/-- The source belongs to a host. -/
def Source.ofHost : Source → Bool
  | .host | .container | .backup => true
  | .reliability | .cloud => false

def Level.text : Level → String
  | .warning => "warning"
  | .critical => "critical"

/-- The level a text names. -/
def Level.ofText? (s : String) : Option Level := [Level.warning, .critical].find? fun t => t.text == s

def Level.severity : Level → Severity
  | .warning => .warning
  | .critical => .critical

/-- `notification_severity_rank_v1` -/
def Level.rank : Level → ℕ
  | .warning => 1
  | .critical => 2

def Transition.text : Transition → String
  | .opened => "opened"
  | .escalated => "escalated"
  | .recovered => "recovered"
  | .event => "event"

/-- `transition in ('opened', 'escalated')` -/
def Transition.announces : Transition → Bool
  | .opened | .escalated => true
  | .recovered | .event => false

namespace DeliveryStatus

/-- `status in ('pending', 'retry')` -/
def waiting : DeliveryStatus → Bool
  | .pending | .retry => true
  | _ => false

/-- `status in ('pending', 'retry', 'sending')` -/
def undelivered : DeliveryStatus → Bool
  | .pending | .retry | .sending => true
  | _ => false

end DeliveryStatus

/-! ## Reference tables -/

/-- A row of `hosts`, with the name notifications show. -/
structure MonitoredHost extends Host where
  displayName : String
  deriving DecidableEq

/-- A row of `container_expectations`. -/
structure ContainerExpectation where
  hostId : Uuid
  containerName : String
  maintenanceMode : Bool
  maintenanceUntil : Option Timestamptz
  deriving DecidableEq

/-- A row of `backup_policies`. -/
structure BackupPolicy where
  id : ℕ
  hostId : Uuid
  backupTarget : String
  gameMode : String
  backupType : String
  remoteSyncRequired : Bool
  enabled : Bool
  warningAfterSeconds : ℤ
  criticalAfterSeconds : ℤ
  remoteSyncWarningSeconds : ℤ
  restoreTestWarningSeconds : ℤ
  agePausedUntil : Option Timestamptz
  deriving DecidableEq

/-- The text under which the backups of a policy are known. -/
def BackupPolicy.entityKey (p : BackupPolicy) : String :=
  p.hostId.text ++ ":" ++ p.backupTarget ++ ":" ++ p.gameMode ++ ":" ++ p.backupType

/-- A row of `notification_suppressions`. -/
structure Suppression where
  id : ℕ
  scopeType : Scope
  scopeKey : String
  reason : String
  startsAt : Timestamptz
  endsAt : Option Timestamptz
  enabled : Bool
  deriving DecidableEq

/-- `channel_type` -/
inductive Provider
  | discord
  | slack
  deriving DecidableEq

/-- A row of `notification_channels`. -/
structure Channel where
  id : ℕ
  channelType : Provider
  enabled : Bool
  configured : Bool
  deriving DecidableEq

/-- The channel delivers. -/
def Channel.ready (c : Channel) : Bool := c.enabled && c.configured

/-- The tables the notification functions read. -/
structure Settings where
  hosts : List MonitoredHost
  expectations : List ContainerExpectation
  policies : List BackupPolicy
  suppressions : List Suppression
  channels : List Channel

/-- What a suppression is matched against. -/
structure Subject where
  hostId : Option Uuid
  entityType : Source
  entityKey : String
  entityName : String
  signalKey : String
  deriving DecidableEq

/-- The suppression covers the time. -/
def Suppression.covers (p : Suppression) (t : Timestamptz) : Bool :=
  p.enabled && p.startsAt ≤ t && p.endsAt.all (t < ·)

/-- The suppression covers the subject. -/
def Suppression.concerns (p : Suppression) (x : Subject) : Bool :=
  (p.scopeType = .global && p.scopeKey = "*") ||
    (p.scopeType = .host && x.hostId.any fun h => p.scopeKey = h.text) ||
    (p.scopeType = x.entityType.scope && p.scopeKey = x.entityKey) ||
    (p.scopeType = .signal && p.scopeKey = x.signalKey)

/-- The narrower scope comes first. -/
def Scope.order : Scope → ℕ
  | .signal => 1
  | .container | .backup => 2
  | .host => 3
  | _ => 4

/-- The order of two suppressions that concern the same subject. -/
def Suppression.precedes (p q : Suppression) : Bool :=
  p.scopeType.order < q.scopeType.order ||
    (p.scopeType.order = q.scopeType.order &&
      (q.startsAt < p.startsAt || (p.startsAt = q.startsAt && q.id ≤ p.id)))

namespace Settings

/-- The Discord channel. -/
def discord? (s : Settings) : Option Channel := s.channels.find? (·.id = 1)

/-- `notification_channel_ready_v1` -/
def channelReady (s : Settings) : Bool := s.discord?.any Channel.ready

def isHost (s : Settings) (id : Uuid) : Bool := s.hosts.any (·.id = id)

/-- The age alert of an enabled policy is paused. -/
def backupAgePaused (s : Settings) (now : ℤ) (x : Subject) : Bool :=
  x.entityType = .backup && s.policies.any fun p =>
    p.enabled && x.hostId = some p.hostId && x.entityKey = p.entityKey &&
      x.signalKey = "backup:" ++ x.entityKey ++ ":backup_age" &&
      p.agePausedUntil.any (.ofInstant now < ·)

/-- The container is under maintenance. -/
def containerMaintenance (s : Settings) (now : ℤ) (x : Subject) : Bool :=
  x.entityType = .container && s.expectations.any fun e =>
    x.hostId = some e.hostId && e.containerName = x.entityName && e.maintenanceMode &&
      e.maintenanceUntil.all (.ofInstant now < ·)

/-- The reason of the suppression that comes first. -/
def explicitSuppression (s : Settings) (x : Subject) (t : Timestamptz) : Option String :=
  (firstBy Suppression.precedes
    (s.suppressions.filter fun p => p.covers t && p.concerns x)).map (·.reason)

/-- `notification_suppression_reason_v1` -/
def suppressionReason (s : Settings) (now : ℤ) (x : Subject) (occurredAt : Timestamptz) :
    Option String :=
  match s.discord? with
  | none => some "channel_disabled"
  | some c =>
    if !c.enabled then some "channel_disabled"
    else if !c.configured then some "channel_unconfigured"
    else if s.backupAgePaused now x then some "backup_age_paused"
    else if s.containerMaintenance now x then some "container_maintenance"
    else s.explicitSuppression x occurredAt

/-- Without the channel everything is suppressed. -/
theorem suppressionReason_of_not_ready {s : Settings} (h : s.channelReady = false) (now : ℤ)
    (x : Subject) (t : Timestamptz) : (s.suppressionReason now x t).isSome = true := by
  unfold channelReady at h
  unfold suppressionReason
  cases hc : s.discord? with
  | none => rfl
  | some c =>
    rw [hc, Option.any_some, Channel.ready, Bool.and_eq_false_iff] at h
    rcases h with h | h
    · simp [h]
    · cases he : c.enabled <;> simp [h, he]

end Settings

end IvrmDashboard.Notifications
