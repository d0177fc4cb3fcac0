import IvrmDashboard.Notifications.Board

/-!
# The signals

A signal opens, escalates and recovers; what is reported earlier than the last thing seen of it
is ignored. Each of these transitions puts a notification into the outbox, and a recovery first
withdraws the announcements of the episode that were not delivered. The three functions that apply
a signal share this (`applySignal`); only the one for burn rates also takes a signal back from
critical to warning, which withdraws its critical notifications and announces nothing.

The triggers on policies and hosts, and the pass over the cloud targets, retire signals without a
notification.
-/

namespace IvrmDashboard.Notifications

open Sql Operations

/-- What a call reports about a signal. -/
structure Observation where
  signalKey : String
  identity : Identity
  signalType : String
  active : Bool
  severity : Option Level
  occurredAt : Timestamptz
  reason : String
  title : String
  detailHref : String
  deriving DecidableEq

/-- What a call answers. -/
inductive SignalResult
  | moved (t : Transition)
  | unchanged
  | staleIgnored
  | deescalated
  deriving DecidableEq

/-! ## Keys of notifications -/

/-- `'YYYYMMDDHH24MISSUS'` -/
def keyFormat : List Field := [.yyyy, .mm, .dd, .hh24, .mi, .ss, .us]

/-- `k || ':' || t || ':' || to_char(at, 'YYYYMMDDHH24MISSUS')` -/
def dedupeKey (k : String) (t : Transition) (at_ : Timestamptz) : Option String :=
  (toChar keyFormat at_).map fun time => k ++ ":" ++ t.text ++ ":" ++ time

/-- The title of a transition. -/
def transitionTitle : Transition → String → String
  | .escalated, title => "重大化: " ++ title
  | .recovered, title => "復旧: " ++ title
  | _, title => title

/-- The notification of a transition. -/
def Observation.notice (o : Observation) (t : Transition) (severity : Severity) : Notice where
  dedupeKey := dedupeKey o.signalKey t o.occurredAt
  signalKey := some o.signalKey
  identity := o.identity
  transition := t
  severity := severity
  title := transitionTitle t o.title
  message := o.reason
  detailHref := o.detailHref
  occurredAt := o.occurredAt

/-! ## Rows of a signal -/

/-- The announcements of the episode since `openedAt` that were not delivered. -/
def OutboxRow.unannounced (k : String) (openedAt : Timestamptz) (r : OutboxRow) : Bool :=
  r.signalKey = some k && r.transition.announces && openedAt ≤ r.occurredAt && r.status.undelivered

/-- The critical notifications of the episode since `openedAt` that were not delivered. -/
def OutboxRow.undeliveredCritical (k : String) (openedAt : Timestamptz) (r : OutboxRow) : Bool :=
  r.signalKey = some k && r.severity = .critical && openedAt ≤ r.occurredAt && r.status.undelivered

/-- The signal the first report opens. -/
def Observation.opening (o : Observation) (level : Level) : Signal where
  signalKey := o.signalKey
  identity := o.identity
  signalType := o.signalType
  severity := level
  active := true
  openedAt := o.occurredAt
  lastSeenAt := o.occurredAt
  recoveredAt := none
  reason := o.reason
  detailHref := o.detailHref

/-- A signal that recovered opens again. -/
def Signal.reopen (s : Signal) (o : Observation) (level : Level) (reidentifies : Bool) : Signal :=
  if reidentifies then o.opening level
  else { o.opening level with
    signalKey := s.signalKey, identity := s.identity, signalType := s.signalType }

/-- A signal seen again while it is active. -/
def Signal.see (s : Signal) (o : Observation) (level : Level) : Signal :=
  { s with
    severity := level, lastSeenAt := o.occurredAt, reason := o.reason, detailHref := o.detailHref }

/-- A signal that recovers. -/
def Signal.recover (s : Signal) (o : Observation) : Signal :=
  { s with
    active := false
    lastSeenAt := o.occurredAt
    recoveredAt := some (max s.openedAt o.occurredAt)
    reason := o.reason
    detailHref := o.detailHref }

/-! ## Applying a report -/

/-- How one of the functions differs from the others. -/
structure Variant where
  deescalates : Bool
  reidentifies : Bool
  enqueue : Env → Notice → Board → Except DbError (ℕ × Board)

namespace Variant

variable (v : Variant) (e : Env)

/-- The notification of a transition, and the answer. -/
def announce (o : Observation) (t : Transition) (severity : Severity) (b : Board) :
    Except DbError (SignalResult × Board) := do
  let r ← v.enqueue e (o.notice t severity) b
  return (.moved t, r.2)

/-- A report that the signal is active, about a signal that is. -/
def again (o : Observation) (level : Level) (s : Signal) (b : Board) :
    Except DbError (SignalResult × Board) :=
  if s.severity.rank < level.rank then do
    let b ← b.updateSignal e (s.see o level)
    v.announce e o .escalated level.severity b
  else if v.deescalates && level.rank < s.severity.rank then do
    let b ← b.updateOutbox (OutboxRow.undeliveredCritical o.signalKey s.openedAt)
      (OutboxRow.suppress "signal_deescalated_before_delivery")
    let b ← b.updateSignal e (s.see o level)
    return (.deescalated, b)
  else do
    let b ← b.updateSignal e (s.see o s.severity)
    return (.unchanged, b)

/-- A report that the signal has recovered, about a signal that is active. -/
def recover (o : Observation) (s : Signal) (b : Board) : Except DbError (SignalResult × Board) := do
  let b ← b.updateOutbox (OutboxRow.unannounced o.signalKey s.openedAt)
    (OutboxRow.suppress "signal_recovered_before_delivery")
  let b ← b.updateSignal e (s.recover o)
  v.announce e o .recovered .recovery b

/-- The body the three functions share, after the check of their arguments. -/
def applySignal (o : Observation) (b : Board) : Except DbError (SignalResult × Board) :=
  match b.signal? o.signalKey with
  | none =>
    if o.active then do
      let level ← orRaise o.severity (.notNullViolation "severity")
      let b ← b.insertSignal e (o.opening level)
      v.announce e o .opened level.severity b
    else .ok (.unchanged, b)
  | some s =>
    if o.occurredAt < s.lastSeenAt then .ok (.staleIgnored, b)
    else if o.active then do
      let level ← orRaise o.severity (.notNullViolation "severity")
      if !s.active then
        let b ← b.updateSignal e (s.reopen o level v.reidentifies)
        v.announce e o .opened level.severity b
      else v.again e o level s b
    else if !s.active then .ok (.unchanged, b)
    else v.recover e o s b

end Variant

/-- The report opens its signal. -/
def Board.opens (b : Board) (o : Observation) : Bool :=
  o.active && (b.signal? o.signalKey).all fun s => !s.active && s.lastSeenAt ≤ o.occurredAt

/-! ## The three functions -/

/-- The arguments of `apply_notification_signal_v1` and `apply_cloud_monitor_signal_v1`. -/
structure SignalParams where
  signalKey : Option String
  sourceType : Option String
  hostId : Option Uuid
  serverId : Option String
  entityType : Option String
  entityKey : Option String
  entityName : Option String
  signalType : Option String
  active : Option Bool
  severity : Option String
  occurredAt : Option Timestamptz
  reason : Option String
  title : Option String
  detailHref : Option String
  deriving DecidableEq

/-- The observation of the arguments, if none is missing and all are in their limits. -/
def SignalParams.observation? (p : SignalParams) (identityOk : Identity → Bool) :
    Option Observation := do
  let signalKey ← p.signalKey.filter (Text.lengthBetween 1 500)
  let sourceType ← p.sourceType.bind Source.ofText?
  let serverId ← p.serverId
  let entityType ← p.entityType.bind Source.ofText?
  let entityKey ← p.entityKey.filter (Text.lengthBetween 1 400)
  let entityName ← p.entityName.filter (Text.lengthBetween 1 256)
  let signalType ← p.signalType.filter (Text.lengthBetween 1 80)
  let active ← p.active
  let severity ← p.severity.bind Level.ofText?
  let occurredAt ← p.occurredAt
  let reason ← p.reason.filter (Text.lengthBetween 1 1800)
  let title ← p.title.filter (Text.lengthBetween 1 140)
  let detailHref ← p.detailHref.filter relativeHrefOk
  let identity : Identity := ⟨sourceType, p.hostId, serverId, entityType, entityKey, entityName⟩
  if identityOk identity then
    some ⟨signalKey, identity, signalType, active, some severity, occurredAt, reason, title,
      detailHref⟩
  else none

/-- The source and the entity belong to a host that is named. -/
def Identity.hostNamed (i : Identity) : Bool :=
  i.sourceType.ofHost && i.hostId.isSome && Text.lengthBetween 1 128 i.serverId &&
    i.entityType.ofHost

/-- The source and the entity are the cloud, which has no host. -/
def Identity.cloudNamed (i : Identity) : Bool :=
  i.sourceType = .cloud && i.hostId.isNone && i.serverId = "ivrm" && i.entityType = .cloud

def notificationVariant : Variant := ⟨false, true, enqueueNotification⟩

def reliabilityVariant : Variant := ⟨true, false, enqueueReliabilityNotification⟩

def cloudVariant : Variant := ⟨false, true, enqueueCloudNotification⟩

/-- `apply_notification_signal_v1` -/
def applyNotificationSignal (e : Env) (p : SignalParams) (b : Board) :
    Except DbError (SignalResult × Board) := do
  let o ← orRaise (p.observation? Identity.hostNamed) (.raised "notification_signal_invalid" "22023")
  notificationVariant.applySignal e o b

/-- `apply_cloud_monitor_signal_v1` -/
def applyCloudMonitorSignal (e : Env) (p : SignalParams) (b : Board) :
    Except DbError (SignalResult × Board) := do
  let o ← orRaise (p.observation? Identity.cloudNamed) (.raised "notification_signal_invalid" "22023")
  cloudVariant.applySignal e o b

/-- The arguments of `apply_reliability_burn_signal_v1`. -/
structure BurnParams where
  serviceId : Option String
  active : Option Bool
  severity : Option String
  occurredAt : Option Timestamptz
  reason : Option String
  deriving DecidableEq

/-- The name of a service. -/
def burnServiceName (serviceId : String) : String :=
  if serviceId = "overall" then "Overall Reliability"
  else if serviceId = "host" then "Host Platform"
  else if serviceId = "container" then "Container Runtime"
  else "Backup Protection"

/-- The key of the burn rate signal of a service. -/
def burnSignalKey (serviceId : String) : String := "reliability:slo_burn_rate:" ++ serviceId

/-- The identity of the burn rate signal of a service. -/
def burnIdentity (serviceId : String) : Identity :=
  ⟨.reliability, none, "ivrm", .reliability, serviceId, burnServiceName serviceId⟩

/-- What a valid call reports. -/
def burnObservation (serviceId : String) (active : Bool) (severity : Option Level)
    (occurredAt : Timestamptz) (reason : String) : Observation where
  signalKey := burnSignalKey serviceId
  identity := burnIdentity serviceId
  signalType := "slo_burn_rate"
  active := active
  severity := severity
  occurredAt := occurredAt
  reason := reason
  title := burnServiceName serviceId ++ " / SLO Burn Rate"
  detailHref := "/reliability?range=24h#burn-rate"

/-- `apply_reliability_burn_signal_v1`. The check lets a missing service or severity through; they
matter only when the signal is active. -/
def applyReliabilityBurnSignal (e : Env) (p : BurnParams) (b : Board) :
    Except DbError (SignalResult × Board) := do
  raiseIf (p.serviceId.any (· ∉ burnServices) || p.severity.any fun s => (Level.ofText? s).isNone)
    (.raised "reliability_burn_signal_invalid" "22023")
  let active ← orRaise p.active (.raised "reliability_burn_signal_invalid" "22023")
  let occurredAt ← orRaise p.occurredAt (.raised "reliability_burn_signal_invalid" "22023")
  let reason ← orRaise (p.reason.filter (Text.lengthBetween 1 1800))
    (.raised "reliability_burn_signal_invalid" "22023")
  match p.serviceId with
  | none =>
    if active then .error (.notNullViolation "signal_key") else .ok (.unchanged, b)
  | some serviceId =>
    reliabilityVariant.applySignal e
      (burnObservation serviceId active (p.severity.bind Level.ofText?) occurredAt reason) b

/-! ## Retirement -/

/-- The signals of a policy that go with it. -/
def policySignalKeys (p : BackupPolicy) : List String :=
  ["backup_age", "remote_sync", "retention", "restore_test"].map fun kind =>
    "backup:" ++ p.entityKey ++ ":" ++ kind

/-- `status in ('pending', 'retry', 'sending', 'suppressed')` -/
def OutboxRow.retirable (r : OutboxRow) : Bool := r.status.undelivered || r.status = .suppressed

/-- The rows that go with a policy. -/
def OutboxRow.ofPolicy (p : BackupPolicy) (r : OutboxRow) : Bool :=
  r.signalKey.any (· ∈ policySignalKeys p) && r.retirable

/-- The rows that go with a host. -/
def OutboxRow.ofHost (hostId : Uuid) (r : OutboxRow) : Bool :=
  r.identity.hostId = some hostId && r.retirable

/-- The undelivered rows of a cloud target. -/
def OutboxRow.ofTarget (k : String) (r : OutboxRow) : Bool :=
  r.signalKey = some k && r.status.undelivered

/-- `notification_backup_policy_retire_v1`, for a policy that is disabled or deleted -/
def retireBackupPolicy (p : BackupPolicy) (b : Board) : Except DbError Board := do
  let b ← b.updateOutbox (OutboxRow.ofPolicy p) (OutboxRow.suppress "backup_policy_disabled")
  return { b with signals := b.signals.filter (·.signalKey ∉ policySignalKeys p) }

/-- `notification_host_disable_retire_v1`, for a host that is disabled -/
def retireHost (hostId : Uuid) (b : Board) : Except DbError Board := do
  let b ← b.updateOutbox (OutboxRow.ofHost hostId) (OutboxRow.suppress "host_disabled")
  return { b with signals := b.signals.filter (·.identity.hostId ≠ some hostId) }

/-- A signal that is retired in place. -/
def Signal.close (t : Timestamptz) (s : Signal) : Signal :=
  { s with active := false, recoveredAt := some (max s.openedAt t) }

/-- What `reconcile_cloud_monitor_signals_v1` does for a target that is disabled. -/
def retireCloudSignal (e : Env) (k : String) (b : Board) : Except DbError Board := do
  let b ←
    match b.signal? k with
    | some s => if s.active then b.updateSignal e (s.close e.at) else .ok b
    | none => .ok b
  b.updateOutbox (OutboxRow.ofTarget k) (OutboxRow.suppress "cloud_target_disabled")

end IvrmDashboard.Notifications
