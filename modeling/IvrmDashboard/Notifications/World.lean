import IvrmDashboard.Foundations.Runs
import IvrmDashboard.Notifications.StatusQueue

/-!
# The notification database and its calls

Everything that writes the settings, the outbox or the status queue, as one step of a machine. A
call finds the clock at any value, runs as one transaction, and leaves the tables alone when it
aborts. Signals come from the three functions that apply one; the triggers and the pass over the
cloud targets retire them.
-/

namespace IvrmDashboard.Notifications

open Sql Operations

/-- The columns of a monitoring event that is announced without a signal. -/
structure EventParams where
  eventId : ℕ
  hostId : Uuid
  serverId : String
  entityKey : String
  containerName : String
  severity : Severity
  title : String
  message : String
  detailHref : String
  occurredAt : Timestamptz
  deriving DecidableEq

/-- What `notification_monitoring_event_trigger_v1` puts into the outbox for it. -/
def EventParams.notice (p : EventParams) : Notice where
  dedupeKey := some ("monitoring-event:" ++ toString p.eventId)
  signalKey := none
  identity := ⟨.container, some p.hostId, p.serverId, .container, p.entityKey, p.containerName⟩
  transition := .event
  severity := p.severity
  title := p.title
  message := p.message
  detailHref := p.detailHref
  occurredAt := p.occurredAt

/-- What operators maintain besides the channels. -/
structure Maintained where
  expectations : List ContainerExpectation
  policies : List BackupPolicy
  suppressions : List Suppression

/-- The constraints of a suppression. -/
def Suppression.checks (p : Suppression) : List (String × Bool) :=
  [("notification_suppressions_scope_key_check", Text.lengthBetween 1 400 p.scopeKey),
    ("notification_suppressions_reason_check", Text.lengthBetween 1 256 p.reason),
    ("notification_suppressions_window_check", p.endsAt.all (p.startsAt < ·))]

/-- A call. -/
inductive Request
  | notification (p : SignalParams)
  | burn (p : BurnParams)
  | cloud (p : SignalParams)
  | event (p : EventParams)
  | maintain (m : Maintained)
  | addHost (h : MonitoredHost)
  | addChannel (c : Channel)
  | setChannel (enabled configured : Option Bool) (displayName : Option String)
  | claim (token : Option Uuid) (limit : Option ℤ)
  | gate (id : Option ℤ) (token : Option Uuid)
  | suppress (id : Option ℤ) (token : Option Uuid) (reason : Option String)
  | complete (id : Option ℤ) (token : Option Uuid) (p : DeliveryReport)
  | statusEvent (p : StatusEventParams)
  | claimStatus (provider : Option String) (token : Option Uuid) (limit : Option ℤ)
  | gateStatus (s : Publications) (id : Option ℤ) (token : Option Uuid)
  | suppressStatus (id : Option ℤ) (token : Option Uuid) (reason : Option String)
  | completeStatus (id : Option ℤ) (token : Option Uuid) (p : DeliveryReport)
  | retirePolicy (p : BackupPolicy)
  | retireHost (hostId : Uuid)
  | retireCloud (targetId : String)

/-- A call and the time at which it runs. -/
structure Call where
  now : ℤ
  request : Request

/-- The tables. -/
structure World where
  settings : Settings
  board : Board
  queue : StatusQueue

/-- What a call finds. -/
def World.env (w : World) (now : ℤ) : Env := ⟨now, w.settings⟩

namespace Settings

/-- `update notification_channels set enabled = …, configured = … where id = 1` -/
def setDiscord (s : Settings) (enabled configured : Bool) : Settings :=
  { s with
    channels := updateWhere (·.id = 1) (fun c => { c with enabled, configured }) s.channels }

/-- What operators maintain is replaced. -/
def maintain (m : Maintained) (s : Settings) : Except DbError Settings := do
  checkAll (m.suppressions.flatMap Suppression.checks)
  return { s with
    expectations := m.expectations, policies := m.policies, suppressions := m.suppressions }

/-- A further channel. -/
def addChannel (c : Channel) (s : Settings) : Except DbError Settings := do
  raiseIf (s.channels.any (·.id = c.id)) (.uniqueViolation "notification_channels_pkey")
  checkAll [("notification_channels_legacy_discord_check", c.id ≠ 1 || c.channelType = .discord),
    ("notification_channels_id_check", 1 ≤ c.id && c.id ≤ 32767)]
  return { s with channels := s.channels ++ [c] }

end Settings

/-- `set_notification_channel_v1` -/
def setNotificationChannel (enabled configured : Option Bool) (displayName : Option String)
    (w : World) : Except DbError World := do
  let enabled ← orRaise enabled (.raised "notification_channel_invalid" "22023")
  let configured ← orRaise configured (.raised "notification_channel_invalid" "22023")
  raiseIf (displayName.any fun s => !Text.lengthBetween 1 80 s)
    (.raised "notification_channel_invalid" "22023")
  raiseIf (w.settings.discord?.all (·.channelType ≠ .discord))
    (.raised "notification_discord_channel_missing" "40001")
  let settings := w.settings.setDiscord enabled configured
  if enabled && configured then return { w with settings }
  else
    let reason := if enabled then "channel_unconfigured" else "channel_disabled"
    let board ← suppressOutbox reason w.board
    let queue ← suppressChannelDeliveries reason w.queue
    return { settings, board, queue }

namespace World

/-- The tables before anything has happened: the migrations insert the Discord channel, switched
off. -/
def initial : World where
  settings := ⟨[], [], [], [], [⟨1, .discord, false, false⟩]⟩
  board := .empty
  queue := .empty

/-- The tables with another outbox. -/
def withBoard (w : World) (x : Except DbError Board) : Except DbError World :=
  x.map fun board => { w with board }

/-- The tables with another status queue. -/
def withQueue (w : World) (x : Except DbError StatusQueue) : Except DbError World :=
  x.map fun queue => { w with queue }

/-- The tables after a call, if it commits. -/
def apply (w : World) (c : Call) : Except DbError World :=
  let e := w.env c.now
  match c.request with
  | .notification p => w.withBoard ((applyNotificationSignal e p w.board).map (·.2))
  | .burn p => w.withBoard ((applyReliabilityBurnSignal e p w.board).map (·.2))
  | .cloud p => w.withBoard ((applyCloudMonitorSignal e p w.board).map (·.2))
  | .event p => w.withBoard ((enqueueNotification e p.notice w.board).map (·.2))
  | .maintain m => (w.settings.maintain m).map fun settings => { w with settings }
  | .addHost h => .ok { w with settings := { w.settings with hosts := w.settings.hosts ++ [h] } }
  | .addChannel ch => (w.settings.addChannel ch).map fun settings => { w with settings }
  | .setChannel enabled configured displayName =>
    setNotificationChannel enabled configured displayName w
  | .claim token limit => w.withBoard ((claimNotificationOutbox e w.board token limit).map (·.2))
  | .gate _ _ => .ok w
  | .suppress id token reason =>
    w.withBoard ((suppressNotificationDelivery id token reason w.board).map (·.2))
  | .complete id token p =>
    w.withBoard ((completeNotificationDelivery e id token p w.board).map (·.2))
  | .statusEvent p => w.withQueue ((createStatusNotificationEvent e p w.queue).map (·.2))
  | .claimStatus provider token limit =>
    w.withQueue ((claimNotificationDeliveries e provider token limit w.queue).map (·.2))
  | .gateStatus _ _ _ => .ok w
  | .suppressStatus id token reason =>
    w.withQueue ((suppressNotificationEventDelivery id token reason w.queue).map (·.2))
  | .completeStatus id token p =>
    w.withQueue ((completeNotificationEventDelivery e id token p w.queue).map (·.2))
  | .retirePolicy p => w.withBoard (retireBackupPolicy p w.board)
  | .retireHost hostId => w.withBoard (retireHost hostId w.board)
  | .retireCloud targetId => w.withBoard (retireCloudSignal e ("cloud:state:" ++ targetId) w.board)

/-- One call; one that aborts leaves the tables as they are. -/
def step (w : World) (c : Call) : World :=
  match w.apply c with
  | .ok w' => w'
  | .error _ => w

/-- The tables after a sequence of calls. -/
def run (w : World) (calls : List Call) : World := Runs.run step w calls

end World

/-! ## A small installation -/

def sampleHost : MonitoredHost where
  id := ⟨1⟩
  serverId := "ivrm"
  enabled := true
  displayName := "IVRM"

/-- The key of the heartbeat signal of the host. -/
def sampleKey : String := "host:00000000-0000-0000-0000-000000000001:heartbeat"

/-- The arguments of a report about the heartbeat of the host. -/
def sampleParams (active : Bool) (severity : String) (second_ : ℤ) : SignalParams where
  signalKey := some sampleKey
  sourceType := some "host"
  hostId := some sampleHost.id
  serverId := some sampleHost.serverId
  entityType := some "host"
  entityKey := some "00000000-0000-0000-0000-000000000001"
  entityName := some sampleHost.displayName
  signalType := some "heartbeat"
  active := some active
  severity := some severity
  occurredAt := some (.ofInstant (second_ * second))
  reason := some "heartbeat"
  title := some "IVRM / Heartbeat"
  detailHref := some "/infrastructure"

def sampleReport (active : Bool) (severity : String) (second_ : ℤ) : Request :=
  .notification (sampleParams active severity second_)

/-- A suppression of everything. -/
def sampleSuppression : Suppression where
  id := 1
  scopeType := .global
  scopeKey := "*"
  reason := "maintenance"
  startsAt := .ofInstant 0
  endsAt := none
  enabled := true

/-- The host is known and the channel is on. -/
def sampleStart : List Call :=
  [⟨0, .addHost sampleHost⟩, ⟨0, .setChannel (some true) (some true) none⟩]

end IvrmDashboard.Notifications
