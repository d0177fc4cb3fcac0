import Mathlib.Data.List.Sort
import IvrmDashboard.Foundations.Intervals
import IvrmDashboard.Reliability.Windows

/-!
# Downtime that counts

The service levels are computed from the incidents of a range. The interval of an incident is cut
to the range, what maintenance windows exclude is taken out of it (`subtractIntervals`), and the
rest of all incidents is added up without counting an instant twice (`unionSeconds`). Times are
milliseconds; `parse` is `Date.parse`, with `none` for a date it does not read.
-/

namespace IvrmDashboard.Reliability

/-! ## Incidents and windows, as the web application has them -/

/-- What the metrics read of an incident that is not over. -/
structure ActiveIncident extends Incident where
  startedAt : Option String
  exactStart : Bool

/-- What the metrics read of an incident that is over. -/
structure RecoveredIncident extends Incident where
  startedAt : String
  recoveredAt : String

/-- A window as the database returns it. -/
structure MaintenanceWindow where
  scopeType : ScopeType
  serviceId : Option String
  hostId : Option String
  containerName : Option String
  backupTarget : Option String
  gameMode : Option String
  backupType : Option String
  startsAt : String
  endsAt : String
  cancelledAt : Option String

/-- The window applies to the incident. -/
def MaintenanceWindow.appliesToIncident (w : MaintenanceWindow) (i : Incident) : Bool :=
  maintenanceExcludable i &&
    match w.scopeType with
    | .service => w.serviceId = some "overall" || w.serviceId = some i.entityType.text
    | .host => w.hostId = some i.hostId
    | .container => i.entityType = .container && w.hostId = some i.hostId &&
        w.containerName = i.containerName
    | .backup => i.entityType = .backup && w.hostId = some i.hostId &&
        w.backupTarget = i.backupTarget && w.gameMode = i.gameMode && w.backupType = i.backupType

/-- A date that is there; an empty text counts as none. -/
def truthy (date : Option String) : Option String := date.filter (· ≠ "")

/-- The start of an active incident, where it is known. -/
def ActiveIncident.knownStart (i : ActiveIncident) : Option String :=
  if i.exactStart then truthy i.startedAt else none

/-! ## Intervals -/

/-- The interval, if it has an inside. -/
def nonempty (i : Period) : Option Period := if i.start < i.finish then some i else none

/-- `clipInterval`, for ends that have been parsed. -/
def clipInterval (startedAt endedAt : Option ℤ) (rangeStart rangeEnd : ℤ) : Option Period := do
  let start ← startedAt
  let finish ← endedAt
  nonempty ⟨max start rangeStart, min finish rangeEnd⟩

/-- `a.start - b.start || a.end - b.end` -/
def intervalOrder (a b : Period) : Prop :=
  a.start < b.start ∨ (a.start = b.start ∧ a.finish ≤ b.finish)

instance : DecidableRel intervalOrder := fun _ _ => instDecidableOr

/-- The loop of `unionSeconds`. -/
def unionMilliseconds (current : Period) (milliseconds : ℤ) : List Period → ℤ
  | [] => milliseconds + current.finish - current.start
  | interval :: rest =>
    if interval.start ≤ current.finish then
      unionMilliseconds ⟨current.start, max current.finish interval.finish⟩ milliseconds rest
    else
      unionMilliseconds interval (milliseconds + (current.finish - current.start)) rest

/-- The sum of `unionSeconds`, before it is rounded. -/
def unionTotal (intervals : List Period) : ℤ :=
  match intervals.insertionSort intervalOrder with
  | [] => 0
  | first :: rest => unionMilliseconds first 0 rest

/-- `unionSeconds` -/
def unionSeconds (intervals : List Period) : ℤ := unionTotal intervals / 1000

/-- The loop of `subtractIntervals`, with what is pushed after it. -/
def subtractFrom (source : Period) (cursor : ℤ) : List Period → List Period
  | [] => if cursor < source.finish then [⟨cursor, source.finish⟩] else []
  | exclusion :: rest =>
    if exclusion.finish ≤ cursor then subtractFrom source cursor rest
    else
      (if cursor < exclusion.start then [⟨cursor, min exclusion.start source.finish⟩] else []) ++
        if source.finish ≤ max cursor exclusion.finish then []
        else subtractFrom source (max cursor exclusion.finish) rest

/-- The exclusions of `subtractIntervals`, cut to the source and in order. -/
def clippedExclusions (source : Period) (exclusions : List Period) : List Period :=
  (exclusions.filterMap fun e =>
    nonempty ⟨max source.start e.start, min source.finish e.finish⟩).insertionSort intervalOrder

/-- `subtractIntervals` -/
def subtractIntervals (source : Period) (exclusions : List Period) : List Period :=
  match clippedExclusions source exclusions with
  | [] => [source]
  | clipped => (subtractFrom source source.start clipped).filter fun i => i.start < i.finish

section

variable (parse : String → Option ℤ)

/-- The end of a window, or the time it was cancelled if that is earlier. -/
def MaintenanceWindow.effectiveEnd (w : MaintenanceWindow) : Option ℤ :=
  match truthy w.cancelledAt with
  | some cancelledAt => do
    let endsAt ← parse w.endsAt
    let cancelledAt ← parse cancelledAt
    return min endsAt cancelledAt
  | none => parse w.endsAt

/-- `effectiveWindowInterval` -/
def MaintenanceWindow.effectiveInterval (w : MaintenanceWindow) (rangeStart rangeEnd : ℤ) :
    Option Period :=
  clipInterval (parse w.startsAt) (w.effectiveEnd parse) rangeStart rangeEnd

/-- The interval of an incident that is over. -/
def RecoveredIncident.interval (i : RecoveredIncident) (rangeStart rangeEnd : ℤ) :
    Option Period :=
  clipInterval (parse i.startedAt) (parse i.recoveredAt) rangeStart rangeEnd

/-- The interval of an incident that is not over. It lasts until the end of the range, which is
passed as a date and read back. -/
def ActiveIncident.interval (i : ActiveIncident) (rangeStart rangeEnd : ℤ) : Option Period :=
  i.knownStart.bind fun startedAt =>
    clipInterval (parse startedAt) (some rangeEnd) rangeStart rangeEnd

/-! ## The adjustment -/

/-- What `collectMaintenanceAdjustedDowntime` returns. -/
structure Downtime where
  rawDowntimeSeconds : ℤ
  countedDowntimeSeconds : ℤ
  excludedMaintenanceSeconds : ℤ
  exactCoverage : Bool
  deriving DecidableEq

/-- The intervals of the windows that apply to an incident. -/
def exclusionsOf (windows : List MaintenanceWindow) (rangeStart rangeEnd : ℤ) (i : Incident) :
    List Period :=
  windows.filterMap fun w =>
    if w.appliesToIncident i then w.effectiveInterval parse rangeStart rangeEnd else none

/-- What is left of the interval of an incident. -/
def countedOf (windows : List MaintenanceWindow) (rangeStart rangeEnd : ℤ) (i : Incident)
    (interval : Option Period) : List Period :=
  interval.toList.flatMap fun source =>
    subtractIntervals source (exclusionsOf parse windows rangeStart rangeEnd i)

/-- `rawIntervals` -/
def rawIntervals (active : List ActiveIncident) (recovered : List RecoveredIncident)
    (rangeStart rangeEnd : ℤ) : List Period :=
  recovered.filterMap (·.interval parse rangeStart rangeEnd) ++
    active.filterMap (·.interval parse rangeStart rangeEnd)

/-- `countedIntervals` -/
def countedIntervals (active : List ActiveIncident) (recovered : List RecoveredIncident)
    (windows : List MaintenanceWindow) (rangeStart rangeEnd : ℤ) : List Period :=
  (recovered.flatMap fun i => countedOf parse windows rangeStart rangeEnd i.toIncident
      (i.interval parse rangeStart rangeEnd)) ++
    active.flatMap fun i => countedOf parse windows rangeStart rangeEnd i.toIncident
      (i.interval parse rangeStart rangeEnd)

/-- `collectMaintenanceAdjustedDowntime` -/
def collectMaintenanceAdjustedDowntime (active : List ActiveIncident)
    (recovered : List RecoveredIncident) (windows : List MaintenanceWindow)
    (rangeStart rangeEnd : ℤ) : Downtime where
  rawDowntimeSeconds := unionSeconds (rawIntervals parse active recovered rangeStart rangeEnd)
  countedDowntimeSeconds :=
    unionSeconds (countedIntervals parse active recovered windows rangeStart rangeEnd)
  excludedMaintenanceSeconds :=
    max 0 (unionSeconds (rawIntervals parse active recovered rangeStart rangeEnd) -
      unionSeconds (countedIntervals parse active recovered windows rangeStart rangeEnd))
  exactCoverage := active.all (·.knownStart.isSome)

end

end IvrmDashboard.Reliability
