import Mathlib.Data.List.Dedup
import IvrmDashboard.Foundations.DateTime
import IvrmDashboard.Foundations.Js.Json
import IvrmDashboard.Foundations.Js.Throws
import IvrmDashboard.Foundations.Sql.Result

/-!
# The runtime inventory

A host reports the state of its containers under a signature. The route parses the request
(`parseRuntimeInventory`), and the database checks it once more and keeps the latest report of every
host (`ingestRuntimeInventory`). Both have a list of the containers each host is expected to report.
-/

namespace IvrmDashboard.Monitoring

open Sql

/-! ## What both sides test -/

/-- The values of `state`. -/
def runtimeStates : List String :=
  ["created", "running", "paused", "restarting", "removing", "exited", "dead"]

/-- The values of `health`. -/
def runtimeHealths : List String := ["starting", "healthy", "unhealthy", "none"]

/-- `s ~ '^[a-zA-Z0-9][a-zA-Z0-9._:/@-]{0,254}$'` -/
def imageOk (s : String) : Bool :=
  let alnum c := Text.lowerAlpha c || Text.upperAlpha c || Text.digit c
  Text.lengthBetween 1 255 s && s.toList.head?.all alnum &&
    s.toList.all fun c => alnum c || c ∈ "._:/@-".toList

/-- `s ~ '^sha256:[0-9a-f]{64}$'` -/
def imageIdOk (s : String) : Bool :=
  s.toList.take 7 = "sha256:".toList && s.toList.length = 71 &&
    (s.toList.drop 7).all Text.hexDigit

/-- The keys of an entry whose container could be observed. -/
def observedKeys : List String :=
  ["name", "collection", "state", "health", "restartCount", "oomKilled", "exitCode", "image",
    "imageId"]

/-! ## The route -/

/-- `JSON.parse` of the decoded bytes; both of them throw. -/
class JsonParser where
  parse : ByteArray → Except String Js.Json

/-- `RUNTIME_CONTAINERS` -/
def runtimeContainers : List (String × List String) :=
  [("aws-app-01", ["ivrm-admin", "ivrm-api", "ivrm-home", "ivrm-member", "ivrm-contact",
      "ivrm-cloudflared", "ivrm-runtime-caddy", "ivrm-runtime-health"]),
    ("lightsail-herta", ["herta-api-1", "herta-studio-1", "herta-worker-1", "herta-bot-1",
      "herta-postgres-1", "herta-redis-1", "herta-caddy-1", "herta-nginx-1"]),
    ("oci-minecraft-01", ["mc-main", "ivrm-velocity", "mc-resource-router", "ivrm-status-api",
      "caddy"])]

/-- What the parser returns. -/
structure RuntimeInventory where
  serverId : String
  observedAt : String
  containers : List Js.Json

open Js in
/-- `Object.keys(v).sort().join() === …`, the other side sorted and joined alike. -/
def hasExactly (v : Json) (expected : List String) : Bool :=
  join (sorted v.keys) = join (sorted expected)

/-- `/(Z|[+-]\d\d:\d\d)$/` -/
def endsWithZone (s : String) : Bool :=
  s.toList.getLast? = some 'Z' ||
    match (s.toList.reverse.take 6).reverse with
    | [sign, a, b, colon, c, d] => (sign = '+' || sign = '-') && colon = ':' &&
        [a, b, c, d].all Char.isDigit
    | _ => false

open Js in
/-- A whole number from 0 to `hi`. -/
def integerWithin (hi : ℕ) : Option Json → Bool
  | some (.num x) => x.isInteger && !x.isNegative && !x.exceeds hi
  | _ => false

open Js in
/-- The string under a key passes the test. -/
def stringOk (v : Json) (k : String) (test : String → Bool) : Bool :=
  ((v.get? k).bind Json.str?).any test

open Js in
def isBoolean : Option Json → Bool
  | some (.bool _) => true
  | _ => false

open Js in
/-- The tests of one row, apart from its name. -/
def runtimeRowOk (row : Json) : Bool :=
  if (row.get? "collection").bind Json.str? = some "unavailable" then
    hasExactly row ["collection", "name"]
  else if (row.get? "collection").bind Json.str? = some "ok" then
    hasExactly row observedKeys && stringOk row "state" (· ∈ runtimeStates) &&
      stringOk row "health" (· ∈ runtimeHealths) && isBoolean (row.get? "oomKilled") &&
      integerWithin 2147483647 (row.get? "restartCount") &&
      integerWithin 255 (row.get? "exitCode") && stringOk row "image" imageOk &&
      stringOk row "imageId" imageIdOk
  else false

open Js in
/-- The loop over the rows; `seen` are the names so far. -/
def checkRows (expected : List String) : List String → List Json → Except String Unit
  | _, [] => .ok ()
  | seen, row :: rows => do
    throwIf (!row.isObject) "invalid_payload"
    let name ← orThrow ((row.get? "name").bind Json.str?) "invalid_payload"
    throwIf (name ∉ expected || name ∈ seen || !runtimeRowOk row) "invalid_payload"
    checkRows expected (name :: seen) rows

open Js in
/-- `parseRuntimeInventory` -/
def parseRuntimeInventory [JsonParser] (raw : ByteArray) (now : ℤ) :
    Except String RuntimeInventory := do
  throwIf (32768 < raw.size) "invalid_payload"
  let payload ← JsonParser.parse raw
  throwIf (!payload.isObject ||
    !hasExactly payload ["containers", "kind", "observedAt", "serverId"] ||
    !stringOk payload "kind" (· = "runtime-inventory-v1")) "invalid_payload"
  let serverId ← orThrow ((payload.get? "serverId").bind Json.str?) "invalid_payload"
  let expected ← orThrow (runtimeContainers.lookup serverId) "invalid_payload"
  let observedAt ← orThrow ((payload.get? "observedAt").bind Json.str?) "invalid_payload"
  throwIf (!endsWithZone observedAt) "invalid_payload"
  let time ← orThrow (parseDateTime observedAt) "invalid_payload"
  throwIf (time < now - 300000 || now + 30000 < time) "invalid_payload"
  let containers ← orThrow ((payload.get? "containers").bind Json.arr?) "invalid_payload"
  throwIf (containers.length ≠ expected.length) "invalid_payload"
  checkRows expected [] containers
  return { serverId, observedAt, containers }

/-! ## The database -/

/-- What `ingest_runtime_inventory_v1` returns. -/
inductive InventoryAnswer
  | targetNotAllowed
  | unknownAgent
  | invalidPayload
  | replayedRequest
  | rateLimited
  | accepted
  deriving DecidableEq

/-- The containers a server is expected to report. -/
def expectedContainers (serverId : String) : Option (List String) :=
  if serverId = "aws-app-01" then
    some ["ivrm-admin", "ivrm-api", "ivrm-home", "ivrm-member", "ivrm-contact",
      "ivrm-cloudflared", "ivrm-runtime-caddy", "ivrm-runtime-health"]
  else if serverId = "lightsail-herta" then
    some ["herta-api-1", "herta-studio-1", "herta-worker-1", "herta-bot-1", "herta-postgres-1",
      "herta-redis-1", "herta-caddy-1", "herta-nginx-1"]
  else if serverId = "oci-minecraft-01" then
    some ["mc-main", "ivrm-velocity", "mc-resource-router", "ivrm-status-api", "caddy"]
  else none

/-- A row of `runtime_inventory`. -/
structure InventoryRow where
  observedAt : Timestamptz
  receivedAt : ℤ
  nonce : String
  containers : Jsonb

/-- `runtime_inventory`, by its primary key `server_id`. -/
abbrev Inventory := String → Option InventoryRow

/-- The table with the row of one server. -/
def Inventory.put (t : Inventory) (serverId : String) (row : InventoryRow) : Inventory :=
  fun s => if s = serverId then some row else t s

@[simp] theorem Inventory.put_same (t : Inventory) (serverId : String) (row : InventoryRow) :
    t.put serverId row serverId = some row :=
  if_pos rfl

theorem Inventory.put_other (t : Inventory) {serverId s : String} (row : InventoryRow)
    (h : s ≠ serverId) : t.put serverId row s = t s :=
  if_neg h

/-- What a call finds: the hosts that are enrolled, and its readings of the clock. -/
structure InventoryCall where
  enrolled : String → Bool
  earliest : ℤ
  latest : ℤ
  limited : ℤ
  stored : ℤ

/-- The arguments; each may be `NULL`. -/
structure InventoryParams where
  serverId : Option String
  observedAt : Option Timestamptz
  nonce : Option String
  containers : Option Jsonb

/-- `s ~ '^[0-9]{1,hi}$'` -/
def digitsWithin (hi : ℕ) (s : String) : Bool :=
  Text.lengthBetween 1 hi s && s.toList.all Text.digit

/-- `s::bigint` and `s::integer`, for a text of digits; `hi` is the greatest value of the type. -/
def castDigits (hi : ℕ) (s : String) : Except DbError ℕ := do
  raiseIf (!digitsWithin s.length s) (.raised "invalid input syntax for type integer" "22P02")
  raiseIf (hi < Nat.ofDigitChars 10 s.toList 0) (.raised "value out of range" "22003")
  return Nat.ofDigitChars 10 s.toList 0

/-- The text under a key passes the test; what is `NULL` does not. -/
def textOk (item : Jsonb) (k : String) (test : String → Bool) : Bool := (item.getText k).any test

/-- The value under a key has the type. -/
def hasType (item : Jsonb) (k type : String) : Bool := (item.get? k).any (·.typeof = type)

/-- The tests of an entry whose container could be observed, but for the size of its numbers. -/
def observedEntryOk (item : Jsonb) : Bool :=
  item.keys.length = 9 && item.hasKeys observedKeys && textOk item "state" (· ∈ runtimeStates) &&
    textOk item "health" (· ∈ runtimeHealths) && hasType item "oomKilled" "boolean" &&
    hasType item "restartCount" "number" && textOk item "restartCount" (digitsWithin 10) &&
    hasType item "exitCode" "number" && textOk item "exitCode" (digitsWithin 3) &&
    hasType item "image" "string" && textOk item "image" imageOk &&
    hasType item "imageId" "string" && textOk item "imageId" imageIdOk

/-- A number under a key is above the limit. -/
def numberAbove (item : Jsonb) (k : String) (type limit : ℕ) : Except DbError Bool := do
  let n ← castDigits type ((item.getText k).getD "")
  return limit < n

/-- One turn of the loop: what is returned there, if anything. -/
def checkItem (expected : List String) (item : Jsonb) :
    Except DbError (Option InventoryAnswer) := do
  if !item.isObject then return some .invalidPayload
  if !textOk item "name" (· ∈ expected) then return some .targetNotAllowed
  if textOk item "collection" (· = "unavailable") then
    return if item.keys.length ≠ 2 then some .invalidPayload else none
  else if textOk item "collection" (· = "ok") then
    if !observedEntryOk item then return some .invalidPayload
    let restartCountAbove ← numberAbove item "restartCount" 9223372036854775807 2147483647
    let exitCodeAbove ← numberAbove item "exitCode" 2147483647 255
    return if restartCountAbove || exitCodeAbove then some .invalidPayload else none
  else return some .invalidPayload

/-- The loop over the items. -/
def checkItems (expected : List String) : List Jsonb → Except DbError (Option InventoryAnswer)
  | [] => .ok none
  | item :: items => do
    match ← checkItem expected item with
    | some answer => return some answer
    | none => checkItems expected items

/-- The tests before the loop. -/
def payloadOk (v : InventoryCall) (p : InventoryParams) (expected : List String) : Bool :=
  p.nonce.any (Text.matchesExactly Text.hexDigit 32) &&
    p.observedAt.any (fun t => .ofInstant (v.earliest - 300 * second) ≤ t &&
      t ≤ .ofInstant (v.latest + 30 * second)) &&
    p.containers.any fun c => c.typeof = "array" && c.octetLength ≤ 30000 &&
      c.elements.length = expected.length &&
      (c.elements.filterMap (·.getText "name")).dedup.length = expected.length

/-- The report repeats the one that is stored, or is older. -/
def replayed (p : InventoryParams) (previous : InventoryRow) : Bool :=
  p.nonce = some previous.nonce || p.observedAt.any (· ≤ previous.observedAt)

/-- `insert … on conflict (server_id) do update`, with the constraints of the table. -/
def storeInventory (v : InventoryCall) (serverId : String) (p : InventoryParams) (t : Inventory) :
    Except DbError Inventory := do
  let observedAt ← orRaise p.observedAt (.notNullViolation "observed_at")
  let nonce ← orRaise p.nonce (.notNullViolation "nonce")
  let containers ← orRaise p.containers (.notNullViolation "containers")
  checkAll [("runtime_inventory_containers_check",
    containers.typeof = "array" && containers.elements.length ≤ 20)]
  return t.put serverId ⟨observedAt, v.stored, nonce, containers⟩

/-- `ingest_runtime_inventory_v1` -/
def ingestRuntimeInventory (v : InventoryCall) (p : InventoryParams) (t : Inventory) :
    Except DbError (InventoryAnswer × Inventory) := do
  match p.serverId, p.serverId.bind expectedContainers with
  | some serverId, some expected =>
    if !v.enrolled serverId then return (.unknownAgent, t)
    if !payloadOk v p expected then return (.invalidPayload, t)
    match ← checkItems expected (p.containers.elim [] (·.elements)) with
    | some answer => return (answer, t)
    | none =>
      if (t serverId).any (replayed p) then return (.replayedRequest, t)
      if (t serverId).any fun previous => v.limited - 15 * second < previous.receivedAt then
        return (.rateLimited, t)
      let t ← storeInventory v serverId p t
      return (.accepted, t)
  | _, _ => return (.targetNotAllowed, t)

/-- The request of the web application: the arguments are read from its JSON. -/
def requestRuntimeInventory [FractionReading] (v : InventoryCall) (payload : RuntimeInventory)
    (nonce : String) (t : Inventory) : Except DbError (InventoryAnswer × Inventory) := do
  let observedAt ← orRaise (castTimestamptz payload.observedAt)
    (.raised "invalid input syntax for type timestamp with time zone" "22007")
  ingestRuntimeInventory v
    { serverId := some payload.serverId
      observedAt := some (.ofInstant observedAt)
      nonce := some nonce
      containers := some (Js.Json.arr payload.containers).toJsonb } t

end IvrmDashboard.Monitoring
