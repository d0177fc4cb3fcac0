import IvrmDashboard.Foundations.Sql.Jsonb
import IvrmDashboard.Foundations.Sql.Logic
import IvrmDashboard.Foundations.Sql.Result
import IvrmDashboard.Foundations.Sql.Timestamp

/-!
# The audit log

`appendAuditLog` validates one entry, hashes it together with the last hash of the chain and
appends it. The tables are `audit_logs`, in the order of their identity column, and the one row of
`audit_log_chain_state`. The row lock on the latter makes a call one step; the clock is read
before the lock is taken, so the timestamps of successive rows need not increase.
-/

namespace IvrmDashboard

open Sql

/-! ## Sensitive keys -/

/-- The keys that may not occur in stored JSON, at any depth. -/
def sensitiveKeys : List String :=
  ["secret", "password", "token", "command", "rcon_password", "forwarding_secret", "access_jwt",
    "authorization", "cookie"]

mutual

/-- `jsonb_contains_sensitive_key` -/
def jsonbContainsSensitiveKey [Server] : Jsonb → Bool
  | .obj fields => fieldsContainSensitiveKey fields
  | .arr items => itemsContainSensitiveKey items
  | _ => false

/-- The `exists` over `jsonb_each`. -/
def fieldsContainSensitiveKey [Server] : List (String × Jsonb) → Bool
  | [] => false
  | (k, v) :: fields =>
    (Text.lower k ∈ sensitiveKeys || jsonbContainsSensitiveKey v) ||
      fieldsContainSensitiveKey fields

/-- The `exists` over `jsonb_array_elements`. -/
def itemsContainSensitiveKey [Server] : List Jsonb → Bool
  | [] => false
  | v :: items => jsonbContainsSensitiveKey v || itemsContainSensitiveKey items

end

/-- The test every stored JSON object has to pass: an object, of limited size, without
sensitive keys. -/
def safeObject [Server] (v : Jsonb) : Bool :=
  v.isObject && v.octetLength ≤ 8192 && !jsonbContainsSensitiveKey v

/-! ## The tables -/

namespace Audit

/-- The arguments of `append_audit_log`; each may be `NULL`. -/
structure Entry where
  requestId : Option Uuid
  actorUserId : Option Uuid
  actorEmail : Option String
  actorRole : Option String
  actorIp : Option Inet
  action : Option String
  targetType : Option String
  targetId : Option String
  result : Option String
  metadata : Option Jsonb

/-- The columns of a row that its hash covers. -/
structure Columns where
  requestId : Uuid
  actorUserId : Option Uuid
  actorEmail : Option String
  actorRole : Option String
  actorIp : Option Inet
  action : String
  targetType : String
  targetId : Option String
  result : String
  metadata : Jsonb
  occurredAt : Timestamptz
  deriving DecidableEq

/-- A row of `audit_logs`. -/
structure AuditLog extends Columns where
  id : ℕ
  previousHash : Option String
  entryHash : String

/-- The row of `audit_log_chain_state`. -/
structure ChainState where
  lastLogId : Option ℕ
  lastEntryHash : Option String
  updatedAt : ℤ

/-- The audit tables. `nextId` is the sequence behind the identity column. -/
structure Tables where
  logs : List AuditLog
  chainState : ChainState
  nextId : ℕ

/-- The tables after the migration that ran at `t`. -/
def Tables.initial (t : ℤ) : Tables where
  logs := []
  chainState := { lastLogId := none, lastEntryHash := none, updatedAt := t }
  nextId := 1

/-! ## The hash -/

/-- `'YYYY-MM-DD"T"HH24:MI:SS.US"Z"'` -/
def occurredAtFormat : List Field :=
  [.yyyy, .literal "-", .mm, .literal "-", .dd, .literal "T", .hh24, .literal ":", .mi,
    .literal ":", .ss, .literal ".", .us, .literal "Z"]

namespace Columns

/-- The object that is hashed, by its fields. -/
def fields (c : Columns) : List (String × Jsonb) :=
  [("requestId", .str c.requestId.text),
    ("actorUserId", .ofOption (fun u => .str u.text) c.actorUserId),
    ("actorEmail", .ofOption .str c.actorEmail),
    ("actorRole", .ofOption .str c.actorRole),
    ("actorIp", .ofOption (fun ip => .str ip.text) c.actorIp),
    ("action", .str c.action),
    ("targetType", .str c.targetType),
    ("targetId", .ofOption .str c.targetId),
    ("result", .str c.result),
    ("metadata", c.metadata),
    ("occurredAt", .ofOption .str (toChar occurredAtFormat c.occurredAt))]

/-- `v_canonical` -/
def canonical (c : Columns) : String := (Jsonb.buildObject c.fields).text

/-- The text that is hashed, behind the hash `p`. -/
def hashedText (p : Option String) (c : Columns) : String := p.getD "" ++ "|" ++ c.canonical

/-- `v_entry_hash`, behind the hash `p`. -/
def chainHash [Server] (p : Option String) (c : Columns) : String :=
  Text.encodeHex (Server.sha256 (c.hashedText p).toUTF8)

end Columns

/-! ## The constraints of `audit_logs` -/

/-- The roles of the console. -/
def roles : List String := ["viewer", "operator", "administrator", "owner"]

/-- The outcomes an entry may report. -/
def results : List String := ["success", "denied", "conflict", "error"]

/-- The test on `action`. -/
def actionOk (s : String) : Bool :=
  Text.lengthBetween 1 120 s &&
    Text.matchesPlus (fun c => Text.upperAlpha c || Text.digit c || c == '_') s

/-- The test on `target_type`. -/
def targetTypeOk (s : String) : Bool :=
  Text.lengthBetween 1 120 s &&
    Text.matchesPlus (fun c => Text.lowerAlpha c || Text.digit c || c == ':' || c == '_' ||
      c == '-') s

/-- The `CHECK` constraints. -/
def AuditLog.checks [Server] (r : AuditLog) : List (String × Bool) :=
  [("audit_logs_action_check", actionOk r.action),
    ("audit_logs_actor_email_check", r.actorEmail.all fun e =>
      Text.lengthBetween 3 320 e && e == Text.lower (Text.btrim e)),
    ("audit_logs_actor_role_check", r.actorRole.all (· ∈ roles)),
    ("audit_logs_entry_hash_check", Text.matchesExactly Text.hexDigit 64 r.entryHash),
    ("audit_logs_metadata_check", r.metadata.isObject && r.metadata.octetLength ≤ 8192),
    ("audit_logs_previous_hash_check", r.previousHash.all (Text.matchesExactly Text.hexDigit 64)),
    ("audit_logs_result_check", r.result ∈ results),
    ("audit_logs_target_id_check", r.targetId.all (Text.lengthBetween 1 255)),
    ("audit_logs_target_type_check", targetTypeOk r.targetType)]

/-! ## `append_audit_log` -/

/-- The validation of the arguments. -/
def Entry.validate [Server] (e : Entry) (occurredAt : ℤ) : Except DbError Columns := do
  let requestId ← orRaise e.requestId (.raised "audit_request_id_required" "22023")
  let action ← orRaise (e.action.filter actionOk) (.raised "audit_action_invalid" "22023")
  let targetType ←
    orRaise (e.targetType.filter targetTypeOk) (.raised "audit_target_type_invalid" "22023")
  let result ← orRaise (e.result.filter (· ∈ results)) (.raised "audit_result_invalid" "22023")
  let metadata ←
    orRaise (e.metadata.filter safeObject) (.raised "audit_metadata_invalid" "22023")
  return {
    requestId, action, targetType, result, metadata
    actorUserId := e.actorUserId
    actorEmail := e.actorEmail
    actorRole := e.actorRole
    actorIp := e.actorIp
    targetId := e.targetId
    occurredAt := .ofInstant occurredAt }

/-- The metadata of an entry that passes its checks is safe. -/
theorem safeObject_of_validate [Server] {e : Entry} {t : ℤ} {c : Columns}
    (h : e.validate t = .ok c) : safeObject c.metadata = true := by
  simp only [Entry.validate, bind_eq_ok, orRaise_eq_ok, pure_eq_ok,
    Option.filter_eq_some_iff] at h
  obtain ⟨_, -, _, -, _, -, _, -, metadata, ⟨-, hsafe⟩, rfl⟩ := h
  exact hsafe

/-- The columns of an entry that has passed its checks. -/
structure SafeColumns [Server] extends Columns where
  safe : safeObject metadata = true

/-- The row of an entry behind the present end of the chain. -/
def Tables.newRow [Server] (t : Tables) (c : Columns) : AuditLog where
  toColumns := c
  id := t.nextId
  previousHash := t.chainState.lastEntryHash
  entryHash := c.chainHash t.chainState.lastEntryHash

/-- The tables with a row appended and the chain state moved to it. -/
def Tables.push (t : Tables) (r : AuditLog) (occurredAt : ℤ) : Tables where
  logs := t.logs ++ [r]
  chainState :=
    { lastLogId := some r.id, lastEntryHash := some r.entryHash, updatedAt := occurredAt }
  nextId := t.nextId + 1

/-- `append_audit_log`, its clock read at `occurredAt`; `isConsoleUser` is the foreign key of the
actor. -/
def appendAuditLog [Server] (isConsoleUser : Uuid → Bool) (occurredAt : ℤ) (e : Entry)
    (t : Tables) : Except DbError (ℕ × Tables) := do
  let c ← e.validate occurredAt
  checkAll (t.newRow c).checks
  raiseIf (t.logs.any fun r => r.entryHash == (t.newRow c).entryHash)
    (.uniqueViolation "audit_logs_entry_hash_key")
  raiseIf (!c.actorUserId.all isConsoleUser)
    (.foreignKeyViolation "audit_logs_actor_user_id_fkey")
  return (t.nextId, t.push (t.newRow c) occurredAt)

/-- A call that commits appends the row of its columns and does nothing else. -/
theorem appendAuditLog_eq_ok [Server] {isConsoleUser : Uuid → Bool} {occurredAt : ℤ} {e : Entry}
    {t t' : Tables} {id : ℕ} (h : appendAuditLog isConsoleUser occurredAt e t = .ok (id, t')) :
    ∃ c, e.validate occurredAt = .ok c ∧ id = t.nextId ∧ t' = t.push (t.newRow c) occurredAt := by
  simp only [appendAuditLog, bind_eq_ok, pure_eq_ok, Prod.mk.injEq] at h
  obtain ⟨c, hc, -, -, -, -, -, -, rfl, rfl⟩ := h
  exact ⟨c, hc, rfl, rfl⟩

end Audit

end IvrmDashboard
