import Mathlib.Data.List.Dedup
import IvrmDashboard.Foundations.Runs
import IvrmDashboard.Foundations.Sql.ToJsonb
import IvrmDashboard.Foundations.Sql.Unique
import IvrmDashboard.Operations.Jobs

/-!
# Console sessions of Discord users

A login creates a session and revokes the ones the user still has; a request resolves it, and a
logout, an administrator or the clean-up job revokes it. Every function reads the clock first
(`sampledAt`) and runs when it has its lock. Two of them read a session before they wait for a row
lock: resolving, when it has to note that the session was seen, and revoking by id, which reads the
caller's own session first. What they have read waits with them.
-/

namespace IvrmDashboard.Discord

open Sql Operations

/-! ## Arguments -/

/-- `~ '^[0-9a-f]{64}$'` -/
def tokenHashOk (s : String) : Bool := Text.matchesExactly Text.hexDigit 64 s

/-- `~ '^[0-9]{17,20}$'` -/
def snowflakeOk (s : String) : Bool := Text.lengthBetween 17 20 s && Text.matchesPlus Text.digit s

/-- `char_length(…) between 1 and 80` -/
def nameOk (s : String) : Bool := Text.lengthBetween 1 80 s

/-- `~ '^[A-Za-z0-9_]+$'` and its length -/
def avatarHashOk (s : String) : Bool :=
  Text.lengthBetween 1 128 s &&
    Text.matchesPlus (fun c => Text.upperAlpha c || Text.lowerAlpha c || Text.digit c || c == '_') s

/-- The role a text names. -/
def roleOfText? (s : String) : Option Role :=
  [Role.viewer, .operator, .administrator, .owner].find? fun r => r.text == s

/-! ## The table -/

/-- `revoke_reason` -/
inductive RevokeReason
  | logout
  | replaced
  | administrator
  | expired
  deriving DecidableEq

namespace RevokeReason

def text : RevokeReason → String
  | logout => "logout"
  | replaced => "replaced"
  | administrator => "administrator"
  | expired => "expired"

/-- The reason a caller may give. -/
def ofText? (s : String) : Option RevokeReason :=
  [logout, administrator, expired].find? fun r => r.text == s

end RevokeReason

/-- A row of `discord_console_sessions`. -/
structure Session where
  id : Uuid
  sessionTokenHash : String
  discordUserId : String
  discordUsername : String
  discordGlobalName : Option String
  discordAvatarHash : Option String
  guildId : String
  matchedRoleIds : List String
  consoleRole : Role
  createdAt : ℤ
  expiresAt : ℤ
  lastSeenAt : ℤ
  revokedAt : Option ℤ
  revokeReason : Option RevokeReason
  deriving DecidableEq

namespace Session

variable (s : Session)

/-- `discord_console_sessions_revocation_check`; a reason that is missing leaves it open. -/
def revocationOk : Bool :=
  match s.revokedAt with
  | none => s.revokeReason.isNone
  | some t => s.createdAt ≤ t

/-- The constraints of a session. -/
def checks : List (String × Bool) :=
  [("discord_console_sessions_avatar_hash_check", s.discordAvatarHash.all avatarHashOk),
    ("discord_console_sessions_expiry_check", s.createdAt < s.expiresAt),
    ("discord_console_sessions_global_name_check", s.discordGlobalName.all nameOk),
    ("discord_console_sessions_guild_id_check", snowflakeOk s.guildId),
    ("discord_console_sessions_revocation_check", s.revocationOk),
    ("discord_console_sessions_roles_check",
      1 ≤ s.matchedRoleIds.length && s.matchedRoleIds.length ≤ 16),
    ("discord_console_sessions_seen_check",
      s.createdAt ≤ s.lastSeenAt && s.lastSeenAt ≤ s.expiresAt),
    ("discord_console_sessions_token_hash_check", tokenHashOk s.sessionTokenHash),
    ("discord_console_sessions_user_id_check", snowflakeOk s.discordUserId),
    ("discord_console_sessions_username_check", nameOk s.discordUsername)]

/-- `revoked_at is null and expires_at > …` -/
def live (now : ℤ) : Bool := s.revokedAt.isNone && now < s.expiresAt

/-- `set revoked_at = …, revoke_reason = …` -/
def revoke (now : ℤ) (reason : RevokeReason) : Session :=
  { s with revokedAt := some now, revokeReason := some reason }

/-- `set last_seen_at = least(…, expires_at)` -/
def touch (now : ℤ) : Session := { s with lastSeenAt := min now s.expiresAt }

end Session

/-! ## The state -/

/-- The start of the last day a timestamp can name. -/
def lastDay : ℤ := daysOfCivil ⟨294276, 12, 31⟩ * day

/-- What a call finds: the clock when it begins and when it has its lock, and what
`gen_random_uuid()` yields. -/
structure Invocation where
  sampledAt : ℤ
  clock : ℤ
  sampled_le : sampledAt ≤ clock
  epoch_le : 0 ≤ sampledAt
  lt_last : sampledAt < lastDay
  newId : Uuid

/-- The arguments of `revoke_discord_console_session_by_id`. -/
structure RevokeByIdParams where
  requestId : Option Uuid
  actorSessionTokenHash : Option String
  targetSessionId : Option Uuid

/-- A call that waits for a row, with what it has read before. -/
inductive Waiting
  | touch (v : Invocation) (s : Session)
  | revokeById (v : Invocation) (p : RevokeByIdParams) (requestId targetId : Uuid) (actor : Session)

/-- The sessions, the audit log and the calls that wait. -/
structure Console where
  sessions : List Session
  audit : Audit.Tables
  waiting : List Waiting

/-- The tables after the migrations, which ran at `t`. -/
def Console.initial (t : ℤ) : Console := ⟨[], .initial t, []⟩

namespace Console

variable (c : Console)

/-- `update … set … where …`; every row that is written is checked. -/
def update (p : Session → Bool) (f : Session → Session) : Except DbError Console := do
  checkAll ((c.sessions.filter p).flatMap fun s => (f s).checks)
  return { c with sessions := updateWhere p f c.sessions }

/-- `insert into …` -/
def insert (s : Session) : Except DbError Console := do
  checkAll s.checks
  raiseIf (c.sessions.any (·.id = s.id)) (.uniqueViolation "discord_console_sessions_pkey")
  raiseIf (c.sessions.any (·.sessionTokenHash = s.sessionTokenHash))
    (.uniqueViolation "discord_console_sessions_session_token_hash_key")
  return { c with sessions := c.sessions ++ [s] }

/-- `perform append_audit_log(…)` -/
def appendAudit [Server] (clock : ℤ) (e : Audit.Entry) : Except DbError Console := do
  let (_, audit) ← Audit.appendAuditLog (fun _ => false) clock e c.audit
  return { c with audit }

end Console

/-- An entry of the audit log about a session. -/
def sessionEntry (requestId : Uuid) (role : Role) (action targetType targetId result : String)
    (fields : List (String × Jsonb)) : Audit.Entry where
  requestId := some requestId
  actorUserId := none
  actorEmail := none
  actorRole := some role.text
  actorIp := none
  action := some action
  targetType := some targetType
  targetId := some targetId
  result := some result
  metadata := some (Jsonb.buildObject fields)

/-! ## `create_discord_console_session` -/

/-- The arguments. -/
structure CreateParams where
  requestId : Option Uuid
  sessionTokenHash : Option String
  discordUserId : Option String
  discordUsername : Option String
  discordGlobalName : Option String
  discordAvatarHash : Option String
  guildId : Option String
  matchedRoleIds : Option TextArray
  consoleRole : Option String
  ttlSeconds : Option ℤ

/-- Arguments that pass their checks. -/
structure SessionDraft where
  requestId : Uuid
  sessionTokenHash : String
  discordUserId : String
  discordUsername : String
  discordGlobalName : Option String
  discordAvatarHash : Option String
  guildId : String
  roleIds : List String
  consoleRole : Role
  ttlSeconds : ℤ

/-- The role ids, if all of them are. -/
def roleIds? (a : TextArray) : Option (List String) :=
  if a.elements.all fun x => x.any snowflakeOk then some (a.elements.filterMap id) else none

/-- The checks on the arguments. -/
def CreateParams.validate (p : CreateParams) : Except DbError SessionDraft := do
  let requestId ← orRaise p.requestId (.raised "discord_session_request_id_required" "22023")
  let sessionTokenHash ← orRaise (p.sessionTokenHash.filter tokenHashOk)
    (.raised "discord_session_token_hash_invalid" "22023")
  let discordUserId ← orRaise (p.discordUserId.filter snowflakeOk)
    (.raised "discord_user_id_invalid" "22023")
  let discordUsername ← orRaise (p.discordUsername.filter nameOk)
    (.raised "discord_username_invalid" "22023")
  raiseIf (!p.discordGlobalName.all nameOk) (.raised "discord_global_name_invalid" "22023")
  raiseIf (!p.discordAvatarHash.all avatarHashOk) (.raised "discord_avatar_hash_invalid" "22023")
  let guildId ← orRaise (p.guildId.filter snowflakeOk) (.raised "discord_guild_id_invalid" "22023")
  let matched ← orRaise
    (p.matchedRoleIds.filter fun a => 1 ≤ a.cardinality && a.cardinality ≤ 16)
    (.raised "discord_role_ids_invalid" "22023")
  let roleIds ← orRaise (roleIds? matched) (.raised "discord_role_id_invalid" "22023")
  let consoleRole ← orRaise (p.consoleRole.bind roleOfText?)
    (.raised "discord_console_role_invalid" "22023")
  let ttlSeconds ← orRaise (p.ttlSeconds.filter fun n => 300 ≤ n && n ≤ 86400)
    (.raised "discord_session_ttl_invalid" "22023")
  return {
    requestId, sessionTokenHash, discordUserId, discordUsername, guildId, roleIds, consoleRole,
    ttlSeconds
    discordGlobalName := p.discordGlobalName
    discordAvatarHash := p.discordAvatarHash }

namespace SessionDraft

variable (d : SessionDraft) (v : Invocation)

/-- The row that is inserted; the role ids are `select distinct … order by role_id`. -/
def row : Session where
  id := v.newId
  sessionTokenHash := d.sessionTokenHash
  discordUserId := d.discordUserId
  discordUsername := d.discordUsername
  discordGlobalName := d.discordGlobalName
  discordAvatarHash := d.discordAvatarHash
  guildId := d.guildId
  matchedRoleIds := orderBy (fun a b => decide (a ≤ b)) d.roleIds.dedup
  consoleRole := d.consoleRole
  createdAt := v.sampledAt
  expiresAt := v.sampledAt + d.ttlSeconds * second
  lastSeenAt := v.sampledAt
  revokedAt := none
  revokeReason := none

/-- The session is one of the user's that are still open. -/
def replaces (s : Session) : Bool := s.discordUserId = d.discordUserId && s.live v.sampledAt

/-- `jsonb_build_object(…)` -/
def entryFields : List (String × Jsonb) :=
  [("guildId", .str d.guildId), ("consoleRole", .str d.consoleRole.text),
    ("matchedRoleCount", .num (d.row v).matchedRoleIds.length 0),
    ("sessionId", .str (d.row v).id.text), ("expiresAt", instantJson (d.row v).expiresAt)]

/-- What the log keeps of the login. -/
def entry : Audit.Entry :=
  sessionEntry d.requestId d.consoleRole "DISCORD_LOGIN_SUCCEEDED" "discord:user" d.discordUserId
    "success" (d.entryFields v)

end SessionDraft

/-- `create_discord_console_session` -/
def createDiscordConsoleSession [Server] (v : Invocation) (p : CreateParams) (c : Console) :
    Except DbError ((Uuid × ℤ) × Console) := do
  let d ← p.validate
  let c ← c.update (d.replaces v) (·.revoke v.sampledAt .replaced)
  let c ← c.insert (d.row v)
  let c ← c.appendAudit v.clock (d.entry v)
  return (((d.row v).id, (d.row v).expiresAt), c)

/-! ## `resolve_discord_console_session` -/

/-- The session a token stands for. -/
def Console.session? (c : Console) (now : ℤ) (hash : Option String) : Option Session :=
  (hash.filter tokenHashOk).bind fun h =>
    c.sessions.find? fun s => s.sessionTokenHash = h && s.live now

/-- Five minutes. -/
def fiveMinutes : ℤ := 300 * second

/-- `resolve_discord_console_session`: the session, and the call waits if it has to note that the
session was seen. -/
def resolveDiscordConsoleSession (v : Invocation) (hash : Option String) (c : Console) :
    Option Session × Console :=
  match c.session? v.sampledAt hash with
  | none => (none, c)
  | some s =>
    (some s, if s.lastSeenAt < v.sampledAt - fiveMinutes then
      { c with waiting := c.waiting ++ [.touch v s] } else c)

/-! ## `revoke_discord_console_session` -/

/-- The arguments. -/
structure RevokeParams where
  requestId : Option Uuid
  sessionTokenHash : Option String
  reason : Option String

/-- The row a token stands for is revoked. -/
def Session.revokeByToken [Server] (s : Session) (v : Invocation) (requestId : Uuid)
    (reason : RevokeReason) (c : Console) : Except DbError (Bool × Console) := do
  let c ← c.update (fun t => t.sessionTokenHash = s.sessionTokenHash && t.revokedAt.isNone)
    (·.revoke v.sampledAt reason)
  let c ← c.appendAudit v.clock
    (sessionEntry requestId s.consoleRole "DISCORD_SESSION_REVOKED" "discord:session" s.id.text
      "success" [("discordUserId", .str s.discordUserId), ("reason", .str reason.text)])
  return (true, c)

/-- `revoke_discord_console_session` -/
def revokeDiscordConsoleSession [Server] (v : Invocation) (p : RevokeParams) (c : Console) :
    Except DbError (Bool × Console) := do
  let requestId ← orRaise p.requestId (.raised "discord_session_request_id_required" "22023")
  match p.sessionTokenHash.filter tokenHashOk with
  | none => return (false, c)
  | some h =>
    let reason ← orRaise (p.reason.bind RevokeReason.ofText?)
      (.raised "discord_session_revoke_reason_invalid" "22023")
    match c.sessions.find? fun s => s.sessionTokenHash = h && s.revokedAt.isNone with
    | none => return (false, c)
    | some s => s.revokeByToken v requestId reason c

/-! ## `revoke_discord_console_session_by_id` -/

/-- The request, the target and the session of the caller. -/
def RevokeByIdParams.validate (p : RevokeByIdParams) (v : Invocation) (c : Console) :
    Except DbError (Uuid × Uuid × Session) := do
  let requestId ←
    orRaise p.requestId (.raised "discord_admin_revoke_required_field_missing" "22023")
  let targetId ←
    orRaise p.targetSessionId (.raised "discord_admin_revoke_required_field_missing" "22023")
  let hash ← orRaise (p.actorSessionTokenHash.filter tokenHashOk)
    (.raised "discord_admin_session_invalid" "42501")
  let actor ← orRaise ((c.session? v.sampledAt (some hash)).filter fun s =>
      s.consoleRole = .administrator || s.consoleRole = .owner)
    (.raised "discord_admin_role_required" "42501")
  return (requestId, targetId, actor)

/-- What the caller is told. -/
structure RevokeOutcome where
  outcome : String
  targetWasCurrent : Bool
  targetConsoleRole : Option Role

/-- What the log keeps of the attempt. -/
def revokeEntry (requestId : Uuid) (actor target : Session) (result : String)
    (fields : List (String × Jsonb)) : Audit.Entry :=
  sessionEntry requestId actor.consoleRole "DISCORD_SESSION_ADMIN_REVOKED" "discord:session"
    target.id.text result
    ([("actorDiscordUserId", .str actor.discordUserId),
      ("targetDiscordUserId", .str target.discordUserId),
      ("targetConsoleRole", .str target.consoleRole.text)] ++ fields)

/-- The target is locked: it may be protected, revoked or expired already, or it is revoked now. -/
def Session.revokeByActor [Server] (target actor : Session) (v : Invocation) (clock : ℤ)
    (requestId : Uuid) (c : Console) : Except DbError (RevokeOutcome × Console) := do
  let self : Bool := target.id = actor.id
  if actor.consoleRole = .administrator && target.consoleRole = .owner then
    let c ← c.appendAudit clock
      (revokeEntry requestId actor target "denied" [("reason", .str "owner_session_protected")])
    return (⟨"denied", self, some target.consoleRole⟩, c)
  else if target.revokedAt.isSome then
    return (⟨"unchanged", self, some target.consoleRole⟩, c)
  else if target.expiresAt ≤ v.sampledAt then
    let c ← c.update (fun s => s.id = target.id && s.revokedAt.isNone)
      (·.revoke v.sampledAt .expired)
    return (⟨"unchanged", self, some target.consoleRole⟩, c)
  else
    let c ← c.update (fun s => s.id = target.id && s.revokedAt.isNone)
      (·.revoke v.sampledAt .administrator)
    let c ← c.appendAudit clock
      (revokeEntry requestId actor target "success"
        [("selfRevocation", .bool self), ("reason", .str "administrator")])
    return (⟨"revoked", self, some target.consoleRole⟩, c)

/-- The rest of the function, with the target locked. -/
def revokeById [Server] (v : Invocation) (clock : ℤ) (requestId targetId : Uuid) (actor : Session)
    (c : Console) : Except DbError (RevokeOutcome × Console) :=
  match c.sessions.find? (·.id = targetId) with
  | none => .ok (⟨"not_found", false, none⟩, c)
  | some target => target.revokeByActor actor v clock requestId c

/-! ## `expire_discord_console_sessions` -/

/-- `expire_discord_console_sessions`; rows that are locked by others are skipped. -/
def expireDiscordConsoleSessions (v : Invocation) (limit : Option ℤ) (locked : Session → Bool)
    (c : Console) : Except DbError (ℕ × Console) := do
  let n ← orRaise (limit.filter fun n => 1 ≤ n && n ≤ 1000)
    (.raised "discord_session_expire_limit_invalid" "22023")
  let due := c.sessions.filter fun s =>
    s.revokedAt.isNone && s.expiresAt ≤ v.sampledAt && !locked s
  let candidates := (orderBy (fun a b => decide (a.expiresAt ≤ b.expiresAt)) due).take n.toNat
  let c ← c.update (· ∈ candidates) (·.revoke v.sampledAt .expired)
  return (candidates.length, c)

/-! ## Steps -/

/-- A call as far as it comes before it waits for a row, or a call that has waited. -/
inductive Step
  | create (v : Invocation) (p : CreateParams)
  | resolve (v : Invocation) (hash : Option String)
  | revoke (v : Invocation) (p : RevokeParams)
  | revokeById (v : Invocation) (p : RevokeByIdParams)
  | expire (v : Invocation) (limit : Option ℤ) (locked : Session → Bool)
  | resume (n : ℕ) (clock : ℤ)

/-- When the step is taken. -/
def Step.time : Step → ℤ
  | create v _ => v.clock
  | resolve v _ => v.clock
  | revoke v _ => v.clock
  | revokeById v _ => v.clock
  | expire v _ _ => v.clock
  | resume _ clock => clock

namespace Console

variable [Server] (c : Console)

/-- A call that aborts leaves the tables as they were. -/
def commit {α : Type} (r : Except DbError (α × Console)) : Console :=
  match r with
  | .ok (_, c') => c'
  | .error _ => c

/-- What a call does that has waited. -/
def finish (clock : ℤ) : Waiting → Console
  | .touch v s => c.commit ((c.update (·.id = s.id) (·.touch v.sampledAt)).map fun c' => ((), c'))
  | .revokeById v _ requestId targetId actor =>
    c.commit (Discord.revokeById v clock requestId targetId actor c)

/-- One step. -/
def step : Step → Console
  | .create v p => c.commit (createDiscordConsoleSession v p c)
  | .resolve v hash => (resolveDiscordConsoleSession v hash c).2
  | .revoke v p => c.commit (revokeDiscordConsoleSession v p c)
  | .revokeById v p =>
    match p.validate v c with
    | .ok (requestId, targetId, actor) =>
      { c with waiting := c.waiting ++ [.revokeById v p requestId targetId actor] }
    | .error _ => c
  | .expire v limit locked => c.commit (expireDiscordConsoleSessions v limit locked c)
  | .resume n clock =>
    match c.waiting[n]? with
    | some w => { c with waiting := c.waiting.eraseIdx n }.finish clock w
    | none => c

/-- The tables after a list of steps. -/
def run (steps : List Step) : Console := Runs.run step c steps

end Console

end IvrmDashboard.Discord
