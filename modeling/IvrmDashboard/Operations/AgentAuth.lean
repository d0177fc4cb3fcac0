import IvrmDashboard.Operations.Jobs

/-!
# Signed requests of the operation agent

The endpoints for claims and reports authenticate a request by its HMAC over the timestamp, the
nonce and the body (`authenticateOperationAgentWithSecrets`), and then ask the database to record
the nonce (`acceptOperationAgentRequest`), which forgets it after 24 hours. The signed message
determines its three parts (`signedMessage_inj`): the first two have a fixed length in every
request that is not refused.
-/

namespace IvrmDashboard.Operations

open Sql

/-! ## The signature -/

section

variable [Server]

/-- The 32 bytes of a digest. -/
def digestBytes (d : BitVec 256) : ByteArray :=
  ⟨⟨(List.range 32).map fun i => UInt8.ofNat (d.toNat / 256 ^ (31 - i) % 256)⟩⟩

/-- The key that fills a block of 64 bytes: a longer one is hashed first. -/
def hmacKey (key : ByteArray) : List UInt8 :=
  if key.size ≤ 64 then key.data.toList ++ List.replicate (64 - key.size) 0
  else (digestBytes (Server.sha256 key)).data.toList ++ List.replicate 32 0

/-- The key block, every byte of it changed by `byte`. -/
def hmacPad (byte : UInt8) (key : ByteArray) : ByteArray := ⟨⟨(hmacKey key).map (· ^^^ byte)⟩⟩

/-- HMAC-SHA-256 -/
def hmacSha256 (key message : ByteArray) : BitVec 256 :=
  Server.sha256 (hmacPad 0x5c key ++ digestBytes (Server.sha256 (hmacPad 0x36 key ++ message)))

omit [Server] in
/-- The message that is signed. -/
def signedMessage (timestamp nonce : String) (body : ByteArray) : ByteArray :=
  timestamp.toUTF8 ++ (".".toUTF8 ++ (nonce.toUTF8 ++ (".".toUTF8 ++ body)))

/-- `sign`, as the worker computes it. -/
def sign (token : ByteArray) (timestamp nonce : String) (body : ByteArray) : String :=
  Text.encodeHex (hmacSha256 token (signedMessage timestamp nonce body))

end

/-! ## Authentication -/

/-- The headers of a request; a missing one reads as the empty string. -/
structure AgentHeaders where
  agentId : String
  timestamp : String
  nonce : String
  signature : String
  deriving DecidableEq

/-- `OperationAgentAuthError` -/
structure OperationAgentAuthError where
  status : ℕ
  code : String
  deriving DecidableEq

/-- What the authentication returns. -/
structure AgentAuth where
  nonce : String
  bodySha256 : String
  deriving DecidableEq

/-- `/^[A-Za-z0-9._-]{1,64}$/` -/
def serverIdOk (s : String) : Bool :=
  Text.lengthBetween 1 64 s && s.toList.all fun c => Text.upperAlpha c || Text.lowerAlpha c ||
    Text.digit c || c == '.' || c == '_' || c == '-'

/-- `/^\d{10}$/` -/
def timestampOk (s : String) : Bool := Text.matchesExactly Text.digit 10 s

/-- `/^[a-f0-9]{32}$/` -/
def nonceOk (s : String) : Bool := Text.matchesExactly Text.hexDigit 32 s

/-- `Number(timestamp)`, for digits. -/
def timestampSeconds (s : String) : ℤ := Nat.ofDigitChars 10 s.toList 0

/-- `MAX_CLOCK_SKEW_SECONDS` -/
def maxClockSkewSeconds : ℕ := 300

/-- The timestamp is within the allowed skew. The quotient of milliseconds is exact enough there
that the comparison of the source is the one of integers. -/
def inSkew (nowMilliseconds : ℤ) (timestamp : String) : Bool :=
  (nowMilliseconds - 1000 * timestampSeconds timestamp).natAbs ≤ 1000 * maxClockSkewSeconds

/-- `authenticateOperationAgentWithSecrets` -/
def authenticateOperationAgentWithSecrets [Server] (headers : AgentHeaders) (rawBody : ByteArray)
    (expectedServerId : String) (secrets : String → Option String) (nowMilliseconds : ℤ) :
    Except OperationAgentAuthError AgentAuth :=
  if headers.agentId ≠ expectedServerId || !serverIdOk headers.agentId then
    .error ⟨401, "agent_id_mismatch"⟩
  else if !timestampOk headers.timestamp then .error ⟨401, "invalid_timestamp"⟩
  else if !inSkew nowMilliseconds headers.timestamp then .error ⟨401, "expired_request"⟩
  else if !nonceOk headers.nonce then .error ⟨401, "invalid_nonce"⟩
  else if !hashOk headers.signature then .error ⟨401, "invalid_signature"⟩
  else
    match (secrets headers.agentId).filter (· ≠ "") with
    | none => .error ⟨401, "unknown_agent"⟩
    | some secret =>
      if headers.signature ≠ sign secret.toUTF8 headers.timestamp headers.nonce rawBody then
        .error ⟨401, "invalid_signature"⟩
      else .ok ⟨headers.nonce, Text.encodeHex (Server.sha256 rawBody)⟩

/-! ## The ledger of nonces -/

/-- `request_kind` -/
inductive RequestKind
  | claim
  | transition
  deriving DecidableEq

/-- A row of `operation_agent_requests`. -/
structure OperationAgentRequest where
  hostId : Uuid
  requestKind : RequestKind
  nonce : String
  bodySha256 : String
  receivedAt : ℤ
  deriving DecidableEq

/-- `interval '24 hours'` -/
def retention : ℤ := 24 * 3600 * second

/-- The rows left after those of the host that are older than the retention are deleted. -/
def prune (deletedAt : ℤ) (hostId : Uuid) (ledger : List OperationAgentRequest) :
    List OperationAgentRequest :=
  ledger.filter fun r => !(r.hostId = hostId && r.receivedAt < deletedAt - retention)

/-- `accept_operation_agent_request`: the old rows are deleted at `deletedAt`, the new one is
inserted at `insertedAt`, and a violation of `unique (host_id, nonce)` undoes the insertion
only. -/
def acceptOperationAgentRequest (hosts : List Host) (deletedAt insertedAt : ℤ) (serverId : String)
    (kind : RequestKind) (nonce bodySha256 : String) (ledger : List OperationAgentRequest) :
    Bool × List OperationAgentRequest :=
  if !serverIdOk serverId || !nonceOk nonce || !hashOk bodySha256 then (false, ledger)
  else
    match enabledHostOf hosts serverId with
    | none => (false, ledger)
    | some h =>
      if (prune deletedAt h.id ledger).any fun r => r.hostId = h.id && r.nonce = nonce then
        (false, prune deletedAt h.id ledger)
      else (true, prune deletedAt h.id ledger ++ [⟨h.id, kind, nonce, bodySha256, insertedAt⟩])

/-! ## What the signature covers -/

theorem utf8Size_of_ascii {c : Char} (h : c.toNat < 128) : c.utf8Size = 1 := by
  unfold Char.utf8Size
  have hval : c.val ≤ 127 := UInt32.le_iff_toNat_le.2 (Nat.le_of_lt_succ h)
  exact if_pos hval

/-- ASCII text has one byte for each character. -/
theorem size_toUTF8_of_ascii {s : String} (h : ∀ c ∈ s.toList, c.toNat < 128) :
    s.toUTF8.size = s.length := by
  have key (l : List Char) (hl : ∀ c ∈ l, c.toNat < 128) :
      (String.ofList l).utf8ByteSize = l.length := by
    induction l with
    | nil => simp
    | cons c l ih =>
      have hc := utf8Size_of_ascii (hl c List.mem_cons_self)
      have hl := ih fun d hd => hl d (List.mem_cons_of_mem _ hd)
      rw [String.ofList_cons, String.utf8ByteSize_append, String.utf8ByteSize_singleton, hc, hl,
        List.length_cons]
      omega
  have hs := key s.toList h
  rw [String.ofList_toList, String.length_toList] at hs
  exact hs

theorem lt_of_hexDigit {c : Char} (h : Text.hexDigit c = true) : c.toNat < 128 := by
  simp only [Text.hexDigit, Text.digit, Bool.or_eq_true, Bool.and_eq_true, decide_eq_true_eq] at h
  have hle : c ≤ 'f' := by
    rcases h with ⟨-, h⟩ | ⟨-, h⟩
    · exact Char.le_trans h (by decide)
    · exact h
  exact Nat.lt_of_le_of_lt (UInt32.le_iff_toNat_le.1 hle) (by decide)

theorem size_of_matchesExactly {p : Char → Bool} {n : ℕ} {s : String}
    (hp : ∀ c, p c = true → Text.hexDigit c = true) (h : Text.matchesExactly p n s = true) :
    s.toUTF8.size = n := by
  simp only [Text.matchesExactly, Bool.and_eq_true, beq_iff_eq, List.all_eq_true] at h
  rw [size_toUTF8_of_ascii fun c hc => lt_of_hexDigit (hp c (h.2 c hc)), h.1]

theorem toUTF8_inj {s t : String} (h : s.toUTF8 = t.toUTF8) : s = t :=
  String.toByteArray_inj.1 h

/-- **The signed message determines the timestamp, the nonce and the body**: timestamps have ten
digits and nonces 32, so the parts stand at fixed places. -/
theorem signedMessage_inj {timestamp timestamp' nonce nonce' : String} {body body' : ByteArray}
    (ht : timestampOk timestamp = true) (ht' : timestampOk timestamp' = true)
    (hn : nonceOk nonce = true) (hn' : nonceOk nonce' = true)
    (h : signedMessage timestamp nonce body = signedMessage timestamp' nonce' body') :
    timestamp = timestamp' ∧ nonce = nonce' ∧ body = body' := by
  have digits (c : Char) (hc : Text.digit c = true) : Text.hexDigit c = true := by
    rw [Text.hexDigit, hc, Bool.true_or]
  have htsize : timestamp.toUTF8.size = timestamp'.toUTF8.size := by
    rw [size_of_matchesExactly digits ht, size_of_matchesExactly digits ht']
  have hnsize : nonce.toUTF8.size = nonce'.toUTF8.size := by
    rw [size_of_matchesExactly (fun _ hc => hc) hn, size_of_matchesExactly (fun _ hc => hc) hn']
  obtain ⟨htime, hrest⟩ := (ByteArray.append_eq_append_iff_of_size_eq_left htsize).1 h
  have hrest := (ByteArray.append_right_inj _).1 hrest
  obtain ⟨hnonce, hrest⟩ := (ByteArray.append_eq_append_iff_of_size_eq_left hnsize).1 hrest
  exact ⟨toUTF8_inj htime, toUTF8_inj hnonce, (ByteArray.append_right_inj _).1 hrest⟩

/-! ## What an authenticated request is -/

/-- The headers are well formed and their timestamp is within the skew of `at₀`, in
microseconds. -/
structure Authentic (headers : AgentHeaders) (at₀ : ℤ) : Prop where
  timestamp : timestampOk headers.timestamp = true
  nonce : nonceOk headers.nonce = true
  skew : inSkew (at₀ / 1000) headers.timestamp = true

theorem authenticate_eq_ok [Server] {headers : AgentHeaders} {rawBody : ByteArray}
    {serverId : String} {secrets : String → Option String} {at₀ : ℤ} {auth : AgentAuth}
    (h : authenticateOperationAgentWithSecrets headers rawBody serverId secrets (at₀ / 1000) =
      .ok auth) :
    Authentic headers at₀ ∧ headers.agentId = serverId ∧
      auth = ⟨headers.nonce, Text.encodeHex (Server.sha256 rawBody)⟩ ∧
      ∃ secret, secrets serverId = some secret ∧
        headers.signature = sign secret.toUTF8 headers.timestamp headers.nonce rawBody := by
  unfold authenticateOperationAgentWithSecrets at h
  split_ifs at h with hid htime hskew hnonce hsignature
  split at h
  next => exact nomatch h
  next secret hsecret =>
    split_ifs at h with hsigned
    obtain ⟨hsecret, -⟩ := Option.filter_eq_some_iff.1 hsecret
    simp only [Bool.or_eq_true, not_or, decide_eq_true_eq, not_not, Bool.not_eq_true',
      Bool.not_eq_false] at hid htime hskew hnonce hsigned
    rw [hid.1] at hsecret
    exact ⟨⟨htime, hnonce, hskew⟩, hid.1, (Except.ok.inj h).symm, secret, hsecret, hsigned⟩

/-- **A request the worker signed with the shared secret passes**, as long as its timestamp is
within the skew. -/
theorem authenticate_sign [Server] {headers : AgentHeaders} {rawBody : ByteArray}
    {serverId secret : String} {secrets : String → Option String} {at₀ : ℤ}
    (h : Authentic headers at₀) (hid : headers.agentId = serverId)
    (hok : serverIdOk serverId = true) (hsecret : secrets serverId = some secret)
    (hne : secret ≠ "")
    (hsigned : headers.signature =
      sign secret.toUTF8 headers.timestamp headers.nonce rawBody) :
    authenticateOperationAgentWithSecrets headers rawBody serverId secrets (at₀ / 1000) =
      .ok ⟨headers.nonce, Text.encodeHex (Server.sha256 rawBody)⟩ := by
  have hsignature : hashOk headers.signature = true := by
    rw [hsigned]
    exact Text.matchesExactly_encodeHex _
  have hfound : (secrets headers.agentId).filter (· ≠ "") = some secret := by
    rw [hid, hsecret]
    exact Option.filter_eq_some_iff.2 ⟨rfl, decide_eq_true hne⟩
  unfold authenticateOperationAgentWithSecrets
  rw [if_neg (by simp [hid, hok]), if_neg (by simp [h.timestamp]), if_neg (by simp [h.skew]),
    if_neg (by simp [h.nonce]), if_neg (by simp [hsignature]), hfound]
  exact if_neg (not_not.2 hsigned)

/-- Two requests under one timestamp, each within its skew: the second is sent at most ten minutes
after the first, up to a millisecond. -/
theorem Authentic.sentAt_le {headers headers' : AgentHeaders} {at₀ at₁ : ℤ}
    (h : Authentic headers at₀) (h' : Authentic headers' at₁)
    (htime : headers.timestamp = headers'.timestamp) : at₁ ≤ at₀ + 601 * second := by
  have hskew := of_decide_eq_true h.skew
  have hskew' := of_decide_eq_true h'.skew
  rw [htime] at hskew
  simp only [maxClockSkewSeconds, second] at hskew hskew' ⊢
  omega

end IvrmDashboard.Operations
