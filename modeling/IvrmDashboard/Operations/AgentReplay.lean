import IvrmDashboard.Foundations.ReplayWindow
import IvrmDashboard.Foundations.Runs
import IvrmDashboard.Operations.AgentAuth

/-!
# Requests of the operation agent over whole runs

A request passes through three events at times of its own: the endpoint authenticates it and sends
its nonce to the database; the database records the nonce, or refuses it; the answer comes back,
in time or after the endpoint has given up. Requests overtake each other, the database may be
reached long after the timeout, and answers may be lost. A request is accepted when the answer
`true` arrives within the timeout.

`agent_requests_accepted_once` says that no two accepted requests have a timestamp and a nonce in
common. Two acceptances under one timestamp are less than eleven minutes apart, so the ledger,
which keeps nonces for a day, still holds the first when the second is looked up. The rows of
`hosts` are added, enabled and disabled; they are not deleted.
-/

namespace IvrmDashboard.Operations

open Sql ReplayWindow

/-- A request that was authenticated at `sentAt` and sent on to the database. -/
structure SentRequest where
  kind : RequestKind
  headers : AgentHeaders
  body : ByteArray
  auth : AgentAuth
  sentAt : ℤ

/-- A request whose nonce the database recorded. -/
structure Grant where
  request : SentRequest
  hostId : Uuid
  receivedAt : ℤ

/-- The database, the requests under way to it, and its positive answers: all of them in order
(`granted`), those still under way (`unanswered`), and those that arrived in time. -/
structure AgentWorld where
  now : ℤ
  hosts : List Host
  ledger : List OperationAgentRequest
  pending : List SentRequest
  granted : List Grant
  unanswered : List Grant
  accepted : List Grant

/-- What happens: a request reaches an endpoint, the database serves the `i`-th of those under
way, an answer reaches its endpoint, or a host changes. -/
inductive AgentAction
  | request (kind : RequestKind) (headers : AgentHeaders) (body : ByteArray)
    (secrets : String → Option String)
  | serve (i : ℕ) (elapsed : ℕ)
  | answer (i : ℕ)
  | addHost (h : Host)
  | enableHost (id : Uuid) (enabled : Bool)

/-- An action and the time since the one before. -/
structure AgentEvent where
  elapsed : ℕ
  action : AgentAction

/-- `AbortSignal.timeout(5_000)` -/
def rpcTimeout : ℤ := 5 * second

namespace AgentWorld

/-- No request has been made at time `t`. -/
def initial (t : ℤ) : AgentWorld := ⟨t, [], [], [], [], [], []⟩

/-- The endpoint authenticates a request and calls the database. -/
def receive [Server] (w : AgentWorld) (kind : RequestKind) (headers : AgentHeaders)
    (body : ByteArray) (secrets : String → Option String) : AgentWorld :=
  match authenticateOperationAgentWithSecrets headers body mcMainServerId secrets
    (w.now / 1000) with
  | .error _ => w
  | .ok auth => { w with pending := w.pending ++ [⟨kind, headers, body, auth, w.now⟩] }

/-- The grant behind a positive answer. -/
def grant (w : AgentWorld) (r : SentRequest) (receivedAt : ℤ) : List Grant :=
  ((enabledHostOf w.hosts mcMainServerId).map fun h => ⟨r, h.id, receivedAt⟩).toList

/-- What the database does with a call, when `elapsed` microseconds pass between its deletion and
its insertion. -/
def ledgerCall (w : AgentWorld) (r : SentRequest) (elapsed : ℕ) :
    Bool × List OperationAgentRequest :=
  acceptOperationAgentRequest w.hosts w.now (w.now + elapsed) mcMainServerId r.kind r.auth.nonce
    r.auth.bodySha256 w.ledger

/-- The database serves the `i`-th call under way. -/
def serve (w : AgentWorld) (i elapsed : ℕ) : AgentWorld :=
  match w.pending[i]? with
  | none => w
  | some r =>
    { w with
      now := w.now + elapsed
      ledger := (w.ledgerCall r elapsed).2
      pending := w.pending.eraseIdx i
      granted :=
        if (w.ledgerCall r elapsed).1 then w.granted ++ w.grant r (w.now + elapsed)
        else w.granted
      unanswered :=
        if (w.ledgerCall r elapsed).1 then w.unanswered ++ w.grant r (w.now + elapsed)
        else w.unanswered }

/-- The `i`-th positive answer arrives; it counts within the timeout. -/
def answer (w : AgentWorld) (i : ℕ) : AgentWorld :=
  match w.unanswered[i]? with
  | none => w
  | some g =>
    if w.now ≤ g.request.sentAt + rpcTimeout then
      { w with
        unanswered := w.unanswered.eraseIdx i
        accepted := w.accepted ++ [g] }
    else w

/-- A host is added; ids and server ids are unique. -/
def addHost (w : AgentWorld) (h : Host) : AgentWorld :=
  if w.hosts.any fun k => k.id = h.id || k.serverId = h.serverId then w
  else { w with hosts := w.hosts ++ [h] }

/-- A host is enabled or disabled. -/
def enableHost (w : AgentWorld) (id : Uuid) (enabled : Bool) : AgentWorld :=
  { w with hosts := w.hosts.map fun h => if h.id = id then { h with enabled } else h }

/-- The world after an action. -/
def act [Server] (w : AgentWorld) : AgentAction → AgentWorld
  | .request kind headers body secrets => w.receive kind headers body secrets
  | .serve i elapsed => w.serve i elapsed
  | .answer i => w.answer i
  | .addHost h => w.addHost h
  | .enableHost id enabled => w.enableHost id enabled

/-- The world after an event. -/
def step [Server] (w : AgentWorld) (e : AgentEvent) : AgentWorld :=
  { w with now := w.now + e.elapsed }.act e.action

/-- The world after a run. -/
def run [Server] (w : AgentWorld) (events : List AgentEvent) : AgentWorld := Runs.run step w events

end AgentWorld

/-! ## The invariant -/

/-- The ledger entry of a row. -/
def OperationAgentRequest.entry (r : OperationAgentRequest) : Entry (Uuid × String) :=
  ⟨(r.hostId, r.nonce), r.receivedAt⟩

/-- The ledger entry of a grant. -/
def Grant.entry (g : Grant) : Entry (Uuid × String) := ⟨(g.hostId, g.request.headers.nonce), g.receivedAt⟩

/-- A request the endpoint has let through. -/
structure SentRequest.Valid (r : SentRequest) : Prop where
  authentic : Authentic r.headers r.sentAt
  nonce : r.auth.nonce = r.headers.nonce

/-- What every event keeps. -/
structure AgentWorld.Invariant (w : AgentWorld) : Prop where
  hosts : w.hosts.Pairwise fun h k => h.serverId ≠ k.serverId
  pending : ∀ r ∈ w.pending, r.Valid ∧ r.sentAt ≤ w.now
  granted : ∀ g ∈ w.granted, g.request.Valid ∧ g.request.sentAt ≤ g.receivedAt ∧
    g.receivedAt ≤ w.now ∧ ∃ h ∈ w.hosts, h.id = g.hostId ∧ h.serverId = mcMainServerId
  recorded : Recorded retention w.now (w.ledger.map (·.entry)) (w.granted.map (·.entry))
  spaced : Spaced retention (w.granted.map (·.entry))
  answers : (w.accepted ++ w.unanswered).Perm w.granted
  inTime : ∀ g ∈ w.accepted, g.receivedAt ≤ g.request.sentAt + rpcTimeout

namespace AgentWorld

variable {w : AgentWorld}

theorem invariant_initial (t : ℤ) : (initial t).Invariant where
  hosts := .nil
  pending := by simp [initial]
  granted := by simp [initial]
  recorded := recorded_nil
  spaced := .nil
  answers := .refl _
  inTime := by simp [initial]

/-- Time passes. -/
theorem Invariant.wait (h : w.Invariant) (elapsed : ℕ) :
    { w with now := w.now + elapsed }.Invariant where
  hosts := h.hosts
  pending r hr := by
    obtain ⟨hvalid, hle⟩ := h.pending r hr
    refine ⟨hvalid, ?_⟩
    simp only
    omega
  granted g hg := by
    obtain ⟨hvalid, hsent, hle, hhost⟩ := h.granted g hg
    refine ⟨hvalid, hsent, ?_, hhost⟩
    simp only
    omega
  recorded := by
    refine h.recorded.prune ?_ fun e he => .inl he
    show w.now ≤ w.now + elapsed
    omega
  spaced := h.spaced
  answers := h.answers
  inTime := h.inTime

theorem Invariant.receive [Server] (h : w.Invariant) (kind : RequestKind) (headers : AgentHeaders)
    (body : ByteArray) (secrets : String → Option String) :
    (w.receive kind headers body secrets).Invariant := by
  unfold AgentWorld.receive
  split
  next => exact h
  next auth hauth =>
    obtain ⟨hauthentic, -, rfl, -⟩ := authenticate_eq_ok hauth
    refine { h with pending := fun r hr => ?_ }
    rcases List.mem_append.1 hr with hr | hr
    · exact h.pending r hr
    · rw [List.mem_singleton.1 hr]
      exact ⟨⟨hauthentic, rfl⟩, le_refl _⟩

/-- What a positive answer of the database means. -/
theorem ledgerCall_eq_true {r : SentRequest} {elapsed : ℕ} (h : (w.ledgerCall r elapsed).1 = true) :
    ∃ host, enabledHostOf w.hosts mcMainServerId = some host ∧
      (∀ row ∈ prune w.now host.id w.ledger, row.hostId = host.id → row.nonce ≠ r.auth.nonce) ∧
      (w.ledgerCall r elapsed).2 = prune w.now host.id w.ledger ++
        [⟨host.id, r.kind, r.auth.nonce, r.auth.bodySha256, w.now + elapsed⟩] := by
  unfold ledgerCall acceptOperationAgentRequest at h ⊢
  split_ifs at h ⊢
  split at h
  next => exact nomatch h
  next host hhost =>
    split_ifs at h with hfound
    refine ⟨host, hhost, fun row hrow hid hnonce => hfound ?_, ?_⟩
    · exact List.any_eq_true.2 ⟨row, hrow, by simp [hid, hnonce]⟩
    · rw [if_neg hfound]

/-- Nothing is deleted that is younger than the retention. -/
theorem prune_kept (id : Uuid) (row : OperationAgentRequest) (hrow : row ∈ w.ledger) :
    row ∈ prune w.now id w.ledger ∨ row.receivedAt + retention < w.now := by
  by_cases hold : row.hostId = id ∧ row.receivedAt < w.now - retention
  · exact .inr (by omega)
  · refine .inl (List.mem_filter.2 ⟨hrow, ?_⟩)
    rw [Bool.not_eq_true', ← Bool.not_eq_true, Bool.and_eq_true, decide_eq_true_eq,
      decide_eq_true_eq]
    exact hold

/-- Whatever the answer, a call forgets nothing that is younger than the retention. -/
theorem ledgerCall_kept (r : SentRequest) (elapsed : ℕ) :
    ∀ row ∈ w.ledger, row ∈ (w.ledgerCall r elapsed).2 ∨ row.receivedAt + retention < w.now := by
  intro row hrow
  unfold ledgerCall acceptOperationAgentRequest
  split_ifs
  · exact .inl hrow
  · split
    · exact .inl hrow
    next host _ =>
      split_ifs
      · exact prune_kept host.id row hrow
      · exact (prune_kept host.id row hrow).imp_left fun h => List.mem_append_left _ h

theorem enabledHostOf_eq_some {hosts : List Host} {serverId : String} {h : Host}
    (hfind : enabledHostOf hosts serverId = some h) : h ∈ hosts ∧ h.serverId = serverId := by
  have hprop := List.find?_some hfind
  rw [Bool.and_eq_true, decide_eq_true_eq] at hprop
  exact ⟨List.mem_of_find?_eq_some hfind, hprop.1⟩

/-- **The database serves a call.** -/
theorem Invariant.serve (h : w.Invariant) (i elapsed : ℕ) : (w.serve i elapsed).Invariant := by
  unfold AgentWorld.serve
  split
  next => exact h
  next r hr =>
    obtain ⟨hvalid, hsent⟩ := h.pending r (List.mem_of_getElem? hr)
    have hlater : w.now ≤ w.now + elapsed := by omega
    have hwait := h.wait elapsed
    have hpending : ∀ r ∈ w.pending.eraseIdx i, r.Valid ∧ r.sentAt ≤ w.now + elapsed :=
      fun r hr => hwait.pending r (List.mem_of_mem_eraseIdx hr)
    have hkept : Recorded retention w.now ((w.ledgerCall r elapsed).2.map (·.entry))
        (w.granted.map (·.entry)) := by
      refine h.recorded.prune le_rfl fun e he => ?_
      obtain ⟨row, hrow, rfl⟩ := List.mem_map.1 he
      exact (w.ledgerCall_kept r elapsed row hrow).imp_left fun h => List.mem_map_of_mem h
    by_cases hanswer : (w.ledgerCall r elapsed).1 = true
    · obtain ⟨host, hhost, hfresh, hledger⟩ := ledgerCall_eq_true hanswer
      obtain ⟨hmem, hserver⟩ := enabledHostOf_eq_some hhost
      have hgrant : w.grant r (w.now + elapsed) = [⟨r, host.id, w.now + elapsed⟩] := by
        rw [grant, hhost]
        rfl
      have hpruned : Recorded retention w.now ((prune w.now host.id w.ledger).map (·.entry))
          (w.granted.map (·.entry)) := by
        refine h.recorded.prune le_rfl fun e he => ?_
        obtain ⟨row, hrow, rfl⟩ := List.mem_map.1 he
        exact (prune_kept host.id row hrow).imp_left fun h => List.mem_map_of_mem h
      simp only [hanswer, if_true, hgrant, hledger]
      constructor
      · exact h.hosts
      · exact hpending
      · intro g hg
        rcases List.mem_append.1 hg with hg | hg
        · exact hwait.granted g hg
        · rw [List.mem_singleton.1 hg]
          exact ⟨hvalid, le_trans hsent hlater, le_rfl, host, hmem, rfl, hserver⟩
      · rw [List.map_append, List.map_append, List.map_singleton, List.map_singleton,
          OperationAgentRequest.entry, Grant.entry, hvalid.nonce]
        exact hpruned.accept hlater
      · rw [List.map_append, List.map_singleton]
        refine h.spaced.accept hpruned (fun e he hkey => ?_) hlater
        obtain ⟨row, hrow, rfl⟩ := List.mem_map.1 he
        obtain ⟨hid, hnonce⟩ := Prod.mk.inj hkey
        exact hfresh row hrow hid (hnonce.trans hvalid.nonce.symm)
      · rw [← List.append_assoc]
        exact h.answers.append_right _
      · exact h.inTime
    · simp only [hanswer, Bool.false_eq_true, if_false]
      exact ⟨h.hosts, hpending, hwait.granted, hkept.prune hlater fun e he => .inl he, h.spaced,
        h.answers, h.inTime⟩

/-- An answer arrives. -/
theorem Invariant.answer (h : w.Invariant) (i : ℕ) : (w.answer i).Invariant := by
  unfold AgentWorld.answer
  split
  next => exact h
  next g hg =>
    split_ifs with htime
    · obtain ⟨hi, rfl⟩ := List.getElem?_eq_some_iff.1 hg
      have hperm : (w.accepted ++ [w.unanswered[i]] ++ w.unanswered.eraseIdx i).Perm
          (w.accepted ++ w.unanswered) := by
        rw [List.append_assoc]
        exact (List.getElem_cons_eraseIdx_perm hi).append_left _
      have hgranted : w.unanswered[i] ∈ w.granted :=
        h.answers.subset (List.mem_append_right _ (List.getElem_mem hi))
      refine { h with answers := hperm.trans h.answers, inTime := fun g hg => ?_ }
      rcases List.mem_append.1 hg with hg | hg
      · exact h.inTime g hg
      · rw [List.mem_singleton.1 hg]
        exact le_trans (h.granted _ hgranted).2.2.1 htime
    · exact h

theorem Invariant.addHost (h : w.Invariant) (k : Host) : (w.addHost k).Invariant := by
  unfold AgentWorld.addHost
  split_ifs with hany
  · exact h
  · refine { h with hosts := ?_, granted := fun g hg => ?_ }
    · refine List.pairwise_append.2 ⟨h.hosts, List.pairwise_singleton .., fun a ha b hb => ?_⟩
      rw [List.mem_singleton.1 hb]
      intro hserver
      exact hany (List.any_eq_true.2 ⟨a, ha, by simp [hserver]⟩)
    · obtain ⟨hvalid, hsent, hle, host, hhost, heq⟩ := h.granted g hg
      exact ⟨hvalid, hsent, hle, host, List.mem_append_left _ hhost, heq⟩

theorem Invariant.enableHost (h : w.Invariant) (id : Uuid) (enabled : Bool) :
    (w.enableHost id enabled).Invariant := by
  have same (host : Host) : (if host.id = id then { host with enabled } else host).id = host.id ∧
      (if host.id = id then { host with enabled } else host).serverId = host.serverId := by
    split_ifs <;> exact ⟨rfl, rfl⟩
  refine { h with hosts := ?_, granted := fun g hg => ?_ }
  · refine List.pairwise_map.2 (h.hosts.imp fun hne => ?_)
    rw [(same _).2, (same _).2]
    exact hne
  · obtain ⟨hvalid, hsent, hle, host, hhost, hid, hserver⟩ := h.granted g hg
    exact ⟨hvalid, hsent, hle, _, List.mem_map_of_mem hhost, (same host).1.trans hid,
      (same host).2.trans hserver⟩

/-- **Every event keeps the invariant.** -/
theorem Invariant.step [Server] (h : w.Invariant) (e : AgentEvent) : (w.step e).Invariant := by
  have h := h.wait e.elapsed
  unfold AgentWorld.step
  cases e.action with
  | request kind headers body secrets => exact h.receive kind headers body secrets
  | serve i elapsed => exact h.serve i elapsed
  | answer i => exact h.answer i
  | addHost k => exact h.addHost k
  | enableHost id enabled => exact h.enableHost id enabled

theorem invariant_run [Server] (t : ℤ) (events : List AgentEvent) :
    ((initial t).run events).Invariant :=
  Runs.run_invariant (P := AgentWorld.Invariant) (fun _ e h => h.step e) (invariant_initial t)
    events

end AgentWorld

/-! ## The main result -/

/-- Two acceptances under one timestamp are close to each other. -/
theorem AgentWorld.Invariant.receivedAt_le {w : AgentWorld} (h : w.Invariant) {g g' : Grant}
    (hg : g ∈ w.accepted) (hg' : g' ∈ w.accepted)
    (htime : g.request.headers.timestamp = g'.request.headers.timestamp) :
    g'.receivedAt ≤ g.receivedAt + retention := by
  obtain ⟨hvalid, hsent, -, -⟩ := h.granted g (h.answers.subset (List.mem_append_left _ hg))
  obtain ⟨hvalid', -, -, -⟩ := h.granted g' (h.answers.subset (List.mem_append_left _ hg'))
  have hclose := hvalid.authentic.sentAt_le hvalid'.authentic htime
  have hintime := h.inTime g' hg'
  simp only [rpcTimeout, retention, second] at *
  omega

/-- All grants are for the one host of the server. -/
theorem AgentWorld.Invariant.hostId_eq {w : AgentWorld} (h : w.Invariant) {g g' : Grant}
    (hg : g ∈ w.accepted) (hg' : g' ∈ w.accepted) : g.hostId = g'.hostId := by
  obtain ⟨-, -, -, k, hk, hid, hserver⟩ := h.granted g (h.answers.subset (List.mem_append_left _ hg))
  obtain ⟨-, -, -, k', hk', hid', hserver'⟩ :=
    h.granted g' (h.answers.subset (List.mem_append_left _ hg'))
  have : Std.Symm fun h k : Host => h.serverId ≠ k.serverId := ⟨fun _ _ hne => hne.symm⟩
  have hsame : k = k' := by
    by_contra hne
    exact h.hosts.forall hk hk' hne (hserver.trans hserver'.symm)
  rw [← hid, ← hid', hsame]

/-- **Signed requests are accepted at most once.** After every run two accepted requests under one
timestamp have different nonces, so that no tuple of timestamp, nonce, body and signature is
accepted twice; and the signed message determines the timestamp, the nonce and the body of every
request whose headers pass. -/
theorem agent_requests_accepted_once [Server] (t : ℤ) (events : List AgentEvent) :
    ((AgentWorld.initial t).run events).accepted.Pairwise (fun g g' =>
      g.request.headers.timestamp = g'.request.headers.timestamp →
        g.request.headers.nonce ≠ g'.request.headers.nonce) ∧
    (((AgentWorld.initial t).run events).accepted.map fun g =>
      (g.request.headers.timestamp, g.request.headers.nonce, g.request.body,
        g.request.headers.signature)).Nodup ∧
    ∀ timestamp timestamp' nonce nonce' body body', timestampOk timestamp = true →
      timestampOk timestamp' = true → nonceOk nonce = true → nonceOk nonce' = true →
      signedMessage timestamp nonce body = signedMessage timestamp' nonce' body' →
      timestamp = timestamp' ∧ nonce = nonce' ∧ body = body' := by
  have h := AgentWorld.invariant_run t events
  generalize (AgentWorld.initial t).run events = w at h
  have hpairwise : w.accepted.Pairwise fun g g' =>
      g.request.headers.timestamp = g'.request.headers.timestamp →
        g.request.headers.nonce ≠ g'.request.headers.nonce := by
    have hperm := h.answers.map (·.entry)
    rw [List.map_append] at hperm
    refine (List.pairwise_map.1 (h.spaced.apart hperm)).imp_of_mem fun hg hg' hapart htime hnonce => ?_
    refine key_ne_of_close hapart (h.receivedAt_le hg hg' htime)
      (h.receivedAt_le hg' hg htime.symm) ?_
    exact Prod.ext (h.hostId_eq hg hg') hnonce
  refine ⟨hpairwise, ?_, fun _ _ _ _ _ _ ht ht' hn hn' => signedMessage_inj ht ht' hn hn'⟩
  refine List.pairwise_map.2 (hpairwise.imp fun hne heq => ?_)
  obtain ⟨htime, heq⟩ := Prod.mk.inj heq
  exact hne htime (Prod.mk.inj heq).1

end IvrmDashboard.Operations
