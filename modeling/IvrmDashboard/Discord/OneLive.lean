import IvrmDashboard.Discord.Sessions
import IvrmDashboard.Foundations.Js.Date
import IvrmDashboard.Operations.Failures

/-!
# One live session of a user

A call reads the clock before it has its lock, so the calls commit in another order than their
clocks. Of two sessions of a user that are both open, the one that was inserted first still ends
before the other begins (`Follows`), so at any moment at most one of them is live. A login can fail
for that reason: it revokes what it finds open at the time it has read, also a session that was
created after that time, and a session is not revoked before it was created
(`discord_console_sessions_revocation_check`). This is the only way in which a login with valid
arguments and a fresh token fails (`one_live_session`).
-/

namespace IvrmDashboard.Discord

open Sql Operations

/-! ## What becomes of a session -/

namespace Session

/-- What the login has determined. -/
def login (s : Session) : Session :=
  { s with lastSeenAt := s.createdAt, revokedAt := none, revokeReason := none }

/-- The login stays as it is, and so does a revocation. -/
structure Becomes (s t : Session) : Prop where
  login : t.login = s.login
  revokedAt : s.revokedAt ≠ none → t.revokedAt = s.revokedAt

namespace Becomes

variable {s t u : Session}

theorem refl (s : Session) : s.Becomes s := ⟨rfl, fun _ => rfl⟩

theorem trans (h : s.Becomes t) (h' : t.Becomes u) : s.Becomes u where
  login := h'.login.trans h.login
  revokedAt := by
    intro hs
    have ht := h.revokedAt hs
    rw [h'.revokedAt (by rwa [ht]), ht]

theorem id_eq (h : s.Becomes t) : t.id = s.id := (congrArg Session.id h.login :)

theorem sessionTokenHash_eq (h : s.Becomes t) : t.sessionTokenHash = s.sessionTokenHash :=
  (congrArg Session.sessionTokenHash h.login :)

theorem discordUserId_eq (h : s.Becomes t) : t.discordUserId = s.discordUserId :=
  (congrArg Session.discordUserId h.login :)

theorem createdAt_eq (h : s.Becomes t) : t.createdAt = s.createdAt :=
  (congrArg Session.createdAt h.login :)

theorem expiresAt_eq (h : s.Becomes t) : t.expiresAt = s.expiresAt :=
  (congrArg Session.expiresAt h.login :)

theorem eq_none (h : s.Becomes t) (ht : t.revokedAt = none) : s.revokedAt = none := by
  by_contra hs
  exact hs (h.revokedAt hs ▸ ht)

theorem revoke (hs : s.revokedAt.isNone = true) (now : ℤ) (reason : RevokeReason) :
    s.Becomes (s.revoke now reason) :=
  ⟨rfl, fun h => absurd (Option.isNone_iff_eq_none.1 hs) h⟩

theorem touch (s : Session) (now : ℤ) : s.Becomes (s.touch now) := ⟨rfl, fun _ => rfl⟩

end Becomes

/-- The session satisfies the constraints of the table. -/
def Checked (s : Session) : Prop := ∀ check ∈ s.checks, check.2 = true

/-- Of two open sessions of a user the earlier one ends before the later one begins. -/
def Follows (s t : Session) : Prop :=
  s.discordUserId = t.discordUserId → s.revokedAt = none → t.revokedAt = none →
    s.expiresAt ≤ t.createdAt

theorem Follows.becomes {s t s' t' : Session} (h : s.Follows t) (hs : s.Becomes s')
    (ht : t.Becomes t') : s'.Follows t' := by
  intro huser hs' ht'
  rw [hs.expiresAt_eq, ht.createdAt_eq]
  apply h
  · rw [← hs.discordUserId_eq, huser, ht.discordUserId_eq]
  · exact hs.eq_none hs'
  · exact ht.eq_none ht'

end Session

/-! ## The rows -/

/-- The rows satisfy their constraints, and open sessions follow each other. -/
structure Rows (rows : List Session) : Prop where
  checked : ∀ s ∈ rows, s.Checked
  ids : Unique Session.id rows
  hashes : Unique Session.sessionTokenHash rows
  follows : rows.Pairwise Session.Follows

theorem rows_nil : Rows [] where
  checked := by simp
  ids := Unique.nil _
  hashes := Unique.nil _
  follows := .nil

/-- One list of rows comes from another by calls made up to `now`: it is as good as the other, no
session of the other is lost, and what is new was created by now. -/
structure Succeeds (now : ℤ) (old new : List Session) : Prop where
  rows : Rows old → Rows new
  kept : ∀ s ∈ old, ∃ t ∈ new, s.Becomes t
  created : ∀ t ∈ new, (∃ s ∈ old, s.createdAt = t.createdAt) ∨ t.createdAt ≤ now

namespace Succeeds

variable {now : ℤ}

theorem refl (rows : List Session) : Succeeds now rows rows :=
  ⟨id, fun s hs => ⟨s, hs, .refl s⟩, fun s hs => .inl ⟨s, hs, rfl⟩⟩

theorem trans {old mid new : List Session} (h : Succeeds now old mid) (h' : Succeeds now mid new) :
    Succeeds now old new where
  rows := h'.rows ∘ h.rows
  kept := by
    intro s hs
    obtain ⟨t, ht, hst⟩ := h.kept s hs
    obtain ⟨u, hu, htu⟩ := h'.kept t ht
    exact ⟨u, hu, hst.trans htu⟩
  created := by
    intro u hu
    rcases h'.created u hu with ⟨t, ht, hut⟩ | hnow
    · rw [← hut]
      exact h.created t ht
    · exact .inr hnow

theorem mono {now' : ℤ} {old new : List Session} (h : Succeeds now old new) (hle : now ≤ now') :
    Succeeds now' old new where
  rows := h.rows
  kept := h.kept
  created := fun t ht => (h.created t ht).imp_right fun hnow => hnow.trans hle

/-- An update that revokes open sessions or notes when they were seen. -/
theorem updateWhere {rows : List Session} {p : Session → Bool} {f : Session → Session}
    (hf : ∀ s, p s = true → s.Becomes (f s)) (hchecked : ∀ s ∈ rows, p s = true → (f s).Checked) :
    Succeeds now rows (updateWhere p f rows) := by
  have hbecomes (s : Session) : s.Becomes (if p s then f s else s) := by
    split
    next hp => exact hf s hp
    next => exact .refl s
  refine ⟨fun h => ⟨?_, ?_, ?_, ?_⟩, ?_, ?_⟩
  · intro t ht
    obtain ⟨s, hs, rfl⟩ := mem_updateWhere.1 ht
    split
    next hp => exact hchecked s hs hp
    next => exact h.checked s hs
  · exact h.ids.updateWhere fun s _ hp => (hf s hp).id_eq
  · exact h.hashes.updateWhere fun s _ hp => (hf s hp).sessionTokenHash_eq
  · rw [Sql.updateWhere, List.pairwise_map]
    exact h.follows.imp fun hst => hst.becomes (hbecomes _) (hbecomes _)
  · intro s hs
    exact ⟨_, mem_updateWhere.2 ⟨s, hs, rfl⟩, hbecomes s⟩
  · intro t ht
    obtain ⟨s, hs, rfl⟩ := mem_updateWhere.1 ht
    exact .inl ⟨s, hs, (hbecomes s).createdAt_eq.symm⟩

/-- A row is inserted when the open sessions of its user have ended. -/
theorem concat {rows : List Session} {t : Session} (hchecked : t.Checked)
    (hid : ∀ s ∈ rows, s.id ≠ t.id) (hhash : ∀ s ∈ rows, s.sessionTokenHash ≠ t.sessionTokenHash)
    (hfollows : ∀ s ∈ rows, s.Follows t) (hnow : t.createdAt ≤ now) :
    Succeeds now rows (rows ++ [t]) := by
  refine ⟨fun h => ⟨?_, h.ids.concat hid, h.hashes.concat hhash, ?_⟩, ?_, ?_⟩
  · intro s hs
    rcases List.mem_append.1 hs with hs | hs
    · exact h.checked s hs
    · rwa [List.mem_singleton.1 hs]
  · refine List.pairwise_append.2 ⟨h.follows, List.pairwise_singleton .., ?_⟩
    intro s hs u hu
    rw [List.mem_singleton.1 hu]
    exact hfollows s hs
  · intro s hs
    exact ⟨s, List.mem_append_left _ hs, .refl s⟩
  · intro s hs
    rcases List.mem_append.1 hs with hs | hs
    · exact .inl ⟨s, hs, rfl⟩
    · rw [List.mem_singleton.1 hs]
      exact .inr hnow

end Succeeds

/-! ## The writes -/

namespace Console

theorem update_eq_ok {c c' : Console} {p : Session → Bool} {f : Session → Session} :
    c.update p f = .ok c' ↔ (∀ s ∈ c.sessions, p s = true → (f s).Checked) ∧
      c' = { c with sessions := updateWhere p f c.sessions } := by
  have hchecks : (∀ check ∈ (c.sessions.filter p).flatMap fun s => (f s).checks, check.2 = true) ↔
      ∀ s ∈ c.sessions, p s = true → (f s).Checked := by
    simp only [List.mem_flatMap, List.mem_filter, Session.Checked]
    constructor
    · intro h s hs hp check hcheck
      exact h check ⟨s, ⟨hs, hp⟩, hcheck⟩
    · rintro h check ⟨s, ⟨hs, hp⟩, hcheck⟩
      exact h s hs hp check hcheck
  rw [update, bind_eq_ok]
  constructor
  · rintro ⟨_, hok, hc⟩
    exact ⟨hchecks.1 (checkAll_eq_ok.1 hok), (pure_eq_ok.1 hc).symm⟩
  · rintro ⟨hok, rfl⟩
    exact ⟨(), checkAll_eq_ok.2 (hchecks.2 hok), rfl⟩

theorem insert_eq_ok {c c' : Console} {s : Session} :
    c.insert s = .ok c' ↔ s.Checked ∧ (∀ r ∈ c.sessions, r.id ≠ s.id) ∧
      (∀ r ∈ c.sessions, r.sessionTokenHash ≠ s.sessionTokenHash) ∧
      c' = { c with sessions := c.sessions ++ [s] } := by
  simp only [insert, bind_eq_ok, raiseIf_eq_ok, checkAll_eq_ok, any_key_eq_false, pure_eq_ok]
  constructor
  · rintro ⟨_, hs, _, hid, _, hhash, rfl⟩
    exact ⟨hs, hid, hhash, rfl⟩
  · rintro ⟨hs, hid, hhash, rfl⟩
    exact ⟨(), hs, (), hid, (), hhash, rfl⟩

theorem appendAudit_eq_ok [Server] {c c' : Console} {clock : ℤ} {e : Audit.Entry}
    (h : c.appendAudit clock e = .ok c') :
    c'.sessions = c.sessions ∧ c'.waiting = c.waiting ∧
      (Audit.WellFormed c.audit → Audit.WellFormed c'.audit) := by
  obtain ⟨⟨id, audit⟩, happend, hc⟩ := bind_eq_ok.1 h
  obtain rfl := pure_eq_ok.1 hc
  exact ⟨rfl, rfl, fun hwf => hwf.appendAuditLog happend⟩

end Console

section

variable [Server]

/-- What a call that commits by `now` does to the tables. -/
structure Writes (now : ℤ) (c c' : Console) : Prop where
  sessions : Succeeds now c.sessions c'.sessions
  audit : Audit.WellFormed c.audit → Audit.WellFormed c'.audit
  waiting : c'.waiting = c.waiting

namespace Writes

variable {now : ℤ} {c c' c'' : Console}

theorem refl (c : Console) : Writes now c c := ⟨.refl _, id, rfl⟩

theorem trans (h : Writes now c c') (h' : Writes now c' c'') : Writes now c c'' :=
  ⟨h.sessions.trans h'.sessions, h'.audit ∘ h.audit, h'.waiting.trans h.waiting⟩

theorem update {p : Session → Bool} {f : Session → Session}
    (hf : ∀ s, p s = true → s.Becomes (f s)) (h : c.update p f = .ok c') : Writes now c c' := by
  obtain ⟨hchecked, rfl⟩ := Console.update_eq_ok.1 h
  exact ⟨.updateWhere hf hchecked, id, rfl⟩

/-- Open sessions are revoked. -/
theorem revoke {p : Session → Bool} {t : ℤ} {reason : RevokeReason}
    (hp : ∀ s, p s = true → s.revokedAt.isNone = true)
    (h : c.update p (·.revoke t reason) = .ok c') : Writes now c c' :=
  update (fun s hs => .revoke (hp s hs) t reason) h

theorem appendAudit {clock : ℤ} {e : Audit.Entry}
    (h : c.appendAudit clock e = .ok c') : Writes now c c' := by
  obtain ⟨hsessions, hwaiting, haudit⟩ := Console.appendAudit_eq_ok h
  exact ⟨hsessions ▸ .refl _, haudit, hwaiting⟩

/-- What an aborted call writes is undone. -/
theorem commit {α : Type} {r : Except DbError (α × Console)}
    (h : ∀ a c', r = .ok (a, c') → Writes now c c') : Writes now c (c.commit r) := by
  cases r with
  | error e => exact .refl c
  | ok x => exact h x.1 x.2 rfl

end Writes

section

variable {now : ℤ} {c c' : Console}

/-- A login that commits: the open sessions of the user have been revoked or have ended. -/
theorem createDiscordConsoleSession_writes {v : Invocation} {p : CreateParams} {out : Uuid × ℤ}
    (hnow : v.sampledAt ≤ now) (h : createDiscordConsoleSession v p c = .ok (out, c')) :
    Writes now c c' := by
  obtain ⟨d, -, h⟩ := bind_eq_ok.1 h
  obtain ⟨c₁, hupdate, h⟩ := bind_eq_ok.1 h
  obtain ⟨c₂, hinsert, h⟩ := bind_eq_ok.1 h
  obtain ⟨c₃, haudit, h⟩ := bind_eq_ok.1 h
  cases pure_eq_ok.1 h
  have hrevoke : Writes now c c₁ := by
    refine .revoke (fun s hs => ?_) hupdate
    simp only [SessionDraft.replaces, Session.live, Bool.and_eq_true] at hs
    exact hs.2.1
  refine hrevoke.trans (.trans ⟨?_, ?_, ?_⟩ (.appendAudit haudit))
  all_goals
    obtain ⟨hchecked, hid, hhash, rfl⟩ := Console.insert_eq_ok.1 hinsert
  · refine .concat hchecked hid hhash (fun s hs huser hopen _ => ?_) hnow
    -- a session of the user that is still open was not one to replace
    obtain ⟨-, rfl⟩ := Console.update_eq_ok.1 hupdate
    obtain ⟨r, -, rfl⟩ := mem_updateWhere.1 hs
    split at hopen
    next => cases hopen
    next hno =>
      rw [if_neg hno] at huser ⊢
      simp only [SessionDraft.replaces, Session.live, hopen, SessionDraft.row] at hno huser ⊢
      simpa [huser] using hno
  · exact id
  · rfl

theorem revokeDiscordConsoleSession_writes {v : Invocation} {p : RevokeParams} {out : Bool}
    (h : revokeDiscordConsoleSession v p c = .ok (out, c')) : Writes now c c' := by
  obtain ⟨requestId, -, h⟩ := bind_eq_ok.1 h
  split at h
  next => cases h; exact .refl c
  next hash _ =>
    obtain ⟨reason, -, h⟩ := bind_eq_ok.1 h
    split at h
    next => cases h; exact .refl c
    next s _ =>
      obtain ⟨c₁, hupdate, h⟩ := bind_eq_ok.1 h
      obtain ⟨c₂, haudit, h⟩ := bind_eq_ok.1 h
      cases h
      refine .trans (.revoke (fun s hs => ?_) hupdate) (.appendAudit haudit)
      exact (Bool.and_eq_true_iff.1 hs).2

theorem expireDiscordConsoleSessions_writes {v : Invocation} {limit : Option ℤ}
    {locked : Session → Bool} {n : ℕ}
    (h : expireDiscordConsoleSessions v limit locked c = .ok (n, c')) : Writes now c c' := by
  obtain ⟨limit, -, h⟩ := bind_eq_ok.1 h
  obtain ⟨c₁, hupdate, h⟩ := bind_eq_ok.1 h
  cases h
  refine .revoke (fun s hs => ?_) hupdate
  have hdue := List.mem_of_mem_take (of_decide_eq_true hs)
  simp only [mem_orderBy, List.mem_filter, Bool.and_eq_true] at hdue
  exact hdue.2.1.1

/-- The revocation of another session: what is written, and that an administrator leaves the
sessions of owners alone. -/
theorem revokeByActor_writes {target actor : Session} {v : Invocation} {clock : ℤ}
    {requestId : Uuid} {out : RevokeOutcome}
    (h : target.revokeByActor actor v clock requestId c = .ok (out, c')) :
    Writes now c c' ∧ (actor.consoleRole = .administrator →
      c'.sessions = c.sessions ∨ target.consoleRole ≠ .owner ∧ ∀ s ∈ c.sessions,
        s.id ≠ target.id → s ∈ c'.sessions) := by
  have hopen {s : Session} (hs : (decide (s.id = target.id) && s.revokedAt.isNone) = true) :
      s.revokedAt.isNone = true := (Bool.and_eq_true_iff.1 hs).2
  have hother {c₁ : Console} {t : ℤ} {reason : RevokeReason}
      (hupdate : c.update (fun s => s.id = target.id && s.revokedAt.isNone)
        (·.revoke t reason) = .ok c₁) (s : Session) (hs : s ∈ c.sessions)
      (hid : s.id ≠ target.id) : s ∈ c₁.sessions := by
    obtain ⟨-, rfl⟩ := Console.update_eq_ok.1 hupdate
    exact mem_updateWhere.2 ⟨s, hs, by simp [hid]⟩
  unfold Session.revokeByActor at h
  split at h
  next =>
    obtain ⟨c₁, haudit, h⟩ := bind_eq_ok.1 h
    cases h
    exact ⟨.appendAudit haudit, fun _ => .inl (Console.appendAudit_eq_ok haudit).1⟩
  next hrole =>
    have howner (hactor : actor.consoleRole = .administrator) : target.consoleRole ≠ .owner := by
      simpa [hactor] using hrole
    split at h
    next => cases h; exact ⟨.refl c, fun _ => .inl rfl⟩
    next =>
      split at h
      next =>
        obtain ⟨c₁, hupdate, h⟩ := bind_eq_ok.1 h
        cases h
        exact ⟨.revoke (fun s => hopen) hupdate, fun ha => .inr ⟨howner ha, hother hupdate⟩⟩
      next =>
        obtain ⟨c₁, hupdate, h⟩ := bind_eq_ok.1 h
        obtain ⟨c₂, haudit, h⟩ := bind_eq_ok.1 h
        cases h
        refine ⟨.trans (.revoke (fun s => hopen) hupdate) (.appendAudit haudit), fun ha => ?_⟩
        rw [(Console.appendAudit_eq_ok haudit).1]
        exact .inr ⟨howner ha, hother hupdate⟩

omit [Server] in
/-- The caller's own session has been resolved. -/
theorem RevokeByIdParams.validate_eq_ok {p : RevokeByIdParams} {v : Invocation}
    {requestId targetId : Uuid} {actor : Session}
    (h : p.validate v c = .ok (requestId, targetId, actor)) :
    ∃ hash, p.actorSessionTokenHash = some hash ∧
      c.session? v.sampledAt (some hash) = some actor := by
  simp only [RevokeByIdParams.validate, bind_eq_ok, orRaise_eq_ok, pure_eq_ok, Prod.mk.injEq,
    Option.filter_eq_some_iff] at h
  obtain ⟨_, -, _, -, hash, ⟨hhash, -⟩, _, ⟨hactor, -⟩, -, -, rfl⟩ := h
  exact ⟨hash, hhash, hactor⟩

theorem revokeById_writes {v : Invocation} {clock : ℤ} {requestId targetId : Uuid}
    {actor : Session} {out : RevokeOutcome}
    (h : revokeById v clock requestId targetId actor c = .ok (out, c')) : Writes now c c' := by
  unfold revokeById at h
  split at h
  next => cases h; exact .refl c
  next => exact (revokeByActor_writes h).1

/-- An administrator's call leaves the sessions of owners alone. -/
theorem revokeById_owner {v : Invocation} {clock : ℤ} {requestId targetId : Uuid}
    {actor : Session} {out : RevokeOutcome} (hids : Unique Session.id c.sessions)
    (hactor : actor.consoleRole = .administrator)
    (h : revokeById v clock requestId targetId actor c = .ok (out, c')) {s : Session}
    (hs : s ∈ c.sessions) (howner : s.consoleRole = .owner) : s ∈ c'.sessions := by
  unfold revokeById at h
  split at h
  next => cases h; exact hs
  next target hfind =>
    have hwrites : Writes clock c c' ∧ _ := revokeByActor_writes h
    rcases hwrites.2 hactor with heq | ⟨hrole, hother⟩
    · rwa [heq]
    · refine hother s hs fun hid => hrole ?_
      rw [← hids.eq hs (find?_key_eq_some hfind).1 hid, howner]

end

/-! ## Runs -/

/-- The caller that waits holds the token it came with, and its login stands. -/
def Waiting.Known (rows : List Session) : Waiting → Prop
  | .touch _ _ => True
  | .revokeById _ p _ _ actor =>
    p.actorSessionTokenHash = some actor.sessionTokenHash ∧ ∃ s ∈ rows, s.login = actor.login

omit [Server] in
theorem Waiting.Known.succeeds {old new : List Session} {w : Waiting} (h : w.Known old)
    {now : ℤ}
    (hkept : Succeeds now old new) : w.Known new := by
  cases w with
  | touch v s => trivial
  | revokeById v p requestId targetId actor =>
    obtain ⟨htoken, s, hs, hlogin⟩ := h
    obtain ⟨t, ht, hst⟩ := hkept.kept s hs
    exact ⟨htoken, t, ht, hst.login.trans hlogin⟩

namespace Console

variable {now : ℤ} {c c' : Console}

/-- What holds after any calls. -/
structure Sound (c : Console) : Prop where
  rows : Rows c.sessions
  audit : Audit.WellFormed c.audit
  known : ∀ w ∈ c.waiting, w.Known c.sessions

theorem sound_initial (t : ℤ) : (initial t).Sound :=
  ⟨rows_nil, Audit.wellFormed_initial t, by simp [initial]⟩

theorem Sound.writes (h : c.Sound) (now : ℤ) (hw : Writes now c c') : c'.Sound where
  rows := hw.sessions.rows h.rows
  audit := hw.audit h.audit
  known := by
    rw [hw.waiting]
    exact fun w hmem => (h.known w hmem).succeeds hw.sessions

/-- A call begins to wait. -/
theorem Sound.wait {w : Waiting} (h : c.Sound) (hw : w.Known c.sessions) :
    ({ c with waiting := c.waiting ++ [w] } : Console).Sound where
  rows := h.rows
  audit := h.audit
  known := by
    intro w' hmem
    rcases List.mem_append.1 hmem with hmem | hmem
    · exact h.known w' hmem
    · rwa [List.mem_singleton.1 hmem]

/-- A call ceases to wait. -/
theorem Sound.resume (h : c.Sound) (n : ℕ) :
    ({ c with waiting := c.waiting.eraseIdx n } : Console).Sound where
  rows := h.rows
  audit := h.audit
  known := fun w hmem => h.known w (List.mem_of_mem_eraseIdx hmem)

omit [Server] in
/-- A token that is resolved. -/
theorem session?_eq_some {now : ℤ} {hash : Option String} {s : Session}
    (h : c.session? now hash = some s) :
    s ∈ c.sessions ∧ hash = some s.sessionTokenHash ∧ s.live now = true := by
  obtain ⟨token, htoken, hfind⟩ := Option.bind_eq_some_iff.1 h
  have hs := List.find?_some hfind
  simp only [Bool.and_eq_true, decide_eq_true_eq] at hs
  refine ⟨List.mem_of_find?_eq_some hfind, ?_, hs.2⟩
  rw [hs.1]
  exact (Option.filter_eq_some_iff.1 htoken).1

theorem finish_writes (clock : ℤ) (w : Waiting) : Writes now c (c.finish clock w) := by
  cases w with
  | touch v s =>
    apply Writes.commit
    intro u c' h
    obtain ⟨c₁, hupdate, h⟩ := map_eq_ok.1 h
    cases h
    exact .update (fun t _ => .touch t v.sampledAt) hupdate
  | revokeById v p requestId targetId actor =>
    exact .commit fun out c' h => revokeById_writes h

theorem step_sessions (c : Console) (a : Step) :
    Succeeds a.time c.sessions (c.step a).sessions := by
  cases a with
  | create v p =>
    exact (Writes.commit fun _ _ h =>
      createDiscordConsoleSession_writes v.sampled_le h).sessions
  | revoke v p => exact (Writes.commit fun _ _ h => revokeDiscordConsoleSession_writes h).sessions
  | expire v limit locked =>
    exact (Writes.commit fun _ _ h => expireDiscordConsoleSessions_writes h).sessions
  | resolve v hash =>
    simp only [step, resolveDiscordConsoleSession]
    split
    · exact .refl _
    · split <;> exact .refl _
  | revokeById v p =>
    simp only [step]
    split <;> exact .refl _
  | resume n clock =>
    simp only [step]
    split
    next w _ =>
      exact (finish_writes (c := { c with waiting := c.waiting.eraseIdx n }) clock w).sessions
    next => exact .refl _

theorem Sound.step (h : c.Sound) (a : Step) : (c.step a).Sound := by
  cases a with
  | create v p =>
    exact h.writes v.clock
      (.commit fun _ _ h => createDiscordConsoleSession_writes v.sampled_le h)
  | revoke v p => exact h.writes v.clock (.commit fun _ _ h => revokeDiscordConsoleSession_writes h)
  | expire v limit locked =>
    exact h.writes v.clock (.commit fun _ _ h => expireDiscordConsoleSessions_writes h)
  | resolve v hash =>
    simp only [Console.step, resolveDiscordConsoleSession]
    split
    · exact h
    · split
      · exact h.wait trivial
      · exact h
  | revokeById v p =>
    simp only [Console.step]
    split
    next requestId targetId actor hvalid =>
      obtain ⟨hash, hhash, hactor⟩ := RevokeByIdParams.validate_eq_ok hvalid
      obtain ⟨hmem, htoken, -⟩ := session?_eq_some hactor
      exact h.wait ⟨hhash.trans htoken, actor, hmem, rfl⟩
    next => exact h
  | resume n clock =>
    simp only [Console.step]
    split
    next w _ => exact (h.resume n).writes clock (finish_writes clock w)
    next => exact h

theorem sound_run (t : ℤ) (steps : List Step) : ((initial t).run steps).Sound :=
  Runs.run_invariant (fun _ a h => h.step a) (sound_initial t) steps

theorem run_kept (c : Console) (steps : List Step) :
    ∀ s ∈ c.sessions, ∃ t ∈ (c.run steps).sessions, s.Becomes t := by
  induction steps generalizing c with
  | nil => exact fun s hs => ⟨s, hs, .refl s⟩
  | cons a steps ih =>
    intro s hs
    obtain ⟨t, ht, hst⟩ := (step_sessions c a).kept s hs
    obtain ⟨u, hu, htu⟩ := ih (c.step a) t ht
    exact ⟨u, hu, hst.trans htu⟩

/-- No session is created later than the last step. -/
theorem run_created {steps : List Step} (hnow : ∀ a ∈ steps, a.time ≤ now)
    (h : ∀ s ∈ c.sessions, s.createdAt ≤ now) :
    ∀ s ∈ (c.run steps).sessions, s.createdAt ≤ now := by
  induction steps generalizing c with
  | nil => exact h
  | cons a steps ih =>
    obtain ⟨ha, hnow⟩ := List.forall_mem_cons.1 hnow
    apply ih hnow
    intro t ht
    rcases ((step_sessions c a).mono ha).created t ht with ⟨s, hs, hst⟩ | hle
    · exact hst ▸ h s hs
    · exact hle

/-- The sessions of a user that are live at a moment. -/
def liveOf (c : Console) (user : String) (now : ℤ) : List Session :=
  c.sessions.filter fun s => s.discordUserId = user && s.live now

omit [Server] in
theorem length_liveOf_le {user : String} (h : Rows c.sessions)
    (hcreated : ∀ s ∈ c.sessions, s.createdAt ≤ now) : (c.liveOf user now).length ≤ 1 := by
  apply length_le_one_of_pairwise (h.follows.filter _)
  intro s hs t ht hst
  simp only [List.mem_filter, Session.live, Bool.and_eq_true, decide_eq_true_eq,
    Option.isNone_iff_eq_none] at hs ht
  have hle := hst (hs.2.1.trans ht.2.1.symm) hs.2.2.1 ht.2.2.1
  have hlater := hcreated t ht.1
  omega

/-- A session that has been revoked or has ended is not resolved any more. -/
theorem Sound.live_of_resolved {v : Invocation} {hash : Option String} {s s' : Session} (h : c.Sound)
    (hs : s ∈ c.sessions) (back : List Step)
    (hresolved : (resolveDiscordConsoleSession v hash (c.run back)).1 = some s')
    (hid : s'.id = s.id) : s.live v.sampledAt = true := by
  have hsession : (c.run back).session? v.sampledAt hash = some s' := by
    rw [← hresolved, resolveDiscordConsoleSession]
    split <;> simp [*]
  obtain ⟨hs', -, hlive⟩ := session?_eq_some hsession
  have hback : (c.run back).Sound := Runs.run_invariant (fun _ a h => h.step a) h back
  obtain ⟨t, ht, hst⟩ := run_kept c back s hs
  obtain rfl := hback.rows.ids.eq ht hs' (hst.id_eq.trans hid.symm)
  simp only [Session.live, Bool.and_eq_true, Option.isNone_iff_eq_none] at hlive ⊢
  rw [← hst.expiresAt_eq]
  exact ⟨hst.eq_none hlive.1, hlive.2⟩

/-- The token of the session that asks for the revocation of another. -/
def caller (c : Console) : Step → Option String
  | .revokeById _ p => p.actorSessionTokenHash
  | .resume n _ =>
    match c.waiting[n]? with
    | some (.revokeById _ p _ _ _) => p.actorSessionTokenHash
    | _ => none
  | _ => none

/-- The call of an administrator leaves the sessions of owners alone. -/
theorem Sound.owner_kept {a : Step} {s owner : Session} (h : c.Sound) (hs : s ∈ c.sessions)
    (hcaller : c.caller a = some s.sessionTokenHash) (hadmin : s.consoleRole = .administrator)
    (howner : owner ∈ c.sessions) (hrole : owner.consoleRole = .owner) :
    owner ∈ (c.step a).sessions := by
  cases a with
  | revokeById v p =>
    simp only [Console.step]
    split <;> exact howner
  | resume n clock =>
    simp only [Console.step]
    split
    next w hw =>
      cases w with
      | touch v t => simp [caller, hw] at hcaller
      | revokeById v p requestId targetId actor =>
        obtain ⟨htoken, t, ht, hlogin⟩ := h.known _ (List.mem_of_getElem? hw)
        simp only [caller, hw, htoken, Option.some.injEq] at hcaller
        -- the session with the caller's token is the one the call has read
        have htoken' : t.sessionTokenHash = actor.sessionTokenHash :=
          (congrArg Session.sessionTokenHash hlogin :)
        obtain rfl := h.rows.hashes.eq ht hs (htoken'.trans hcaller)
        have hactor : actor.consoleRole = .administrator :=
          (congrArg Session.consoleRole hlogin :).symm.trans hadmin
        simp only [finish, commit]
        split
        next out c' hok =>
          exact revokeById_owner (c := { c with waiting := c.waiting.eraseIdx n }) h.rows.ids hactor
            hok howner hrole
        next => exact howner
    next => exact howner
  | _ => cases hcaller

end Console

/-! ## A login -/

/-- What the checks on the arguments leave. -/
structure SessionDraft.Valid (d : SessionDraft) : Prop where
  sessionTokenHash : tokenHashOk d.sessionTokenHash = true
  discordUserId : snowflakeOk d.discordUserId = true
  discordUsername : nameOk d.discordUsername = true
  discordGlobalName : d.discordGlobalName.all nameOk = true
  discordAvatarHash : d.discordAvatarHash.all avatarHashOk = true
  guildId : snowflakeOk d.guildId = true
  roleIds : 1 ≤ d.roleIds.length ∧ d.roleIds.length ≤ 16
  ttlSeconds : 300 ≤ d.ttlSeconds ∧ d.ttlSeconds ≤ 86400

omit [Server] in
theorem length_roleIds? {a : TextArray} {l : List String} (h : roleIds? a = some l) :
    l.length = a.cardinality := by
  simp only [roleIds?, Option.ite_none_right_eq_some, Option.some.injEq] at h
  obtain ⟨hall, rfl⟩ := h
  rw [TextArray.cardinality, List.length_filterMap_eq_countP, List.countP_eq_length]
  intro x hx
  have hsome := List.all_eq_true.1 hall x hx
  cases x with
  | none => cases hsome
  | some role => rfl

omit [Server] in
theorem CreateParams.validate_eq_ok {p : CreateParams} {d : SessionDraft}
    (h : p.validate = .ok d) : d.Valid := by
  simp only [CreateParams.validate, bind_eq_ok, orRaise_eq_ok, raiseIf_eq_ok, pure_eq_ok,
    Option.filter_eq_some_iff, Bool.not_eq_false', Bool.and_eq_true, decide_eq_true_eq] at h
  obtain ⟨_, -, _, ⟨-, htoken⟩, _, ⟨-, huser⟩, _, ⟨-, hname⟩, _, hglobal, _, havatar, _,
    ⟨-, hguild⟩, matched, ⟨-, hmatched⟩, roles, hroles, _, -, _, ⟨-, httl⟩, rfl⟩ := h
  rw [← length_roleIds? hroles] at hmatched
  exact ⟨htoken, huser, hname, hglobal, havatar, hguild, hmatched, httl⟩

namespace SessionDraft

variable {d : SessionDraft}

omit [Server] in
theorem length_matchedRoleIds (h : d.Valid) (v : Invocation) :
    1 ≤ (d.row v).matchedRoleIds.length ∧ (d.row v).matchedRoleIds.length ≤ 16 := by
  have hlength : (d.row v).matchedRoleIds.length = d.roleIds.dedup.length :=
    List.length_insertionSort _ _
  have hle := (List.dedup_sublist d.roleIds).length_le
  have hne : d.roleIds.dedup ≠ [] := by
    rw [Ne, List.dedup_eq_nil]
    rintro hnil
    have := h.roleIds.1
    simp [hnil] at this
  have hpos := List.length_pos_iff.2 hne
  have := h.roleIds.2
  omega

omit [Server] in
theorem row_checked (h : d.Valid) (v : Invocation) : (d.row v).Checked := by
  have hroles := length_matchedRoleIds h v
  have httl := h.ttlSeconds
  have hlater : v.sampledAt < v.sampledAt + d.ttlSeconds * second := by
    simp only [second]
    omega
  simp only [Session.Checked, Session.checks, List.forall_mem_cons, List.not_mem_nil,
    IsEmpty.forall_iff, implies_true, and_true, Bool.and_eq_true, decide_eq_true_eq]
  exact ⟨h.discordAvatarHash, hlater, h.discordGlobalName, h.guildId, rfl, hroles,
    ⟨Int.le_refl _, hlater.le⟩, h.sessionTokenHash, h.discordUserId, h.discordUsername⟩

omit [Server] in
/-- The calendar up to the last day. -/
theorem year_of_day {z : ℤ} (h0 : 0 ≤ z) (h : z < 130000000) :
    1 ≤ (civilOfDays z).year ∧ (civilOfDays z).year < 10 ^ 6 := by
  obtain ⟨hcentury, hquad, hyear, -⟩ := marchOfDays_valid z
  have hera : 4 ≤ (marchOfDays z).era ∧ (marchOfDays z).era < 900 := by
    simp only [marchOfDays]
    omega
  simp only [civilOfDays, MarchDay.date, MarchDay.fullYear]
  split <;> omega

omit [Server] in
/-- The text of the time a session ends. -/
theorem length_expiresAt_le (h : d.Valid) (v : Invocation) :
    (jsonTimestamptz (d.row v).expiresAt).length ≤ 34 := by
  have httl := h.ttlSeconds
  have hepoch := v.epoch_le
  have hlast : v.sampledAt < 10000000000000000000 := v.lt_last.trans (by decide)
  have hexpires : (d.row v).expiresAt = v.sampledAt + d.ttlSeconds * 1000000 := rfl
  have hyear : 1 ≤ (Field.dateOf (d.row v).expiresAt).year ∧
      (Field.dateOf (d.row v).expiresAt).year < 10 ^ 6 := by
    apply year_of_day <;>
      simp only [hexpires, day] <;> omega
  exact length_jsonTimestamptz_le (w := 6) (by omega) hyear.1 hyear.2

/-- The names of the fields in the entry of a login. -/
def entryKeys : List String :=
  ["guildId", "consoleRole", "matchedRoleCount", "sessionId", "expiresAt"]

omit [Server] in
theorem entryKeys_plain : ∀ k ∈ entryKeys, k.length ≤ 16 ∧
    k.toList.all (·.toNat < 128) = true ∧
    String.ofList (k.toList.map Char.toLower) ∉ sensitiveKeys := by decide

omit [Server] in
theorem length_le_of_snowflakeOk {s : String} (h : snowflakeOk s = true) :
    17 ≤ s.length ∧ s.length ≤ 20 := by
  simp only [snowflakeOk, Text.lengthBetween, Bool.and_eq_true, decide_eq_true_eq] at h
  exact h.1

/-- The metadata of a login is short and names no secret. -/
theorem safeObject_entryFields (h : d.Valid) (v : Invocation) :
    safeObject (.buildObject (d.entryFields v)) = true := by
  have hfields : ∀ f ∈ d.entryFields v, f.1 ∈ entryKeys ∧ (Jsonb.render f.2).length ≤ 218 ∧
      jsonbContainsSensitiveKey f.2 = false := by
    have hquote {s : String} {n : ℕ} (hs : s.length ≤ n) (hn : n ≤ 36) :
        (Jsonb.render (.str s)).length ≤ 218 := by
      have := Jsonb.length_quote_le s
      simp only [Jsonb.render]
      omega
    have hcount : (Jsonb.render (.num (d.row v).matchedRoleIds.length 0)).length ≤ 218 := by
      have hdigits := @length_decimal_le 0 2 (d.row v).matchedRoleIds.length (by omega) (by omega)
        (by have := (length_matchedRoleIds h v).2; omega)
      simp only [Jsonb.render, Jsonb.numText, Int.natAbs_natCast, pow_zero, Nat.div_one, if_true,
        List.append_nil, List.length_append]
      split <;> simp only [List.length_cons, List.length_nil] <;> omega
    simp only [entryFields, List.forall_mem_cons, List.not_mem_nil, IsEmpty.forall_iff,
      implies_true, and_true, instantJson]
    exact ⟨⟨by decide, hquote (length_le_of_snowflakeOk h.guildId).2 (by omega), rfl⟩,
      ⟨by decide, hquote (Role.length_text_le _) (by omega), rfl⟩, ⟨by decide, hcount, rfl⟩,
      ⟨by decide, hquote (Uuid.length_text _).le (by omega), rfl⟩,
      ⟨by decide, hquote (length_expiresAt_le h v) (by omega), rfl⟩⟩
  have hlength : (Jsonb.buildObject (d.entryFields v)).octetLength ≤
      4 * (2 + (6 + 6 * 16 + 218) * 5) := by
    apply Jsonb.octetLength_le_of_fields
    intro f hf
    exact ⟨(entryKeys_plain f.1 (hfields f hf).1).1, (hfields f hf).2.1⟩
  simp only [safeObject, Bool.and_eq_true, decide_eq_true_eq, Bool.not_eq_true']
  refine ⟨⟨rfl, by omega⟩, ?_⟩
  refine fieldsContainSensitiveKey_eq_false fun f hf => ?_
  obtain ⟨hkey, -, hsafe⟩ := hfields f (Jsonb.mem_of_buildObject hf)
  obtain ⟨-, hascii, hplain⟩ := entryKeys_plain f.1 hkey
  rw [Text.lower_eq_of_ascii hascii]
  exact ⟨hplain, hsafe⟩

theorem entry_sound (h : d.Valid) (v : Invocation) : (d.entry v).Sound fun _ => false where
  requestId := ⟨d.requestId, rfl⟩
  action := ⟨_, rfl, by decide⟩
  targetType := ⟨_, rfl, by decide⟩
  result := ⟨_, rfl, by decide⟩
  metadata := ⟨_, rfl, safeObject_entryFields h v⟩
  email := rfl
  role := by simpa [entry, sessionEntry] using Role.text_mem_roles d.consoleRole
  targetId := by
    have huser := length_le_of_snowflakeOk h.discordUserId
    simp only [entry, sessionEntry, Option.all_some, Text.lengthBetween, Bool.and_eq_true,
      decide_eq_true_eq]
    omega
  user := rfl

end SessionDraft

omit [Server] in
theorem revoke_checked {s : Session} (h : s.Checked) {now : ℤ} {reason : RevokeReason} :
    (s.revoke now reason).Checked ↔ s.createdAt ≤ now := by
  simp only [Session.Checked, Session.checks, List.forall_mem_cons, List.not_mem_nil,
    IsEmpty.forall_iff, implies_true, and_true, Session.revoke, Session.revocationOk,
    decide_eq_true_eq] at h ⊢
  obtain ⟨havatar, hexpiry, hglobal, hguild, -, hrest⟩ := h
  constructor
  · rintro ⟨-, -, -, -, hrevoked, -⟩
    exact of_decide_eq_true hrevoked
  · intro hrevoked
    exact ⟨havatar, decide_eq_true hexpiry, hglobal, hguild, decide_eq_true hrevoked, hrest⟩

theorem Console.appendAudit_commits {c : Console} {clock : ℤ} {e : Audit.Entry}
    (hwf : Audit.WellFormed c.audit) (he : e.Sound fun _ => false)
    (hfree : ∀ cols, e.validate clock = .ok cols →
      Audit.CollisionFree (Audit.hashedTexts (c.audit.logs ++ [c.audit.newRow cols]))) :
    Commits (c.appendAudit clock e) := by
  have hfails : Fails (fun _ => False) (Audit.appendAuditLog (fun _ => false) clock e c.audit) :=
    he.append_fails hwf clock fun cols hcols hcollides => hcollides (hfree cols hcols)
  unfold Console.appendAudit
  cases happend : Audit.appendAuditLog (fun _ => false) clock e c.audit with
  | error err => exact (hfails err happend).elim
  | ok out => exact commits_ok _

/-- **A login with a fresh token**: it commits unless it would revoke a session before that was
created. -/
theorem create_commits_iff {c : Console} (h : c.Sound) {v : Invocation} {p : CreateParams}
    {d : SessionDraft} (hd : p.validate = .ok d)
    (hfresh : ∀ s ∈ c.sessions, s.sessionTokenHash ≠ d.sessionTokenHash ∧ s.id ≠ v.newId)
    (hfree : ∀ cols, (d.entry v).validate v.clock = .ok cols →
      Audit.CollisionFree (Audit.hashedTexts (c.audit.logs ++ [c.audit.newRow cols]))) :
    Commits (createDiscordConsoleSession v p c) ↔
      ∀ s ∈ c.sessions, d.replaces v s = true → s.createdAt ≤ v.sampledAt := by
  have hvalid := CreateParams.validate_eq_ok hd
  unfold createDiscordConsoleSession
  rw [commits_bind hd]
  constructor
  · rintro ⟨out, hok⟩ s hs hreplaces
    obtain ⟨c₁, hupdate, -⟩ := bind_eq_ok.1 hok
    exact (revoke_checked (h.rows.checked s hs)).1
      ((Console.update_eq_ok.1 hupdate).1 s hs hreplaces)
  · intro hcreated
    obtain ⟨c₁, hupdate⟩ :
        ∃ c₁, c.update (d.replaces v) (·.revoke v.sampledAt .replaced) = .ok c₁ :=
      ⟨_, Console.update_eq_ok.2 ⟨fun s hs hreplaces =>
        (revoke_checked (h.rows.checked s hs)).2 (hcreated s hs hreplaces), rfl⟩⟩
    have hsame := (Console.update_eq_ok.1 hupdate).2
    have hfresh₁ : ∀ r ∈ c₁.sessions, r.id ≠ v.newId ∧
        r.sessionTokenHash ≠ d.sessionTokenHash := by
      rw [hsame]
      intro r hr
      obtain ⟨s, hs, rfl⟩ := mem_updateWhere.1 hr
      split <;> exact (hfresh s hs).symm
    obtain ⟨c₂, hinsert⟩ : ∃ c₂, c₁.insert (d.row v) = .ok c₂ :=
      ⟨_, Console.insert_eq_ok.2 ⟨SessionDraft.row_checked hvalid v, fun r hr => (hfresh₁ r hr).1,
        fun r hr => (hfresh₁ r hr).2, rfl⟩⟩
    have haudit₂ : c₂.audit = c.audit := by
      rw [(Console.insert_eq_ok.1 hinsert).2.2.2, hsame]
    obtain ⟨c₃, haudit⟩ : Commits (c₂.appendAudit v.clock (d.entry v)) := by
      apply Console.appendAudit_commits _ (SessionDraft.entry_sound hvalid v) <;> rw [haudit₂]
      · exact hfree
      · exact h.audit
    rw [commits_bind hupdate, commits_bind hinsert, commits_bind haudit]
    exact commits_pure _

/-- **One live session of a user**, whatever the calls and the order they commit in: at any moment
after the steps a user has at most one session that is not revoked and has not ended; a session that
is resolved was neither revoked nor ended in any state before; the call of an administrator leaves
the sessions of owners as they are. And a login with valid arguments and a fresh token commits, as
far as the drawn id is new and the digest of the log does not collide, unless a session that it has
to replace was created after the time it has read. -/
theorem one_live_session (t : ℤ) (steps : List Step) :
    let c := (Console.initial t).run steps
    (∀ user now, (∀ a ∈ steps, a.time ≤ now) → (c.liveOf user now).length ≤ 1) ∧
    (∀ s ∈ c.sessions, ∀ back v hash s',
      (resolveDiscordConsoleSession v hash (c.run back)).1 = some s' → s'.id = s.id →
      s.live v.sampledAt = true) ∧
    (∀ a, ∀ s ∈ c.sessions, c.caller a = some s.sessionTokenHash →
      s.consoleRole = .administrator →
      ∀ owner ∈ c.sessions, owner.consoleRole = .owner → owner ∈ (c.step a).sessions) ∧
    ∀ v p d, CreateParams.validate p = .ok d →
      (∀ s ∈ c.sessions, s.sessionTokenHash ≠ d.sessionTokenHash ∧ s.id ≠ v.newId) →
      (∀ cols, (d.entry v).validate v.clock = .ok cols →
        Audit.CollisionFree (Audit.hashedTexts (c.audit.logs ++ [c.audit.newRow cols]))) →
      (Commits (createDiscordConsoleSession v p c) ↔
        ∀ s ∈ c.sessions, s.discordUserId = d.discordUserId → s.live v.sampledAt = true →
          s.createdAt ≤ v.sampledAt) := by
  intro c
  have h : c.Sound := Console.sound_run t steps
  refine ⟨?_, ?_, ?_, ?_⟩
  · intro user now hnow
    exact Console.length_liveOf_le h.rows (Console.run_created hnow (by simp [Console.initial]))
  · intro s hs back v hash s' hresolved hid
    exact h.live_of_resolved hs back hresolved hid
  · intro a s hs hcaller hadmin owner howner hrole
    exact h.owner_kept hs hcaller hadmin howner hrole
  · intro v p d hd hfresh hfree
    rw [create_commits_iff h hd hfresh hfree]
    simp [SessionDraft.replaces]

end

/-! ## Two logins -/

theorem seconds_bounds {n : ℕ} (h : n ≤ 3) :
    0 ≤ (n : ℤ) * second ∧ (n : ℤ) * second ≤ 3 * second ∧ (n : ℤ) * second < lastDay := by
  have hlast : 3 * second < lastDay := by decide
  simp only [second] at hlast ⊢
  omega

/-- A call that reads the clock at `n` seconds and has its lock at the third. -/
def sampleInvocation (n : ℕ) (h : n ≤ 3) : Invocation where
  sampledAt := n * second
  clock := 3 * second
  sampled_le := (seconds_bounds h).2.1
  epoch_le := (seconds_bounds h).1
  lt_last := (seconds_bounds h).2.2
  newId := ⟨BitVec.ofNat 128 n⟩

/-- A login of one user, with a token of the digit `c`. -/
def sampleLogin (c : Char) : CreateParams where
  requestId := some ⟨9⟩
  sessionTokenHash := some (String.ofList (List.replicate 64 c))
  discordUserId := some "11111111111111111"
  discordUsername := some "user"
  discordGlobalName := none
  discordAvatarHash := none
  guildId := some "22222222222222222"
  matchedRoleIds := some (.ofList ["33333333333333333"])
  consoleRole := some "viewer"
  ttlSeconds := some 3600

open Sample in
theorem first_login_commits :
    (∀ user, (((Console.initial 0).run
      [.create (sampleInvocation 1 (by decide)) (sampleLogin 'a')]).liveOf user
        (3 * second)).length ≤ 1) ∧
      Commits (createDiscordConsoleSession (sampleInvocation 1 (by decide)) (sampleLogin 'a')
        ((Console.initial 0).run [])) := by
  constructor
  · intro user
    exact (one_live_session 0 _).1 user (3 * second) (by simp [Step.time, sampleInvocation])
  · obtain ⟨d, hd⟩ : ∃ d, (sampleLogin 'a').validate = .ok d := ⟨_, rfl⟩
    refine ((one_live_session 0 []).2.2.2 _ _ d hd ?_ ?_).2 ?_
    · simp [Console.run, Console.initial]
    · intro cols _
      simp [Audit.CollisionFree, Audit.hashedTexts, Console.run, Console.initial,
        Audit.Tables.initial]
    · simp [Console.run, Console.initial]

/-- A login that has read the clock at two seconds. -/
def afterLogin [Server] : Console :=
  (Console.initial 0).run [.create (sampleInvocation 2 (by decide)) (sampleLogin 'a')]

open Sample in
/-- Two logins of one user at the same time: the one that has read the clock first has its lock
after the other, and fails. -/
theorem early_login_fails :
    (∃ d, (sampleLogin 'b').validate = .ok d ∧ ∀ s ∈ afterLogin.sessions,
        s.sessionTokenHash ≠ d.sessionTokenHash ∧ s.id ≠ (sampleInvocation 1 (by decide)).newId) ∧
      (createDiscordConsoleSession (sampleInvocation 1 (by decide)) (sampleLogin 'b')
        afterLogin).map (fun _ => ()) =
          .error (.checkViolation "discord_console_sessions_revocation_check") := by
  have hrun : (∀ s ∈ afterLogin.sessions,
      some s.sessionTokenHash ≠ (sampleLogin 'b').sessionTokenHash ∧
        s.id ≠ (sampleInvocation 1 (by decide)).newId) ∧
      (createDiscordConsoleSession (sampleInvocation 1 (by decide)) (sampleLogin 'b')
        afterLogin).map (fun _ => ()) =
          .error (.checkViolation "discord_console_sessions_revocation_check") := by
    decide +kernel
  refine ⟨⟨_, rfl, ?_⟩, hrun.2⟩
  intro s hs
  exact ⟨fun h => (hrun.1 s hs).1 (congrArg some h), (hrun.1 s hs).2⟩

end IvrmDashboard.Discord
