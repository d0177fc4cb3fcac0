import IvrmDashboard.Foundations.HashChain
import IvrmDashboard.Operations.Audit

/-!
# The audit log is a hash chain

`appendAuditLog` builds the rows that the check `Verifies` accepts: the audit tables of every
sequence of calls hold a linked chain, and the chain state names its last row
(`wellFormed_run`). In the other direction a chain commits to its rows. The hashed text is framed
as the previous hash, a bar, and a JSON object; the previous hash is empty or 64 hex digits, so the
framing is unambiguous (`hashedText_inj`), and the object determines every column
(`canonical_inj`), except that `to_char` prints no era: the timestamps are assumed to be of our
era. A database that accepts 2026 BC for 2026 AD accepts another log with the same last hash.
-/

namespace IvrmDashboard.Audit

open Sql HashChain

/-! ## The canonical text determines the columns -/

theorem ofOption_inj {α : Type} {f : α → Jsonb} (hf : ∀ a b, f a = f b → a = b)
    (hnull : ∀ a, f a ≠ .null) {o p : Option α} (h : Jsonb.ofOption f o = Jsonb.ofOption f p) :
    o = p := by
  cases o with
  | none =>
    cases p with
    | none => rfl
    | some b => exact absurd h.symm (hnull b)
  | some a =>
    cases p with
    | none => exact absurd h (hnull a)
    | some b => rw [hf a b h]

theorem ofOption_str_inj {o p : Option String}
    (h : Jsonb.ofOption .str o = Jsonb.ofOption .str p) : o = p :=
  ofOption_inj (fun _ _ => Jsonb.str.inj) (fun _ => nofun) h

/-- **The canonical text determines every hashed column**, for timestamps of our era. -/
theorem Columns.canonical_inj {c d : Columns} (hc : c.occurredAt.isAD = true)
    (hd : d.occurredAt.isAD = true) (h : c.canonical = d.canonical) : c = d := by
  have field (k : String) : c.fields.reverse.lookup k = d.fields.reverse.lookup k := by
    rw [← Jsonb.get?_buildObject, ← Jsonb.get?_buildObject]
    exact congrArg (Jsonb.get? · k) (Jsonb.text_inj h)
  have hrequest : c.requestId.text = d.requestId.text := by
    simpa [fields, List.lookup_cons] using field "requestId"
  have huser := by simpa [fields, List.lookup_cons] using field "actorUserId"
  have hemail := by simpa [fields, List.lookup_cons] using field "actorEmail"
  have hrole := by simpa [fields, List.lookup_cons] using field "actorRole"
  have hip := by simpa [fields, List.lookup_cons] using field "actorIp"
  have haction : c.action = d.action := by simpa [fields, List.lookup_cons] using field "action"
  have htargetType : c.targetType = d.targetType := by
    simpa [fields, List.lookup_cons] using field "targetType"
  have htargetId := by simpa [fields, List.lookup_cons] using field "targetId"
  have hresult : c.result = d.result := by simpa [fields, List.lookup_cons] using field "result"
  have hmetadata : c.metadata = d.metadata := by
    simpa [fields, List.lookup_cons] using field "metadata"
  have hat := by simpa [fields, List.lookup_cons] using field "occurredAt"
  have huser : c.actorUserId = d.actorUserId :=
    ofOption_inj (fun a b h => Uuid.text_inj (Jsonb.str.inj h)) (fun _ => Jsonb.noConfusion) huser
  have hip : c.actorIp = d.actorIp :=
    ofOption_inj (fun a b h => Inet.text_inj (Jsonb.str.inj h)) (fun _ => Jsonb.noConfusion) hip
  have hat : c.occurredAt = d.occurredAt :=
    toChar_inj (by decide) (by decide) hc hd (ofOption_str_inj hat)
  cases c
  cases d
  simp only [Columns.mk.injEq] at *
  exact ⟨Uuid.text_inj hrequest, huser, ofOption_str_inj hemail, ofOption_str_inj hrole, hip,
    haction, htargetType, ofOption_str_inj htargetId, hresult, hmetadata, hat⟩

/-! ## The framing -/

/-- What a row of a chain names as its predecessor: nothing, or a hash. -/
def IsPrevious (p : Option String) : Prop := ∀ h ∈ p, Text.matchesExactly Text.hexDigit 64 h = true

theorem isPrevious_none : IsPrevious none := by simp [IsPrevious]

theorem isPrevious_chainHash [Server] (p : Option String) (c : Columns) :
    IsPrevious (some (c.chainHash p)) := by
  intro h hh
  rw [← Option.some.inj hh]
  exact Text.matchesExactly_encodeHex _

theorem hexDigit_ne_bar {h : String} (hh : Text.matchesExactly Text.hexDigit 64 h = true)
    (s t : String) : h ++ "|" ++ s ≠ "|" ++ t := by
  intro heq
  simp only [Text.matchesExactly, Bool.and_eq_true, beq_iff_eq, List.all_eq_true] at hh
  obtain ⟨hlen, hhex⟩ := hh
  have heq := congrArg String.toList heq
  simp only [String.toList_append] at heq
  cases hl : h.toList with
  | nil =>
    rw [← String.length_toList, hl] at hlen
    simp at hlen
  | cons c l =>
    rw [hl] at heq hhex
    have hc : c = '|' := (List.cons_eq_cons.1 heq).1
    have := hhex c List.mem_cons_self
    rw [hc] at this
    exact absurd this (by decide)

/-- The bar ends the previous hash: the framing determines both parts. -/
theorem Columns.hashedText_inj {p q : Option String} {c d : Columns} (hp : IsPrevious p)
    (hq : IsPrevious q) (h : c.hashedText p = d.hashedText q) :
    p = q ∧ c.canonical = d.canonical := by
  cases p with
  | none =>
    cases q with
    | none =>
      refine ⟨rfl, ?_⟩
      have h := congrArg String.toList h
      simp only [hashedText, Option.getD_none, String.toList_append] at h
      exact String.toList_inj.1 (List.append_cancel_left h)
    | some y => exact absurd h.symm (hexDigit_ne_bar (hq y rfl) _ _)
  | some x =>
    cases q with
    | none => exact absurd h (hexDigit_ne_bar (hp x rfl) _ _)
    | some y =>
      have hlen {z : String} (hz : Text.matchesExactly Text.hexDigit 64 z = true) :
          z.toList.length = 64 := by
        simp only [Text.matchesExactly, Bool.and_eq_true, beq_iff_eq] at hz
        rw [String.length_toList, hz.1]
      have h := congrArg String.toList h
      simp only [hashedText, Option.getD_some, String.toList_append, List.append_assoc] at h
      obtain ⟨hxy, hrest⟩ := List.append_inj h (by rw [hlen (hp x rfl), hlen (hq y rfl)])
      exact ⟨by rw [String.toList_inj.1 hxy], String.toList_inj.1 (List.append_cancel_left hrest)⟩

/-! ## Verification of a log -/

variable [Server]

/-- The check of a reader: the first row has no previous hash, every later one names the hash of
the row before it, and every hash is recomputed from the row's own columns. -/
def Verifies (rows : List AuditLog) : Prop :=
  Linked AuditLog.previousHash AuditLog.entryHash (fun p r => r.toColumns.chainHash p) none rows

/-- The texts hashed in a log. -/
def hashedTexts (rows : List AuditLog) : List String :=
  rows.map fun r => r.toColumns.hashedText r.previousHash

/-- SHA-256 does not collide on these texts. -/
def CollisionFree (texts : List String) : Prop :=
  Set.InjOn (fun s : String => Server.sha256 s.toUTF8) {s | s ∈ texts}

theorem Verifies.isPrevious {rows : List AuditLog} (h : Verifies rows) :
    ∀ r ∈ rows, IsPrevious r.previousHash := by
  intro r hr
  rcases Linked.prev_mem h r hr with hp | ⟨s, hs, hp⟩
  · rw [hp]
    exact isPrevious_none
  · rw [hp, Linked.own_eq h s hs]
    exact isPrevious_chainHash s.previousHash s.toColumns

/-- Rows of verified logs commit to the hashed text, as far as the digest does not collide on
them. -/
theorem committing_canonical {rows : List AuditLog} (hprev : ∀ r ∈ rows, IsPrevious r.previousHash)
    (hfree : CollisionFree (hashedTexts rows)) :
    Committing AuditLog.previousHash (fun p r => r.toColumns.chainHash p)
      (fun r => r.toColumns.canonical) rows := by
  have hmem (r : AuditLog) (hr : r ∈ rows) :
      r.toColumns.hashedText r.previousHash ∈ hashedTexts rows :=
    List.mem_map.2 ⟨r, hr, rfl⟩
  intro r hr s hs h
  have htext : r.toColumns.hashedText r.previousHash = s.toColumns.hashedText s.previousHash :=
    hfree (hmem r hr) (hmem s hs) (Text.encodeHex_inj (by decide) h)
  exact Columns.hashedText_inj (hprev r hr) (hprev s hs) htext

/-- With timestamps of our era they commit to the columns. -/
theorem committing {rows : List AuditLog} {key : AuditLog → Columns} (hkey : key = (·.toColumns))
    (hprev : ∀ r ∈ rows, IsPrevious r.previousHash)
    (hAD : ∀ r ∈ rows, r.occurredAt.isAD = true) (hfree : CollisionFree (hashedTexts rows)) :
    Committing AuditLog.previousHash (fun p r => r.toColumns.chainHash p) key rows := by
  intro r hr s hs h
  obtain ⟨hp, hc⟩ := committing_canonical hprev hfree r hr s hs h
  rw [hkey]
  exact ⟨hp, Columns.canonical_inj (hAD r hr) (hAD s hs) hc⟩

/-- **The last hash commits to the log**: two logs that pass the check and end in the same hash
agree in every hashed column of every row. -/
theorem columns_eq_of_last_eq {rows rows' : List AuditLog} (h : Verifies rows)
    (h' : Verifies rows') (hAD : ∀ r ∈ rows ++ rows', r.occurredAt.isAD = true)
    (hfree : CollisionFree (hashedTexts (rows ++ rows')))
    (hlast : rows.getLast?.map (·.entryHash) = rows'.getLast?.map (·.entryHash)) :
    rows.map (·.toColumns) = rows'.map (·.toColumns) := by
  rw [← lastHash_none, ← lastHash_none] at hlast
  refine keys_eq_of_lastHash_eq h h' (committing rfl (fun r hr => ?_) hAD hfree) hlast
  rcases List.mem_append.1 hr with hr | hr
  · exact h.isPrevious r hr
  · exact h'.isPrevious r hr

/-! ## The tables of a run -/

/-- What happens to the audit tables: a call, or identity values lost to an aborted one. -/
inductive Call
  | append (isConsoleUser : Uuid → Bool) (occurredAt : ℤ) (e : Entry)
  | lostIds (n : ℕ)

/-- The tables after a call; an aborted one leaves them as they were. -/
def Call.apply (t : Tables) : Call → Tables
  | .append isConsoleUser occurredAt e =>
    match appendAuditLog isConsoleUser occurredAt e t with
    | .ok (_, t') => t'
    | .error _ => t
  | .lostIds n => { t with nextId := t.nextId + n }

/-- The tables after a sequence of calls. -/
def run (t : Tables) (calls : List Call) : Tables := calls.foldl Call.apply t

/-- What every call keeps: the log verifies, its rows are in identity order below the sequence,
and the chain state names its last row. -/
structure WellFormed (t : Tables) : Prop where
  verifies : Verifies t.logs
  ids : t.logs.Pairwise fun r s => r.id < s.id
  ids_lt : ∀ r ∈ t.logs, r.id < t.nextId
  lastHash : t.chainState.lastEntryHash = t.logs.getLast?.map (·.entryHash)
  lastId : t.chainState.lastLogId = t.logs.getLast?.map (·.id)

theorem wellFormed_initial (at₀ : ℤ) : WellFormed (Tables.initial at₀) where
  verifies := trivial
  ids := .nil
  ids_lt := by simp [Tables.initial]
  lastHash := rfl
  lastId := rfl

theorem WellFormed.push {t : Tables} (h : WellFormed t) (c : Columns) (occurredAt : ℤ) :
    WellFormed (t.push (t.newRow c) occurredAt) where
  verifies := by
    have hlast := h.lastHash
    rw [← lastHash_none] at hlast
    refine linked_append.2 ⟨h.verifies, hlast, ?_⟩
    rw [← hlast]
    rfl
  ids := by
    refine List.pairwise_append.2 ⟨h.ids, List.pairwise_singleton .., fun r hr s hs => ?_⟩
    rw [List.mem_singleton.1 hs]
    exact h.ids_lt r hr
  ids_lt := by
    intro r hr
    rcases List.mem_append.1 hr with hr | hr
    · exact Nat.lt_succ_of_lt (h.ids_lt r hr)
    · rw [List.mem_singleton.1 hr]
      exact Nat.lt_succ_self _
  lastHash := by simp [Tables.push]
  lastId := by simp [Tables.push]

/-- The next row names a well-formed hash. -/
theorem WellFormed.isPrevious {t : Tables} (h : WellFormed t) :
    IsPrevious t.chainState.lastEntryHash := by
  rw [h.lastHash]
  intro x hx
  obtain ⟨r, hr, rfl⟩ := Option.map_eq_some_iff.1 hx
  rw [Linked.own_eq h.verifies r (List.mem_of_getLast? hr)]
  exact isPrevious_chainHash r.previousHash r.toColumns _ rfl

/-- The hash of the next row is new, unless the digest collides. -/
theorem WellFormed.fresh {t : Tables} (h : WellFormed t) {c : Columns}
    (hfree : CollisionFree (hashedTexts (t.logs ++ [t.newRow c]))) :
    (t.newRow c).entryHash ∉ t.logs.map (·.entryHash) := by
  have hpush : Verifies (t.logs ++ [t.newRow c]) := (h.push c 0).verifies
  have hnodup := nodup_own hpush (committing_canonical hpush.isPrevious hfree)
  rw [List.map_append, List.map_singleton, ← List.concat_eq_append, List.nodup_concat] at hnodup
  exact hnodup.1

theorem WellFormed.appendAuditLog {t t' : Tables} (h : WellFormed t)
    {isConsoleUser : Uuid → Bool} {occurredAt : ℤ} {e : Entry} {id : ℕ}
    (hcall : appendAuditLog isConsoleUser occurredAt e t = .ok (id, t')) : WellFormed t' := by
  obtain ⟨c, -, -, rfl⟩ := appendAuditLog_eq_ok hcall
  exact h.push c occurredAt

theorem WellFormed.apply {t : Tables} (h : WellFormed t) (call : Call) :
    WellFormed (call.apply t) := by
  cases call with
  | append isConsoleUser occurredAt e =>
    simp only [Call.apply]
    split
    next hcall => exact h.appendAuditLog hcall
    next => exact h
  | lostIds n =>
    exact { h with ids_lt := fun r hr => Nat.lt_add_right n (h.ids_lt r hr) }

/-- Every sequence of calls keeps the tables well formed. -/
theorem WellFormed.run {t : Tables} (h : WellFormed t) (calls : List Call) :
    WellFormed (run t calls) := by
  induction calls generalizing t with
  | nil => exact h
  | cons call calls ih => exact ih (h.apply call)

/-! ## The main results -/

/-- **The audit log is a verifiable, tamper-evident hash chain.** After any sequence of calls the
rows, in identity order, pass the check and the chain state names the last one; and two logs
with timestamps of our era that pass the check and end in the same hash agree in every hashed
column, unless the digest collides on the texts hashed in them. -/
theorem audit_log_tamper_evident :
    (∀ (at₀ : ℤ) (calls : List Call),
      (run (.initial at₀) calls).logs.Pairwise (fun r s => r.id < s.id) ∧
      Verifies (run (.initial at₀) calls).logs ∧
      (run (.initial at₀) calls).chainState.lastLogId =
        (run (.initial at₀) calls).logs.getLast?.map (·.id) ∧
      (run (.initial at₀) calls).chainState.lastEntryHash =
        (run (.initial at₀) calls).logs.getLast?.map (·.entryHash)) ∧
    ∀ rows rows' : List AuditLog, Verifies rows → Verifies rows' →
      (∀ r ∈ rows ++ rows', r.occurredAt.isAD = true) →
      CollisionFree (hashedTexts (rows ++ rows')) →
      rows.getLast?.map (·.entryHash) = rows'.getLast?.map (·.entryHash) →
      rows.map (·.toColumns) = rows'.map (·.toColumns) := by
  constructor
  · intro at₀ calls
    have h := (wellFormed_initial at₀).run calls
    exact ⟨h.ids, h.verifies, h.lastId, h.lastHash⟩
  · intro rows rows' h h' hAD hfree hlast
    exact columns_eq_of_last_eq h h' hAD hfree hlast

omit [Server] in
/-- The columns of a status change made at `t`. -/
def sampleColumns (t : ℤ) : Columns where
  requestId := ⟨1⟩
  actorUserId := none
  actorEmail := none
  actorRole := none
  actorIp := none
  action := "OPERATION_STATUS_CHANGED"
  targetType := "operation_job"
  targetId := none
  result := "success"
  metadata := .obj []
  occurredAt := .ofInstant t

/-- A log of one row. -/
def soleRow (c : Columns) : AuditLog where
  toColumns := c
  id := 1
  previousHash := none
  entryHash := c.chainHash none

theorem verifies_soleRow (c : Columns) : Verifies [soleRow c] := ⟨rfl, rfl, trivial⟩

omit [Server] in
theorem canonical_sampleColumns_era :
    (sampleColumns (daysOfCivil ⟨2026, 1, 1⟩ * day)).canonical =
      (sampleColumns (daysOfCivil ⟨-2025, 1, 1⟩ * day)).canonical := by
  simp only [Columns.canonical, Columns.fields, sampleColumns]
  rw [show toChar occurredAtFormat (.ofInstant (daysOfCivil ⟨2026, 1, 1⟩ * day)) =
    toChar occurredAtFormat (.ofInstant (daysOfCivil ⟨-2025, 1, 1⟩ * day)) by decide]

omit [Server] in
/-- Without the restriction to one era the second half fails, whatever the digest: a row of
1 January 2026 and the same row moved to 1 January 2026 BC have the same hash. -/
theorem era_is_not_hashed : ¬ ∀ (_ : Server) (rows rows' : List AuditLog),
    Verifies rows → Verifies rows' → CollisionFree (hashedTexts (rows ++ rows')) →
      rows.getLast?.map (·.entryHash) = rows'.getLast?.map (·.entryHash) →
      rows.map (·.toColumns) = rows'.map (·.toColumns) := by
  intro h
  have hcanonical := canonical_sampleColumns_era
  have htext : (sampleColumns (daysOfCivil ⟨2026, 1, 1⟩ * day)).hashedText none =
      (sampleColumns (daysOfCivil ⟨-2025, 1, 1⟩ * day)).hashedText none := by
    rw [Columns.hashedText, Columns.hashedText, hcanonical]
  have := h sampleServer [@soleRow sampleServer (sampleColumns (daysOfCivil ⟨2026, 1, 1⟩ * day))]
    [@soleRow sampleServer (sampleColumns (daysOfCivil ⟨-2025, 1, 1⟩ * day))]
    (@verifies_soleRow sampleServer _) (@verifies_soleRow sampleServer _)
    (by intro s hs t ht _; simp_all [hashedTexts, soleRow])
    (by simp [soleRow, Columns.chainHash, htext])
  simp only [soleRow, sampleColumns, List.map_cons, List.map_nil, List.cons.injEq, and_true,
    Columns.mk.injEq, Timestamptz.ofInstant_inj, true_and] at this
  exact absurd this (by decide)

end IvrmDashboard.Audit
