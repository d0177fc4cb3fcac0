import IvrmDashboard.ConsoleLogs.Following

/-!
# The viewer misses no line

Reports of a host are committed in the order of their ids, so a cursor that has come past an id has
come past every smaller one of its host that will ever be there. From the lines that the page has
loaded up to the cursor, everything that still matches is on the screen, however reports, jobs and
polls interleave, except what has left the range at a poll and what 800 newer lines have pushed out
(`viewer_covers`). What is on the screen has been committed (`viewer_sound`), and a poll that does
not fill its page leaves nothing above the cursor (`refresh_complete`).
-/

namespace IvrmDashboard.ConsoleLogs

open Sql Tailing
open Notifications (MonitoredHost)

variable [FractionReading] [Server]

/-! ## Pages -/

section Pages

variable {w : LogStore} {history : List LogRow} {q : LogQuery}

/-- The id of a row, as a number. -/
def rowId (r : LogRow) : ℤ := r.id

/-- A cursor: nothing yet, or the id of a line of the host. -/
def Reached (history : List LogRow) (w : LogStore) (q : LogQuery) (n : ℤ) : Prop :=
  n = 0 ∨ ∃ a ∈ history, serverOf w a.hostId = some q.serverId ∧ rowId a = n

/-- Entries that show lines of the host. -/
def Authentic (history : List LogRow) (w : LogStore) (q : LogQuery)
    (entries : List ConsoleLogEntry) : Prop :=
  ∀ e ∈ entries, ∃ r ∈ history, serverOf w r.hostId = some q.serverId ∧ Shows e r

/-- Some entry shows the line. -/
def ShownIn (entries : List ConsoleLogEntry) (r : LogRow) : Prop := ∃ e ∈ entries, Shows e r

omit [Server] in
theorem Reached.nonneg {n : ℤ} (h : Reached history w q n) : 0 ≤ n := by
  rcases h with rfl | ⟨a, -, -, rfl⟩
  · exact le_rfl
  · exact Int.natCast_nonneg a.id

omit [Server] in
theorem Reached.max {m n : ℤ} (hm : Reached history w q m) (hn : Reached history w q n) :
    Reached history w q (max m n) := by
  rcases le_total m n with hle | hle
  · rwa [max_eq_right hle]
  · rwa [max_eq_left hle]

omit [Server] in
/-- The last of the entries is a cursor. -/
theorem Authentic.reached {entries : List ConsoleLogEntry} (h : Authentic history w q entries)
    {n : ℤ} (hn : Reached history w q n) :
    Reached history w q ((entries.getLast?.map (·.id)).getD n) := by
  cases hlast : entries.getLast? with
  | none => exact hn
  | some e =>
    obtain ⟨r, hr, hserver, hshows⟩ := h e (List.mem_of_getLast? hlast)
    exact .inr ⟨r, hr, hserver, hshows.id.symm⟩

/-- Rows that were read are shown by their entries. -/
theorem authentic_map {rows : List (MonitoredHost × LogRow)}
    (hlines : LogStore.LinesSound history w) (hrows : ∀ l ∈ rows, l ∈ matchingLines w q) :
    Authentic history w q (rows.map entryOf) := by
  intro e he
  obtain ⟨l, hl, rfl⟩ := List.mem_map.1 he
  obtain ⟨hentry, hserver, -⟩ := mem_followed.1 (followed_of_matching (hrows l hl))
  exact ⟨l.2, hlines.present.subset hentry, hserver, shows_entryOf l⟩

/-- **A read at a cursor returns lines of the host, and all that match up to the last of them.** -/
theorem read_covers (hlines : LogStore.LinesSound history w) (hhosted : Hosted history w)
    {after limit : ℤ} {entries : List ConsoleLogEntry}
    (h : getConsoleLogs w q (some after) limit = .ok entries) :
    Authentic history w q entries ∧
      Covers rowId (followed w q.trimmed) after ((entries.getLast?.map (·.id)).getD after)
        (ShownIn entries) := by
  obtain ⟨rows, hrows, rfl⟩ := getConsoleLogs_eq_ok h
  obtain ⟨_, -, hrows⟩ := bind_eq_ok.1 hrows
  obtain rfl := Except.ok.inj hrows
  have hmatching : ∀ l ∈ nextOf lineId limit.toNat (matchingLines w q.trimmed) after,
      l ∈ matchingLines w q.trimmed := fun l hl => (mem_nextOf hl).1
  refine ⟨authentic_map (q := q.trimmed) hlines hmatching, ?_⟩
  rw [List.getLast?_map, Option.map_map]
  cases hlast : (nextOf lineId limit.toNat (matchingLines w q.trimmed) after).getLast? with
  | none => exact Covers.empty _ _ _
  | some last =>
    intro r hr hlow hhigh
    have hl := matching_of_followed hhosted (hmatching last (List.mem_of_getLast? hlast)) hr
    have hnext := covers_nextOf (distinct_matchingLines hlines) hlast _ hl hlow hhigh
    exact ⟨_, List.mem_map_of_mem hnext, shows_entryOf (last.1, r)⟩

end Pages

/-! ## What the page has got -/

/-- A merge: the time of the poll, and what is shown after it. -/
structure Merge where
  polledAt : ℤ
  shown : List ConsoleLogEntry

/-- The merge that a step makes. -/
def Session.merged (s : Session) : SessionStep → List Merge
  | .deliver n =>
    match s.viewer.polls[n]? with
    | some ⟨_, some r⟩ => [⟨r.polledAt, (s.deliver n).viewer.entries⟩]
    | _ => []
  | _ => []

/-- The lines that a step commits. -/
def Session.stored (s : Session) : SessionStep → List LogRow
  | .store step => s.store.stored step
  | _ => []

/-- The lines that a run commits. -/
def Session.storedLines (s : Session) (steps : List SessionStep) : List LogRow :=
  Runs.trace Session.step Session.stored s steps

/-- The merges of a run. -/
def Session.merges (s : Session) (steps : List SessionStep) : List Merge :=
  Runs.trace Session.step Session.merged s steps

/-- The line is shown, or 800 newer ones were shown when it was left out; what has left the range
at a poll need not be there. -/
def Got (q : LogQuery) (merges : List Merge) (shown : List ConsoleLogEntry) (r : LogRow) : Prop :=
  (∀ m ∈ merges, q.inRange m.polledAt r.observedAt = true) →
    ShownIn shown r ∨
      ∃ m ∈ merges, m.shown.length = maxRenderedEntries ∧ ∀ e ∈ m.shown, rowId r < e.id

section Viewing

variable {w : LogStore} {history : List LogRow} {q : LogQuery}

/-- A poll was sent at a cursor, and its answer holds all that matches up to its last line. -/
structure PollSound (history : List LogRow) (w : LogStore) (q : LogQuery) (p : Poll) : Prop where
  after : Reached history w q p.after
  entries : ∀ r ∈ p.answer, Authentic history w q r.entries
  lastId : ∀ r ∈ p.answer, Reached history w q r.lastId
  covers : ∀ r ∈ p.answer,
    Covers rowId (followed w q.trimmed) p.after r.lastId (ShownIn r.entries)

/-- What holds of the page at any time. -/
structure Viewing (low : ℤ) (merges : List Merge) (history : List LogRow) (s : Session) :
    Prop where
  lines : LogStore.LinesSound history s.store
  hosted : Hosted history s.store
  start : 0 ≤ low
  lastId : Reached history s.store s.viewer.query s.viewer.lastId
  entries : Authentic history s.store s.viewer.query s.viewer.entries
  covers : Covers rowId (followed s.store s.viewer.query.trimmed) low s.viewer.lastId
    (Got s.viewer.query merges s.viewer.entries)
  polls : ∀ p ∈ s.viewer.polls, PollSound history s.store s.viewer.query p ∧
    p.after ≤ s.viewer.lastId

/-! ## A step of the store -/

omit [Server] in
theorem Reached.step {n : ℤ} (h : Reached history w q n) (s : StoreStep) :
    Reached (history ++ w.stored s) (w.step s) q n := by
  refine h.imp_right fun ⟨a, ha, hserver, hid⟩ => ?_
  exact ⟨a, List.mem_append_left _ ha, serverOf_step w s hserver, hid⟩

omit [Server] in
theorem Authentic.step {entries : List ConsoleLogEntry} (h : Authentic history w q entries)
    (s : StoreStep) : Authentic (history ++ w.stored s) (w.step s) q entries := by
  intro e he
  obtain ⟨r, hr, hserver, hshows⟩ := h e he
  exact ⟨r, List.mem_append_left _ hr, serverOf_step w s hserver, hshows⟩

/-- New lines are above every cursor. -/
theorem covers_step (hlines : LogStore.LinesSound history w) (hhosted : Hosted history w)
    {low high : ℤ} {got : LogRow → Prop} (hlow : 0 ≤ low) (hhigh : Reached history w q high)
    (h : Covers rowId (followed w q.trimmed) low high got) (s : StoreStep) :
    Covers rowId (followed (w.step s) q.trimmed) low high got := by
  refine h.change fun r hr hafter hle => ?_
  rcases followed_step hhosted hlines s hr with hold | habove
  · exact hold
  · rcases hhigh with rfl | ⟨a, ha, hserver, rfl⟩
    · exact absurd (hlow.trans_lt hafter) hle.not_gt
    · have hlt : rowId a < rowId r := Int.ofNat_lt.2 (habove a ha hserver)
      exact absurd hlt hle.not_gt

theorem PollSound.step (hlines : LogStore.LinesSound history w) (hhosted : Hosted history w)
    {p : Poll} (h : PollSound history w q p) (s : StoreStep) :
    PollSound (history ++ w.stored s) (w.step s) q p where
  after := h.after.step s
  entries r hr := (h.entries r hr).step s
  lastId r hr := (h.lastId r hr).step s
  covers r hr := covers_step hlines hhosted h.after.nonneg (h.lastId r hr) (h.covers r hr) s

variable {low : ℤ} {merges : List Merge} {s : Session}

theorem Viewing.store (h : Viewing low merges history s) (step : StoreStep) :
    Viewing low merges (history ++ s.store.stored step)
      { s with store := s.store.step step } where
  lines := Journal.sound_of_steps (LogStore.lines_step s.store step) h.lines
  hosted := h.hosted.step h.lines step
  start := h.start
  lastId := h.lastId.step step
  entries := h.entries.step step
  covers := covers_step h.lines h.hosted h.start h.lastId h.covers step
  polls p hp := ⟨(h.polls p hp).1.step h.lines h.hosted step, (h.polls p hp).2⟩

/-! ## A step of the page -/

/-- The polls change, the rest does not. -/
theorem Viewing.setPolls (h : Viewing low merges history s) {polls : List Poll}
    (hpolls : ∀ p ∈ polls, p ∈ s.viewer.polls ∨
      PollSound history s.store s.viewer.query p ∧ p.after ≤ s.viewer.lastId) :
    Viewing low merges history { s with viewer.polls := polls } where
  lines := h.lines
  hosted := h.hosted
  start := h.start
  lastId := h.lastId
  entries := h.entries
  covers := h.covers
  polls p hp := (hpolls p hp).elim (h.polls p) id

theorem Viewing.send (h : Viewing low merges history s) :
    Viewing low merges history (s.step .send) := by
  refine h.setPolls fun p hp => ?_
  refine (List.mem_append.1 hp).imp_right fun hp => ?_
  rw [List.mem_singleton.1 hp]
  exact ⟨⟨h.lastId, by simp, by simp, by simp⟩, le_rfl⟩

theorem Viewing.lose (h : Viewing low merges history s) (n : ℕ) :
    Viewing low merges history (s.step (.lose n)) :=
  h.setPolls fun _ hp => .inl (List.mem_of_mem_eraseIdx hp)

/-- The answer of a poll holds all that matches up to its last line. -/
theorem Viewing.read (h : Viewing low merges history s) (n : ℕ) (polledAt : ℤ) :
    Viewing low merges history (s.step (.read n polledAt)) := by
  show Viewing low merges history (s.read n polledAt)
  unfold Session.read
  split
  next after hpoll =>
    have hafter := h.polls _ (List.mem_of_getElem? hpoll)
    cases hentries : getConsoleLogs s.store s.viewer.query (some after) 200 with
    | error e => exact h.setPolls fun _ hp => .inl (List.mem_of_mem_eraseIdx hp)
    | ok entries =>
      obtain ⟨hauthentic, hcovers⟩ := read_covers h.lines h.hosted hentries
      refine h.setPolls fun p hp => ?_
      rcases List.mem_or_eq_of_mem_set hp with hp | rfl
      · exact .inl hp
      · refine .inr ⟨⟨hafter.1.after, ?_, ?_, ?_⟩, hafter.2⟩
        · simpa using hauthentic
        · simpa using hauthentic.reached hafter.1.after
        · simpa using hcovers
  next => exact h

/-! ## A merge -/

omit [Server] in
theorem Authentic.merge {current incoming shown : List ConsoleLogEntry} {polledAt : ℤ}
    (hcurrent : Authentic history w q current) (hincoming : Authentic history w q incoming)
    (h : IsMerge q current incoming polledAt shown) : Authentic history w q shown :=
  fun e he => (h.sound e he).1.elim (hcurrent e) (hincoming e)

omit [Server] in
/-- A line that was shown or has come is shown after the merge, or newer ones are. -/
theorem shownIn_merge (hlines : LogStore.LinesSound history w)
    {current incoming shown : List ConsoleLogEntry} {polledAt : ℤ}
    (hauthentic : Authentic history w q shown) (h : IsMerge q current incoming polledAt shown)
    {r : LogRow} (hr : r ∈ history) (hshown : ShownIn current r ∨ ShownIn incoming r)
    (hrange : q.inRange polledAt r.observedAt = true) :
    ShownIn shown r ∨ shown.length = maxRenderedEntries ∧ ∀ e ∈ shown, rowId r < e.id := by
  obtain ⟨e, he, hshows⟩ : ∃ e, (e ∈ current ∨ e ∈ incoming) ∧ Shows e r := by
    rcases hshown with ⟨e, he, hshows⟩ | ⟨e, he, hshows⟩
    · exact ⟨e, .inl he, hshows⟩
    · exact ⟨e, .inr he, hshows⟩
  rcases h.complete e he (hshows.observedAt ▸ hrange) with ⟨x, hx, hid⟩ | ⟨hfull, hbelow⟩
  · -- what is shown under the id of the line is the line
    obtain ⟨a, ha, -, hxa⟩ := hauthentic x hx
    have heq : (a.id : ℤ) = r.id := by rw [← hxa.id, hid, hshows.id]
    obtain rfl := hlines.unique a r (.inl ha) (.inl hr) (by exact_mod_cast heq)
    exact .inl ⟨x, hx, hxa⟩
  · have hid : rowId r = e.id := hshows.id.symm
    exact .inr ⟨hfull, hid ▸ hbelow⟩

/-- An answer that is delivered moves the cursor, and nothing is left out in between. -/
theorem Viewing.deliver (h : Viewing low merges history s) (n : ℕ) :
    Viewing low (merges ++ s.merged (.deliver n)) history (s.step (.deliver n)) := by
  show Viewing low (merges ++ s.merged (.deliver n)) history (s.deliver n)
  have hsame : s.deliver n = s → s.merged (.deliver n) = [] →
      Viewing low (merges ++ s.merged (.deliver n)) history (s.deliver n) := by
    intro hdeliver hmerged
    rw [hdeliver, hmerged, List.append_nil]
    exact h
  rcases hpoll : s.viewer.polls[n]? with _ | ⟨after, answer⟩
  · exact hsame (by rw [Session.deliver, hpoll]) (by rw [Session.merged, hpoll])
  cases answer with
  | none => exact hsame (by rw [Session.deliver, hpoll]) (by rw [Session.merged, hpoll])
  | some r =>
    obtain ⟨hsound, hle⟩ := h.polls _ (List.mem_of_getElem? hpoll)
    have hmerge := isMerge s.viewer.query s.viewer.entries r.entries r.polledAt
    have hmerged : s.merged (.deliver n) = [⟨r.polledAt, (s.deliver n).viewer.entries⟩] := by
      rw [Session.merged, hpoll]
    simp only [hmerged]
    simp only [Session.deliver, hpoll]
    generalize mergeEntries s.viewer.query s.viewer.entries r.entries r.polledAt = shown at hmerge ⊢
    have hauthentic := h.entries.merge (hsound.entries r rfl) hmerge
    have hmem : ∀ a ∈ followed s.store s.viewer.query.trimmed, a ∈ history :=
      fun a ha => h.lines.present.subset (mem_followed.1 ha).1
    -- what was shown or has come is shown now, or newer lines are
    have hshown : ∀ a ∈ history, ShownIn s.viewer.entries a ∨ ShownIn r.entries a →
        Got s.viewer.query (merges ++ [⟨r.polledAt, shown⟩]) shown a := by
      intro a ha hthere hrange
      have hlast : (⟨r.polledAt, shown⟩ : Merge) ∈ merges ++ [⟨r.polledAt, shown⟩] := by simp
      refine (shownIn_merge h.lines hauthentic hmerge ha hthere (hrange _ hlast)).imp_right ?_
      exact fun hnewer => ⟨⟨r.polledAt, shown⟩, hlast, hnewer⟩
    have hold : ∀ a ∈ followed s.store s.viewer.query.trimmed,
        Got s.viewer.query merges s.viewer.entries a →
        Got s.viewer.query (merges ++ [⟨r.polledAt, shown⟩]) shown a := by
      intro a ha hgot hrange
      rcases hgot fun m hm => hrange m (List.mem_append_left _ hm) with hhere | ⟨m, hm, hnewer⟩
      · exact hshown a (hmem a ha) (.inl hhere) hrange
      · exact .inr ⟨m, List.mem_append_left _ hm, hnewer⟩
    refine ⟨h.lines, h.hosted, h.start, ?_, hauthentic, ?_, fun p hp => ?_⟩
    · exact h.lastId.max (hsound.lastId r rfl)
    · exact (h.covers.imp hold).union ((hsound.covers r rfl).imp fun a ha hin =>
        hshown a (hmem a ha) (.inr hin)) hle
    · have hpoll := h.polls p (List.mem_of_mem_eraseIdx hp)
      exact ⟨hpoll.1, hpoll.2.trans (le_max_left _ _)⟩

/-- **A step keeps what holds of the page.** -/
theorem Viewing.step (h : Viewing low merges history s) (step : SessionStep) :
    Viewing low (merges ++ s.merged step) (history ++ s.stored step) (s.step step) := by
  cases step with
  | store step => exact (List.append_nil merges).symm ▸ h.store step
  | send => exact (List.append_nil merges).symm ▸ (List.append_nil history).symm ▸ h.send
  | read n polledAt =>
    exact (List.append_nil merges).symm ▸ (List.append_nil history).symm ▸ h.read n polledAt
  | deliver n => exact (List.append_nil history).symm ▸ h.deliver n
  | lose n => exact (List.append_nil merges).symm ▸ (List.append_nil history).symm ▸ h.lose n

end Viewing

/-! ## A page that is opened -/

/-- A page that was opened when the store had come some way. -/
structure Visit where
  now : ℤ
  before : List StoreStep
  query : LogQuery
  limit : ℤ
  session : Session
  opened : openViewer ((LogStore.empty now).run before) query limit = .ok session

-- a page may be opened before anything has been reported
example (now : ℤ) : Visit where
  now := now
  before := []
  query := ⟨"host-1", none, none, none, 60⟩
  limit := 200
  session := ⟨.empty now, ⟨"host-1", none, none, none, 60⟩, [], 0, []⟩
  opened := by
    have hserver : Backups.serverIdOk "host-1" = true := by decide
    simp [openViewer, getConsoleLogs, getConsoleLogsV2, queryAccepted, LogQuery.trimmed,
      LogQuery.text, matchingLines, LogStore.run, LogStore.empty, Runs.run, hserver, logWindows,
      orderBy, newest, Js.throwIf, raiseIf, bind, Except.bind, pure, Except.pure]

namespace Visit

variable (v : Visit)

/-- When the page holds fewer lines than were asked for, it holds all that match; otherwise the
lines that come before the first one are left out. -/
def low : ℤ :=
  if v.session.viewer.entries.length < v.limit then 0
  else (v.session.viewer.entries.head?.map (·.id - 1)).getD 0

/-- The store when the page was opened, and the lines that had been committed. -/
def store : LogStore := (LogStore.empty v.now).run v.before

def history : List LogRow := (LogStore.empty v.now).storedLines v.before

/-- What is loaded: a page of the lines that match. -/
structure Loaded (page : List (MonitoredHost × LogRow)) : Prop where
  isPage : Keyset.IsPage lineId v.limit.toNat (matchingLines v.store v.query.trimmed) none page
  bounded : page.length ≤ maxRenderedEntries
  positive : ∀ l ∈ page, 1 ≤ lineId l
  session : v.session = ⟨v.store, v.query, (orderBy (byKey lineId) page).map entryOf,
    (((orderBy (byKey lineId) page).map entryOf).getLast?.map (·.id)).getD 0, []⟩

theorem linesSound : LogStore.LinesSound v.history v.store :=
  LogStore.linesSound_run v.now v.before

theorem hosted : Hosted v.history v.store := hosted_run v.now v.before

theorem exists_loaded : ∃ page, v.Loaded page := by
  have hopened : openViewer v.store v.query v.limit = .ok v.session := v.opened
  obtain ⟨entries, hentries, hsession⟩ := Js.bind_eq_ok.1 hopened
  obtain ⟨_, hquery, hread⟩ := Js.bind_eq_ok.1 hentries
  have hlimit : v.limit ≤ 500 := by
    have haccepted : queryAccepted v.query.trimmed none v.limit = true := by simpa using hquery
    simp only [queryAccepted, Bool.and_eq_true, decide_eq_true_eq] at haccepted
    exact haccepted.2
  obtain ⟨rows, hrows, rfl⟩ := getConsoleLogs_eq_ok hentries
  rw [hrows] at hread
  obtain ⟨_, haccepted, -⟩ := Js.bind_eq_ok.1 hread
  obtain ⟨_, -, hrows⟩ := bind_eq_ok.1 hrows
  obtain rfl := Except.ok.inj hrows
  have hpage : Keyset.IsPage lineId v.limit.toNat (matchingLines v.store v.query.trimmed) none
      (Keyset.pageOf lineId v.limit.toNat (matchingLines v.store v.query.trimmed) none) :=
    Keyset.isPage_pageOf lineId (distinct_matchingLines v.linesSound)
  have hall : (matchingLines v.store v.query.trimmed).filter (fun l => Keyset.After none (lineId l))
      = matchingLines v.store v.query.trimmed := List.filter_eq_self.2 (by simp [Keyset.After])
  rw [Keyset.pageOf, hall] at hpage
  refine ⟨_, hpage, ?_, fun l hl => ?_, ?_⟩
  · rw [List.length_take, maxRenderedEntries]
    omega
  · have hmem : l ∈ orderBy (byKey lineId) ((orderBy (fun a b => decide (lineId b ≤ lineId a))
        (matchingLines v.store v.query.trimmed)).take v.limit.toNat) := (mem_orderBy _).2 hl
    rw [Js.throwIf_eq_ok, List.any_eq_false] at haccepted
    have hentry : (entryOf l).accepted = true := by simpa using haccepted l hmem
    simp only [ConsoleLogEntry.accepted, Bool.and_eq_true, decide_eq_true_eq] at hentry
    exact hentry.1.1.1.1.1.1.1.1
  · have hlength : ((orderBy (byKey lineId) ((orderBy (fun a b => decide (lineId b ≤ lineId a))
        (matchingLines v.store v.query.trimmed)).take v.limit.toNat)).map entryOf).length ≤
          maxRenderedEntries := by
      rw [List.length_map, length_orderBy, List.length_take, maxRenderedEntries]
      omega
    rw [newest_eq_self hlength] at hsession
    exact (Except.ok.inj hsession).symm

variable {v} {page : List (MonitoredHost × LogRow)}

theorem Loaded.authentic (h : v.Loaded page) :
    Authentic v.history v.store v.query ((orderBy (byKey lineId) page).map entryOf) :=
  authentic_map (q := v.query.trimmed) v.linesSound fun l hl =>
    (h.isPage.sound l ((mem_orderBy _).1 hl)).1

theorem Loaded.low_nonneg (h : v.Loaded page) : 0 ≤ v.low := by
  unfold low
  split_ifs
  · exact le_rfl
  · rw [h.session]
    cases hhead : ((orderBy (byKey lineId) page).map entryOf).head? with
    | none => simp
    | some e =>
      obtain ⟨l, hl, rfl⟩ := List.mem_map.1 (List.mem_of_head? hhead)
      have hpos : 1 ≤ (entryOf l).id := h.positive l ((mem_orderBy _).1 hl)
      simp only [Option.map_some, Option.getD_some]
      omega

/-- The page has got the lines between its first and its last. -/
theorem Loaded.covers (h : v.Loaded page) :
    Covers rowId (followed v.store v.query.trimmed) v.low v.session.viewer.lastId
      (ShownIn v.session.viewer.entries) := by
  intro r hr hlow hhigh
  have hmem : ∀ l ∈ page, entryOf l ∈ v.session.viewer.entries := by
    intro l hl
    rw [h.session]
    exact List.mem_map_of_mem ((mem_orderBy _).2 hl)
  by_cases hempty : page = []
  · subst hempty
    have hlast : v.session.viewer.lastId = 0 := by rw [h.session]; rfl
    exact absurd (h.low_nonneg.trans_lt hlow) (hlast ▸ hhigh).not_gt
  obtain ⟨l, hl⟩ := List.exists_mem_of_ne_nil page hempty
  have hmatching := matching_of_followed v.hosted (h.isPage.sound l hl).1 hr
  rcases h.isPage.complete _ hmatching (by simp [Keyset.After]) with hin | ⟨hfull, hbelow⟩
  · exact ⟨_, hmem _ hin, shows_entryOf (l.1, r)⟩
  · -- the page is full and the line comes before its first one
    obtain ⟨first, rest, hrows⟩ : ∃ first rest, orderBy (byKey lineId) page = first :: rest :=
      List.exists_cons_of_ne_nil ((orderBy_eq_nil _).not.2 hempty)
    have hlength : v.session.viewer.entries.length = page.length := by
      rw [h.session, List.length_map, length_orderBy]
    have hnot : ¬ (v.session.viewer.entries.length : ℤ) < v.limit := by omega
    have hlow' : v.low = lineId first - 1 := by
      rw [low, if_neg hnot, h.session, hrows]
      rfl
    have hfirst : first ∈ page := (mem_orderBy (byKey lineId)).1 (hrows ▸ List.mem_cons_self)
    have hlt : rowId r < lineId first := hbelow first hfirst
    omega

theorem Loaded.viewing (h : v.Loaded page) : Viewing v.low [] v.history v.session := by
  have hcovers := h.covers
  have hstart := h.low_nonneg
  rw [h.session] at hcovers ⊢
  exact ⟨v.linesSound, v.hosted, hstart, h.authentic.reached (.inl rfl), h.authentic,
    hcovers.imp fun r _ hr _ => .inl hr, by simp⟩

end Visit

/-! ## A run -/

section Run

variable (v : Visit) (steps : List SessionStep)

/-- The lines that have been committed up to now. -/
def Visit.committed : List LogRow := v.history ++ v.session.storedLines steps

theorem viewing_run :
    Viewing v.low (v.session.merges steps) (v.committed steps) (v.session.run steps) := by
  induction steps using List.reverseRecOn with
  | nil =>
    obtain ⟨page, h⟩ := v.exists_loaded
    rw [Visit.committed, show v.session.storedLines [] = [] from rfl, List.append_nil]
    exact h.viewing
  | append_singleton steps step ih =>
    have h := ih.step step
    rw [Visit.committed, List.append_assoc] at h
    rw [Visit.committed, Session.storedLines, Session.merges, Session.run, Runs.trace_concat,
      Runs.trace_concat, Runs.run_concat]
    exact h

theorem query_step (s : Session) (step : SessionStep) :
    (s.step step).viewer.query = s.viewer.query := by
  cases step with
  | store step => rfl
  | send => rfl
  | read n polledAt =>
    simp only [Session.step, Session.read]
    split
    · split <;> rfl
    · rfl
  | deliver n =>
    simp only [Session.step, Session.deliver]
    split <;> rfl
  | lose n => rfl

theorem ordered_step (s : Session) (step : SessionStep) (h : Ordered s.viewer.entries) :
    Ordered (s.step step).viewer.entries := by
  cases step with
  | store step => exact h
  | send => exact h
  | read n polledAt =>
    simp only [Session.step, Session.read]
    split
    · split <;> exact h
    · exact h
  | deliver n =>
    simp only [Session.step, Session.deliver]
    split
    next r _ =>
      have hmerge := isMerge s.viewer.query s.viewer.entries r.entries r.polledAt
      dsimp only
      exact hmerge.ordered
    next => exact h
  | lose n => exact h

theorem query_run : (v.session.run steps).viewer.query = v.query := by
  refine Runs.run_invariant (P := fun s : Session => s.viewer.query = v.query)
    (fun s step hs => (query_step s step).trans hs) ?_ steps
  obtain ⟨page, h⟩ := v.exists_loaded
  rw [h.session]

theorem ordered_run : Ordered (v.session.run steps).viewer.entries := by
  refine Runs.run_invariant (P := fun s : Session => Ordered s.viewer.entries) ordered_step ?_ steps
  obtain ⟨page, h⟩ := v.exists_loaded
  rw [Ordered, h.session]
  refine ⟨?_, by rw [List.length_map, length_orderBy]; exact h.bounded⟩
  have hids : page.Pairwise fun a b => lineId a ≠ lineId b := h.isPage.sorted.imp fun hab => hab.ne'
  have hne : (orderBy (byKey lineId) page).Pairwise fun a b => lineId a ≠ lineId b :=
    ((orderBy_perm (byKey lineId)).pairwise_iff Ne.symm).2 hids
  rw [List.pairwise_map]
  exact ((pairwise_byKey _ page).and hne).imp fun hab => lt_of_le_of_ne hab.1 hab.2

/-- **From what the page has loaded up to its cursor, every line that still matches is on the
screen**, unless it had left the range at a poll or 800 newer lines have pushed it out. -/
theorem viewer_covers :
    Covers rowId (followed (v.session.run steps).store v.query.trimmed) v.low
      (v.session.run steps).viewer.lastId
      (Got v.query (v.session.merges steps) (v.session.run steps).viewer.entries) := by
  rw [← query_run v steps]
  exact (viewing_run v steps).covers

/-- **What is on the screen are committed lines of the host, in the order of their ids**, every
line once and at most 800; the cursor never passes what the host has committed. -/
theorem viewer_sound :
    Ordered (v.session.run steps).viewer.entries ∧
      Authentic (v.committed steps) (v.session.run steps).store v.query
        (v.session.run steps).viewer.entries ∧
      Reached (v.committed steps) (v.session.run steps).store v.query
        (v.session.run steps).viewer.lastId := by
  have h := viewing_run v steps
  have hentries := h.entries
  have hlastId := h.lastId
  rw [query_run v steps] at hentries hlastId
  exact ⟨ordered_run v steps, hentries, hlastId⟩

end Run

/-! ## A poll without anything in between -/

/-- A poll that is sent, read and delivered at once, and does not fill its page. -/
structure Refresh (s : Session) where
  polledAt : ℤ
  entries : List ConsoleLogEntry
  answered : getConsoleLogs s.store s.viewer.query (some s.viewer.lastId) 200 = .ok entries
  short : entries.length < 200

namespace Refresh

variable {s : Session} (p : Refresh s)

/-- The steps of the poll. -/
def steps : List SessionStep :=
  [.send, .read s.viewer.polls.length p.polledAt, .deliver s.viewer.polls.length]

/-- What has changed after the poll. -/
theorem run_steps : s.run p.steps =
    { s with viewer :=
      { s.viewer with
        entries := mergeEntries s.viewer.query s.viewer.entries p.entries p.polledAt
        lastId := max s.viewer.lastId ((p.entries.getLast?.map (·.id)).getD s.viewer.lastId) } } := by
  simp [steps, Session.run, Runs.run, Session.step, Session.read, Session.deliver, p.answered,
    List.eraseIdx_append_of_length_le]

/-- No line that matches is above the cursor after the poll. -/
theorem le_lastId {history : List LogRow} (hlines : LogStore.LinesSound history s.store)
    {l : MonitoredHost × LogRow} (hl : l ∈ matchingLines s.store s.viewer.query.trimmed) :
    rowId l.2 ≤ (s.run p.steps).viewer.lastId := by
  obtain ⟨rows, hrows, hentries⟩ := getConsoleLogs_eq_ok p.answered
  obtain ⟨_, -, hrows⟩ := bind_eq_ok.1 hrows
  obtain rfl := Except.ok.inj hrows
  have hshort := p.short
  rw [hentries, List.length_map] at hshort
  have hle := le_of_short (distinct_matchingLines hlines) hshort hl
  rw [run_steps, hentries, List.getLast?_map, Option.map_map]
  exact hle.trans (le_max_right _ _)

end Refresh

/-- **After a poll that does not fill its page, every line that matches and comes after those that
the page was opened without has been got.** -/
theorem refresh_complete (v : Visit) (steps : List SessionStep)
    (p : Refresh (v.session.run steps)) :
    Complete rowId ((matchingLines (v.session.run steps).store v.query.trimmed).map Prod.snd) v.low
      (Got v.query (v.session.merges (steps ++ p.steps))
        (v.session.run (steps ++ p.steps)).viewer.entries) := by
  have hrun : v.session.run (steps ++ p.steps) = (v.session.run steps).run p.steps :=
    Runs.run_append _ _ _
  have hcovers := (viewing_run v (steps ++ p.steps)).covers
  have hlines := (viewing_run v steps).lines
  rw [query_run] at hcovers
  refine hcovers.complete ?_ ?_
  · intro r hr
    obtain ⟨l, hl, rfl⟩ := List.mem_map.1 hr
    rw [hrun, p.run_steps]
    exact followed_of_matching hl
  · intro r hr
    obtain ⟨l, hl, rfl⟩ := List.mem_map.1 hr
    rw [hrun]
    exact p.le_lastId hlines (by rwa [query_run v steps])

end IvrmDashboard.ConsoleLogs
