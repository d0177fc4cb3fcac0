import IvrmDashboard.Discord.OAuthState

/-!
# What the state of a login promises

A state is accepted with its own cookie from 30 seconds before the second of issue to 600 seconds
after it, and then leads to the path the attempt has reported, unless that path starts with two
slashes: the sanitiser removes the dots of `/.//host` and so lets such a path through once, and
replaces it when the state is opened. Whatever is accepted carries the bytes of a state that was
issued; it is that state if it is the canonical text of its bytes, and another text of the same
bytes if not. The path that comes out of the second pass of the sanitiser stays on the console
(`oauth_state_sound`).
-/

namespace IvrmDashboard.Discord

open Js

section

variable [Node]

/-! ## The sanitiser -/

/-- The text of a URL of the console that is not one of the login pages. -/
structure OnSite (u : Url) : Prop where
  normal : u.Normal
  notLogin : u.pathname ≠ "/login".toList
  notAuth : startsWith "/api/auth/" u.pathname = false

/-- The sanitiser yields the root or the text of a URL it has read. -/
theorem sanitizeReturnPath_cases (value : String) : sanitizeReturnPath value = "/" ∨
    ∃ u, consoleUrl value = some u ∧ OnSite u ∧
      sanitizeReturnPath value = String.ofList (u.pathname ++ u.search) := by
  unfold sanitizeReturnPath
  split
  next => exact .inl rfl
  next =>
    split
    next => exact .inl rfl
    next u hu =>
      split
      next => exact .inl rfl
      next =>
        split
        next => exact .inl rfl
        next hlogin =>
          rw [Bool.or_eq_true, not_or, decide_eq_true_eq, Bool.not_eq_true] at hlogin
          exact .inr ⟨u, hu, ⟨Url.normal_of_parse hu, hlogin.1, hlogin.2⟩, rfl⟩

/-- The first segment is empty and another one follows. -/
def Doubled (u : Url) : Prop := ∃ s more, u.path = [] :: s :: more

section

variable {u : Url}

omit [Node] in
/-- So the text starts with two slashes. -/
theorem startsWith_slashes (hu : u.Normal) :
    startsWith "//" (u.pathname ++ u.search) = true ↔ Doubled u := by
  obtain ⟨s, more, hpath⟩ := List.exists_cons_of_ne_nil hu.path_ne
  have hplain := (hu.path s (hpath ▸ List.mem_cons_self)).plain
  have hsearch : ∀ l, u.search ≠ '/' :: l := by
    intro l hl
    unfold Url.search at hl
    split at hl <;> simp at hl
  simp only [Doubled, hpath, Url.pathname, startsWith, List.flatMap_cons]
  cases s with
  | nil =>
    cases more with
    | cons t more => simp
    | nil =>
      cases hq : u.search with
      | nil => simp
      | cons c l =>
        have hc : c ≠ '/' := fun h => hsearch l (h ▸ hq)
        simp [hc.symm]
  | cons c s =>
    have hc : c ≠ '/' := by
      rintro rfl
      exact absurd (hplain '/' List.mem_cons_self).2 (by decide)
    simp [hc.symm]

omit [Node] in
theorem startsWith_slash (hu : u.Normal) : startsWith "/" (u.pathname ++ u.search) = true := by
  obtain ⟨s, more, hpath⟩ := List.exists_cons_of_ne_nil hu.path_ne
  simp [Url.pathname, startsWith, hpath]

/-- The text of a URL of the console passes the sanitiser again, unless it starts with two
slashes. -/
theorem sanitizeReturnPath_text (hu : OnSite u)
    (hlength : Js.length (String.ofList (u.pathname ++ u.search)) ≤ 1024) (hone : ¬ Doubled u) :
    consoleUrl (String.ofList (u.pathname ++ u.search)) = some (u.onOrigin consoleOrigin) ∧
      sanitizeReturnPath (String.ofList (u.pathname ++ u.search)) =
        String.ofList (u.pathname ++ u.search) := by
  have hparse : consoleUrl (String.ofList (u.pathname ++ u.search)) =
      some (u.onOrigin consoleOrigin) :=
    Url.parse_normal Node.origin? consoleOrigin hu.normal fun s more h => hone ⟨s, more, h⟩
  have hslash := startsWith_slash hu.normal
  have hslashes := Bool.eq_false_iff.2 fun h => hone ((startsWith_slashes hu.normal).1 h)
  have hne : String.ofList (u.pathname ++ u.search) ≠ "" := by
    intro h
    rw [← String.toList_inj, String.toList_ofList] at h
    rw [h] at hslash
    cases hslash
  refine ⟨hparse, ?_⟩
  have hkeep : ¬ (decide (u.pathname = "/login".toList) ||
      startsWith "/api/auth/" u.pathname) = true := by
    rw [Bool.or_eq_true, not_or, decide_eq_true_eq, Bool.not_eq_true]
    exact ⟨hu.notLogin, hu.notAuth⟩
  have horigin : (u.onOrigin consoleOrigin).origin = consoleOrigin := rfl
  rw [sanitizeReturnPath, hparse]
  simp only [horigin, Url.pathname_onOrigin, Url.search_onOrigin, ne_eq, not_true, if_false]
  generalize u.pathname ++ u.search = text at *
  rw [if_neg (by simp [hne, hslash, hslashes, Nat.not_lt.2 hlength])]
  exact if_neg hkeep

end

theorem sanitizeReturnPath_slashes {value : String} (h : startsWith "//" value.toList = true) :
    sanitizeReturnPath value = "/" := by
  rw [sanitizeReturnPath, if_pos (by simp [h])]

/-! ## The path of an attempt -/

/-- The path is one of the console whose first segment is empty and not the last, like `/.//host`,
and the sanitiser keeps it. -/
def DoubledPath (path : String) : Prop :=
  startsWith "/" path.toList = true ∧ startsWith "//" path.toList = false ∧
    Js.length path ≤ 1024 ∧ ∃ u, consoleUrl path = some u ∧ u.origin = consoleOrigin ∧ Doubled u ∧
      (utf8 (String.ofList (u.pathname ++ u.search))).length ≤ returnPathMaxBytes

omit [Node] in
theorem length_utf8 (s : String) : (utf8 s).length = s.utf8ByteSize := by
  rw [utf8, Array.length_toList]
  rfl

omit [Node] in
theorem length_le_length_utf8 (s : String) : Js.length s ≤ (utf8 s).length := by
  have key (l : List Char) : (l.map Js.utf16Units).sum ≤ (String.ofList l).utf8ByteSize := by
    induction l with
    | nil => simp
    | cons c l ih =>
      have hc : Js.utf16Units c ≤ c.utf8Size := by
        have hval : c.toNat = c.val.toNat := rfl
        simp only [Js.utf16Units, Char.utf8Size, UInt32.le_iff_toNat_le]
        split_ifs <;> simp_all
        omega
      rw [String.ofList_cons, String.utf8ByteSize_append, String.utf8ByteSize_singleton,
        List.map_cons, List.sum_cons]
      omega
  have hkey := key s.toList
  rw [String.ofList_toList] at hkey
  rw [length_utf8]
  exact hkey

theorem ofUtf8_utf8 (s : String) : ofUtf8 (utf8 s) = s := by
  have hvalid : String.fromUTF8? s.toByteArray = some s := by
    rw [String.fromUTF8?, dif_pos s.isValidUTF8]
    rfl
  rw [ofUtf8, utf8, Array.toArray_toList]
  change (String.fromUTF8? s.toByteArray).getD _ = s
  rw [hvalid, Option.getD_some]

/-- What is left of a path: the root, or the text of a URL of the console that is short enough. -/
theorem safeReturnPath_cases (path : String) : safeReturnPath path = "/" ∨
    ∃ u, consoleUrl path = some u ∧ OnSite u ∧
      safeReturnPath path = String.ofList (u.pathname ++ u.search) ∧
      (utf8 (String.ofList (u.pathname ++ u.search))).length ≤ returnPathMaxBytes := by
  simp only [safeReturnPath]
  split
  next hle =>
    rcases sanitizeReturnPath_cases path with h | ⟨u, hu, hsite, htext⟩
    · exact .inl h
    · rw [htext] at hle ⊢
      exact .inr ⟨u, hu, hsite, rfl, hle⟩
  next => exact .inl rfl

omit [Node] in
theorem startsWith_root : startsWith "//" ("/" : String).toList = false := by decide

/-- The path that is reported starts with two slashes for the paths of that kind and no others. -/
theorem startsWith_safeReturnPath (path : String) :
    startsWith "//" (safeReturnPath path).toList = true ↔ DoubledPath path := by
  constructor
  · intro h
    have hne : safeReturnPath path ≠ "/" := by
      intro hroot
      rw [hroot, startsWith_root] at h
      cases h
    obtain ⟨u, hu, hsite, htext, hle⟩ := (safeReturnPath_cases path).resolve_left hne
    rw [htext, String.toList_ofList] at h
    -- the tests at the start of the sanitiser have let the path through
    have hsanitize : sanitizeReturnPath path ≠ "/" := by
      intro hroot
      apply hne
      simp only [safeReturnPath, hroot, ite_self]
    rw [sanitizeReturnPath, Ne, ite_eq_left_iff, Classical.not_imp] at hsanitize
    obtain ⟨htests, horigin⟩ := hsanitize
    simp only [Bool.or_eq_true, decide_eq_true_eq, Bool.not_eq_true', not_or, Nat.not_lt,
      Bool.not_eq_false, Bool.not_eq_true] at htests
    rw [hu] at horigin
    refine ⟨htests.1.2, htests.2, htests.1.1.2, u, hu, ?_, (startsWith_slashes hsite.normal).1 h,
      hle⟩
    by_contra hother
    exact horigin (if_pos hother)
  · rintro ⟨hslash, hslashes, hlength, u, hu, horigin, hdoubled, hle⟩
    have hnormal := Url.normal_of_parse hu
    have hpass : sanitizeReturnPath path = String.ofList (u.pathname ++ u.search) := by
      have hne : path ≠ "" := by
        rintro rfl
        cases hslash
      obtain ⟨s, more, hpath⟩ := hdoubled
      rw [sanitizeReturnPath, if_neg (by simp [hne, hslash, hslashes, Nat.not_lt.2 hlength]), hu]
      simp only [horigin, ne_eq, not_true, if_false]
      exact if_neg (by simp [Url.pathname, hpath, startsWith])
    rw [safeReturnPath, hpass, if_pos hle, String.toList_ofList]
    exact (startsWith_slashes hnormal).2 hdoubled

/-- The root is read as itself. -/
theorem consoleUrl_root : consoleUrl "/" = some ⟨consoleOrigin, [[]], none⟩ := rfl

/-- **The second pass**: a path that has been sanitised once becomes the root if it starts with two
slashes, and stays as it is otherwise. In both cases it is a path of the console and none of the
login pages. -/
theorem safeReturnPath_again (path : String) :
    safeReturnPath (safeReturnPath path) =
      (if startsWith "//" (safeReturnPath path).toList then "/" else safeReturnPath path) ∧
    ∃ u, consoleUrl (safeReturnPath (safeReturnPath path)) = some u ∧ u.origin = consoleOrigin ∧
      OnSite u := by
  have hroot : safeReturnPath "/" = "/" := rfl
  have hsite : OnSite ⟨consoleOrigin, [[]], none⟩ :=
    ⟨Url.normal_of_parse consoleUrl_root, by decide, by decide⟩
  rcases safeReturnPath_cases path with h | ⟨u, hu, hu', htext, hle⟩
  · rw [h, hroot, startsWith_root]
    exact ⟨rfl, _, consoleUrl_root, rfl, hsite⟩
  · by_cases hdoubled : Doubled u
    · have hslashes := (startsWith_slashes hu'.normal).2 hdoubled
      have hagain : safeReturnPath (safeReturnPath path) = "/" := by
        rw [htext, safeReturnPath, sanitizeReturnPath_slashes (by rwa [String.toList_ofList])]
        rfl
      rw [hagain, htext, String.toList_ofList, hslashes]
      exact ⟨rfl, _, consoleUrl_root, rfl, hsite⟩
    · have hslashes := Bool.eq_false_iff.2 (mt (startsWith_slashes hu'.normal).1 hdoubled)
      have hlength := (length_le_length_utf8 (String.ofList (u.pathname ++ u.search))).trans hle
      obtain ⟨hread, hkept⟩ :=
        sanitizeReturnPath_text hu' (hlength.trans (by decide)) hdoubled
      have hagain : safeReturnPath (safeReturnPath path) = safeReturnPath path := by
        rw [htext, safeReturnPath, hkept, if_pos hle]
      rw [hagain, htext, String.toList_ofList, hslashes]
      refine ⟨rfl, _, hread, rfl, ?_⟩
      exact ⟨Url.normal_of_parse hread, hu'.notLogin, hu'.notAuth⟩

/-! ## The frame -/

theorem length_safeReturnPath (path : String) : 1 ≤ (utf8 (safeReturnPath path)).length ∧
    (utf8 (safeReturnPath path)).length ≤ returnPathMaxBytes := by
  rcases safeReturnPath_cases path with h | ⟨u, -, hu, htext, hle⟩
  · rw [h]
    decide
  · rw [htext]
    refine ⟨?_, hle⟩
    have hlength := length_le_length_utf8 (String.ofList (u.pathname ++ u.search))
    have hpos := (Js.length_bounds (String.ofList (u.pathname ++ u.search))).1
    obtain ⟨s, more, hpath⟩ := List.exists_cons_of_ne_nil hu.normal.path_ne
    simp only [String.length_ofList, Url.pathname, hpath, List.flatMap_cons, List.length_append,
      List.length_cons] at hpos hlength ⊢
    omega

omit [Node] in
theorem length_payloadOf (issued : ℕ) (nonce : Nonce) (returnTo : String) :
    (payloadOf issued nonce returnTo).length = headerBytes + (utf8 returnTo).length := by
  have hnonce := nonce.property
  simp only [payloadOf, List.length_append, length_writeBE, headerBytes]
  omega

omit [Node] in
/-- A frame that was written is read: in its window it yields its path. -/
theorem openPayload_payloadOf {issued : ℕ} (nonce : Nonce) {returnTo : String} (now : ℤ)
    (hissued : issued < 2 ^ 32) (hpos : 1 ≤ (utf8 returnTo).length)
    (hmax : (utf8 returnTo).length ≤ returnPathMaxBytes) :
    openPayload (payloadOf issued nonce returnTo) now =
      if inWindow issued (now / 1000) then some (utf8 returnTo) else none := by
  have hmax' : (utf8 returnTo).length < 256 ^ 2 := hmax.trans_lt (by decide)
  obtain ⟨nonce, hnonce⟩ := nonce
  have hpayload : payloadOf issued ⟨nonce, hnonce⟩ returnTo = writeBE 1 1 ++ (writeBE 4 issued ++
      (nonce ++ (writeBE 2 (utf8 returnTo).length ++ utf8 returnTo))) := by
    simp [payloadOf]
  have hlength := length_payloadOf issued ⟨nonce, hnonce⟩ returnTo
  rw [hpayload] at hlength ⊢
  generalize htail : utf8 returnTo = tail at *
  have hversion : readBE ((writeBE 1 1 ++ (writeBE 4 issued ++
      (nonce ++ (writeBE 2 tail.length ++ tail)))).take 1) = 1 := by
    rw [List.take_left' (length_writeBE 1 1)]
    rfl
  have hissuedAt : readBE (((writeBE 1 1 ++ (writeBE 4 issued ++
      (nonce ++ (writeBE 2 tail.length ++ tail)))).drop 1).take 4) = issued := by
    rw [List.drop_left' (length_writeBE 1 1), List.take_left' (length_writeBE 4 issued),
      readBE_writeBE (hissued.trans_eq (by decide))]
  have hrest : (writeBE 1 1 ++ (writeBE 4 issued ++
      (nonce ++ (writeBE 2 tail.length ++ tail)))).drop 29 = writeBE 2 tail.length ++ tail := by
    rw [← List.append_assoc, ← List.append_assoc]
    apply List.drop_left'
    simp [hnonce]
  have hreturnLength : readBE (((writeBE 1 1 ++ (writeBE 4 issued ++
      (nonce ++ (writeBE 2 tail.length ++ tail)))).drop 29).take 2) = tail.length := by
    rw [hrest, List.take_left' (length_writeBE 2 _), readBE_writeBE hmax']
  have htail : (writeBE 1 1 ++ (writeBE 4 issued ++
      (nonce ++ (writeBE 2 tail.length ++ tail)))).drop headerBytes = tail := by
    rw [show headerBytes = 29 + 2 from rfl, ← List.drop_drop, hrest]
    exact List.drop_left' (length_writeBE 2 _)
  simp only [openPayload, hversion, hissuedAt, hreturnLength, htail, hlength, hpos, hmax]
  cases inWindow issued (now / 1000) <;> rfl

/-! ## Attempts -/

/-- What an attempt was made of. -/
structure Issue where
  returnPath : String
  issuedAtMilliseconds : ℤ
  nonce : Nonce

/-- The attempt that was made. -/
def Issue.attempt (i : Issue) (clientSecret : String) : Except String Attempt :=
  createDiscordOAuthAttempt i.returnPath clientSecret i.issuedAtMilliseconds i.nonce

/-- The signed bytes of the attempt. -/
def Issue.payload (i : Issue) : List UInt8 :=
  payloadOf (i.issuedAtMilliseconds / 1000).toNat i.nonce (safeReturnPath i.returnPath)

/-- The bytes of the state. -/
def Issue.frame (i : Issue) (clientSecret : String) : List UInt8 :=
  i.payload ++ (signPayload i.payload clientSecret).val

section

variable {i : Issue} {clientSecret : String} {a : Attempt}

/-- An attempt that is made: its inputs are in range, and its parts are these. -/
theorem attempt_eq_ok (h : i.attempt clientSecret = .ok a) :
    clientSecret ≠ "" ∧ 0 ≤ i.issuedAtMilliseconds / 1000 ∧
      i.issuedAtMilliseconds / 1000 < 2 ^ 32 ∧ a.returnTo = safeReturnPath i.returnPath ∧
      a.state = encode (i.frame clientSecret) ∧
      a.cookieName = oauthCookieNameFromFingerprint (fingerprintState a.state) ∧
      a.cookieValue = encode (fingerprintState a.state).val := by
  simp only [Issue.attempt, createDiscordOAuthAttempt, bind_eq_ok, throwIf_eq_ok, pure_eq_ok,
    decide_eq_false_iff_not] at h
  obtain ⟨_, hsecret, _, hpos, _, hmax, rfl⟩ := h
  exact ⟨hsecret, by omega, by omega, rfl, rfl, rfl, rfl⟩

theorem length_frame (i : Issue) (clientSecret : String) :
    headerBytes + 1 + 32 ≤ (i.frame clientSecret).length ∧
      (i.frame clientSecret).length ≤ headerBytes + returnPathMaxBytes + 32 := by
  have hlength := length_safeReturnPath i.returnPath
  have hsignature := (signPayload i.payload clientSecret).property
  rw [Issue.frame, List.length_append, hsignature, Issue.payload, length_payloadOf]
  omega

/-- The state of an attempt has the form of a token. -/
theorem stateTokenOk_encode (i : Issue) (clientSecret : String) :
    stateTokenOk (encode (i.frame clientSecret)) = true := by
  have hlength := length_frame i clientSecret
  simp only [headerBytes, returnPathMaxBytes] at hlength
  simp only [stateTokenOk, length_encode, Bool.and_eq_true, decide_eq_true_eq, List.all_eq_true]
  exact ⟨by omega, base64UrlChar_of_mem_encode _⟩

omit [Node] in
theorem cookieFingerprintOk_encode (d : Digest) : cookieFingerprintOk (encode d.val) = true := by
  simp only [cookieFingerprintOk, length_encode, d.property, Bool.and_eq_true, decide_eq_true_eq,
    List.all_eq_true]
  exact ⟨trivial, base64UrlChar_of_mem_encode _⟩

theorem take_frame (i : Issue) (clientSecret : String) :
    (i.frame clientSecret).take ((i.frame clientSecret).length - 32) = i.payload ∧
      (i.frame clientSecret).drop ((i.frame clientSecret).length - 32) =
        (signPayload i.payload clientSecret).val := by
  have hsignature := (signPayload i.payload clientSecret).property
  have hlength : (i.frame clientSecret).length - 32 = i.payload.length := by
    rw [Issue.frame, List.length_append, hsignature, Nat.add_sub_cancel]
  rw [hlength]
  exact ⟨List.take_left' rfl, List.drop_left' rfl⟩

end

omit [Node] in
theorem guard_eq_some {p : Prop} [Decidable p] {u : Unit} :
    (guard p : Option Unit) = some u ↔ p := by
  show (if p then pure () else failure : Option Unit) = some u ↔ p
  split <;> simp_all

/-- What a verification that succeeds has found. -/
theorem verify_eq_some {s cookie : List Char} {clientSecret returnTo : String} {now : ℤ} :
    verifyDiscordOAuthAttempt (some s) (some cookie) clientSecret now = some returnTo ↔
      stateTokenOk s = true ∧ cookie = encode (fingerprintState s).val ∧ clientSecret ≠ "" ∧
      (headerBytes + 1 + 32 ≤ (decode s).length ∧
        (decode s).length ≤ headerBytes + returnPathMaxBytes + 32) ∧
      (decode s).drop ((decode s).length - 32) =
        (signPayload ((decode s).take ((decode s).length - 32)) clientSecret).val ∧
      ∃ bytes, openPayload ((decode s).take ((decode s).length - 32)) now = some bytes ∧
        safeReturnPath (ofUtf8 bytes) = returnTo := by
  simp only [verifyDiscordOAuthAttempt, Option.bind_eq_bind, Option.bind_eq_some_iff,
    Option.filter_eq_some_iff, Option.some.injEq, guard_eq_some, Option.pure_def]
  constructor
  · rintro ⟨_, ⟨rfl, hs⟩, _, ⟨rfl, -⟩, _, hsecret, _, hlength, _, hsignature, bytes, hopen, _,
      hcookie, hreturn⟩
    exact ⟨hs, hcookie.symm, hsecret, hlength, hsignature, bytes, hopen, hreturn⟩
  · rintro ⟨hs, rfl, hsecret, hlength, hsignature, bytes, hopen, hreturn⟩
    exact ⟨s, ⟨rfl, hs⟩, _, ⟨rfl, cookieFingerprintOk_encode _⟩, (), hsecret, (), hlength, (),
      hsignature, bytes, hopen, (), rfl, hreturn⟩

/-- The second of now lies between 30 seconds before the second of issue and 600 after it. -/
def Issue.Fresh (i : Issue) (now : ℤ) : Prop :=
  i.issuedAtMilliseconds / 1000 - 30 ≤ now / 1000 ∧
    now / 1000 ≤ i.issuedAtMilliseconds / 1000 + 600

/-- The payload of an attempt that was made, opened. -/
theorem openPayload_eq_some {i : Issue} {clientSecret : String} {a : Attempt}
    (h : i.attempt clientSecret = .ok a) {now : ℤ} {bytes : List UInt8} :
    openPayload i.payload now = some bytes ↔
      i.Fresh now ∧ bytes = utf8 (safeReturnPath i.returnPath) := by
  obtain ⟨-, hpos, hmax, -⟩ := attempt_eq_ok h
  have hlength := length_safeReturnPath i.returnPath
  have hissued : ((i.issuedAtMilliseconds / 1000).toNat : ℤ) = i.issuedAtMilliseconds / 1000 :=
    Int.toNat_of_nonneg hpos
  have hwindow : inWindow (i.issuedAtMilliseconds / 1000) (now / 1000) = true ↔ i.Fresh now := by
    simp only [inWindow, Issue.Fresh, Bool.not_eq_true', Bool.or_eq_false_iff,
      decide_eq_false_iff_not, Int.not_lt]
    omega
  rw [Issue.payload, openPayload_payloadOf i.nonce now (by omega) hlength.1 hlength.2, hissued,
    ← hwindow]
  split
  next hw => simp [hw, eq_comm]
  next hw => simp [hw]

/-- No signature in the state is one that the console has not made. -/
def Unforged (clientSecret : String) (issued : List Issue) (s : List Char) : Prop :=
  (decode s).drop ((decode s).length - 32) =
      (signPayload ((decode s).take ((decode s).length - 32)) clientSecret).val →
    ∃ i ∈ issued, (∃ a, i.attempt clientSecret = .ok a) ∧
      (decode s).take ((decode s).length - 32) = i.payload

/-- The bytes of the state are those of an attempt that was made. -/
def CarriesIssued (clientSecret : String) (issued : List Issue) (s : List Char) (i : Issue) : Prop :=
  i ∈ issued ∧ (∃ a, i.attempt clientSecret = .ok a) ∧ decode s = i.frame clientSecret

/-- **What is accepted**: a token whose bytes were issued, with its own fingerprint, in time. -/
theorem verify_issued {clientSecret : String} {issued : List Issue} {s : List Char}
    (hideal : Unforged clientSecret issued s) {cookie : List Char} {now : ℤ} {returnTo : String} :
    verifyDiscordOAuthAttempt (some s) (some cookie) clientSecret now = some returnTo ↔
      stateTokenOk s = true ∧ cookie = encode (fingerprintState s).val ∧
        ∃ i, CarriesIssued clientSecret issued s i ∧ i.Fresh now ∧
          returnTo = safeReturnPath (safeReturnPath i.returnPath) := by
  rw [verify_eq_some]
  constructor
  · rintro ⟨hs, hcookie, hsecret, hlength, hsignature, bytes, hopen, rfl⟩
    obtain ⟨i, hi, ⟨a, ha⟩, hpayload⟩ := hideal hsignature
    rw [hpayload] at hopen hsignature
    obtain ⟨hfresh, rfl⟩ := (openPayload_eq_some ha).1 hopen
    refine ⟨hs, hcookie, i, ⟨hi, ⟨a, ha⟩, ?_⟩, hfresh, by rw [ofUtf8_utf8]⟩
    rw [← List.take_append_drop ((decode s).length - 32) (decode s), hpayload, hsignature,
      Issue.frame]
  · rintro ⟨hs, hcookie, i, ⟨-, ⟨a, ha⟩, hframe⟩, hfresh, rfl⟩
    obtain ⟨htake, hdrop⟩ := take_frame i clientSecret
    obtain ⟨hsecret, -⟩ := attempt_eq_ok ha
    rw [hframe, htake, hdrop]
    refine ⟨hs, hcookie, hsecret, length_frame i clientSecret, rfl, _,
      (openPayload_eq_some ha).2 ⟨hfresh, rfl⟩, by rw [ofUtf8_utf8]⟩

/-- The state of an attempt carries what was signed for it. -/
theorem unforged_own {i : Issue} {clientSecret : String} {a : Attempt}
    (h : i.attempt clientSecret = .ok a) :
    Unforged clientSecret [i] a.state ∧ CarriesIssued clientSecret [i] a.state i := by
  obtain ⟨-, -, -, -, hstate, -⟩ := attempt_eq_ok h
  have hdecode : decode a.state = i.frame clientSecret := by rw [hstate, decode_encode]
  refine ⟨fun _ => ?_, List.mem_singleton.2 rfl, ⟨a, h⟩, hdecode⟩
  refine ⟨i, List.mem_singleton.2 rfl, ⟨a, h⟩, ?_⟩
  rw [hdecode]
  exact (take_frame i clientSecret).1

/-- An attempt is verified with its own cookie. -/
theorem verify_own {i : Issue} {clientSecret : String} {a : Attempt}
    (h : i.attempt clientSecret = .ok a) {now : ℤ} {returnTo : String} :
    verifyDiscordOAuthAttempt (some a.state) (some a.cookieValue) clientSecret now =
        some returnTo ↔
      i.Fresh now ∧ returnTo = safeReturnPath (safeReturnPath i.returnPath) := by
  obtain ⟨hideal, hcarries⟩ := unforged_own h
  obtain ⟨-, -, -, -, hstate, -, hcookie⟩ := attempt_eq_ok h
  rw [verify_issued hideal]
  constructor
  · rintro ⟨-, -, j, ⟨hj, -⟩, hrest⟩
    obtain rfl := List.mem_singleton.1 hj
    exact hrest
  · intro hrest
    refine ⟨?_, hcookie, i, hcarries, hrest⟩
    rw [hstate]
    exact stateTokenOk_encode i clientSecret

/-- The callback looks its cookie up under the name the attempt has given it. -/
theorem attemptOfCallback_own {i : Issue} {clientSecret : String} {a : Attempt}
    (h : i.attempt clientSecret = .ok a) {cookies : String → Option (List Char)}
    (hcookies : cookies a.cookieName = some a.cookieValue) (now : ℤ) :
    attemptOfCallback cookies (some a.state) clientSecret now =
      verifyDiscordOAuthAttempt (some a.state) (some a.cookieValue) clientSecret now := by
  obtain ⟨-, -, -, -, hstate, hname, hcookie⟩ := attempt_eq_ok h
  have htoken : stateTokenOk a.state = true := by
    rw [hstate]
    exact stateTokenOk_encode i clientSecret
  have hslot : getDiscordOAuthSlotCookieName (some a.state) = some a.cookieName := by
    simp [getDiscordOAuthSlotCookieName, Option.filter, htoken, hname]
  have hne : a.cookieValue ≠ [] := by
    have hlength := length_encode (fingerprintState a.state).val
    rw [← hcookie, (fingerprintState a.state).property] at hlength
    intro hnil
    rw [hnil] at hlength
    cases hlength
  simp [attemptOfCallback, hslot, hcookies, Option.filter, hne]

/-- A state that carries issued bytes is the one that was issued if it is canonical. -/
theorem produced_iff {clientSecret : String} {issued : List Issue} {s : List Char} :
    (∃ i ∈ issued, ∃ a, i.attempt clientSecret = .ok a ∧ a.state = s) ↔
      Canonical s ∧ ∃ i, CarriesIssued clientSecret issued s i := by
  constructor
  · rintro ⟨i, hi, a, ha, rfl⟩
    obtain ⟨-, -, -, -, hstate, -⟩ := attempt_eq_ok ha
    refine ⟨hstate ▸ canonical_encode _, i, hi, ⟨a, ha⟩, ?_⟩
    rw [hstate, decode_encode]
  · rintro ⟨hcanonical, i, hi, ⟨a, ha⟩, hframe⟩
    obtain ⟨-, -, -, -, hstate, -⟩ := attempt_eq_ok ha
    refine ⟨i, hi, a, ha, ?_⟩
    rw [hstate, ← hframe, hcanonical]

/-- **The state of a login.** With its own cookie an attempt is accepted exactly in its window, and
leads to the path it has reported unless that path is a doubled one; the callback finds that cookie.
Of any other state, as far as it carries no forged signature: what is accepted was issued, unless it
is another text of issued bytes; the cookie of another state does not do; and the path it leads to
stays on the console, away from the login pages. -/
theorem oauth_state_sound (clientSecret : String) :
    (∀ (i : Issue) (a : Attempt), i.attempt clientSecret = .ok a → ∀ now,
      ((verifyDiscordOAuthAttempt (some a.state) (some a.cookieValue) clientSecret now).isSome =
          true ↔ i.Fresh now) ∧
      (i.Fresh now → (verifyDiscordOAuthAttempt (some a.state) (some a.cookieValue) clientSecret
          now = some a.returnTo ↔ ¬ DoubledPath i.returnPath)) ∧
      ∀ cookies : String → Option (List Char), cookies a.cookieName = some a.cookieValue →
        attemptOfCallback cookies (some a.state) clientSecret now =
          verifyDiscordOAuthAttempt (some a.state) (some a.cookieValue) clientSecret now) ∧
    ∀ (issued : List Issue) (s : List Char), Unforged clientSecret issued s →
      ((∀ cookie now, verifyDiscordOAuthAttempt (some s) (some cookie) clientSecret now ≠ none →
          ∃ i ∈ issued, ∃ a, i.attempt clientSecret = .ok a ∧ a.state = s) ↔
        Canonical s ∨
          ¬ (stateTokenOk s = true ∧ ∃ i, CarriesIssued clientSecret issued s i)) ∧
      (∀ s', (fingerprintState s = fingerprintState s' → s = s') → s ≠ s' → ∀ now,
        verifyDiscordOAuthAttempt (some s) (some (encode (fingerprintState s').val)) clientSecret
          now = none) ∧
      ∀ cookie now returnTo,
        verifyDiscordOAuthAttempt (some s) (some cookie) clientSecret now = some returnTo →
        ∃ u, consoleUrl returnTo = some u ∧ u.origin = consoleOrigin ∧
          u.pathname ≠ "/login".toList ∧ startsWith "/api/auth/" u.pathname = false := by
  refine ⟨fun i a ha now => ⟨?_, ?_, ?_⟩, fun issued s hideal => ⟨⟨?_, ?_⟩, ?_, ?_⟩⟩
  · rw [Option.isSome_iff_exists]
    constructor
    · rintro ⟨returnTo, h⟩
      exact ((verify_own ha).1 h).1
    · intro hfresh
      exact ⟨_, (verify_own ha).2 ⟨hfresh, rfl⟩⟩
  · intro hfresh
    obtain ⟨-, -, -, hreturnTo, -⟩ := attempt_eq_ok ha
    rw [verify_own ha, hreturnTo, ← startsWith_safeReturnPath, (safeReturnPath_again _).1]
    constructor
    · rintro ⟨-, hsame⟩ hslashes
      rw [if_pos hslashes] at hsame
      rw [hsame, startsWith_root] at hslashes
      cases hslashes
    · intro hslashes
      exact ⟨hfresh, (if_neg hslashes).symm⟩
  · intro cookies hcookies
    exact attemptOfCallback_own ha hcookies now
  · intro hproduced
    by_contra hcontra
    rw [not_or, not_not] at hcontra
    obtain ⟨hcanonical, htoken, i, hcarries⟩ := hcontra
    have haccepted := (verify_issued hideal).2
      ⟨htoken, rfl, i, hcarries, (⟨by omega, by omega⟩ : i.Fresh i.issuedAtMilliseconds), rfl⟩
    have hne := Option.ne_none_iff_exists'.2 ⟨_, haccepted⟩
    exact hcanonical (produced_iff.1 (hproduced _ _ hne)).1
  · intro hcondition cookie now haccepted
    obtain ⟨returnTo, haccepted⟩ := Option.ne_none_iff_exists'.1 haccepted
    obtain ⟨htoken, -, i, hcarries, -⟩ := (verify_issued hideal).1 haccepted
    rcases hcondition with hcanonical | hno
    · exact produced_iff.2 ⟨hcanonical, i, hcarries⟩
    · exact absurd ⟨htoken, i, hcarries⟩ hno
  · intro s' hcollision hne now
    rw [Option.eq_none_iff_forall_ne_some]
    intro returnTo haccepted
    obtain ⟨-, hcookie, -⟩ := verify_eq_some.1 haccepted
    exact hne (hcollision (Subtype.ext (encode_injective hcookie)).symm)
  · intro cookie now returnTo haccepted
    obtain ⟨-, -, i, -, -, rfl⟩ := (verify_issued hideal).1 haccepted
    obtain ⟨u, hu, horigin, hsite⟩ := (safeReturnPath_again i.returnPath).2
    exact ⟨u, hu, horigin, hsite.notLogin, hsite.notAuth⟩

end

/-! ## A path with dots -/

/-- A runtime to evaluate definitions on. -/
@[reducible]
def sampleNode : Node where
  sha256 bytes := ⟨writeBE 32 (readBE bytes % 2 ^ 255), length_writeBE 32 _⟩
  hmacSha256 _ bytes := ⟨writeBE 32 (readBE bytes % (2 ^ 255 - 19)), length_writeBE 32 _⟩
  origin? _ := none
  replaceInvalid _ := ""

namespace SampleNode

scoped instance : Node := sampleNode

end SampleNode

/-- An attempt at time 0. -/
def sampleIssue (returnPath : String) : Issue := ⟨returnPath, 0, List.replicate 24 0, rfl⟩

open SampleNode in
theorem sampleIssue_attempt (returnPath : String) :
    ∃ a, (sampleIssue returnPath).attempt "secret" = .ok a := by
  simp only [Issue.attempt, createDiscordOAuthAttempt, bind_eq_ok, throwIf_eq_ok, pure_eq_ok]
  exact ⟨_, (), rfl, (), rfl, (), rfl, rfl⟩

open SampleNode in
theorem sample_state_sound : ∃ a, (sampleIssue "/status?page=2").attempt "secret" = .ok a ∧
    (verifyDiscordOAuthAttempt (some a.state) (some a.cookieValue) "secret" 600000).isSome = true ∧
      ∃ returnTo u, verifyDiscordOAuthAttempt (some a.state) (some a.cookieValue) "secret" 600000 =
        some returnTo ∧ consoleUrl returnTo = some u ∧ u.origin = consoleOrigin := by
  obtain ⟨a, ha⟩ := sampleIssue_attempt "/status?page=2"
  have haccepted := (((oauth_state_sound "secret").1 _ a ha 600000).1).2 ⟨by decide, by decide⟩
  obtain ⟨returnTo, hreturnTo⟩ := Option.isSome_iff_exists.1 haccepted
  obtain ⟨u, hu, horigin, -⟩ :=
    ((oauth_state_sound "secret").2 [_] a.state (unforged_own ha).1).2.2 _ _ _ hreturnTo
  exact ⟨a, ha, haccepted, returnTo, u, hreturnTo, hu, horigin⟩

open SampleNode in
/-- The attempt reports a path that names another host, and its verification returns the root. -/
theorem doubled_path_lost : ∃ a, (sampleIssue "/.//host").attempt "secret" = .ok a ∧
    a.returnTo = "//host" ∧
      verifyDiscordOAuthAttempt (some a.state) (some a.cookieValue) "secret" 0 = some "/" := by
  obtain ⟨a, ha⟩ := sampleIssue_attempt "/.//host"
  obtain ⟨-, -, -, hreturnTo, -⟩ := attempt_eq_ok ha
  have honce : safeReturnPath "/.//host" = "//host" := by decide
  have htwice : "/" = safeReturnPath (safeReturnPath "/.//host") := by
    rw [honce]
    decide
  exact ⟨a, ha, hreturnTo.trans honce, (verify_own ha).2 ⟨⟨by decide, by decide⟩, htwice⟩⟩

end IvrmDashboard.Discord
