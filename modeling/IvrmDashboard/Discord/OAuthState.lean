import Mathlib.Data.Option.Basic
import IvrmDashboard.Foundations.Js.Buffer
import IvrmDashboard.Foundations.Js.Text
import IvrmDashboard.Foundations.Js.Throws
import IvrmDashboard.Foundations.Js.Url

/-!
# The state of a login at Discord

Before a browser is sent to Discord it gets a state, which comes back with it: a frame of bytes with
the time of issue, a nonce and the path to return to, signed with the client secret. A cookie keeps
the fingerprint of the state.
-/

namespace IvrmDashboard.Discord

open Js

/-! ## What the runtime provides -/

/-- A digest of SHA-256. -/
abbrev Digest := { bytes : List UInt8 // bytes.length = 32 }

/-- The digests, the origin that the authority of a URL names, and the text of bytes that are not
UTF-8. -/
class Node where
  sha256 : List UInt8 → Digest
  hmacSha256 : String → List UInt8 → Digest
  origin? : List Char → Option String
  replaceInvalid : List UInt8 → String

/-- `Buffer.from(s, "utf8")` -/
def utf8 (s : String) : List UInt8 := s.toUTF8.data.toList

/-- `toString("utf8")` -/
def ofUtf8 [Node] (bytes : List UInt8) : String :=
  (String.fromUTF8? ⟨bytes.toArray⟩).getD (Node.replaceInvalid bytes)

/-! ## The path to return to -/

/-- The origin of the console. -/
def consoleOrigin : String := "https://console.ivrm.jp"

/-- `s.startsWith(…)` -/
def startsWith (front : String) (s : List Char) : Bool := front.toList.isPrefixOf s

/-- `new URL(value, "https://console.ivrm.jp")` -/
def consoleUrl [Node] (value : String) : Option Url := Url.parse Node.origin? consoleOrigin value

/-- `sanitizeReturnPath`. A string with lone surrogates is read as if they were U+FFFD, so a list of
code points stands for any string. -/
def sanitizeReturnPath [Node] (value : String) : String :=
  if value = "" || 1024 < Js.length value || !startsWith "/" value.toList ||
      startsWith "//" value.toList then "/"
  else
    match consoleUrl value with
    | none => "/"
    | some parsed =>
      if parsed.origin ≠ consoleOrigin then "/"
      else if parsed.pathname = "/login".toList || startsWith "/api/auth/" parsed.pathname then "/"
      else String.ofList (parsed.pathname ++ parsed.search)

/-- `OAUTH_RETURN_PATH_MAX_BYTES` -/
def returnPathMaxBytes : ℕ := 512

/-- `safeReturnPath` -/
def safeReturnPath [Node] (value : String) : String :=
  let sanitized := sanitizeReturnPath value
  if (utf8 sanitized).length ≤ returnPathMaxBytes then sanitized else "/"

/-! ## The frame -/

/-- `OAUTH_STATE_CONTEXT` -/
def stateContext : String := "ivrm-discord-oauth-state-v1\u0000"

/-- `OAUTH_STATE_HEADER_BYTES` -/
def headerBytes : ℕ := 31

/-- `randomBytes(OAUTH_STATE_NONCE_BYTES)` -/
abbrev Nonce := { bytes : List UInt8 // bytes.length = 24 }

section

variable [Node]

/-- `fingerprintState` -/
def fingerprintState (state : List Char) : Digest :=
  Node.sha256 (utf8 (String.ofList state))

/-- Two hexadecimal digits. -/
def hexByte (n : ℕ) : List Char := ("0123456789abcdef".toList.drop (n / 16)).take 1 ++
  ("0123456789abcdef".toList.drop (n % 16)).take 1

/-- `oauthCookieNameFromFingerprint` -/
def oauthCookieNameFromFingerprint (fingerprint : Digest) : String :=
  "__Host-ivrm_discord_oauth_slot_" ++
    String.ofList (hexByte (readBE (fingerprint.val.take 2) % 32))

/-- `signPayload` -/
def signPayload (payload : List UInt8) (clientSecret : String) : Digest :=
  Node.hmacSha256 clientSecret (utf8 stateContext ++ payload)

/-- What the browser gets. -/
structure Attempt where
  state : List Char
  returnTo : String
  cookieName : String
  cookieValue : List Char

/-- The bytes that are signed. -/
def payloadOf (issuedAtSeconds : ℕ) (nonce : Nonce) (returnTo : String) : List UInt8 :=
  writeBE 1 1 ++ writeBE 4 issuedAtSeconds ++ nonce.val ++ writeBE 2 (utf8 returnTo).length ++
    utf8 returnTo

/-- `createDiscordOAuthAttempt`, with the random bytes that are drawn. -/
def createDiscordOAuthAttempt (returnPath clientSecret : String) (issuedAtMilliseconds : ℤ)
    (nonce : Nonce) : Except String Attempt := do
  throwIf (clientSecret = "") "Discord OAuth署名Secretがありません"
  throwIf (issuedAtMilliseconds < 0) "Discord OAuth stateの発行時刻が不正です"
  let returnTo := safeReturnPath returnPath
  let issuedAtSeconds := issuedAtMilliseconds / 1000
  throwIf (0xffffffff < issuedAtSeconds) "Discord OAuth stateの発行時刻が範囲外です"
  let payload := payloadOf issuedAtSeconds.toNat nonce returnTo
  let state := encode (payload ++ (signPayload payload clientSecret).val)
  let fingerprint := fingerprintState state
  return {
    state, returnTo
    cookieName := oauthCookieNameFromFingerprint fingerprint
    cookieValue := encode fingerprint.val }

/-- `OAUTH_STATE_TOKEN_PATTERN` -/
def stateTokenOk (state : List Char) : Bool :=
  80 ≤ state.length && state.length ≤ 800 && state.all base64UrlChar

/-- `OAUTH_COOKIE_FINGERPRINT_PATTERN` -/
def cookieFingerprintOk (cookieValue : List Char) : Bool :=
  cookieValue.length = 43 && cookieValue.all base64UrlChar

/-- `getDiscordOAuthSlotCookieName` -/
def getDiscordOAuthSlotCookieName (state : Option (List Char)) : Option String :=
  (state.filter stateTokenOk).map fun state =>
    oauthCookieNameFromFingerprint (fingerprintState state)

/-- The time of issue is not too far ahead, and not too long ago. -/
def inWindow (issuedAtSeconds nowSeconds : ℤ) : Bool :=
  !(nowSeconds + 30 < issuedAtSeconds || 600 < nowSeconds - issuedAtSeconds)

/-- The path of a frame, once the frame has been checked. -/
def openPayload (payload : List UInt8) (nowMilliseconds : ℤ) : Option (List UInt8) := do
  guard (readBE (payload.take 1) = 1)
  guard (inWindow (readBE ((payload.drop 1).take 4)) (nowMilliseconds / 1000) = true)
  let returnLength := readBE ((payload.drop 29).take 2)
  guard (1 ≤ returnLength ∧ returnLength ≤ returnPathMaxBytes ∧
    payload.length = headerBytes + returnLength)
  return payload.drop headerBytes

/-- `verifyDiscordOAuthAttempt` -/
def verifyDiscordOAuthAttempt (returnedState cookieValue : Option (List Char))
    (clientSecret : String) (nowMilliseconds : ℤ) : Option String := do
  let state ← returnedState.filter stateTokenOk
  let cookie ← cookieValue.filter cookieFingerprintOk
  guard (clientSecret ≠ "")
  let encoded := decode state
  guard (headerBytes + 1 + 32 ≤ encoded.length ∧
    encoded.length ≤ headerBytes + returnPathMaxBytes + 32)
  let payload := encoded.take (encoded.length - 32)
  guard (encoded.drop (encoded.length - 32) = (signPayload payload clientSecret).val)
  let returnTo ← openPayload payload nowMilliseconds
  guard (encode (fingerprintState state).val = cookie)
  return safeReturnPath (ofUtf8 returnTo)

/-! ## The callback -/

/-- The attempt that a callback belongs to, by the cookies of the browser. -/
def attemptOfCallback (cookies : String → Option (List Char)) (returnedState : Option (List Char))
    (clientSecret : String) (nowMilliseconds : ℤ) : Option String := do
  let cookieName ← getDiscordOAuthSlotCookieName returnedState
  verifyDiscordOAuthAttempt returnedState ((cookies cookieName).filter (· ≠ [])) clientSecret
    nowMilliseconds

end

end IvrmDashboard.Discord
