import IvrmDashboard.Foundations.Feeds

/-!
# The Minecraft status ping

The agent asks a Minecraft server for its status over a socket. Numbers are sent in groups of seven
bits, the lowest first, and every byte but the last has its high bit set; texts are sent after their
length. However the answer arrives, what was encoded is what is read.
-/

namespace IvrmDashboard.HostAgent

open Reading

/-- The exceptions the functions raise, with their messages. -/
inductive PingError
  | valueError (message : String)
  | runtimeError (message : String)
  deriving DecidableEq

/-- `MAX_MINECRAFT_PACKET_BYTES` -/
def maxMinecraftPacketBytes : ℕ := 2 * 1024 * 1024

/-! ## Numbers -/

/-- The loop of `encode_varint`. -/
def varintBytes (value : ℕ) : List UInt8 :=
  let current := value &&& 0x7F
  if _ : value >>> 7 = 0 then [UInt8.ofNat current]
  else UInt8.ofNat (current ||| 0x80) :: varintBytes (value >>> 7)
termination_by value
decreasing_by
  rw [Nat.shiftRight_eq_div_pow] at *
  omega

/-- `encode_varint` -/
def encodeVarint (value : ℤ) : Except PingError (List UInt8) :=
  if value < 0 ∨ value > 2147483647 then .error (.valueError "VarIntが許容範囲外です")
  else .ok (varintBytes value.toNat)

/-- What `read_exact` raises when the stream ends. -/
def closedEarly : PingError := .runtimeError "Minecraft応答が途中で終了しました"

/-- `read_exact` -/
def readExact (length : ℤ) : Reading PingError UInt8 (List UInt8) :=
  if length < 0 ∨ length > maxMinecraftPacketBytes then
    throw (.runtimeError "Minecraftパケット長が不正です")
  else receive closedEarly length.toNat []

/-- The loop of `read_varint`. -/
def readVarintFrom : List ℕ → ℕ → Reading PingError UInt8 ℕ
  | [], _ => throw (.runtimeError "Minecraft VarIntが長すぎます")
  | index :: indexes, result => do
    -- `[0]`: there is exactly one byte
    let current := ((← readExact 1).headD 0).toNat
    let result := result ||| (current &&& 0x7F) <<< (7 * index)
    if current &&& 0x80 = 0 then return result
    else readVarintFrom indexes result

/-- `read_varint` -/
def readVarint : Reading PingError UInt8 ℕ := readVarintFrom (List.range 5) 0

theorem varintBytes_eq (value : ℕ) : varintBytes value =
    if value / 128 = 0 then [UInt8.ofNat (value % 128)]
    else UInt8.ofNat (value % 128 + 128) :: varintBytes (value / 128) := by
  have hlow : value &&& 0x7F = value % 128 := Nat.and_two_pow_sub_one_eq_mod value 7
  have hhigh : value >>> 7 = value / 128 := Nat.shiftRight_eq_div_pow value 7
  have hmark : value % 128 ||| 0x80 = value % 128 + 128 := by
    have hor := Nat.two_pow_add_eq_or_of_lt (i := 7) (Nat.mod_lt value (by decide)) 1
    rw [Nat.or_comm, Nat.add_comm]
    exact hor.symm
  rw [varintBytes, hlow, hhigh, hmark]
  rfl

/-- A byte of the encoding: its low bits, and whether there are more. -/
theorem byte_bits {low : ℕ} (hlow : low < 128) :
    ((UInt8.ofNat low).toNat &&& 0x7F = low ∧ (UInt8.ofNat low).toNat &&& 0x80 = 0) ∧
      (UInt8.ofNat (low + 128)).toNat &&& 0x7F = low ∧
        (UInt8.ofNat (low + 128)).toNat &&& 0x80 ≠ 0 := by
  have hall : ∀ k < 128, ((UInt8.ofNat k).toNat &&& 0x7F = k ∧ (UInt8.ofNat k).toNat &&& 0x80 = 0) ∧
      (UInt8.ofNat (k + 128)).toNat &&& 0x7F = k ∧
        (UInt8.ofNat (k + 128)).toNat &&& 0x80 ≠ 0 := by decide
  exact hall low hlow

theorem reads_readExact {w : List UInt8} (h : w.length ≤ maxMinecraftPacketBytes) :
    (readExact w.length).Reads w w := by
  unfold readExact
  rw [if_neg (by omega), Int.toNat_natCast]
  exact reads_receive closedEarly w

theorem reads_byte (b : UInt8) : (readExact 1).Reads [b] [b] :=
  reads_readExact (w := [b]) (by rw [List.length_singleton]; decide)

/-- The groups that are still to come are added above the result so far. -/
theorem reads_readVarintFrom {value result index count : ℕ} (hvalue : value < 128 ^ count)
    (hresult : result < 2 ^ (7 * index)) (hcount : 0 < count) :
    (readVarintFrom (List.range' index count) result).Reads (varintBytes value)
      (result + value * 2 ^ (7 * index)) := by
  induction count generalizing value result index with
  | zero => exact absurd hcount (by decide)
  | succ count ih =>
    have hadd : ∀ low, result ||| low <<< (7 * index) = result + low * 2 ^ (7 * index) := by
      intro low
      have hor := Nat.two_pow_add_eq_or_of_lt hresult low
      rw [Nat.shiftLeft_eq, Nat.or_comm, Nat.mul_comm, ← hor, Nat.add_comm]
    have hlow : value % 128 < 128 := Nat.mod_lt value (by decide)
    obtain ⟨⟨hbits, hlast⟩, hbits', hmore⟩ := byte_bits hlow
    rw [List.range'_succ, readVarintFrom, varintBytes_eq]
    by_cases hdone : value / 128 = 0
    · have hvalue : value % 128 = value := Nat.mod_eq_of_lt (by omega)
      rw [if_pos hdone, ← List.append_nil [_]]
      refine (reads_byte _).bind ?_
      simp only [List.headD_cons, hlast, if_true, hbits, hadd]
      rw [hvalue]
      exact reads_pure _
    · rw [if_neg hdone, ← List.singleton_append]
      refine (reads_byte _).bind ?_
      simp only [List.headD_cons, if_neg hmore, hbits', hadd]
      have hpow : 2 ^ (7 * (index + 1)) = 2 ^ (7 * index) * 128 := by
        rw [Nat.mul_add, Nat.pow_add]
      have hquotient : value / 128 < 128 ^ count := by
        rw [Nat.div_lt_iff_lt_mul (by decide), ← Nat.pow_succ]
        exact hvalue
      have hresult' : result + value % 128 * 2 ^ (7 * index) < 2 ^ (7 * (index + 1)) := by
        have hgroup : value % 128 * 2 ^ (7 * index) ≤ 127 * 2 ^ (7 * index) :=
          Nat.mul_le_mul_right _ (by omega)
        omega
      have hcount : 0 < count := by
        rcases Nat.eq_zero_or_pos count with rfl | hpos
        · rw [Nat.pow_zero] at hquotient
          omega
        · exact hpos
      have htotal : result + value % 128 * 2 ^ (7 * index) + value / 128 * 2 ^ (7 * (index + 1)) =
          result + value * 2 ^ (7 * index) := by
        calc result + value % 128 * 2 ^ (7 * index) + value / 128 * 2 ^ (7 * (index + 1))
            = result + (value % 128 + 128 * (value / 128)) * 2 ^ (7 * index) := by
              rw [hpow, Nat.add_mul, Nat.add_assoc, Nat.mul_comm 128, Nat.mul_assoc,
                Nat.mul_comm 128]
          _ = result + value * 2 ^ (7 * index) := by rw [Nat.mod_add_div]
      rw [← htotal]
      exact ih hquotient hresult' hcount

/-- **A number that is encoded is read**, however the bytes arrive. -/
theorem reads_readVarint {value : ℤ} {bytes : List UInt8}
    (h : encodeVarint value = .ok bytes) : readVarint.Reads bytes value.toNat := by
  unfold encodeVarint at h
  split at h
  next => exact absurd h nofun
  next hrange =>
    obtain rfl := Except.ok.inj h
    have hread : (readVarintFrom (List.range' 0 5) 0).Reads (varintBytes value.toNat)
        (0 + value.toNat * 2 ^ (7 * 0)) :=
      reads_readVarintFrom (by omega) (by decide) (by decide)
    rw [Nat.zero_add, Nat.mul_zero, Nat.pow_zero, Nat.mul_one] at hread
    exact hread

theorem encodeVarint_of_lt {n : ℕ} (h : n < 2 ^ 31) : encodeVarint n = .ok (varintBytes n) := by
  unfold encodeVarint
  rw [if_neg (by omega), Int.toNat_natCast]

/-- A number that is encoded is not negative. -/
theorem toNat_of_encodeVarint {value : ℤ} {bytes : List UInt8}
    (h : encodeVarint value = .ok bytes) : (value.toNat : ℤ) = value := by
  unfold encodeVarint at h
  split at h
  next => exact absurd h nofun
  next hrange => omega

theorem encodeVarint_prefixFree {m n : ℤ} {x y : List UInt8} (hm : encodeVarint m = .ok x)
    (hn : encodeVarint n = .ok y) (h : x <+: y) : x = y ∧ m = n := by
  obtain ⟨hxy, hmn⟩ := (reads_readVarint hm).eq_of_isPrefix (reads_readVarint hn) h
  refine ⟨hxy, ?_⟩
  rw [← toNat_of_encodeVarint hm, ← toNat_of_encodeVarint hn, hmn]

theorem takes_readExact (k : ℕ) : Takes k (readExact k) := by
  unfold readExact
  split
  · exact (takes_throw _).mono (Nat.zero_le k)
  · rw [Int.toNat_natCast]
    exact takes_receive _ k

/-- Every round of the loop takes one byte. -/
theorem takes_readVarintFrom (indexes : List ℕ) (result : ℕ) :
    Takes indexes.length (readVarintFrom indexes result) := by
  induction indexes generalizing result with
  | nil => exact takes_throw _
  | cons index indexes ih =>
    rw [List.length_cons, Nat.add_comm]
    refine (takes_readExact 1).bind fun bytes => ?_
    dsimp only
    split
    · exact (takes_pure _).mono (Nat.zero_le _)
    · exact ih _

/-! ## Texts -/

/-- `value.encode("utf-8")` -/
def utf8 (value : String) : List UInt8 := value.toUTF8.data.toList

/-- `encode_string` -/
def encodeString (value : String) : Except PingError (List UInt8) := do
  let encoded := utf8 value
  if encoded.length > 255 then throw (.valueError "Minecraft接続先名が長すぎます")
  let length ← encodeVarint encoded.length
  return length ++ encoded

/-- A length and as many bytes. -/
def readPrefixed : Reading PingError UInt8 (List UInt8) := do
  let length ← readVarint
  readExact length

/-- Bytes that are sent after their length are read. -/
theorem reads_readPrefixed {w length : List UInt8} (hw : w.length ≤ maxMinecraftPacketBytes)
    (h : encodeVarint w.length = .ok length) : readPrefixed.Reads (length ++ w) w := by
  have hlength := reads_readVarint h
  rw [Int.toNat_natCast] at hlength
  exact hlength.bind (reads_readExact hw)

theorem reads_encodeString {value : String} (h : (utf8 value).length ≤ 255) :
    ∃ bytes, encodeString value = .ok bytes ∧ readPrefixed.Reads bytes (utf8 value) := by
  have hlength := encodeVarint_of_lt (n := (utf8 value).length) (by omega)
  refine ⟨varintBytes (utf8 value).length ++ utf8 value, ?_, ?_⟩
  · unfold encodeString
    rw [if_neg (by omega), hlength]
    rfl
  · refine reads_readPrefixed ?_ hlength
    unfold maxMinecraftPacketBytes
    omega

/-! ## The answer -/

/-- What `minecraft_status` reads of the answer, up to the document. -/
def readStatus : Reading PingError UInt8 (List UInt8) := do
  let packetLength ← readVarint
  if packetLength < 2 ∨ packetLength > maxMinecraftPacketBytes then
    throw (.runtimeError "Minecraft応答パケット長が不正です")
  let packetId ← readVarint
  if packetId ≠ 0 then throw (.runtimeError "Minecraft応答パケットIDが不正です")
  let jsonLength ← readVarint
  if jsonLength < 2 ∨ jsonLength > maxMinecraftPacketBytes then
    throw (.runtimeError "Minecraft応答JSON長が不正です")
  readExact jsonLength

/-- **A document is read from its packet** if the packet is not too long. -/
theorem reads_readStatus {document length packet : List UInt8} {packetLength : ℕ}
    (hdocument : 2 ≤ document.length) (hlength : encodeVarint document.length = .ok length)
    (hpacketLength : packetLength = 1 + length.length + document.length)
    (hmax : packetLength ≤ maxMinecraftPacketBytes)
    (hpacket : encodeVarint packetLength = .ok packet) :
    readStatus.Reads (packet ++ (varintBytes 0 ++ (length ++ document))) document := by
  have hid : encodeVarint 0 = .ok (varintBytes 0) := encodeVarint_of_lt (n := 0) (by decide)
  have hread := reads_readVarint hpacket
  have hread' := reads_readVarint hlength
  have hzero : readVarint.Reads (varintBytes 0) 0 := reads_readVarint hid
  rw [Int.toNat_natCast] at hread hread'
  refine hread.bind ?_
  rw [if_neg (by omega)]
  refine hzero.bind ?_
  rw [if_neg (not_not.2 rfl)]
  refine hread'.bind ?_
  rw [if_neg (by omega)]
  exact reads_readExact (by omega)

/-! ## The framing -/

/-- `read_exact` yields the next bytes or finds that there are too few. -/
theorem on_readExact {k : ℕ} (hk : k ≤ maxMinecraftPacketBytes) (s : Feed UInt8) :
    ∃ s', (readExact k).on s =
        (if k ≤ s.unread.length then .ok (s.unread.take k) else .error closedEarly, s') ∧
      s'.unread = s.unread.drop k := by
  unfold readExact
  rw [if_neg (by omega), Int.toNat_natCast]
  have hon := on_receive closedEarly k [] s
  rw [List.length_nil, Nat.sub_zero, List.nil_append] at hon
  exact hon

/-- A length out of range is refused before anything is read. -/
theorem on_readExact_of_range {k : ℤ} (hk : k < 0 ∨ k > maxMinecraftPacketBytes) (s : Feed UInt8) :
    (readExact k).on s = (.error (.runtimeError "Minecraftパケット長が不正です"), s) := by
  unfold readExact
  rw [if_pos hk]
  rfl

/-- **The framing of the status ping**: numbers and texts are read as they were encoded, however the
bytes arrive; encodings are told apart by their beginnings; and no reading takes more than it says. -/
theorem minecraft_status_framing :
    (∀ n : ℕ, n < 2 ^ 31 → ∃ bytes, encodeVarint n = .ok bytes ∧ readVarint.Reads bytes n) ∧
      (∀ m n x y, encodeVarint m = .ok x → encodeVarint n = .ok y →
        (x = y → m = n) ∧ (x <+: y → x = y)) ∧
      Takes 5 readVarint ∧
      (∀ (k : ℕ) s, k ≤ maxMinecraftPacketBytes → ∃ s', (readExact k).on s =
          (if k ≤ s.unread.length then .ok (s.unread.take k) else .error closedEarly, s') ∧
        s'.unread = s.unread.drop k) ∧
      (∀ (k : ℤ) s, k < 0 ∨ k > maxMinecraftPacketBytes →
        (readExact k).on s = (.error (.runtimeError "Minecraftパケット長が不正です"), s)) ∧
      ∀ value : String, (utf8 value).length ≤ 255 →
        ∃ bytes, encodeString value = .ok bytes ∧ readPrefixed.Reads bytes (utf8 value) := by
  refine ⟨fun n hn => ?_, fun m n x y hm hn => ⟨fun h => ?_, fun h => ?_⟩, ?_,
    fun k s hk => on_readExact hk s, fun k s hk => on_readExact_of_range hk s,
    fun value h => reads_encodeString h⟩
  · have hread := reads_readVarint (encodeVarint_of_lt hn)
    rw [Int.toNat_natCast] at hread
    exact ⟨varintBytes n, encodeVarint_of_lt hn, hread⟩
  · exact (encodeVarint_prefixFree hm hn (by rw [h])).2
  · exact (encodeVarint_prefixFree hm hn h).1
  · exact takes_readVarintFrom (List.range 5) 0

/-- A number of two bytes that arrives in one piece with what follows it. -/
theorem minecraft_status_framing_example : ∃ bytes s', encodeVarint 300 = .ok bytes ∧
    readVarint.on ⟨bytes ++ [7], fun _ => 99⟩ = (.ok 300, s') ∧ s'.unread = [7] := by
  obtain ⟨bytes, hbytes, hread⟩ := minecraft_status_framing.1 300 (by decide)
  obtain ⟨s', hon, hrest⟩ := hread ⟨bytes ++ [7], fun _ => 99⟩ [7] rfl
  exact ⟨bytes, s', hbytes, hon, hrest⟩

/-- A length above the limit is refused although the stream goes on. -/
theorem readExact_refuses_long : ∃ (k : ℕ) (s s' : Feed UInt8) (e : PingError),
    k ≤ s.unread.length ∧ (readExact k).on s = (.error e, s') :=
  ⟨2097153, ⟨List.replicate 2097153 0, fun _ => 0⟩, _, _, List.length_replicate.ge, rfl⟩

end IvrmDashboard.HostAgent
