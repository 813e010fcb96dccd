import Anywhere.Lib.Aead
import Anywhere.Tls.Handshake12
import Anywhere.Tls.RecordConnection

/-!
# Anywhere — the ciphers of `TlsRecordConnection`

A record is protected in one of three ways. TLS 1.3 puts the content type behind the
plaintext and seals both under the IV with the sequence number in it. TLS 1.2 with an
AEAD authenticates the sequence number and the header, and sends the sequence number as
explicit nonce unless the cipher is ChaCha20. TLS 1.2 with CBC appends a MAC and padding,
and sends the initialization vector.

A sequence number is a `Nat` of which the code has the lower 64 bits; only its eight
bytes are looked at. What the peer's functions read of its server values are the sender's
client values: one `RecordKeys` serves both. A function that throws returns none.

* `Seals` — the record that the sender builds is well formed, within the overhead that
  `buildTLSRecords` allows for, and opened by the peer.
-/

namespace Anywhere.Tls

-- ----
-- Cipher suites

namespace TlsCipherSuite

def isAEAD (suite : Nat) : Bool :=
  [0x1301, 0x1302, 0x1303, 0xC02B, 0xC02C, 0xC02F, 0xC030, 0xCCA9, 0xCCA8, 0x009C, 0x009D].contains
    suite

def isChaCha20 (suite : Nat) : Bool := [0x1303, 0xCCA9, 0xCCA8].contains suite

/-- MAC length for CBC suites (0 for AEAD). -/
def macLength (suite : Nat) : Nat :=
  if [0xC024, 0xC028].contains suite then 48
  else if [0xC023, 0xC027, 0x003C, 0x003D].contains suite then 32
  else if [0xC009, 0xC00A, 0xC013, 0xC014, 0x002F, 0x0035].contains suite then 20
  else 0

def cbcUsesSHA256 (suite : Nat) : Bool := [0xC023, 0xC027, 0x003C, 0x003D].contains suite

def cbcSuites : List Nat :=
  [0xC009, 0xC00A, 0xC013, 0xC014, 0xC023, 0xC024, 0xC027, 0xC028, 0x002F, 0x0035, 0x003C, 0x003D]

end TlsCipherSuite

-- ----
-- Primitives

/-- The algorithms of `Mac.getInstance`. -/
inductive HmacAlgorithm where
  | hmacSHA1
  | hmacSHA256
  | hmacSHA384
  deriving Repr

def HmacAlgorithm.length : HmacAlgorithm → Nat
  | .hmacSHA1 => 20
  | .hmacSHA256 => 32
  | .hmacSHA384 => 48

/-- What `javax.crypto` provides. -/
structure RecordCrypto where
  aesGcm : Lib.Aead
  chaCha20Poly1305 : Lib.Aead
  aesCbc : Lib.Cbc
  hmac : HmacAlgorithm → Bytes → Bytes → Bytes
  length_hmac : ∀ algo key data, (hmac algo key data).length = algo.length

structure RecordKeys where
  key : Bytes
  iv : Bytes
  macKey : Bytes
  cipherSuite : Nat
  tlsVersion : Nat
  /-- Both key derivations give these ciphers an IV of twelve bytes. -/
  iv_length : 0x0304 ≤ tlsVersion ∨ TlsCipherSuite.isChaCha20 cipherSuite = true → iv.length = 12
  /-- A suite of TLS 1.2 is one of the AEAD or of the CBC suites. -/
  suite_known : 0x0304 ≤ tlsVersion ∨ TlsCipherSuite.isAEAD cipherSuite = true ∨
    cipherSuite ∈ TlsCipherSuite.cbcSuites

namespace RecordKeys

def isTls13 (k : RecordKeys) : Bool := 0x0304 ≤ k.tlsVersion

def isChaCha (k : RecordKeys) : Bool := TlsCipherSuite.isChaCha20 k.cipherSuite

def isAEAD (k : RecordKeys) : Bool := TlsCipherSuite.isAEAD k.cipherSuite

/-- `cipherTransform`. -/
def cipher (k : RecordKeys) (c : RecordCrypto) : Lib.Aead :=
  if k.isChaCha then c.chaCha20Poly1305 else c.aesGcm

def versionHi (k : RecordKeys) : UInt8 := UInt8.ofNat (k.tlsVersion / 256)

def versionLo (k : RecordKeys) : UInt8 := UInt8.ofNat k.tlsVersion

end RecordKeys

/-- Eight bytes, most significant first. -/
def seqToBytes (seqNum : Nat) : Bytes :=
  (List.range 8).map fun i => UInt8.ofNat (seqNum / 2 ^ ((7 - i) * 8))

/-- The sequence number XORed into the last eight bytes of an IV. -/
def xorNonce (iv : Bytes) (seqNum : Nat) : Option Bytes :=
  let base := iv.length - 8
  if iv.length < 8 then none
  else some (iv.take base ++ (iv.drop base).zipWith (· ^^^ ·) (seqToBytes seqNum))

/-- `PacketUtil.xorNonce`, which requires an IV of twelve bytes. -/
def PacketUtil.xorNonce (iv : Bytes) (seqNum : Nat) : Option Bytes :=
  if iv.length = 12 then some (iv.take 4 ++ (iv.drop 4).zipWith (· ^^^ ·) (seqToBytes seqNum))
  else none

/-- `PacketUtil.tls13UnwrapContent`: the last byte that is not zero, and what is in front
of it. -/
def PacketUtil.tls13UnwrapContent (data : Bytes) : Option Bytes :=
  match data.reverse.dropWhile (· == 0) with
  | [] => none
  | contentType :: content => some (contentType :: content.reverse)

def recordHeader (contentType versionHi versionLo : UInt8) (length : Nat) : Bytes :=
  [contentType, versionHi, versionLo, UInt8.ofNat (length / 256), UInt8.ofNat length]

section

variable (c : RecordCrypto)

/-- `Tls12KeyDerivation.tls10MAC`. -/
def tls10MAC (macKey : Bytes) (seqNum : Nat) (contentType : UInt8) (protocolVersion : Nat)
    (payload : Bytes) (useSHA384 useSHA256 : Bool) : Bytes :=
  let algo := if useSHA384 then HmacAlgorithm.hmacSHA384
    else if useSHA256 then HmacAlgorithm.hmacSHA256
    else HmacAlgorithm.hmacSHA1
  c.hmac algo macKey (seqToBytes seqNum ++
    recordHeader contentType (UInt8.ofNat (protocolVersion / 256)) (UInt8.ofNat protocolVersion)
      payload.length ++ payload)

-- ----
-- The sender

def encryptTls13Record (k : RecordKeys) (plaintext : Bytes) (seqNum : Nat) : Option Bytes := do
  let innerLen := plaintext.length + 1
  let encryptedLen := innerLen + 16
  let nonce ← PacketUtil.xorNonce k.iv seqNum
  let aad := recordHeader 0x17 0x03 0x03 encryptedLen
  let encrypted := (k.cipher c).encrypt k.key nonce aad (plaintext ++ [0x17])
  some (recordHeader 0x17 0x03 0x03 encrypted.length ++ encrypted)

/-- The associated data of TLS 1.2: sequence number, type, version and plaintext length. -/
def tls12Aad (k : RecordKeys) (contentType : UInt8) (seqNum plaintextLen : Nat) : Bytes :=
  seqToBytes seqNum ++ recordHeader contentType k.versionHi k.versionLo plaintextLen

/-- The nonce of TLS 1.2: the IV with the sequence number in it for ChaCha20, the implicit
and the explicit part for AES-GCM. -/
def tls12Nonce (k : RecordKeys) (explicitNonce : Bytes) (seqNum : Nat) : Option Bytes :=
  if k.isChaCha then xorNonce k.iv seqNum else some (k.iv ++ explicitNonce)

def encryptTls12AEAD (k : RecordKeys) (plaintext : Bytes) (contentType : UInt8) (seqNum : Nat) :
    Option Bytes := do
  let explicitNonce := if k.isChaCha then [] else seqToBytes seqNum
  let nonce ← tls12Nonce k explicitNonce seqNum
  let aad := tls12Aad k contentType seqNum plaintext.length
  let encrypted := (k.cipher c).encrypt k.key nonce aad plaintext
  let payload := explicitNonce ++ encrypted
  some (recordHeader contentType k.versionHi k.versionLo payload.length ++ payload)

-- the random IV of each record
variable (randomIV : Nat → Vector UInt8 16)

def encryptTls12CBC (k : RecordKeys) (plaintext : Bytes) (contentType : UInt8) (seqNum : Nat) :
    Option Bytes :=
  let useSHA384 := TlsCipherSuite.usesSHA384 k.cipherSuite
  let useSHA256 := TlsCipherSuite.cbcUsesSHA256 k.cipherSuite
  let mac := tls10MAC c k.macKey seqNum contentType k.tlsVersion plaintext useSHA384 useSHA256
  let data := plaintext ++ mac
  let paddingLen := 16 - data.length % 16
  let paddingByte := UInt8.ofNat (paddingLen - 1)
  let padded := data ++ List.replicate paddingLen paddingByte
  let iv := (randomIV seqNum).toList
  let encrypted := c.aesCbc.encrypt k.key iv padded
  let payload := iv ++ encrypted
  some (recordHeader contentType k.versionHi k.versionLo payload.length ++ payload)

def encryptTls12Record (k : RecordKeys) (plaintext : Bytes) (contentType : UInt8) (seqNum : Nat) :
    Option Bytes :=
  if k.isAEAD then encryptTls12AEAD c k plaintext contentType seqNum
  else encryptTls12CBC c randomIV k plaintext contentType seqNum

def encryptAndBuildTLSRecord (k : RecordKeys) (plaintext : Bytes) (seqNum : Nat) : Option Bytes :=
  if k.isTls13 then encryptTls13Record c k plaintext seqNum
  else encryptTls12Record c randomIV k plaintext 0x17 seqNum

-- ----
-- The peer

def decryptTls13Record (k : RecordKeys) (ciphertext header : Bytes) (seqNum : Nat) :
    Option Bytes :=
  if ciphertext.length < 16 then none
  else do
    let nonce ← PacketUtil.xorNonce k.iv seqNum
    let decrypted ← (k.cipher c).decrypt k.key nonce header ciphertext
    if decrypted = [] then none
    else
      match ← PacketUtil.tls13UnwrapContent decrypted with
      | [] => none
      | innerContentType :: content => if innerContentType = 0x16 then some [] else some content

def decryptTls12AEAD (k : RecordKeys) (ciphertext : Bytes) (contentType : UInt8) (seqNum : Nat) :
    Option Bytes :=
  let explicitNonceLen := if k.isChaCha then 0 else 8
  if ciphertext.length < explicitNonceLen + 16 then none
  else do
    let explicitNonce := ciphertext.take explicitNonceLen
    let payload := ciphertext.drop explicitNonceLen
    let nonce ← tls12Nonce k explicitNonce seqNum
    let plaintextLen := payload.length - 16
    (k.cipher c).decrypt k.key nonce (tls12Aad k contentType seqNum plaintextLen) payload

/-- The padding is looked at byte by byte, whatever is found. -/
def stripPadding (decrypted : Bytes) : Option Bytes := do
  let paddingByte ← decrypted.getLast?
  let paddingLen := paddingByte.toNat + 1
  if paddingLen > decrypted.length then none
  else
    let paddingGood := (decrypted.drop (decrypted.length - paddingLen)).foldl
      (fun good b => good ||| (b ^^^ paddingByte)) 0
    if paddingGood ≠ 0 then none else some (decrypted.take (decrypted.length - paddingLen))

def decryptTls12CBC (k : RecordKeys) (ciphertext : Bytes) (contentType : UInt8) (seqNum : Nat) :
    Option Bytes :=
  if ciphertext.length < 32 then none
  else
    let iv := ciphertext.take 16
    let encrypted := ciphertext.drop 16
    if encrypted.length % 16 ≠ 0 then none
    else do
      let decrypted ← stripPadding (c.aesCbc.decrypt k.key iv encrypted)
      let macSize := TlsCipherSuite.macLength k.cipherSuite
      if decrypted.length < macSize then none
      else
        let payload := decrypted.take (decrypted.length - macSize)
        let receivedMAC := decrypted.drop (decrypted.length - macSize)
        let useSHA384 := TlsCipherSuite.usesSHA384 k.cipherSuite
        let useSHA256 := TlsCipherSuite.cbcUsesSHA256 k.cipherSuite
        let expectedMAC :=
          tls10MAC c k.macKey seqNum contentType k.tlsVersion payload useSHA384 useSHA256
        if receivedMAC = expectedMAC then some payload else none

def decryptTls12Record (k : RecordKeys) (ciphertext header : Bytes) (seqNum : Nat) : Option Bytes :=
  match header with
  | [] => none
  | contentType :: _ =>
    if k.isAEAD then decryptTls12AEAD c k ciphertext contentType seqNum
    else decryptTls12CBC c k ciphertext contentType seqNum

def decryptTLSRecord (k : RecordKeys) (ciphertext header : Bytes) (seqNum : Nat) : Option Bytes :=
  if k.isTls13 then decryptTls13Record c k ciphertext header seqNum
  else decryptTls12Record c k ciphertext header seqNum

/-- What `buildTLSRecords` allows for around each plaintext. -/
def maxOverheadPerRecord (k : RecordKeys) : Nat :=
  if k.isTls13 then 22 else if !k.isAEAD then 85 else 29

end

-- ----
-- Sealing

def sealedRecord (versionHi versionLo : UInt8) (payload plaintext : Bytes)
    (h : payload.length < 65536) : SealedRecord where
  record := ⟨0x17, recordHeader 0x17 versionHi versionLo payload.length, payload⟩
  plaintext := plaintext
  type_eq := rfl
  wellFormed := ⟨versionHi, versionLo, _, _, rfl, be16_ofNat h⟩

theorem length_sealedRecord {versionHi versionLo : UInt8} {payload plaintext : Bytes}
    (h : payload.length < 65536) :
    (sealedRecord versionHi versionLo payload plaintext h).bytes.length = payload.length + 5 := by
  simp only [SealedRecord.bytes, Record.bytes, sealedRecord, recordHeader, List.length_append,
    List.length_cons, List.length_nil]
  omega

/-- The record is what the sender builds of a plaintext, within the overhead, and the peer
opens it. -/
structure Seals (c : RecordCrypto) (randomIV : Nat → Vector UInt8 16) (k : RecordKeys)
    (plaintext : Bytes) (seqNum : Nat) (r : SealedRecord) : Prop where
  plaintext_eq : r.plaintext = plaintext
  built : encryptAndBuildTLSRecord c randomIV k plaintext seqNum = some r.bytes
  opened : decryptTLSRecord c k r.record.payload r.record.header seqNum = some plaintext
  length_le : r.bytes.length ≤ plaintext.length + maxOverheadPerRecord k

@[simp] theorem length_seqToBytes (seqNum : Nat) : (seqToBytes seqNum).length = 8 := by
  simp [seqToBytes]

theorem tls13UnwrapContent_append (content : Bytes) {contentType : UInt8} (h : contentType ≠ 0) :
    PacketUtil.tls13UnwrapContent (content ++ [contentType]) = some (contentType :: content) := by
  simp [PacketUtil.tls13UnwrapContent, h]

section

variable {c : RecordCrypto} {k : RecordKeys} {plaintext : Bytes}

theorem encryptTls13Record_seals (randomIV : Nat → Vector UInt8 16) (htls : k.isTls13 = true)
    (hlen : plaintext.length ≤ 16384) (seqNum : Nat) :
    ∃ r, Seals c randomIV k plaintext seqNum r := by
  have hiv : k.iv.length = 12 := k.iv_length (Or.inl (by simpa [RecordKeys.isTls13] using htls))
  obtain ⟨nonce, hnonce⟩ : ∃ nonce, PacketUtil.xorNonce k.iv seqNum = some nonce :=
    ⟨_, if_pos hiv⟩
  let aad := recordHeader 0x17 0x03 0x03 (plaintext.length + 1 + 16)
  let encrypted := (k.cipher c).encrypt k.key nonce aad (plaintext ++ [0x17])
  have hencrypted : encrypted.length = plaintext.length + 1 + 16 := by
    simp [encrypted]
  refine ⟨sealedRecord 0x03 0x03 encrypted plaintext (by omega), rfl, ?_, ?_, ?_⟩
  · rw [encryptAndBuildTLSRecord, if_pos htls, encryptTls13Record, hnonce]
    rfl
  · rw [decryptTLSRecord, if_pos htls]
    show decryptTls13Record c k encrypted (recordHeader 0x17 0x03 0x03 encrypted.length) seqNum = _
    rw [decryptTls13Record, if_neg (by omega), hnonce, hencrypted]
    show (do
      let decrypted ← (k.cipher c).decrypt k.key nonce aad encrypted
      _) = _
    simp [encrypted, aad, tls13UnwrapContent_append]
  · rw [length_sealedRecord, maxOverheadPerRecord, if_pos htls]
    omega

/-- An AEAD record of TLS 1.2. The peer finds the nonce the sender used: from its own count
for ChaCha20, in front of the ciphertext for AES-GCM. -/
theorem decryptTls12AEAD_encrypt (c : RecordCrypto) (k : RecordKeys) (plaintext : Bytes)
    (contentType : UInt8) (seqNum : Nat) :
    ∃ payload, payload.length ≤ plaintext.length + 24 ∧
      encryptTls12AEAD c k plaintext contentType seqNum =
        some (recordHeader contentType k.versionHi k.versionLo payload.length ++ payload) ∧
      decryptTls12AEAD c k payload contentType seqNum = some plaintext := by
  let explicitNonce := if k.isChaCha then [] else seqToBytes seqNum
  have hexplicit : explicitNonce.length = if k.isChaCha then 0 else 8 := by
    simp only [explicitNonce]
    split
    · rfl
    · exact length_seqToBytes seqNum
  obtain ⟨nonce, hnonce⟩ : ∃ nonce, tls12Nonce k explicitNonce seqNum = some nonce := by
    unfold tls12Nonce
    by_cases hchacha : k.isChaCha = true
    · have hiv : k.iv.length = 12 := k.iv_length (Or.inr hchacha)
      rw [if_pos hchacha]
      exact ⟨_, if_neg (by omega)⟩
    · rw [if_neg hchacha]
      exact ⟨_, rfl⟩
  let encrypted :=
    (k.cipher c).encrypt k.key nonce (tls12Aad k contentType seqNum plaintext.length) plaintext
  have hencrypted : encrypted.length = plaintext.length + 16 := by
    simp [encrypted]
  refine ⟨explicitNonce ++ encrypted, ?_, ?_, ?_⟩
  · rw [List.length_append, hexplicit, hencrypted]
    split <;> omega
  · rw [encryptTls12AEAD]
    show (tls12Nonce k explicitNonce seqNum).bind _ = _
    rw [hnonce]
    rfl
  · rw [decryptTls12AEAD, ← hexplicit, if_neg (by rw [List.length_append]; omega), List.take_left,
      List.drop_left]
    show (tls12Nonce k explicitNonce seqNum).bind _ = _
    rw [hnonce]
    show (k.cipher c).decrypt _ _ (tls12Aad k contentType seqNum (encrypted.length - 16)) _ = _
    rw [hencrypted, Nat.add_sub_cancel]
    exact (k.cipher c).decrypt_encrypt _ _ _ _

theorem encryptTls12AEAD_seals (randomIV : Nat → Vector UInt8 16) (htls : k.isTls13 = false)
    (haead : k.isAEAD = true) (hlen : plaintext.length ≤ 16384) (seqNum : Nat) :
    ∃ r, Seals c randomIV k plaintext seqNum r := by
  obtain ⟨payload, hpayload, hbuilt, hopened⟩ :=
    decryptTls12AEAD_encrypt c k plaintext 0x17 seqNum
  refine ⟨sealedRecord k.versionHi k.versionLo payload plaintext (by omega), rfl, ?_, ?_, ?_⟩
  · rw [encryptAndBuildTLSRecord, if_neg (by rw [htls]; decide), encryptTls12Record, if_pos haead,
      hbuilt]
    rfl
  · rw [decryptTLSRecord, if_neg (by rw [htls]; decide)]
    show decryptTls12Record c k payload (0x17 :: _) seqNum = _
    rw [decryptTls12Record, if_pos haead, hopened]
  · rw [length_sealedRecord, maxOverheadPerRecord, if_neg (by rw [htls]; decide),
      if_neg (by rw [haead]; decide)]
    omega

/-! ### CBC -/

/-- The length that the peer cuts off is that of the MAC the sender appends. -/
theorem length_tls10MAC {suite : Nat} (h : suite ∈ TlsCipherSuite.cbcSuites) (macKey : Bytes)
    (seqNum : Nat) (contentType : UInt8) (protocolVersion : Nat) (payload : Bytes) :
    (tls10MAC c macKey seqNum contentType protocolVersion payload
      (TlsCipherSuite.usesSHA384 suite) (TlsCipherSuite.cbcUsesSHA256 suite)).length =
      TlsCipherSuite.macLength suite := by
  have hsuites : ∀ suite ∈ TlsCipherSuite.cbcSuites, HmacAlgorithm.length
      (if TlsCipherSuite.usesSHA384 suite then .hmacSHA384
        else if TlsCipherSuite.cbcUsesSHA256 suite then .hmacSHA256 else .hmacSHA1) =
      TlsCipherSuite.macLength suite := by
    decide
  rw [tls10MAC, c.length_hmac]
  exact hsuites suite h

theorem macLength_le (suite : Nat) : TlsCipherSuite.macLength suite ≤ 48 := by
  unfold TlsCipherSuite.macLength
  repeat' split
  all_goals decide

/-- A padding that says its own length is stripped. -/
theorem stripPadding_append (data : Bytes) {n : Nat} (hn : n < 256) :
    stripPadding (data ++ List.replicate (n + 1) (UInt8.ofNat n)) = some data := by
  have hbyte : (UInt8.ofNat n).toNat = n := by
    rw [UInt8.toNat_ofNat']
    exact Nat.mod_eq_of_lt hn
  have hlast : (data ++ List.replicate (n + 1) (UInt8.ofNat n)).getLast? =
      some (UInt8.ofNat n) := by
    rw [List.replicate_succ', ← List.append_assoc]
    exact List.getLast?_concat
  have hfold : ∀ m, (List.replicate m (UInt8.ofNat n)).foldl
      (fun good b => good ||| (b ^^^ UInt8.ofNat n)) 0 = 0 := by
    intro m
    induction m with
    | zero => rfl
    | succ m ih => simpa [List.replicate_succ] using ih
  rw [stripPadding, hlast]
  show (if (UInt8.ofNat n).toNat + 1 > _ then none else _) = _
  rw [hbyte, List.length_append, List.length_replicate, if_neg (by omega), Nat.add_sub_cancel,
    List.drop_left, hfold, if_neg (by decide), List.take_left]

theorem decryptTls12CBC_encrypt (c : RecordCrypto) (randomIV : Nat → Vector UInt8 16)
    (hsuite : k.cipherSuite ∈ TlsCipherSuite.cbcSuites) (plaintext : Bytes) (contentType : UInt8)
    (seqNum : Nat) :
    ∃ payload, payload.length ≤ plaintext.length + 80 ∧
      encryptTls12CBC c randomIV k plaintext contentType seqNum =
        some (recordHeader contentType k.versionHi k.versionLo payload.length ++ payload) ∧
      decryptTls12CBC c k payload contentType seqNum = some plaintext := by
  let mac := tls10MAC c k.macKey seqNum contentType k.tlsVersion plaintext
    (TlsCipherSuite.usesSHA384 k.cipherSuite) (TlsCipherSuite.cbcUsesSHA256 k.cipherSuite)
  have hmac : mac.length = TlsCipherSuite.macLength k.cipherSuite :=
    length_tls10MAC hsuite _ _ _ _ _
  have hmacLe := macLength_le k.cipherSuite
  -- one to sixteen bytes of padding
  obtain ⟨n, hn, hlast⟩ : ∃ n, 16 - (plaintext ++ mac).length % 16 = n + 1 ∧ n < 16 :=
    ⟨15 - (plaintext ++ mac).length % 16, by omega, by omega⟩
  let padded := plaintext ++ mac ++ List.replicate (n + 1) (UInt8.ofNat n)
  have hpadded : padded.length = plaintext.length + mac.length + (n + 1) := by
    simp only [padded, List.length_append, List.length_replicate]
  have hblocks : padded.length % 16 = 0 := by
    rw [List.length_append] at hn
    omega
  let iv := (randomIV seqNum).toList
  have hiv : iv.length = 16 := Vector.length_toList
  let encrypted := c.aesCbc.encrypt k.key iv padded
  have hencrypted : encrypted.length = padded.length := c.aesCbc.length_encrypt _ _ _ hblocks
  have hpayload : (iv ++ encrypted).length = 16 + padded.length := by
    rw [List.length_append, hiv, hencrypted]
  refine ⟨iv ++ encrypted, by omega, ?_, ?_⟩
  · unfold encryptTls12CBC
    simp only
    rw [hn, Nat.add_sub_cancel]
  · rw [decryptTls12CBC, if_neg (by omega), List.take_left' hiv, List.drop_left' hiv,
      if_neg (by omega), c.aesCbc.decrypt_encrypt _ _ _ hblocks, stripPadding_append _ (by omega)]
    show (if (plaintext ++ mac).length < _ then none else _) = _
    rw [← hmac, if_neg (by simp), List.length_append, Nat.add_sub_cancel, List.take_left,
      List.drop_left]
    exact if_pos rfl

theorem encryptTls12CBC_seals (randomIV : Nat → Vector UInt8 16) (htls : k.isTls13 = false)
    (haead : k.isAEAD = false) (hlen : plaintext.length ≤ 16384) (seqNum : Nat) :
    ∃ r, Seals c randomIV k plaintext seqNum r := by
  have hsuite : k.cipherSuite ∈ TlsCipherSuite.cbcSuites := by
    rcases k.suite_known with h | h | h
    · rw [RecordKeys.isTls13, decide_eq_false_iff_not] at htls
      exact absurd h htls
    · rw [RecordKeys.isAEAD, h] at haead
      cases haead
    · exact h
  obtain ⟨payload, hpayload, hbuilt, hopened⟩ :=
    decryptTls12CBC_encrypt c randomIV hsuite plaintext 0x17 seqNum
  refine ⟨sealedRecord k.versionHi k.versionLo payload plaintext (by omega), rfl, ?_, ?_, ?_⟩
  · rw [encryptAndBuildTLSRecord, if_neg (by rw [htls]; decide), encryptTls12Record,
      if_neg (by rw [haead]; decide), hbuilt]
    rfl
  · rw [decryptTLSRecord, if_neg (by rw [htls]; decide)]
    show decryptTls12Record c k payload (0x17 :: _) seqNum = _
    rw [decryptTls12Record, if_neg (by rw [haead]; decide), hopened]
  · rw [length_sealedRecord, maxOverheadPerRecord, if_neg (by rw [htls]; decide),
      if_pos (by rw [haead]; decide)]
    omega

/-- All three ways seal. -/
theorem encryptAndBuildTLSRecord_seals (c : RecordCrypto) (randomIV : Nat → Vector UInt8 16)
    (k : RecordKeys) (hlen : plaintext.length ≤ 16384) (seqNum : Nat) :
    ∃ r, Seals c randomIV k plaintext seqNum r := by
  by_cases htls : k.isTls13 = true
  · exact encryptTls13Record_seals randomIV htls hlen seqNum
  rw [Bool.not_eq_true] at htls
  by_cases haead : k.isAEAD = true
  · exact encryptTls12AEAD_seals randomIV htls haead hlen seqNum
  · exact encryptTls12CBC_seals randomIV htls (by simpa using haead) hlen seqNum

end

end Anywhere.Tls
