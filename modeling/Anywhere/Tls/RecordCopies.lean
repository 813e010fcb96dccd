import Anywhere.Lib.Text
import Anywhere.Tls.RecordWriter

/-!
# Anywhere — the two copies of TLS 1.2 record protection

`TlsClient` protects and opens the Finished messages with functions of its own, and hands
its keys to `TlsRecordConnection` for everything behind them. The two agree:

* `decryptTls12HandshakeRecord_eq` — they open the same records, with the same result,
  although only one of them looks at the alignment of a CBC ciphertext.
* `encryptTls12HandshakeRecord_eq` — they build the same bytes, from the same IV with CBC.
* `decryptAll_encryptAll` — a run of records, each from either copy, is opened by the peer
  with either copy.

`xorNonce` and `seqToBytes` are private to both classes and the same word for word; they
stand here once.
-/

namespace Anywhere.Tls

open Lib (Text)

-- ----
-- Keys

namespace TlsCipherSuite

def keyLength (suite : Nat) : Nat :=
  if [0x1301, 0xC02B, 0xC02F, 0x009C, 0xC009, 0xC013, 0xC023, 0xC027, 0x002F, 0x003C].contains suite
  then 16 else 32

def ivLength (suite : Nat) : Nat :=
  if isChaCha20 suite then 12 else if isAEAD suite then 4 else 16

/-- The suites of TLS 1.2 with a name. -/
def tls12Suites : List Nat :=
  [0xC02B, 0xC02C, 0xC02F, 0xC030, 0xCCA9, 0xCCA8, 0x009C, 0x009D] ++ cbcSuites

end TlsCipherSuite

structure Tls12Suite where
  value : Nat
  named : value ∈ TlsCipherSuite.tls12Suites

theorem Tls12Suite.family (suite : Tls12Suite) : TlsCipherSuite.isAEAD suite.value = true ∨
    TlsCipherSuite.isAEAD suite.value = false ∧ suite.value ∈ TlsCipherSuite.cbcSuites := by
  have hsuites : ∀ value ∈ TlsCipherSuite.tls12Suites, TlsCipherSuite.isAEAD value = true ∨
      TlsCipherSuite.isAEAD value = false ∧ value ∈ TlsCipherSuite.cbcSuites := by
    decide
  exact hsuites _ suite.named

/-- The keys of both directions, of the lengths that the suite asks for. -/
structure Tls12Keys (suite : Tls12Suite) where
  clientMACKey : Bytes
  serverMACKey : Bytes
  clientKey : Bytes
  serverKey : Bytes
  clientIV : Bytes
  serverIV : Bytes
  macKey_length : clientMACKey.length = TlsCipherSuite.macLength suite.value ∧
    serverMACKey.length = TlsCipherSuite.macLength suite.value
  key_length : clientKey.length = TlsCipherSuite.keyLength suite.value ∧
    serverKey.length = TlsCipherSuite.keyLength suite.value
  iv_length : clientIV.length = TlsCipherSuite.ivLength suite.value ∧
    serverIV.length = TlsCipherSuite.ivLength suite.value

-- ----
-- The copy of `TlsClient`

namespace TlsClient

variable (c : RecordCrypto) {suite : Tls12Suite}

/-- `doFinal` of "AES/CBC/NoPadding", which throws unless it is given whole blocks. -/
def doFinalCbc (decrypt : Bytes → Bytes → Bytes → Bytes) (key iv text : Bytes) : Option Bytes :=
  if text.length % 16 = 0 then some (decrypt key iv text) else none

def encryptTls12HandshakeRecord (randomIV : Vector UInt8 16) (plaintext : Bytes)
    (contentType : UInt8) (seqNum : Nat) (keys : Tls12Keys suite) (version : Nat) : Option Bytes :=
  let versionHi := UInt8.ofNat (version / 256)
  let versionLo := UInt8.ofNat version
  let isAEAD := TlsCipherSuite.isAEAD suite.value
  let isChaCha := TlsCipherSuite.isChaCha20 suite.value
  if isAEAD then do
    let (nonce, explicitNonce) ←
      if isChaCha then (xorNonce keys.clientIV seqNum).map fun nonce => (nonce, [])
      else some (keys.clientIV ++ seqToBytes seqNum, seqToBytes seqNum)
    let aad := seqToBytes seqNum ++ recordHeader contentType versionHi versionLo plaintext.length
    let cipher := if isChaCha then c.chaCha20Poly1305 else c.aesGcm
    let encrypted := cipher.encrypt keys.clientKey nonce aad plaintext
    let recordPayloadLen := explicitNonce.length + encrypted.length
    some (recordHeader contentType versionHi versionLo recordPayloadLen ++
      explicitNonce ++ encrypted)
  else do
    let useSHA384 := TlsCipherSuite.usesSHA384 suite.value
    let useSHA256 := TlsCipherSuite.cbcUsesSHA256 suite.value
    let mac := tls10MAC c keys.clientMACKey seqNum contentType version plaintext useSHA384 useSHA256
    let data := plaintext ++ mac
    let blockSize := 16
    let paddingLen := blockSize - data.length % blockSize
    let paddingByte := UInt8.ofNat (paddingLen - 1)
    let padded := data ++ List.replicate paddingLen paddingByte
    let iv := randomIV.toList
    let encrypted ← doFinalCbc c.aesCbc.encrypt keys.clientKey iv padded
    let recordPayloadLen := blockSize + encrypted.length
    some (recordHeader contentType versionHi versionLo recordPayloadLen ++ iv ++ encrypted)

/-- The padding is good unless it is longer than the text or a byte of it differs. -/
def paddingGood (decrypted : Bytes) (paddingByte : UInt8) : UInt8 :=
  let paddingLen := paddingByte.toNat + 1
  if paddingLen > decrypted.length then 1
  else (decrypted.drop (decrypted.length - paddingLen)).foldl
    (fun good b => good ||| (b ^^^ paddingByte)) 0

def constantTimeEqual (a b : Bytes) : Bool :=
  if a.length ≠ b.length then false
  else (a.zipWith (· ^^^ ·) b).foldl (· ||| ·) 0 == 0

def decryptTls12HandshakeRecord (ciphertext : Bytes) (contentType : UInt8) (seqNum : Nat)
    (keys : Tls12Keys suite) (version : Nat) : Option Bytes :=
  let isAEAD := TlsCipherSuite.isAEAD suite.value
  let isChaCha := TlsCipherSuite.isChaCha20 suite.value
  if isAEAD then
    let explicitNonceLen := if isChaCha then 0 else 8
    if ciphertext.length < explicitNonceLen + 16 then none
    else do
      let explicitNonce := if isChaCha then [] else ciphertext.take explicitNonceLen
      let payload := ciphertext.drop explicitNonceLen
      let nonce ← if isChaCha then xorNonce keys.serverIV seqNum
        else some (keys.serverIV ++ explicitNonce)
      let plaintextLen := payload.length - 16
      let aad := seqToBytes seqNum ++
        recordHeader contentType (UInt8.ofNat (version / 256)) (UInt8.ofNat version) plaintextLen
      let cipher := if isChaCha then c.chaCha20Poly1305 else c.aesGcm
      cipher.decrypt keys.serverKey nonce aad payload
  else
    let blockSize := 16
    if ciphertext.length < blockSize * 2 then none
    else do
      let iv := ciphertext.take blockSize
      let encrypted := ciphertext.drop blockSize
      let decrypted ← doFinalCbc c.aesCbc.decrypt keys.serverKey iv encrypted
      let paddingByte ← decrypted.getLast?
      if paddingGood decrypted paddingByte ≠ 0 then none
      else
        let decrypted := decrypted.take (decrypted.length - (paddingByte.toNat + 1))
        let macSize := TlsCipherSuite.macLength suite.value
        if decrypted.length < macSize then none
        else
          let payload := decrypted.take (decrypted.length - macSize)
          let receivedMAC := decrypted.drop (decrypted.length - macSize)
          let useSHA384 := TlsCipherSuite.usesSHA384 suite.value
          let useSHA256 := TlsCipherSuite.cbcUsesSHA256 suite.value
          let expectedMAC :=
            tls10MAC c keys.serverMACKey seqNum contentType version payload useSHA384 useSHA256
          if receivedMAC.length ≠ expectedMAC.length ∨
              !constantTimeEqual receivedMAC expectedMAC then none
          else some payload

end TlsClient

-- ----
-- The connection

namespace Tls12Keys

variable {suite : Tls12Suite}

/-- One direction of the connection that `TlsClient` makes of its keys. -/
def direction (suite : Tls12Suite) (key iv macKey : Bytes)
    (h : iv.length = TlsCipherSuite.ivLength suite.value) : RecordKeys where
  key := key
  iv := iv
  macKey := macKey
  cipherSuite := suite.value
  tlsVersion := 0x0303
  iv_length hversion := by
    have hchacha : TlsCipherSuite.isChaCha20 suite.value = true := by
      rcases hversion with hversion | hchacha
      · exact absurd hversion (by decide)
      · exact hchacha
    rw [h, TlsCipherSuite.ivLength, if_pos hchacha]
  suite_known := Or.inr (suite.family.imp id And.right)

def client (keys : Tls12Keys suite) : RecordKeys :=
  direction suite keys.clientKey keys.clientIV keys.clientMACKey keys.iv_length.1

def server (keys : Tls12Keys suite) : RecordKeys :=
  direction suite keys.serverKey keys.serverIV keys.serverMACKey keys.iv_length.2

theorem client_versionHi (keys : Tls12Keys suite) : keys.client.versionHi = 0x03 :=
  show UInt8.ofNat (0x0303 / 256) = 0x03 by decide

theorem client_versionLo (keys : Tls12Keys suite) : keys.client.versionLo = 0x03 :=
  show UInt8.ofNat 0x0303 = 0x03 by decide

def mirrored (keys : Tls12Keys suite) : Tls12Keys suite where
  clientMACKey := keys.serverMACKey
  serverMACKey := keys.clientMACKey
  clientKey := keys.serverKey
  serverKey := keys.clientKey
  clientIV := keys.serverIV
  serverIV := keys.clientIV
  macKey_length := keys.macKey_length.symm
  key_length := keys.key_length.symm
  iv_length := keys.iv_length.symm

end Tls12Keys

-- ----
-- Agreement

namespace TlsClient

section

variable {c : RecordCrypto} {suite : Tls12Suite}

theorem foldl_or_eq_zero (bytes : Bytes) (b : UInt8) :
    bytes.foldl (· ||| ·) b = 0 ↔ b = 0 ∧ ∀ x ∈ bytes, x = 0 := by
  induction bytes generalizing b with
  | nil => simp
  | cons x bytes ih =>
    rw [List.foldl_cons, ih, UInt8.or_eq_zero_iff, List.forall_mem_cons, and_assoc]

/-- `constantTimeEqual` is equality. -/
theorem constantTimeEqual_iff (a b : Bytes) : constantTimeEqual a b = true ↔ a = b := by
  unfold constantTimeEqual
  by_cases hlen : a.length = b.length
  · rw [if_neg (not_not_intro hlen), beq_iff_eq, foldl_or_eq_zero, and_iff_right (Eq.refl _)]
    induction a generalizing b with
    | nil => simp [List.length_eq_zero_iff.1 hlen.symm]
    | cons x a ih =>
      cases b with
      | nil => cases hlen
      | cons y b =>
        have htail := ih b (by simpa using hlen)
        rw [List.zipWith_cons_cons, List.forall_mem_cons, UInt8.xor_eq_zero_iff, List.cons.injEq,
          htail]
  · rw [if_pos hlen]
    exact ⟨fun h => absurd h (by decide), fun h => absurd (congrArg _ h) hlen⟩

theorem stripPadding_eq (decrypted : Bytes) :
    stripPadding decrypted = decrypted.getLast?.bind fun paddingByte =>
      if paddingGood decrypted paddingByte ≠ 0 then none
      else some (decrypted.take (decrypted.length - (paddingByte.toNat + 1))) := by
  unfold stripPadding paddingGood
  cases decrypted.getLast? with
  | none => rfl
  | some paddingByte =>
    rw [Option.bind_eq_bind, Option.bind_some, Option.bind_some]
    dsimp only
    by_cases hlong : paddingByte.toNat + 1 > decrypted.length
    · rw [if_pos hlong, if_pos hlong, if_pos (by decide)]
    · rw [if_neg hlong, if_neg hlong]

theorem macCheck_eq (receivedMAC expectedMAC payload : Bytes) :
    (if receivedMAC.length ≠ expectedMAC.length ∨ !constantTimeEqual receivedMAC expectedMAC then
      none else some payload) = if receivedMAC = expectedMAC then some payload else none := by
  by_cases heq : receivedMAC = expectedMAC
  · rw [if_pos heq, if_neg]
    rintro (hlen | hdiff)
    · exact hlen (congrArg _ heq)
    · rw [(constantTimeEqual_iff _ _).2 heq] at hdiff
      cases hdiff
  · rw [if_neg heq, if_pos]
    rw [Bool.not_eq_true', ← Bool.not_eq_true, constantTimeEqual_iff]
    exact Or.inr heq

theorem decryptTls12HandshakeRecord_eq (c : RecordCrypto) (keys : Tls12Keys suite)
    (ciphertext : Bytes) (contentType : UInt8) (header : Bytes) (seqNum : Nat) :
    decryptTls12HandshakeRecord c ciphertext contentType seqNum keys 0x0303 =
      decryptTls12Record c keys.server ciphertext (contentType :: header) seqNum := by
  rw [decryptTls12Record]
  unfold decryptTls12HandshakeRecord
  by_cases haead : TlsCipherSuite.isAEAD suite.value = true
  · have hserver : keys.server.isAEAD = true := haead
    rw [if_pos haead, if_pos hserver, decryptTls12AEAD]
    by_cases hchacha : TlsCipherSuite.isChaCha20 suite.value = true
    · have hserver : keys.server.isChaCha = true := hchacha
      simp only [hchacha, hserver, tls12Nonce, RecordKeys.cipher, if_true]
      rfl
    · have hserver : ¬ keys.server.isChaCha = true := hchacha
      simp only [hchacha, hserver, tls12Nonce, RecordKeys.cipher]
      rfl
  · have hserver : ¬ keys.server.isAEAD = true := haead
    have hkey : keys.server.key = keys.serverKey := rfl
    rw [if_neg haead, if_neg hserver, decryptTls12CBC, hkey]
    dsimp only
    by_cases hshort : ciphertext.length < 32
    · rw [if_pos hshort, if_pos hshort]
    rw [if_neg hshort, if_neg hshort, doFinalCbc]
    by_cases hblocks : (ciphertext.drop 16).length % 16 = 0
    · rw [if_pos hblocks, if_neg (not_not_intro hblocks), stripPadding_eq]
      generalize c.aesCbc.decrypt keys.serverKey (ciphertext.take 16)
        (ciphertext.drop 16) = decrypted
      rw [Option.bind_eq_bind, Option.bind_some, Option.bind_eq_bind, Option.bind_assoc]
      refine Option.bind_congr fun paddingByte _ => ?_
      by_cases hgood : paddingGood decrypted paddingByte = 0
      · rw [if_neg (not_not_intro hgood), if_neg (not_not_intro hgood), Option.bind_some]
        refine if_congr Iff.rfl rfl (macCheck_eq _ _ _)
      · rw [if_pos hgood, if_pos hgood, Option.bind_none]
    · rw [if_neg hblocks, if_pos hblocks]
      rfl

theorem record_eq (contentType versionHi versionLo : UInt8) {front : Bytes}
    (encrypted : Bytes) {n : Nat} (hn : front.length = n) :
    recordHeader contentType versionHi versionLo (n + encrypted.length) ++ front ++ encrypted =
      recordHeader contentType versionHi versionLo (front ++ encrypted).length ++
        (front ++ encrypted) := by
  rw [List.length_append, hn, List.append_assoc]

theorem padded_blocks (data : Bytes) (b : UInt8) :
    (data ++ List.replicate (16 - data.length % 16) b).length % 16 = 0 := by
  rw [List.length_append, List.length_replicate]
  omega

theorem encryptTls12HandshakeRecord_eq (c : RecordCrypto) (randomIV : Nat → Vector UInt8 16)
    (keys : Tls12Keys suite) (plaintext : Bytes) (contentType : UInt8) (seqNum : Nat) :
    encryptTls12HandshakeRecord c (randomIV seqNum) plaintext contentType seqNum keys 0x0303 =
      encryptTls12Record c randomIV keys.client plaintext contentType seqNum := by
  rw [encryptTls12Record]
  unfold encryptTls12HandshakeRecord
  by_cases haead : TlsCipherSuite.isAEAD suite.value = true
  · have hclient : keys.client.isAEAD = true := haead
    rw [if_pos haead, if_pos hclient, encryptTls12AEAD]
    by_cases hchacha : TlsCipherSuite.isChaCha20 suite.value = true
    · have hclient : keys.client.isChaCha = true := hchacha
      have hiv : keys.client.iv = keys.clientIV := rfl
      simp only [hchacha, hclient, tls12Nonce, RecordKeys.cipher, if_true, hiv]
      cases xorNonce keys.clientIV seqNum with
      | none => rfl
      | some nonce => exact congrArg some (record_eq _ _ _ _ rfl)
    · have hclient : ¬ keys.client.isChaCha = true := hchacha
      simp only [hchacha, hclient, tls12Nonce, RecordKeys.cipher]
      exact congrArg some (record_eq _ _ _ _ rfl)
  · have hclient : ¬ keys.client.isAEAD = true := haead
    rw [if_neg haead, if_neg hclient, encryptTls12CBC]
    dsimp only
    rw [doFinalCbc, if_pos (padded_blocks _ _)]
    have hiv : (randomIV seqNum).toList.length = 16 := Vector.length_toList
    exact congrArg some (record_eq _ _ _ _ hiv)

end

end TlsClient

-- ----
-- One sequence of records

inductive RecordCopy where
  | tlsClient
  | tlsRecordConnection
  deriving Repr

structure OutgoingRecord where
  writer : RecordCopy
  contentType : UInt8
  plaintext : Bytes

section

variable (c : RecordCrypto) (randomIV : Nat → Vector UInt8 16) {suite : Tls12Suite}

def RecordCopy.encrypt (copy : RecordCopy) (keys : Tls12Keys suite) (plaintext : Bytes)
    (contentType : UInt8) (seqNum : Nat) : Option Bytes :=
  match copy with
  | .tlsClient =>
    TlsClient.encryptTls12HandshakeRecord c (randomIV seqNum) plaintext contentType
      seqNum keys 0x0303
  | .tlsRecordConnection =>
    encryptTls12Record c randomIV keys.client plaintext contentType seqNum

/-- The header of a record is its first five bytes. -/
def RecordCopy.decrypt (copy : RecordCopy) (keys : Tls12Keys suite) (record : Bytes)
    (seqNum : Nat) :
    Option Bytes :=
  let header := record.take 5
  let ciphertext := record.drop 5
  match copy with
  | .tlsClient => header.head?.bind fun contentType =>
    TlsClient.decryptTls12HandshakeRecord c ciphertext contentType seqNum keys 0x0303
  | .tlsRecordConnection => decryptTls12Record c keys.server ciphertext header seqNum

/-- The records under consecutive sequence numbers. -/
def encryptAll (keys : Tls12Keys suite) : Nat → List OutgoingRecord → Option (List Bytes)
  | _, [] => some []
  | seqNum, r :: rs => do
    let record ← r.writer.encrypt c randomIV keys r.plaintext r.contentType seqNum
    let records ← encryptAll keys (seqNum + 1) rs
    some (record :: records)

/-- What is read of them, each with the copy that is in charge at its number. -/
def decryptAll (keys : Tls12Keys suite) (reader : Nat → RecordCopy) :
    Nat → List Bytes → Option (List Bytes)
  | _, [] => some []
  | seqNum, record :: records => do
    let plaintext ← (reader seqNum).decrypt c keys record seqNum
    let plaintexts ← decryptAll keys reader (seqNum + 1) records
    some (plaintext :: plaintexts)

end

section

variable {c : RecordCrypto} {suite : Tls12Suite}

/-- What a connection sends, another one with the same keys opens. -/
theorem decryptTls12Record_encrypt (c : RecordCrypto) (randomIV : Nat → Vector UInt8 16)
    (keys : Tls12Keys suite) (plaintext : Bytes) (contentType : UInt8) (seqNum : Nat) :
    ∃ payload, payload.length ≤ plaintext.length + 80 ∧
      encryptTls12Record c randomIV keys.client plaintext contentType seqNum =
        some (recordHeader contentType 0x03 0x03 payload.length ++ payload) ∧
      ∀ header, decryptTls12Record c keys.client payload (contentType :: header) seqNum =
        some plaintext := by
  rcases suite.family with haead | ⟨haead, hsuite⟩
  · have hclient : keys.client.isAEAD = true := haead
    obtain ⟨payload, hlen, hbuilt, hopened⟩ :=
      decryptTls12AEAD_encrypt c keys.client plaintext contentType seqNum
    refine ⟨payload, by omega, ?_, fun header => ?_⟩
    · rw [encryptTls12Record, if_pos hclient, hbuilt, keys.client_versionHi, keys.client_versionLo]
    · rw [decryptTls12Record, if_pos hclient, hopened]
  · have hclient : ¬ keys.client.isAEAD = true := Bool.not_eq_true _ ▸ haead
    obtain ⟨payload, hlen, hbuilt, hopened⟩ :=
      decryptTls12CBC_encrypt c randomIV (k := keys.client) hsuite plaintext contentType seqNum
    refine ⟨payload, hlen, ?_, fun header => ?_⟩
    · rw [encryptTls12Record, if_neg hclient, hbuilt, keys.client_versionHi, keys.client_versionLo]
    · rw [decryptTls12Record, if_neg hclient, hopened]

theorem encrypt_eq (c : RecordCrypto) (randomIV : Nat → Vector UInt8 16) (writer : RecordCopy)
    (keys : Tls12Keys suite) (plaintext : Bytes) (contentType : UInt8) (seqNum : Nat) :
    writer.encrypt c randomIV keys plaintext contentType seqNum =
      encryptTls12Record c randomIV keys.client plaintext contentType seqNum := by
  cases writer with
  | tlsClient => exact TlsClient.encryptTls12HandshakeRecord_eq c randomIV keys _ _ _
  | tlsRecordConnection => rfl

theorem decrypt_eq (c : RecordCrypto) (reader : RecordCopy) (keys : Tls12Keys suite)
    (contentType versionHi versionLo : UInt8) (length : Nat) (payload : Bytes) (seqNum : Nat) :
    reader.decrypt c keys (recordHeader contentType versionHi versionLo length ++ payload) seqNum =
      decryptTls12Record c keys.server payload
        (recordHeader contentType versionHi versionLo length) seqNum := by
  cases reader with
  | tlsClient => exact TlsClient.decryptTls12HandshakeRecord_eq c keys payload contentType _ seqNum
  | tlsRecordConnection => rfl

theorem decrypt_encrypt (c : RecordCrypto) (randomIV : Nat → Vector UInt8 16)
    (writer reader : RecordCopy) (keys : Tls12Keys suite) (plaintext : Bytes) (contentType : UInt8)
    (seqNum : Nat) :
    ∃ payload, payload.length ≤ plaintext.length + 80 ∧
      writer.encrypt c randomIV keys plaintext contentType seqNum =
        some (recordHeader contentType 0x03 0x03 payload.length ++ payload) ∧
      reader.decrypt c keys.mirrored (recordHeader contentType 0x03 0x03 payload.length ++ payload)
        seqNum = some plaintext := by
  obtain ⟨payload, hlen, hbuilt, hopened⟩ :=
    decryptTls12Record_encrypt c randomIV keys plaintext contentType seqNum
  refine ⟨payload, hlen, ?_, ?_⟩
  · rw [encrypt_eq, hbuilt]
  · rw [decrypt_eq]
    exact hopened _

theorem decryptAll_encryptAll (c : RecordCrypto) (randomIV : Nat → Vector UInt8 16)
    (keys : Tls12Keys suite) (reader : Nat → RecordCopy) (seqNum : Nat) (rs : List OutgoingRecord) :
    ∃ records, encryptAll c randomIV keys seqNum rs = some records ∧
      decryptAll c keys.mirrored reader seqNum records = some (rs.map (·.plaintext)) := by
  induction rs generalizing seqNum with
  | nil => exact ⟨[], rfl, rfl⟩
  | cons r rs ih =>
    obtain ⟨records, hsent, hread⟩ := ih (seqNum + 1)
    obtain ⟨payload, -, hbuilt, hopened⟩ :=
      decrypt_encrypt c randomIV r.writer (reader seqNum) keys r.plaintext r.contentType seqNum
    let record := recordHeader r.contentType 0x03 0x03 payload.length ++ payload
    refine ⟨record :: records, ?_, ?_⟩
    · rw [encryptAll, hbuilt, hsent]
      rfl
    · rw [decryptAll, hopened, hread]
      rfl

/-- **The copies agree.** They open the same ciphertexts with the same result, build the
same records, and with the keys mirrored each opens what either of them builds, so that
records of both can follow each other. -/
theorem tls12_copies_agree (c : RecordCrypto) (randomIV : Nat → Vector UInt8 16)
    (suite : Tls12Suite) (keys : Tls12Keys suite) :
    (∀ (ciphertext : Bytes) (contentType : UInt8) (header : Bytes) (seqNum : Nat),
      TlsClient.decryptTls12HandshakeRecord c ciphertext contentType seqNum keys 0x0303 =
        decryptTls12Record c keys.server ciphertext (contentType :: header) seqNum) ∧
    (∀ (plaintext : Bytes) (contentType : UInt8) (seqNum : Nat),
      TlsClient.encryptTls12HandshakeRecord c (randomIV seqNum) plaintext contentType seqNum keys
          0x0303 =
        encryptTls12Record c randomIV keys.client plaintext contentType seqNum) ∧
    (∀ (writer reader : RecordCopy) (plaintext : Bytes) (contentType : UInt8) (seqNum : Nat),
      ∃ payload, payload.length ≤ plaintext.length + 80 ∧
        writer.encrypt c randomIV keys plaintext contentType seqNum =
          some (recordHeader contentType 0x03 0x03 payload.length ++ payload) ∧
        reader.decrypt c keys.mirrored
          (recordHeader contentType 0x03 0x03 payload.length ++ payload) seqNum = some plaintext) ∧
    ∀ (reader : Nat → RecordCopy) (seqNum : Nat) (rs : List OutgoingRecord),
      ∃ records, encryptAll c randomIV keys seqNum rs = some records ∧
        decryptAll c keys.mirrored reader seqNum records = some (rs.map (·.plaintext)) :=
  ⟨TlsClient.decryptTls12HandshakeRecord_eq c keys,
    TlsClient.encryptTls12HandshakeRecord_eq c randomIV keys,
    fun writer reader => decrypt_encrypt c randomIV writer reader keys,
    decryptAll_encryptAll c randomIV keys⟩

end

end Anywhere.Tls
