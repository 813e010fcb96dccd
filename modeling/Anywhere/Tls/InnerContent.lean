import Mathlib.Data.List.TakeWhile
import Anywhere.Tls.RecordCipher

/-!
# Anywhere — inner content types

A record of TLS 1.3 has its content type inside, behind the content and in front of zeros.
`decryptTls13Record` drops the content of a handshake record and returns that of any other one,
so `processBuffer` delivers an alert like application data.

* `receive_only_applicationData_iff` — when that is the application data in front of the first
  alert.
-/

namespace Anywhere.Tls

open List

-- ----
-- The peer's records

inductive InnerContentType where
  | alert
  | handshake
  | applicationData
  deriving DecidableEq, Repr

def InnerContentType.code : InnerContentType → UInt8
  | .alert => 0x15
  | .handshake => 0x16
  | .applicationData => 0x17

theorem InnerContentType.code_ne_zero (type : InnerContentType) : type.code ≠ 0 := by
  cases type <;> decide

theorem InnerContentType.code_eq_handshake {type : InnerContentType} :
    type.code = 0x16 ↔ type = .handshake := by
  cases type <;> decide

/-- What is sealed in a record: the content, its type and zeros, short enough for the length
field. -/
structure InnerRecord where
  content : Bytes
  contentType : InnerContentType
  padding : Nat := 0
  fits : content.length + 1 + padding + 16 < 65536

namespace InnerRecord

/-- `TLSInnerPlaintext`. -/
def plaintext (r : InnerRecord) : Bytes :=
  r.content ++ r.contentType.code :: List.replicate r.padding 0

theorem length_plaintext (r : InnerRecord) :
    r.plaintext.length = r.content.length + 1 + r.padding := by
  rw [plaintext, length_append, length_cons, length_replicate]
  omega

def isAlert (r : InnerRecord) : Bool := r.contentType = .alert

/-- What `decryptTls13Record` makes of it. -/
def delivered (r : InnerRecord) : Bytes :=
  if r.contentType = .handshake then [] else r.content

def applicationData (r : InnerRecord) : Bytes :=
  if r.contentType = .applicationData then r.content else []

end InnerRecord

section

variable (c : RecordCrypto) (k : RecordKeys)

def sealInner (seqNum : Nat) (r : InnerRecord) : Option Bytes := do
  let nonce ← PacketUtil.xorNonce k.iv seqNum
  let header := recordHeader 0x17 0x03 0x03 (r.plaintext.length + 16)
  some (header ++ (k.cipher c).encrypt k.key nonce header r.plaintext)

/-- A stream of records, sealed with successive sequence numbers. -/
def sealStream : Nat → List InnerRecord → Option Bytes
  | _, [] => some []
  | seqNum, r :: rs => do
    let record ← sealInner c k seqNum r
    let behind ← sealStream (seqNum + 1) rs
    some (record ++ behind)

/-- The bytes meant for the caller: the application data in front of the first alert. -/
def applicationDataOf (rs : List InnerRecord) : Bytes :=
  (rs.takeWhile (!·.isAlert)).flatMap (·.applicationData)

end

-- ----
-- One record

theorem tls13UnwrapContent_padded (content : Bytes) {contentType : UInt8} (h : contentType ≠ 0)
    (padding : Nat) :
    PacketUtil.tls13UnwrapContent (content ++ contentType :: List.replicate padding 0) =
      some (contentType :: content) := by
  have hzeros : ∀ b ∈ (List.replicate padding (0 : UInt8)).reverse, (b == 0) = true := by
    intro b hb
    rw [mem_reverse, mem_replicate] at hb
    rw [hb.2]
    rfl
  rw [PacketUtil.tls13UnwrapContent, reverse_append, reverse_cons, append_assoc,
    dropWhile_append_of_pos hzeros]
  simp [h]

section

variable {c : RecordCrypto} {k : RecordKeys}

/-- What is returned of one record. -/
theorem decryptTLSRecord_sealInner (htls : k.isTls13 = true) {seqNum : Nat} {r : InnerRecord}
    {bytes : Bytes} (h : sealInner c k seqNum r = some bytes) :
    ∃ s : SealedRecord, s.bytes = bytes ∧ s.plaintext = r.delivered ∧
      decryptTLSRecord c k s.record.payload s.record.header seqNum = some r.delivered := by
  have hfits := r.fits
  have hlength := r.length_plaintext
  rw [sealInner] at h
  obtain ⟨nonce, hnonce, hbytes⟩ := Option.bind_eq_some_iff.mp h
  let header := recordHeader 0x17 0x03 0x03 (r.plaintext.length + 16)
  let payload := (k.cipher c).encrypt k.key nonce header r.plaintext
  have hpayload : payload.length = r.plaintext.length + 16 := by
    simp [payload]
  refine ⟨sealedRecord 0x03 0x03 payload r.delivered (by omega), ?_, rfl, ?_⟩
  · rw [← Option.some.inj hbytes]
    show recordHeader 0x17 0x03 0x03 payload.length ++ payload = header ++ payload
    rw [hpayload]
  · have hne : r.plaintext ≠ [] := by
      intro hnil
      rw [hnil, length_nil] at hlength
      omega
    have hopened : (k.cipher c).decrypt k.key nonce header payload = some r.plaintext :=
      (k.cipher c).decrypt_encrypt k.key nonce header r.plaintext
    have hunwrap : PacketUtil.tls13UnwrapContent r.plaintext =
        some (r.contentType.code :: r.content) :=
      tls13UnwrapContent_padded r.content r.contentType.code_ne_zero r.padding
    rw [decryptTLSRecord, if_pos htls]
    show decryptTls13Record c k payload (recordHeader 0x17 0x03 0x03 payload.length) seqNum = _
    rw [decryptTls13Record, if_neg (by omega), hnonce, hpayload]
    simp only [Option.bind_eq_bind, Option.bind_some]
    change ((k.cipher c).decrypt k.key nonce header payload).bind _ = _
    rw [hopened, Option.bind_some, if_neg hne, hunwrap, Option.bind_some, InnerRecord.delivered]
    simp only [InnerContentType.code_eq_handshake]
    split <;> rfl

-- ----
-- A stream of them

theorem opens_sealStream (htls : k.isTls13 = true) {rs : List InnerRecord} {seqNum : Nat}
    {bytes : Bytes} (h : sealStream c k seqNum rs = some bytes) :
    ∃ sealedRecords : List SealedRecord, sealedRecords.flatMap SealedRecord.bytes = bytes ∧
      sealedRecords.flatMap SealedRecord.plaintext = rs.flatMap InnerRecord.delivered ∧
      Opens (decryptTLSRecord c k) seqNum sealedRecords := by
  induction rs generalizing seqNum bytes with
  | nil =>
    obtain rfl : [] = bytes := Option.some.inj h
    exact ⟨[], rfl, rfl, trivial⟩
  | cons r rs ih =>
    rw [sealStream] at h
    obtain ⟨record, hrecord, h⟩ := Option.bind_eq_some_iff.mp h
    obtain ⟨behind, hbehind, h⟩ := Option.bind_eq_some_iff.mp h
    obtain ⟨s, hbytes, hplaintext, hopened⟩ := decryptTLSRecord_sealInner htls hrecord
    obtain ⟨ss, hbytess, hplaintexts, hopens⟩ := ih hbehind
    refine ⟨s :: ss, ?_, ?_, ?_, hopens⟩
    · rw [flatMap_cons, hbytes, hbytess]
      exact Option.some.inj h
    · rw [flatMap_cons, flatMap_cons, hplaintext, hplaintexts]
    · rw [hplaintext]
      exact hopened

/-- What `receive` returns of a stream until the socket is closed, however it is cut. -/
theorem receiveAll_sealStream (htls : k.isTls13 = true) {rs : List InnerRecord}
    {t : RecordConnection}
    (h : sealStream c k t.serverSeqNum rs = some (t.receiveBuffer ++ t.socket.flatten)) :
    (receiveAll (decryptTLSRecord c k) t).1.flatten = rs.flatMap InnerRecord.delivered := by
  obtain ⟨ss, hbytes, hplaintext, hopens⟩ := opens_sealStream htls h
  obtain ⟨batches, hall, hflatten⟩ := Carries.receiveAll ⟨hbytes.symm, hopens⟩
  rw [hall, hflatten, hplaintext]

/-- All that is delivered is meant for the caller just when nothing is delivered from the first
alert on. -/
theorem delivered_eq_applicationDataOf_iff (rs : List InnerRecord) :
    rs.flatMap InnerRecord.delivered = applicationDataOf rs ↔
      ∀ r ∈ rs.dropWhile (!·.isAlert), r.contentType ≠ .handshake → r.content = [] := by
  -- in front of the first alert there is only application data and what is dropped
  have hfront : (rs.takeWhile (!·.isAlert)).flatMap InnerRecord.delivered =
      applicationDataOf rs := by
    rw [applicationDataOf]
    refine flatMap_congr fun r hr => ?_
    have hnot := mem_takeWhile_imp hr
    rw [InnerRecord.isAlert] at hnot
    rw [InnerRecord.delivered, InnerRecord.applicationData]
    cases htype : r.contentType with
    | alert => simp [htype] at hnot
    | handshake => rfl
    | applicationData => rfl
  have hsplit : rs.flatMap InnerRecord.delivered = applicationDataOf rs ++
      (rs.dropWhile (!·.isAlert)).flatMap InnerRecord.delivered := by
    rw [← hfront, ← flatMap_append, takeWhile_append_dropWhile]
  rw [hsplit, append_right_eq_self, flatMap_eq_nil_iff]
  refine forall₂_congr fun r _ => ?_
  rw [InnerRecord.delivered]
  split
  · rename_i htype
    exact ⟨fun _ hne => absurd htype hne, fun _ => rfl⟩
  · rename_i htype
    exact ⟨fun h _ => h, fun h => h htype⟩

/-- Only application data reaches the caller, unless an alert, or a record behind it that is not
a handshake record, has content. -/
theorem receive_only_applicationData_iff (htls : k.isTls13 = true) {rs : List InnerRecord}
    {t : RecordConnection}
    (h : sealStream c k t.serverSeqNum rs = some (t.receiveBuffer ++ t.socket.flatten)) :
    (receiveAll (decryptTLSRecord c k) t).1.flatten = applicationDataOf rs ↔
      ∀ r ∈ rs.dropWhile (!·.isAlert), r.contentType ≠ .handshake → r.content = [] := by
  rw [receiveAll_sealStream htls h]
  exact delivered_eq_applicationDataOf_iff rs

end

/-- Keys of TLS 1.3 under which a record can be written down. -/
def plainKeys : RecordKeys where
  key := []
  iv := List.replicate 12 0
  macKey := []
  cipherSuite := 0x1301
  tlsVersion := 0x0304
  iv_length := fun _ => rfl
  suite_known := Or.inl (Nat.le_refl _)

/-- Ciphers that leave the text in sight. -/
def plainCrypto : RecordCrypto where
  aesGcm := .toy
  chaCha20Poly1305 := .toy
  aesCbc := .toy
  hmac algo _ _ := List.replicate algo.length 0
  length_hmac _ _ _ := length_replicate

def dataThenCloseNotify : List InnerRecord :=
  [⟨[7], .applicationData, 0, by decide⟩, ⟨[1, 0], .alert, 0, by decide⟩]

/-- A stream that arrives at once. -/
def connectionOf (rs : List InnerRecord) : RecordConnection :=
  { socket := [(sealStream plainCrypto plainKeys 0 rs).getD []] }

theorem receive_data_and_handshake :
    (receiveAll (decryptTLSRecord plainCrypto plainKeys) (connectionOf
        [⟨[7], .applicationData, 0, by decide⟩, ⟨[4], .handshake, 3, by decide⟩])).1.flatten =
      applicationDataOf
        [⟨[7], .applicationData, 0, by decide⟩, ⟨[4], .handshake, 3, by decide⟩] :=
  (receive_only_applicationData_iff (c := plainCrypto) (k := plainKeys) rfl (by decide)).mpr
    (by decide)

/-- The two bytes of a `close_notify` are delivered. -/
theorem close_notify_delivered : ¬ ∀ (c : RecordCrypto) (k : RecordKeys), k.isTls13 = true →
    ∀ (rs : List InnerRecord) (t : RecordConnection),
      sealStream c k t.serverSeqNum rs = some (t.receiveBuffer ++ t.socket.flatten) →
      (receiveAll (decryptTLSRecord c k) t).1.flatten = applicationDataOf rs := by
  intro h
  have hsealed : sealStream plainCrypto plainKeys (connectionOf dataThenCloseNotify).serverSeqNum
      dataThenCloseNotify = some ((connectionOf dataThenCloseNotify).receiveBuffer ++
        (connectionOf dataThenCloseNotify).socket.flatten) := by
    decide
  have hclaim := h plainCrypto plainKeys rfl dataThenCloseNotify _ hsealed
  rw [receiveAll_sealStream rfl hsealed] at hclaim
  exact absurd hclaim (by decide)

end Anywhere.Tls
