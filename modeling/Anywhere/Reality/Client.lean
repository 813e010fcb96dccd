import Anywhere.Reality.Certificate
import Anywhere.Tls.Client

/-!
# Anywhere — `RealityClient.connect`

The handshake of a `RealityClient`, from the first byte behind its ClientHello to
the connection it returns. The verdict on the server is the field
`serverCertVerified`: every certificate message that can be read sets it, and it
is looked at once the server's Finished was seen. The content of that Finished is
not looked at.

* `realityFlight` — the messages of the server's bytes, whatever the reads.
* `reality_authentication` — when a returned connection has a server that proved
  who it is.
-/

namespace Anywhere.Reality

open Tls List

variable {Cert Key : Type}

-- ----
-- The ServerHello

/-- `RealityError`, as far as the handshake throws it. -/
inductive RealityError where
  | handshakeFailed (msg : String)
  | authenticationFailed
  deriving DecidableEq

/-- What a `RealityClient` draws and derives before the first byte of the server
arrives. -/
structure RealitySession where
  authKey : Bytes
  storedClientHello : Bytes
  ephemeralPrivateKey : Bytes

/-- The record loop of `bufferContainsCompleteTlsRecord`. -/
def onlyCompleteRecords : Nat → Bool → Bytes → Bool
  | 0, advanced, _ => advanced
  | fuel + 1, advanced, buffer =>
    if 5 ≤ buffer.length then
      match takeRecord buffer with
      | none => false
      | some (_, rest) => onlyCompleteRecords fuel true rest
    else advanced

def bufferContainsCompleteTlsRecord (buffer : Bytes) : Bool :=
  onlyCompleteRecords buffer.length false buffer

/-- The record loop of `verifyServerResponse`. -/
def startsWithServerHello : Nat → Bytes → Bool
  | 0, _ => false
  | fuel + 1, data =>
    if 5 < data.length then
      if data.head? ≠ some 0x16 then false
      else
        match takeRecord data with
        | none => false
        | some (r, rest) =>
          if (r.payload ++ rest).head? = some 0x02 then true else startsWithServerHello fuel rest
    else false

/-- `verifyServerResponse`, with an `authKey`. -/
def verifyServerResponse (data : Bytes) : Bool := startsWithServerHello data.length data

/-- The extension loop of `parseServerHelloKotlin`: both groups, and the next
extension where the length of this one says. -/
def parseExtensionsKotlin (cipherSuite : Nat) : Nat → Nat → Bytes → Option ServerKeyShare
  | 0, _, _ => none
  | fuel + 1, left, q =>
    if 4 ≤ left then
      match q with
      | t1 :: t2 :: l1 :: l2 :: q =>
        let extDataLen := be16 l1 l2
        if be16 t1 t2 = 0x0033 then
          match q with
          | g1 :: g2 :: k1 :: k2 :: key =>
            if be16 g1 g2 = 0x001d ∧ be16 k1 k2 = 32 then
              if 32 ≤ key.length then some ⟨key.take 32, cipherSuite⟩ else none
            else if be16 g1 g2 = 0x11EC ∧ be16 k1 k2 = 1120 then
              if 1120 ≤ key.length then some ⟨key.take 1120, cipherSuite⟩ else none
            else parseExtensionsKotlin cipherSuite fuel (left - 4 - extDataLen) (q.drop extDataLen)
          | _ => none
        else parseExtensionsKotlin cipherSuite fuel (left - 4 - extDataLen) (q.drop extDataLen)
      | _ => none
    else none

/-- `parseServerHello`: an X25519 share the native way, else the hybrid one. -/
def parseServerHello (data : Bytes) : Option ServerKeyShare :=
  match PacketUtil.parseServerHello data with
  | some share => some share
  | none => PacketUtil.parseRecords parseExtensionsKotlin data.length data

/-- The record loop of `extractServerHelloMessage`: the content of the first
handshake record that starts with a ServerHello, complete or not. -/
def extractServerHello : Nat → Bytes → Bytes
  | 0, _ => []
  | fuel + 1, buffer =>
    if 5 < buffer.length then
      match buffer with
      | contentType :: _ :: _ :: l1 :: l2 :: rest =>
        if contentType = 0x16 ∧ rest.head? = some 0x02 then rest.take (be16 l1 l2)
        else extractServerHello fuel (rest.drop (be16 l1 l2))
      | _ => []
    else []

def extractServerHelloMessage (buffer : Bytes) : Bytes := extractServerHello buffer.length buffer

-- ----
-- The encrypted flight

/-- The fields and locals `consumeRemainingHandshake` works on, and the messages
it handled. -/
structure RealityFlight where
  serverHandshakeSeqNum : Nat := 0
  fullTranscript : Bytes
  serverCertVerified : Bool := false
  foundServerFinished : Bool := false
  received : List HandshakeMessage := []

/-- A handshake that returned, with what it went through. -/
structure Established (Key : Type) where
  connection : TlsRecordConnection Key
  /-- The transcript of the two hellos. -/
  helloTranscript : Bytes
  handshakeKeys : Key
  received : List HandshakeMessage

section Model

variable (cr : RealityCrypto Cert Key) (c : RealitySession)

/-- One message of the flight; `true` when its handling throws. -/
def handleMessage (s : RealityFlight) (m : HandshakeMessage) : RealityFlight × Bool :=
  let s := { s with
    fullTranscript := s.fullTranscript ++ m.bytes, received := s.received ++ [m] }
  match certificateBody cr m with
  | some body =>
    match verifyRealityCertificate cr c.authKey body with
    | .error _ => (s, true)
    | .ok verified => ({ s with serverCertVerified := verified }, false)
  | none =>
    if m.hsType = 0x14 then ({ s with foundServerFinished := true }, false) else (s, false)

/-- One record: an encrypted one is decrypted and its messages handled, and an
exception in that is swallowed; any other is skipped. -/
def handleRecord (keys : Key) (s : RealityFlight) (r : Record) : RealityFlight :=
  if r.contentType = 0x17 then
    match decryptHandshakeRecord cr.toCrypto keys s.serverHandshakeSeqNum r.header r.payload with
    | none => s
    | some decrypted =>
      (messages.drain (fun p m => handleMessage cr c p.1 m) Prod.snd
        ({ s with serverHandshakeSeqNum := s.serverHandshakeSeqNum + 1 }, false) decrypted).1.1
  else s

/-- `consumeRemainingHandshake`: nothing it keeps is local to a pass. -/
def consumeRemainingHandshake (keys : Key) (cipherSuite : Nat) (transcript buffer : Bytes)
    (reads : Reads) : Result RealityError (Established Key) :=
  match records.readLoop (handleRecord cr c keys) RealityFlight.foundServerFinished id
      { fullTranscript := transcript } buffer reads.chunks with
  | none => .waiting
  | some (s, remaining, transport) =>
    if !s.serverCertVerified then .threw .authenticationFailed
    else
      .returned
        { connection :=
            { applicationKeys := cr.deriveApplicationKeys keys s.fullTranscript
              cipherSuite := cipherSuite
              receiveBuffer := remaining
              transport := transport }
          helloTranscript := transcript
          handshakeKeys := keys
          received := s.received }

-- ----
-- The handshake

/-- The two loops before the ServerHello is parsed. -/
def readServerHello (reads : Reads) : Result RealityError (Bytes × Reads) :=
  match receiveResponse RealityError.handshakeFailed "No server response (connection closed)" []
      reads with
  | .waiting => .waiting
  | .threw e => .threw e
  | .returned (buf, reads) =>
    receiveUntil .handshakeFailed bufferContainsCompleteTlsRecord buf reads

/-- The key agreement: hybrid when the share is one of X25519MLKEM768. -/
def sharedSecret (serverKeyShare : Bytes) : Except RealityError Bytes :=
  if serverKeyShare.length = 1120 then
    let x25519Shared := cr.x25519 c.ephemeralPrivateKey (serverKeyShare.drop 1088)
    match cr.mlkemDecapsulate (serverKeyShare.take 1088) with
    | none => .error (.handshakeFailed "ML-KEM decapsulation failed")
    | some mlkemShared => .ok (mlkemShared ++ x25519Shared)
  else .ok (cr.x25519 c.ephemeralPrivateKey serverKeyShare)

/-- `continueReceivingHandshake` behind its loop, up to the handshake keys. -/
def startHandshake (buf : Bytes) : Except RealityError (Key × Nat × Bytes) :=
  if !verifyServerResponse buf then .error (.handshakeFailed "Server verification failed")
  else
    match parseServerHello buf with
    | none => .error (.handshakeFailed "Failed to parse ServerHello")
    | some share =>
      match sharedSecret cr c share.keyShare with
      | .error e => .error e
      | .ok secret =>
        let transcript := c.storedClientHello ++ extractServerHelloMessage buf
        .ok (cr.deriveHandshakeKeys share.cipherSuite secret transcript, share.cipherSuite,
          transcript)

/-- `RealityClient.connect` over a connected transport, its ClientHello sent. -/
def connect (reads : Reads) : Result RealityError (Established Key) :=
  match readServerHello reads with
  | .waiting => .waiting
  | .threw e => .threw e
  | .returned (buf, reads) =>
    match startHandshake cr c buf with
    | .error e => .threw e
    | .ok (keys, cipherSuite, transcript) =>
      consumeRemainingHandshake cr c keys cipherSuite transcript buf reads

end Model

-- ----
-- The flight as the server sent it

section Decoded

variable (cr : RealityCrypto Cert Key) (c : RealitySession) (keys : Key)

def RealityFlight.decoded (s : RealityFlight) : Decoded :=
  ⟨s.serverHandshakeSeqNum, s.fullTranscript, s.foundServerFinished, s.received⟩

/-- A message of the stream; a certificate whose reading throws ends its record. -/
def decodeMessage (d : Decoded) (m : HandshakeMessage) : Decoded × Bool :=
  ({ d with
    transcript := d.transcript ++ m.bytes
    finished := d.finished || m.hsType == 0x14
    messages := d.messages ++ [m] }, throws cr c.authKey m)

def decodeRecord (d : Decoded) (r : Record) : Decoded :=
  if r.contentType = 0x17 then
    match decryptHandshakeRecord cr.toCrypto keys d.seqNum r.header r.payload with
    | none => d
    | some decrypted =>
      (messages.drain (fun p m => decodeMessage cr c p.1 m) Prod.snd
        ({ d with seqNum := d.seqNum + 1 }, false) decrypted).1.1
  else d

/-- The stream up to and including the record with the server's Finished, and
what is left of it. -/
def decodeStream (T0 stream : Bytes) : Decoded × Bytes :=
  records.drain (decodeRecord cr c keys) Decoded.finished { transcript := T0 } stream

def realityFlight (T0 stream : Bytes) : List HandshakeMessage :=
  (decodeStream cr c keys T0 stream).1.messages

variable {cr c keys}

theorem certificateBody_finished {m : HandshakeMessage} (h : m.hsType = 0x14) :
    certificateBody cr m = none := by
  simp [certificateBody, h]

theorem decoded_handleMessage (s : RealityFlight) (m : HandshakeMessage) :
    ((handleMessage cr c s m).1.decoded, (handleMessage cr c s m).2) =
      decodeMessage cr c s.decoded m := by
  unfold handleMessage decodeMessage throws
  dsimp only
  cases hbody : certificateBody cr m with
  | none =>
    dsimp only
    split
    · rename_i hfin
      simp [RealityFlight.decoded, hfin]
    · rename_i hfin
      simp [RealityFlight.decoded, hfin]
  | some body =>
    have hfin : m.hsType ≠ 0x14 := by
      intro h
      rw [certificateBody_finished h] at hbody
      cases hbody
    cases hverify : verifyRealityCertificate cr c.authKey body with
    | error e => simp [RealityFlight.decoded, hfin, hverify]
    | ok b => simp [RealityFlight.decoded, hfin, hverify]

theorem decoded_handleRecord (s : RealityFlight) (r : Record) :
    (handleRecord cr c keys s r).decoded = decodeRecord cr c keys s.decoded r := by
  unfold handleRecord decodeRecord
  split
  · have hseq : s.decoded.seqNum = s.serverHandshakeSeqNum := rfl
    rw [hseq]
    cases hdec : decryptHandshakeRecord cr.toCrypto keys s.serverHandshakeSeqNum r.header
        r.payload with
    | none => rfl
    | some decrypted =>
      -- one message loop simulates the other, the exception included
      have hsim := messages.drain_map (fun p m => handleMessage cr c p.1 m) Prod.snd
        (fun p m => decodeMessage cr c p.1 m) Prod.snd
        (fun p : RealityFlight × Bool => (p.1.decoded, p.2))
        (fun p m => decoded_handleMessage p.1 m) (fun _ => rfl)
        ({ s with serverHandshakeSeqNum := s.serverHandshakeSeqNum + 1 }, false) decrypted
      exact (congrArg (fun x => x.1.1) hsim).symm
  · rfl

/-- **The loop decodes the stream**, whatever the cuts. -/
theorem readLoop_decoded {T0 buffer remaining : Bytes} {reads transport : List Bytes}
    {s : RealityFlight}
    (h : records.readLoop (handleRecord cr c keys) RealityFlight.foundServerFinished id
      { fullTranscript := T0 } buffer reads = some (s, remaining, transport)) :
    s.foundServerFinished = true ∧
      decodeStream cr c keys T0 (buffer ++ reads.flatten) =
        (s.decoded, remaining ++ transport.flatten) := by
  have hspec := records.readLoop_spec (handleRecord cr c keys) RealityFlight.foundServerFinished
    (decodeRecord cr c keys) Decoded.finished id
    RealityFlight.decoded decoded_handleRecord (fun _ => rfl) (fun _ _ => rfl) reads
    (s := { fullTranscript := T0 }) rfl buffer
  rw [h] at hspec
  exact hspec

end Decoded

-- ----
-- The verdict

section Verdict

variable {cr : RealityCrypto Cert Key} {c : RealitySession} {keys : Key} {T0 : Bytes}

def lastVerdict (cr : RealityCrypto Cert Key) (authKey : Bytes) (ms : List HandshakeMessage) :
    Bool :=
  ms.foldl (fun verified m => (verdict cr authKey m).getD verified) false

/-- What the flight keeps of the messages it handled. -/
structure RealityInv (cr : RealityCrypto Cert Key) (c : RealitySession) (T0 : Bytes)
    (s : RealityFlight) : Prop where
  transcript : s.fullTranscript = T0 ++ transcriptOf s.received
  verified : s.serverCertVerified = lastVerdict cr c.authKey s.received
  finished : s.foundServerFinished = true → ∃ m ∈ s.received, m.hsType = 0x14

theorem realityInv_handleMessage {s : RealityFlight} (h : RealityInv cr c T0 s)
    (m : HandshakeMessage) : RealityInv cr c T0 (handleMessage cr c s m).1 := by
  have htr : s.fullTranscript ++ m.bytes = T0 ++ transcriptOf (s.received ++ [m]) := by
    rw [h.transcript, transcriptOf_append, transcriptOf_singleton, append_assoc]
  have hlast : lastVerdict cr c.authKey (s.received ++ [m]) =
      (verdict cr c.authKey m).getD s.serverCertVerified := by
    simp [lastVerdict, foldl_append, h.verified]
  have hfin : s.foundServerFinished = true → ∃ o ∈ s.received ++ [m], o.hsType = 0x14 := by
    intro hf
    obtain ⟨o, ho, htype⟩ := h.finished hf
    exact ⟨o, by simp [ho], htype⟩
  unfold handleMessage
  dsimp only
  unfold verdict at hlast
  cases hbody : certificateBody cr m with
  | none =>
    rw [hbody] at hlast
    dsimp only
    split
    · rename_i htype
      exact ⟨htr, hlast.symm, fun _ => ⟨m, by simp, htype⟩⟩
    · exact ⟨htr, hlast.symm, hfin⟩
  | some body =>
    rw [hbody] at hlast
    cases hverify : verifyRealityCertificate cr c.authKey body with
    | error e =>
      simp only [hverify] at hlast ⊢
      exact ⟨htr, hlast.symm, hfin⟩
    | ok b =>
      simp only [hverify] at hlast ⊢
      exact ⟨htr, hlast.symm, hfin⟩

theorem realityInv_handleRecord {s : RealityFlight} (h : RealityInv cr c T0 s) (r : Record) :
    RealityInv cr c T0 (handleRecord cr c keys s r) := by
  unfold handleRecord
  split
  · split
    · exact h
    · refine messages.drain_invariant (fun p m => handleMessage cr c p.1 m) Prod.snd
        (I := fun p => RealityInv cr c T0 p.1) ?_ ⟨h.transcript, h.verified, h.finished⟩ _
      intro p _ m _ _ _ hp
      exact realityInv_handleMessage hp m
  · exact h

theorem lastVerdict_append (authKey : Bytes) (pre : List HandshakeMessage)
    {m : HandshakeMessage} {b : Bool} (hm : verdict cr authKey m = some b)
    {post : List HandshakeMessage} (hpost : ∀ o ∈ post, verdict cr authKey o = none) :
    lastVerdict cr authKey (pre ++ m :: post) = b := by
  have hkeep : ∀ (post : List HandshakeMessage) (b : Bool),
      (∀ o ∈ post, verdict cr authKey o = none) →
      post.foldl (fun verified m => (verdict cr authKey m).getD verified) b = b := by
    intro post
    induction post with
    | nil =>
      intro b _
      rfl
    | cons o post ih =>
      intro b h
      rw [foldl_cons, h o (by simp), Option.getD_none]
      exact ih b fun o' ho' => h o' (by simp [ho'])
  rw [lastVerdict, foldl_append, foldl_cons, hm, Option.getD_some, hkeep post b hpost]

end Verdict

-- ----
-- Server authentication

def IsCertificate (m : HandshakeMessage) : Prop := m.hsType = 0x0B ∨ m.hsType = 0x19

instance : DecidablePred IsCertificate := fun m =>
  inferInstanceAs (Decidable (m.hsType = 0x0B ∨ m.hsType = 0x19))

/-- A list of messages, cut at its first Finished and at the last certificate
before it. -/
structure CutAtFinished (ms before : List HandshakeMessage) (cert : HandshakeMessage)
    (between : List HandshakeMessage) (fin : HandshakeMessage) (post : List HandshakeMessage) :
    Prop where
  split : ms = before ++ cert :: between ++ fin :: post
  finished : fin.hsType = 0x14
  first : ∀ m ∈ before ++ cert :: between, m.hsType ≠ 0x14
  certificate : IsCertificate cert
  last : ∀ m ∈ between, ¬ IsCertificate m

/-- What Reality asks of a handshake: the last certificate message before the
server's Finished has an authenticated key, and that Finished the verify_data of
the transcript before it. -/
def ServerProven (cr : RealityCrypto Cert Key) (c : RealitySession) (e : Established Key) : Prop :=
  ∃ before cert between fin post, CutAtFinished e.received before cert between fin post ∧
    AuthenticatedKey cr c.authKey cert ∧
    fin.body = cr.computeFinishedVerifyData e.handshakeKeys
      (e.helloTranscript ++ transcriptOf (before ++ cert :: between))

/-- The messages of a server that keeps to TLS 1.3: its Finished fits the
transcript, the last certificate before it can be read, and one that can be read
behind it, in the same record, hides nothing. -/
def KeepsToTls13 (cr : RealityCrypto Cert Key) (c : RealitySession) (keys : Key) (T0 : Bytes)
    (ms : List HandshakeMessage) : Prop :=
  ∃ before cert between fin post, CutAtFinished ms before cert between fin post ∧
    fin.body = cr.computeFinishedVerifyData keys
      (T0 ++ transcriptOf (before ++ cert :: between)) ∧
    verdict cr c.authKey cert ≠ none ∧
    ((∃ m ∈ post, verdict cr c.authKey m ≠ none) → verdict cr c.authKey cert = some true)

/-- The same of the server's bytes. -/
def ServerKeepsToTls13 (cr : RealityCrypto Cert Key) (c : RealitySession) (reads : Reads) : Prop :=
  ∃ buf more keys cipherSuite T0, readServerHello reads = .returned (buf, more) ∧
    startHandshake cr c buf = .ok (keys, cipherSuite, T0) ∧
    KeepsToTls13 cr c keys T0 (realityFlight cr c keys T0 (buf ++ more.bytes))

section Authentication

variable {cr : RealityCrypto Cert Key} {c : RealitySession} {reads : Reads} {e : Established Key}

theorem connect_returned (h : connect cr c reads = .returned e) :
    ∃ buf more keys cipherSuite T0, readServerHello reads = .returned (buf, more) ∧
      startHandshake cr c buf = .ok (keys, cipherSuite, T0) ∧
      consumeRemainingHandshake cr c keys cipherSuite T0 buf more = .returned e := by
  unfold connect at h
  split at h
  · cases h
  · cases h
  · rename_i buf more hread
    split at h
    · cases h
    · rename_i keys cipherSuite T0 hstart
      exact ⟨buf, more, keys, cipherSuite, T0, hread, hstart, h⟩

/-- **Every handshake that returns** went through the flight of the server's
bytes, and its last verdict was positive. -/
theorem consume_returned {keys : Key} {cipherSuite : Nat} {T0 buffer : Bytes}
    (h : consumeRemainingHandshake cr c keys cipherSuite T0 buffer reads = .returned e) :
    e.received = realityFlight cr c keys T0 (buffer ++ reads.bytes) ∧
      lastVerdict cr c.authKey e.received = true ∧
      e.helloTranscript = T0 ∧ e.handshakeKeys = keys := by
  unfold consumeRemainingHandshake at h
  split at h
  · cases h
  · rename_i s remaining transport hloop
    split at h
    · cases h
    · rename_i hverified
      simp only [Result.returned.injEq] at h
      subst h
      obtain ⟨hfound, hstream⟩ := readLoop_decoded hloop
      obtain ⟨-, hinv⟩ := records.readLoop_invariant (handleRecord cr c keys)
        RealityFlight.foundServerFinished (I := RealityInv cr c T0) (fun _ hs => hs)
        (fun _ _ r _ _ _ hs => realityInv_handleRecord hs r)
        ⟨by simp [transcriptOf], rfl, fun hf => by cases hf⟩ hloop
      refine ⟨?_, ?_, rfl, rfl⟩
      · rw [realityFlight, Reads.bytes, hstream]
        rfl
      · rw [← hinv.verified]
        simpa using hverified

/-- **Reality authentication.** A returned connection has a server that proved who
it is exactly when the server keeps to TLS 1.3 in what the client does not
check. -/
theorem reality_authentication (h : connect cr c reads = .returned e) :
    ServerProven cr c e ↔ ServerKeepsToTls13 cr c reads := by
  obtain ⟨buf, more, keys, cipherSuite, T0, hread, hstart, hconsume⟩ := connect_returned h
  obtain ⟨hreceived, hverified, hT0, hkeys⟩ := consume_returned hconsume
  constructor
  · rintro ⟨before, cert, between, fin, post, hcut, hkey, hbody⟩
    refine ⟨buf, more, keys, cipherSuite, T0, hread, hstart, before, cert, between, fin, post, ?_⟩
    rw [← hreceived, ← hT0, ← hkeys]
    have hverdict := (verdict_true_iff cert).mpr hkey
    exact ⟨hcut, hbody, by rw [hverdict]; simp, fun _ => hverdict⟩
  · rintro ⟨buf', more', keys', suite', T0', hread', hstart', before, cert, between,
      fin, post, hcut, hbody, hreadable, hhides⟩
    rw [hread] at hread'
    cases hread'
    rw [hstart] at hstart'
    cases hstart'
    rw [← hreceived] at hcut
    refine ⟨before, cert, between, fin, post, hcut, (verdict_true_iff cert).mp ?_, ?_⟩
    · by_cases hpost : ∃ m ∈ post, verdict cr c.authKey m ≠ none
      · exact hhides hpost
      · -- nothing behind the certificate has touched the flag
        obtain ⟨b, hb⟩ := Option.ne_none_iff_exists'.mp hreadable
        have hnone : ∀ m ∈ between ++ fin :: post, verdict cr c.authKey m = none := by
          intro m hm
          rcases mem_append.mp hm with hm | hm
          · exact verdict_eq_none (hcut.last m hm)
          · rcases mem_cons.mp hm with rfl | hm
            · refine verdict_eq_none ?_
              rw [hcut.finished]
              decide
            · by_contra hne
              exact hpost ⟨m, hm, hne⟩
        have hsplit : e.received = before ++ cert :: (between ++ fin :: post) := by
          rw [hcut.split]
          simp
        rw [hsplit, lastVerdict_append c.authKey before hb hnone] at hverified
        rw [hb, hverified]
    · rw [hT0, hkeys]
      exact hbody

end Authentication

-- ----
-- A small server

/-- The small platform of the TLS client, with the key in front of the data for
an HMAC. -/
def toyRealityCrypto : RealityCrypto Bytes Unit :=
  { toyCrypto with
    hmacSHA512 := fun key data => key ++ data
    mlkemDecapsulate := fun _ => none }

def toyRealitySession : RealitySession where
  authKey := [0xA0]
  storedClientHello := [0x01]
  ephemeralPrivateKey := [0x03]

/-- A certificate with an ed25519 key and the HMAC of that key. -/
def toyCertDER : Bytes :=
  [0x30, 0x50, 0x30, 0x28] ++ ed25519OID ++ keyHeader ++ List.replicate 32 0x55 ++ [0x30, 0x00] ++
    [0x03, 0x22, 0x00, 0xA0] ++ List.replicate 32 0x55

def toyRealityCertificate : HandshakeMessage :=
  toyMessage 0x0B ([0x00, 0x00, 0x00, 0x57, 0x00, 0x00, 0x52] ++ toyCertDER ++ [0x00, 0x00])

/-- A server that sends its certificate and a Finished with the given content. -/
def toyRealityServer (verifyData : UInt8) : Reads :=
  [some (toyRecord 0x16 toyHello13.bytes),
    some (toySealed [toyRealityCertificate, toyMessage 0x14 [verifyData]])]

/-- The server that knows both secrets. -/
theorem reality_server_proven :
    ∃ e, connect toyRealityCrypto toyRealitySession (toyRealityServer 180) = .returned e ∧
      ServerProven toyRealityCrypto toyRealitySession e := by
  obtain ⟨e, he, -⟩ := Result.returned_of_value? (f := Established.received)
    (r := connect toyRealityCrypto toyRealitySession (toyRealityServer 180))
    (b := [toyRealityCertificate, toyMessage 0x14 [180]]) (by decide +kernel)
  refine ⟨e, he, (reality_authentication he).mpr ?_⟩
  refine ⟨toyRecord 0x16 toyHello13.bytes,
    [some (toySealed [toyRealityCertificate, toyMessage 0x14 [180]])], (), 0x1301,
    0x01 :: toyHello13.bytes, by decide +kernel, by decide +kernel, ?_⟩
  have hflight : realityFlight toyRealityCrypto toyRealitySession () (0x01 :: toyHello13.bytes)
      (toyRecord 0x16 toyHello13.bytes ++
        Reads.bytes [some (toySealed [toyRealityCertificate, toyMessage 0x14 [180]])]) =
      [toyRealityCertificate, toyMessage 0x14 [180]] := by decide +kernel
  rw [hflight]
  refine ⟨[], toyRealityCertificate, [], toyMessage 0x14 [180], [],
    ⟨rfl, rfl, by decide, .inl rfl, by simp⟩, by decide +kernel, by decide +kernel, ?_⟩
  rintro ⟨m, hm, -⟩
  cases hm

/-- A Finished with the wrong content is as good as the right one. -/
theorem reality_finished_unchecked :
    ∃ e, connect toyRealityCrypto toyRealitySession (toyRealityServer 0) = .returned e ∧
      ¬ ServerProven toyRealityCrypto toyRealitySession e := by
  obtain ⟨e, he, hmore⟩ := Result.returned_of_value?
    (f := fun e => (e.received, e.helloTranscript.length))
    (r := connect toyRealityCrypto toyRealitySession (toyRealityServer 0))
    (b := ([toyRealityCertificate, toyMessage 0x14 [0]], 85)) (by decide +kernel)
  rw [Prod.mk.injEq] at hmore
  refine ⟨e, he, ?_⟩
  rintro ⟨before, cert, between, fin, post, hcut, -, hbody⟩
  -- two messages leave no choice for the cut
  have hsplit := hcut.split
  rw [hmore.1] at hsplit
  have hlen := congrArg List.length hsplit
  simp only [length_append, length_cons, length_nil] at hlen
  have hbefore : before = [] := eq_nil_of_length_eq_zero (by omega)
  have hbetween : between = [] := eq_nil_of_length_eq_zero (by omega)
  subst hbefore hbetween
  simp only [nil_append, singleton_append, List.cons.injEq] at hsplit
  rw [← hsplit.1, ← hsplit.2.1] at hbody
  have hexpected : toyRealityCrypto.computeFinishedVerifyData e.handshakeKeys
      (e.helloTranscript ++ transcriptOf [toyRealityCertificate]) = [180] := by
    show [UInt8.ofNat (e.helloTranscript ++ transcriptOf [toyRealityCertificate]).length] = [180]
    rw [length_append, hmore.2]
    decide
  rw [nil_append, hexpected] at hbody
  exact absurd hbody (by decide)

end Anywhere.Reality
