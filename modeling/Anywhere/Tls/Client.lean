import Anywhere.Tls.Handshake12

/-!
# Anywhere — `TlsClient.connect`

The whole handshake of a `TlsClient`, from the first byte behind its ClientHello
to the `TlsRecordConnection` it returns. The server is a list of transport reads
(`none` is the `null` of a closed connection), so a run is one choice of bytes
and of cuts.

* `tls13_server_authentication`, `tls12_server_authentication` — when a returned
  connection has an authenticated server.
-/

namespace Anywhere.Tls

variable {Cert Key : Type}

-- ----
-- The model

/-- A handshake that returned, by the path it took. -/
inductive Connected (Cert Key : Type) where
  | tls13 (e : Established13 Cert Key)
  | tls12 (e : Established12 Cert Key)

/-- The connection of a handshake that returned by the TLS 1.3 path. -/
def Result.tls13? : Result TlsError (Connected Cert Key) → Option (Established13 Cert Key)
  | .returned (.tls13 e) => some e
  | _ => none

/-- The connection of a handshake that returned by the TLS 1.2 path. -/
def Result.tls12? : Result TlsError (Connected Cert Key) → Option (Established12 Cert Key)
  | .returned (.tls12 e) => some e
  | _ => none

theorem Result.eq_of_tls13? {r : Result TlsError (Connected Cert Key)}
    (h : r.tls13?.isSome = true) :
    ∃ e, r = .returned (.tls13 e) := by
  unfold Result.tls13? at h
  split at h
  · exact ⟨_, rfl⟩
  · cases h

theorem Result.eq_of_tls12? {r : Result TlsError (Connected Cert Key)}
    (h : r.tls12?.isSome = true) :
    ∃ e, r = .returned (.tls12 e) := by
  unfold Result.tls12? at h
  split at h
  · exact ⟨_, rfl⟩
  · cases h

def receiveServerResponse : Bytes → Reads → Result TlsError (Bytes × Reads) :=
  receiveResponse .handshakeFailed "No server response"

/-- The loop of `continueReceivingHandshake`. -/
def receiveServerHello : Bytes → Reads → Result TlsError (Bytes × Reads) :=
  receiveUntil .handshakeFailed bufferContainsCompleteServerHello

/-- The two loops before the ServerHello is parsed. -/
def readServerHello (reads : Reads) : Result TlsError (Bytes × Reads) :=
  match receiveServerResponse [] reads with
  | .waiting => .waiting
  | .threw e => .threw e
  | .returned (buf, reads) => receiveServerHello buf reads

/-- What the hellos of a TLS 1.3 handshake determine. -/
structure Start13 (Key : Type) where
  keys : Key
  cipherSuite : Nat
  transcript : Bytes
  deriving DecidableEq

section Model

variable (cr : Crypto Cert Key) (c : Session)

/-- The TLS 1.3 branch of `continueReceivingHandshake`. -/
def startTls13 (buf : Bytes) (share : ServerKeyShare) : Except TlsError (Start13 Key) :=
  match enforceVersionConstraints c.configuration 0x0304 with
  | .error e => .error e
  | .ok () =>
    let sharedSecret := cr.x25519 c.ephemeralPrivateKey share.keyShare
    let serverHello := extractServerHelloMessage buf
    if isHelloRetryRequest serverHello then
      .error (.handshakeFailed "HelloRetryRequest not supported")
    else
      let transcript := c.storedClientHello ++ serverHello
      .ok ⟨cr.deriveHandshakeKeys share.cipherSuite sharedSecret transcript, share.cipherSuite,
        transcript⟩

/-- `continueReceivingHandshake` behind its loop: a key share means TLS 1.3. -/
def continueHandshake (buf : Bytes) (reads : Reads) : Result TlsError (Connected Cert Key) :=
  match PacketUtil.parseServerHello buf with
  | some share =>
    match startTls13 cr c buf share with
    | .error e => .threw e
    | .ok st =>
      match consumeRemainingHandshake cr c st.keys st.cipherSuite st.transcript buf reads with
      | .waiting => .waiting
      | .threw e => .threw e
      | .returned e => .returned (.tls13 e)
  | none =>
    match handleTls12Handshake cr c buf reads with
    | .waiting => .waiting
    | .threw e => .threw e
    | .returned e => .returned (.tls12 e)

/-- `TlsClient.connect` over a connected transport, its ClientHello sent. -/
def connect (reads : Reads) : Result TlsError (Connected Cert Key) :=
  match readServerHello reads with
  | .waiting => .waiting
  | .threw e => .threw e
  | .returned (buf, reads) => continueHandshake cr c buf reads

end Model

-- ----
-- Which path was taken

section Paths

variable {cr : Crypto Cert Key} {c : Session} {reads : Reads}

theorem connect_tls13 {e : Established13 Cert Key} (h : connect cr c reads = .returned (.tls13 e)) :
    ∃ buf more share st, readServerHello reads = .returned (buf, more) ∧
      PacketUtil.parseServerHello buf = some share ∧ startTls13 cr c buf share = .ok st ∧
      consumeRemainingHandshake cr c st.keys st.cipherSuite st.transcript buf more =
        .returned e := by
  unfold connect at h
  split at h
  · cases h
  · cases h
  · rename_i buf more hread
    unfold continueHandshake at h
    split at h
    · rename_i share hshare
      split at h
      · cases h
      · rename_i st hst
        split at h
        · cases h
        · cases h
        · rename_i e' hconsume
          cases h
          exact ⟨buf, more, share, st, hread, hshare, hst, hconsume⟩
    · split at h <;> cases h

theorem connect_tls12 {e : Established12 Cert Key} (h : connect cr c reads = .returned (.tls12 e)) :
    ∃ buf more, readServerHello reads = .returned (buf, more) ∧
      PacketUtil.parseServerHello buf = none ∧
      handleTls12Handshake cr c buf more = .returned e := by
  unfold connect at h
  split at h
  · cases h
  · cases h
  · rename_i buf more hread
    unfold continueHandshake at h
    split at h
    · split at h
      · cases h
      · split at h <;> cases h
    · rename_i hshare
      split at h
      · cases h
      · cases h
      · rename_i e' hhandle
        cases h
        exact ⟨buf, more, hread, hshare, hhandle⟩

end Paths

-- ----
-- A small server

/-- A small platform: a certificate is its bytes, a record is its plaintext and a
tag of sixteen bytes, a signature is genuine when it names the certificate, and
verify_data is the length of the transcript. -/
def toyCrypto : Crypto Bytes Unit where
  x25519 _ share := share
  deriveHandshakeKeys _ _ _ := ()
  deriveApplicationKeys _ _ := ()
  aeadOpen _ _ _ ciphertext := some (ciphertext.take (ciphertext.length - 16))
  computeFinishedVerifyData _ transcript := [UInt8.ofNat transcript.length]
  transcriptHash _ transcript := transcript
  generateCertificate b := if b.isEmpty then none else some b
  decompress _ _ _ := none
  checkValidity _ := true
  checkServerTrusted chain := chain == [[0xC1]]
  verifyHostname _ _ := true
  isUserTrusted _ := false
  verifySignature cert _ _ signature := cert == signature
  ecdhe _ publicKey := some (publicKey, [0x04])
  rsaKeyExchange _ := none
  transcriptHash12 _ transcript := transcript
  masterSecret _ preMasterSecret _ _ := preMasterSecret
  extendedMasterSecret _ preMasterSecret _ := preMasterSecret
  keysFromMasterSecret _ _ _ _ := ()
  computeFinishedVerifyData12 _ _ _ hash := [UInt8.ofNat hash.length]
  decryptTls12HandshakeRecord _ _ _ _ _ ciphertext := some ciphertext

def toySession : Session where
  configuration := { serverName := "example.com" }
  storedClientHello := [0x01]
  clientRandom := [0x02]
  ephemeralPrivateKey := [0x03]

def toyRecord (contentType : UInt8) (payload : Bytes) : Bytes :=
  [contentType, 0x03, 0x03, 0x00, UInt8.ofNat payload.length] ++ payload

def toyMessage (hsType : UInt8) (body : Bytes) : HandshakeMessage :=
  ⟨hsType, [hsType, 0x00, 0x00, UInt8.ofNat body.length], body⟩

/-- An encrypted record: the messages, the inner type and the tag. -/
def toySealed (ms : List HandshakeMessage) : Bytes :=
  toyRecord 0x17 (transcriptOf ms ++ [0x16] ++ List.replicate 16 0xAA)

def toyServerHello (c1 c2 : UInt8) (extensions : Bytes) : HandshakeMessage :=
  toyMessage 0x02 ([0x03, 0x03] ++ List.replicate 32 0x11 ++ [0x00, c1, c2, 0x00] ++ extensions)

-- ----
-- TLS 1.3

/-- The server's last CertificateVerify is in place: it follows the Certificate
the client ends up with, its record was complete only with the last read of the
handshake, and a signature is there. -/
def CertificateVerifyInTime (cr : Crypto Cert Key) (c : Session)
    (reads : Reads) : Prop :=
  ∃ buf more share st, readServerHello reads = .returned (buf, more) ∧
    PacketUtil.parseServerHello buf = some share ∧ startTls13 cr c buf share = .ok st ∧
    CertificateVerifyInPlace cr
      (serverFlight cr st.keys st.transcript (buf ++ more.bytes))
      (flightBeforeLastRead cr st.keys st.transcript 0 buf more.chunks)

/-- **TLS 1.3 server authentication.** A connection returned by the TLS 1.3 path
has an authenticated server exactly when its CertificateVerify was in time. -/
theorem tls13_server_authentication {cr : Crypto Cert Key} {c : Session}
    {reads : Reads} {e : Established13 Cert Key} (hv : c.skipValidation = false)
    (h : connect cr c reads = .returned (.tls13 e)) :
    ServerAuthenticated cr c e ↔ CertificateVerifyInTime cr c reads := by
  obtain ⟨buf, more, share, st, hread, hshare, hst, hconsume⟩ := connect_tls13 h
  obtain ⟨hrec, hpass⟩ := consume_received hconsume
  rw [authenticated_iff hv hconsume, hrec, hpass]
  constructor
  · intro hplace
    exact ⟨buf, more, share, st, hread, hshare, hst, hplace⟩
  · -- the hellos determine everything the condition speaks about
    rintro ⟨buf', more', share', st', hread', hshare', hst', hplace⟩
    rw [hread] at hread'
    cases hread'
    rw [hshare] at hshare'
    cases hshare'
    rw [hst] at hst'
    cases hst'
    exact hplace

/-- A ServerHello with an X25519 key share. -/
def toyHello13 : HandshakeMessage :=
  toyServerHello 0x13 0x01
    ([0x00, 0x28, 0x00, 0x33, 0x00, 0x24, 0x00, 0x1d, 0x00, 0x20] ++ List.replicate 32 0x22)

/-- The two messages that prove who the server is. -/
def toyCertificate : HandshakeMessage :=
  toyMessage 0x0B [0x00, 0x00, 0x00, 0x06, 0x00, 0x00, 0x01, 0xC1, 0x00, 0x00]

def toyCertificateVerify : HandshakeMessage := toyMessage 0x0F [0x08, 0x04, 0x00, 0x01, 0xC1]

/-- The record of a server that sends `ms` and its Finished behind the hello. -/
def toyFlight13 (ms : List HandshakeMessage) : Bytes :=
  toySealed (ms ++ [toyMessage 0x14
    [UInt8.ofNat (0x01 + toyHello13.bytes.length + (transcriptOf ms).length)]])

def toyServer13 (ms : List HandshakeMessage) : Reads :=
  [some (toyRecord 0x16 toyHello13.bytes), some (toyFlight13 ms)]

/-- A server that proves who it is. -/
theorem tls13_certificate_and_verify :
    ∃ e, connect toyCrypto toySession (toyServer13 [toyCertificate, toyCertificateVerify]) =
      .returned (.tls13 e) ∧ ServerAuthenticated toyCrypto toySession e := by
  obtain ⟨e, he⟩ := Result.eq_of_tls13? (r := connect toyCrypto toySession
    (toyServer13 [toyCertificate, toyCertificateVerify])) (by decide +kernel)
  refine ⟨e, he, (tls13_server_authentication rfl he).mpr ?_⟩
  refine ⟨toyRecord 0x16 toyHello13.bytes,
    [some (toyFlight13 [toyCertificate, toyCertificateVerify])],
    ⟨List.replicate 32 0x22, 0x1301⟩, ⟨(), 0x1301, 0x01 :: toyHello13.bytes⟩, by decide,
    by decide +kernel, by decide +kernel, ?_⟩
  have hflight : serverFlight toyCrypto () (0x01 :: toyHello13.bytes)
      (toyRecord 0x16 toyHello13.bytes ++
        Reads.bytes [some (toyFlight13 [toyCertificate, toyCertificateVerify])]) =
      [toyCertificate, toyCertificateVerify, toyMessage 0x14 [108]] := by decide +kernel
  have hpass : flightBeforeLastRead toyCrypto () (0x01 :: toyHello13.bytes) 0
      (toyRecord 0x16 toyHello13.bytes)
      (Reads.chunks [some (toyFlight13 [toyCertificate, toyCertificateVerify])]) = 0 := by
    decide +kernel
  rw [hflight, hpass]
  exact ⟨⟨[], toyCertificate, toyCertificateVerify, [toyMessage 0x14 [108]], rfl, by decide, rfl,
    by decide, by decide⟩, toyCertificateVerify, by decide, rfl, by decide⟩

/-- A server that sends the certificate of another one, and no CertificateVerify,
gets a connection. -/
theorem tls13_without_verify :
    ∃ e, connect toyCrypto toySession (toyServer13 [toyCertificate]) = .returned (.tls13 e) ∧
      toySession.skipValidation = false ∧ ¬ ServerAuthenticated toyCrypto toySession e := by
  obtain ⟨e, he⟩ := Result.eq_of_tls13? (r := connect toyCrypto toySession
    (toyServer13 [toyCertificate])) (by decide +kernel)
  refine ⟨e, he, rfl, ?_⟩
  -- no message of the flight is a CertificateVerify
  have hnone : ((connect toyCrypto toySession (toyServer13 [toyCertificate])).tls13?.map
      (fun e => e.received.all (·.hsType != 0x0F))) = some true := by decide +kernel
  rw [he] at hnone
  have hall : e.received.all (·.hsType != 0x0F) = true := Option.some.inj hnone
  rintro ⟨⟨_, _, _, _, _, _, _, -, -, -, -, -, -, cv, hcv, htype, -⟩, -⟩
  have := List.all_eq_true.mp hall cv hcv
  rw [htype] at this
  exact absurd this (by decide)

-- ----
-- TLS 1.2

/-- The bytes of the server reach the three checks of the TLS 1.2 path. -/
def Tls12ChecksReached (cr : Crypto Cert Key) (c : Session) (reads : Reads) : Prop :=
  ∃ buf more hello, readServerHello reads = .returned (buf, more) ∧
    parseTls12ServerHello (extractServerHelloMessage buf) = .ok hello ∧
    ChecksReached12 cr c hello (c.storedClientHello ++ extractServerHelloMessage buf)
      (readToServerHelloDone buf more).1 (readToServerHelloDone buf more).2

/-- **TLS 1.2 server authentication.** A connection returned by the TLS 1.2 path
has an authenticated server exactly when the server's bytes reached the
checks. -/
theorem tls12_server_authentication {cr : Crypto Cert Key} {c : Session}
    {reads : Reads} {e : Established12 Cert Key} (hv : c.skipValidation = false)
    (h : connect cr c reads = .returned (.tls12 e)) :
    ServerAuthenticated12 cr c e ↔ Tls12ChecksReached cr c reads := by
  obtain ⟨buf, more, hread, -, hhandle⟩ := connect_tls12 h
  obtain ⟨hello, hparse, hfinish⟩ := handleTls12Handshake_returned hhandle
  rw [authenticated12_iff hv hfinish]
  constructor
  · intro hchecks
    exact ⟨buf, more, hello, hread, hparse, hchecks⟩
  · rintro ⟨buf', more', hello', hread', hparse', hchecks⟩
    rw [hread] at hread'
    cases hread'
    rw [hparse] at hparse'
    cases hparse'
    exact hchecks

def toyHello12 : HandshakeMessage := toyServerHello 0xC0 0x2F []

def toyCertificate12 : HandshakeMessage :=
  toyMessage 0x0B [0x00, 0x00, 0x04, 0x00, 0x00, 0x01, 0xC1]

/-- An X25519 key of one byte, and its signature. -/
def toyKeyExchange : HandshakeMessage :=
  toyMessage 0x0C [0x03, 0x00, 0x1d, 0x01, 0x77, 0x08, 0x04, 0x00, 0x01, 0xC1]

/-- The last flight: ChangeCipherSpec and a Finished that fits the transcript of
`ms` (the client's two messages are six and five bytes). -/
def toyFinish12 (ms : List HandshakeMessage) : Bytes :=
  toyRecord 0x14 [0x01] ++ toyRecord 0x16 (toyMessage 0x14
    [UInt8.ofNat (0x01 + toyHello12.bytes.length + (transcriptOf ms).length + 0x0B)]).bytes

/-- A server that sends `ms` behind its hello, in one record. -/
def toyServer12 (ms : List HandshakeMessage) : Reads :=
  [some (toyRecord 0x16 toyHello12.bytes), some (toyRecord 0x16 (transcriptOf ms)),
    some (toyFinish12 ms)]

/-- A flight with everything the client checks. -/
def toyMessages12 : List HandshakeMessage :=
  [toyCertificate12, toyKeyExchange, toyMessage 0x0E []]

/-- A server that reaches every check. -/
theorem tls12_certificate_and_signature :
    ∃ e, connect toyCrypto toySession (toyServer12 toyMessages12) = .returned (.tls12 e) ∧
      ServerAuthenticated12 toyCrypto toySession e := by
  obtain ⟨e, he⟩ := Result.eq_of_tls12? (r := connect toyCrypto toySession
    (toyServer12 toyMessages12)) (by decide +kernel)
  refine ⟨e, he, (tls12_server_authentication rfl he).mpr ?_⟩
  refine ⟨toyRecord 0x16 toyHello12.bytes,
    [some (toyRecord 0x16 (transcriptOf toyMessages12)), some (toyFinish12 toyMessages12)],
    ⟨0x0303, List.replicate 32 0x11, 0xC02F, false⟩, by decide, by decide, ?_⟩
  have hdone : readToServerHelloDone (toyRecord 0x16 toyHello12.bytes)
      [some (toyRecord 0x16 (transcriptOf toyMessages12)), some (toyFinish12 toyMessages12)] =
      (toyRecord 0x16 toyHello12.bytes ++ toyRecord 0x16 (transcriptOf toyMessages12),
        [some (toyFinish12 toyMessages12)]) := by decide
  have hms : plaintextMessages
      (toyRecord 0x16 toyHello12.bytes ++ toyRecord 0x16 (transcriptOf toyMessages12)) =
      toyHello12 :: toyMessages12 := by decide
  have hrest : records.rest
      (toyRecord 0x16 toyHello12.bytes ++ toyRecord 0x16 (transcriptOf toyMessages12)) = [] := by
    decide
  have hfin : finishedRecord (records.frames (toyFinish12 toyMessages12)) =
      some ⟨0x16, [0x16, 0x03, 0x03, 0x00, 0x05], [0x14, 0x00, 0x00, 0x01, 83]⟩ := by
    decide
  rw [hdone]
  refine ⟨?_, ?_, ?_, ?_⟩
  · rw [hms]
    decide
  · rw [hms]
    intro body hbody
    cases hbody
    decide
  · rw [hrest]
    refine readsToFinished_cons.mpr ⟨fun h12 => absurd h12 (by decide), ?_⟩
    exact readsToFinished_of_finished hfin _
  · intro a fin d _ hfin' hdec
    rw [hrest, List.nil_append, Reads.bytes_cons, Reads.bytes_nil, List.append_nil, hfin] at hfin'
    cases hfin'
    cases hdec
    decide

/-- A server without a certificate gets a connection. -/
theorem tls12_without_certificate :
    ∃ e, connect toyCrypto toySession (toyServer12 [toyKeyExchange, toyMessage 0x0E []]) =
      .returned (.tls12 e) ∧
      toySession.skipValidation = false ∧ ¬ ServerAuthenticated12 toyCrypto toySession e := by
  obtain ⟨e, he⟩ := Result.eq_of_tls12? (r := connect toyCrypto toySession
    (toyServer12 [toyKeyExchange, toyMessage 0x0E []])) (by decide +kernel)
  refine ⟨e, he, rfl, ?_⟩
  have hnone : ((connect toyCrypto toySession
      (toyServer12 [toyKeyExchange, toyMessage 0x0E []])).tls12?.map
      (fun e => e.chain.isSome)) = some false := by decide +kernel
  rw [he] at hnone
  have hchain : e.chain.isSome = false := Option.some.inj hnone
  rintro ⟨⟨leaf, rest, hsome, -⟩, -⟩
  rw [hsome] at hchain
  cases hchain

end Anywhere.Tls
