import Mathlib.Data.List.Induction
import Anywhere.Tls.Handshake13

/-!
# Anywhere — the TLS 1.2 handshake

`handleTls12Handshake` of `TlsClient` and what it calls: the plaintext flight up
to ServerHelloDone, the three checks, the key exchange, and the records behind
the client's Finished. The checks are guarded: a chain is validated when there is
one, a signature is verified when there is one, and the Finished of the server is
compared when its record is reached.

* `collectFlight`, `finishFlight` — the two read loops.
* `Established12` — a handshake that returned, with what it checked.
-/

namespace Anywhere.Tls

open List

variable {Cert Key : Type}

namespace TlsCipherSuite

def usesSHA384 (suite : Nat) : Bool :=
  [0x1302, 0xC02C, 0xC030, 0x009D, 0xC024, 0xC028].contains suite

def isECDHE (suite : Nat) : Bool :=
  [0xC02B, 0xC02C, 0xC02F, 0xC030, 0xCCA9, 0xCCA8, 0xC009, 0xC00A, 0xC013, 0xC014, 0xC023, 0xC027,
    0xC024, 0xC028].contains suite

end TlsCipherSuite

-- ----
-- The ServerHello

/-- The fields `parseTls12ServerHello` sets. -/
structure Hello12 where
  negotiatedVersion : Nat
  serverRandom : Bytes
  tls12CipherSuite : Nat := 0
  useExtendedMasterSecret : Bool := false
  deriving DecidableEq

/-- The extension loop: `left` bytes of extensions remain at the front of `q`.
`supported_versions` reads two bytes of the message without looking where it
ends. -/
def parseTls12Extensions : Nat → Nat → Bytes → Hello12 → Except TlsError Hello12
  | 0, _, _, h => .ok h
  | fuel + 1, left, q, h =>
    if 4 ≤ left then
      match q with
      | t1 :: t2 :: l1 :: l2 :: q =>
        let extType := be16 t1 t2
        let extDataLen := be16 l1 l2
        if extType = 0x0017 then
          parseTls12Extensions fuel (left - 4 - extDataLen) (q.drop extDataLen)
            { h with useExtendedMasterSecret := true }
        else if extType = 0x002B ∧ 2 ≤ extDataLen then
          match q with
          | v1 :: v2 :: _ =>
            parseTls12Extensions fuel (left - 4 - extDataLen) (q.drop extDataLen)
              { h with negotiatedVersion := be16 v1 v2 }
          | _ => .error (.other "ArrayIndexOutOfBoundsException")
        else parseTls12Extensions fuel (left - 4 - extDataLen) (q.drop extDataLen) h
      | _ => .ok h
    else .ok h

def parseTls12ServerHello (serverHelloMsg : Bytes) : Except TlsError Hello12 :=
  match serverHelloMsg.drop 4, serverHelloMsg.drop 38 with
  | v1 :: v2 :: _, sessionIdLen :: q =>
    let h : Hello12 := ⟨be16 v1 v2, (serverHelloMsg.drop 6).take 32, 0, false⟩
    match q.drop sessionIdLen.toNat with
    | c1 :: c2 :: _ :: q =>
      let h := { h with tls12CipherSuite := be16 c1 c2 }
      match q with
      | e1 :: e2 :: q => parseTls12Extensions q.length (min (be16 e1 e2) q.length) q h
      | _ => .ok h
    | _ => .ok h
  | _, _ => .error (.handshakeFailed "ServerHello too short")

-- ----
-- The flight up to ServerHelloDone

/-- The fields and locals of the message loop, and the messages it handled. -/
structure Flight12 (Cert : Type) where
  tls12Transcript : Bytes
  serverCertificates : List Cert := []
  serverKeyExchangeBody : Option Bytes := none
  foundServerHelloDone : Bool := false
  received : List HandshakeMessage := []

section Model

variable (cr : Crypto Cert Key)

/-- One message; the ServerHello is in the transcript already. -/
def handleMessage12 (s : Flight12 Cert) (m : HandshakeMessage) : Flight12 Cert :=
  let s := { s with received := s.received ++ [m] }
  if m.hsType = 0x02 then s
  else
    let s := { s with tls12Transcript := s.tls12Transcript ++ m.bytes }
    if m.hsType = 0x0B then
      { s with serverCertificates := parseTls12CertificateMessage cr m.body }
    else if m.hsType = 0x0C then { s with serverKeyExchangeBody := some m.body }
    else if m.hsType = 0x0E then { s with foundServerHelloDone := true }
    else s

def handleRecord12 (s : Flight12 Cert) (r : Record) : Flight12 Cert :=
  if r.contentType = 0x16 then
    (messages.drain (handleMessage12 cr) (fun _ => false) s r.payload).1
  else s

/-- The outer loop: all complete records of the buffer are handled before
`foundServerHelloDone` is looked at. -/
def collectFlight : Flight12 Cert → Bytes → Reads →
    Result TlsError (Flight12 Cert × Bytes × Reads)
  | s, rest, reads =>
    let pass := records.drain (handleRecord12 cr) (fun _ => false) s rest
    if pass.1.foundServerHelloDone then .returned (pass.1, pass.2, reads)
    else
      match reads with
      | [] => .waiting
      | none :: _ => .threw (.handshakeFailed "Connection closed during handshake")
      | some moreData :: reads => collectFlight pass.1 (pass.2 ++ moreData) reads

-- ----
-- The key exchange

/-- The signed part of a ServerKeyExchange body: curve and public key. -/
def keyExchangeParams (body : Bytes) : Bytes :=
  body.take (4 + ((body.drop 3).headD 0).toNat)

def keyExchangeSignature (body : Bytes) : Option (Nat × Bytes) :=
  match body.drop 3 with
  | [] => none
  | pubKeyLen :: rest =>
    match rest.drop pubKeyLen.toNat with
    | a1 :: a2 :: l1 :: l2 :: rest =>
      if be16 l1 l2 ≤ rest.length then some (be16 a1 a2, rest.take (be16 l1 l2)) else none
    | _ => none

/-- A signature `verifyTls12ServerKeyExchange` accepted: leaf, algorithm, content
and signature. -/
abbrev KeyExchangeCheck (Cert : Type) := Cert × Nat × Bytes × Bytes

/-- `verifyTls12ServerKeyExchange`: nothing is checked without a certificate, or
when the body ends before its signature does. -/
def verifyTls12ServerKeyExchange (c : Session) (serverRandom : Bytes)
    (serverCertificates : List Cert) (body : Bytes) :
    Except TlsError (Option (KeyExchangeCheck Cert)) :=
  match serverCertificates.head?, keyExchangeSignature body with
  | some serverCert, some (sigAlgorithm, signature) =>
    let content := c.clientRandom ++ serverRandom ++ keyExchangeParams body
    if cr.verifySignature serverCert sigAlgorithm content signature then
      .ok (some (serverCert, sigAlgorithm, content, signature))
    else if c.skipValidation then .ok none
    else .error
      (.certificateValidationFailed "ServerKeyExchange signature verification failed")
  | _, _ => .ok none

/-- `"%04x".format(n)` of a 16-bit number. -/
def hex4 (n : Nat) : String :=
  let digits := Nat.toDigits 16 n
  String.ofList (List.replicate (4 - digits.length) '0' ++ digits)

/-- `processECDHEServerKeyExchange`: the pre-master secret and the body of the
ClientKeyExchange. -/
def processECDHEServerKeyExchange (body : Bytes) : Except TlsError (Bytes × Bytes) :=
  match body with
  | curveType :: n1 :: n2 :: pubKeyLen :: rest =>
    if curveType ≠ 0x03 then
      .error (.handshakeFailed ("Unsupported curve type: " ++ toString curveType.toNat))
    else if rest.length < pubKeyLen.toNat then
      .error (.handshakeFailed "ServerKeyExchange truncated")
    else if ¬ (be16 n1 n2 = 0x001D ∨ be16 n1 n2 = 0x0017 ∨ be16 n1 n2 = 0x0018) then
      .error (.handshakeFailed ("Unsupported ECDHE curve: 0x" ++ hex4 (be16 n1 n2)))
    else
      match cr.ecdhe (be16 n1 n2) (rest.take pubKeyLen.toNat) with
      | none => .error (.other "key agreement")
      | some (sharedSecret, clientPubKey) =>
        .ok (sharedSecret, UInt8.ofNat clientPubKey.length :: clientPubKey)
  | _ => .error (.handshakeFailed "ServerKeyExchange too short")

def processRSAKeyExchange (serverCertificates : List Cert) : Except TlsError (Bytes × Bytes) :=
  match serverCertificates with
  | [] => .error (.handshakeFailed "No server certificate for RSA key exchange")
  | serverCert :: _ =>
    match cr.rsaKeyExchange serverCert with
    | none => .error (.other "RSA")
    | some (preMasterSecret, encrypted) =>
      .ok (preMasterSecret, UInt8.ofNat (encrypted.length / 256) ::
        UInt8.ofNat encrypted.length :: encrypted)

def keyExchange (cipherSuite : Nat) (s : Flight12 Cert) : Except TlsError (Bytes × Bytes) :=
  match s.serverKeyExchangeBody with
  | some body => processECDHEServerKeyExchange cr body
  | none =>
    if !TlsCipherSuite.isECDHE cipherSuite then processRSAKeyExchange cr s.serverCertificates
    else .error (.handshakeFailed "Missing ServerKeyExchange for ECDHE cipher suite")

def clientKeyExchange (ckeBody : Bytes) : Bytes :=
  0x10 :: UInt8.ofNat (ckeBody.length / 65536) :: UInt8.ofNat (ckeBody.length / 256) ::
    UInt8.ofNat ckeBody.length :: ckeBody

-- ----
-- Behind the client's Finished

/-- What the last loop needs: keys, master secret and the client's Finished. -/
structure Secrets12 (Key : Type) where
  hello : Hello12
  keys : Key
  masterSecret : Bytes
  finishedMsg : Bytes

/-- The expected verify_data of the server's Finished. -/
def expectedServerVerify (sec : Secrets12 Key) (transcript : Bytes) : Bytes :=
  let useSHA384 := TlsCipherSuite.usesSHA384 sec.hello.tls12CipherSuite
  cr.computeFinishedVerifyData12 useSHA384 sec.masterSecret "server finished"
    (cr.transcriptHash12 useSHA384 transcript)

/-- The plaintext of an encrypted handshake record. -/
def decryptFinished (sec : Secrets12 Key) (r : Record) : Option Bytes :=
  cr.decryptTls12HandshakeRecord sec.keys sec.hello.tls12CipherSuite sec.hello.negotiatedVersion
    (r.header.headD 0) 0 r.payload

/-- The locals of the last loop, and the records it handled. -/
structure Finish12 where
  tls12Transcript : Bytes
  foundCCS : Bool := false
  /-- The Finished was handled: the loop breaks. -/
  done : Bool := false
  error : Option TlsError := none
  handled : List Record := []

/-- The loop is left by `break` or by an exception. -/
def Finish12.stops (s : Finish12) : Bool := s.done || s.error.isSome

def handleFinishRecord (sec : Secrets12 Key) (s : Finish12) (r : Record) : Finish12 :=
  let s := { s with handled := s.handled ++ [r] }
  if r.contentType = 0x14 then { s with foundCCS := true }
  else if r.contentType = 0x16 ∧ s.foundCCS = false then
    -- plaintext handshake before CCS, such as NewSessionTicket
    { s with tls12Transcript := s.tls12Transcript ++ r.payload }
  else if r.contentType = 0x16 then
    match decryptFinished cr sec r with
    | none => { s with error := some (.other "decryptTls12HandshakeRecord") }
    | some decrypted =>
      let s := { s with tls12Transcript := s.tls12Transcript ++ sec.finishedMsg }
      if 4 ≤ decrypted.length ∧
          ¬ constantTimeEqual (decrypted.drop 4)
            (expectedServerVerify cr sec s.tls12Transcript) then
        { s with
          error := some (.handshakeFailed "TLS 1.2 Server Finished verify data mismatch") }
      else { s with done := true }
  else s

/-- The last loop: it reads on in the middle of a record, and is left when fewer
than five bytes remain. -/
def finishFlight (sec : Secrets12 Key) : Finish12 → Bytes → Reads →
    Result TlsError (Finish12 × Bytes × Reads)
  | s, rest, reads =>
    let pass := records.drain (handleFinishRecord cr sec) Finish12.stops s rest
    match pass.1.error with
    | some e => .threw e
    | none =>
      if pass.1.done ∨ pass.2.length < 5 then .returned (pass.1, pass.2, reads)
      else
        match reads with
        | [] => .waiting
        | none :: _ => .threw (.handshakeFailed "Connection closed")
        | some moreData :: reads => finishFlight sec pass.1 (pass.2 ++ moreData) reads

def atLeastTwelve : Bytes → Reads → Result TlsError (Bytes × Reads)
  | buf, reads =>
    if 12 ≤ buf.length then .returned (buf, reads)
    else
      match reads with
      | [] => .waiting
      | none :: _ => .threw (.handshakeFailed "Connection closed waiting for server Finished")
      | some moreData :: reads => atLeastTwelve (buf ++ moreData) reads

-- ----
-- The handshake

/-- `if (!skipValidation && serverCertificates.isNotEmpty()) validateCertificate()`. -/
def validateIfAny (c : Session) (serverCertificates : List Cert) :
    Except TlsError (Option (List Cert)) :=
  if c.skipValidation || serverCertificates.isEmpty then .ok none
  else
    match validateCertificate cr c.configuration.serverName serverCertificates with
    | .error e => .error e
    | .ok () => .ok (some serverCertificates)

/-- `if (!skipValidation && serverKeyExchangeBody != null)
verifyTls12ServerKeyExchange(serverKeyExchangeBody)`. -/
def verifyIfAny (c : Session) (serverRandom : Bytes) (s : Flight12 Cert) :
    Except TlsError (Option (KeyExchangeCheck Cert)) :=
  match s.serverKeyExchangeBody with
  | some body =>
    if c.skipValidation then .ok none
    else verifyTls12ServerKeyExchange cr c serverRandom s.serverCertificates body
  | none => .ok none

/-- The master secret, the keys and the client's Finished. -/
def secrets12 (c : Session) (hello : Hello12) (preMasterSecret transcript : Bytes) :
    Secrets12 Key :=
  let useSHA384 := TlsCipherSuite.usesSHA384 hello.tls12CipherSuite
  let masterSecret :=
    if hello.useExtendedMasterSecret then
      cr.extendedMasterSecret useSHA384 preMasterSecret (cr.transcriptHash12 useSHA384 transcript)
    else cr.masterSecret useSHA384 preMasterSecret c.clientRandom hello.serverRandom
  let clientVerifyData := cr.computeFinishedVerifyData12 useSHA384 masterSecret "client finished"
    (cr.transcriptHash12 useSHA384 transcript)
  { hello := hello
    keys := cr.keysFromMasterSecret hello.tls12CipherSuite masterSecret c.clientRandom
      hello.serverRandom
    masterSecret := masterSecret
    finishedMsg := 0x14 :: 0x00 :: 0x00 :: UInt8.ofNat clientVerifyData.length :: clientVerifyData }

/-- What the key exchange of a flight agrees on. -/
structure Agreement12 (Key : Type) where
  preMasterSecret : Bytes
  ckeBody : Bytes
  /-- The transcript up to the ClientKeyExchange. -/
  transcript : Bytes
  secrets : Secrets12 Key

def agree12 (c : Session) (hello : Hello12) (s : Flight12 Cert) :
    Except TlsError (Agreement12 Key) :=
  match keyExchange cr hello.tls12CipherSuite s with
  | .error e => .error e
  | .ok (preMasterSecret, ckeBody) =>
    let transcript := s.tls12Transcript ++ clientKeyExchange ckeBody
    .ok ⟨preMasterSecret, ckeBody, transcript, secrets12 cr c hello preMasterSecret transcript⟩

/-- `sendTls12ClientKeyExchangeAndFinished`, from the bytes left over on. -/
def receiveServerFinished (sec : Secrets12 Key) (transcript buffer : Bytes)
    (reads : Reads) : Result TlsError (Finish12 × Bytes × Reads) :=
  match atLeastTwelve buffer reads with
  | .waiting => .waiting
  | .threw e => .threw e
  | .returned (buf, reads) =>
    finishFlight cr sec { tls12Transcript := transcript } buf reads

/-- A TLS 1.2 handshake that returned, with what it went through: the messages up
to ServerHelloDone, the chain that was validated, the signature that was
verified, what was agreed on, and the records behind the client's Finished. -/
structure Established12 (Cert Key : Type) where
  connection : TlsRecordConnection Key
  protocolVersion : Nat
  agreement : Agreement12 Key
  received : List HandshakeMessage
  chain : Option (List Cert)
  keyExchangeCheck : Option (KeyExchangeCheck Cert)
  handled : List Record

/-- The end of `handleTls12Handshake`, when ServerHelloDone was found. -/
def finishTls12Handshake (c : Session) (hello : Hello12) (s : Flight12 Cert) (rest : Bytes)
    (reads : Reads) : Result TlsError (Established12 Cert Key) :=
  match validateIfAny cr c s.serverCertificates with
  | .error e => .threw e
  | .ok chain =>
    match verifyIfAny cr c hello.serverRandom s with
    | .error e => .threw e
    | .ok keyExchangeCheck =>
      match agree12 cr c hello s with
      | .error e => .threw e
      | .ok a =>
        match receiveServerFinished cr a.secrets a.transcript rest reads with
        | .waiting => .waiting
        | .threw e => .threw e
        | .returned (f, remaining, transport) =>
          .returned
            { connection :=
                { applicationKeys := a.secrets.keys
                  cipherSuite := hello.tls12CipherSuite
                  receiveBuffer := remaining
                  transport := transport.chunks }
              protocolVersion := hello.negotiatedVersion
              agreement := a
              received := s.received
              chain := chain
              keyExchangeCheck := keyExchangeCheck
              handled := f.handled }

def handleTls12Handshake (c : Session) (buffer : Bytes) (reads : Reads) :
    Result TlsError (Established12 Cert Key) :=
  let serverHello := extractServerHelloMessage buffer
  if serverHello.isEmpty then
    .threw (.handshakeFailed "Failed to extract TLS 1.2 ServerHello")
  else
    match parseTls12ServerHello serverHello with
    | .error e => .threw e
    | .ok hello =>
      match enforceVersionConstraints c.configuration hello.negotiatedVersion with
      | .error e => .threw e
      | .ok () =>
        match collectFlight cr { tls12Transcript := c.storedClientHello ++ serverHello } buffer
            reads with
        | .waiting => .waiting
        | .threw e => .threw e
        | .returned (s, rest, reads) => finishTls12Handshake cr c hello s rest reads

end Model

-- ----
-- The flight as the server sent it

def recordMessages (r : Record) : List HandshakeMessage :=
  if r.contentType = 0x16 then messages.frames r.payload else []

def plaintextMessages (stream : Bytes) : List HandshakeMessage :=
  (records.frames stream).flatMap recordMessages

def readToServerHelloDone : Bytes → Reads → Bytes × Reads
  | seen, reads =>
    if (plaintextMessages seen).any (·.hsType == 0x0E) then (seen, reads)
    else
      match reads with
      | some data :: reads => readToServerHelloDone (seen ++ data) reads
      | _ => (seen, [])

/-- The first handshake record behind a ChangeCipherSpec. -/
def finishedRecord (rs : List Record) : Option Record :=
  (rs.dropWhile (·.contentType != 0x14)).find? (·.contentType == 0x16)

/-- The plaintext handshake records in front of the first ChangeCipherSpec. -/
def plaintextBeforeCCS (rs : List Record) : Bytes :=
  ((rs.takeWhile (·.contentType != 0x14)).filter (·.contentType == 0x16)).flatMap Record.payload

variable {reads : Reads} {rest seen : Bytes}

section Flight

variable (cr : Crypto Cert Key)

/-- The state the messages of a stream leave. -/
def flight12 (T0 stream : Bytes) : Flight12 Cert :=
  (plaintextMessages stream).foldl (handleMessage12 cr) { tls12Transcript := T0 }

def lastChain12 (ms : List HandshakeMessage) : List Cert :=
  ms.foldl (fun certs m =>
    if m.hsType = 0x0B then parseTls12CertificateMessage cr m.body else certs) []

def lastKeyExchange (ms : List HandshakeMessage) : Option Bytes :=
  ms.foldl (fun body m => if m.hsType = 0x0C then some m.body else body) none

/-- What a flight keeps of the messages it handled. -/
structure Flight12Inv (s : Flight12 Cert) : Prop where
  certificates : s.serverCertificates = lastChain12 cr s.received
  keyExchange : s.serverKeyExchangeBody = lastKeyExchange s.received
  helloDone : s.foundServerHelloDone = s.received.any (·.hsType == 0x0E)

variable {cr}

theorem flight12Inv_handleMessage {s : Flight12 Cert} (h : Flight12Inv cr s)
    (m : HandshakeMessage) : Flight12Inv cr (handleMessage12 cr s m) := by
  have hchain : lastChain12 cr (s.received ++ [m]) =
      if m.hsType = 0x0B then parseTls12CertificateMessage cr m.body
      else s.serverCertificates := by
    simp [lastChain12, foldl_append, h.certificates]
  have hske : lastKeyExchange (s.received ++ [m]) =
      if m.hsType = 0x0C then some m.body else s.serverKeyExchangeBody := by
    simp [lastKeyExchange, foldl_append, h.keyExchange]
  have hdone : (s.received ++ [m]).any (·.hsType == 0x0E) =
      (s.foundServerHelloDone || m.hsType == 0x0E) := by
    simp [any_append, h.helloDone]
  unfold handleMessage12
  dsimp only
  split
  · rename_i hhello
    constructor
    · simp [hchain, hhello]
    · simp [hske, hhello]
    · simp [hdone, hhello]
  · split
    · rename_i hcert
      constructor
      · simp [hchain, hcert]
      · simp [hske, hcert]
      · simp [hdone, hcert]
    · rename_i hcert
      split
      · rename_i hkx
        constructor
        · simp [hchain, hkx]
        · simp [hske, hkx]
        · simp [hdone, hkx]
      · rename_i hkx
        split
        · rename_i hshd
          constructor
          · simp [hchain, hcert]
          · simp [hske, hkx]
          · simp [hdone, hshd]
        · rename_i hshd
          constructor
          · simp [hchain, hcert]
          · simp [hske, hkx]
          · simp [hdone, hshd]

theorem handleMessage12_received (s : Flight12 Cert) (m : HandshakeMessage) :
    (handleMessage12 cr s m).received = s.received ++ [m] := by
  unfold handleMessage12
  dsimp only
  repeat' split
  all_goals rfl

theorem foldl_handleMessage12 (ms : List HandshakeMessage) {s : Flight12 Cert}
    (h : Flight12Inv cr s) :
    Flight12Inv cr (ms.foldl (handleMessage12 cr) s) ∧
      (ms.foldl (handleMessage12 cr) s).received = s.received ++ ms := by
  induction ms generalizing s with
  | nil => exact ⟨h, (append_nil _).symm⟩
  | cons m ms ih =>
    obtain ⟨hinv, hrec⟩ := ih (flight12Inv_handleMessage h m)
    refine ⟨hinv, ?_⟩
    rw [foldl_cons, hrec, handleMessage12_received, append_assoc]
    rfl

theorem flight12_inv (T0 stream : Bytes) : Flight12Inv cr (flight12 cr T0 stream) :=
  (foldl_handleMessage12 (plaintextMessages stream) ⟨rfl, rfl, rfl⟩).1

theorem flight12_received (T0 stream : Bytes) :
    (flight12 cr T0 stream).received = plaintextMessages stream :=
  (@foldl_handleMessage12 _ _ cr (plaintextMessages stream) _ ⟨rfl, rfl, rfl⟩).2

/-- A pass over a stream goes through its messages. -/
theorem drain_handleRecord12 (s : Flight12 Cert) (stream : Bytes) :
    records.drain (handleRecord12 cr) (fun _ => false) s stream =
      ((plaintextMessages stream).foldl (handleMessage12 cr) s, records.rest stream) := by
  have hrecord : handleRecord12 cr =
      fun s r => (recordMessages r).foldl (handleMessage12 cr) s := by
    funext s r
    unfold handleRecord12 recordMessages
    split
    · rw [messages.drain_all]
    · rfl
  rw [records.drain_all, hrecord, plaintextMessages, foldl_flatMap]

/-- **The first loop** collects the flight of what it has read. -/
theorem collectFlight_returned {T0 rest' : Bytes} {reads' : Reads}
    {s s' : Flight12 Cert}
    (hseen : records.drain (handleRecord12 cr) (fun _ => false) s rest =
      (flight12 cr T0 seen, records.rest seen))
    (h : collectFlight cr s rest reads = .returned (s', rest', reads')) :
    s' = flight12 cr T0 (readToServerHelloDone seen reads).1 ∧
      rest' = records.rest (readToServerHelloDone seen reads).1 ∧
      reads' = (readToServerHelloDone seen reads).2 := by
  have hdone : ∀ seen, (flight12 cr T0 seen).foundServerHelloDone =
      (plaintextMessages seen).any (·.hsType == 0x0E) := by
    intro seen
    rw [(flight12_inv T0 seen).helloDone, flight12_received]
  induction reads generalizing s rest seen with
  | nil =>
    unfold collectFlight at h
    unfold readToServerHelloDone
    rw [← hdone]
    simp only [hseen] at h
    split at h
    · rename_i hfound
      rw [if_pos hfound]
      simp only [Result.returned.injEq, Prod.mk.injEq] at h
      exact ⟨h.1.symm, h.2.1.symm, h.2.2.symm⟩
    · cases h
  | cons data reads ih =>
    unfold collectFlight at h
    unfold readToServerHelloDone
    rw [← hdone]
    simp only [hseen] at h
    split at h
    · rename_i hfound
      rw [if_pos hfound]
      simp only [Result.returned.injEq, Prod.mk.injEq] at h
      exact ⟨h.1.symm, h.2.1.symm, h.2.2.symm⟩
    · rename_i hfound
      rw [if_neg hfound]
      cases data with
      | none => cases h
      | some data =>
        refine ih ?_ h
        -- the next pass goes on where the last one stopped
        rw [drain_handleRecord12, flight12, flight12, plaintextMessages, plaintextMessages,
          plaintextMessages, records.frames_append seen data, records.rest_append seen data,
          flatMap_append, foldl_append]

/-- The key agreement uses the signed parameters and nothing else of the body. -/
theorem processECDHE_params {body : Bytes} {x : Bytes × Bytes}
    (h : processECDHEServerKeyExchange cr body = .ok x) :
    processECDHEServerKeyExchange cr (keyExchangeParams body) = .ok x := by
  unfold processECDHEServerKeyExchange at h
  split at h
  · rename_i curveType n1 n2 pubKeyLen rest
    have hparams : keyExchangeParams (curveType :: n1 :: n2 :: pubKeyLen :: rest) =
        curveType :: n1 :: n2 :: pubKeyLen :: rest.take pubKeyLen.toNat := by
      simp [keyExchangeParams, Nat.add_comm 4]
    split at h
    · cases h
    · rename_i hcurve
      split at h
      · cases h
      · rename_i hlen
        rw [hparams]
        simp only [processECDHEServerKeyExchange]
        rw [if_neg hcurve, if_neg (by rw [length_take]; omega), take_take,
          min_self]
        exact h
  · cases h

end Flight

-- ----
-- The records behind the client's Finished

theorem finishedRecord_snoc (rs : List Record) (r : Record) :
    finishedRecord (rs ++ [r]) =
      (finishedRecord rs).or
        (if (∃ o ∈ rs, o.contentType = 0x14) ∧ r.contentType = 0x16 then some r else none) := by
  unfold finishedRecord
  induction rs with
  | nil =>
    by_cases hr : r.contentType = 0x14
    · simp [hr]
    · simp [hr]
  | cons o rs ih =>
    by_cases ho : o.contentType = 0x14
    · -- behind a ChangeCipherSpec every handshake record counts
      by_cases hr : r.contentType = 0x16
      · simp [ho, hr]
      · simp [ho, hr]
    · simpa [ho] using ih

theorem plaintextBeforeCCS_snoc (rs : List Record) (r : Record) :
    plaintextBeforeCCS (rs ++ [r]) = plaintextBeforeCCS rs ++
      if (∃ o ∈ rs, o.contentType = 0x14) ∨ r.contentType ≠ 0x16 then [] else r.payload := by
  unfold plaintextBeforeCCS
  induction rs with
  | nil =>
    by_cases hr : r.contentType = 0x14
    · simp [hr]
    · by_cases hr' : r.contentType = 0x16
      · simp [hr']
      · simp [hr, hr']
  | cons o rs ih =>
    by_cases ho : o.contentType = 0x14
    · simp [ho]
    · by_cases ho' : o.contentType = 0x16
      · simpa [ho, ho'] using ih
      · simpa [ho, ho'] using ih

theorem finishedRecord_append {rs : List Record} {fin : Record} (h : finishedRecord rs = some fin)
    (more : List Record) : finishedRecord (rs ++ more) = some fin := by
  induction more using List.reverseRecOn with
  | nil => rwa [append_nil]
  | append_singleton more r ih =>
    rw [← append_assoc, finishedRecord_snoc, ih]
    rfl

variable {s : Finish12}

section Finish

variable {cr : Crypto Cert Key} {sec : Secrets12 Key} {T : Bytes}

/-- What the last loop has seen, and what it has compared. -/
structure Finish12Inv (cr : Crypto Cert Key) (sec : Secrets12 Key) (T : Bytes) (s : Finish12) :
    Prop where
  ccs : s.foundCCS = true ↔ ∃ r ∈ s.handled, r.contentType = 0x14
  transcript : s.stops = false → s.tls12Transcript = T ++ plaintextBeforeCCS s.handled
  /-- Before the `break` no encrypted handshake record was handled. -/
  pending : s.stops = false → finishedRecord s.handled = none
  finished : s.done = true → ∃ fin d, finishedRecord s.handled = some fin ∧
    decryptFinished cr sec fin = some d ∧
    (4 ≤ d.length →
      d.drop 4 = expectedServerVerify cr sec (T ++ plaintextBeforeCCS s.handled ++ sec.finishedMsg))

theorem handleFinishRecord_handled (s : Finish12) (r : Record) :
    (handleFinishRecord cr sec s r).handled = s.handled ++ [r] := by
  unfold handleFinishRecord
  dsimp only
  repeat' split
  all_goals rfl

theorem finish12Inv_handleRecord (hs : s.stops = false)
    (h : Finish12Inv cr sec T s) (r : Record) :
    Finish12Inv cr sec T (handleFinishRecord cr sec s r) := by
  have hdone : s.done = false := by
    unfold Finish12.stops at hs
    exact (Bool.or_eq_false_iff.mp hs).1
  have hccs : ∀ b : Bool, (b = true ↔ s.foundCCS = true ∨ r.contentType = 0x14) →
      (b = true ↔ ∃ o ∈ s.handled ++ [r], o.contentType = 0x14) := by
    intro b hb
    rw [hb, h.ccs]
    simp [or_and_right, exists_or]
  have hfinished := finishedRecord_snoc s.handled r
  rw [h.pending hs, Option.none_or] at hfinished
  have hplain := plaintextBeforeCCS_snoc s.handled r
  unfold handleFinishRecord
  dsimp only
  split
  · -- ChangeCipherSpec
    rename_i hr
    refine ⟨hccs _ (by simp [hr]), fun _ => ?_, fun _ => ?_, fun hd => ?_⟩
    · rw [hplain, if_pos (.inr (by rw [hr]; decide)), append_nil, h.transcript hs]
    · rw [hfinished, if_neg (by rw [hr]; simp)]
    · rw [hdone] at hd
      cases hd
  · rename_i hr
    split
    · -- plaintext handshake
      rename_i hplaintext
      have hnone : ¬ ∃ o ∈ s.handled, o.contentType = 0x14 := by
        rw [← h.ccs, hplaintext.2]
        decide
      refine ⟨hccs _ (by simp [hr]), fun _ => ?_, fun _ => ?_, fun hd => ?_⟩
      · rw [hplain, if_neg (by simp [hnone, hplaintext.1]), h.transcript hs, append_assoc]
      · rw [hfinished, if_neg (by simp [hnone])]
      · rw [hdone] at hd
        cases hd
    · rename_i hnotplain
      split
      · -- Finished
        rename_i htype
        have hfound : s.foundCCS = true := by
          by_contra hc
          exact hnotplain ⟨htype, by simpa using hc⟩
        have hex := h.ccs.mp hfound
        rw [if_pos ⟨hex, htype⟩] at hfinished
        rw [if_pos (.inl hex), append_nil] at hplain
        split
        · refine ⟨hccs _ (by simp [hr]), fun hst => ?_, fun hst => ?_, fun hd => ?_⟩
          · simp [Finish12.stops] at hst
          · simp [Finish12.stops] at hst
          · rw [hdone] at hd
            cases hd
        · rename_i d hd
          split
          · refine ⟨hccs _ (by simp [hr]), fun hst => ?_, fun hst => ?_, fun hd => ?_⟩
            · simp [Finish12.stops] at hst
            · simp [Finish12.stops] at hst
            · rw [hdone] at hd
              cases hd
          · rename_i hcompare
            refine ⟨hccs _ (by simp [hr]), fun hst => ?_, fun hst => ?_, fun _ => ?_⟩
            · simp [Finish12.stops] at hst
            · simp [Finish12.stops] at hst
            · refine ⟨r, d, hfinished, hd, fun hlen => ?_⟩
              rw [hplain, ← h.transcript hs]
              by_contra hne
              exact hcompare ⟨hlen, fun heq => hne ((constantTimeEqual_iff _ _).mp heq)⟩
      · -- any other record
        rename_i htype
        refine ⟨hccs _ (by simp [hr]), fun _ => ?_, fun _ => ?_, fun hd => ?_⟩
        · rw [hplain, if_pos (.inr htype), append_nil, h.transcript hs]
        · rw [hfinished, if_neg (by simp [htype])]
        · rw [hdone] at hd
          cases hd

/-- No read that leaves fewer than five bytes behind the records comes before the
Finished: the last loop would end there. -/
def ReadsToFinished (seen : Bytes) (reads : List Bytes) : Prop :=
  ∀ n, 12 ≤ (seen ++ (reads.take n).flatten).length →
    finishedRecord (records.frames (seen ++ (reads.take n).flatten)) = none →
    5 ≤ (records.rest (seen ++ (reads.take n).flatten)).length

theorem readsToFinished_cons {data : Bytes} {reads : List Bytes} :
    ReadsToFinished seen (data :: reads) ↔
      (12 ≤ seen.length → finishedRecord (records.frames seen) = none →
        5 ≤ (records.rest seen).length) ∧ ReadsToFinished (seen ++ data) reads := by
  constructor
  · intro h
    refine ⟨by simpa using h 0, fun n => ?_⟩
    simpa [append_assoc] using h (n + 1)
  · rintro ⟨h0, h⟩ n
    cases n with
    | zero => simpa using h0
    | succ n => simpa [append_assoc] using h n

theorem readsToFinished_of_finished {fin : Record}
    (h : finishedRecord (records.frames seen) = some fin) (reads : List Bytes) :
    ReadsToFinished seen reads := by
  intro n _ hnone
  rw [records.frames_append, finishedRecord_append h] at hnone
  cases hnone

theorem foldl_handleFinishRecord_handled (rs : List Record) (s : Finish12) :
    (rs.foldl (handleFinishRecord cr sec) s).handled = s.handled ++ rs := by
  induction rs generalizing s with
  | nil => exact (append_nil _).symm
  | cons r rs ih =>
    rw [foldl_cons, ih, handleFinishRecord_handled, append_assoc]
    rfl

/-- The end of a pass that began with the records of `seen` still to be handled. -/
theorem finish_pass (hinv : Finish12Inv cr sec T s)
    (hframes : s.handled ++ records.frames rest = records.frames seen)
    (hrest : records.rest rest = records.rest seen) {pass : Finish12 × Bytes}
    (hpass : records.drain (handleFinishRecord cr sec) Finish12.stops s rest = pass) :
    Finish12Inv cr sec T pass.1 ∧
      (∃ gs, records.frames seen = pass.1.handled ++ gs) ∧
      (pass.1.stops = false →
        records.frames seen = pass.1.handled ∧ pass.2 = records.rest seen) := by
  subst hpass
  obtain ⟨fs, gs, hsplit, hstate, hall⟩ :=
    records.drain_frames (handleFinishRecord cr sec) Finish12.stops s rest
  have hhandled : records.frames seen =
      (records.drain (handleFinishRecord cr sec) Finish12.stops s rest).1.handled ++ gs := by
    rw [hstate, foldl_handleFinishRecord_handled, append_assoc, ← hsplit, hframes]
  refine ⟨?_, ⟨gs, hhandled⟩, fun hstop => ?_⟩
  · exact records.drain_invariant _ _ (I := Finish12Inv cr sec T)
      (fun _ _ r _ hs _ h => finish12Inv_handleRecord hs h r) hinv rest
  · obtain ⟨rfl, htail⟩ := hall hstop
    rw [append_nil] at hhandled
    exact ⟨hhandled, htail.trans hrest⟩

theorem Finish12.stops_eq_false (herr : s.error = none) :
    s.stops = false ↔ s.done = false := by
  simp [Finish12.stops, herr]

/-- Where the loop is left: behind the Finished, or too early. -/
theorem finish_exit {gs : List Record}
    (hinv : Finish12Inv cr sec T s) (hframes : records.frames seen = s.handled ++ gs)
    (hall : s.stops = false → records.frames seen = s.handled ∧ rest = records.rest seen)
    (herr : s.error = none) (hlen : 12 ≤ seen.length) (hexit : s.done = true ∨ rest.length < 5)
    (reads : List Bytes) : s.done = true ↔ ReadsToFinished seen reads := by
  constructor
  · intro hdone
    obtain ⟨fin, -, hfin, -, -⟩ := hinv.finished hdone
    have hfound : finishedRecord (records.frames seen) = some fin := by
      rw [hframes]
      exact finishedRecord_append hfin gs
    exact readsToFinished_of_finished hfound reads
  · intro hreads
    by_contra hdone
    have hstop : s.stops = false := (Finish12.stops_eq_false herr).mpr (by simpa using hdone)
    obtain ⟨hseen, hrest⟩ := hall hstop
    -- the loop ended on fewer than five bytes, with no Finished so far
    have hfew : rest.length < 5 := hexit.resolve_left hdone
    have hfive := hreads 0
    rw [take_zero, flatten_nil, append_nil, hseen] at hfive
    have := hfive hlen (hinv.pending hstop)
    rw [← hrest] at this
    omega

/-- **The last loop** reached the Finished exactly when no read ended it before. -/
theorem finishFlight_returned {f : Finish12} {remaining : Bytes}
    {transport : Reads} (hinv : Finish12Inv cr sec T s)
    (hlen : 12 ≤ seen.length)
    (hframes : s.handled ++ records.frames rest = records.frames seen)
    (hrest : records.rest rest = records.rest seen)
    (h : finishFlight cr sec s rest reads = .returned (f, remaining, transport)) :
    Finish12Inv cr sec T f ∧ f.error = none ∧
      (f.done = true ↔ ReadsToFinished seen reads.chunks) ∧
      ∃ gs, records.frames (seen ++ reads.bytes) = f.handled ++ gs := by
  induction reads generalizing s rest seen with
  | nil =>
    unfold finishFlight at h
    obtain ⟨hpinv, ⟨gs, hgs⟩, hall⟩ := finish_pass hinv hframes hrest rfl
    generalize records.drain (handleFinishRecord cr sec) Finish12.stops s rest = pass at *
    dsimp only at h
    split at h
    · cases h
    · rename_i herr
      split at h
      · rename_i hexit
        simp only [Result.returned.injEq, Prod.mk.injEq] at h
        obtain ⟨rfl, -, -⟩ := h
        exact ⟨hpinv, herr, finish_exit hpinv hgs hall herr hlen hexit _, gs, by simpa using hgs⟩
      · cases h
  | cons data reads ih =>
    unfold finishFlight at h
    obtain ⟨hpinv, ⟨gs, hgs⟩, hall⟩ := finish_pass hinv hframes hrest rfl
    generalize records.drain (handleFinishRecord cr sec) Finish12.stops s rest = pass at *
    dsimp only at h
    split at h
    · cases h
    · rename_i herr
      split at h
      · rename_i hexit
        simp only [Result.returned.injEq, Prod.mk.injEq] at h
        obtain ⟨rfl, -, -⟩ := h
        refine ⟨hpinv, herr, finish_exit hpinv hgs hall herr hlen hexit _, ?_⟩
        rw [records.frames_append, hgs, append_assoc]
        exact ⟨_, rfl⟩
      · rename_i hon
        rw [not_or, Nat.not_lt] at hon
        have hstop : pass.1.stops = false :=
          (Finish12.stops_eq_false herr).mpr (by simpa using hon.1)
        obtain ⟨hseen, htail⟩ := hall hstop
        cases data with
        | none => cases h
        | some data =>
          -- the next pass finds the records of one more read to be handled
          have hlonger : 12 ≤ (seen ++ data).length := by
            rw [length_append]
            omega
          obtain ⟨hfinv, hferr, hiff, hgs'⟩ := ih hpinv hlonger
            (by rw [records.frames_append seen, hseen, htail])
            (by rw [records.rest_append seen, htail]) h
          refine ⟨hfinv, hferr, ?_, ?_⟩
          · rw [Reads.chunks_cons, readsToFinished_cons, hiff]
            refine ⟨fun hr => ⟨fun _ _ => ?_, hr⟩, fun hr => hr.2⟩
            rw [← htail]
            exact hon.2
          · simpa [append_assoc] using hgs'

theorem atLeastTwelve_returned {buf : Bytes} {more : Reads}
    (h : atLeastTwelve rest reads = .returned (buf, more)) :
    12 ≤ buf.length ∧
      (ReadsToFinished rest reads.chunks ↔
        ReadsToFinished buf more.chunks) ∧
      rest ++ reads.bytes = buf ++ more.bytes := by
  induction reads generalizing rest with
  | nil =>
    unfold atLeastTwelve at h
    split at h
    · rename_i hlen
      simp only [Result.returned.injEq, Prod.mk.injEq] at h
      obtain ⟨rfl, rfl⟩ := h
      exact ⟨hlen, Iff.rfl, rfl⟩
    · cases h
  | cons data reads ih =>
    unfold atLeastTwelve at h
    split at h
    · rename_i hlen
      simp only [Result.returned.injEq, Prod.mk.injEq] at h
      obtain ⟨rfl, rfl⟩ := h
      exact ⟨hlen, Iff.rfl, rfl⟩
    · rename_i hlen
      cases data with
      | none => cases h
      | some data =>
        obtain ⟨hbuf, hiff, hbytes⟩ := ih h
        refine ⟨hbuf, ?_, ?_⟩
        · rw [← hiff, Reads.chunks_cons, readsToFinished_cons]
          exact ⟨fun hr => hr.2, fun hr => ⟨fun h12 => absurd h12 hlen, hr⟩⟩
        · rw [← hbytes]
          simp [append_assoc]

/-- `sendTls12ClientKeyExchangeAndFinished` reached the Finished exactly when no
read ended its loop before. -/
theorem receiveServerFinished_returned {remaining : Bytes} {f : Finish12}
    {transport : Reads}
    (h : receiveServerFinished cr sec T rest reads = .returned (f, remaining, transport)) :
    Finish12Inv cr sec T f ∧ f.error = none ∧
      (f.done = true ↔ ReadsToFinished rest reads.chunks) ∧
      ∃ gs, records.frames (rest ++ reads.bytes) = f.handled ++ gs := by
  unfold receiveServerFinished at h
  split at h
  · cases h
  · cases h
  · rename_i buf more hbuf
    obtain ⟨hlen, hiff, hbytes⟩ := atLeastTwelve_returned hbuf
    rw [hiff, hbytes]
    refine finishFlight_returned ?_ hlen rfl rfl h
    refine ⟨by simp, fun _ => ?_, fun _ => rfl, fun hd => ?_⟩
    · simp [plaintextBeforeCCS]
    · cases hd

end Finish

-- ----
-- Server authentication

/-- What TLS 1.2 server authentication asks of a handshake: a chain with a leaf
was accepted; when there was a ServerKeyExchange, its signature was verified
under that leaf over both randoms and the parameters the secret was agreed on
with; and the handshake record behind the ChangeCipherSpec was decrypted and had
the expected verify_data. -/
structure ServerAuthenticated12 (cr : Crypto Cert Key) (c : Session)
    (e : Established12 Cert Key) : Prop where
  signed : ∃ leaf rest, e.chain = some (leaf :: rest) ∧
    validateCertificate cr c.configuration.serverName (leaf :: rest) = .ok () ∧
    ∀ body, lastKeyExchange e.received = some body → ∃ algorithm signature,
      e.keyExchangeCheck = some (leaf, algorithm,
        c.clientRandom ++ e.agreement.secrets.hello.serverRandom ++ keyExchangeParams body,
        signature) ∧
      cr.verifySignature leaf algorithm
        (c.clientRandom ++ e.agreement.secrets.hello.serverRandom ++ keyExchangeParams body)
        signature = true ∧
      processECDHEServerKeyExchange cr (keyExchangeParams body) =
        .ok (e.agreement.preMasterSecret, e.agreement.ckeBody)
  finished : ∃ fin d, finishedRecord e.handled = some fin ∧
    decryptFinished cr e.agreement.secrets fin = some d ∧ 4 ≤ d.length ∧
    d.drop 4 = expectedServerVerify cr e.agreement.secrets
      (e.agreement.transcript ++ plaintextBeforeCCS e.handled ++ e.agreement.secrets.finishedMsg)

/-- The server's bytes reach all three checks: `seen` is what was read up to
ServerHelloDone, `later` are the reads behind it. -/
structure ChecksReached12 (cr : Crypto Cert Key) (c : Session) (hello : Hello12)
    (T0 seen : Bytes) (later : Reads) : Prop where
  chain : lastChain12 cr (plaintextMessages seen) ≠ []
  signature : ∀ body, lastKeyExchange (plaintextMessages seen) = some body →
    keyExchangeSignature body ≠ none
  reads : ReadsToFinished (records.rest seen) later.chunks
  plaintext : ∀ a fin d, agree12 cr c hello (flight12 cr T0 seen) = .ok a →
    finishedRecord (records.frames (records.rest seen ++ later.bytes)) =
      some fin → decryptFinished cr a.secrets fin = some d → 4 ≤ d.length

variable {e : Established12 Cert Key} {hello : Hello12}

section Authentication

variable {cr : Crypto Cert Key} {c : Session}

theorem validateIfAny_ok {certs : List Cert} {chain : Option (List Cert)}
    (hv : c.skipValidation = false) (h : validateIfAny cr c certs = .ok chain) :
    (certs = [] ∧ chain = none) ∨
      (certs ≠ [] ∧ chain = some certs ∧
        validateCertificate cr c.configuration.serverName certs = .ok ()) := by
  unfold validateIfAny at h
  rw [hv, Bool.false_or] at h
  split at h
  · rename_i hempty
    simp only [Except.ok.injEq] at h
    exact .inl ⟨List.isEmpty_iff.mp hempty, h.symm⟩
  · rename_i hempty
    split at h
    · cases h
    · rename_i hvalid
      simp only [Except.ok.injEq] at h
      exact .inr ⟨fun hnil => hempty (List.isEmpty_iff.mpr hnil), h.symm, hvalid⟩

/-- The signature is verified when there is a leaf and all of the signature. -/
theorem verifyTls12ServerKeyExchange_ok {serverRandom body : Bytes} {certs : List Cert}
    {check : Option (KeyExchangeCheck Cert)} (hv : c.skipValidation = false)
    (h : verifyTls12ServerKeyExchange cr c serverRandom certs body = .ok check) :
    (check = none ∧ (certs = [] ∨ keyExchangeSignature body = none)) ∨
      ∃ leaf rest algorithm signature, certs = leaf :: rest ∧
        keyExchangeSignature body = some (algorithm, signature) ∧
        check = some (leaf, algorithm, c.clientRandom ++ serverRandom ++ keyExchangeParams body,
          signature) ∧
        cr.verifySignature leaf algorithm
          (c.clientRandom ++ serverRandom ++ keyExchangeParams body) signature = true := by
  unfold verifyTls12ServerKeyExchange at h
  cases certs with
  | nil =>
    simp only [List.head?_nil, Except.ok.injEq] at h
    exact .inl ⟨h.symm, .inl rfl⟩
  | cons leaf rest =>
    cases hsig : keyExchangeSignature body with
    | none =>
      simp only [hsig, List.head?_cons, Except.ok.injEq] at h
      exact .inl ⟨h.symm, .inr rfl⟩
    | some p =>
      obtain ⟨algorithm, signature⟩ := p
      simp only [hsig, List.head?_cons] at h
      split at h
      · rename_i hok
        simp only [Except.ok.injEq] at h
        exact .inr ⟨leaf, rest, algorithm, signature, rfl, rfl, h.symm, hok⟩
      · rw [hv] at h
        cases h

theorem finishTls12Handshake_returned {s : Flight12 Cert}
    (h : finishTls12Handshake cr c hello s rest reads = .returned e) :
    validateIfAny cr c s.serverCertificates = .ok e.chain ∧
      verifyIfAny cr c hello.serverRandom s = .ok e.keyExchangeCheck ∧
      agree12 cr c hello s = .ok e.agreement ∧ e.received = s.received ∧
      ∃ f transport, receiveServerFinished cr e.agreement.secrets
        e.agreement.transcript rest reads =
        .returned (f, e.connection.receiveBuffer, transport) ∧ e.handled = f.handled ∧
        e.connection.transport = transport.chunks := by
  unfold finishTls12Handshake at h
  split at h
  · cases h
  · rename_i chain hchain
    split at h
    · cases h
    · rename_i check hcheck
      split at h
      · cases h
      · rename_i a ha
        split at h
        · cases h
        · cases h
        · rename_i f remaining transport hfinish
          simp only [Result.returned.injEq] at h
          subst h
          exact ⟨hchain, hcheck, ha, rfl, f, transport, hfinish, rfl, rfl⟩

theorem agree12_ok {s : Flight12 Cert} {a : Agreement12 Key}
    (h : agree12 cr c hello s = .ok a) :
    keyExchange cr hello.tls12CipherSuite s = .ok (a.preMasterSecret, a.ckeBody) ∧
      a.secrets.hello = hello := by
  unfold agree12 at h
  split at h
  · cases h
  · rename_i hkx
    simp only [Except.ok.injEq] at h
    subst h
    exact ⟨hkx, rfl⟩

/-- A handshake that returns authenticated the server exactly when the server's
bytes reached all three checks. -/
theorem authenticated12_iff {T0 : Bytes} {later : Reads} (hv : c.skipValidation = false)
    (h : finishTls12Handshake cr c hello (flight12 cr T0 seen) (records.rest seen) later =
      .returned e) :
    ServerAuthenticated12 cr c e ↔ ChecksReached12 cr c hello T0 seen later := by
  obtain ⟨hchain, hcheck, hagree, hrec, f, transport, hfinish, hhandled, -⟩ :=
    finishTls12Handshake_returned h
  obtain ⟨hinv, herr, hdone, gs, hgs⟩ := receiveServerFinished_returned hfinish
  have hflight : Flight12Inv cr (flight12 cr T0 seen) := flight12_inv T0 seen
  have hreceived : (flight12 cr T0 seen).received = plaintextMessages seen :=
    flight12_received T0 seen
  obtain ⟨hkx, hhello⟩ := agree12_ok hagree
  have hcerts := hflight.certificates
  have hske := hflight.keyExchange
  rw [hreceived] at hrec hcerts hske
  have hvalid := validateIfAny_ok hv hchain
  have hverified : ∀ body, lastKeyExchange (plaintextMessages seen) = some body →
      verifyTls12ServerKeyExchange cr c hello.serverRandom (lastChain12 cr (plaintextMessages seen))
        body = .ok e.keyExchangeCheck := by
    intro body hbody
    unfold verifyIfAny at hcheck
    rw [hske, hbody, hv, hcerts] at hcheck
    exact hcheck
  rw [hcerts] at hvalid
  constructor
  · rintro ⟨⟨leaf, rest, hsome, -, hsigned⟩, fin, d, hfin, hdec, hlen, -⟩
    rw [hhandled] at hfin
    have hfdone : f.done = true := by
      by_contra hnot
      have hstop := (Finish12.stops_eq_false herr).mpr (by simpa using hnot)
      rw [hinv.pending hstop] at hfin
      cases hfin
    refine ⟨?_, ?_, hdone.mp hfdone, ?_⟩
    · rintro hnil
      rcases hvalid with ⟨-, hnone⟩ | ⟨hne, -⟩
      · rw [hnone] at hsome
        cases hsome
      · exact hne hnil
    · intro body hbody hnosig
      obtain ⟨algorithm, signature, hcheck', -, -⟩ := hsigned body (by rw [hrec, hbody])
      rcases verifyTls12ServerKeyExchange_ok hv (hverified body hbody) with
        ⟨hnone, -⟩ | ⟨_, _, _, _, -, hsig, -⟩
      · rw [hnone] at hcheck'
        cases hcheck'
      · rw [hnosig] at hsig
        cases hsig
    · intro a fin' d' ha hfin' hdec'
      rw [hagree, Except.ok.injEq] at ha
      rw [hgs, finishedRecord_append hfin, Option.some.injEq] at hfin'
      rw [← ha, ← hfin', hdec, Option.some.injEq] at hdec'
      rwa [← hdec']
  · rintro ⟨hne, hsig, hreads, hplain⟩
    rcases hvalid with ⟨hnil, -⟩ | ⟨-, hsome, hok⟩
    · exact absurd hnil hne
    · obtain ⟨leaf, rest, hcons⟩ := exists_cons_of_ne_nil hne
      rw [hcons] at hsome hok
      refine ⟨⟨leaf, rest, hsome, hok, fun body hbody => ?_⟩, ?_⟩
      · rw [hrec] at hbody
        rcases verifyTls12ServerKeyExchange_ok hv (hverified body hbody) with
          ⟨-, hnil | hnosig⟩ | ⟨leaf', rest', algorithm, signature, hcons', -, hcheck', hverify⟩
        · exact absurd hnil hne
        · exact absurd hnosig (hsig body hbody)
        · rw [hcons, List.cons.injEq] at hcons'
          obtain ⟨rfl, -⟩ := hcons'
          rw [hhello]
          refine ⟨algorithm, signature, hcheck', hverify, processECDHE_params ?_⟩
          unfold keyExchange at hkx
          rw [hske, hbody] at hkx
          exact hkx
      · -- the Finished was reached, so it was compared when it was long enough
        obtain ⟨fin, d, hfin, hdec, hcompare⟩ := hinv.finished (hdone.mpr hreads)
        have hfin' := finishedRecord_append hfin gs
        rw [← hgs] at hfin'
        have hlen := hplain e.agreement fin d hagree hfin' hdec
        rw [hhandled]
        exact ⟨fin, d, hfin, hdec, hlen, hcompare hlen⟩

/-- `handleTls12Handshake` returns through the end of the flight it collected. -/
theorem handleTls12Handshake_returned {buffer : Bytes}
    (h : handleTls12Handshake cr c buffer reads = .returned e) :
    ∃ hello, parseTls12ServerHello (extractServerHelloMessage buffer) = .ok hello ∧
      finishTls12Handshake cr c hello
        (flight12 cr (c.storedClientHello ++ extractServerHelloMessage buffer)
          (readToServerHelloDone buffer reads).1)
        (records.rest (readToServerHelloDone buffer reads).1)
        (readToServerHelloDone buffer reads).2 = .returned e := by
  unfold handleTls12Handshake at h
  dsimp only at h
  split at h
  · cases h
  · split at h
    · cases h
    · rename_i hello hparse
      split at h
      · cases h
      · split at h
        · cases h
        · cases h
        · rename_i s rest more hcollect
          obtain ⟨rfl, rfl, rfl⟩ := collectFlight_returned (drain_handleRecord12 _ _) hcollect
          exact ⟨hello, hparse, h⟩

end Authentication

end Anywhere.Tls
