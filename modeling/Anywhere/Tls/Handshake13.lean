import Anywhere.Tls.Certificate

/-!
# Anywhere — the encrypted flight of a TLS 1.3 server

`consumeRemainingHandshake` of `TlsClient`: a pass over the records in the
buffer, and, while the server's Finished has not been found, another pass over
what is left and one more read. What a pass collects about CertificateVerify is
local to it; the certificates, the transcript and the sequence number are not.

A `Flight` also records the handshake messages that were handled, and how many
of them before the current pass; nothing reads these two fields.

* `FlightInv` — the transcript, the certificates and the collected evidence, as
  functions of the messages handled so far.
-/

namespace Anywhere.Tls

open List

variable {Cert Key : Type}

-- ----
-- The model

/-- The fields and locals `consumeRemainingHandshake` works on. -/
structure Flight (Cert : Type) where
  serverCertificates : List Cert := []
  serverHandshakeSeqNum : Nat := 0
  fullTranscript : Bytes
  foundServerFinished : Bool := false
  transcriptBeforeCertVerify : Option Bytes := none
  certificateVerifySignature : Option Bytes := none
  certificateVerifyAlgorithm : Nat := 0
  /-- The messages handled so far. -/
  received : List HandshakeMessage := []
  /-- How many of them were handled before this pass. -/
  passStart : Nat := 0

/-- The locals of a new call. -/
def Flight.startPass (s : Flight Cert) : Flight Cert :=
  { s with
    foundServerFinished := false
    transcriptBeforeCertVerify := none
    certificateVerifySignature := none
    certificateVerifyAlgorithm := 0
    passStart := s.received.length }

def verifyAlgorithm : Bytes → Option Nat
  | a1 :: a2 :: _ :: _ :: _ => some (be16 a1 a2)
  | _ => none

def verifySignature : Bytes → Option Bytes
  | _ :: _ :: l1 :: l2 :: rest =>
    if be16 l1 l2 ≤ rest.length then some (rest.take (be16 l1 l2)) else none
  | _ => none

section Model

variable (cr : Crypto Cert Key)

/-- `decryptHandshakeRecord`: the inner plaintext without its padding and content
type. -/
def decryptHandshakeRecord (keys : Key) (seqNum : Nat) (recordHeader ciphertext : Bytes) :
    Option Bytes :=
  if ciphertext.length < 16 then none
  else
    match cr.aeadOpen keys seqNum recordHeader ciphertext with
    | none => none
    | some decrypted =>
      match decrypted.reverse.dropWhile (· == 0) with
      | [] => none
      | _ :: content => some content.reverse

/-- One message of the flight; `true` when its handling throws. -/
def handleMessage (keys : Key) (s : Flight Cert) (m : HandshakeMessage) : Flight Cert × Bool :=
  let transcriptBefore := s.fullTranscript
  let s := { s with
    fullTranscript := transcriptBefore ++ m.bytes, received := s.received ++ [m] }
  if m.hsType = 0x0B then
    ({ s with serverCertificates := parseCertificateMessage cr m.body }, false)
  else if m.hsType = 0x19 then
    match decompressCertificate cr m.body with
    | some decompressed =>
      ({ s with serverCertificates := parseCertificateMessage cr decompressed }, false)
    | none => (s, false)
  else if m.hsType = 0x0F then
    ({ s with
      transcriptBeforeCertVerify := some transcriptBefore
      certificateVerifyAlgorithm := (verifyAlgorithm m.body).getD s.certificateVerifyAlgorithm
      certificateVerifySignature := (verifySignature m.body).or s.certificateVerifySignature },
      false)
  else if m.hsType = 0x14 then
    if constantTimeEqual m.body (cr.computeFinishedVerifyData keys transcriptBefore) then
      ({ s with foundServerFinished := true }, false)
    else (s, true)
  else (s, false)

/-- The message loop over a decrypted record; it ends at an exception. -/
def handleMessages (keys : Key) (s : Flight Cert) (decrypted : Bytes) : Flight Cert :=
  (messages.drain (fun p m => handleMessage cr keys p.1 m) Prod.snd (s, false) decrypted).1.1

/-- One record: an encrypted one is decrypted and its messages handled, and an
exception in that is swallowed; any other is skipped. -/
def handleRecord (keys : Key) (s : Flight Cert) (r : Record) : Flight Cert :=
  if r.contentType = 0x17 then
    match decryptHandshakeRecord cr keys s.serverHandshakeSeqNum r.header r.payload with
    | none => s
    | some decrypted =>
      handleMessages cr keys { s with serverHandshakeSeqNum := s.serverHandshakeSeqNum + 1 }
        decrypted
  else s

/-- What was checked about the server: the chain `validateCertificate` accepted,
and the algorithm, transcript and signature `verifyCertificateVerify` accepted
under its leaf. -/
structure Authentication (Cert : Type) where
  chain : List Cert
  certificateVerify : Option (Nat × Bytes × Bytes)

/-- The checks behind the server's Finished. -/
def authenticate (c : Session) (cipherSuite : Nat) (s : Flight Cert) :
    Except TlsError (Option (Authentication Cert)) :=
  if c.skipValidation then .ok none
  else if s.serverCertificates.isEmpty then
    .error (.certificateValidationFailed "No server certificates received")
  else
    match validateCertificate cr c.configuration.serverName s.serverCertificates with
    | .error e => .error e
    | .ok () =>
      match s.transcriptBeforeCertVerify, s.certificateVerifySignature with
      | some transcript, some signature =>
        match verifyCertificateVerify cr cipherSuite s.serverCertificates transcript
            s.certificateVerifyAlgorithm signature with
        | .error e => .error e
        | .ok () =>
          .ok (some ⟨s.serverCertificates,
            some (s.certificateVerifyAlgorithm, transcript, signature)⟩)
      | _, _ => .ok (some ⟨s.serverCertificates, none⟩)

/-- What a `TlsRecordConnection` is made of: keys, cipher suite, the bytes
prepended to its receive buffer, and what its transport still delivers. -/
structure TlsRecordConnection (Key : Type) where
  applicationKeys : Key
  cipherSuite : Nat
  receiveBuffer : Bytes
  transport : List Bytes

/-- A TLS 1.3 handshake that returned, with what it went through. -/
structure Established13 (Cert Key : Type) where
  connection : TlsRecordConnection Key
  /-- The transcript of the two hellos. -/
  helloTranscript : Bytes
  handshakeKeys : Key
  received : List HandshakeMessage
  passStart : Nat
  authentication : Option (Authentication Cert)

/-- `consumeRemainingHandshake`: a `null` from `receive` leaves the buffer as it
is. -/
def consumeRemainingHandshake (c : Session) (keys : Key) (cipherSuite : Nat)
    (transcript buffer : Bytes) (reads : Reads) : Result TlsError (Established13 Cert Key) :=
  match records.readLoop (handleRecord cr keys) Flight.foundServerFinished Flight.startPass
      { fullTranscript := transcript } buffer reads.chunks with
  | none => .waiting
  | some (s, remaining, transport) =>
    match authenticate cr c cipherSuite s with
    | .error e => .threw e
    | .ok authentication =>
      .returned
        { connection :=
            { applicationKeys := cr.deriveApplicationKeys keys s.fullTranscript
              cipherSuite := cipherSuite
              receiveBuffer := remaining
              transport := transport }
          helloTranscript := transcript
          handshakeKeys := keys
          received := s.received
          passStart := s.passStart
          authentication := authentication }

end Model

-- ----
-- What was handled

def transcriptOf (ms : List HandshakeMessage) : Bytes := ms.flatMap HandshakeMessage.bytes

@[simp] theorem transcriptOf_append (a b : List HandshakeMessage) :
    transcriptOf (a ++ b) = transcriptOf a ++ transcriptOf b := by
  simp [transcriptOf]

@[simp] theorem transcriptOf_singleton (m : HandshakeMessage) : transcriptOf [m] = m.bytes := by
  simp [transcriptOf]

theorem prefix_eq_of_transcriptOf {a b x y : List HandshakeMessage}
    (h : a ++ x = b ++ y) (hne : ∀ m ∈ a ++ x, m.bytes ≠ [])
    (hbytes : transcriptOf a = transcriptOf b) : a = b := by
  induction a generalizing b with
  | nil =>
    cases b with
    | nil => rfl
    | cons m b =>
      have hm : m.bytes ≠ [] := hne m (by rw [h]; simp)
      simp [transcriptOf] at hbytes
      exact absurd hbytes.1 hm
  | cons m a ih =>
    cases b with
    | nil =>
      have hm : m.bytes ≠ [] := hne m (by simp)
      simp [transcriptOf] at hbytes
      exact absurd hbytes.1 hm
    | cons m' b =>
      simp only [cons_append, List.cons.injEq] at h
      obtain ⟨rfl, h⟩ := h
      have hrest : transcriptOf a = transcriptOf b := by
        simpa [transcriptOf] using hbytes
      rw [ih h (fun o ho => hne o (by simp [ho])) hrest]

theorem last_unique {α : Type} {p : α → Prop} {a b x y : List α} {m m' : α}
    (h : a ++ m :: x = b ++ m' :: y) (hm : p m) (hm' : p m') (hx : ∀ o ∈ x, ¬ p o)
    (hy : ∀ o ∈ y, ¬ p o) : a = b ∧ m = m' ∧ x = y := by
  rcases append_eq_append_iff.mp h with ⟨c, rfl, hc⟩ | ⟨c, rfl, hc⟩
  · cases c with
    | nil => simp_all
    | cons o c =>
      simp only [cons_append, List.cons.injEq] at hc
      exact absurd hm' (hx m' (by rw [hc.2]; simp))
  · cases c with
    | nil => simp_all
    | cons o c =>
      simp only [cons_append, List.cons.injEq] at hc
      exact absurd hm (hy m (by rw [hc.2]; simp))

section Evidence

variable (cr : Crypto Cert Key)

/-- The chain a message puts into `serverCertificates`. -/
def chainOf (m : HandshakeMessage) : Option (List Cert) :=
  if m.hsType = 0x0B then some (parseCertificateMessage cr m.body)
  else if m.hsType = 0x19 then (decompressCertificate cr m.body).map (parseCertificateMessage cr)
  else none

def lastChain (ms : List HandshakeMessage) : List Cert :=
  ms.foldl (fun certs m => (chainOf cr m).getD certs) []

/-- The collected evidence, as a function of what was handled since `T0`. -/
structure FlightInv (keys : Key) (T0 : Bytes) (s : Flight Cert) : Prop where
  nonempty : ∀ m ∈ s.received, m.bytes ≠ []
  pass_le : s.passStart ≤ s.received.length
  transcript : s.fullTranscript = T0 ++ transcriptOf s.received
  certificates : s.serverCertificates = lastChain cr s.received
  /-- The transcript is kept at the last CertificateVerify of the pass. -/
  before : ∀ t, s.transcriptBeforeCertVerify = some t →
    ∃ pre cv post, s.received = pre ++ cv :: post ∧ s.passStart ≤ pre.length ∧
      cv.hsType = 0x0F ∧ (∀ m ∈ post, m.hsType ≠ 0x0F) ∧ t = T0 ++ transcriptOf pre
  before_none : s.transcriptBeforeCertVerify = none →
    ∀ m ∈ s.received.drop s.passStart, m.hsType ≠ 0x0F
  signature : ∀ sig, s.certificateVerifySignature = some sig →
    ∃ cv ∈ s.received.drop s.passStart, cv.hsType = 0x0F ∧ verifySignature cv.body = some sig
  signature_none : s.certificateVerifySignature = none →
    ∀ m ∈ s.received.drop s.passStart, m.hsType = 0x0F → verifySignature m.body = none
  finished : s.foundServerFinished = true →
    ∃ pre fin post, s.received = pre ++ fin :: post ∧ fin.hsType = 0x14 ∧
      fin.body = cr.computeFinishedVerifyData keys (T0 ++ transcriptOf pre)

theorem flightInv_start (keys : Key) (T0 : Bytes) :
    FlightInv cr keys T0 ({ fullTranscript := T0 } : Flight Cert) := by
  refine ⟨?_, Nat.le_refl 0, ?_, rfl, ?_, ?_, ?_, ?_, ?_⟩
  · simp
  · simp [transcriptOf]
  · intro t h
    cases h
  · simp
  · intro sig h
    cases h
  · simp
  · intro h
    cases h

variable {cr} {keys : Key} {T0 : Bytes} {s : Flight Cert}

theorem flightInv_startPass (h : FlightInv cr keys T0 s) : FlightInv cr keys T0 s.startPass := by
  refine ⟨h.nonempty, Nat.le_refl _, h.transcript, h.certificates, ?_, ?_, ?_, ?_, ?_⟩
  · intro t ht
    cases ht
  · simp [Flight.startPass]
  · intro sig hsig
    cases hsig
  · simp [Flight.startPass]
  · intro hf
    cases hf

/-- A new message behind the pass's start. -/
theorem mem_drop_snoc {l : List HandshakeMessage} {n : Nat} (hn : n ≤ l.length)
    {m o : HandshakeMessage} : o ∈ (l ++ [m]).drop n ↔ o ∈ l.drop n ∨ o = m := by
  rw [drop_append_of_le_length hn, mem_append, mem_singleton]

theorem lastChain_snoc (ms : List HandshakeMessage) (m : HandshakeMessage) :
    lastChain cr (ms ++ [m]) = (chainOf cr m).getD (lastChain cr ms) := by
  simp [lastChain, foldl_append]

/-- What does not concern CertificateVerify and Finished is kept by any message. -/
theorem flightInv_handleMessage (h : FlightInv cr keys T0 s) {m : HandshakeMessage}
    (hm : m.bytes ≠ []) : FlightInv cr keys T0 (handleMessage cr keys s m).1 := by
  -- the parts that a message of any type extends in the same way
  have hne : ∀ o ∈ s.received ++ [m], o.bytes ≠ [] := by
    intro o ho
    rcases mem_append.mp ho with ho | ho
    · exact h.nonempty o ho
    · rw [mem_singleton.mp ho]
      exact hm
  have hle : s.passStart ≤ (s.received ++ [m]).length := by
    rw [length_append]
    exact Nat.le_trans h.pass_le (Nat.le_add_right _ _)
  have htr : s.fullTranscript ++ m.bytes = T0 ++ transcriptOf (s.received ++ [m]) := by
    rw [h.transcript, transcriptOf_append, transcriptOf_singleton, append_assoc]
  have hbefore : m.hsType ≠ 0x0F → ∀ t, s.transcriptBeforeCertVerify = some t →
      ∃ pre cv post, s.received ++ [m] = pre ++ cv :: post ∧ s.passStart ≤ pre.length ∧
        cv.hsType = 0x0F ∧ (∀ o ∈ post, o.hsType ≠ 0x0F) ∧ t = T0 ++ transcriptOf pre := by
    intro hcv t ht
    obtain ⟨pre, cv, post, hrec, hpass, htype, hpost, rfl⟩ := h.before t ht
    refine ⟨pre, cv, post ++ [m], by simp [hrec], hpass, htype, ?_, rfl⟩
    intro o ho
    rcases mem_append.mp ho with ho | ho
    · exact hpost o ho
    · rw [mem_singleton.mp ho]
      exact hcv
  have hnone : m.hsType ≠ 0x0F → s.transcriptBeforeCertVerify = none →
      ∀ o ∈ (s.received ++ [m]).drop s.passStart, o.hsType ≠ 0x0F := by
    intro hcv ht o ho
    rcases (mem_drop_snoc h.pass_le).mp ho with ho | rfl
    · exact h.before_none ht o ho
    · exact hcv
  have hsig : ∀ sig, s.certificateVerifySignature = some sig →
      ∃ cv ∈ (s.received ++ [m]).drop s.passStart,
        cv.hsType = 0x0F ∧ verifySignature cv.body = some sig := by
    intro sig hs
    obtain ⟨cv, hcv, htype, hbody⟩ := h.signature sig hs
    exact ⟨cv, (mem_drop_snoc h.pass_le).mpr (.inl hcv), htype, hbody⟩
  have hsnone : m.hsType ≠ 0x0F → s.certificateVerifySignature = none →
      ∀ o ∈ (s.received ++ [m]).drop s.passStart, o.hsType = 0x0F →
        verifySignature o.body = none := by
    intro hcv hs o ho htype
    rcases (mem_drop_snoc h.pass_le).mp ho with ho | rfl
    · exact h.signature_none hs o ho htype
    · exact absurd htype hcv
  have hfin : s.foundServerFinished = true →
      ∃ pre fin post, s.received ++ [m] = pre ++ fin :: post ∧ fin.hsType = 0x14 ∧
        fin.body = cr.computeFinishedVerifyData keys (T0 ++ transcriptOf pre) := by
    intro hf
    obtain ⟨pre, fin, post, hrec, htype, hbody⟩ := h.finished hf
    exact ⟨pre, fin, post ++ [m], by simp [hrec], htype, hbody⟩
  have hchain : chainOf cr m = none → s.serverCertificates = lastChain cr (s.received ++ [m]) := by
    intro hc
    rw [lastChain_snoc, hc, h.certificates, Option.getD_none]
  unfold handleMessage
  dsimp only
  split
  · -- Certificate
    rename_i hcert
    have hcv : m.hsType ≠ 0x0F := by rw [hcert]; decide
    refine ⟨hne, hle, htr, ?_, hbefore hcv, hnone hcv, hsig, hsnone hcv, hfin⟩
    simp [lastChain_snoc, chainOf, hcert]
  · rename_i hcert
    split
    · -- CompressedCertificate
      rename_i hcomp
      have hcv : m.hsType ≠ 0x0F := by rw [hcomp]; decide
      split
      · rename_i d hd
        refine ⟨hne, hle, htr, ?_, hbefore hcv, hnone hcv, hsig, hsnone hcv, hfin⟩
        simp [lastChain_snoc, chainOf, hcomp, hd]
      · rename_i hd
        have hc : chainOf cr m = none := by simp [chainOf, hcomp, hd]
        exact ⟨hne, hle, htr, hchain hc, hbefore hcv, hnone hcv, hsig, hsnone hcv, hfin⟩
    · rename_i hcomp
      have hc : chainOf cr m = none := by simp [chainOf, hcert, hcomp]
      split
      · -- CertificateVerify
        rename_i hverify
        refine ⟨hne, hle, htr, hchain hc, ?_, ?_, ?_, ?_, hfin⟩
        · intro t ht
          refine ⟨s.received, m, [], rfl, h.pass_le, hverify, by simp, ?_⟩
          rw [← h.transcript]
          exact (Option.some.inj ht).symm
        · intro ht
          cases ht
        · intro sig hs
          cases hbody : verifySignature m.body with
          | some sig' =>
            simp only [hbody, Option.some_or, Option.some.injEq] at hs
            exact ⟨m, (mem_drop_snoc h.pass_le).mpr (.inr rfl), hverify, by rw [hbody, hs]⟩
          | none =>
            simp only [hbody, Option.none_or] at hs
            exact hsig sig hs
        · intro hs o ho htype
          cases hbody : verifySignature m.body with
          | some sig' => simp [hbody] at hs
          | none =>
            simp only [hbody, Option.none_or] at hs
            rcases (mem_drop_snoc h.pass_le).mp ho with ho | rfl
            · exact h.signature_none hs o ho htype
            · exact hbody
      · rename_i hverify
        split
        · -- Finished
          rename_i hfinished
          split
          · rename_i hequal
            refine ⟨hne, hle, htr, hchain hc, hbefore hverify, hnone hverify, hsig, hsnone hverify,
              fun _ => ⟨s.received, m, [], rfl, hfinished, ?_⟩⟩
            rw [← h.transcript]
            exact (constantTimeEqual_iff _ _).mp hequal
          · exact ⟨hne, hle, htr, hchain hc, hbefore hverify, hnone hverify, hsig, hsnone hverify,
              hfin⟩
        · exact ⟨hne, hle, htr, hchain hc, hbefore hverify, hnone hverify, hsig, hsnone hverify,
            hfin⟩

theorem flightInv_handleRecord (h : FlightInv cr keys T0 s) (r : Record) :
    FlightInv cr keys T0 (handleRecord cr keys s r) := by
  unfold handleRecord
  split
  · split
    · exact h
    · rename_i decrypted _
      refine messages.drain_invariant (fun p m => handleMessage cr keys p.1 m) Prod.snd
        (I := fun p => FlightInv cr keys T0 p.1) ?_ ?_ decrypted
      · intro p xs m ys _ hnext hp
        exact flightInv_handleMessage hp (takeMessage_ne_nil hnext)
      · exact ⟨h.nonempty, h.pass_le, h.transcript, h.certificates, h.before, h.before_none,
          h.signature, h.signature_none, h.finished⟩
  · exact h

end Evidence

variable {T0 buffer : Bytes} {c : Session} {cipherSuite : Nat} {cr : Crypto Cert Key}
  {e : Established13 Cert Key} {reads : Reads}

/-- **Every handshake that returns** went through a flight with the server's
Finished in it, and its evidence passed the checks. -/
theorem consume_returned {keys : Key}
    (h : consumeRemainingHandshake cr c keys cipherSuite T0 buffer reads = .returned e) :
    ∃ s, s.foundServerFinished = true ∧ FlightInv cr keys T0 s ∧
      authenticate cr c cipherSuite s = .ok e.authentication ∧ e.received = s.received ∧
      e.passStart = s.passStart ∧ e.helloTranscript = T0 ∧ e.handshakeKeys = keys ∧
      e.connection.cipherSuite = cipherSuite := by
  unfold consumeRemainingHandshake at h
  split at h
  · cases h
  · rename_i s remaining transport hloop
    split at h
    · cases h
    · rename_i authentication hauth
      simp only [Result.returned.injEq] at h
      subst h
      obtain ⟨hfound, hinv⟩ := records.readLoop_invariant _ _
        (I := FlightInv cr keys T0) (fun _ => flightInv_startPass)
        (fun _ _ r _ _ _ hs => flightInv_handleRecord hs r) (flightInv_start cr keys T0) hloop
      exact ⟨s, hfound, hinv, hauth, rfl, rfl, rfl, rfl, rfl⟩

-- ----
-- The flight as the server sent it

/-- What the byte stream alone determines: no certificate, no evidence, no pass. -/
structure Decoded where
  seqNum : Nat := 0
  transcript : Bytes
  finished : Bool := false
  messages : List HandshakeMessage := []

def Flight.decoded (s : Flight Cert) : Decoded :=
  ⟨s.serverHandshakeSeqNum, s.fullTranscript, s.foundServerFinished, s.received⟩

variable {s : Flight Cert}

section Decoded

variable (cr : Crypto Cert Key) (keys : Key)

/-- A message of the stream; a Finished with the wrong content ends its record. -/
def decodeMessage (d : Decoded) (m : HandshakeMessage) : Decoded × Bool :=
  let d' := { d with transcript := d.transcript ++ m.bytes, messages := d.messages ++ [m] }
  if m.hsType = 0x14 then
    if m.body = cr.computeFinishedVerifyData keys d.transcript then
      ({ d' with finished := true }, false)
    else (d', true)
  else (d', false)

def decodeRecord (d : Decoded) (r : Record) : Decoded :=
  if r.contentType = 0x17 then
    match decryptHandshakeRecord cr keys d.seqNum r.header r.payload with
    | none => d
    | some decrypted =>
      (messages.drain (fun p m => decodeMessage cr keys p.1 m) Prod.snd
        ({ d with seqNum := d.seqNum + 1 }, false) decrypted).1.1
  else d

/-- The stream up to and including the record with the server's Finished, and
what is left of it. -/
def decodeStream (T0 stream : Bytes) : Decoded × Bytes :=
  records.drain (decodeRecord cr keys) Decoded.finished { transcript := T0 } stream

def serverFlight (T0 stream : Bytes) : List HandshakeMessage :=
  (decodeStream cr keys T0 stream).1.messages

/-- How many of them the records complete before the last read that is needed
carried; `seen` is what was read so far, `n` what came before the last of it. -/
def flightBeforeLastRead (T0 : Bytes) : Nat → Bytes → List Bytes → Nat
  | n, seen, reads =>
    if (decodeStream cr keys T0 seen).1.finished then n
    else
      match reads with
      | [] => n
      | data :: reads =>
        flightBeforeLastRead T0 (serverFlight cr keys T0 seen).length (seen ++ data) reads

variable {cr keys}

theorem decoded_handleMessage (s : Flight Cert) (m : HandshakeMessage) :
    ((handleMessage cr keys s m).1.decoded, (handleMessage cr keys s m).2) =
      decodeMessage cr keys s.decoded m := by
  have hequal := constantTimeEqual_iff m.body (cr.computeFinishedVerifyData keys s.fullTranscript)
  unfold handleMessage decodeMessage
  dsimp only
  split
  · rename_i hcert
    simp [Flight.decoded, hcert]
  · split
    · rename_i hcomp
      split <;> simp [Flight.decoded, hcomp]
    · split
      · rename_i hverify
        simp [Flight.decoded, hverify]
      · split
        · rename_i hfin
          have htr : s.decoded.transcript = s.fullTranscript := rfl
          rw [htr]
          by_cases hbody : m.body = cr.computeFinishedVerifyData keys s.fullTranscript
          · rw [if_pos (hequal.mpr hbody), if_pos hbody]
            rfl
          · rw [if_neg (fun h => hbody (hequal.mp h)), if_neg hbody]
            rfl
        · rfl

theorem decoded_handleRecord (s : Flight Cert) (r : Record) :
    (handleRecord cr keys s r).decoded = decodeRecord cr keys s.decoded r := by
  unfold handleRecord decodeRecord
  split
  · have hseq : s.decoded.seqNum = s.serverHandshakeSeqNum := rfl
    rw [hseq]
    cases hdec : decryptHandshakeRecord cr keys s.serverHandshakeSeqNum r.header r.payload with
    | none => rfl
    | some decrypted =>
      -- one message loop simulates the other, the exception included
      have hsim := messages.drain_map (fun p m => handleMessage cr keys p.1 m) Prod.snd
        (fun p m => decodeMessage cr keys p.1 m) Prod.snd
        (fun p : Flight Cert × Bool => (p.1.decoded, p.2))
        (fun p m => decoded_handleMessage p.1 m) (fun _ => rfl)
        ({ s with serverHandshakeSeqNum := s.serverHandshakeSeqNum + 1 }, false) decrypted
      exact (congrArg (fun x => x.1.1) hsim).symm
  · rfl

/-- A pass over `rest` decodes what a decoder in the same place decodes. -/
theorem decoded_pass (hs : s.foundServerFinished = false) (rest : Bytes) :
    records.drain (decodeRecord cr keys) Decoded.finished s.decoded rest =
      ((records.drain (handleRecord cr keys) Flight.foundServerFinished s.startPass rest).1.decoded,
        (records.drain (handleRecord cr keys) Flight.foundServerFinished s.startPass rest).2) := by
  have hstart : s.startPass.decoded = s.decoded := by
    simp [Flight.startPass, Flight.decoded, hs]
  rw [← hstart]
  exact records.drain_map _ _ _ _ Flight.decoded decoded_handleRecord (fun _ => rfl) _ _

theorem handleRecord_passStart (s : Flight Cert) (r : Record) :
    (handleRecord cr keys s r).passStart = s.passStart := by
  unfold handleRecord
  split
  · split
    · rfl
    · refine messages.drain_invariant (fun p m => handleMessage cr keys p.1 m) Prod.snd
        (I := fun p => p.1.passStart = s.passStart) ?_ rfl _
      intro p _ m _ _ _ hp
      rw [← hp]
      unfold handleMessage
      dsimp only
      repeat' split
      all_goals rfl
  · rfl

theorem pass_passStart (s : Flight Cert) (rest : Bytes) :
    (records.drain (handleRecord cr keys) Flight.foundServerFinished s.startPass rest).1.passStart =
      s.received.length := by
  refine records.drain_invariant (handleRecord cr keys) Flight.foundServerFinished
    (I := fun o => o.passStart = s.received.length) ?_ rfl rest
  intro o _ r _ _ _ ho
  rw [handleRecord_passStart, ho]

/-- **The loop decodes the stream**, whatever the cuts; they show in where the
last pass began. -/
theorem readLoop_decoded {reads : List Bytes} {s' : Flight Cert}
    (seen : Bytes) {rest remaining : Bytes} {transport : List Bytes}
    (hs : s.foundServerFinished = false)
    (hseen : records.drain (decodeRecord cr keys) Decoded.finished s.decoded rest =
      decodeStream cr keys T0 seen)
    (h : records.readLoop (handleRecord cr keys) Flight.foundServerFinished Flight.startPass s rest
      reads = some (s', remaining, transport)) :
    decodeStream cr keys T0 (seen ++ reads.flatten) =
        (s'.decoded, remaining ++ transport.flatten) ∧
      s'.passStart = flightBeforeLastRead cr keys T0 s.received.length seen reads := by
  induction reads generalizing s rest seen with
  | nil =>
    have hdec := hseen.symm.trans (decoded_pass hs rest)
    rw [Lib.Framing.readLoop] at h
    rw [flightBeforeLastRead]
    split at h
    · simp only [Option.some.injEq, Prod.mk.injEq] at h
      obtain ⟨rfl, rfl, rfl⟩ := h
      refine ⟨?_, ?_⟩
      · rw [flatten_nil, append_nil, append_nil, hdec]
      · rw [pass_passStart]
        split <;> rfl
    · cases h
  | cons data reads ih =>
    have hdec := hseen.symm.trans (decoded_pass hs rest)
    have hmore : ∀ zs, decodeStream cr keys T0 (seen ++ zs) =
        records.drain (decodeRecord cr keys) Decoded.finished (decodeStream cr keys T0 seen).1
          ((decodeStream cr keys T0 seen).2 ++ zs) :=
      records.drain_append (decodeRecord cr keys) Decoded.finished { transcript := T0 } seen
    rw [Lib.Framing.readLoop] at h
    rw [flightBeforeLastRead]
    split at h
    · rename_i hdone
      simp only [Option.some.injEq, Prod.mk.injEq] at h
      obtain ⟨rfl, rfl, rfl⟩ := h
      have hfin : (decodeStream cr keys T0 seen).1.finished = true := by
        rw [hdec]
        exact hdone
      refine ⟨?_, ?_⟩
      · -- the stream behind the Finished is not decoded
        rw [hmore, records.drain_stop _ _ hfin, hdec]
      · rw [if_pos hfin, pass_passStart]
    · rename_i hdone
      have hfin : ¬ (decodeStream cr keys T0 seen).1.finished = true := by
        rw [hdec]
        exact hdone
      -- the next pass goes on where the decoder of what was seen stands
      have hnext : records.drain (decodeRecord cr keys) Decoded.finished
          (records.drain (handleRecord cr keys) Flight.foundServerFinished s.startPass
            rest).1.decoded
          ((records.drain (handleRecord cr keys) Flight.foundServerFinished s.startPass rest).2 ++
            data) = decodeStream cr keys T0 (seen ++ data) := by
        rw [hmore, hdec]
      obtain ⟨hall, hcount⟩ := ih (seen ++ data) (by simpa using hdone) hnext h
      rw [if_neg hfin]
      refine ⟨?_, ?_⟩
      · rw [flatten_cons, ← append_assoc]
        exact hall
      · rw [hcount, serverFlight, hdec]
        rfl

/-- The messages of a handshake that returned, and where its last pass began. -/
theorem consume_received
    (h : consumeRemainingHandshake cr c keys cipherSuite T0 buffer reads = .returned e) :
    e.received = serverFlight cr keys T0 (buffer ++ reads.bytes) ∧
      e.passStart = flightBeforeLastRead cr keys T0 0 buffer reads.chunks := by
  unfold consumeRemainingHandshake at h
  split at h
  · cases h
  · rename_i s remaining transport hloop
    split at h
    · cases h
    · simp only [Result.returned.injEq] at h
      subst h
      obtain ⟨hall, hcount⟩ := readLoop_decoded buffer rfl rfl hloop
      rw [serverFlight, Reads.bytes, hall]
      exact ⟨rfl, hcount⟩

end Decoded

-- ----
-- Server authentication

/-- What TLS 1.3 server authentication asks of a handshake: the accepted chain
came in a Certificate message, a received signature was verified under its leaf
over the transcript up to and including that message, and a Finished with the
expected content was received. -/
structure ServerAuthenticated (cr : Crypto Cert Key) (c : Session) (e : Established13 Cert Key) :
    Prop where
  verified : ∃ chain algorithm signature pre cert post leaf,
    e.received = pre ++ cert :: post ∧ chainOf cr cert = some chain ∧
    validateCertificate cr c.configuration.serverName chain = .ok () ∧
    chain.head? = some leaf ∧
    e.authentication = some ⟨chain, some (algorithm,
      e.helloTranscript ++ transcriptOf (pre ++ [cert]), signature)⟩ ∧
    certificateVerifyOk cr e.connection.cipherSuite leaf algorithm
      (e.helloTranscript ++ transcriptOf (pre ++ [cert])) signature = true ∧
    ∃ cv ∈ e.received, cv.hsType = 0x0F ∧ verifySignature cv.body = some signature
  finished : ∃ pre fin post, e.received = pre ++ fin :: post ∧ fin.hsType = 0x14 ∧
    fin.body = cr.computeFinishedVerifyData e.handshakeKeys
      (e.helloTranscript ++ transcriptOf pre)

/-- The last CertificateVerify came in the last pass, right behind a message with
the chain that ends up in `serverCertificates`, and some CertificateVerify of the
pass has a complete signature. -/
def CertificateVerifyInPlace (cr : Crypto Cert Key) (received : List HandshakeMessage)
    (passStart : Nat) : Prop :=
  (∃ pre cert cv post, received = pre ++ cert :: cv :: post ∧ passStart ≤ pre.length + 1 ∧
    cv.hsType = 0x0F ∧ (∀ m ∈ post, m.hsType ≠ 0x0F) ∧
    chainOf cr cert = some (lastChain cr received)) ∧
  ∃ m ∈ received.drop passStart, m.hsType = 0x0F ∧ (verifySignature m.body).isSome

/-- What `authenticate` accepts. -/
theorem authenticate_ok {auth : Option (Authentication Cert)} (hv : c.skipValidation = false)
    (h : authenticate cr c cipherSuite s = .ok auth) :
    validateCertificate cr c.configuration.serverName s.serverCertificates = .ok () ∧
      ((∃ leaf t sig, s.serverCertificates.head? = some leaf ∧
          s.transcriptBeforeCertVerify = some t ∧ s.certificateVerifySignature = some sig ∧
          auth = some ⟨s.serverCertificates, some (s.certificateVerifyAlgorithm, t, sig)⟩ ∧
          certificateVerifyOk cr cipherSuite leaf s.certificateVerifyAlgorithm t sig = true) ∨
        ((s.transcriptBeforeCertVerify = none ∨ s.certificateVerifySignature = none) ∧
          auth = some ⟨s.serverCertificates, none⟩)) := by
  unfold authenticate at h
  rw [if_neg (by simp [hv])] at h
  split at h
  · cases h
  · split at h
    · cases h
    · rename_i hvalid
      refine ⟨hvalid, ?_⟩
      split at h
      · rename_i t sig ht hsig
        unfold verifyCertificateVerify at h
        cases hcerts : s.serverCertificates with
        | nil => simp [hcerts] at h
        | cons leaf rest =>
          rw [hcerts] at h
          simp only at h
          split at h
          · cases h
          · rename_i hok
            split at hok
            · rename_i hverify
              simp only [Except.ok.injEq] at h
              exact .inl ⟨leaf, t, sig, rfl, ht, hsig, h.symm, hverify⟩
            · cases hok
      · rename_i hmiss
        simp only [Except.ok.injEq] at h
        refine .inr ⟨?_, h.symm⟩
        cases ht : s.transcriptBeforeCertVerify with
        | none => exact .inl rfl
        | some t =>
          cases hsig : s.certificateVerifySignature with
          | none => exact .inr rfl
          | some sig => exact absurd hsig (hmiss t sig ht)

/-- A handshake that returns authenticated the server exactly when its last
CertificateVerify was in place. -/
theorem authenticated_iff {keys : Key}
    (hv : c.skipValidation = false)
    (h : consumeRemainingHandshake cr c keys cipherSuite T0 buffer reads = .returned e) :
    ServerAuthenticated cr c e ↔ CertificateVerifyInPlace cr e.received e.passStart := by
  obtain ⟨s, hfound, hinv, hauth, hrec, hpass, hT0, hkeys, hsuite⟩ := consume_returned h
  obtain ⟨hvalid, hcheck⟩ := authenticate_ok hv hauth
  rw [hrec, hpass]
  constructor
  · rintro ⟨⟨chain, algorithm, signature, pre, cert, post, leaf, hsplit, hchain, -, -, hsome, -, -⟩,
      -⟩
    rw [hrec] at hsplit
    rcases hcheck with ⟨leaf', t, sig, -, ht, hsig, hauth', -⟩ | ⟨-, hauth'⟩
    · -- what was verified is what the last CertificateVerify of the pass left
      rw [hauth', hT0] at hsome
      simp only [Option.some.injEq, Authentication.mk.injEq, Prod.mk.injEq] at hsome
      obtain ⟨rfl, -, ht', -⟩ := hsome
      obtain ⟨pre', cv, post', hsplit', hle, htype, hpost, rfl⟩ := hinv.before t ht
      have hbytes : transcriptOf pre' = transcriptOf (pre ++ [cert]) :=
        append_cancel_left ht'
      have hpre : pre' = pre ++ [cert] := by
        refine prefix_eq_of_transcriptOf (x := cv :: post') (y := post) ?_ ?_ hbytes
        · rw [← hsplit', hsplit]
          simp
        · rw [← hsplit']
          exact hinv.nonempty
      refine ⟨⟨pre, cert, cv, post', ?_, ?_, htype, hpost, ?_⟩, ?_⟩
      · rw [hsplit', hpre]
        simp
      · rw [hpre] at hle
        simpa using hle
      · rw [hchain, hinv.certificates]
      · obtain ⟨m, hm, hmtype, hmsig⟩ := hinv.signature sig hsig
        exact ⟨m, hm, hmtype, by simp [hmsig]⟩
    · rw [hauth'] at hsome
      simp at hsome
  · rintro ⟨⟨pre, cert, cv, post, hsplit, hle, htype, hpost, hchain⟩, m, hm, hmtype, hmsig⟩
    have hcv : cv ∈ s.received.drop s.passStart := by
      have hfront : s.received = (pre ++ [cert]) ++ cv :: post := by simp [hsplit]
      rw [hfront, drop_append_of_le_length (by simpa using hle)]
      simp
    -- both halves of the evidence were collected in the last pass
    have ht : s.transcriptBeforeCertVerify ≠ none :=
      fun hnone => hinv.before_none hnone cv hcv htype
    have hsig : s.certificateVerifySignature ≠ none := by
      intro hnone
      simp [hinv.signature_none hnone m hm hmtype] at hmsig
    rcases hcheck with ⟨leaf, t, sig, hleaf, ht, hsig, hauth', hok⟩ | ⟨hnone | hnone, -⟩
    · obtain ⟨pre', cv', post', hsplit', -, htype', hpost', rfl⟩ := hinv.before t ht
      have hboth : pre' ++ cv' :: post' = (pre ++ [cert]) ++ cv :: post := by
        rw [← hsplit', hsplit]
        simp
      obtain ⟨hpre, -, -⟩ := last_unique (p := fun o => o.hsType = 0x0F) hboth htype' htype
        hpost' hpost
      subst hpre
      obtain ⟨o, ho, hotype, hosig⟩ := hinv.signature sig hsig
      refine ⟨⟨s.serverCertificates, s.certificateVerifyAlgorithm, sig, pre, cert, cv :: post, leaf,
        by rw [hrec, hsplit], ?_, hvalid, hleaf, ?_, ?_, o, ?_, hotype, hosig⟩, ?_⟩
      · rw [hchain, hinv.certificates]
      · rw [hauth', hT0]
      · rw [hsuite, hT0]
        exact hok
      · rw [hrec]
        exact mem_of_mem_drop ho
      · rw [hrec, hT0, hkeys]
        exact hinv.finished hfound
    · exact absurd hnone ht
    · exact absurd hnone hsig

end Anywhere.Tls
