import Anywhere.Tls.Fragments

/-!
# Anywhere — record and read boundaries of a TLS 1.3 handshake

The outcome of a handshake is the connection a caller gets: its keys and cipher suite, the
transcript, and the bytes behind the handshake, buffered or still on the transport. What
the client noted of its own checks is left out: whether CertificateVerify was looked at
depends on the reads, but a valid one changes nothing.

* `tls13_outcome` — a valid flight has one outcome over all ways to send it in which no
  record ends within a message, and no other way has it.
-/

namespace Anywhere.Tls

open List

variable {Cert Key : Type}

/-- What a handshake leaves its caller with. -/
structure Outcome (Key : Type) where
  applicationKeys : Key
  cipherSuite : Nat
  tlsVersion : Nat
  transcript : Bytes
  messages : List HandshakeMessage
  /-- The bytes behind the handshake. -/
  leftover : Bytes
  deriving DecidableEq

def Established13.outcome (e : Established13 Cert Key) : Outcome Key where
  applicationKeys := e.connection.applicationKeys
  cipherSuite := e.connection.cipherSuite
  tlsVersion := 0x0304
  transcript := e.helloTranscript ++ transcriptOf e.received
  messages := e.received
  leftover := e.connection.receiveBuffer ++ e.connection.transport.flatten

/-- A flight of TLS 1.3: a ServerHello with an X25519 key share, and the encrypted messages
up to the Finished. -/
structure ServerFlight13 where
  hello : Hello
  before : List Extension
  share : Bytes
  behind : List Extension
  body : List HandshakeMessage
  fin : HandshakeMessage
  share_length : share.length = 32
  extensions_eq : hello.extensions =
    before ++ keyShareExtension 0x00 0x1d share (by omega) :: behind
  before_others : ∀ e ∈ before, ¬ e.IsKeyShare

namespace ServerFlight13

def messages (f : ServerFlight13) : List HandshakeMessage := f.body ++ [f.fin]

variable (f : ServerFlight13) (cr : Crypto Cert Key) (c : Session)

def helloTranscript : Bytes := c.storedClientHello ++ f.hello.message.bytes

def keys : Key :=
  cr.deriveHandshakeKeys f.hello.cipherSuite (cr.x25519 c.ephemeralPrivateKey f.share)
    (f.helloTranscript c)

/-- The flight is what a client with these values expects. -/
structure Valid : Prop where
  version : enforceVersionConstraints c.configuration 0x0304 = .ok ()
  noRetry : isHelloRetryRequest f.hello.message.bytes = false
  wellFormed : ∀ m ∈ f.messages, m.WellFormed
  body_type : ∀ m ∈ f.body, m.hsType ≠ 0x14
  fin_type : f.fin.hsType = 0x14
  fin_body : f.fin.body =
    cr.computeFinishedVerifyData (f.keys cr c) (f.helloTranscript c ++ transcriptOf f.body)
  chain : c.skipValidation = false → lastChain cr f.messages ≠ [] ∧
    validateCertificate cr c.configuration.serverName (lastChain cr f.messages) = .ok ()
  /-- There is one CertificateVerify at most, and it is right. -/
  verify : c.skipValidation = false → ∀ pre cv post, f.messages = pre ++ cv :: post →
    cv.hsType = 0x0F → (∀ m ∈ f.messages, m.hsType = 0x0F → m = cv) ∧
      ∃ algorithm signature, verifyAlgorithm cv.body = some algorithm ∧
        verifySignature cv.body = some signature ∧
        verifyCertificateVerify cr f.hello.cipherSuite (lastChain cr f.messages)
          (f.helloTranscript c ++ transcriptOf pre) algorithm signature = .ok ()

/-- What such a client should end up with. -/
def outcome (after : List Record) : Outcome Key where
  applicationKeys := cr.deriveApplicationKeys (f.keys cr c)
    (f.helloTranscript c ++ transcriptOf f.messages)
  cipherSuite := f.hello.cipherSuite
  tlsVersion := 0x0304
  transcript := f.helloTranscript c ++ transcriptOf f.messages
  messages := f.messages
  leftover := after.flatMap Record.bytes

end ServerFlight13

/-- The outcome of a TLS 1.3 handshake that returned. -/
def outcome13 (r : Result TlsError (Connected Cert Key)) : Option (Outcome Key) :=
  r.tls13?.map Established13.outcome

-- ----
-- The evidence of a valid flight

section Evidence

variable {cr : Crypto Cert Key} {c : Session} {f : ServerFlight13}

/-- With one CertificateVerify, the algorithm is the one of its signature. -/
def AlgorithmOf (cv : HandshakeMessage) (s : Flight Cert) : Prop :=
  (∀ m ∈ s.received, m.hsType = 0x0F → m = cv) → s.certificateVerifySignature ≠ none →
    ∀ algorithm, verifyAlgorithm cv.body = some algorithm → s.certificateVerifyAlgorithm = algorithm

theorem algorithmOf_handleMessage {keys : Key} {cv : HandshakeMessage} {s : Flight Cert}
    (h : AlgorithmOf cv s) (m : HandshakeMessage) :
    AlgorithmOf cv (handleMessage cr keys s m).1 := by
  have hkeep : (∀ o ∈ s.received ++ [m], o.hsType = 0x0F → o = cv) →
      ∀ o ∈ s.received, o.hsType = 0x0F → o = cv := fun hall o ho => hall o (by simp [ho])
  unfold handleMessage
  dsimp only
  split
  · exact fun hall => h (hkeep hall)
  split
  · split
    · exact fun hall => h (hkeep hall)
    · exact fun hall => h (hkeep hall)
  split
  · -- this is the CertificateVerify
    rename_i hverify
    intro hall _ algorithm halgorithm
    have hcv : m = cv := hall m (by simp) hverify
    show (verifyAlgorithm m.body).getD s.certificateVerifyAlgorithm = algorithm
    rw [hcv, halgorithm]
    rfl
  split
  · split
    · exact fun hall => h (hkeep hall)
    · exact fun hall => h (hkeep hall)
  · exact fun hall => h (hkeep hall)

theorem algorithmOf_handleRecord {keys : Key} {cv : HandshakeMessage} {s : Flight Cert}
    (h : AlgorithmOf cv s) (r : Record) : AlgorithmOf cv (handleRecord cr keys s r) := by
  unfold handleRecord
  split
  · split
    · exact h
    · rename_i decrypted _
      exact messages.drain_invariant (fun p m => handleMessage cr keys p.1 m) Prod.snd
        (I := fun p => AlgorithmOf cv p.1)
        (fun p _ m _ _ _ hp => algorithmOf_handleMessage hp m) h decrypted
  · exact h

/-- The checks pass, whatever was collected in the last pass. -/
theorem ServerFlight13.Valid.authenticate (h : f.Valid cr c) {s : Flight Cert}
    (hinv : FlightInv cr (f.keys cr c) (f.helloTranscript c) s)
    (halgorithm : ∀ cv, AlgorithmOf cv s) (hreceived : s.received = f.messages) :
    ∃ a, Tls.authenticate cr c f.hello.cipherSuite s = .ok a := by
  have hcerts : s.serverCertificates = lastChain cr f.messages := by
    rw [hinv.certificates, hreceived]
  unfold Tls.authenticate
  by_cases hskip : c.skipValidation = true
  · rw [if_pos hskip]
    exact ⟨none, rfl⟩
  rw [Bool.not_eq_true] at hskip
  obtain ⟨hne, hvalid⟩ := h.chain hskip
  rw [if_neg (by simp [hskip]), if_neg (by simpa [hcerts] using hne), hcerts, hvalid]
  dsimp only
  split
  · rename_i t sig ht hsig
    obtain ⟨pre, cv, post, hsplit, -, htype, -, rfl⟩ := hinv.before t ht
    rw [hreceived] at hsplit
    obtain ⟨hone, algorithm, signature, halg, hsignature, hok⟩ :=
      h.verify hskip pre cv post hsplit htype
    -- the collected signature is the one of the only CertificateVerify
    obtain ⟨cv', hcv', htype', hsig'⟩ := hinv.signature sig hsig
    have hcv : cv' = cv := by
      refine hone cv' ?_ htype'
      rw [← hreceived]
      exact mem_of_mem_drop hcv'
    rw [hcv, hsignature, Option.some.injEq] at hsig'
    have hthis : s.certificateVerifyAlgorithm = algorithm :=
      halgorithm cv (by rw [hreceived]; exact hone) (by rw [hsig]; simp) algorithm halg
    rw [hthis, ← hsig', hok]
    exact ⟨_, rfl⟩
  · exact ⟨_, rfl⟩

end Evidence

-- ----
-- The outcome

theorem chunks_map_some (l : List Bytes) : Reads.chunks (l.map some) = l := by
  simp [Reads.chunks, Function.comp_def]

theorem bytes_map_some (l : List Bytes) : Reads.bytes (l.map some) = l.flatten := by
  rw [Reads.bytes, chunks_map_some]

section Boundaries

variable {cr : Crypto Cert Key} {c : Session} {f : ServerFlight13} {w : Way13}

theorem takes_decodeMessage (h : f.Valid cr c) :
    Takes (decodeMessage cr (f.keys cr c)) (f.helloTranscript c) f.body f.fin where
  first := by
    intro m hm d _
    rw [decodeMessage, if_neg (h.body_type m hm)]
    simp [Decoded.push]
  last := by
    intro d _ htranscript
    rw [decodeMessage, if_pos h.fin_type, if_pos (by rw [htranscript]; exact h.fin_body)]
    simp [Decoded.finish, Decoded.push]

theorem adds_decodeMessage (keys : Key) : Adds (decodeMessage cr keys) where
  seqNum := by
    intro d m
    unfold decodeMessage
    dsimp only
    repeat' split
    all_goals rfl
  messages := by
    intro d m
    unfold decodeMessage
    dsimp only
    repeat' split
    all_goals rfl

theorem startTls13_transcript {buf : Bytes} {share : ServerKeyShare} {st : Start13 Key}
    (h : startTls13 cr c buf share = .ok st) :
    st.transcript = c.storedClientHello ++ extractServerHelloMessage buf := by
  unfold startTls13 at h
  split at h
  · cases h
  · dsimp only at h
    split at h
    · cases h
    · rw [← Except.ok.inj h]

theorem ServerFlight13.start (h : f.Valid cr c) (hfits : f.hello.message.bytes.length < 65536)
    (zs : Bytes) :
    ∃ share, PacketUtil.parseServerHello ((handshakeRecord f.hello.message.bytes).bytes ++ zs) =
        some share ∧
      startTls13 cr c ((handshakeRecord f.hello.message.bytes).bytes ++ zs) share =
        .ok ⟨f.keys cr c, f.hello.cipherSuite, f.helloTranscript c⟩ := by
  have hshare := @parseServerHello_x25519 f.hello [] f.before f.behind f.share f.share_length
    (by rw [append_nil]; exact hfits) f.extensions_eq f.before_others zs
  rw [append_nil] at hshare
  have hframes : Tls.messages.frames f.hello.message.bytes = [f.hello.message] := by
    have htake := f.hello.message_wellFormed.encodes []
    rw [append_nil] at htake
    rw [Tls.messages.frames_some htake, Tls.messages.frames_none Tls.messages.next_nil]
  have hextract := extractServerHelloMessage_first (handshakeRecord_wellFormed hfits) rfl
    (m := f.hello.message) rfl hframes zs
  refine ⟨_, hshare, ?_⟩
  rw [startTls13, h.version]
  dsimp only
  rw [hextract, if_neg (by rw [h.noRetry]; decide)]
  rfl

/-- When no encrypted record ends within a message, the rest of the handshake returns. -/
theorem ServerFlight13.consume_of_whole (h : f.Valid cr c)
    (hsends : w.Sends cr (f.keys cr c) f.hello.message.bytes f.messages)
    (hwhole : Tls.Whole w.sealed) {front back : List Bytes} (hsplit : w.reads = front ++ back) :
    ∃ e, consumeRemainingHandshake cr c (f.keys cr c) f.hello.cipherSuite (f.helloTranscript c)
        front.flatten (back.map some) = .returned e ∧ e.outcome = f.outcome cr c w.after := by
  have hdecode := hsends.decode (takes_decodeMessage h) h.wellFormed hwhole
  rw [← hsends.reads, hsplit, flatten_append] at hdecode
  have hspec := records.readLoop_spec (handleRecord cr (f.keys cr c)) Flight.foundServerFinished
    (decodeRecord cr (f.keys cr c)) Decoded.finished Flight.startPass Flight.decoded
    decoded_handleRecord (fun _ => rfl)
    (fun s hs => by simp [Flight.startPass, Flight.decoded, hs]) back
    (s := { fullTranscript := f.helloTranscript c }) rfl front.flatten
  have hrun : records.drain (decodeRecord cr (f.keys cr c)) Decoded.finished
      (Flight.decoded ({ fullTranscript := f.helloTranscript c } : Flight Cert))
      (front.flatten ++ back.flatten) = _ := hdecode
  rw [consumeRemainingHandshake, chunks_map_some]
  split at hspec
  · -- the decoder of the whole stream finds the Finished
    rw [hrun] at hspec
    cases hspec
  · rename_i s remaining transport hloop
    rw [hrun] at hspec
    obtain ⟨-, hstate⟩ := hspec
    obtain ⟨hdecoded, hleft⟩ := Prod.mk.inj hstate
    have hreceived : s.received = f.messages := (congrArg Decoded.messages hdecoded).symm
    have htranscript : s.fullTranscript = f.helloTranscript c ++ transcriptOf f.messages :=
      (congrArg Decoded.transcript hdecoded).symm
    obtain ⟨-, hinv⟩ := records.readLoop_invariant _ _
      (I := FlightInv cr (f.keys cr c) (f.helloTranscript c)) (fun _ => flightInv_startPass)
      (fun _ _ r _ _ _ hs => flightInv_handleRecord hs r) (flightInv_start cr _ _) hloop
    have halgorithm : ∀ cv, AlgorithmOf cv s := by
      intro cv
      refine (records.readLoop_invariant _ _ (I := AlgorithmOf cv) (fun _ _ _ hno => absurd rfl hno)
        (fun _ _ r _ _ _ hs => algorithmOf_handleRecord hs r) ?_ hloop).2
      exact fun _ hno => absurd rfl hno
    obtain ⟨a, ha⟩ := h.authenticate hinv halgorithm hreceived
    rw [hloop]
    dsimp only
    rw [ha]
    refine ⟨_, rfl, ?_⟩
    simp [Established13.outcome, ServerFlight13.outcome, htranscript, hreceived, hleft]

/-- A way without a message across records has the outcome of the flight. -/
theorem ServerFlight13.outcome_of_whole (h : f.Valid cr c)
    (hsends : w.Sends cr (f.keys cr c) f.hello.message.bytes f.messages) (hwhole : w.Whole) :
    outcome13 (connect cr c (w.reads.map some)) = some (f.outcome cr c w.after) := by
  obtain ⟨fragment, later, zs, hfirst, hfits, hhead, hstream⟩ :=
    hsends.first (by simp [Hello.message, HandshakeMessage.bytes])
  rw [hsends.hello_eq hwhole.1, List.cons.injEq] at hfirst
  obtain ⟨rfl, rfl⟩ := hfirst
  rw [← hsends.reads] at hstream
  obtain ⟨front, back, ys, hsplit, hread, hfront⟩ :=
    readServerHello_returns hsends.reads_ne hfits rfl hstream []
  rw [append_nil, append_nil] at hread
  obtain ⟨share, hshare, hstart⟩ := ServerFlight13.start h hfits ys
  rw [← hfront] at hshare hstart
  obtain ⟨e, he, houtcome⟩ := ServerFlight13.consume_of_whole h hsends hwhole.2 hsplit
  rw [connect, hread]
  dsimp only
  rw [continueHandshake, hshare]
  dsimp only
  rw [hstart]
  dsimp only
  rw [he, ← houtcome]
  rfl

theorem ServerFlight13.whole_of_outcome (h : f.Valid cr c)
    (hsends : w.Sends cr (f.keys cr c) f.hello.message.bytes f.messages)
    (houtcome : outcome13 (connect cr c (w.reads.map some)) = some (f.outcome cr c w.after)) :
    w.Whole := by
  have hhello : f.hello.message.bytes ≠ [] := by simp [Hello.message, HandshakeMessage.bytes]
  obtain ⟨e, he, hout⟩ := Option.map_eq_some_iff.1 houtcome
  obtain ⟨e', hconnect⟩ := Result.eq_of_tls13? (by rw [he]; rfl)
  rw [hconnect] at he
  obtain rfl : e' = e := Option.some.inj he
  have hreceived : e'.received = f.messages := congrArg Outcome.messages hout
  have htranscript : e'.helloTranscript = f.helloTranscript c := by
    have hall : e'.helloTranscript ++ transcriptOf e'.received = _ :=
      congrArg Outcome.transcript hout
    rw [hreceived] at hall
    exact append_cancel_right hall
  obtain ⟨fragment, later, zs, hfirst, hfits, hhead, hstream⟩ := hsends.first hhello
  rw [← hsends.reads] at hstream
  obtain ⟨front, back, ys, hsplit, hread, hfront⟩ :=
    readServerHello_returns hsends.reads_ne hfits hhead hstream []
  rw [append_nil, append_nil] at hread
  obtain ⟨buf, more, share, st, hread', hshare, hst, hconsume⟩ := connect_tls13 hconnect
  rw [hread, Result.returned.injEq, Prod.mk.injEq] at hread'
  obtain ⟨rfl, rfl⟩ := hread'
  -- the transcript has the ServerHello that was extracted
  have hextract : extractServerHelloMessage front.flatten = f.hello.message.bytes := by
    obtain ⟨s, -, -, -, -, -, hT0, -, -⟩ := consume_returned hconsume
    rw [htranscript, startTls13_transcript hst] at hT0
    exact (append_cancel_left hT0).symm
  have hone := hsends.hello_of_extracted hhello hsplit hextract
  rw [hsends.hello_eq hone, List.cons.injEq] at hfirst
  obtain ⟨rfl, rfl⟩ := hfirst
  -- so the keys are those of the flight
  obtain ⟨share', hshare', hstart⟩ := ServerFlight13.start h hfits ys
  rw [← hfront, hshare] at hshare'
  obtain rfl : share = share' := Option.some.inj hshare'
  rw [← hfront, hst] at hstart
  obtain rfl : st = _ := Except.ok.inj hstart
  obtain ⟨hflight, -⟩ := consume_received hconsume
  rw [hreceived, bytes_map_some, ← flatten_append, ← hsplit, hsends.reads] at hflight
  exact ⟨hone, hsends.whole_of_decoded (adds_decodeMessage _) hflight.symm⟩

/-- **Record and read boundaries of TLS 1.3.** A way to send a valid flight gives the outcome
of the flight exactly when no record ends within a message. -/
theorem tls13_outcome (h : f.Valid cr c)
    (hsends : w.Sends cr (f.keys cr c) f.hello.message.bytes f.messages) :
    outcome13 (connect cr c (w.reads.map some)) = some (f.outcome cr c w.after) ↔ w.Whole :=
  ⟨ServerFlight13.whole_of_outcome h hsends, ServerFlight13.outcome_of_whole h hsends⟩

end Boundaries

end Anywhere.Tls
