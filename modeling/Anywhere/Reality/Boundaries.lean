import Anywhere.Reality.Client
import Anywhere.Tls.Boundaries

/-!
# Anywhere — record and read boundaries of a Reality handshake

The Reality client reads until no record in its buffer is cut, takes the first record for
the ServerHello, and then decodes each encrypted record alone as the TLS client does.

* `reality_outcome` — a valid flight has one outcome over all ways to send it in which no
  record ends within a message, and no other way has it.
-/

namespace Anywhere.Reality

open Tls List

variable {Cert Key : Type}

-- ----
-- Flights

def Established.outcome (e : Established Key) : Outcome Key where
  applicationKeys := e.connection.applicationKeys
  cipherSuite := e.connection.cipherSuite
  tlsVersion := 0x0304
  transcript := e.helloTranscript ++ transcriptOf e.received
  messages := e.received
  leftover := e.connection.receiveBuffer ++ e.connection.transport.flatten

/-- The key_share of one of the two groups. -/
def shareExtension (share : Bytes) (h : share.length = 32 ∨ share.length = 1120) : Extension :=
  if share.length = 32 then keyShareExtension 0x00 0x1d share (by omega)
  else keyShareExtension 0x11 0xEC share (by omega)

/-- A flight for a Reality client: a ServerHello with a key share, and the encrypted messages
up to the Finished. Behind a hybrid share there is supported_versions at most. -/
structure ServerFlight where
  hello : Hello
  before : List Extension
  share : Bytes
  behind : List Extension
  body : List HandshakeMessage
  fin : HandshakeMessage
  share_length : share.length = 32 ∨ share.length = 1120
  extensions_eq : hello.extensions = before ++ shareExtension share share_length :: behind
  before_others : ∀ e ∈ before, ¬ e.IsKeyShare
  behind_length : share.length = 1120 → (behind.flatMap Extension.bytes).length < 8

namespace ServerFlight

def messages (f : ServerFlight) : List HandshakeMessage := f.body ++ [f.fin]

variable (f : ServerFlight) (cr : RealityCrypto Cert Key) (c : RealitySession)

def helloTranscript : Bytes := c.storedClientHello ++ f.hello.message.bytes

def secret : Bytes := (sharedSecret cr c f.share).toOption.getD []

def keys : Key :=
  cr.deriveHandshakeKeys f.hello.cipherSuite (f.secret cr c) (f.helloTranscript c)

/-- The flight is what a client with these values expects. -/
structure Valid : Prop where
  agreed : sharedSecret cr c f.share = .ok (f.secret cr c)
  wellFormed : ∀ m ∈ f.messages, m.WellFormed
  body_type : ∀ m ∈ f.body, m.hsType ≠ 0x14
  fin_type : f.fin.hsType = 0x14
  readable : ∀ m ∈ f.messages, throws cr c.authKey m = false
  verified : lastVerdict cr c.authKey f.messages = true

/-- What such a client should end up with. -/
def outcome (after : List Record) : Outcome Key where
  applicationKeys := cr.deriveApplicationKeys (f.keys cr c)
    (f.helloTranscript c ++ transcriptOf f.messages)
  cipherSuite := f.hello.cipherSuite
  tlsVersion := 0x0304
  transcript := f.helloTranscript c ++ transcriptOf f.messages
  messages := f.messages
  leftover := after.flatMap Record.bytes

end ServerFlight

def outcomeOf (r : Result RealityError (Established Key)) : Option (Outcome Key) :=
  r.value?.map Established.outcome

-- ----
-- The ServerHello

section Hello

variable {cipherSuite fuel left : Nat} {q : Bytes}

theorem stepsOver_parseExtensionsKotlin (cipherSuite : Nat) :
    StepsOver (parseExtensionsKotlin cipherSuite) := by
  intro e fuel left q he hleft
  have hlen := be16_ofNat e.length_lt
  show parseExtensionsKotlin cipherSuite (fuel + 1) left
    (e.t1 :: e.t2 :: UInt8.ofNat (e.data.length / 256) :: UInt8.ofNat e.data.length ::
      (e.data ++ q)) = _
  rw [parseExtensionsKotlin, if_pos hleft]
  simp only [hlen]
  rw [if_neg (show ¬ be16 e.t1 e.t2 = 0x0033 from he), drop_left]

/-- The native parser does not take a hybrid share. -/
theorem parseExtensions_hybrid {key : Bytes} (hlength : key.length = 1120) (hleft : left < 1136) :
    PacketUtil.parseExtensions cipherSuite (fuel + 1) left
        ((keyShareExtension 0x11 0xEC key (by omega)).bytes ++ q) = none := by
  obtain ⟨e, he⟩ : ∃ e, e = keyShareExtension 0x11 0xEC key (by omega) := ⟨_, rfl⟩
  have hdata : e.data.length = 1124 := by
    rw [he]
    simp [keyShareExtension, hlength]
  have hlen : be16 (UInt8.ofNat (e.data.length / 256)) (UInt8.ofNat e.data.length) = 1124 := by
    rw [be16_ofNat e.length_lt, hdata]
  have htype : be16 0x00 0x33 = 0x0033 := by decide
  have hgroup : be16 0x11 0xEC = 0x11EC := by decide
  have hbytes : e.bytes ++ q = 0x00 :: 0x33 :: UInt8.ofNat (e.data.length / 256) ::
      UInt8.ofNat e.data.length :: 0x11 :: 0xEC :: UInt8.ofNat (key.length / 256) ::
      UInt8.ofNat key.length :: (key ++ q) := by
    rw [he]
    rfl
  rw [← he, hbytes, PacketUtil.parseExtensions]
  by_cases hfour : 4 ≤ left
  · rw [if_pos hfour]
    simp only [htype, if_true, hgroup, hlen]
    rw [if_neg (by omega)]
    exact parseExtensions_end (by omega)
  · rw [if_neg hfour]

theorem parseExtensionsKotlin_hybrid {key : Bytes} (hlength : key.length = 1120)
    (hleft : 4 ≤ left) :
    parseExtensionsKotlin cipherSuite (fuel + 1) left
        ((keyShareExtension 0x11 0xEC key (by omega)).bytes ++ q) = some ⟨key, cipherSuite⟩ := by
  have hkey : be16 (UInt8.ofNat (key.length / 256)) (UInt8.ofNat key.length) = 1120 := by
    rw [hlength]
    decide
  have htype : be16 0x00 0x33 = 0x0033 := by decide
  have hgroup : be16 0x11 0xEC = 0x11EC := by decide
  show parseExtensionsKotlin cipherSuite (fuel + 1) left
    (0x00 :: 0x33 :: _ :: _ :: 0x11 :: 0xEC :: UInt8.ofNat (key.length / 256) ::
      UInt8.ofNat key.length :: (key ++ q)) = _
  rw [parseExtensionsKotlin, if_pos hleft]
  simp only [htype, if_true, hgroup, hkey]
  rw [if_neg (by decide), if_pos (by decide), if_pos (by rw [length_append]; omega), ← hlength,
    take_left]

end Hello

section Reading

variable {f : ServerFlight} {zs : Bytes}

theorem parseServerHello_share (f : ServerFlight) (hfits : f.hello.message.bytes.length < 65536)
    (zs : Bytes) :
    parseServerHello ((handshakeRecord f.hello.message.bytes).bytes ++ zs) =
      some ⟨f.share, f.hello.cipherSuite⟩ := by
  have hfits' : (f.hello.message.bytes ++ []).length < 65536 := by rwa [append_nil]
  have hpos := length_record_pos (handshakeRecord_wellFormed hfits) zs
  have hexts := f.extensions_eq
  rw [parseServerHello]
  by_cases hx25519 : f.share.length = 32
  · rw [shareExtension, if_pos hx25519] at hexts
    have hnative := parseServerHello_x25519 hx25519 hfits' hexts f.before_others zs
    rw [append_nil] at hnative
    rw [hnative]
  · have hhybrid : f.share.length = 1120 := f.share_length.resolve_left hx25519
    have hbehind := f.behind_length hhybrid
    rw [shareExtension, if_neg hx25519] at hexts
    have hsize : (keyShareExtension 0x11 0xEC f.share (by omega)).bytes.length = 1128 := by
      rw [Extension.length_bytes]
      simp [keyShareExtension, hhybrid]
    -- the native parser leaves it to the other one
    obtain ⟨n, hnative⟩ := parseRecords_share (stepsOver_parseExtensions _) hfits' hexts
      f.before_others hpos zs
    obtain ⟨k, hkotlin⟩ := parseRecords_share (stepsOver_parseExtensionsKotlin _) hfits' hexts
      f.before_others hpos zs
    rw [append_nil] at hnative hkotlin
    rw [PacketUtil.parseServerHello, hnative, parseExtensions_hybrid hhybrid (by omega)]
    dsimp only
    rw [hkotlin, parseExtensionsKotlin_hybrid hhybrid (by omega)]

theorem onlyCompleteRecords_flatMap {rs : List Record} (hrs : ∀ r ∈ rs, r.WellFormed) {fuel : Nat}
    (hfuel : rs.length ≤ fuel) :
    onlyCompleteRecords fuel true (rs.flatMap Record.bytes) = true := by
  induction rs generalizing fuel with
  | nil =>
    rcases fuel with _ | fuel
    · rfl
    · rw [onlyCompleteRecords, if_neg (by decide)]
  | cons r rs ih =>
    obtain ⟨fuel, rfl⟩ : ∃ n, fuel = n + 1 := ⟨fuel - 1, by simp at hfuel; omega⟩
    have htake : takeRecord (r.bytes ++ rs.flatMap Record.bytes) =
        some (r, rs.flatMap Record.bytes) := (hrs r (by simp)).encodes _
    rw [flatMap_cons, onlyCompleteRecords, htake]
    dsimp only
    rw [ih (fun o ho => hrs o (by simp [ho])) (by simpa using hfuel), ite_self]

theorem bufferContainsCompleteTlsRecord_first {r : Record} {rs : List Record} (hr : r.WellFormed)
    (hrs : ∀ o ∈ rs, o.WellFormed) :
    bufferContainsCompleteTlsRecord (r.bytes ++ rs.flatMap Record.bytes) = true := by
  have hlen : 5 ≤ (r.bytes ++ rs.flatMap Record.bytes).length := by
    obtain ⟨v1, v2, l1, l2, hheader, -⟩ := hr
    rw [Record.bytes, hheader, length_append, length_append]
    exact Nat.le_trans (Nat.le_add_right 5 _) (Nat.le_add_right _ _)
  have hcount : (rs.map Record.bytes).length ≤ (rs.map Record.bytes).flatten.length := by
    refine length_le_flatten fun p hp => ?_
    obtain ⟨o, ho, rfl⟩ := mem_map.1 hp
    have hpos := length_record_pos (hrs o ho) []
    rw [append_nil] at hpos
    exact ne_nil_of_length_pos hpos
  rw [length_map, ← flatMap_def] at hcount
  have htake : takeRecord (r.bytes ++ rs.flatMap Record.bytes) =
      some (r, rs.flatMap Record.bytes) := hr.encodes _
  obtain ⟨fuel, hfuel⟩ : ∃ n, (r.bytes ++ rs.flatMap Record.bytes).length = n + 1 :=
    ⟨(r.bytes ++ rs.flatMap Record.bytes).length - 1, by omega⟩
  have hleft : rs.length ≤ fuel := by
    have hpos := length_record_pos hr []
    rw [append_nil] at hpos
    rw [length_append] at hfuel
    omega
  rw [bufferContainsCompleteTlsRecord, hfuel, onlyCompleteRecords, if_pos hlen, htake]
  exact onlyCompleteRecords_flatMap hrs hleft

theorem takeRecord_of_bufferContains {buf : Bytes}
    (h : bufferContainsCompleteTlsRecord buf = true) :
    ∃ r rest, takeRecord buf = some (r, rest) := by
  rw [bufferContainsCompleteTlsRecord] at h
  generalize buf.length = fuel at h
  rcases fuel with _ | fuel
  · cases h
  · rw [onlyCompleteRecords] at h
    split at h
    · split at h
      · cases h
      · exact ⟨_, _, by assumption⟩
    · cases h

theorem length_handshakeRecord {fragment : Bytes} (hhead : fragment.head? = some 0x02)
    (zs : Bytes) :
    5 < ((handshakeRecord fragment).bytes ++ zs).length := by
  rcases fragment with _ | ⟨b, fragment⟩
  · cases hhead
  · simp only [handshakeRecord, Record.bytes, length_append, length_cons, length_nil]
    omega

theorem verifyServerResponse_first {fragment : Bytes} (hfits : fragment.length < 65536)
    (hhead : fragment.head? = some 0x02) (zs : Bytes) :
    verifyServerResponse ((handshakeRecord fragment).bytes ++ zs) = true := by
  have hrecord := handshakeRecord_wellFormed hfits
  have htake : takeRecord ((handshakeRecord fragment).bytes ++ zs) =
      some (handshakeRecord fragment, zs) := hrecord.encodes zs
  have hlen := length_handshakeRecord hhead zs
  have hcontent : ((handshakeRecord fragment).payload ++ zs).head? = some 0x02 := by
    rw [List.head?_append, show (handshakeRecord fragment).payload = fragment from rfl, hhead]
    rfl
  obtain ⟨fuel, hfuel⟩ : ∃ n, ((handshakeRecord fragment).bytes ++ zs).length = n + 1 :=
    ⟨((handshakeRecord fragment).bytes ++ zs).length - 1, by omega⟩
  have htype : ((handshakeRecord fragment).bytes ++ zs).head? = some 0x16 := rfl
  rw [verifyServerResponse, hfuel, startsWithServerHello, if_pos hlen, if_neg (by simp [htype]),
    htake]
  exact if_pos hcontent

theorem extractServerHelloMessage_first {fragment : Bytes} (hfits : fragment.length < 65536)
    (hhead : fragment.head? = some 0x02) (zs : Bytes) :
    extractServerHelloMessage ((handshakeRecord fragment).bytes ++ zs) = fragment := by
  have hlen := length_handshakeRecord hhead zs
  obtain ⟨fuel, hfuel⟩ : ∃ n, ((handshakeRecord fragment).bytes ++ zs).length = n + 1 :=
    ⟨((handshakeRecord fragment).bytes ++ zs).length - 1, by omega⟩
  have hcontent : (fragment ++ zs).head? = some 0x02 := by
    rw [List.head?_append, hhead]
    rfl
  have hbuffer : (handshakeRecord fragment).bytes ++ zs = 0x16 :: 0x03 :: 0x03 ::
      UInt8.ofNat (fragment.length / 256) :: UInt8.ofNat fragment.length :: (fragment ++ zs) := rfl
  rw [hbuffer] at hlen
  rw [extractServerHelloMessage, hfuel, hbuffer, extractServerHello, if_pos hlen,
    if_pos ⟨rfl, hcontent⟩, be16_ofNat hfits, take_left]

end Reading

-- ----
-- The outcome

section Boundaries

variable {cr : RealityCrypto Cert Key} {c : RealitySession} {f : ServerFlight} {w : Way13}

theorem readServerHello_returns {keys : Key} {hello : Bytes} {ms : List HandshakeMessage}
    (h : w.Sends cr.toCrypto keys hello ms) (hhead : hello.head? = some 0x02) :
    ∃ front back fragment later ys, w.reads = front ++ back ∧ w.hello = fragment :: later ∧
      fragment.length < 65536 ∧ fragment.head? = some 0x02 ∧
      readServerHello (w.reads.map some) = .returned (front.flatten, back.map some) ∧
      front.flatten = (handshakeRecord fragment).bytes ++ ys := by
  obtain ⟨fragment, later, zs, hfirst, hfits, hfragment, hstream⟩ :=
    h.first (by rintro rfl; cases hhead)
  rw [← h.reads] at hstream
  have hall : w.all = handshakeRecord fragment :: (later.map handshakeRecord ++
      (w.changeCipherSpec ++ (w.sealed.map Prod.fst ++ w.after))) := by
    rw [Way13.all, hfirst]
    rfl
  have hcomplete : bufferContainsCompleteTlsRecord w.reads.flatten = true := by
    rw [h.reads, w.stream_eq, hall, flatMap_cons]
    refine bufferContainsCompleteTlsRecord_first (handshakeRecord_wellFormed hfits) fun o ho => ?_
    refine (h.record (r := o) ?_).1
    rw [hall]
    exact mem_cons_of_mem _ ho
  obtain ⟨front, back, ys, buf, reads, hsplit, hfront, hresponse, huntil⟩ :=
    read_first RealityError.handshakeFailed "No server response (connection closed)" []
      takeRecord_of_bufferContains h.reads_ne hfits hstream hcomplete
  rw [append_nil] at hresponse huntil
  refine ⟨front, back, fragment, later, ys, hsplit, hfirst, hfits, by rw [hfragment, hhead], ?_,
    hfront⟩
  rw [readServerHello, hresponse]
  exact huntil

theorem takes_decodeMessage (h : f.Valid cr c) :
    Takes (decodeMessage cr c) (f.helloTranscript c) f.body f.fin where
  first := by
    intro m hm d hd
    have hthrows := h.readable m (by simp [ServerFlight.messages, hm])
    simp [decodeMessage, Decoded.push, hthrows, hd, h.body_type m hm]
  last := by
    intro d _ _
    have hthrows := h.readable f.fin (by simp [ServerFlight.messages])
    simp [decodeMessage, Decoded.finish, Decoded.push, hthrows, h.fin_type]

theorem adds_decodeMessage (cr : RealityCrypto Cert Key) (c : RealitySession) :
    Adds (decodeMessage cr c) where
  seqNum _ _ := rfl
  messages _ _ := rfl

theorem ServerFlight.start (h : f.Valid cr c) (hfits : f.hello.message.bytes.length < 65536)
    (zs : Bytes) :
    startHandshake cr c ((handshakeRecord f.hello.message.bytes).bytes ++ zs) =
      .ok (f.keys cr c, f.hello.cipherSuite, f.helloTranscript c) := by
  rw [startHandshake, verifyServerResponse_first hfits rfl, if_neg (by decide),
    parseServerHello_share f hfits]
  dsimp only
  rw [h.agreed]
  dsimp only
  rw [extractServerHelloMessage_first hfits rfl]
  rfl

/-- When no encrypted record ends within a message, the rest of the handshake returns. -/
theorem ServerFlight.consume_of_whole (h : f.Valid cr c)
    (hsends : w.Sends cr.toCrypto (f.keys cr c) f.hello.message.bytes f.messages)
    (hwhole : Tls.Whole w.sealed) {front back : List Bytes} (hsplit : w.reads = front ++ back) :
    ∃ e, consumeRemainingHandshake cr c (f.keys cr c) f.hello.cipherSuite (f.helloTranscript c)
        front.flatten (back.map some) = .returned e ∧ e.outcome = f.outcome cr c w.after := by
  have hdecode := hsends.decode (takes_decodeMessage h) h.wellFormed hwhole
  rw [← hsends.reads, hsplit, flatten_append] at hdecode
  have hspec := records.readLoop_spec (handleRecord cr c (f.keys cr c))
    RealityFlight.foundServerFinished (decodeRecord cr c (f.keys cr c)) Decoded.finished id
    RealityFlight.decoded decoded_handleRecord (fun _ => rfl) (fun _ _ => rfl) back
    (s := { fullTranscript := f.helloTranscript c }) rfl front.flatten
  have hrun : records.drain (decodeRecord cr c (f.keys cr c)) Decoded.finished
      (RealityFlight.decoded { fullTranscript := f.helloTranscript c })
      (front.flatten ++ back.flatten) = _ := hdecode
  rw [consumeRemainingHandshake, chunks_map_some]
  split at hspec
  · -- the decoder of the whole stream finds the Finished
    rw [hrun] at hspec
    cases hspec
  · rename_i s remaining transport hloop
    rw [hrun] at hspec
    obtain ⟨-, hstate⟩ := hspec
    obtain ⟨hdecoded, hleft⟩ := Prod.mk.inj hstate
    have hreceived : s.received = f.messages := (congrArg Decoded.messages hdecoded).symm
    have htranscript : s.fullTranscript = f.helloTranscript c ++ transcriptOf f.messages :=
      (congrArg Decoded.transcript hdecoded).symm
    obtain ⟨-, hinv⟩ := records.readLoop_invariant (handleRecord cr c (f.keys cr c))
      RealityFlight.foundServerFinished (I := RealityInv cr c (f.helloTranscript c))
      (fun _ hs => hs) (fun _ _ r _ _ _ hs => realityInv_handleRecord hs r)
      ⟨by simp [transcriptOf], rfl, fun hf => by cases hf⟩ hloop
    have hverified : s.serverCertVerified = true := by
      rw [hinv.verified, hreceived]
      exact h.verified
    rw [hloop]
    dsimp only
    rw [if_neg (by simp [hverified])]
    refine ⟨_, rfl, ?_⟩
    simp [Established.outcome, ServerFlight.outcome, htranscript, hreceived, hleft]

/-- A way without a message across records has the outcome of the flight. -/
theorem ServerFlight.outcome_of_whole (h : f.Valid cr c)
    (hsends : w.Sends cr.toCrypto (f.keys cr c) f.hello.message.bytes f.messages)
    (hwhole : w.Whole) :
    outcomeOf (connect cr c (w.reads.map some)) = some (f.outcome cr c w.after) := by
  obtain ⟨front, back, fragment, later, ys, hsplit, hfirst, hfits, -, hread, hfront⟩ :=
    readServerHello_returns hsends rfl
  rw [hsends.hello_eq hwhole.1, List.cons.injEq] at hfirst
  obtain ⟨rfl, rfl⟩ := hfirst
  obtain ⟨e, he, houtcome⟩ := ServerFlight.consume_of_whole h hsends hwhole.2 hsplit
  have hstart := ServerFlight.start h hfits ys
  rw [← hfront] at hstart
  rw [connect, hread]
  dsimp only
  rw [hstart]
  dsimp only
  rw [he, ← houtcome]
  rfl

theorem startHandshake_transcript {buf T0 : Bytes} {keys : Key} {cipherSuite : Nat}
    (h : startHandshake cr c buf = .ok (keys, cipherSuite, T0)) :
    T0 = c.storedClientHello ++ extractServerHelloMessage buf := by
  unfold startHandshake at h
  split at h
  · cases h
  split at h
  · cases h
  split at h
  · cases h
  · exact (Prod.mk.inj (Prod.mk.inj (Except.ok.inj h)).2).2.symm

theorem ServerFlight.whole_of_outcome (h : f.Valid cr c)
    (hsends : w.Sends cr.toCrypto (f.keys cr c) f.hello.message.bytes f.messages)
    (houtcome : outcomeOf (connect cr c (w.reads.map some)) = some (f.outcome cr c w.after)) :
    w.Whole := by
  obtain ⟨e, hconnect, hout⟩ := Result.returned_of_value? houtcome
  have hreceived : e.received = f.messages := congrArg Outcome.messages hout
  have htranscript : e.helloTranscript = f.helloTranscript c := by
    have hall : e.helloTranscript ++ transcriptOf e.received = _ := congrArg Outcome.transcript hout
    rw [hreceived] at hall
    exact append_cancel_right hall
  obtain ⟨front, back, fragment, later, ys, hsplit, hfirst, hfits, hhead, hread, hfront⟩ :=
    readServerHello_returns hsends rfl
  obtain ⟨buf, more, keys, cipherSuite, T0, hread', hstart, hconsume⟩ := connect_returned hconnect
  rw [hread, Result.returned.injEq, Prod.mk.injEq] at hread'
  obtain ⟨rfl, rfl⟩ := hread'
  obtain ⟨hflight, -, hT0, -⟩ := consume_returned hconsume
  -- the transcript has the content of the first record
  have hfragment : fragment = f.hello.message.bytes := by
    have hextract := startHandshake_transcript hstart
    rw [hfront, extractServerHelloMessage_first hfits hhead, ← hT0, htranscript] at hextract
    exact (append_cancel_left hextract).symm
  have hone : w.hello.length = 1 := by
    by_contra hmore
    have hlt := hsends.fragment_lt hmore fragment (by rw [hfirst]; simp)
    rw [hfragment] at hlt
    exact absurd hlt (Nat.lt_irrefl _)
  subst hfragment
  -- so the keys are those of the flight
  rw [hfront, ServerFlight.start h hfits ys] at hstart
  obtain ⟨rfl, hrest⟩ := Prod.mk.inj (Except.ok.inj hstart)
  obtain ⟨-, rfl⟩ := Prod.mk.inj hrest
  rw [hreceived, bytes_map_some, ← flatten_append, ← hsplit, hsends.reads] at hflight
  exact ⟨hone, hsends.whole_of_decoded (adds_decodeMessage cr c) hflight.symm⟩

/-- **Record and read boundaries of Reality.** A way to send a valid flight gives the outcome
of the flight exactly when no record ends within a message. -/
theorem reality_outcome (h : f.Valid cr c)
    (hsends : w.Sends cr.toCrypto (f.keys cr c) f.hello.message.bytes f.messages) :
    outcomeOf (connect cr c (w.reads.map some)) = some (f.outcome cr c w.after) ↔ w.Whole :=
  ⟨ServerFlight.whole_of_outcome h hsends, ServerFlight.outcome_of_whole h hsends⟩

end Boundaries

end Anywhere.Reality
