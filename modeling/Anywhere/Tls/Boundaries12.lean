import Anywhere.Tls.Boundaries

/-!
# Anywhere — record and read boundaries of a TLS 1.2 handshake

The server sends two flights: its messages in plaintext up to ServerHelloDone, and, when
the client has sent its own, tickets, ChangeCipherSpec and the encrypted Finished. The
first flight is taken out of its records one by one. Of the second, tickets are added to
the transcript as they come, one record behind the ChangeCipherSpec is the Finished, and
the reads must not end at a record before it.

* `tls12_outcome` — a flight has one outcome over all ways to send it that keep to this,
  and when that is a connection, no other way has it.
-/

namespace Anywhere.Tls

open List

variable {Cert Key : Type}

-- ----
-- Flights

/-- The two flights of a TLS 1.2 server. -/
structure ServerFlight12 where
  hello : HandshakeMessage
  body : List HandshakeMessage
  helloDone : HandshakeMessage
  tickets : List HandshakeMessage
  fin : HandshakeMessage
  hello_type : hello.hsType = 0x02
  body_type : ∀ m ∈ body, m.hsType ≠ 0x0E
  helloDone_type : helloDone.hsType = 0x0E
  wellFormed : ∀ m ∈ hello :: (body ++ [helloDone]), m.WellFormed
  fin_wellFormed : fin.WellFormed

namespace ServerFlight12

def messages (f : ServerFlight12) : List HandshakeMessage := f.hello :: (f.body ++ [f.helloDone])

variable (f : ServerFlight12) (cr : Crypto Cert Key) (c : Session)

def state : Flight12 Cert :=
  f.messages.foldl (handleMessage12 cr) { tls12Transcript := c.storedClientHello ++ f.hello.bytes }

/-- The first flight passes the checks of the client, and leads to the agreement `a`. -/
structure Valid (h : Hello12) (a : Agreement12 Key) : Prop where
  parsed : parseTls12ServerHello f.hello.bytes = .ok h
  version : enforceVersionConstraints c.configuration h.negotiatedVersion = .ok ()
  chain : ∃ chain, validateIfAny cr c (f.state cr c).serverCertificates = .ok chain
  signature : ∃ check, verifyIfAny cr c h.serverRandom (f.state cr c) = .ok check
  agreed : agree12 cr c h (f.state cr c) = .ok a

/-- What the client should end up with: no connection when it does not accept the Finished. -/
def outcome (h : Hello12) (a : Agreement12 Key) (after : List Record) : Option (Outcome Key) :=
  if f.fin.body = expectedServerVerify cr a.secrets
      (a.transcript ++ transcriptOf f.tickets ++ a.secrets.finishedMsg) then
    some
      { applicationKeys := a.secrets.keys
        cipherSuite := h.tls12CipherSuite
        tlsVersion := h.negotiatedVersion
        transcript := a.transcript ++ transcriptOf f.tickets
        messages := f.messages
        leftover := after.flatMap Record.bytes }
  else none

end ServerFlight12

def Established12.outcome (e : Established12 Cert Key) : Outcome Key where
  applicationKeys := e.connection.applicationKeys
  cipherSuite := e.connection.cipherSuite
  tlsVersion := e.protocolVersion
  transcript := e.agreement.transcript ++ plaintextBeforeCCS e.handled
  messages := e.received
  leftover := e.connection.receiveBuffer ++ e.connection.transport.flatten

/-- What follows a step that returned. -/
def Result.map {ε α β : Type} (g : α → β) : Result ε α → Result ε β
  | .waiting => .waiting
  | .threw e => .threw e
  | .returned a => .returned (g a)

/-- The outcome of a TLS 1.2 handshake that returned. -/
def outcome12 (r : Result TlsError (Connected Cert Key)) : Option (Outcome Key) :=
  r.tls12?.map Established12.outcome

-- ----
-- A way to send them

/-- The records carry the fragments of the Finished, encrypted one after the other. -/
def Encrypts12 (cr : Crypto Cert Key) (sec : Secrets12 Key) : Nat → List (Record × Bytes) → Prop
  | _, [] => True
  | seqNum, (r, fragment) :: later =>
    r.WellFormed ∧ r.contentType = 0x16 ∧ r.payload ≠ [] ∧ fragment ≠ [] ∧
      cr.decryptTls12HandshakeRecord sec.keys sec.hello.tls12CipherSuite sec.hello.negotiatedVersion
        (r.header.headD 0) seqNum r.payload = some fragment ∧
      Encrypts12 cr sec (seqNum + 1) later

/-- A way to send the two flights: the fragments of the first one and the reads of its
records, the fragments of the tickets, the ChangeCipherSpec, the records of the Finished,
what the server sends next, and the reads of all these. -/
structure Way12 where
  first : List Bytes
  firstReads : List Bytes
  tickets : List Bytes
  changeCipherSpec : Record
  finished : List (Record × Bytes)
  after : List Record
  lastReads : List Bytes

namespace Way12

def firstStream (w : Way12) : Bytes := (w.first.map handshakeRecord).flatMap Record.bytes

/-- The records of the second flight, and those behind it. -/
def lastRecords (w : Way12) : List Record :=
  w.tickets.map handshakeRecord ++ w.changeCipherSpec :: (w.finished.map Prod.fst ++ w.after)

/-- What the client reads. The second flight follows the client's own, for which the client
must have found ServerHelloDone. -/
def reads (w : Way12) : List Bytes :=
  w.firstReads ++
    if (plaintextMessages w.firstStream).any (·.hsType == 0x0E) then w.lastReads else []

structure Sends (w : Way12) (cr : Crypto Cert Key) (sec : Secrets12 Key) (f : ServerFlight12) :
    Prop where
  first_pieces : w.first.flatten = transcriptOf f.messages
  first_fits : ∀ fragment ∈ w.first, fragment ≠ [] ∧ fragment.length < 65536
  firstReads : w.firstReads.flatten = w.firstStream
  firstReads_ne : ∀ data ∈ w.firstReads, data ≠ []
  tickets_pieces : w.tickets.flatten = transcriptOf f.tickets
  tickets_fits : ∀ fragment ∈ w.tickets, fragment.length < 65536
  changeCipherSpec : w.changeCipherSpec.WellFormed ∧ w.changeCipherSpec.contentType = 0x14 ∧
    w.changeCipherSpec.payload = [0x01]
  finished_pieces : (w.finished.map Prod.snd).flatten = f.fin.bytes
  encrypts : Encrypts12 cr sec 0 w.finished
  after : ∀ r ∈ w.after, r.WellFormed
  lastReads : w.lastReads.flatten = w.lastRecords.flatMap Record.bytes

/-- No record of the first flight ends within a message, no key share is seen in the buffer
with the ServerHello, the Finished is in one record, and no read ends at a record before
that. -/
structure Whole (w : Way12) : Prop where
  first : ∀ fragment ∈ w.first, messages.rest fragment = []
  noKeyShare : ∀ buf more, readServerHello (w.reads.map some) = .returned (buf, more) →
    PacketUtil.parseServerHello buf = none
  finished : w.finished.length = 1
  lastReads : ReadsToFinished [] w.lastReads

end Way12

-- ----
-- The first flight

variable {seen rest remaining : Bytes}

section First

variable {fragments : List Bytes} {ms : List HandshakeMessage}

theorem plaintextMessages_handshake (hfits : ∀ fragment ∈ fragments, fragment.length < 65536) :
    plaintextMessages ((fragments.map handshakeRecord).flatMap Record.bytes) =
        fragments.flatMap messages.frames ∧
      records.rest ((fragments.map handshakeRecord).flatMap Record.bytes) = [] := by
  have hencodes : ∀ r ∈ fragments.map handshakeRecord, records.Encodes Record.bytes r := by
    intro r hr
    obtain ⟨fragment, hfragment, rfl⟩ := mem_map.1 hr
    exact (handshakeRecord_wellFormed (hfits fragment hfragment)).encodes
  obtain ⟨hframes, hrest⟩ := records.frames_flatMap hencodes
  refine ⟨?_, hrest⟩
  rw [plaintextMessages, hframes, flatMap_map]
  rfl

/-- The messages of whole fragments are those that were cut into them. -/
theorem flatMap_frames_of_whole (hms : ∀ m ∈ ms, m.WellFormed)
    (hpieces : fragments.flatten = transcriptOf ms)
    (hwhole : ∀ fragment ∈ fragments, messages.rest fragment = []) :
    fragments.flatMap messages.frames = ms := by
  have hall := (messages.frames_flatMap fun m hm => (hms m hm).encodes).1
  rw [flatMap_def, ← Lib.Framing.frames_flatten hwhole, hpieces]
  exact hall

/-- What is left of fragments, each one alone, is missing in their messages. -/
theorem length_flatMap_frames (fragments : List Bytes) :
    (transcriptOf (fragments.flatMap messages.frames)).length +
      (fragments.map fun fragment => (messages.rest fragment).length).sum =
        fragments.flatten.length := by
  induction fragments with
  | nil => rfl
  | cons fragment fragments ih =>
    have hthis := congrArg List.length (frames_transcript fragment)
    rw [length_append] at hthis
    rw [flatMap_cons, transcriptOf_append, length_append, map_cons, sum_cons,
      flatten_cons, length_append]
    omega

/-- When all messages were taken out of a first part of the records, no fragment ends within
one. -/
theorem whole_of_plaintextMessages (hfits : ∀ fragment ∈ fragments, fragment.length < 65536)
    (hpieces : fragments.flatten = transcriptOf ms) {zs : Bytes}
    (hsplit : seen ++ zs = (fragments.map handshakeRecord).flatMap Record.bytes)
    (hseen : plaintextMessages seen = ms) :
    ∀ fragment ∈ fragments, messages.rest fragment = [] := by
  have hall := (plaintextMessages_handshake hfits).1
  rw [← hsplit, plaintextMessages, records.frames_append, flatMap_append,
    ← plaintextMessages, hseen] at hall
  have hlength := length_flatMap_frames fragments
  rw [← hall, hpieces, transcriptOf_append, length_append] at hlength
  intro fragment hfragment
  refine eq_nil_of_length_eq_zero ?_
  have hsum : (fragments.map fun fragment => (messages.rest fragment).length).sum = 0 := by omega
  rw [List.sum_eq_zero_iff_forall_eq_nat] at hsum
  exact hsum _ (mem_map_of_mem hfragment)

end First

variable {chunks : List Bytes}

section Collect

variable {cr : Crypto Cert Key} {T0 stream : Bytes} {more : Reads}

/-- Nothing is left to read when ServerHelloDone, the last message of whole fragments, was
found. -/
theorem eq_nil_of_helloDone {fragments : List Bytes} {body : List HandshakeMessage}
    {helloDone : HandshakeMessage}
    (hfits : ∀ fragment ∈ fragments, fragment ≠ [] ∧ fragment.length < 65536)
    (hwhole : ∀ fragment ∈ fragments, messages.rest fragment = [])
    (hms : fragments.flatMap messages.frames = body ++ [helloDone])
    (hbody : ∀ m ∈ body, m.hsType ≠ 0x0E) {seen zs : Bytes}
    (hsplit : seen ++ zs = (fragments.map handshakeRecord).flatMap Record.bytes)
    (hdone : (plaintextMessages seen).any (·.hsType == 0x0E) = true) : zs = [] := by
  obtain ⟨hall, hrest⟩ := plaintextMessages_handshake fun fragment h => (hfits fragment h).2
  have hencodes : ∀ r ∈ fragments.map handshakeRecord, records.Encodes Record.bytes r := by
    intro r hr
    obtain ⟨fragment, hfragment, rfl⟩ := mem_map.1 hr
    exact (handshakeRecord_wellFormed (hfits fragment hfragment).2).encodes
  have hframes := (records.frames_flatMap hencodes).1
  rw [← hsplit] at hall hrest hframes
  rw [records.frames_append] at hframes
  rw [records.rest_append] at hrest
  -- the records behind have no message, so there is none
  have hlater : (records.frames (records.rest seen ++ zs)).flatMap recordMessages = [] := by
    rw [plaintextMessages, records.frames_append, flatMap_append, hms, ← plaintextMessages]
      at hall
    rcases eq_nil_or_concat
      ((records.frames (records.rest seen ++ zs)).flatMap recordMessages) with hnil | ⟨front, m,
        hback⟩
    · exact hnil
    · rw [concat_eq_append] at hback
      rw [hback, ← append_assoc] at hall
      obtain ⟨hfront, -⟩ := append_inj' hall rfl
      obtain ⟨m', hm', htype⟩ := any_eq_true.1 hdone
      exact absurd (beq_iff_eq.1 htype) (hbody m' (by rw [← hfront]; simp [hm']))
  have hnone : records.frames (records.rest seen ++ zs) = [] := by
    rcases hcase : records.frames (records.rest seen ++ zs) with _ | ⟨r, rs⟩
    · rfl
    · have hr : r ∈ fragments.map handshakeRecord := by
        rw [← hframes, hcase]
        simp
      obtain ⟨fragment, hfragment, rfl⟩ := mem_map.1 hr
      rw [hcase, flatMap_cons, append_eq_nil_iff] at hlater
      exact absurd hlater.1 (frames_ne_nil (hfits fragment hfragment).1 (hwhole fragment hfragment))
  have hbytes : (records.frames (records.rest seen ++ zs)).flatMap Record.bytes ++
      records.rest (records.rest seen ++ zs) = records.rest seen ++ zs :=
    Lib.Framing.frames_bytes (fun h => takeRecord_bytes h) _
  rw [hnone, hrest] at hbytes
  exact (append_eq_nil_iff.1 hbytes.symm).2

/-- The first loop reads the first flight, and nothing of what follows. -/
theorem collectFlight_returns
    (hdone : (plaintextMessages stream).any (·.hsType == 0x0E) = true)
    (hlast : ∀ {seen zs : Bytes}, seen ++ zs = stream →
      (plaintextMessages seen).any (·.hsType == 0x0E) = true → zs = []) (hne :
      ∀ data ∈ chunks, data ≠ []) {s : Flight12 Cert}
    (hseen : records.drain (handleRecord12 cr) (fun _ => false) s rest =
      (flight12 cr T0 seen, records.rest seen))
    (hstream : seen ++ chunks.flatten = stream) :
    collectFlight cr s rest (chunks.map some ++ more) =
      .returned (flight12 cr T0 stream, records.rest stream, more) := by
  have hfound : ∀ seen, (flight12 cr T0 seen).foundServerHelloDone =
      (plaintextMessages seen).any (·.hsType == 0x0E) := by
    intro seen
    rw [(flight12_inv T0 seen).helloDone, flight12_received]
  induction chunks generalizing s seen rest with
  | nil =>
    rw [flatten_nil, append_nil] at hstream
    subst hstream
    unfold collectFlight
    simp only [hseen, hfound, hdone, if_true]
    rfl
  | cons data chunks ih =>
    have hmore : (plaintextMessages seen).any (·.hsType == 0x0E) = false := by
      by_contra hnow
      rw [Bool.not_eq_false] at hnow
      have hnil := hlast hstream hnow
      rw [flatten_cons, append_eq_nil_iff] at hnil
      exact hne data mem_cons_self hnil.1
    rw [flatten_cons, ← append_assoc] at hstream
    unfold collectFlight
    simp only [hseen, hfound, hmore, Bool.false_eq_true, if_false, map_cons, cons_append]
    refine ih (fun d hd => hne d (mem_cons_of_mem _ hd)) ?_ hstream
    -- the next pass goes on where the last one stopped
    rw [drain_handleRecord12, flight12, flight12, plaintextMessages, plaintextMessages,
      plaintextMessages, records.frames_append seen data, records.rest_append seen data,
      flatMap_append, foldl_append]

theorem readToServerHelloDone_split (seen : Bytes) (reads : Reads) :
    ∃ zs, (readToServerHelloDone seen reads).1 ++ zs = seen ++ reads.bytes := by
  induction reads generalizing seen with
  | nil =>
    unfold readToServerHelloDone
    split <;> exact ⟨[], rfl⟩
  | cons data reads ih =>
    unfold readToServerHelloDone
    split
    · exact ⟨_, rfl⟩
    · rcases data with _ | data
      · exact ⟨_, rfl⟩
      · obtain ⟨zs, hzs⟩ := ih (seen ++ data)
        exact ⟨zs, by rw [Reads.bytes_cons, ← append_assoc, ← hzs]⟩

theorem readToServerHelloDone_within
    (hdone : (plaintextMessages (seen ++ chunks.flatten)).any (·.hsType == 0x0E) = true) :
    ∃ zs, (readToServerHelloDone seen (chunks.map some ++ more)).1 ++ zs = seen ++
      chunks.flatten := by
  induction chunks generalizing seen with
  | nil =>
    rw [flatten_nil, append_nil] at hdone
    refine ⟨[], ?_⟩
    unfold readToServerHelloDone
    rw [if_pos hdone]
    rfl
  | cons data chunks ih =>
    unfold readToServerHelloDone
    split
    · exact ⟨_, rfl⟩
    · rw [flatten_cons, ← append_assoc] at hdone ⊢
      exact ih hdone

end Collect

-- ----
-- The second flight

variable {s g : Finish12} {transport : Reads}

section Finish

variable {cr : Crypto Cert Key} {sec : Secrets12 Key} {T : Bytes}

theorem atLeastTwelve_returns {buf : Bytes} {chunks : List Bytes}
    (h : 12 ≤ (buf ++ chunks.flatten).length) :
    ∃ front back, chunks = front ++ back ∧ 12 ≤ (buf ++ front.flatten).length ∧
      atLeastTwelve buf (chunks.map some) = .returned (buf ++ front.flatten, back.map some) := by
  induction chunks generalizing buf with
  | nil =>
    refine ⟨[], [], rfl, h, ?_⟩
    rw [flatten_nil, append_nil] at *
    unfold atLeastTwelve
    rw [if_pos h]
  | cons data chunks ih =>
    by_cases hnow : 12 ≤ buf.length
    · refine ⟨[], data :: chunks, rfl, by simpa using hnow, ?_⟩
      unfold atLeastTwelve
      rw [if_pos hnow, flatten_nil, append_nil]
    · rw [flatten_cons, ← append_assoc] at h
      obtain ⟨front, back, hsplit, hlen, hreturned⟩ := ih h
      refine ⟨data :: front, back, by rw [hsplit]; rfl, ?_, ?_⟩
      · rw [flatten_cons, ← append_assoc]
        exact hlen
      · unfold atLeastTwelve
        rw [if_neg hnow, flatten_cons, ← append_assoc]
        exact hreturned

/-- What the loops make of the state they are left with. -/
def finishResult : Option (Finish12 × Bytes × List Bytes) →
    Result TlsError (Finish12 × Bytes × Reads)
  | none => .waiting
  | some (s, remaining, transport) =>
    match s.error with
    | some e => .threw e
    | none => .returned (s, remaining, transport.map some)

section Pass

variable {s : Finish12} {rest : Bytes} {pass : Finish12 × Bytes}

theorem finishFlight_stop
    (hpass : records.drain (handleFinishRecord cr sec) Finish12.stops s rest = pass)
    (hstop : pass.1.stops = true) (chunks : List Bytes) :
    finishFlight cr sec s rest (chunks.map some) = finishResult
    (some (pass.1, pass.2, chunks)) := by
  unfold finishFlight
  rw [hpass, finishResult]
  rcases herr : pass.1.error with _ | e
  · have hdone : pass.1.done = true := by
      rw [Finish12.stops, herr] at hstop
      simpa using hstop
    simp only [herr]
    rw [if_pos (.inl hdone)]
  · simp only [herr]

/-- The loop reads on in the middle of a record. -/
theorem finishFlight_more
    (hpass : records.drain (handleFinishRecord cr sec) Finish12.stops s rest = pass)
    (hstop : pass.1.stops = false) (hfive : 5 ≤ pass.2.length) :
    finishFlight cr sec s rest [] = .waiting ∧
      ∀ data reads, finishFlight cr sec s rest (some data :: reads) =
        finishFlight cr sec pass.1 (pass.2 ++ data) reads := by
  have herr : pass.1.error = none := by
    rw [Finish12.stops, Bool.or_eq_false_iff] at hstop
    simpa using hstop.2
  have hdone : pass.1.done = false := (Finish12.stops_eq_false herr).1 hstop
  have hon : ¬ (pass.1.done = true ∨ pass.2.length < 5) := by
    rw [hdone]
    simpa using hfive
  refine ⟨?_, fun data reads => ?_⟩
  · unfold finishFlight
    rw [hpass]
    simp only [herr]
    rw [if_neg hon]
  · rw [finishFlight, hpass]
    simp only [herr]
    rw [if_neg hon]

end Pass

/-- **Reads that go on to the Finished** make the last loop one that reads on until it is
there. -/
theorem finishFlight_eq
    (hinv : Finish12Inv cr sec T s) (hlen : 12 ≤ seen.length)
    (hframes : s.handled ++ records.frames rest = records.frames seen)
    (hrest : records.rest rest = records.rest seen) (hreads : ReadsToFinished seen chunks) :
    finishFlight cr sec s rest (chunks.map some) =
      finishResult
      (records.readLoop (handleFinishRecord cr sec) Finish12.stops id s rest chunks) := by
  induction chunks generalizing s seen rest with
  | nil =>
    obtain ⟨pass, hpass⟩ : ∃ pass, records.drain (handleFinishRecord cr sec) Finish12.stops s rest =
        pass := ⟨_, rfl⟩
    obtain ⟨hpinv, -, hall⟩ := finish_pass hinv hframes hrest hpass
    rw [Lib.Framing.readLoop, id, hpass]
    by_cases hstop : pass.1.stops = true
    · rw [finishFlight_stop hpass hstop, if_pos hstop]
    · rw [Bool.not_eq_true] at hstop
      obtain ⟨hseen, hleft⟩ := hall hstop
      have hfive := hreads 0
      rw [take_zero, flatten_nil, append_nil, hseen, ← hleft] at hfive
      rw [if_neg (by simp [hstop]),
        show ([] : List Bytes).map some = [] from rfl,
        (finishFlight_more hpass hstop (hfive hlen (hpinv.pending hstop))).1]
      rfl
  | cons data chunks ih =>
    obtain ⟨pass, hpass⟩ : ∃ pass, records.drain (handleFinishRecord cr sec) Finish12.stops s rest =
        pass := ⟨_, rfl⟩
    obtain ⟨hpinv, -, hall⟩ := finish_pass hinv hframes hrest hpass
    rw [Lib.Framing.readLoop, id, hpass]
    by_cases hstop : pass.1.stops = true
    · rw [finishFlight_stop hpass hstop, if_pos hstop]
    · rw [Bool.not_eq_true] at hstop
      obtain ⟨hseen, hleft⟩ := hall hstop
      obtain ⟨hfive, hlater⟩ := readsToFinished_cons.1 hreads
      rw [hseen, ← hleft] at hfive
      rw [if_neg (by simp [hstop]), map_cons,
        (finishFlight_more hpass hstop (hfive hlen (hpinv.pending hstop))).2]
      -- the next pass finds the records of one more read to be handled
      refine ih hpinv ?_ ?_ ?_ hlater
      · rw [length_append]
        omega
      · rw [records.frames_append seen, hseen, hleft]
      · rw [records.rest_append seen, hleft]

theorem finish_pass_bytes (s : Finish12) (rest : Bytes) :
    ∃ rs, (records.drain (handleFinishRecord cr sec) Finish12.stops s rest).1.handled =
        s.handled ++ rs ∧
      rs.flatMap Record.bytes ++
        (records.drain (handleFinishRecord cr sec) Finish12.stops s rest).2 = rest := by
  have htake : ∀ {xs r ys}, records.next xs = some (r, ys) → xs = r.bytes ++ ys :=
    fun h => takeRecord_bytes h
  obtain ⟨rs, hstate, hbytes⟩ :=
    Lib.Framing.drain_bytes (handleFinishRecord cr sec) Finish12.stops htake s rest
  refine ⟨rs, ?_, hbytes⟩
  rw [hstate, foldl_handleFinishRecord_handled]

/-- What the last loop handled and what it left is what there was to read. -/
theorem finishFlight_bytes {reads : Reads}
    (h : finishFlight cr sec s rest reads = .returned (g, remaining, transport)) :
    ∃ rs, g.handled = s.handled ++ rs ∧
      rs.flatMap Record.bytes ++ (remaining ++ transport.bytes) = rest ++ reads.bytes := by
  induction reads generalizing s rest with
  | nil =>
    obtain ⟨rs, hhandled, hbytes⟩ := @finish_pass_bytes _ _ cr sec s rest
    unfold finishFlight at h
    dsimp only at h
    split at h
    · cases h
    split at h
    · simp only [Result.returned.injEq, Prod.mk.injEq] at h
      obtain ⟨rfl, rfl, rfl⟩ := h
      exact ⟨rs, hhandled, by rw [← append_assoc, hbytes]⟩
    · cases h
  | cons data reads ih =>
    obtain ⟨rs, hhandled, hbytes⟩ := @finish_pass_bytes _ _ cr sec s rest
    unfold finishFlight at h
    dsimp only at h
    split at h
    · cases h
    split at h
    · simp only [Result.returned.injEq, Prod.mk.injEq] at h
      obtain ⟨rfl, rfl, rfl⟩ := h
      exact ⟨rs, hhandled, by rw [← append_assoc, hbytes]⟩
    · rcases data with _ | data
      · cases h
      · obtain ⟨more, hmore, hlater⟩ := ih h
        refine ⟨rs ++ more, by rw [hmore, hhandled, append_assoc], ?_⟩
        rw [flatMap_append, append_assoc, hlater, Reads.bytes_cons, ← append_assoc,
          ← append_assoc, hbytes, append_assoc]

/-- The same of everything behind the client's Finished. -/
theorem receiveServerFinished_bytes
    {reads : Reads}
    (h : receiveServerFinished cr sec T rest reads = .returned (g, remaining, transport)) :
    g.handled.flatMap Record.bytes ++ (remaining ++ transport.bytes) = rest ++ reads.bytes := by
  unfold receiveServerFinished at h
  split at h
  · cases h
  · cases h
  · rename_i buf more hbuf
    obtain ⟨-, -, hbytes⟩ := atLeastTwelve_returned hbuf
    obtain ⟨rs, hhandled, hleft⟩ := finishFlight_bytes h
    rw [hhandled, hbytes]
    exact hleft

theorem drain_tickets {fragments : List Bytes}
    (hfits : ∀ fragment ∈ fragments, fragment.length < 65536)
    (hstop : s.stops = false) (hccs : s.foundCCS = false) (zs : Bytes) :
    records.drain (handleFinishRecord cr sec) Finish12.stops s
        ((fragments.map handshakeRecord).flatMap Record.bytes ++ zs) =
      records.drain (handleFinishRecord cr sec) Finish12.stops
        { s with
          tls12Transcript := s.tls12Transcript ++ fragments.flatten
          handled := s.handled ++ fragments.map handshakeRecord } zs := by
  induction fragments generalizing s with
  | nil => simp
  | cons fragment fragments ih =>
    have htake : records.next ((handshakeRecord fragment).bytes ++
        ((fragments.map handshakeRecord).flatMap Record.bytes ++ zs)) =
        some (handshakeRecord fragment,
          (fragments.map handshakeRecord).flatMap Record.bytes ++ zs) :=
      (handshakeRecord_wellFormed (hfits fragment (by simp))).encodes _
    have hstep : handleFinishRecord cr sec s (handshakeRecord fragment) =
        { s with
          tls12Transcript := s.tls12Transcript ++ fragment
          handled := s.handled ++ [handshakeRecord fragment] } := by
      simp [handleFinishRecord, handshakeRecord, hccs]
    rw [map_cons, flatMap_cons, append_assoc, records.drain_some _ _ hstop htake, hstep,
      ih (fun o ho => hfits o (by simp [ho])) (by exact hstop) (by exact hccs)]
    simp

def atFinished (T : Bytes) (tickets : List Bytes) (changeCipherSpec : Record) : Finish12 where
  tls12Transcript := T ++ tickets.flatten
  foundCCS := true
  handled := tickets.map handshakeRecord ++ [changeCipherSpec]

theorem drain_lastFlight {tickets : List Bytes} {changeCipherSpec r : Record} {d : Bytes}
    (hfits : ∀ fragment ∈ tickets, fragment.length < 65536)
    (hccs : changeCipherSpec.WellFormed ∧ changeCipherSpec.contentType = 0x14)
    (hr : r.WellFormed ∧ r.contentType = 0x16) (hdec : decryptFinished cr sec r = some d)
    (zs : Bytes) :
    records.drain (handleFinishRecord cr sec) Finish12.stops { tls12Transcript := T }
        ((tickets.map handshakeRecord).flatMap Record.bytes ++
          (changeCipherSpec.bytes ++ (r.bytes ++ zs))) =
      (handleFinishRecord cr sec (atFinished T tickets changeCipherSpec) r, zs) ∧
      (handleFinishRecord cr sec (atFinished T tickets changeCipherSpec) r).stops = true := by
  have hstops : (handleFinishRecord cr sec (atFinished T tickets changeCipherSpec) r).stops =
      true := by
    unfold handleFinishRecord
    dsimp only
    rw [if_neg (by rw [hr.2]; decide), if_neg (by simp [atFinished]), if_pos hr.2, hdec]
    dsimp only
    split <;> simp [Finish12.stops]
  have htakeCCS : records.next (changeCipherSpec.bytes ++ (r.bytes ++ zs)) =
      some (changeCipherSpec, r.bytes ++ zs) := hccs.1.encodes _
  have htake : records.next (r.bytes ++ zs) = some (r, zs) := hr.1.encodes _
  have hstep : handleFinishRecord cr sec
      { tls12Transcript := T ++ tickets.flatten, handled := tickets.map handshakeRecord }
      changeCipherSpec = atFinished T tickets changeCipherSpec := by
    unfold handleFinishRecord
    dsimp only
    rw [if_pos hccs.2]
    rfl
  refine ⟨?_, hstops⟩
  rw [drain_tickets hfits rfl rfl]
  dsimp only [nil_append]
  rw [records.drain_some _ _ rfl htakeCCS, hstep, records.drain_some _ _ rfl htake,
    records.drain_stop _ _ hstops]

end Finish

section LastFlight

variable {cr : Crypto Cert Key} {sec : Secrets12 Key} {f : ServerFlight12} {w : Way12} {r : Record}
  {d : Bytes} {later : List (Record × Bytes)}

theorem Encrypts12.record {seqNum : Nat} {sealed : List (Record × Bytes)}
    (h : Encrypts12 cr sec seqNum sealed) :
    ∀ s ∈ sealed, s.1.WellFormed ∧ s.1.contentType = 0x16 := by
  induction sealed generalizing seqNum with
  | nil => simp
  | cons s later ih =>
    obtain ⟨hrecord, htype, -, -, -, hlater⟩ := h
    intro o ho
    rcases mem_cons.1 ho with rfl | ho
    · exact ⟨hrecord, htype⟩
    · exact ih hlater o ho

theorem Way12.Sends.record (h : w.Sends cr sec f) : ∀ r ∈ w.lastRecords, r.WellFormed := by
  intro r hr
  simp only [lastRecords, mem_append, mem_cons, mem_map] at hr
  rcases hr with ⟨fragment, hfragment, rfl⟩ | rfl | ⟨s, hs, rfl⟩ | hr
  · exact handshakeRecord_wellFormed (h.tickets_fits fragment hfragment)
  · exact h.changeCipherSpec.1
  · exact (h.encrypts.record s hs).1
  · exact h.after r hr

theorem Way12.Sends.finished_cons (h : w.Sends cr sec f) :
    ∃ r d later, w.finished = (r, d) :: later ∧ r.WellFormed ∧ r.contentType = 0x16 ∧
      r.payload ≠ [] ∧ decryptFinished cr sec r = some d := by
  rcases hfinished : w.finished with _ | ⟨⟨r, d⟩, later⟩
  · have hpieces := h.finished_pieces
    obtain ⟨a, b, c, hheader, -⟩ := f.fin_wellFormed
    rw [hfinished, HandshakeMessage.bytes, hheader] at hpieces
    exact absurd hpieces (by simp)
  · have hencrypts := h.encrypts
    rw [hfinished] at hencrypts
    obtain ⟨hrecord, htype, hpayload, -, hdec, -⟩ := hencrypts
    exact ⟨r, d, later, rfl, hrecord, htype, hpayload, hdec⟩

theorem Record.WellFormed.length_header (h : r.WellFormed) : r.header.length = 5 := by
  obtain ⟨v1, v2, l1, l2, hheader, -⟩ := h
  rw [hheader]
  rfl

theorem Way12.Sends.lastReads_eq (h : w.Sends cr sec f) (hfinished : w.finished = (r, d) :: later) :
    w.lastReads.flatten = (w.tickets.map handshakeRecord).flatMap Record.bytes ++
      (w.changeCipherSpec.bytes ++
        (r.bytes ++ (later.map Prod.fst ++ w.after).flatMap Record.bytes)) := by
  rw [h.lastReads, lastRecords, hfinished]
  simp

theorem Way12.Sends.length_lastReads (h : w.Sends cr sec f) : 12 ≤ w.lastReads.flatten.length := by
  obtain ⟨r, d, later, hfinished, hr, -, hpayload, -⟩ := h.finished_cons
  have hccs := h.changeCipherSpec.1.length_header
  have hthis := hr.length_header
  have hsome : 0 < r.payload.length := length_pos_iff.2 hpayload
  rw [h.lastReads_eq hfinished]
  simp only [length_append, Record.bytes, h.changeCipherSpec.2.2, length_cons,
    length_nil]
  omega

/-- **Reads that go on to the Finished** bring the client to its first record. -/
theorem Way12.Sends.receiveServerFinished_eq (h : w.Sends cr sec f) (T : Bytes)
    (hfinished : w.finished = (r, d) :: later) (hreads : ReadsToFinished [] w.lastReads) :
    ∃ remaining transport,
      remaining ++ transport.flatten = (later.map Prod.fst ++ w.after).flatMap Record.bytes ∧
      receiveServerFinished cr sec T [] (w.lastReads.map some) =
        finishResult (some (handleFinishRecord cr sec (atFinished T w.tickets w.changeCipherSpec) r,
          remaining, transport)) := by
  obtain ⟨r', d', later', hfinished', hr, htype, -, hdec⟩ := h.finished_cons
  rw [hfinished, List.cons.injEq, Prod.mk.injEq] at hfinished'
  obtain ⟨⟨rfl, rfl⟩, rfl⟩ := hfinished'
  obtain ⟨front, back, hsplit, hlen, hreturned⟩ :=
    @atLeastTwelve_returns [] w.lastReads h.length_lastReads
  rw [nil_append] at hlen hreturned
  obtain ⟨-, hiff, -⟩ := atLeastTwelve_returned hreturned
  rw [chunks_map_some, chunks_map_some] at hiff
  obtain ⟨hdrain, hstops⟩ := @drain_lastFlight _ _ cr sec T w.tickets w.changeCipherSpec r d
    h.tickets_fits ⟨h.changeCipherSpec.1, h.changeCipherSpec.2.1⟩ ⟨hr, htype⟩ hdec
    ((later.map Prod.fst ++ w.after).flatMap Record.bytes)
  rw [← h.lastReads_eq hfinished, hsplit, flatten_append] at hdrain
  have hspec := records.readLoop_spec (handleFinishRecord cr sec) Finish12.stops
    (handleFinishRecord cr sec) Finish12.stops id id (fun _ _ => rfl) (fun _ => rfl)
    (fun _ _ => rfl) back (s := { tls12Transcript := T }) rfl front.flatten
  have hinv : Finish12Inv cr sec T { tls12Transcript := T } := by
    refine ⟨by simp, fun _ => ?_, fun _ => rfl, fun hd => ?_⟩
    · simp [plaintextBeforeCCS]
    · cases hd
  rw [receiveServerFinished, hreturned]
  dsimp only
  rw [finishFlight_eq hinv hlen rfl rfl (hiff.1 hreads)]
  split at hspec
  · -- the whole stream has the Finished
    rw [id, hdrain, hstops] at hspec
    cases hspec
  · rename_i g remaining transport hloop
    obtain ⟨-, hstate⟩ := hspec
    rw [id, hdrain] at hstate
    obtain ⟨hg, hleft⟩ := Prod.mk.inj hstate
    refine ⟨remaining, transport, hleft.symm, ?_⟩
    rw [hloop, hg]
    rfl

end LastFlight

-- ----
-- The outcome

section Boundaries

variable {cr : Crypto Cert Key} {c : Session} {f : ServerFlight12} {w : Way12} {hello : Hello12}
  {a : Agreement12 Key} {sec : Secrets12 Key}

/-- The first record of the first flight starts with the ServerHello. -/
theorem Way12.Sends.first_cons (h : w.Sends cr sec f) :
    ∃ fragment later zs, w.first = fragment :: later ∧ fragment.length < 65536 ∧
      fragment.head? = some 0x02 ∧ w.firstReads.flatten =
        (handshakeRecord fragment).bytes ++ zs := by
  obtain ⟨x, y, z, hheader, -⟩ := f.wellFormed f.hello (by simp)
  have hpieces := h.first_pieces
  have hhead : (transcriptOf f.messages).head? = some 0x02 := by
    rw [transcriptOf, ServerFlight12.messages, flatMap_cons, HandshakeMessage.bytes, hheader,
      f.hello_type]
    rfl
  rcases hfirst : w.first with _ | ⟨fragment, later⟩
  · rw [hfirst] at hpieces
    rw [← hpieces] at hhead
    cases hhead
  · obtain ⟨hne, hfits⟩ := h.first_fits fragment (by simp [hfirst])
    refine ⟨fragment, later, (later.map handshakeRecord).flatMap Record.bytes, rfl, hfits, ?_, ?_⟩
    · rw [← hpieces, hfirst, flatten_cons, List.head?_append] at hhead
      obtain ⟨b, bs, rfl⟩ := exists_cons_of_ne_nil hne
      exact hhead
    · rw [h.firstReads, Way12.firstStream, hfirst, map_cons, flatMap_cons]

theorem Way12.Sends.plaintextMessages_eq (h : w.Sends cr sec f)
    (hfirst : ∀ fragment ∈ w.first, messages.rest fragment = []) :
    plaintextMessages w.firstStream = f.messages ∧ records.rest w.firstStream = [] := by
  obtain ⟨hall, hrest⟩ :=
    plaintextMessages_handshake fun fragment hfragment => (h.first_fits fragment hfragment).2
  refine ⟨?_, hrest⟩
  rw [Way12.firstStream, hall]
  exact flatMap_frames_of_whole f.wellFormed h.first_pieces hfirst

/-- A whole first flight is followed by the second one. -/
theorem Way12.Sends.reads_eq (h : w.Sends cr sec f)
    (hfirst : ∀ fragment ∈ w.first, messages.rest fragment = []) :
    w.reads = w.firstReads ++ w.lastReads := by
  rw [Way12.reads, (h.plaintextMessages_eq hfirst).1, if_pos]
  simp [ServerFlight12.messages, f.helloDone_type]

theorem Way12.Sends.readToServerHelloDone_split (h : w.Sends cr sec f) {buf : Bytes} {more : Reads}
    (hread : readServerHello (w.reads.map some) = .returned (buf, more)) :
    ∃ zs, (readToServerHelloDone buf more).1 ++ zs = w.firstStream := by
  obtain ⟨fragment, later, zs, hcons, hfits, hhead, hstream⟩ := h.first_cons
  rw [Way12.reads] at hread
  split at hread
  · rename_i hdone
    obtain ⟨front, back, ys, hsplit, hread', -⟩ :=
      readServerHello_returns h.firstReads_ne hfits hhead hstream (w.lastReads.map some)
    rw [map_append, hread', Result.returned.injEq, Prod.mk.injEq] at hread
    obtain ⟨rfl, rfl⟩ := hread
    have hall : front.flatten ++ back.flatten = w.firstStream := by
      rw [← flatten_append, ← hsplit, h.firstReads]
    rw [← hall] at hdone ⊢
    exact readToServerHelloDone_within hdone
  · obtain ⟨front, back, ys, hsplit, hread', -⟩ :=
      readServerHello_returns h.firstReads_ne hfits hhead hstream []
    rw [append_nil, append_nil] at hread'
    rw [append_nil, hread', Result.returned.injEq, Prod.mk.injEq] at hread
    obtain ⟨rfl, rfl⟩ := hread
    obtain ⟨tail, htail⟩ := Tls.readToServerHelloDone_split front.flatten (back.map some)
    rw [bytes_map_some, ← flatten_append, ← hsplit, h.firstReads] at htail
    exact ⟨tail, htail⟩

theorem Way12.Sends.first_hello (h : w.Sends cr sec f)
    (hfirst : ∀ fragment ∈ w.first, Tls.messages.rest fragment = []) {fragment : Bytes}
    {later : List Bytes} (hcons : w.first = fragment :: later) :
    ∃ others, Tls.messages.frames fragment = f.hello :: others := by
  have hms := flatMap_frames_of_whole f.wellFormed h.first_pieces hfirst
  rw [hcons, flatMap_cons] at hms
  rcases hcase : Tls.messages.frames fragment with _ | ⟨m, others⟩
  · exact absurd hcase (frames_ne_nil (h.first_fits fragment (by simp [hcons])).1
      (hfirst fragment (by simp [hcons])))
  · rw [hcase, cons_append, List.cons.injEq] at hms
    exact ⟨others, by rw [hms.1]⟩

/-- **A whole first flight** brings the client to its own flight. -/
theorem Way12.Sends.connect_eq (h : w.Sends cr sec f) (hvalid : f.Valid cr c hello a)
    (hfirst : ∀ fragment ∈ w.first, Tls.messages.rest fragment = [])
    (hshare : ∀ buf more, readServerHello (w.reads.map some) = .returned (buf, more) →
      PacketUtil.parseServerHello buf = none) :
    connect cr c (w.reads.map some) =
      (finishTls12Handshake cr c hello (f.state cr c) [] (w.lastReads.map some)).map .tls12 := by
  obtain ⟨hall, hrest⟩ := h.plaintextMessages_eq hfirst
  have hms := flatMap_frames_of_whole f.wellFormed h.first_pieces hfirst
  obtain ⟨fragment, later, zs, hcons, hfits, hhead, hstream⟩ := h.first_cons
  obtain ⟨others, hframes⟩ := h.first_hello hfirst hcons
  obtain ⟨front, back, ys, hsplit, hread, hfront⟩ :=
    readServerHello_returns h.firstReads_ne hfits hhead hstream (w.lastReads.map some)
  rw [← map_append, ← h.reads_eq hfirst] at hread
  have hextract : extractServerHelloMessage front.flatten = f.hello.bytes := by
    rw [hfront]
    exact extractServerHelloMessage_first (handshakeRecord_wellFormed hfits) rfl
      f.hello_type hframes ys
  have hsome : ¬ f.hello.bytes.isEmpty = true := by
    obtain ⟨x, y, z, hheader, -⟩ := f.wellFormed f.hello (by simp)
    rw [HandshakeMessage.bytes, hheader]
    simp
  have hback : ∀ data ∈ back, data ≠ [] :=
    fun data hdata => h.firstReads_ne data (by rw [hsplit]; simp [hdata])
  have hdone : (plaintextMessages w.firstStream).any (·.hsType == 0x0E) = true := by
    rw [hall]
    simp [ServerFlight12.messages, f.helloDone_type]
  have hlast : ∀ {seen zs : Bytes}, seen ++ zs = w.firstStream →
      (plaintextMessages seen).any (·.hsType == 0x0E) = true → zs = [] := by
    intro seen zs hseen hnow
    refine @eq_nil_of_helloDone w.first (f.hello :: f.body) f.helloDone h.first_fits hfirst hms ?_
      _ _ hseen hnow
    intro m hm
    rcases mem_cons.1 hm with rfl | hm
    · rw [f.hello_type]
      decide
    · exact f.body_type m hm
  have hcollect : collectFlight cr { tls12Transcript := c.storedClientHello ++ f.hello.bytes }
      front.flatten (back.map some ++ w.lastReads.map some) =
      .returned (flight12 cr (c.storedClientHello ++ f.hello.bytes) w.firstStream,
        records.rest w.firstStream, w.lastReads.map some) :=
    collectFlight_returns hdone hlast hback (drain_handleRecord12 _ _)
      (by rw [← flatten_append, ← hsplit, h.firstReads])
  have hstate : flight12 cr (c.storedClientHello ++ f.hello.bytes) w.firstStream =
      f.state cr c := by
    rw [flight12, hall]
    rfl
  rw [connect, hread]
  dsimp only
  rw [continueHandshake, hshare _ _ hread, handleTls12Handshake, hextract]
  dsimp only
  rw [if_neg hsome, hvalid.parsed]
  dsimp only
  rw [hvalid.version]
  dsimp only
  simp only [hcollect, hstate, hrest]
  rcases finishTls12Handshake cr c hello (f.state cr c) [] (w.lastReads.map some) with _ | e | e
  · rfl
  · rfl
  · rfl

theorem finishedRecord_lastFlight {tickets : List Bytes} {changeCipherSpec r : Record}
    (hccs : changeCipherSpec.contentType = 0x14) (hr : r.contentType = 0x16) (rs : List Record) :
    finishedRecord (tickets.map handshakeRecord ++ changeCipherSpec :: r :: rs) = some r := by
  have hdrop : (tickets.map handshakeRecord ++ changeCipherSpec :: r :: rs).dropWhile
      (·.contentType != 0x14) = changeCipherSpec :: r :: rs := by
    rw [dropWhile_append_of_pos]
    · simp [hccs]
    · intro o ho
      obtain ⟨fragment, -, rfl⟩ := mem_map.1 ho
      exact (by decide : ((0x16 : UInt8) != 0x14) = true)
  rw [finishedRecord, hdrop]
  simp [hccs, hr]

theorem plaintextBeforeCCS_lastFlight {tickets : List Bytes} {changeCipherSpec : Record}
    (hccs : changeCipherSpec.contentType = 0x14) (rs : List Record) :
    plaintextBeforeCCS (tickets.map handshakeRecord ++ changeCipherSpec :: rs) =
      tickets.flatten := by
  have htake : (tickets.map handshakeRecord ++ changeCipherSpec :: rs).takeWhile
      (·.contentType != 0x14) = tickets.map handshakeRecord := by
    rw [takeWhile_append_of_pos]
    · simp [hccs]
    · intro o ho
      obtain ⟨fragment, -, rfl⟩ := mem_map.1 ho
      exact (by decide : ((0x16 : UInt8) != 0x14) = true)
  have hfilter : (tickets.map handshakeRecord).filter (·.contentType == 0x16) =
      tickets.map handshakeRecord := by
    rw [filter_eq_self]
    intro o ho
    obtain ⟨fragment, -, rfl⟩ := mem_map.1 ho
    exact (by decide : ((0x16 : UInt8) == 0x16) = true)
  rw [plaintextBeforeCCS, htake, hfilter, flatMap_map]
  exact flatMap_id

theorem handleFinishRecord_encrypted {r : Record} {d : Bytes}
    (hccs : s.foundCCS = true) (herr : s.error = none) (htype : r.contentType = 0x16)
    (hdec : decryptFinished cr sec r = some d) (hlong : 4 ≤ d.length) :
    (handleFinishRecord cr sec s r).error = none ↔
      d.drop 4 = expectedServerVerify cr sec (s.tls12Transcript ++ sec.finishedMsg) := by
  rw [← constantTimeEqual_iff]
  unfold handleFinishRecord
  dsimp only
  rw [if_neg (by rw [htype]; decide), if_neg (by simp [hccs]), if_pos htype, hdec]
  dsimp only
  split
  · rename_i hcompare
    simp [hcompare.2]
  · rename_i hcompare
    rw [not_and, not_not] at hcompare
    exact ⟨fun _ => hcompare hlong, fun _ => herr⟩

theorem handleFinishRecord_whole (h : w.Sends cr sec f) (T : Bytes) {r : Record}
    (hfinished : w.finished = [(r, f.fin.bytes)]) :
    (handleFinishRecord cr sec (atFinished T w.tickets w.changeCipherSpec) r).handled =
        w.tickets.map handshakeRecord ++ w.changeCipherSpec :: [r] ∧
      ((handleFinishRecord cr sec (atFinished T w.tickets w.changeCipherSpec) r).error = none ↔
        f.fin.body = expectedServerVerify cr sec
        (T ++ transcriptOf f.tickets ++ sec.finishedMsg)) := by
  obtain ⟨r', d, later, hcons, -, htype, -, hdec⟩ := h.finished_cons
  rw [hfinished, List.cons.injEq, Prod.mk.injEq] at hcons
  obtain ⟨⟨rfl, rfl⟩, -⟩ := hcons
  obtain ⟨x, y, z, hheader, -⟩ := f.fin_wellFormed
  have hdrop : f.fin.bytes.drop 4 = f.fin.body := by
    rw [HandshakeMessage.bytes, hheader]
    rfl
  have hlong : 4 ≤ f.fin.bytes.length := by
    rw [HandshakeMessage.bytes, hheader, length_append]
    exact Nat.le_add_right 4 _
  refine ⟨?_, ?_⟩
  · rw [handleFinishRecord_handled, atFinished]
    simp
  · rw [handleFinishRecord_encrypted rfl rfl htype hdec hlong, hdrop, ← h.tickets_pieces]
    rfl

/-- The connection of a client that was left with `g`. -/
def establish12 (hello : Hello12) (a : Agreement12 Key) (received : List HandshakeMessage)
    (chain : Option (List Cert)) (check : Option (KeyExchangeCheck Cert))
    (g : Finish12 × Bytes × Reads) : Established12 Cert Key where
  connection :=
    { applicationKeys := a.secrets.keys
      cipherSuite := hello.tls12CipherSuite
      receiveBuffer := g.2.1
      transport := g.2.2.chunks }
  protocolVersion := hello.negotiatedVersion
  agreement := a
  received := received
  chain := chain
  keyExchangeCheck := check
  handled := g.1.handled

theorem ServerFlight12.Valid.finish_eq (hvalid : f.Valid cr c hello a) (reads : Reads) :
    ∃ chain check, finishTls12Handshake cr c hello (f.state cr c) [] reads =
      (receiveServerFinished cr a.secrets a.transcript [] reads).map
        (establish12 hello a (f.state cr c).received chain check) := by
  obtain ⟨chain, hchain⟩ := hvalid.chain
  obtain ⟨check, hcheck⟩ := hvalid.signature
  refine ⟨chain, check, ?_⟩
  rw [finishTls12Handshake, hchain]
  dsimp only
  rw [hcheck]
  simp only [hvalid.agreed]
  rcases receiveServerFinished cr a.secrets a.transcript [] reads with _ | e |
    ⟨g, remaining, transport⟩
  · rfl
  · rfl
  · rfl

theorem ServerFlight12.state_received (f : ServerFlight12) (cr : Crypto Cert Key) (c : Session) :
    (f.state cr c).received = f.messages :=
  (foldl_handleMessage12 f.messages ⟨rfl, rfl, rfl⟩).2

theorem ServerFlight12.outcome_of_whole (hvalid : f.Valid cr c hello a)
    (hsends : w.Sends cr a.secrets f) (hwhole : w.Whole) :
    outcome12 (connect cr c (w.reads.map some)) = f.outcome cr hello a w.after := by
  obtain ⟨⟨r, d⟩, hfinished⟩ := length_eq_one_iff.1 hwhole.finished
  obtain rfl : d = f.fin.bytes := by
    have hpieces := hsends.finished_pieces
    rw [hfinished] at hpieces
    simpa using hpieces
  obtain ⟨hhandled, hok⟩ := handleFinishRecord_whole hsends a.transcript hfinished
  obtain ⟨remaining, transport, hleft, hreceive⟩ :=
    hsends.receiveServerFinished_eq a.transcript hfinished hwhole.lastReads
  obtain ⟨chain, check, hfinish⟩ := hvalid.finish_eq (w.lastReads.map some)
  rw [hsends.connect_eq hvalid hwhole.first hwhole.noKeyShare, hfinish, hreceive, finishResult,
    ServerFlight12.outcome]
  by_cases haccepted : f.fin.body = expectedServerVerify cr a.secrets
      (a.transcript ++ transcriptOf f.tickets ++ a.secrets.finishedMsg)
  · rw [hok.2 haccepted, if_pos haccepted]
    have houtcome : (establish12 hello a (f.state cr c).received chain check
        (handleFinishRecord cr a.secrets (atFinished a.transcript w.tickets w.changeCipherSpec) r,
          remaining, transport.map some)).outcome =
        { applicationKeys := a.secrets.keys
          cipherSuite := hello.tls12CipherSuite
          tlsVersion := hello.negotiatedVersion
          transcript := a.transcript ++ transcriptOf f.tickets
          messages := f.messages
          leftover := w.after.flatMap Record.bytes } := by
      rw [Established12.outcome, establish12]
      simp only [hhandled, f.state_received, chunks_map_some, hleft,
        plaintextBeforeCCS_lastFlight hsends.changeCipherSpec.2.1, hsends.tickets_pieces]
      rfl
    exact congrArg some houtcome
  · rw [if_neg haccepted]
    obtain ⟨e, he⟩ := Option.ne_none_iff_exists'.1 (fun hnone => haccepted (hok.1 hnone))
    rw [he]
    rfl

theorem eq_nil_of_flatMap_bytes {rs : List Record} (hrs : ∀ r ∈ rs, r.WellFormed)
    (h : rs.flatMap Record.bytes = []) : rs = [] := by
  rcases rs with _ | ⟨r, rs⟩
  · rfl
  · have hpos := length_record_pos (hrs r (by simp)) (rs.flatMap Record.bytes)
    rw [← flatMap_cons, h] at hpos
    cases hpos

/-- A client that is left with what follows the second flight has read it to the end. -/
theorem Way12.Sends.lastFlight_of_leftover (h : w.Sends cr sec f) {T : Bytes}
    (hreturned : receiveServerFinished cr sec T [] (w.lastReads.map some) =
      .returned (g, remaining, transport))
    (hleft : remaining ++ transport.bytes = w.after.flatMap Record.bytes) :
    w.finished.length = 1 ∧ ReadsToFinished [] w.lastReads := by
  obtain ⟨r, d, later, hfinished, hr, htype, -, -⟩ := h.finished_cons
  obtain ⟨hinv, herr, hdone, gs, hgs⟩ := receiveServerFinished_returned hreturned
  have hbytes := receiveServerFinished_bytes hreturned
  rw [chunks_map_some] at hdone
  rw [nil_append, bytes_map_some, h.lastReads] at hgs hbytes
  have hrecords : w.lastRecords = (w.tickets.map handshakeRecord ++
      w.changeCipherSpec :: r :: later.map Prod.fst) ++ w.after := by
    simp [Way12.lastRecords, hfinished]
  have hreads : ReadsToFinished [] w.lastReads := by
    rw [← hdone]
    by_contra hnot
    have hpending := hinv.pending ((Finish12.stops_eq_false herr).2 (by simpa using hnot))
    -- what was handled is the whole second flight
    rw [(records.frames_flatMap fun o ho => (h.record o ho).encodes).1, hrecords] at hgs
    rw [hleft, hrecords, flatMap_append] at hbytes
    have hsame := append_cancel_right hbytes
    have hfound : finishedRecord g.handled = some r := by
      rcases append_eq_append_iff.1 hgs with ⟨more, hhandled, -⟩ | ⟨more, hall, -⟩
      · rw [hhandled]
        exact finishedRecord_append
          (finishedRecord_lastFlight h.changeCipherSpec.2.1 htype _) more
      · rw [hall, flatMap_append] at hsame
        have hnil : more = [] := by
          refine eq_nil_of_flatMap_bytes (fun o ho => h.record o ?_) ?_
          · rw [hrecords, hall]
            simp [ho]
          · exact append_right_eq_self.1 hsame.symm
        rw [hnil, append_nil] at hall
        rw [← hall]
        exact finishedRecord_lastFlight h.changeCipherSpec.2.1 htype _
    rw [hfound] at hpending
    cases hpending
  refine ⟨?_, hreads⟩
  obtain ⟨remaining', transport', hleft', hreturned'⟩ :=
    h.receiveServerFinished_eq T hfinished hreads
  rw [hreturned, finishResult] at hreturned'
  split at hreturned'
  · cases hreturned'
  · rw [Result.returned.injEq, Prod.mk.injEq, Prod.mk.injEq] at hreturned'
    obtain ⟨-, rfl, rfl⟩ := hreturned'
    rw [bytes_map_some, hleft', flatMap_append] at hleft
    have hnil : later.map Prod.fst = [] := by
      refine eq_nil_of_flatMap_bytes (fun o ho => h.record o ?_) (append_left_eq_self.1 hleft)
      rw [hrecords]
      simp [ho]
    rw [hfinished, map_eq_nil_iff.1 hnil]
    rfl

theorem ServerFlight12.whole_of_outcome (hvalid : f.Valid cr c hello a)
    (hsends : w.Sends cr a.secrets f) (haccepted : (f.outcome cr hello a w.after).isSome = true)
    (houtcome : outcome12 (connect cr c (w.reads.map some)) = f.outcome cr hello a w.after) :
    w.Whole := by
  rw [ServerFlight12.outcome] at haccepted houtcome
  split at haccepted
  swap
  · cases haccepted
  rename_i hbody
  rw [if_pos hbody] at houtcome
  obtain ⟨e, he, hout⟩ := Option.map_eq_some_iff.1 houtcome
  obtain ⟨e', hconnect⟩ := Result.eq_of_tls12? (by rw [he]; rfl)
  rw [hconnect] at he
  obtain rfl : e' = e := Option.some.inj he
  have hreceived : e'.received = f.messages := congrArg Outcome.messages hout
  have hleft : e'.connection.receiveBuffer ++ e'.connection.transport.flatten =
      w.after.flatMap Record.bytes := congrArg Outcome.leftover hout
  obtain ⟨buf, more, hread, hshare, hhandle⟩ := connect_tls12 hconnect
  have hnoShare : ∀ buf more, readServerHello (w.reads.map some) = .returned (buf, more) →
      PacketUtil.parseServerHello buf = none := by
    intro buf' more' hread'
    rw [hread, Result.returned.injEq, Prod.mk.injEq] at hread'
    rw [← hread'.1]
    exact hshare
  have hfirst : ∀ fragment ∈ w.first, Tls.messages.rest fragment = [] := by
    obtain ⟨hello', -, hfinish⟩ := handleTls12Handshake_returned hhandle
    obtain ⟨-, -, -, hrec, -⟩ := finishTls12Handshake_returned hfinish
    rw [flight12_received, hreceived] at hrec
    obtain ⟨zs, hzs⟩ := hsends.readToServerHelloDone_split hread
    exact whole_of_plaintextMessages
      (fun fragment hfragment => (hsends.first_fits fragment hfragment).2)
      hsends.first_pieces hzs hrec.symm
  rw [hsends.connect_eq hvalid hfirst hnoShare] at hconnect
  obtain ⟨chain, check, hfinish⟩ := hvalid.finish_eq (w.lastReads.map some)
  rw [hfinish] at hconnect
  rcases hreceive : receiveServerFinished cr a.secrets a.transcript [] (w.lastReads.map some) with
    _ | e | ⟨g, remaining, transport⟩
  · rw [hreceive] at hconnect
    cases hconnect
  · rw [hreceive] at hconnect
    cases hconnect
  · rw [hreceive] at hconnect
    obtain rfl := Connected.tls12.inj (Result.returned.inj hconnect)
    obtain ⟨hone, hreads⟩ := hsends.lastFlight_of_leftover hreceive hleft
    exact ⟨hfirst, hnoShare, hone, hreads⟩

/-- **Record and read boundaries of TLS 1.2.** A way to send a valid flight gives the outcome
of the flight when it is whole, and only then when that outcome is a connection. -/
theorem tls12_outcome (hvalid : f.Valid cr c hello a) (hsends : w.Sends cr a.secrets f) :
    (w.Whole → outcome12 (connect cr c (w.reads.map some)) = f.outcome cr hello a w.after) ∧
      ((f.outcome cr hello a w.after).isSome = true →
        outcome12 (connect cr c (w.reads.map some)) = f.outcome cr hello a w.after → w.Whole) :=
  ⟨ServerFlight12.outcome_of_whole hvalid hsends, ServerFlight12.whole_of_outcome hvalid hsends⟩

end Boundaries

end Anywhere.Tls
