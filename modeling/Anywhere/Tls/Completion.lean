import Anywhere.Handshakes

/-!
# Anywhere — the end of a TLS 1.2 handshake with an honest server

An honest server computes its Finished over the messages in the order in which they were sent:
the client's Finished comes before the ticket. The client appends the ticket when it comes, and
its own Finished when that of the server is there.

* `ServerFlight12.Honest` — a server that keeps to the order.
* `tls12_completes` — the handshake ends with it when there is no ticket.
-/

namespace Anywhere.Tls

open List

variable {Cert Key : Type} {cr : Crypto Cert Key} {c : Session} {f : ServerFlight12} {w : Way12}
  {hello : Hello12} {a : Agreement12 Key} {r : Record}

/-- ClientHello to ServerHelloDone, and the ClientKeyExchange. -/
def ServerFlight12.exchanged (f : ServerFlight12) (c : Session) (a : Agreement12 Key) : Bytes :=
  c.storedClientHello ++ transcriptOf f.messages ++ clientKeyExchange a.ckeBody

/-- A server that sends one ServerHello and at most one ticket, and whose Finished covers all
messages before it, the client's Finished and the ticket being the last ones. -/
structure ServerFlight12.Honest (f : ServerFlight12) (cr : Crypto Cert Key) (c : Session)
    (a : Agreement12 Key) : Prop where
  oneHello : ∀ m ∈ f.body, m.hsType ≠ 0x02
  ticket : f.tickets = [] ∨ ∃ newSessionTicket, f.tickets = [newSessionTicket] ∧
    newSessionTicket.hsType = 0x04 ∧ newSessionTicket.WellFormed
  fin_type : f.fin.hsType = 0x14
  fin_body : f.fin.body = expectedServerVerify cr a.secrets
    (f.exchanged c a ++ a.secrets.finishedMsg ++ transcriptOf f.tickets)

/-- The Finished goes in one record, and a ticket in records that are not empty. -/
structure Way12.Regular (w : Way12) (f : ServerFlight12) (r : Record) : Prop where
  finished : w.finished = [(r, f.fin.bytes)]
  tickets_ne : ∀ fragment ∈ w.tickets, fragment ≠ []

/-- The handshake returns with the Finished of the server accepted, and the record connection has
what the server sent behind it. -/
def Completes (cr : Crypto Cert Key) (c : Session) (f : ServerFlight12) (w : Way12)
    (hello : Hello12) (r : Record) : Prop :=
  ∃ e, finishTls12Handshake cr c hello (f.state cr c) [] (w.lastReads.map some) = .returned e ∧
    finishedRecord e.handled = some r ∧
    e.connection.receiveBuffer ++ e.connection.transport.flatten = w.after.flatMap Record.bytes

-- ----
-- The transcript

theorem handleMessage12_transcript (s : Flight12 Cert) {m : HandshakeMessage}
    (h : m.hsType ≠ 0x02) :
    (handleMessage12 cr s m).tls12Transcript = s.tls12Transcript ++ m.bytes := by
  unfold handleMessage12
  dsimp only
  rw [if_neg h]
  split
  · rfl
  · split
    · rfl
    · split <;> rfl

theorem foldl_handleMessage12_transcript {ms : List HandshakeMessage}
    (h : ∀ m ∈ ms, m.hsType ≠ 0x02) (s : Flight12 Cert) :
    (ms.foldl (handleMessage12 cr) s).tls12Transcript = s.tls12Transcript ++ transcriptOf ms := by
  induction ms generalizing s with
  | nil => exact (append_nil _).symm
  | cons m ms ih =>
    rw [foldl_cons, ih fun o ho => h o (mem_cons_of_mem _ ho),
      handleMessage12_transcript s (h m mem_cons_self), append_assoc]
    rfl

/-- **What the client hashes** when it sends its Finished. -/
theorem ServerFlight12.Valid.transcript_eq (hvalid : f.Valid cr c hello a)
    (honest : f.Honest cr c a) :
    a.transcript = f.exchanged c a := by
  have hagreed := hvalid.agreed
  rw [agree12] at hagreed
  split at hagreed
  · cases hagreed
  · rename_i preMasterSecret ckeBody hkey
    cases hagreed
    have hstate : (f.state cr c).tls12Transcript = c.storedClientHello ++
        transcriptOf f.messages := by
      have hfirst : ∀ s : Flight12 Cert, (handleMessage12 cr s f.hello).tls12Transcript =
          s.tls12Transcript := by
        intro s
        unfold handleMessage12
        dsimp only
        rw [if_pos f.hello_type]
      rw [ServerFlight12.state, ServerFlight12.messages, foldl_cons,
        foldl_handleMessage12_transcript, hfirst, append_assoc]
      · rfl
      · intro m hm
        rcases mem_append.mp hm with hm | hm
        · exact honest.oneHello m hm
        · rw [mem_singleton.mp hm, f.helloDone_type]
          decide
    rw [ServerFlight12.exchanged, hstate]

-- ----
-- The reads

/-- Without a ticket, twelve bytes are the ChangeCipherSpec and the head of the next record. -/
theorem Way12.Sends.readsToFinished (h : w.Sends cr a.secrets f) (hregular : w.Regular f r)
    (htickets : w.tickets = []) :
    ReadsToFinished [] w.lastReads := by
  obtain ⟨r', d, later, hcons, hr, htype, -, -⟩ := h.finished_cons
  rw [hregular.finished, List.cons.injEq, Prod.mk.injEq] at hcons
  obtain ⟨⟨rfl, rfl⟩, rfl⟩ := hcons
  obtain ⟨hccs, hccsType, hccsPayload⟩ := h.changeCipherSpec
  have hsix : w.changeCipherSpec.bytes.length = 6 := by
    rw [Record.bytes, length_append, hccs.length_header, hccsPayload]
    rfl
  have hstream := h.lastReads_eq hregular.finished
  rw [htickets, map_nil, flatMap_nil, nil_append, map_nil, nil_append] at hstream
  intro n hlen hnone
  rw [nil_append] at hlen hnone ⊢
  have hsplit : (w.lastReads.take n).flatten ++ (w.lastReads.drop n).flatten =
      w.lastReads.flatten := by
    rw [← flatten_append, take_append_drop]
  generalize (w.lastReads.take n).flatten = seen at hlen hnone hsplit ⊢
  rw [hstream] at hsplit
  obtain ⟨front, rfl, hfront⟩ := Lib.exists_beyond hsplit (by omega)
  rw [length_append, hsix] at hlen
  have htake := hccs.encodes front
  rw [records.frames_some htake] at hnone
  rw [records.rest_some htake]
  rcases hnext : records.next front with _ | ⟨r', ys⟩
  · rw [records.rest_none hnext]
    omega
  · -- a record in front of the cut is the Finished
    have hwhole := records.extend (w.lastReads.drop n).flatten hnext
    rw [hfront, hr.encodes, Option.some.injEq, Prod.mk.injEq] at hwhole
    rw [records.frames_some hnext, ← hwhole.1] at hnone
    have hfinished := @finishedRecord_lastFlight [] _ _ hccsType htype (records.frames ys)
    cases (hnone.symm.trans hfinished)

-- ----
-- The handshake

/-- The handshake completes when the client expects what the server sent, and comes to it. -/
theorem completes_iff (hvalid : f.Valid cr c hello a) (hsends : w.Sends cr a.secrets f)
    (hregular : w.Regular f r) :
    Completes cr c f w hello r ↔
      f.fin.body = expectedServerVerify cr a.secrets (a.transcript ++ transcriptOf f.tickets ++
        a.secrets.finishedMsg) ∧
        ReadsToFinished [] w.lastReads := by
  obtain ⟨chain, check, hfinish⟩ := hvalid.finish_eq (w.lastReads.map some)
  obtain ⟨hhandled, hok⟩ := handleFinishRecord_whole hsends a.transcript hregular.finished
  rw [Completes, hfinish]
  constructor
  · rintro ⟨e, he, -, hleft⟩
    rcases hreceive : receiveServerFinished cr a.secrets a.transcript [] (w.lastReads.map some) with
      _ | e' | ⟨g, remaining, transport⟩
    · rw [hreceive] at he
      cases he
    · rw [hreceive] at he
      cases he
    · rw [hreceive] at he
      obtain rfl := Result.returned.inj he
      obtain ⟨-, hreads⟩ := hsends.lastFlight_of_leftover hreceive hleft
      refine ⟨?_, hreads⟩
      obtain ⟨remaining', transport', -, heq⟩ :=
        hsends.receiveServerFinished_eq a.transcript hregular.finished hreads
      rw [heq, finishResult] at hreceive
      rw [← hok]
      split at hreceive
      · cases hreceive
      · assumption
  · rintro ⟨haccepted, hreads⟩
    obtain ⟨remaining, transport, hleft, hreceive⟩ :=
      hsends.receiveServerFinished_eq a.transcript hregular.finished hreads
    have herr := hok.mpr haccepted
    rw [hreceive, finishResult, herr]
    refine ⟨_, rfl, ?_, ?_⟩
    · obtain ⟨r', d, later, hcons, -, htype, -, -⟩ := hsends.finished_cons
      rw [hregular.finished, List.cons.injEq, Prod.mk.injEq] at hcons
      rw [establish12, hhandled]
      exact finishedRecord_lastFlight hsends.changeCipherSpec.2.1
        (by rw [hcons.1.1]; exact htype) []
    · rw [establish12, chunks_map_some]
      exact hleft

/-- **Completion of TLS 1.2.** The handshake with an honest server completes if and only if there
is no ticket, or the two orders of the ticket and the client's Finished have the same verify_data
and no read ends at a record before the Finished. -/
theorem tls12_completes (hvalid : f.Valid cr c hello a) (honest : f.Honest cr c a)
    (hsends : w.Sends cr a.secrets f) (hregular : w.Regular f r) :
    Completes cr c f w hello r ↔
      f.tickets = [] ∨
        (expectedServerVerify cr a.secrets (f.exchanged c a ++ transcriptOf f.tickets ++
            a.secrets.finishedMsg) = expectedServerVerify cr a.secrets
            (f.exchanged c a ++ a.secrets.finishedMsg ++ transcriptOf f.tickets) ∧
          ReadsToFinished [] w.lastReads) := by
  rw [completes_iff hvalid hsends hregular, hvalid.transcript_eq honest, honest.fin_body]
  constructor
  · exact fun h => .inr ⟨h.1.symm, h.2⟩
  · rintro (hnone | ⟨hsame, hreads⟩)
    · rw [hnone, transcriptOf, flatMap_nil, append_nil, append_nil]
      have hpieces := hsends.tickets_pieces
      rw [hnone, transcriptOf, flatMap_nil, flatten_eq_nil_iff] at hpieces
      have htickets : w.tickets = [] := eq_nil_iff_forall_not_mem.mpr fun fragment hfragment =>
        hregular.tickets_ne fragment hfragment (hpieces fragment hfragment)
      exact ⟨rfl, hsends.readsToFinished hregular htickets⟩
    · exact ⟨hsame.symm, hreads⟩

/-- The small server sends no ticket. -/
theorem tls12_completes_toy :
    Completes toyCrypto toySession toySent12 toyWay12 toyHelloFields
    (handshakeRecord (toyMessage 0x14 [83]).bytes) := by
  refine (tls12_completes toySent12_valid ⟨by decide, .inl rfl, rfl, by decide⟩ toyWay12_sends
    ⟨rfl, ?_⟩).mpr (.inl rfl)
  exact fun _ hfragment => absurd hfragment not_mem_nil

/-- The small platform with the last two bytes of the transcript for verify_data. -/
def toyOrderedCrypto : Crypto Bytes Unit :=
  { toyCrypto with computeFinishedVerifyData12 := fun _ _ _ hash => hash.drop (hash.length - 2) }

def toySentTicket : ServerFlight12 :=
  { toySent12 with
    tickets := [toyMessage 0x04 [0x99]]
    fin := toyMessage 0x14 [0x01, 0x99]
    fin_wellFormed := ⟨0, 0, 2, rfl, by decide⟩ }

def toyTicketAgreement : Agreement12 Unit :=
  let transcript := (toySentTicket.state toyOrderedCrypto toySession).tls12Transcript ++
    clientKeyExchange [0x01, 0x04]
  ⟨[0x77], [0x01, 0x04], transcript, secrets12 toyOrderedCrypto toySession toyHelloFields
    [0x77] transcript⟩

/-- The ticket, the ChangeCipherSpec and the Finished in one read. -/
def toyTicketWay : Way12 :=
  { toyWay12 with
    tickets := [(toyMessage 0x04 [0x99]).bytes]
    finished :=
      [(handshakeRecord (toyMessage 0x14 [0x01, 0x99]).bytes, (toyMessage 0x14 [0x01, 0x99]).bytes)]
    lastReads := [(handshakeRecord (toyMessage 0x04 [0x99]).bytes).bytes ++
      ([0x14, 0x03, 0x03, 0x00, 0x01, 0x01] ++
        (handshakeRecord (toyMessage 0x14 [0x01, 0x99]).bytes).bytes)] }

/-- An honest server that sends a ticket, all in one read. -/
theorem ticket_not_completed :
    toySentTicket.Valid toyOrderedCrypto toySession toyHelloFields toyTicketAgreement ∧
      toySentTicket.Honest toyOrderedCrypto toySession toyTicketAgreement ∧
      toyTicketWay.Sends toyOrderedCrypto toyTicketAgreement.secrets toySentTicket ∧
      toyTicketWay.Regular toySentTicket (handshakeRecord (toyMessage 0x14 [0x01, 0x99]).bytes) ∧
      ¬ Completes toyOrderedCrypto toySession toySentTicket toyTicketWay toyHelloFields
        (handshakeRecord (toyMessage 0x14 [0x01, 0x99]).bytes) := by
  have hvalid : toySentTicket.Valid toyOrderedCrypto toySession toyHelloFields toyTicketAgreement :=
    ⟨by decide +kernel, by decide +kernel, ⟨some [[0xC1]], by decide +kernel⟩,
      ⟨some ([0xC1], 0x0804, _, [0xC1]), rfl⟩, rfl⟩
  have hsends : toyTicketWay.Sends toyOrderedCrypto toyTicketAgreement.secrets toySentTicket :=
    { first_pieces := by decide
      first_fits := by decide
      firstReads := rfl
      firstReads_ne := by decide
      tickets_pieces := rfl
      tickets_fits := by decide
      changeCipherSpec := ⟨⟨0x03, 0x03, 0x00, 0x01, rfl, by decide⟩, rfl, rfl⟩
      finished_pieces := by decide
      encrypts := ⟨handshakeRecord_wellFormed (by decide), rfl, by decide, by decide, rfl, trivial⟩
      after := fun _ hr => absurd hr not_mem_nil
      lastReads := by decide }
  have hregular : toyTicketWay.Regular toySentTicket
      (handshakeRecord (toyMessage 0x14 [0x01, 0x99]).bytes) :=
    ⟨rfl, by decide⟩
  refine ⟨hvalid, ⟨by decide, .inr ⟨_, rfl, rfl, 0, 0, 1, rfl, by decide⟩, rfl, by decide +kernel⟩,
    hsends, hregular, ?_⟩
  rw [completes_iff hvalid hsends hregular]
  exact fun h => absurd h.1 (by decide +kernel)

end Anywhere.Tls
