import Anywhere.Reality.Boundaries
import Anywhere.Tls.Boundaries12

/-!
# Anywhere — record and read boundaries of the handshakes

What a server sends in a handshake is a list of messages; how it cuts them into records, and
the network these into reads, is its own affair. `handshake_boundaries` says for all three
handshakes which cuts the clients do not see.
-/

namespace Anywhere

open Tls List

variable {Cert Key : Type}

/-- **Record and read boundaries.** A way to send a valid flight gives the outcome of the
flight exactly when no record ends within a message and, in TLS 1.2, no key share is seen
behind the ServerHello and no read ends at a record before the Finished. -/
theorem handshake_boundaries (cr : Reality.RealityCrypto Cert Key) (c : Session)
    (c' : Reality.RealitySession) :
    (∀ (f : ServerFlight13) (w : Way13), f.Valid cr.toCrypto c →
      w.Sends cr.toCrypto (f.keys cr.toCrypto c) f.hello.message.bytes f.messages →
      (outcome13 (connect cr.toCrypto c (w.reads.map some)) =
        some (f.outcome cr.toCrypto c w.after) ↔ w.Whole)) ∧
    (∀ (f : ServerFlight12) (w : Way12) (hello : Hello12) (a : Agreement12 Key),
      f.Valid cr.toCrypto c hello a → w.Sends cr.toCrypto a.secrets f →
      (w.Whole → outcome12 (connect cr.toCrypto c (w.reads.map some)) =
        f.outcome cr.toCrypto hello a w.after) ∧
      ((f.outcome cr.toCrypto hello a w.after).isSome = true →
        outcome12 (connect cr.toCrypto c (w.reads.map some)) =
          f.outcome cr.toCrypto hello a w.after → w.Whole)) ∧
    (∀ (f : Reality.ServerFlight) (w : Way13), f.Valid cr c' →
      w.Sends cr.toCrypto (f.keys cr c') f.hello.message.bytes f.messages →
      (Reality.outcomeOf (Reality.connect cr c' (w.reads.map some)) =
        some (f.outcome cr c' w.after) ↔ w.Whole)) :=
  ⟨fun _ _ hvalid hsends => tls13_outcome hvalid hsends,
    fun _ _ _ _ hvalid hsends => tls12_outcome hvalid hsends,
    fun _ _ hvalid hsends => Reality.reality_outcome hvalid hsends⟩

-- ----
-- A small server

/-- A ServerHello with an X25519 key share. -/
def toyHello : Hello where
  v1 := 0x03
  v2 := 0x03
  random := List.replicate 32 0x11
  sessionId := []
  c1 := 0x13
  c2 := 0x01
  extensions := [keyShareExtension 0x00 0x1d (List.replicate 32 0x22) (by decide)]
  random_length := rfl
  sessionId_length := by decide
  extensions_length := by decide

def toySent13 : ServerFlight13 where
  hello := toyHello
  before := []
  share := List.replicate 32 0x22
  behind := []
  body := [toyCertificate, toyCertificateVerify]
  fin := toyMessage 0x14 [108]
  share_length := rfl
  extensions_eq := rfl
  before_others := by simp

/-- A record of the small platform with a fragment of messages. -/
def toySealedRecord (fragment : Bytes) : Record × Bytes :=
  (⟨0x17, [0x17, 0x03, 0x03, 0x00, UInt8.ofNat (fragment.length + 17)],
    fragment ++ [0x16] ++ List.replicate 16 0xAA⟩, fragment)

/-- A way to send the ServerHello in one record and the encrypted fragments in one read. -/
def toyWay13 (hello : Bytes) (fragments : List Bytes) : Way13 where
  hello := [hello]
  changeCipherSpec := []
  sealed := fragments.map toySealedRecord
  after := []
  reads := [(handshakeRecord hello).bytes, recordBytes (fragments.map toySealedRecord)]

theorem toySent13_valid : toySent13.Valid toyCrypto toySession where
  version := by decide
  noRetry := by decide
  wellFormed := by
    intro m hm
    simp only [ServerFlight13.messages, toySent13, cons_append, nil_append,
      mem_cons, not_mem_nil, or_false] at hm
    rcases hm with rfl | rfl | rfl
    · exact ⟨0, 0, 10, rfl, by decide⟩
    · exact ⟨0, 0, 5, rfl, by decide⟩
    · exact ⟨0, 0, 1, rfl, by decide⟩
  body_type := by decide
  fin_type := rfl
  fin_body := by decide
  chain := fun _ => ⟨by decide, by decide⟩
  verify := by
    intro _ pre cv post hsplit htype
    have hcv : cv = toyCertificateVerify ∧ pre = [toyCertificate] := by
      rcases pre with _ | ⟨m1, _ | ⟨m2, _ | ⟨m3, pre⟩⟩⟩
      · obtain ⟨hfirst, -⟩ := List.cons.inj hsplit
        rw [← hfirst] at htype
        cases htype
      · obtain ⟨hfirst, hrest⟩ := List.cons.inj hsplit
        exact ⟨(List.cons.inj hrest).1.symm, by rw [← hfirst]⟩
      · obtain ⟨-, hrest⟩ := List.cons.inj hsplit
        obtain ⟨-, hrest⟩ := List.cons.inj hrest
        rw [← (List.cons.inj hrest).1] at htype
        cases htype
      · have hlength := congrArg List.length hsplit
        simp [ServerFlight13.messages, toySent13] at hlength
    obtain ⟨rfl, rfl⟩ := hcv
    refine ⟨by decide, 0x0804, [0xC1], by decide, by decide, by decide⟩

theorem toySealedRecord_encrypts {fragments : List Bytes}
    (hfits : ∀ fragment ∈ fragments, fragment ≠ [] ∧ fragment.length < 200) (seqNum : Nat) :
    Encrypts toyCrypto () seqNum (fragments.map toySealedRecord) := by
  induction fragments generalizing seqNum with
  | nil => trivial
  | cons fragment fragments ih =>
    obtain ⟨hne, hlen⟩ := hfits fragment (by simp)
    refine ⟨⟨0x03, 0x03, 0x00, _, rfl, ?_⟩, rfl, hne, ?_,
      ih (fun o ho => hfits o (by simp [ho])) (seqNum + 1)⟩
    · rw [be16, UInt8.toNat_ofNat']
      simp
      omega
    · have htake : (fragment ++ [0x16] ++ List.replicate 16 (0xAA : UInt8)).take
          ((fragment ++ [0x16] ++ List.replicate 16 (0xAA : UInt8)).length - 16) =
          fragment ++ [0x16] := by
        rw [length_append, length_replicate, Nat.add_sub_cancel, take_left]
      show decryptHandshakeRecord toyCrypto () seqNum _
        (fragment ++ [0x16] ++ List.replicate 16 0xAA) = some fragment
      rw [decryptHandshakeRecord, if_neg (by simp)]
      dsimp only [toyCrypto]
      rw [htake, reverse_append]
      simp

theorem toyWay13_sends {ms : List HandshakeMessage} {fragments : List Bytes}
    (hpieces : fragments.flatten = transcriptOf ms)
    (hfits : ∀ fragment ∈ fragments, fragment ≠ [] ∧ fragment.length < 200)
    (hsome : fragments ≠ []) :
    (toyWay13 toyHello.message.bytes fragments).Sends toyCrypto () toyHello.message.bytes ms where
  hello_pieces := by simp [toyWay13]
  hello_fits := by
    intro fragment hfragment
    rw [mem_singleton.1 hfragment]
    decide
  changeCipherSpec := by simp [toyWay13]
  encrypts := toySealedRecord_encrypts hfits 0
  pieces := by
    rw [← hpieces]
    simp [toyWay13, toySealedRecord, Function.comp_def]
  after := by simp [toyWay13]
  reads := by simp [toyWay13, Way13.stream, Way13.later]
  reads_ne := by
    intro data hdata
    simp only [toyWay13, mem_cons, not_mem_nil, or_false] at hdata
    rcases hdata with rfl | rfl
    · simp [handshakeRecord, Record.bytes]
    · obtain ⟨fragment, fragments, rfl⟩ := exists_cons_of_ne_nil hsome
      simp [recordBytes, toySealedRecord, Record.bytes]

/-- Both flights of a TLS 1.2 server. -/
def toySent12 : ServerFlight12 where
  hello := toyHello12
  body := [toyCertificate12, toyKeyExchange]
  helloDone := toyMessage 0x0E []
  tickets := []
  fin := toyMessage 0x14 [83]
  hello_type := rfl
  body_type := by decide
  helloDone_type := rfl
  wellFormed := by
    intro m hm
    simp only [cons_append, nil_append, mem_cons, not_mem_nil, or_false] at hm
    rcases hm with rfl | rfl | rfl | rfl
    · exact ⟨0, 0, 38, rfl, by decide⟩
    · exact ⟨0, 0, 7, rfl, by decide⟩
    · exact ⟨0, 0, 10, rfl, by decide⟩
    · exact ⟨0, 0, 0, rfl, by decide⟩
  fin_wellFormed := ⟨0, 0, 1, rfl, by decide⟩

def toyHelloFields : Hello12 := ⟨0x0303, List.replicate 32 0x11, 0xC02F, false⟩

def toyAgreement : Agreement12 Unit :=
  let transcript := (toySent12.state toyCrypto toySession).tls12Transcript ++
    clientKeyExchange [0x01, 0x04]
  ⟨[0x77], [0x01, 0x04], transcript, secrets12 toyCrypto toySession toyHelloFields
    [0x77] transcript⟩

theorem toySent12_valid : toySent12.Valid toyCrypto toySession toyHelloFields toyAgreement where
  parsed := by decide
  version := by decide
  chain := ⟨some [[0xC1]], by decide +kernel⟩
  signature := ⟨some ([0xC1], 0x0804, _, [0xC1]), rfl⟩
  agreed := rfl

/-- Each flight in one read, the messages in two records of two messages each. -/
def toyWay12 : Way12 where
  first := [transcriptOf [toyHello12, toyCertificate12],
    transcriptOf [toyKeyExchange, toyMessage 0x0E []]]
  firstReads := [(([transcriptOf [toyHello12, toyCertificate12],
    transcriptOf [toyKeyExchange, toyMessage 0x0E []]] : List Bytes).map handshakeRecord).flatMap
      Record.bytes]
  tickets := []
  changeCipherSpec := ⟨0x14, [0x14, 0x03, 0x03, 0x00, 0x01], [0x01]⟩
  finished := [(handshakeRecord (toyMessage 0x14 [83]).bytes, (toyMessage 0x14 [83]).bytes)]
  after := []
  lastReads := [[0x14, 0x03, 0x03, 0x00, 0x01, 0x01] ++
    (handshakeRecord (toyMessage 0x14 [83]).bytes).bytes]

theorem toyWay12_sends : toyWay12.Sends toyCrypto toyAgreement.secrets toySent12 where
  first_pieces := by decide
  first_fits := by decide
  firstReads := rfl
  firstReads_ne := by decide
  tickets_pieces := rfl
  tickets_fits := by simp [toyWay12]
  changeCipherSpec := ⟨⟨0x03, 0x03, 0x00, 0x01, rfl, by decide⟩, rfl, rfl⟩
  finished_pieces := by decide
  encrypts := ⟨handshakeRecord_wellFormed (by decide), rfl, by decide, by decide, rfl, trivial⟩
  after := by simp [toyWay12]
  lastReads := by decide

theorem toyWay12_whole : toyWay12.Whole where
  first := by decide
  noKeyShare := by
    intro buf more hread
    have hthis : readServerHello (toyWay12.reads.map some) =
        .returned (toyWay12.firstStream, toyWay12.lastReads.map some) := by decide
    rw [hthis, Result.returned.injEq, Prod.mk.injEq] at hread
    rw [← hread.1]
    decide
  finished := rfl
  lastReads := by
    have hfin : finishedRecord (records.frames ([0x14, 0x03, 0x03, 0x00, 0x01, 0x01] ++
        (handshakeRecord (toyMessage 0x14 [83]).bytes).bytes)) =
        some (handshakeRecord (toyMessage 0x14 [83]).bytes) := by decide
    exact readsToFinished_cons.2 ⟨fun h12 => absurd h12 (by decide),
      readsToFinished_of_finished hfin _⟩

def toySentReality : Reality.ServerFlight where
  hello := toyHello
  before := []
  share := List.replicate 32 0x22
  behind := []
  body := [Reality.toyRealityCertificate]
  fin := toyMessage 0x14 [180]
  share_length := .inl rfl
  extensions_eq := rfl
  before_others := by simp
  behind_length := by decide

theorem toySentReality_valid :
    toySentReality.Valid Reality.toyRealityCrypto Reality.toyRealitySession where
  agreed := rfl
  wellFormed := by
    intro m hm
    simp only [Reality.ServerFlight.messages, toySentReality, cons_append, nil_append,
      mem_cons, not_mem_nil, or_false] at hm
    rcases hm with rfl | rfl
    · exact ⟨0, 0, 91, rfl, by decide⟩
    · exact ⟨0, 0, 1, rfl, by decide⟩
  body_type := by decide
  fin_type := rfl
  readable := by decide
  verified := by decide

/-- The small servers in whole records. -/
theorem handshake_boundaries_whole :
    outcome13 (connect toyCrypto toySession
        ((toyWay13 toyHello.message.bytes [transcriptOf toySent13.messages]).reads.map some)) =
      some (toySent13.outcome toyCrypto toySession []) ∧
    outcome12 (connect toyCrypto toySession (toyWay12.reads.map some)) =
      toySent12.outcome toyCrypto toyHelloFields toyAgreement [] ∧
    Reality.outcomeOf (Reality.connect Reality.toyRealityCrypto Reality.toyRealitySession
        ((toyWay13 toyHello.message.bytes [transcriptOf toySentReality.messages]).reads.map some)) =
      some (toySentReality.outcome Reality.toyRealityCrypto Reality.toyRealitySession []) := by
  obtain ⟨h13, h12, hreality⟩ :=
    handshake_boundaries Reality.toyRealityCrypto toySession Reality.toyRealitySession
  refine ⟨?_, ?_, ?_⟩
  · refine (h13 toySent13 _ toySent13_valid (toyWay13_sends ?_ ?_ ?_)).2 ⟨rfl, ?_⟩
    · simp
    · decide
    · simp
    · intro s hs
      rw [mem_singleton.1 hs]
      decide
  · exact (h12 toySent12 toyWay12 _ _ toySent12_valid toyWay12_sends).1 toyWay12_whole
  · refine (hreality toySentReality _ toySentReality_valid (toyWay13_sends ?_ ?_ ?_)).2 ⟨rfl, ?_⟩
    · simp
    · decide
    · simp
    · intro s hs
      rw [mem_singleton.1 hs]
      decide

/-- A Certificate that goes on in the next record: the client waits for ever. -/
theorem certificate_across_records :
    toySent13.Valid toyCrypto toySession ∧
    (toyWay13 toyHello.message.bytes [transcriptOf toySent13.messages]).Sends toyCrypto
      (toySent13.keys toyCrypto toySession) toyHello.message.bytes toySent13.messages ∧
    (toyWay13 toyHello.message.bytes [(transcriptOf toySent13.messages).take 10,
      (transcriptOf toySent13.messages).drop 10]).Sends toyCrypto
      (toySent13.keys toyCrypto toySession) toyHello.message.bytes toySent13.messages ∧
    outcome13 (connect toyCrypto toySession
      ((toyWay13 toyHello.message.bytes [transcriptOf toySent13.messages]).reads.map some)) ≠
    outcome13 (connect toyCrypto toySession
      ((toyWay13 toyHello.message.bytes [(transcriptOf toySent13.messages).take 10,
        (transcriptOf toySent13.messages).drop 10]).reads.map some)) := by
  refine ⟨toySent13_valid, toyWay13_sends ?_ ?_ ?_, toyWay13_sends ?_ ?_ ?_, ?_⟩
  · simp
  · decide
  · simp
  · simp
  · decide
  · simp
  · decide +kernel

end Anywhere
