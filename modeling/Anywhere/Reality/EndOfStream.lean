import Anywhere.Reality.Client

/-!
# Anywhere — handshakes whose server closes the connection

When the server has closed its side, `receive` returns null, now and in every later call. The
loops up to the ServerHello and those of TLS 1.2 throw at a null. The one that looks for the
server's Finished calls itself with the buffer it had.

* `closed` — reads that end, and some calls of `receive` behind them.
* `Terminates` — a handshake needs only so many of these calls.
* `handshakes_end` — both clients terminate when they do not get as far as the encrypted flight,
  or have its Finished.
-/

namespace Anywhere

open Tls List

variable {Cert Key : Type} {ε α : Type}

/-- The reads, and `n + 1` calls that return null. -/
def closed (chunks : List Bytes) (n : Nat) : Reads := chunks.map some ++ List.replicate (n + 1) none

/-- A handshake that returns or throws once `receive` has returned null often enough. -/
def Terminates (connect : Reads → Result ε α) (chunks : List Bytes) : Prop :=
  ∃ n, connect (closed chunks n) ≠ .waiting

/-- A handshake that gets as far as the encrypted flight finds the Finished in what the server
sent. -/
def Tls.FinishedArrives (cr : Crypto Cert Key) (c : Session) (chunks : List Bytes) : Prop :=
  ∀ buf later share st, Tls.readServerHello (closed chunks 0) = .returned (buf, closed later 0) →
    PacketUtil.parseServerHello buf = some share → startTls13 cr c buf share = .ok st →
    (decodeStream cr st.keys st.transcript (buf ++ later.flatten)).1.finished = true

def Reality.FinishedArrives (cr : RealityCrypto Cert Key) (c : RealitySession)
    (chunks : List Bytes) : Prop :=
  ∀ buf later keys cipherSuite transcript,
    Reality.readServerHello (closed chunks 0) = .returned (buf, closed later 0) →
    startHandshake cr c buf = .ok (keys, cipherSuite, transcript) →
    (Reality.decodeStream cr c keys transcript (buf ++ later.flatten)).1.finished = true

-- ----
-- Loops that throw at a null

theorem closed_nil (n : Nat) : closed [] n = none :: List.replicate n none := rfl

theorem closed_cons (data : Bytes) (chunks : List Bytes) (n : Nat) :
    closed (data :: chunks) n = some data :: closed chunks n := rfl

theorem closed_injective {a b : List Bytes} (h : closed a 0 = closed b 0) : a = b := by
  have hmap : a.map some = b.map (some : Bytes → Option Bytes) := append_cancel_right h
  exact map_injective_iff.mpr (Option.some_injective _) hmap

theorem bytes_closed (chunks : List Bytes) (n : Nat) :
    (closed chunks n).bytes = chunks.flatten := by
  have hnull : (List.replicate (n + 1) (none : Option Bytes)).map (·.getD []) = List.replicate
      (n + 1) [] := by
    rw [map_replicate, Option.getD_none]
  have hsome : (chunks.map (some : Bytes → Option Bytes)).map (·.getD []) = chunks := by
    rw [map_map]
    exact map_id _
  rw [Reads.bytes, Reads.chunks, closed, map_append, hnull, hsome, flatten_append,
    flatten_replicate_nil, append_nil]

/-- A loop that throws, or returns with some of the reads left and all the nulls. -/
def Settles (loop : Reads → Result ε (Bytes × Reads)) (chunks : List Bytes) : Prop :=
  (∃ e, ∀ n, loop (closed chunks n) = .threw e) ∨
    ∃ buf later, ∀ n, loop (closed chunks n) = .returned (buf, closed later n)

section Settling

variable {handshakeFailed : String → ε}

theorem receiveResponse_settles (message : String) (buf : Bytes) (chunks : List Bytes) :
    Settles (receiveResponse handshakeFailed message buf) chunks := by
  induction chunks generalizing buf with
  | nil =>
    by_cases hfive : 5 ≤ buf.length
    · unfold Settles receiveResponse
      simp only [if_pos hfive]
      split
      · exact .inr ⟨buf, [], fun n => rfl⟩
      · split <;> exact .inl ⟨_, fun n => rfl⟩
    · refine .inl ⟨handshakeFailed message, fun n => ?_⟩
      rw [closed_nil, receiveResponse, if_neg hfive]
  | cons data chunks ih =>
    by_cases hfive : 5 ≤ buf.length
    · unfold Settles receiveResponse
      simp only [if_pos hfive]
      split
      · exact .inr ⟨buf, data :: chunks, fun n => rfl⟩
      · split <;> exact .inl ⟨_, fun n => rfl⟩
    · by_cases hempty : data.isEmpty = true
      · refine .inl ⟨handshakeFailed message, fun n => ?_⟩
        rw [closed_cons, receiveResponse, if_neg hfive, if_pos hempty]
      · have hstep : ∀ n, receiveResponse handshakeFailed message buf (closed (data :: chunks) n) =
            receiveResponse handshakeFailed message (buf ++ data) (closed chunks n) := by
          intro n
          rw [closed_cons, receiveResponse, if_neg hfive, if_neg hempty]
        have hlater := ih (buf ++ data)
        unfold Settles at hlater ⊢
        simp only [hstep]
        exact hlater

theorem receiveUntil_settles (complete : Bytes → Bool) (buf : Bytes) (chunks : List Bytes) :
    Settles (receiveUntil handshakeFailed complete buf) chunks := by
  induction chunks generalizing buf with
  | nil =>
    by_cases hcomplete : complete buf = true
    · refine .inr ⟨buf, [], fun n => ?_⟩
      unfold receiveUntil
      rw [if_pos hcomplete]
    · refine .inl ⟨handshakeFailed "Connection closed during handshake", fun n => ?_⟩
      unfold receiveUntil
      rw [closed_nil, if_neg hcomplete]
  | cons data chunks ih =>
    by_cases hcomplete : complete buf = true
    · refine .inr ⟨buf, data :: chunks, fun n => ?_⟩
      unfold receiveUntil
      rw [if_pos hcomplete]
    · have hstep : ∀ n, receiveUntil handshakeFailed complete buf (closed (data :: chunks) n) =
          receiveUntil handshakeFailed complete (buf ++ data) (closed chunks n) := by
        intro n
        rw [closed_cons, receiveUntil, if_neg hcomplete]
      have hlater := ih (buf ++ data)
      unfold Settles at hlater ⊢
      simp only [hstep]
      exact hlater

theorem settles_then {first whole : Reads → Result ε (Bytes × Reads)}
    {second : Bytes → Reads → Result ε (Bytes × Reads)} {chunks : List Bytes}
    (hthrew : ∀ reads e, first reads = .threw e → whole reads = .threw e)
    (hthen : ∀ reads buf more, first reads = .returned (buf, more) → whole reads = second buf more)
    (hfirst : Settles first chunks) (hsecond : ∀ buf later, Settles (second buf) later) :
    Settles whole chunks := by
  rcases hfirst with ⟨e, he⟩ | ⟨buf, later, hreturned⟩
  · exact .inl ⟨e, fun n => hthrew _ _ (he n)⟩
  · have hwhole : ∀ n, whole (closed chunks n) = second buf (closed later n) :=
      fun n => hthen _ _ _ (hreturned n)
    have hlater := hsecond buf later
    unfold Settles at hlater ⊢
    simp only [hwhole]
    exact hlater

end Settling

theorem Tls.readServerHello_settles (chunks : List Bytes) : Settles Tls.readServerHello chunks := by
  have hfirst : Settles (receiveServerResponse []) chunks := receiveResponse_settles _ _ _
  have hsecond : ∀ buf later, Settles (receiveServerHello buf) later :=
    fun buf later => receiveUntil_settles _ buf later
  refine settles_then (fun reads e h => ?_) (fun reads buf more h => ?_) hfirst hsecond
  · rw [Tls.readServerHello, h]
  · rw [Tls.readServerHello, h]

theorem Reality.readServerHello_settles (chunks : List Bytes) :
    Settles Reality.readServerHello chunks := by
  have hfirst : Settles
      (receiveResponse RealityError.handshakeFailed "No server response (connection closed)" [])
    chunks := receiveResponse_settles _ _ _
  have hsecond : ∀ buf later,
      Settles (receiveUntil RealityError.handshakeFailed bufferContainsCompleteTlsRecord buf)
        later :=
    fun buf later => receiveUntil_settles _ buf later
  refine settles_then (fun reads e h => ?_) (fun reads buf more h => ?_) hfirst hsecond
  · rw [Reality.readServerHello, h]
  · rw [Reality.readServerHello, h]

-- ----
-- TLS 1.2

section Tls12

variable (cr : Crypto Cert Key) (c : Session)

theorem collectFlight_settles (s : Flight12 Cert) (rest : Bytes) (chunks : List Bytes) (n : Nat) :
    (∃ e, collectFlight cr s rest (closed chunks n) = .threw e) ∨
      ∃ s' rest' later, collectFlight cr s rest (closed chunks n) = .returned (s', rest',
        closed later n) := by
  induction chunks generalizing s rest with
  | nil =>
    unfold collectFlight
    dsimp only
    split
    · exact .inr ⟨_, _, [], rfl⟩
    · exact .inl ⟨_, rfl⟩
  | cons data chunks ih =>
    unfold collectFlight
    dsimp only
    split
    · exact .inr ⟨_, _, data :: chunks, rfl⟩
    · exact ih _ _

theorem atLeastTwelve_settles (buf : Bytes) (chunks : List Bytes) (n : Nat) :
    (∃ e, atLeastTwelve buf (closed chunks n) = .threw e) ∨
      ∃ buf' later, atLeastTwelve buf (closed chunks n) = .returned (buf', closed later n) := by
  induction chunks generalizing buf with
  | nil =>
    unfold atLeastTwelve
    split
    · exact .inr ⟨_, [], rfl⟩
    · exact .inl ⟨_, rfl⟩
  | cons data chunks ih =>
    unfold atLeastTwelve
    split
    · exact .inr ⟨_, data :: chunks, rfl⟩
    · exact ih _

theorem finishFlight_settles (sec : Secrets12 Key) (s : Finish12) (rest : Bytes)
    (chunks : List Bytes) (n : Nat) :
    finishFlight cr sec s rest (closed chunks n) ≠ .waiting := by
  induction chunks generalizing s rest with
  | nil =>
    unfold finishFlight
    dsimp only
    split
    · exact nofun
    · split <;> exact nofun
  | cons data chunks ih =>
    unfold finishFlight
    dsimp only
    split
    · exact nofun
    · split
      · exact nofun
      · exact ih _ _

theorem receiveServerFinished_settles (sec : Secrets12 Key) (transcript buffer : Bytes)
    (chunks : List Bytes) (n : Nat) :
    receiveServerFinished cr sec transcript buffer (closed chunks n) ≠ .waiting := by
  unfold receiveServerFinished
  rcases atLeastTwelve_settles buffer chunks n with ⟨e, he⟩ | ⟨buf, later, hreturned⟩
  · rw [he]
    exact nofun
  · rw [hreturned]
    exact finishFlight_settles cr sec _ _ later n

/-- **TLS 1.2 throws at a null.** -/
theorem handleTls12Handshake_settles (buffer : Bytes) (chunks : List Bytes) (n : Nat) :
    handleTls12Handshake cr c buffer (closed chunks n) ≠ .waiting := by
  unfold handleTls12Handshake
  dsimp only
  split
  · exact nofun
  · split
    · exact nofun
    · split
      · exact nofun
      · rename_i hello _ _ _
        rcases collectFlight_settles cr
          { tls12Transcript := c.storedClientHello ++ extractServerHelloMessage buffer }
          buffer chunks n with ⟨e, he⟩ | ⟨s, rest, later, hreturned⟩
        · rw [he]
          exact nofun
        · rw [hreturned]
          dsimp only
          unfold finishTls12Handshake
          split
          · exact nofun
          · split
            · exact nofun
            · split
              · exact nofun
              · rename_i a _
                split
                · rename_i hwaiting
                  exact absurd hwaiting (receiveServerFinished_settles cr _ _ _ later n)
                · exact nofun
                · exact nofun

end Tls12

-- ----
-- The encrypted flight

/-- **The loop over the encrypted flight** goes on for ever when the Finished is not in it. -/
theorem Tls.consume_waiting {cr : Crypto Cert Key} {c : Session} {keys : Key} {cipherSuite : Nat}
    {transcript buffer : Bytes} {reads : Reads} :
    Tls.consumeRemainingHandshake cr c keys cipherSuite transcript buffer reads = .waiting ↔
      (decodeStream cr keys transcript (buffer ++ reads.bytes)).1.finished = false := by
  have hspec := records.readLoop_spec (handleRecord cr keys) Flight.foundServerFinished
    (decodeRecord cr keys)
    Decoded.finished Flight.startPass Flight.decoded decoded_handleRecord (fun _ => rfl)
    (fun s hs => by rw [Flight.startPass, Flight.decoded, Flight.decoded, hs]) reads.chunks
    (s := ({ fullTranscript := transcript } : Flight Cert)) rfl buffer
  unfold Tls.consumeRemainingHandshake
  rw [decodeStream, Reads.bytes]
  split at hspec
  · rename_i hloop
    rw [hloop]
    exact ⟨fun _ => hspec, fun _ => rfl⟩
  · rename_i s remaining transport hloop
    rw [hloop]
    have hfinished : (records.drain (decodeRecord cr keys) Decoded.finished
        { transcript := transcript } (buffer ++ reads.chunks.flatten)).1.finished = true := by
      rw [show ({ transcript := transcript } : Decoded) = Flight.decoded
        ({ fullTranscript := transcript } : Flight Cert) from rfl, hspec.2]
      exact hspec.1
    rw [hfinished]
    dsimp only
    split <;> exact ⟨by simp, by simp⟩

theorem Reality.consume_waiting {cr : RealityCrypto Cert Key} {c : RealitySession} {keys : Key}
    {cipherSuite : Nat} {transcript buffer : Bytes} {reads : Reads} :
    Reality.consumeRemainingHandshake cr c keys cipherSuite transcript buffer reads = .waiting ↔
      (Reality.decodeStream cr c keys transcript (buffer ++ reads.bytes)).1.finished = false := by
  have hspec :=
    records.readLoop_spec (Reality.handleRecord cr c keys) RealityFlight.foundServerFinished
    (Reality.decodeRecord cr c keys) Decoded.finished id RealityFlight.decoded
      Reality.decoded_handleRecord
    (fun _ => rfl) (fun _ _ => rfl) reads.chunks
      (s := ({ fullTranscript := transcript } : RealityFlight)) rfl buffer
  unfold Reality.consumeRemainingHandshake
  rw [Reality.decodeStream, Reads.bytes]
  split at hspec
  · rename_i hloop
    rw [hloop]
    exact ⟨fun _ => hspec, fun _ => rfl⟩
  · rename_i s remaining transport hloop
    rw [hloop]
    have hfinished : (records.drain (Reality.decodeRecord cr c keys) Decoded.finished
        { transcript := transcript } (buffer ++ reads.chunks.flatten)).1.finished = true := by
      rw [show ({ transcript := transcript } : Decoded) =
        RealityFlight.decoded ({ fullTranscript := transcript } : RealityFlight) from rfl, hspec.2]
      exact hspec.1
    rw [hfinished]
    dsimp only
    split <;> exact ⟨by simp, by simp⟩

-- ----
-- The handshakes

theorem finished_iff {d : Decoded} {p : Prop} (h : p ↔ d.finished = false) :
    ¬ p ↔ d.finished = true := by
  rw [h, Bool.not_eq_false]

theorem Tls.connect_terminates (cr : Crypto Cert Key) (c : Session) (chunks : List Bytes) :
    Terminates (Tls.connect cr c) chunks ↔ Tls.FinishedArrives cr c chunks := by
  unfold Terminates Tls.FinishedArrives Tls.connect
  rcases Tls.readServerHello_settles chunks with ⟨e, he⟩ | ⟨buf, later, hreturned⟩
  · simp only [he]
    exact ⟨fun _ _ _ _ _ h => absurd h nofun, fun _ => ⟨0, nofun⟩⟩
  · simp only [hreturned, Tls.continueHandshake]
    rcases hshare : PacketUtil.parseServerHello buf with _ | share
    · dsimp only
      constructor
      · intro _ buf' later' share' st hbuf hshare'
        rw [Result.returned.injEq, Prod.mk.injEq] at hbuf
        rw [← hbuf.1, hshare] at hshare'
        exact absurd hshare' nofun
      · intro _
        refine ⟨0, ?_⟩
        rcases h : handleTls12Handshake cr c buf (closed later 0) with _ | e | e
        · exact absurd h (handleTls12Handshake_settles cr c buf later 0)
        · exact nofun
        · exact nofun
    · dsimp only
      rcases hstart : startTls13 cr c buf share with e | st
      · constructor
        · intro _ buf' later' share' st hbuf hshare' hstart'
          rw [Result.returned.injEq, Prod.mk.injEq] at hbuf
          rw [← hbuf.1, hshare, Option.some.injEq] at hshare'
          rw [← hbuf.1, ← hshare', hstart] at hstart'
          exact absurd hstart' nofun
        · exact fun _ => ⟨0, nofun⟩
      · have hconsume : ∀ n, Tls.consumeRemainingHandshake cr c st.keys st.cipherSuite
            st.transcript buf
            (closed later n) ≠ .waiting ↔
              (decodeStream cr st.keys st.transcript (buf ++ later.flatten)).1.finished = true := by
          intro n
          rw [← bytes_closed later n]
          exact finished_iff Tls.consume_waiting
        dsimp only
        constructor
        · rintro ⟨n, hn⟩ buf' later' share' st' hbuf hshare' hstart'
          rw [Result.returned.injEq, Prod.mk.injEq] at hbuf
          rw [← hbuf.1, hshare, Option.some.injEq] at hshare'
          rw [← hbuf.1, ← hshare', hstart, Except.ok.injEq] at hstart'
          rw [← hbuf.1, ← closed_injective hbuf.2, ← hstart', ← hconsume n]
          intro hwaiting
          rw [hwaiting] at hn
          exact hn rfl
        · intro h
          have hfinished := h buf later share st rfl hshare hstart
          refine ⟨0, ?_⟩
          rcases hresult : Tls.consumeRemainingHandshake cr c st.keys st.cipherSuite
            st.transcript buf
            (closed later 0) with _ | e | e
          · exact absurd hresult ((hconsume 0).mpr hfinished)
          · exact nofun
          · exact nofun

theorem Reality.connect_terminates (cr : RealityCrypto Cert Key) (c : RealitySession)
    (chunks : List Bytes) :
    Terminates (Reality.connect cr c) chunks ↔ Reality.FinishedArrives cr c chunks := by
  unfold Terminates Reality.FinishedArrives Reality.connect
  rcases Reality.readServerHello_settles chunks with ⟨e, he⟩ | ⟨buf, later, hreturned⟩
  · simp only [he]
    exact ⟨fun _ _ _ _ _ _ h => absurd h nofun, fun _ => ⟨0, nofun⟩⟩
  · simp only [hreturned]
    rcases hstart : startHandshake cr c buf with e | ⟨keys, cipherSuite, transcript⟩
    · constructor
      · intro _ buf' later' keys cipherSuite transcript hbuf hstart'
        rw [Result.returned.injEq, Prod.mk.injEq] at hbuf
        rw [← hbuf.1, hstart] at hstart'
        exact absurd hstart' nofun
      · exact fun _ => ⟨0, nofun⟩
    · have hconsume : ∀ n, Reality.consumeRemainingHandshake cr c keys cipherSuite transcript buf
          (closed later n) ≠ .waiting ↔
            (Reality.decodeStream cr c keys transcript (buf ++ later.flatten)).1.finished =
              true := by
        intro n
        rw [← bytes_closed later n]
        exact finished_iff Reality.consume_waiting
      dsimp only
      constructor
      · rintro ⟨n, hn⟩ buf' later' keys' cipherSuite' transcript' hbuf hstart'
        rw [Result.returned.injEq, Prod.mk.injEq] at hbuf
        rw [← hbuf.1, hstart, Except.ok.injEq, Prod.mk.injEq, Prod.mk.injEq] at hstart'
        rw [← hbuf.1, ← closed_injective hbuf.2, ← hstart'.1, ← hstart'.2.2]
        exact (hconsume n).mp hn
      · exact fun h => ⟨0, (hconsume 0).mpr (h buf later keys cipherSuite transcript rfl hstart)⟩

/-- **Handshakes end when the peer does**, if and only if they do not get as far as the encrypted
flight or find its Finished in what the server sent. -/
theorem handshakes_end (cr : Crypto Cert Key) (c : Session) (cr' : Reality.RealityCrypto Cert Key)
    (c' : Reality.RealitySession) (chunks : List Bytes) :
    (Terminates (Tls.connect cr c) chunks ↔ Tls.FinishedArrives cr c chunks) ∧
      (Terminates (Reality.connect cr' c') chunks ↔ Reality.FinishedArrives cr' c' chunks) :=
  ⟨Tls.connect_terminates cr c chunks, Reality.connect_terminates cr' c' chunks⟩

/-- A server that closes the connection behind its ServerHello. -/
theorem closed_behind_serverHello :
    ¬ Terminates (Tls.connect toyCrypto toySession) [toyRecord 0x16 toyHello13.bytes] ∧
      ¬ Terminates (Reality.connect Reality.toyRealityCrypto Reality.toyRealitySession)
        [toyRecord 0x16 toyHello13.bytes] := by
  rw [Tls.connect_terminates, Reality.connect_terminates]
  refine ⟨fun h => ?_, fun h => ?_⟩
  · have := h (toyRecord 0x16 toyHello13.bytes) [] ⟨List.replicate 32 0x22, 0x1301⟩
      ⟨(), 0x1301, 0x01 :: toyHello13.bytes⟩ (by decide +kernel) (by decide +kernel)
        (by decide +kernel)
    exact absurd this (by decide)
  · have := h (toyRecord 0x16 toyHello13.bytes) [] () 0x1301 (0x01 :: toyHello13.bytes) (by decide)
      (by decide)
    exact absurd this (by decide)

end Anywhere
