import Anywhere.Tls.RecordConnection
import Anywhere.Vless.Downlink

/-!
# Anywhere — from outer TLS to direct copy

A Vision connection reads outer TLS records until a DIRECT frame tells it to read the
socket itself. The last read of outer records may have brought raw bytes along; they
are left in the buffer of the record layer and `receiveRaw` returns them first. Three
things go wrong on the way: what the first read decrypts may be too short for the UUID
to be looked for, a read may end at a gap of the header of the DIRECT frame, and the
record layer drops a complete raw record that is not application data.

* `reads` — the batches the socket reads make of the outer records, and what they
  leave behind them.
* `handOver_delivers` — it returns the contents and the raw bytes, unless one of the
  three things happens.
-/

namespace Anywhere.Vless

open Lib Tls List

-- ----
-- The model

/-- What a call of `receive` ends with. -/
inductive VisionReceived where
  | data (data : Bytes)
  | closed
  | error
  | unfinished
  deriving DecidableEq

def receiveDirectRaw (s : VisionTrafficState) (t : RecordConnection) :
    VisionReceived × VisionTrafficState × RecordConnection :=
  match receiveRaw t with
  | (some data, t) => (.data data, s, t)
  | (none, t) => (.closed, s, t)

section

variable (decryptTLSRecord : Bytes → Bytes → Nat → Option Bytes)

/-- `VlessVisionConnection.receiveRawInternal`, over an inner connection that has
received its response header and passes on what the record layer returns. -/
def receiveRawInternal : Nat → VisionTrafficState → RecordConnection →
    VisionReceived × VisionTrafficState × RecordConnection
  | 0, s, t => (.unfinished, s, t)
  | fuel + 1, s, t =>
    if s.readerDirectCopy then receiveDirectRaw s t
    else
      match Tls.receive decryptTLSRecord t with
      | (.data data, t) =>
        let processed := processReceiveData s data
        if processed.2 = [] then receiveRawInternal fuel processed.1 t
        else (.data processed.2, processed.1, t)
      | (.decryptionFailed rawData, t) =>
        let s := { s with readerDirectCopy := true, readerWithinPaddingBuffers := false }
        if rawData ≠ [] then (.data rawData, s, t) else receiveDirectRaw s t
      | (.closed, t) => (.closed, s, t)
      | (.error, t) => (.error, s, t)
      | (.unfinished, t) => (.unfinished, s, t)

def resume (next : VisionTrafficState → RecordConnection → Bytes × VisionReceived) :
    VisionReceived × VisionTrafficState × RecordConnection → Bytes × VisionReceived
  | (.data data, s, t) => (data ++ (next s t).1, (next s t).2)
  | (ending, _, _) => ([], ending)

/-- The bytes of one call after another, and what the last one ends with. -/
def deliver : Nat → VisionTrafficState → RecordConnection → Bytes × VisionReceived
  | 0, _, _ => ([], .unfinished)
  | fuel + 1, s, t => resume (deliver fuel) (receiveRawInternal decryptTLSRecord (t.size + 1) s t)

end

-- ----
-- The reads of a stream

/-- How many of the next outer records are complete in so many bytes. -/
def complete : List OuterRecord → Nat → Nat
  | [], _ => 0
  | o :: os, n => if o.bytes.length ≤ n then complete os (n - o.bytes.length) + 1 else 0

/-- The outer records as the reads complete them: what each read that completes some
carries, the bytes behind the last record, and the reads still to come. -/
def reads : List OuterRecord → Bytes → List Bytes → List Bytes × Bytes × List Bytes
  | _, tail, [] => ([], tail, [])
  | outer, tail, data :: socket =>
    if outer = [] then ([], tail, data :: socket)
    else
      let k := complete outer (tail ++ data).length
      if k = 0 then reads outer (tail ++ data) socket
      else
        let later := reads (outer.drop k)
          ((tail ++ data).drop ((outer.take k).flatMap OuterRecord.bytes).length) socket
        ((outer.take k).flatMap OuterRecord.plaintext :: later.1, later.2)

theorem reads_nil (tail : Bytes) (socket : List Bytes) :
    reads [] tail socket = ([], tail, socket) := by
  cases socket with
  | nil => rfl
  | cons _ _ => rw [reads, if_pos rfl]

/-- The complete records end before the number of bytes, and the next one behind it. -/
theorem complete_spec (os : List OuterRecord) (n : Nat) :
    ((os.take (complete os n)).flatMap OuterRecord.bytes).length ≤ n ∧
      complete (os.drop (complete os n))
        (n - ((os.take (complete os n)).flatMap OuterRecord.bytes).length) = 0 := by
  induction os generalizing n with
  | nil => exact ⟨Nat.zero_le n, rfl⟩
  | cons o os ih =>
    by_cases hle : o.bytes.length ≤ n
    · obtain ⟨hlen, hnext⟩ := ih (n - o.bytes.length)
      rw [complete, if_pos hle, take_succ_cons, drop_succ_cons, flatMap_cons,
        length_append]
      refine ⟨by omega, ?_⟩
      rwa [Nat.sub_add_eq]
    · rw [complete, if_neg hle, take_zero, drop_zero, flatMap_nil]
      exact ⟨Nat.zero_le n, by rw [complete, if_neg (by simpa using hle)]⟩

theorem takeRecord_incomplete {r : Record} (hr : r.WellFormed) {tail more zs : Bytes}
    (h : tail ++ more = r.bytes ++ zs) (hlen : tail.length < r.bytes.length) :
    takeRecord tail = none := by
  cases htake : takeRecord tail with
  | none => rfl
  | some p =>
    obtain ⟨r', ys⟩ := p
    have hall : takeRecord (tail ++ more) = some (r', ys ++ more) := records.extend more htake
    rw [h, show takeRecord (r.bytes ++ zs) = some (r, zs) from hr.encodes zs] at hall
    obtain ⟨rfl, rfl⟩ := Prod.mk.inj (Option.some.inj hall)
    have htotal := congrArg List.length h
    rw [length_append, length_append, length_append] at htotal
    omega

theorem takeRecord_first {r r' : Record} (hr : r.WellFormed) {tail more zs ys : Bytes}
    (h : tail ++ more = r.bytes ++ zs) (htake : takeRecord tail = some (r', ys)) :
    r' = r ∧ r.bytes.length ≤ tail.length := by
  have hall : takeRecord (tail ++ more) = some (r', ys ++ more) := records.extend more htake
  have htail := Tls.takeRecord_bytes htake
  rw [h, show takeRecord (r.bytes ++ zs) = some (r, zs) from hr.encodes zs] at hall
  obtain ⟨rfl, -⟩ := Prod.mk.inj (Option.some.inj hall)
  refine ⟨rfl, ?_⟩
  rw [htail, length_append]
  omega

-- ----
-- Direct copy

theorem readSocket_spec (socket : List Bytes) :
    ((readSocket socket).1 = none ∧ socket.flatten = []) ∨
      ∃ data rest, readSocket socket = (some data, rest) ∧ socket.flatten = data ++ rest.flatten ∧
        rest.length < socket.length := by
  induction socket with
  | nil => exact .inl ⟨rfl, rfl⟩
  | cons data socket ih =>
    rw [readSocket]
    by_cases hempty : data = []
    · rw [if_pos hempty, hempty, flatten_cons, nil_append]
      rcases ih with ⟨hnone, hflat⟩ | ⟨next, rest, hread, hflat, hlen⟩
      · exact .inl ⟨hnone, hflat⟩
      · exact .inr ⟨next, rest, hread, hflat, by rw [length_cons]; omega⟩
    · rw [if_neg hempty]
      exact .inr ⟨data, socket, rfl, flatten_cons, by simp⟩

section

variable {decryptTLSRecord : Bytes → Bytes → Nat → Option Bytes}

/-- A connection in direct copy returns what is buffered, and then what the socket
returns. -/
theorem resume_direct (fuel : Nat) {s : VisionTrafficState} (hs : s.readerDirectCopy = true)
    (t : RecordConnection) (hfuel : t.size ≤ fuel) :
    resume (deliver decryptTLSRecord fuel) (receiveDirectRaw s t) =
      (t.receiveBuffer ++ t.socket.flatten, .closed) := by
  induction fuel generalizing t with
  | zero =>
    have hbuffer : t.receiveBuffer = [] := by
      unfold RecordConnection.size at hfuel
      exact length_eq_zero_iff.mp (by omega)
    have hsocket : t.socket = [] := by
      unfold RecordConnection.size at hfuel
      exact length_eq_zero_iff.mp (by omega)
    simp [receiveDirectRaw, receiveRaw, hbuffer, hsocket, readSocket, resume]
  | succ fuel ih =>
    -- the next call is again one of direct copy
    have hagain : ∀ t' : RecordConnection, t'.size < t.size →
        deliver decryptTLSRecord (fuel + 1) s t' = (t'.receiveBuffer ++ t'.socket.flatten,
          .closed) := by
      intro t' hsize
      rw [deliver, receiveRawInternal, if_pos hs]
      exact ih t' (by omega)
    rw [receiveDirectRaw, receiveRaw]
    by_cases hbuffer : t.receiveBuffer = []
    · rw [if_neg (by simpa using hbuffer)]
      rcases readSocket_spec t.socket with ⟨hnone, hflat⟩ | ⟨data, rest, hread, hflat, hlen⟩
      · simp only [hnone, resume, hbuffer, hflat, append_nil]
      · simp only [hread, resume]
        rw [hagain _ (by
          unfold RecordConnection.size
          simp only [hflat, length_append]
          omega)]
        simp [hbuffer, hflat]
    · rw [if_pos hbuffer]
      simp only [resume]
      have hpos := length_pos_iff.mpr hbuffer
      rw [hagain _ (by unfold RecordConnection.size; simp only [length_nil]; omega)]
      simp

end

-- ----
-- The hand-over

theorem reads_length_le (outer : List OuterRecord) (tail : Bytes) (socket : List Bytes) :
    (reads outer tail socket).1.length ≤ socket.length := by
  induction socket generalizing outer tail with
  | nil => exact le_refl 0
  | cons data socket ih =>
    rw [reads]
    split
    · exact Nat.zero_le _
    simp only
    split
    · exact le_trans (ih _ _) (Nat.le_succ _)
    · exact Nat.succ_le_succ (ih _ _)

theorem reads_ne {raw : Bytes} {outer : List OuterRecord} (hne : outer ≠ []) {tail : Bytes}
    {socket : List Bytes}
    (hstream : tail ++ socket.flatten = outer.flatMap OuterRecord.bytes ++ raw)
    (hnext : complete outer tail.length = 0) : (reads outer tail socket).1 ≠ [] := by
  induction socket generalizing tail with
  | nil =>
    obtain ⟨o, os, rfl⟩ := exists_cons_of_ne_nil hne
    have hlen := congrArg List.length hstream
    rw [flatten_nil, append_nil, flatMap_cons, length_append,
      length_append] at hlen
    rw [complete, if_pos (by omega)] at hnext
    cases hnext
  | cons data socket ih =>
    rw [reads, if_neg hne]
    simp only
    split
    · rename_i hnone
      exact ih (by rw [← hstream, flatten_cons, append_assoc]) hnone
    · simp

section

variable {decryptTLSRecord : Bytes → Bytes → Nat → Option Bytes} {raw : Bytes}

theorem takeRecord_tail {outer : List OuterRecord} (hne : outer ≠ []) {tail more : Bytes}
    (hstream : tail ++ more = outer.flatMap OuterRecord.bytes ++ raw)
    (hnext : complete outer tail.length = 0) : takeRecord tail = none := by
  obtain ⟨o, os, rfl⟩ := exists_cons_of_ne_nil hne
  rw [flatMap_cons, append_assoc] at hstream
  refine takeRecord_incomplete o.wellFormed hstream ?_
  by_contra hlen
  rw [complete, if_pos (by simpa [OuterRecord.bytes] using hlen)] at hnext
  cases hnext

theorem split_batch {outer : List OuterRecord} {tail data : Bytes} {socket : List Bytes}
    (hstream : tail ++ (data :: socket).flatten = outer.flatMap OuterRecord.bytes ++ raw) {k : Nat}
    (hk : k = complete outer (tail ++ data).length) {tail' : Bytes}
    (htail' : tail' = (tail ++ data).drop ((outer.take k).flatMap OuterRecord.bytes).length) :
    tail ++ data = (outer.take k).flatMap OuterRecord.bytes ++ tail' ∧
      tail' ++ socket.flatten = (outer.drop k).flatMap OuterRecord.bytes ++ raw ∧
      complete (outer.drop k) tail'.length = 0 := by
  obtain ⟨hlen, hafter⟩ := complete_spec outer (tail ++ data).length
  rw [← hk] at hlen hafter
  have hwhole : tail ++ data ++ socket.flatten =
      (outer.take k).flatMap OuterRecord.bytes ++
        ((outer.drop k).flatMap OuterRecord.bytes ++ raw) := by
    rw [append_assoc, ← flatten_cons, hstream, ← append_assoc, ← flatMap_append,
      take_append_drop]
  have hbuffer : tail ++ data = (outer.take k).flatMap OuterRecord.bytes ++ tail' := by
    have htake := congrArg (List.take ((outer.take k).flatMap OuterRecord.bytes).length) hwhole
    rw [take_append_of_le_length hlen, take_left] at htake
    rw [htail']
    conv_lhs => rw [← take_append_drop ((outer.take k).flatMap OuterRecord.bytes).length
      (tail ++ data)]
    rw [htake]
  refine ⟨hbuffer, ?_, ?_⟩
  · rw [hbuffer, append_assoc] at hwhole
    exact append_cancel_left hwhole
  · rw [htail', length_drop]
    exact hafter

/-- **A read that completes outer records** is one batch. -/
theorem receive_batch {outer : List OuterRecord} (hne : outer ≠ []) {tail data : Bytes}
    {socket : List Bytes} {seq : Nat}
    (hstream : tail ++ (data :: socket).flatten = outer.flatMap OuterRecord.bytes ++ raw)
    (hdecrypts : Decrypts decryptTLSRecord seq outer) (hnext : complete outer tail.length = 0)
    {k : Nat} (hk : k = complete outer (tail ++ data).length) (hpos : k ≠ 0) {tail' : Bytes}
    (htail' : tail' = (tail ++ data).drop ((outer.take k).flatMap OuterRecord.bytes).length)
    (hstops : outer.drop k = [] → Stops decryptTLSRecord tail') :
    ∃ n, Decrypts decryptTLSRecord n (outer.drop k) ∧
      Tls.receive decryptTLSRecord ⟨tail, seq, data :: socket⟩ =
        (.data ((outer.take k).flatMap OuterRecord.plaintext), ⟨tail', n, socket⟩) := by
  obtain ⟨hbuffer, hrest, hnext'⟩ := split_batch hstream hk htail'
  have hstops' : Stops decryptTLSRecord tail' := by
    by_cases hdone : outer.drop k = []
    · exact hstops hdone
    · intro r rest htake
      rw [takeRecord_tail hdone hrest hnext'] at htake
      cases htake
  have htaken : outer.take k ≠ [] := by
    intro hnil
    rcases take_eq_nil_iff.mp hnil with h | h
    · exact hpos h
    · exact hne h
  obtain ⟨n, hn, hprocess⟩ := processBuffer_outer (t := ⟨tail ++ data, seq, socket⟩) htaken
    (hdecrypts.take k) hbuffer hstops'
  refine ⟨n, ?_, ?_⟩
  · by_cases hdone : outer.drop k = []
    · rw [hdone]
      trivial
    · have hshort : k < outer.length := by
        by_contra hge
        exact hdone (drop_eq_nil_of_le (by omega))
      rw [hn (takeRecord_tail hdone hrest hnext'), length_take, Nat.min_eq_left (by omega)]
      exact hdecrypts.drop k
  · rw [receive_more (takeRecord_tail hne hstream hnext) rfl]
    exact receive_data hprocess

/-- **The record layer under the reader.** A connection whose reader switches with the
last batch returns what the reader makes of the batches, and then the bytes that came
behind them. -/
theorem deliver_reads {outer : List OuterRecord} {tail : Bytes} {socket : List Bytes} {seq : Nat}
    {s : VisionTrafficState} {F fuel : Nat}
    (hstream : tail ++ socket.flatten = outer.flatMap OuterRecord.bytes ++ raw)
    (hdecrypts : Decrypts decryptTLSRecord seq outer) (hnext : complete outer tail.length = 0)
    (hstops : Stops decryptTLSRecord (reads outer tail socket).2.1)
    (hreading : ∀ before after, (reads outer tail socket).1 = before ++ after → after ≠ [] →
      (receiveAll s before).1.readerDirectCopy = false)
    (hdirect : (receiveAll s (reads outer tail socket).1).1.readerDirectCopy = true)
    (hF : (reads outer tail socket).1.length < F)
    (hfuel : RecordConnection.size ⟨tail, seq, socket⟩ ≤ fuel) :
    resume (deliver decryptTLSRecord fuel)
        (receiveRawInternal decryptTLSRecord F s ⟨tail, seq, socket⟩) =
      ((receiveAll s (reads outer tail socket).1).2 ++ (reads outer tail socket).2.1 ++
        (reads outer tail socket).2.2.flatten, .closed) := by
  induction socket generalizing outer tail seq s F fuel with
  | nil =>
    obtain ⟨F, rfl⟩ := Nat.exists_eq_succ_of_ne_zero (by omega : F ≠ 0)
    have hs : s.readerDirectCopy = true := hdirect
    rw [receiveRawInternal, if_pos hs, resume_direct fuel hs _ hfuel]
    simp [reads, receiveAll]
  | cons data socket ih =>
    obtain ⟨F, rfl⟩ := Nat.exists_eq_succ_of_ne_zero (by omega : F ≠ 0)
    by_cases hne : outer = []
    · have hreads : reads outer tail (data :: socket) = ([], tail, data :: socket) := by
        rw [reads, if_pos hne]
      rw [hreads] at hdirect ⊢
      have hs : s.readerDirectCopy = true := hdirect
      rw [receiveRawInternal, if_pos hs, resume_direct fuel hs _ hfuel]
      simp [receiveAll]
    have hs : s.readerDirectCopy = false :=
      hreading [] _ rfl (reads_ne hne hstream hnext)
    have hsize : RecordConnection.size ⟨tail, seq, data :: socket⟩ =
        socket.length + 1 + 2 * (data.length + socket.flatten.length) + tail.length := by
      simp [RecordConnection.size]
    have htail := takeRecord_tail hne hstream hnext
    by_cases hk : complete outer (tail ++ data).length = 0
    · -- the read completes no record: the next one is appended
      have hreads : reads outer tail (data :: socket) = reads outer (tail ++ data) socket := by
        rw [reads, if_neg hne, if_pos hk]
      have hmore : receiveRawInternal decryptTLSRecord (F + 1) s ⟨tail, seq, data :: socket⟩ =
          receiveRawInternal decryptTLSRecord (F + 1) s ⟨tail ++ data, seq, socket⟩ := by
        rw [receiveRawInternal, receiveRawInternal, receive_more htail rfl, if_neg (by simp [hs]),
          if_neg (by simp [hs])]
      rw [hreads] at hstops hreading hdirect hF ⊢
      rw [hmore]
      refine ih (by rw [← hstream, flatten_cons, append_assoc]) hdecrypts hk hstops hreading
        hdirect hF ?_
      show socket.length + 2 * socket.flatten.length + (tail ++ data).length ≤ fuel
      rw [length_append]
      omega
    · -- the read completes some: they are one batch for the reader
      generalize hkk : complete outer (tail ++ data).length = k at hk
      generalize htail' : (tail ++ data).drop ((outer.take k).flatMap OuterRecord.bytes).length =
        tail'
      generalize hbatch : (outer.take k).flatMap OuterRecord.plaintext = batch
      have hreads : reads outer tail (data :: socket) =
          (batch :: (reads (outer.drop k) tail' socket).1,
            (reads (outer.drop k) tail' socket).2) := by
        rw [reads, if_neg hne]
        simp only [hkk, if_neg hk, htail', hbatch]
      rw [hreads] at hstops hreading hdirect hF ⊢
      obtain ⟨-, hrest, hnext'⟩ := split_batch hstream hkk.symm htail'.symm
      obtain ⟨n, hdecrypts', hreceive⟩ := receive_batch hne hstream hdecrypts hnext
        hkk.symm hk htail'.symm fun hdone => by
          have htail'' : (reads (outer.drop k) tail' socket).2.1 = tail' := by
            rw [hdone, reads_nil]
          rwa [htail''] at hstops
      rw [hbatch] at hreceive
      have hlen : tail'.length ≤ tail.length + data.length := by
        rw [← htail', length_drop, length_append]
        omega
      have hsize' : RecordConnection.size ⟨tail', n, socket⟩ < fuel := by
        simp only [RecordConnection.size] at hfuel hsize ⊢
        omega
      have hlater :=
        fun F fuel => @ih (outer.drop k) tail' n (processReceiveData s batch).1 F fuel hrest
        hdecrypts' hnext' hstops
        (fun before after hsplit hafter => hreading (batch :: before) after
          (by rw [hsplit]; rfl) hafter)
        hdirect
      rw [receiveRawInternal, if_neg (by simp [hs]), hreceive]
      simp only
      by_cases hempty : (processReceiveData s batch).2 = []
      · rw [if_pos hempty, hlater F fuel (by simpa using hF) (by omega)]
        rw [receiveAll_cons, hempty, nil_append]
      · obtain ⟨fuel, rfl⟩ := Nat.exists_eq_succ_of_ne_zero (by omega : fuel ≠ 0)
        have hcount := reads_length_le (outer.drop k) tail' socket
        have hnow := hlater (RecordConnection.size ⟨tail', n, socket⟩ + 1) fuel
          (by simp only [RecordConnection.size]; omega) (by omega)
        rw [if_neg hempty, resume, deliver, hnow, receiveAll_cons]
        simp only [append_assoc]

/-- The batches are the plaintexts of the outer records, and behind them come the raw
bytes. -/
theorem reads_spec {outer : List OuterRecord} {tail : Bytes} {socket : List Bytes}
    (hstream : tail ++ socket.flatten = outer.flatMap OuterRecord.bytes ++ raw)
    (hnext : complete outer tail.length = 0) :
    (reads outer tail socket).1.flatten = outer.flatMap OuterRecord.plaintext ∧
      (∀ batch ∈ (reads outer tail socket).1, batch ≠ []) ∧
      (reads outer tail socket).2.1 ++ (reads outer tail socket).2.2.flatten = raw := by
  induction socket generalizing outer tail with
  | nil =>
    by_cases hne : outer = []
    · subst hne
      exact ⟨rfl, by simp [reads], hstream⟩
    · exact absurd rfl (reads_ne hne hstream hnext)
  | cons data socket ih =>
    by_cases hne : outer = []
    · subst hne
      rw [reads_nil]
      exact ⟨rfl, by simp, hstream⟩
    rw [reads, if_neg hne]
    simp only
    split
    · rename_i hnone
      exact ih (by rw [← hstream, flatten_cons, append_assoc]) hnone
    · rename_i hsome
      obtain ⟨-, hrest, hnext'⟩ := split_batch hstream rfl rfl
      obtain ⟨hflatten, hall, hraw⟩ := ih hrest hnext'
      refine ⟨?_, ?_, hraw⟩
      · rw [flatten_cons, hflatten, ← flatMap_append, take_append_drop]
      · intro batch hbatch
        rcases mem_cons.mp hbatch with rfl | hbatch
        · refine plaintexts_ne fun hnil => ?_
          rcases take_eq_nil_iff.mp hnil with h | h
          · exact hsome h
          · exact hne h
        · exact hall batch hbatch

end

/-- A downlink that is handed over: outer records that carry the frames up to a DIRECT
frame, and inner records behind them that the outer keys do not open. -/
structure HandsOver (decryptTLSRecord : Bytes → Bytes → Nat → Option Bytes) (p : PaddedStream)
    (outer : List OuterRecord) (inner : List Record) (seq : Nat) : Prop where
  direct : ∃ f ∈ p.frames.getLast?, f.command = .paddingDirect
  carried : outer.flatMap OuterRecord.plaintext = p.framed
  raw : p.raw = inner.flatMap Record.bytes
  wellFormed : ∀ r ∈ inner, r.WellFormed
  decrypts : Decrypts decryptTLSRecord seq outer
  rejects : ∀ r ∈ inner, ∀ n, decryptTLSRecord r.payload r.header n = none

/-- The first inner record is application data, or not complete with the read that
completes the last outer record. -/
def FirstKept (inner : List Record) (handed : Bytes) : Prop :=
  ∀ r ∈ inner.head?, r.contentType = 0x17 ∨ handed.length < r.bytes.length

section

variable {decryptTLSRecord : Bytes → Bytes → Nat → Option Bytes} {p : PaddedStream}
  {outer : List OuterRecord} {inner : List Record} {seq : Nat}

theorem HandsOver.stops (h : HandsOver decryptTLSRecord p outer inner seq) {handed more : Bytes}
    (hraw : handed ++ more = p.raw) (hkept : FirstKept inner handed) :
    Stops decryptTLSRecord handed := by
  intro r rest htake
  rw [h.raw] at hraw
  cases inner with
  | nil =>
    obtain ⟨rfl, -⟩ := append_eq_nil_iff.mp hraw
    cases htake
  | cons first inner =>
    rw [flatMap_cons] at hraw
    obtain ⟨rfl, hlen⟩ := takeRecord_first (h.wellFormed first mem_cons_self) hraw htake
    refine ⟨?_, h.rejects r mem_cons_self⟩
    rcases hkept r rfl with htype | hshort
    · exact htype
    · omega

def PaddedStream.withoutRaw (p : PaddedStream) : PaddedStream :=
  { p with raw := [], raw_ended := by simp }

/-- **The hand-over.** Where the first read decrypts at least 21 bytes, no read ends at
a gap of the header of the DIRECT frame, and the first inner record is kept, the
connection returns the contents of the frames and all raw bytes until it is closed. -/
theorem handOver_delivers (h : HandsOver decryptTLSRecord p outer inner seq)
    {s : VisionTrafficState} (hunread : s.Unread) (huuid : s.userUUID = p.uuid)
    {socket : List Bytes} (hsocket : socket.flatten = outer.flatMap OuterRecord.bytes ++ p.raw)
    (hfirst : ∃ batch ∈ (reads outer [] socket).1.head?, 21 ≤ batch.length)
    (hcut : ¬ HeaderCut p (reads outer [] socket).1)
    (hkept : FirstKept inner (reads outer [] socket).2.1) {fuel : Nat}
    (hfuel : RecordConnection.size ⟨[], seq, socket⟩ < fuel) :
    deliver decryptTLSRecord fuel s ⟨[], seq, socket⟩ = (p.contents ++ p.raw, .closed) := by
  have hnext : complete outer ([] : Bytes).length = 0 := by
    cases outer with
    | nil => rfl
    | cons o os =>
      obtain ⟨v1, v2, l1, l2, hheader, -⟩ := o.wellFormed
      rw [complete, if_neg]
      rw [OuterRecord.bytes, Record.bytes, hheader]
      simp
  obtain ⟨hflatten, hall, hraw⟩ := @reads_spec p.raw outer [] socket hsocket hnext
  -- the batches are a padded stream for the reader
  have harrives : Arrives p.withoutRaw s (reads outer [] socket).1 := by
    refine ⟨hunread, huuid, ?_, hfirst⟩
    rw [hflatten, h.carried]
    exact (append_nil _).symm
  obtain ⟨f, hf, hcommand⟩ := h.direct
  have hdelivered : Delivered p.withoutRaw s (reads outer [] socket).1 := by
    refine (harrives.delivered_terminal hf (by rw [hcommand]; decide)).mpr ⟨hcut, ?_⟩
    rintro ⟨-, -, -, -, ⟨g, hg, hend⟩, -⟩
    rw [Option.mem_unique hg hf, hcommand] at hend
    cases hend
  have hdirect : (receiveAll s (reads outer [] socket).1).1.mode = (false, true) := by
    rw [hdelivered.mode f hf, hcommand]
    rfl
  have hreading : ∀ before after, (reads outer [] socket).1 = before ++ after → after ≠ [] →
      (receiveAll s before).1.readerDirectCopy = false := by
    intro before after hsplit hafter
    obtain ⟨next, after, rfl⟩ := exists_cons_of_ne_nil hafter
    have hpos := length_pos_iff.mpr (hall next (by rw [hsplit]; simp))
    have hlen := congrArg List.length harrives.whole
    rw [hsplit, flatten_append, flatten_cons, length_append, length_append] at hlen
    have hmode := hdelivered.unswitched before (next :: after) hsplit (by
      have hframed : p.withoutRaw.bytes.length = p.withoutRaw.framed.length := by
        rw [PaddedStream.bytes]
        exact congrArg List.length (append_nil _)
      omega)
    exact (Prod.mk.inj hmode).2
  obtain ⟨fuel, rfl⟩ := Nat.exists_eq_succ_of_ne_zero (by omega : fuel ≠ 0)
  have hcount := reads_length_le outer [] socket
  have hbatches : (receiveAll s (reads outer [] socket).1).2 = p.contents := by
    rw [hdelivered.output]
    exact append_nil _
  rw [deliver, deliver_reads hsocket h.decrypts hnext (h.stops hraw hkept) hreading
    (Prod.mk.inj hdirect).2 (by simp only [RecordConnection.size]; omega) (by omega), hbatches,
    append_assoc, hraw]

end

/-- A toy record protection: the payload is marked. -/
def toyDecrypt : Bytes → Bytes → Nat → Option Bytes
  | 0xEE :: plaintext, _, _ => some plaintext
  | _, _, _ => none

def toyRecord (plaintext : Bytes) : Record :=
  ⟨0x17, [0x17, 0x03, 0x03, UInt8.ofNat ((plaintext.length + 1) / 256),
    UInt8.ofNat (plaintext.length + 1)], 0xEE :: plaintext⟩

theorem toyRecord_wellFormed {plaintext : Bytes} (hlen : plaintext.length + 1 < 65536) :
    (toyRecord plaintext).WellFormed :=
  ⟨0x03, 0x03, _, _, rfl, by
    rw [be16, UInt8.toNat_ofNat', UInt8.toNat_ofNat', toyRecord, length_cons]
    omega⟩

def toyOuter (plaintext : Bytes) (hne : plaintext ≠ []) (hlen : plaintext.length + 1 < 65536) :
    OuterRecord where
  record := toyRecord plaintext
  plaintext := plaintext
  type_eq := rfl
  wellFormed := toyRecord_wellFormed hlen
  plaintext_ne := hne

def rawRecord (contentType : UInt8) : Record :=
  ⟨contentType, [contentType, 0x03, 0x03, 0, 1], [0x55]⟩

/-- A DIRECT frame with one byte, and a raw record. -/
def directStream (contentType : UInt8) : PaddedStream where
  uuid := List.replicate 16 7
  frames := [⟨.paddingDirect, [0xAA], [], byte_fits, nil_fits⟩]
  raw := (rawRecord contentType).bytes
  uuid_length := length_sevens
  continued := by simp
  raw_ended := fun _ => ⟨_, rfl, by decide⟩

def wholeOuter : List OuterRecord :=
  [toyOuter (directStream 0x17).framed (by decide) (by decide)]

def cutOuter : List OuterRecord :=
  [toyOuter (List.replicate 16 7) (by decide) (by decide),
    toyOuter [2, 0, 1, 0, 0, 0xAA] (by decide) (by decide)]

theorem rawRecord_wellFormed (contentType : UInt8) : (rawRecord contentType).WellFormed :=
  ⟨0x03, 0x03, 0, 1, rfl, rfl⟩

theorem wholeOuter_handsOver (contentType : UInt8) :
    HandsOver toyDecrypt (directStream contentType) wholeOuter [rawRecord contentType] 0 where
  direct := ⟨_, rfl, rfl⟩
  carried := by simp [wholeOuter, toyOuter]; rfl
  raw := by simp [directStream]
  wellFormed := by simpa using rawRecord_wellFormed contentType
  decrypts := ⟨rfl, trivial⟩
  rejects := by simp [rawRecord, toyDecrypt]

theorem cutOuter_handsOver :
    HandsOver toyDecrypt (directStream 0x17) cutOuter [rawRecord 0x17] 0 where
  direct := ⟨_, rfl, rfl⟩
  carried := rfl
  raw := rfl
  wellFormed := by simpa using rawRecord_wellFormed 0x17
  decrypts := ⟨rfl, rfl, trivial⟩
  rejects := by simp [rawRecord, toyDecrypt]

/-- In one read, with application data behind it, nothing is lost. -/
theorem directStream_delivered :
    deliver toyDecrypt 200 (.new (List.replicate 16 7))
        ⟨[], 0, [wholeOuter.flatMap OuterRecord.bytes ++ (directStream 0x17).raw]⟩ =
      ((directStream 0x17).contents ++ (directStream 0x17).raw, .closed) := by
  refine handOver_delivers (wholeOuter_handsOver 0x17) (by decide) rfl (by simp) ⟨_, rfl, by decide⟩
    ?_ (fun r hr => .inl (by rw [Option.mem_unique hr rfl]; rfl)) (by decide)
  rintro ⟨before, after, hsplit, f, hf, -, k, hk, hgap⟩
  obtain rfl : f = ⟨.paddingDirect, [0xAA], [], by decide, by decide⟩ := Option.mem_unique hf rfl
  have hframed : (directStream 0x17).framed.length = 22 := rfl
  have hboundary : before.flatten.length = 0 ∨ before.flatten.length = 22 := by
    match before, hsplit with
    | [], _ => exact .inl rfl
    | [_], hsplit =>
      obtain ⟨rfl, -⟩ := List.cons.inj hsplit
      exact .inr rfl
  have hframe := Frame.length_bytes ⟨.paddingDirect, [0xAA], [], by decide, by decide⟩
  unfold Frame.HeaderGap at hgap
  simp only [length_cons, length_nil] at hframe hgap
  omega

/-- With the UUID in a record of its own the padding is not recognised; and a handshake
record that comes with the last outer record is dropped. -/
theorem directStream_not_delivered :
    (HandsOver toyDecrypt (directStream 0x17) cutOuter [rawRecord 0x17] 0 ∧
      deliver toyDecrypt 200 (.new (List.replicate 16 7))
          ⟨[], 0, cutOuter.map OuterRecord.bytes ++ [(directStream 0x17).raw]⟩ =
        ((directStream 0x17).framed ++ (directStream 0x17).raw, .closed) ∧
      (directStream 0x17).framed ≠ (directStream 0x17).contents) ∧
    (HandsOver toyDecrypt (directStream 0x16) wholeOuter [rawRecord 0x16] 0 ∧
      deliver toyDecrypt 200 (.new (List.replicate 16 7))
          ⟨[], 0, [wholeOuter.flatMap OuterRecord.bytes ++ (directStream 0x16).raw]⟩ =
        ((directStream 0x16).contents, .closed) ∧
      (directStream 0x16).raw ≠ []) :=
  ⟨⟨cutOuter_handsOver, by decide, by decide⟩, ⟨wholeOuter_handsOver 0x16, by decide, by decide⟩⟩

end Anywhere.Vless
