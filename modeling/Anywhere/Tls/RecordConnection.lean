import Anywhere.Tls.Wire

/-!
# Anywhere — the receiving half of `TlsRecordConnection`

`receive` decrypts all complete records in its buffer at once and reads from the
socket when there is none; `receiveRaw` returns what is buffered and then what the
socket returns. A record that cannot be decrypted ends a batch and stays in the
buffer, so that a reader that has switched to direct copy gets it from `receiveRaw`;
records of other types are dropped.
-/

namespace Anywhere.Tls

open List

-- ----
-- The model

/-- The receiving half of a connection: the buffer, the number of the next record, and
what the socket still returns before it is closed. -/
structure RecordConnection where
  receiveBuffer : Bytes := []
  serverSeqNum : Nat := 0
  socket : List Bytes
  deriving DecidableEq

/-- `BufferResult`; the result that asks for more data is never built. -/
inductive BufferResult where
  | data (data : Bytes)
  | error
  | skip
  | decryptionFailed (rawData : Bytes)

/-- The variables of the loop of `processBuffer`. -/
structure Batch where
  seqNum : Nat
  batchedData : Bytes := []
  recordsProcessed : Nat := 0
  alert : Bool := false
  failedRecord : Option Record := none

/-- The loop breaks at an alert and at a record that cannot be decrypted. -/
def Batch.breaks (b : Batch) : Bool := b.alert || b.failedRecord.isSome

section

-- `decryptTLSRecord` of a payload, its header and a sequence number; none where it throws
variable (decryptTLSRecord : Bytes → Bytes → Nat → Option Bytes)

def Batch.handle (b : Batch) (r : Record) : Batch :=
  let b := { b with recordsProcessed := b.recordsProcessed + 1 }
  if r.contentType = 0x17 then
    match decryptTLSRecord r.payload r.header b.seqNum with
    | some decrypted =>
      { b with seqNum := b.seqNum + 1, batchedData := b.batchedData ++ decrypted }
    | none => { b with seqNum := b.seqNum + 1, failedRecord := some r }
  else if r.contentType = 0x15 then { b with alert := true }
  else b

def processBuffer (t : RecordConnection) : Option BufferResult × RecordConnection :=
  if t.receiveBuffer = [] then (none, t)
  else
    let pass := records.drain (Batch.handle decryptTLSRecord) Batch.breaks
      { seqNum := t.serverSeqNum } t.receiveBuffer
    let t := { t with serverSeqNum := pass.1.seqNum, receiveBuffer := pass.2 }
    match pass.1.failedRecord with
    | some r =>
      -- the failed record and all that is left behind it
      let failedRecordData := r.bytes ++ pass.2
      if pass.1.batchedData ≠ [] then
        (some (.data pass.1.batchedData), { t with receiveBuffer := failedRecordData })
      else (some (.decryptionFailed failedRecordData), { t with receiveBuffer := [] })
    | none =>
      if pass.1.batchedData ≠ [] then (some (.data pass.1.batchedData), t)
      else if pass.1.alert then (some .error, t)
      else if pass.1.recordsProcessed > 0 then (some .skip, t)
      else (none, t)

inductive Received where
  | data (data : Bytes)
  | closed
  | error
  | decryptionFailed (rawData : Bytes)
  | unfinished
  deriving DecidableEq

/-- Something that gets smaller with every turn of `receive`. -/
def RecordConnection.size (t : RecordConnection) : Nat :=
  t.socket.length + 2 * t.socket.flatten.length + t.receiveBuffer.length

/-- `receive` and `fetchMore`: the buffer is processed, and one more read is appended
when it has no complete record. -/
def receiveFuel : Nat → RecordConnection → Received × RecordConnection
  | 0, t => (.unfinished, t)
  | fuel + 1, t =>
    match processBuffer decryptTLSRecord t with
    | (some (.data data), t) => (.data data, t)
    | (some .error, t) => (.error, t)
    | (some (.decryptionFailed rawData), t) => (.decryptionFailed rawData, t)
    | (some .skip, t) => receiveFuel fuel t
    | (none, t) =>
      match t.socket with
      | [] => (.closed, t)
      | data :: socket =>
        receiveFuel fuel { t with receiveBuffer := t.receiveBuffer ++ data, socket := socket }

def receive (t : RecordConnection) : Received × RecordConnection :=
  receiveFuel decryptTLSRecord (t.size + 1) t

/-- Everything `receive` returns one after another, and how it ends. -/
def receiveAllFuel : Nat → RecordConnection → List Bytes × Received
  | 0, _ => ([], .unfinished)
  | fuel + 1, t =>
    match receive decryptTLSRecord t with
    | (.data data, t) => (data :: (receiveAllFuel fuel t).1, (receiveAllFuel fuel t).2)
    | (ending, _) => ([], ending)

def receiveAll (t : RecordConnection) : List Bytes × Received :=
  receiveAllFuel decryptTLSRecord (t.size + 1) t

end

def readSocket : List Bytes → Option Bytes × List Bytes
  | [] => (none, [])
  | data :: socket => if data = [] then readSocket socket else (some data, socket)

/-- `receiveRaw`; none when the connection is closed. -/
def receiveRaw (t : RecordConnection) : Option Bytes × RecordConnection :=
  if t.receiveBuffer ≠ [] then (some t.receiveBuffer, { t with receiveBuffer := [] })
  else ((readSocket t.socket).1, { t with socket := (readSocket t.socket).2 })

-- ----
-- Sealed records

/-- A record of application data and the data in it. -/
structure SealedRecord where
  record : Record
  plaintext : Bytes
  type_eq : record.contentType = 0x17
  wellFormed : record.WellFormed

def SealedRecord.bytes (r : SealedRecord) : Bytes := r.record.bytes

theorem SealedRecord.bytes_ne (r : SealedRecord) : r.bytes ≠ [] := by
  obtain ⟨v1, v2, l1, l2, hheader, -⟩ := r.wellFormed
  simp [bytes, Record.bytes, hheader]

variable {rs : List SealedRecord}

section

variable {decryptTLSRecord : Bytes → Bytes → Nat → Option Bytes}

/-- The records can be opened one after another from a sequence number on. -/
def Opens (decryptTLSRecord : Bytes → Bytes → Nat → Option Bytes) : Nat → List SealedRecord → Prop
  | _, [] => True
  | n, r :: rs =>
    decryptTLSRecord r.record.payload r.record.header n = some r.plaintext ∧
      Opens decryptTLSRecord (n + 1) rs

theorem drain_sealed {b : Batch} (hb : b.breaks = false)
    (h : Opens decryptTLSRecord b.seqNum rs) (zs : Bytes) :
    records.drain (Batch.handle decryptTLSRecord) Batch.breaks b
        (rs.flatMap SealedRecord.bytes ++ zs) =
      records.drain (Batch.handle decryptTLSRecord) Batch.breaks
        { b with
          seqNum := b.seqNum + rs.length
          batchedData := b.batchedData ++ rs.flatMap SealedRecord.plaintext
          recordsProcessed := b.recordsProcessed + rs.length } zs := by
  induction rs generalizing b with
  | nil => simp
  | cons r rs ih =>
    have hhandle : b.handle decryptTLSRecord r.record =
        { b with
          seqNum := b.seqNum + 1
          batchedData := b.batchedData ++ r.plaintext
          recordsProcessed := b.recordsProcessed + 1 } := by
      simp only [Batch.handle, r.type_eq, if_true, h.1]
    have htake : records.next (r.bytes ++ (rs.flatMap SealedRecord.bytes ++ zs)) =
        some (r.record, rs.flatMap SealedRecord.bytes ++ zs) := r.wellFormed.encodes _
    rw [flatMap_cons, append_assoc, records.drain_some _ Batch.breaks hb htake, hhandle]
    rw [ih (b := { b with
      seqNum := b.seqNum + 1
      batchedData := b.batchedData ++ r.plaintext
      recordsProcessed := b.recordsProcessed + 1 }) hb h.2]
    simp only [length_cons, flatMap_cons, append_assoc, Nat.add_assoc, Nat.add_comm 1]

end

-- ----
-- Outer records

structure OuterRecord where
  record : Record
  plaintext : Bytes
  type_eq : record.contentType = 0x17
  wellFormed : record.WellFormed
  plaintext_ne : plaintext ≠ []

def OuterRecord.bytes (o : OuterRecord) : Bytes := o.record.bytes

theorem OuterRecord.takeRecord_bytes (o : OuterRecord) (zs : Bytes) :
    takeRecord (o.bytes ++ zs) = some (o.record, zs) :=
  o.wellFormed.encodes zs

variable {data : Bytes} {n : Nat} {os : List OuterRecord} {t t' : RecordConnection}

section

variable {decryptTLSRecord : Bytes → Bytes → Nat → Option Bytes}

/-- The records decrypt one after another from a sequence number on. -/
def Decrypts (decryptTLSRecord : Bytes → Bytes → Nat → Option Bytes) : Nat → List OuterRecord → Prop
  | _, [] => True
  | n, o :: os =>
    decryptTLSRecord o.record.payload o.record.header n = some o.plaintext ∧
      Decrypts decryptTLSRecord (n + 1) os

theorem Decrypts.drop (h : Decrypts decryptTLSRecord n os) (k : Nat) :
    Decrypts decryptTLSRecord (n + k) (os.drop k) := by
  induction k generalizing n os with
  | zero => exact h
  | succ k ih =>
    cases os with
    | nil => trivial
    | cons o os =>
      have := ih h.2
      rwa [Nat.add_right_comm] at this

theorem Decrypts.take {n : Nat} {os : List OuterRecord} (h : Decrypts decryptTLSRecord n os)
    (k : Nat) :
    Decrypts decryptTLSRecord n (os.take k) := by
  induction k generalizing n os with
  | zero => trivial
  | succ k ih =>
    cases os with
    | nil => trivial
    | cons o os => exact ⟨h.1, ih h.2⟩

def OuterRecord.sealed (o : OuterRecord) : SealedRecord :=
  ⟨o.record, o.plaintext, o.type_eq, o.wellFormed⟩

theorem Decrypts.sealed (h : Decrypts decryptTLSRecord n os) :
    Opens decryptTLSRecord n (os.map OuterRecord.sealed) := by
  induction os generalizing n with
  | nil => trivial
  | cons o os ih => exact ⟨h.1, ih h.2⟩

theorem drain_outer {b : Batch} (hb : b.breaks = false)
    (h : Decrypts decryptTLSRecord b.seqNum os) (zs : Bytes) :
    records.drain (Batch.handle decryptTLSRecord) Batch.breaks b
    (os.flatMap OuterRecord.bytes ++ zs) =
      records.drain (Batch.handle decryptTLSRecord) Batch.breaks
        { b with
          seqNum := b.seqNum + os.length
          batchedData := b.batchedData ++ os.flatMap OuterRecord.plaintext
          recordsProcessed := b.recordsProcessed + os.length } zs := by
  have hdrain := drain_sealed hb h.sealed zs
  rw [length_map, flatMap_map, flatMap_map] at hdrain
  exact hdrain

theorem plaintexts_ne (h : os ≠ []) : os.flatMap OuterRecord.plaintext ≠ [] := by
  obtain ⟨o, os, rfl⟩ := exists_cons_of_ne_nil h
  rw [flatMap_cons]
  intro hnil
  exact o.plaintext_ne (append_eq_nil_iff.mp hnil).1

/-- A buffer without a complete record is left alone. -/
theorem processBuffer_incomplete (h : takeRecord t.receiveBuffer = none) :
    processBuffer decryptTLSRecord t = (none, t) := by
  unfold processBuffer
  split
  · rfl
  · rw [records.drain_none _ _ h]
    simp

/-- What may follow the outer records in a batch: no complete record, or one that the
decryption rejects. -/
def Stops (decryptTLSRecord : Bytes → Bytes → Nat → Option Bytes) (tail : Bytes) : Prop :=
  ∀ r rest, takeRecord tail = some (r, rest) →
    r.contentType = 0x17 ∧ ∀ n, decryptTLSRecord r.payload r.header n = none

/-- **One batch.** The outer records of a buffer are decrypted together, and all that
follows them stays in the buffer. -/
theorem processBuffer_outer {tail : Bytes}
    (hne : os ≠ []) (hdecrypts : Decrypts decryptTLSRecord t.serverSeqNum os)
    (hbuffer : t.receiveBuffer = os.flatMap OuterRecord.bytes ++ tail)
    (hstops : Stops decryptTLSRecord tail) :
    ∃ n, (takeRecord tail = none → n = t.serverSeqNum + os.length) ∧
      processBuffer decryptTLSRecord t =
        (some (.data (os.flatMap OuterRecord.plaintext)),
          { t with receiveBuffer := tail, serverSeqNum := n }) := by
  have hplain := plaintexts_ne hne
  have hfull : t.receiveBuffer ≠ [] := by
    obtain ⟨o, os, rfl⟩ := exists_cons_of_ne_nil hne
    intro hnil
    have htake := o.takeRecord_bytes (os.flatMap OuterRecord.bytes ++ tail)
    rw [← append_assoc, ← flatMap_cons, ← hbuffer, hnil] at htake
    cases htake
  have hdrain := drain_outer (b := { seqNum := t.serverSeqNum }) rfl hdecrypts tail
  unfold processBuffer
  rw [if_neg hfull, hbuffer, hdrain]
  cases htail : takeRecord tail with
  | none =>
    rw [records.drain_none _ _ htail]
    exact ⟨t.serverSeqNum + os.length, fun _ => rfl, by simp [hplain]⟩
  | some p =>
    obtain ⟨r, rest⟩ := p
    obtain ⟨htype, hfails⟩ := hstops r rest htail
    -- the record is handled as a failed one, which breaks the loop
    rw [records.drain_some _ _ rfl htail, records.drain_stop _ _
      (by simp [Batch.handle, htype, hfails, Batch.breaks])]
    refine ⟨t.serverSeqNum + os.length + 1, (by intro h; cases h), ?_⟩
    simp [Batch.handle, htype, hfails, hplain, Tls.takeRecord_bytes htail]

-- ----
-- `receive` without its fuel

theorem drain_length_le (b : Batch) (xs : Bytes) :
    (records.drain (Batch.handle decryptTLSRecord) Batch.breaks b xs).2.length +
        (records.drain (Batch.handle decryptTLSRecord) Batch.breaks b xs).1.recordsProcessed ≤
      xs.length + b.recordsProcessed := by
  induction b, xs using records.drain_induction (Batch.handle decryptTLSRecord) Batch.breaks with
  | hstop b xs hb => rw [records.drain_stop _ _ hb]
  | hnone b xs hb hnext => rw [records.drain_none _ _ hnext]
  | hsome b xs r ys hb hnext ih =>
    have hshorter := records.progress hnext
    have hcount : (b.handle decryptTLSRecord r).recordsProcessed = b.recordsProcessed + 1 := by
      unfold Batch.handle
      simp only
      split
      · split
        · rfl
        · rfl
      split
      · rfl
      · rfl
    rw [records.drain_some _ _ hb hnext]
    omega

theorem processBuffer_skip
    (h : processBuffer decryptTLSRecord t = (some .skip, t')) : t'.size < t.size := by
  have hle := @drain_length_le decryptTLSRecord { seqNum := t.serverSeqNum }
    t.receiveBuffer
  unfold processBuffer at h
  split at h
  · cases h
  simp only at h
  split at h
  · split at h
    · cases h
    · cases h
  · split at h
    · cases h
    split at h
    · cases h
    split at h
    · rename_i hcount
      obtain ⟨-, rfl⟩ := Prod.mk.inj h
      unfold RecordConnection.size
      simp only at hle ⊢
      omega
    · cases h

theorem processBuffer_none
    (h : processBuffer decryptTLSRecord t = (none, t')) :
    t'.socket = t.socket ∧ t'.size ≤ t.size := by
  have hle := @drain_length_le decryptTLSRecord { seqNum := t.serverSeqNum }
    t.receiveBuffer
  unfold processBuffer at h
  split at h
  · obtain ⟨-, rfl⟩ := Prod.mk.inj h
    exact ⟨rfl, le_refl _⟩
  simp only at h
  split at h
  · split at h
    · cases h
    · cases h
  · split at h
    · cases h
    split at h
    · cases h
    split at h
    · cases h
    · obtain ⟨-, rfl⟩ := Prod.mk.inj h
      refine ⟨rfl, ?_⟩
      unfold RecordConnection.size
      simp only at hle ⊢
      omega

theorem size_read {socket : List Bytes}
    (h : t.socket = data :: socket) :
    ({ t with receiveBuffer := t.receiveBuffer ++ data, socket := socket } :
      RecordConnection).size < t.size := by
  unfold RecordConnection.size
  simp only [h, length_append, length_cons, flatten_cons]
  omega

theorem receiveFuel_eq (hn : t.size < n) :
    receiveFuel decryptTLSRecord n t = receive decryptTLSRecord t := by
  -- both unfold alike as long as there is fuel
  suffices h : ∀ m n : Nat, ∀ t : RecordConnection, t.size < m → t.size < n →
      receiveFuel decryptTLSRecord n t = receiveFuel decryptTLSRecord m t from
    h _ _ _ (Nat.lt_succ_self _) hn
  intro m
  induction m with
  | zero => intro n t hm; omega
  | succ m ih =>
    intro n t hm hn
    cases n with
    | zero => omega
    | succ n =>
      rw [receiveFuel, receiveFuel]
      cases hpass : processBuffer decryptTLSRecord t with
      | mk result t' =>
        match result with
        | some (.data _) => rfl
        | some .error => rfl
        | some (.decryptionFailed _) => rfl
        | some .skip =>
          have hsize := processBuffer_skip hpass
          exact ih n t' (by omega) (by omega)
        | none =>
          obtain ⟨-, hsize⟩ := processBuffer_none hpass
          simp only
          cases hsocket : t'.socket with
          | nil => rfl
          | cons data socket =>
            have hless := size_read hsocket
            exact ih n _ (by omega) (by omega)

attribute [local grind =] receive receiveFuel processBuffer

/-- A buffer without a complete record is filled from the socket. -/
theorem receive_more {socket : List Bytes}
    (h : takeRecord t.receiveBuffer = none) (hsocket : t.socket = data :: socket) :
    receive decryptTLSRecord t =
      receive decryptTLSRecord
        { t with receiveBuffer := t.receiveBuffer ++ data, socket := socket } := by
  rw [receive, receiveFuel, processBuffer_incomplete h]
  simp only [hsocket]
  exact receiveFuel_eq (size_read hsocket)

/-- A call that finds data returns it. -/
theorem receive_data
    (h : processBuffer decryptTLSRecord t = (some (.data data), t')) :
    receive decryptTLSRecord t = (.data data, t') := by
  rw [receive, receiveFuel, h]

/-- A batch without data is passed over. -/
theorem receive_skip
    (h : processBuffer decryptTLSRecord t = (some .skip, t')) :
    receive decryptTLSRecord t = receive decryptTLSRecord t' := by
  rw [receive, receiveFuel, h]
  exact receiveFuel_eq (processBuffer_skip h)

theorem receive_closed (h : takeRecord t.receiveBuffer = none)
    (hsocket : t.socket = []) : receive decryptTLSRecord t = (.closed, t) := by
  rw [receive, receiveFuel, processBuffer_incomplete h]
  simp only [hsocket]

-- ----
-- A stream of sealed records

/-- One batch of sealed records with less than a record behind them. -/
theorem processBuffer_sealed {tail : Bytes}
    (hne : rs ≠ []) (h : Opens decryptTLSRecord t.serverSeqNum rs)
    (hbuffer : t.receiveBuffer = rs.flatMap SealedRecord.bytes ++ tail)
    (htail : takeRecord tail = none) :
    processBuffer decryptTLSRecord t =
      (some (if rs.flatMap SealedRecord.plaintext = [] then .skip
          else .data (rs.flatMap SealedRecord.plaintext)),
        { t with receiveBuffer := tail, serverSeqNum := t.serverSeqNum + rs.length }) := by
  have hpos : 0 < rs.length := length_pos_iff.2 hne
  have hfull : t.receiveBuffer ≠ [] := by
    obtain ⟨r, rs, rfl⟩ := exists_cons_of_ne_nil hne
    have hbytes := r.bytes_ne
    rw [hbuffer]
    simp [hbytes]
  have hdrain := drain_sealed (b := { seqNum := t.serverSeqNum }) rfl h tail
  rw [records.drain_none _ _ htail] at hdrain
  unfold processBuffer
  rw [if_neg hfull, hbuffer, hdrain]
  by_cases hplain : rs.flatMap SealedRecord.plaintext = []
  · simp [hplain, hpos]
  · simp [hplain]

/-- The connection has exactly these records still to deliver. -/
structure Carries (decryptTLSRecord : Bytes → Bytes → Nat → Option Bytes) (t : RecordConnection)
    (rs : List SealedRecord) : Prop where
  bytes : t.receiveBuffer ++ t.socket.flatten = rs.flatMap SealedRecord.bytes
  opens : Opens decryptTLSRecord t.serverSeqNum rs

theorem Opens.of_append {done later : List SealedRecord}
    (h : Opens decryptTLSRecord n (done ++ later)) :
    Opens decryptTLSRecord n done ∧ Opens decryptTLSRecord (n + done.length) later := by
  induction done generalizing n with
  | nil => exact ⟨trivial, h⟩
  | cons r done ih =>
    obtain ⟨hdone, hlater⟩ := ih h.2
    rw [length_cons, Nat.add_comm done.length 1, ← Nat.add_assoc]
    exact ⟨⟨h.1, hdone⟩, hlater⟩

/-- What is buffered is a first part of the records and less than one more. -/
theorem Carries.split
    (h : Carries decryptTLSRecord t rs) :
    ∃ done later tail, rs = done ++ later ∧
      t.receiveBuffer = done.flatMap SealedRecord.bytes ++ tail ∧ takeRecord tail = none ∧
      tail ++ t.socket.flatten = later.flatMap SealedRecord.bytes := by
  have hencodes : ∀ r ∈ rs.map SealedRecord.record, records.Encodes Record.bytes r := by
    intro r hr
    obtain ⟨r, -, rfl⟩ := mem_map.1 hr
    exact r.wellFormed.encodes
  have hbytes : t.receiveBuffer ++ t.socket.flatten =
      (rs.map SealedRecord.record).flatMap Record.bytes := by
    rw [h.bytes, flatMap_map]
    rfl
  obtain ⟨done, later, tail, hrs, hbuffer, hnext, hlater⟩ := records.split_encoded hencodes hbytes
  obtain ⟨done, later, rfl, rfl, rfl⟩ := map_eq_append_iff.1 hrs
  rw [flatMap_map] at hbuffer hlater
  exact ⟨done, later, tail, rfl, hbuffer, hnext, hlater⟩

/-- **One `receive`.** It returns the data of a first part of the records, or the stream is
at its end and no data is left. -/
theorem Carries.receive
    (h : Carries decryptTLSRecord t rs) :
    (∃ t', Tls.receive decryptTLSRecord t = (.closed, t') ∧
      rs.flatMap SealedRecord.plaintext = []) ∨
    ∃ done later t', rs = done ++ later ∧
      Tls.receive decryptTLSRecord t = (.data (done.flatMap SealedRecord.plaintext), t') ∧
      Carries decryptTLSRecord t' later ∧ t'.size < t.size := by
  induction hsize : t.size using Nat.strongRecOn generalizing t rs with
  | ind n ih =>
    subst hsize
    obtain ⟨done, later, tail, rfl, hbuffer, htail, hlater⟩ := h.split
    obtain ⟨hdone, hopens⟩ := h.opens.of_append
    by_cases hempty : done = []
    · -- no complete record: the socket returns more, or there is nothing more
      subst hempty
      rw [flatMap_nil, nil_append] at hbuffer
      rcases hsocket : t.socket with _ | ⟨data, socket⟩
      · left
        refine ⟨t, receive_closed (by rw [hbuffer]; exact htail) hsocket, ?_⟩
        rcases later with _ | ⟨r, later⟩
        · rfl
        · rw [hsocket, flatten_nil, append_nil, flatMap_cons] at hlater
          have htake : takeRecord tail = some (r.record, later.flatMap SealedRecord.bytes) := by
            rw [hlater]
            exact r.wellFormed.encodes _
          rw [htake] at htail
          cases htail
      · have hless := size_read hsocket
        have hcarries : Carries decryptTLSRecord
            { t with receiveBuffer := t.receiveBuffer ++ data, socket := socket } later := by
          refine ⟨?_, h.opens⟩
          rw [← hlater, hbuffer, hsocket, flatten_cons, append_assoc]
        rw [receive_more (by rw [hbuffer]; exact htail) hsocket]
        rcases ih _ hless hcarries rfl with hclosed | ⟨done, rest, t', hsplit, hdata, hrest, hlt⟩
        · exact Or.inl hclosed
        · exact Or.inr ⟨done, rest, t', hsplit, hdata, hrest, Nat.lt_trans hlt hless⟩
    · -- a batch: its data is returned, or there is none and the loop goes on
      have hbatch := processBuffer_sealed hempty hdone hbuffer htail
      have hcarries : Carries decryptTLSRecord
          { t with receiveBuffer := tail, serverSeqNum := t.serverSeqNum + done.length } later :=
        ⟨hlater, hopens⟩
      by_cases hplain : done.flatMap SealedRecord.plaintext = []
      · rw [if_pos hplain] at hbatch
        have hless := processBuffer_skip hbatch
        rw [receive_skip hbatch]
        rcases ih _ hless hcarries rfl with ⟨t', hclosed, hnil⟩ |
          ⟨first, rest, t', rfl, hdata, hrest, hlt⟩
        · exact Or.inl ⟨t', hclosed, by rw [flatMap_append, hplain, hnil, append_nil]⟩
        · refine Or.inr ⟨done ++ first, rest, t', by rw [append_assoc], ?_, hrest,
            Nat.lt_trans hlt hless⟩
          rw [hdata, flatMap_append, hplain, nil_append]
      · rw [if_neg hplain] at hbatch
        refine Or.inr ⟨done, later, _, rfl, receive_data hbatch, hcarries, ?_⟩
        obtain ⟨r, done, rfl⟩ := exists_cons_of_ne_nil hempty
        have hlength := congrArg List.length hbuffer
        have hrecord : 0 < r.bytes.length := length_pos_iff.2 r.bytes_ne
        rw [flatMap_cons, length_append, length_append] at hlength
        show t.socket.length + 2 * t.socket.flatten.length + tail.length < t.size
        unfold RecordConnection.size
        omega

/-- **All of it.** Whatever the cuts of the stream, `receive` returns the data of the
records in order until the socket is closed. -/
theorem Carries.receiveAll
    (h : Carries decryptTLSRecord t rs) :
    ∃ batches, Tls.receiveAll decryptTLSRecord t = (batches, .closed) ∧
      batches.flatten = rs.flatMap SealedRecord.plaintext := by
  suffices hfuel : ∀ n, ∀ t : RecordConnection, ∀ rs, Carries decryptTLSRecord t rs → t.size < n →
      ∃ batches, receiveAllFuel decryptTLSRecord n t = (batches, .closed) ∧
        batches.flatten = rs.flatMap SealedRecord.plaintext from
    hfuel _ t rs h (Nat.lt_succ_self _)
  intro n
  induction n with
  | zero => intro t rs _ hn; omega
  | succ n ih =>
    intro t rs h hn
    rw [receiveAllFuel]
    rcases h.receive with ⟨t', hclosed, hnil⟩ | ⟨done, later, t', rfl, hdata, hlater, hlt⟩
    · exact ⟨[], by rw [hclosed], hnil.symm⟩
    · obtain ⟨batches, hbatches, hflatten⟩ := ih t' later hlater (by omega)
      refine ⟨done.flatMap SealedRecord.plaintext :: batches, by rw [hdata]; simp only [hbatches],
        ?_⟩
      rw [flatten_cons, hflatten, flatMap_append]

end

end Anywhere.Tls
