import Anywhere.Tls.RecordCipher

/-!
# Anywhere — the sending half of `TlsRecordConnection`

`send` splits its data at 16384 bytes, gives each piece the next sequence number and
writes the records one behind the other into an array that was allocated for all of them.
The size of that array is a 32-bit `Int`, as is all arithmetic on offsets: `Fits` is what
is needed for it not to overflow. `System.arraycopy` past the end of the array throws.

The peer is a `RecordConnection` with the keys of the sender as its server keys; what it
has received is cut in any way. The socket's reads have at most 131072 bytes, so that the
peer's receive buffer stays far from the limits of an array and is modelled as a list.

* `writes_roundTrip` — the peer gets back what was written.
-/

namespace Anywhere.Tls

/-- The value of an `Int` after an operation. -/
def int32 (n : Int) : Int := n.bmod (2 ^ 32)

variable {n : Nat}

theorem int32_of_lt (h : n < 2 ^ 31) : int32 n = n := by
  rw [int32, Int.bmod_eq_of_le (by omega) (by omega)]

def maxRecordPlaintext : Nat := 16384

section

variable (c : RecordCrypto) (randomIV : Nat → Vector UInt8 16) (k : RecordKeys)

/-- The loop of `buildTLSRecords`: `records` is what has been written into the array of
`size` bytes so far. -/
def buildLoop (data : Bytes) (size : Nat) : Nat → Nat → Nat → Bytes → Option Bytes
  | 0, _, _, _ => none
  | fuel + 1, offset, seqNum, records =>
    if offset < data.length then
      let chunkEnd := min (int32 (offset + maxRecordPlaintext)) data.length
      -- `copyOfRange` throws when the end is before the start
      if chunkEnd < offset then none
      else do
        let chunk := (data.take chunkEnd.toNat).drop offset
        let record ← encryptAndBuildTLSRecord c randomIV k chunk seqNum
        -- `arraycopy` throws when the record goes past the end
        if size < records.length + record.length then none
        else buildLoop data size fuel chunkEnd.toNat (seqNum + 1) (records ++ record)
    else some records

/-- The bytes for the socket and the next sequence number. -/
def buildTLSRecords (data : Bytes) (clientSeqNum : Nat) : Option (Bytes × Nat) :=
  if data.length ≤ maxRecordPlaintext then do
    let record ← encryptAndBuildTLSRecord c randomIV k data clientSeqNum
    some (record, clientSeqNum + 1)
  else
    let chunkCount := (int32 (int32 (data.length + maxRecordPlaintext) - 1)).tdiv maxRecordPlaintext
    let size := int32 (data.length + int32 (chunkCount * maxOverheadPerRecord k))
    -- an array of negative size
    if size < 0 then none
    else do
      let records ← buildLoop c randomIV k data size.toNat (data.length + 1) 0 clientSeqNum []
      some (records, (clientSeqNum + chunkCount).toNat)

def sendAll : Nat → List Bytes → Option (List Bytes × Nat)
  | clientSeqNum, [] => some ([], clientSeqNum)
  | clientSeqNum, data :: writes => do
    let (record, clientSeqNum) ← buildTLSRecords c randomIV k data clientSeqNum
    let (sent, clientSeqNum) ← sendAll clientSeqNum writes
    some (record :: sent, clientSeqNum)

end

-- ----
-- Emitted records

variable {data : Bytes} {rs : List SealedRecord}

section

variable {c : RecordCrypto} {randomIV : Nat → Vector UInt8 16} {k : RecordKeys}

/-- Records that are built one after another from a sequence number on. -/
def Emitted (c : RecordCrypto) (randomIV : Nat → Vector UInt8 16) (k : RecordKeys) :
    Nat → List SealedRecord → Prop
  | _, [] => True
  | n, r :: rs =>
    Seals c randomIV k r.plaintext n r ∧ r.plaintext.length ≤ maxRecordPlaintext ∧
      Emitted c randomIV k (n + 1) rs

theorem Emitted.append {later : List SealedRecord} (h : Emitted c randomIV k n rs)
    (hlater : Emitted c randomIV k (n + rs.length) later) :
    Emitted c randomIV k n (rs ++ later) := by
  induction rs generalizing n with
  | nil => exact hlater
  | cons r rs ih =>
    rw [List.length_cons, Nat.add_comm rs.length 1, ← Nat.add_assoc] at hlater
    exact ⟨h.1, h.2.1, ih h.2.2 hlater⟩

theorem Emitted.opens (h : Emitted c randomIV k n rs) :
    Opens (decryptTLSRecord c k) n rs := by
  induction rs generalizing n with
  | nil => trivial
  | cons r rs ih => exact ⟨h.1.opened, ih h.2.2⟩

theorem Emitted.getElem? (h : Emitted c randomIV k n rs)
    {i : Nat} {r : SealedRecord} (hi : rs[i]? = some r) :
    Seals c randomIV k r.plaintext (n + i) r ∧ r.plaintext.length ≤ maxRecordPlaintext := by
  induction rs generalizing n i with
  | nil => cases hi
  | cons r' rs ih =>
    rcases i with _ | i
    · rw [List.getElem?_cons_zero, Option.some.injEq] at hi
      subst hi
      exact ⟨h.1, h.2.1⟩
    · have hlater := ih h.2.2 (by simpa using hi)
      rwa [Nat.add_assoc, Nat.add_comm 1 i] at hlater

-- ----
-- One write

/-- The number of records of a write. -/
def chunkCount (length : Nat) : Nat := (length + 16383) / 16384

theorem chunkCount_zero : chunkCount 0 = 0 := by
  unfold chunkCount
  omega

/-- The records of a write, with the overhead that the code allows for, fit into an array. -/
def Fits (k : RecordKeys) (data : Bytes) : Prop :=
  data.length ≤ maxRecordPlaintext ∨
    data.length + chunkCount data.length * maxOverheadPerRecord k < 2 ^ 31

theorem chunkEnd_eq {length offset : Nat} (hlength : length + 16384 < 2 ^ 31)
    (hmore : offset < length) :
    ∃ next : Nat, min (int32 (offset + maxRecordPlaintext)) length = next ∧ offset < next ∧
      next ≤ length ∧ next ≤ offset + 16384 ∧
      chunkCount (length - offset) = chunkCount (length - next) + 1 := by
  have hint : int32 (offset + maxRecordPlaintext) = ((offset + 16384 : Nat) : Int) :=
    int32_of_lt (n := offset + 16384) (by omega)
  rw [hint]
  unfold chunkCount
  rcases Nat.le_total (offset + 16384) length with h | h
  · refine ⟨offset + 16384, Int.min_eq_left (by omega), by omega, h, le_refl _, by omega⟩
  · refine ⟨length, Int.min_eq_right (by omega), hmore, le_refl _, h, by omega⟩

/-- **The loop.** While the array has room for what is left and its overhead, the loop
writes the records of what is left. -/
theorem buildLoop_emits {data : Bytes} {size : Nat} (hdata : data.length + 16384 < 2 ^ 31)
    {fuel offset seqNum : Nat} {out : Bytes} (hfuel : data.length - offset < fuel)
    (hroom : out.length + (data.length - offset) +
      chunkCount (data.length - offset) * maxOverheadPerRecord k ≤ size) :
    ∃ rs, Emitted c randomIV k seqNum rs ∧ rs.flatMap SealedRecord.plaintext = data.drop offset ∧
      rs.length = chunkCount (data.length - offset) ∧
      buildLoop c randomIV k data size fuel offset seqNum out =
        some (out ++ rs.flatMap SealedRecord.bytes) := by
  induction fuel generalizing offset seqNum out with
  | zero => omega
  | succ fuel ih =>
    rw [buildLoop]
    by_cases hmore : offset < data.length
    · -- one record: its end does not overflow, and there is room for it
      obtain ⟨next, hend, hlt, hle, hpiece, hcount⟩ := chunkEnd_eq hdata hmore
      let chunk := (data.take next).drop offset
      have hchunk : chunk.length = next - offset := by
        simp only [chunk, List.length_drop, List.length_take]
        omega
      obtain ⟨r, hr⟩ := encryptAndBuildTLSRecord_seals c randomIV k
        (show chunk.length ≤ 16384 by omega) seqNum
      have hlen := hr.length_le
      rw [hcount, Nat.add_mul, Nat.one_mul] at hroom
      have hfits : ¬ size < out.length + r.bytes.length := by
        -- this needs nothing about `Int`, and `2 ^ 31` is large for the kernel
        clear hdata hend hpiece
        omega
      obtain ⟨rs, hrs, hplain, hlength, hloop⟩ := @ih next (seqNum + 1) (out ++ r.bytes) (by omega)
        (by rw [List.length_append]; omega)
      refine ⟨r :: rs, ⟨?_, ?_, hrs⟩, ?_, ?_, ?_⟩
      · rw [hr.plaintext_eq]
        exact hr
      · rw [hr.plaintext_eq]
        show chunk.length ≤ 16384
        omega
      · rw [List.flatMap_cons, hr.plaintext_eq, hplain,
          ← List.drop_append_of_le_length (by rw [List.length_take]; omega), List.take_append_drop]
      · rw [List.length_cons, hlength, hcount]
      · rw [if_pos hmore, hend, if_neg (by omega), Int.toNat_natCast]
        show (encryptAndBuildTLSRecord c randomIV k chunk seqNum).bind _ = _
        rw [hr.built]
        show (if size < out.length + r.bytes.length then none else _) = _
        rw [if_neg hfits, hloop, List.flatMap_cons, List.append_assoc]
    · rw [if_neg hmore]
      refine ⟨[], trivial, ?_, ?_, by simp⟩
      · rw [List.drop_eq_nil_of_le (by omega)]
        rfl
      · rw [Nat.sub_eq_zero_of_le (by omega), chunkCount_zero, List.length_nil]

/-- The arithmetic of `buildTLSRecords` on a write that fits. -/
theorem Fits.size_eq (h : Fits k data) (hlong : maxRecordPlaintext < data.length) :
    data.length + 16384 < 2 ^ 31 ∧
    (int32 (int32 (data.length + maxRecordPlaintext) - 1)).tdiv maxRecordPlaintext =
      chunkCount data.length ∧
    int32 (data.length + int32 ((chunkCount data.length : Int) * maxOverheadPerRecord k)) =
      ((data.length + chunkCount data.length * maxOverheadPerRecord k : Nat) : Int) := by
  have hfits : data.length + chunkCount data.length * maxOverheadPerRecord k < 2 ^ 31 := by
    rcases h with h | h
    · omega
    · exact h
  have hoverhead : 22 ≤ maxOverheadPerRecord k := by
    unfold maxOverheadPerRecord
    repeat' split
    all_goals decide
  have htotal := Nat.mul_le_mul_left (chunkCount data.length) hoverhead
  -- the overhead of so many records leaves room for one more plaintext
  have hdata : data.length + 16384 < 2 ^ 31 := by
    generalize chunkCount data.length * maxOverheadPerRecord k = total at *
    unfold chunkCount at htotal
    omega
  refine ⟨hdata, ?_, ?_⟩
  · have hsum : int32 (data.length + maxRecordPlaintext) = ((data.length + 16384 : Nat) : Int) :=
      int32_of_lt hdata
    have hless : ((data.length + 16384 : Nat) : Int) - 1 = ((data.length + 16383 : Nat) : Int) := by
      omega
    rw [hsum, hless, int32_of_lt (by omega)]
    exact (Int.ofNat_tdiv _ _).symm
  · rw [← Int.natCast_mul, int32_of_lt (by omega), ← Int.natCast_add, int32_of_lt hfits]

/-- The records of one write. -/
theorem buildTLSRecords_emits (h : Fits k data) (clientSeqNum : Nat) :
    ∃ rs, Emitted c randomIV k clientSeqNum rs ∧ rs.flatMap SealedRecord.plaintext = data ∧
      buildTLSRecords c randomIV k data clientSeqNum =
        some (rs.flatMap SealedRecord.bytes, clientSeqNum + rs.length) := by
  rw [buildTLSRecords]
  by_cases hshort : data.length ≤ maxRecordPlaintext
  · obtain ⟨r, hr⟩ := encryptAndBuildTLSRecord_seals c randomIV k hshort clientSeqNum
    refine ⟨[r], ⟨?_, ?_, trivial⟩, ?_, ?_⟩
    · rw [hr.plaintext_eq]
      exact hr
    · rwa [hr.plaintext_eq]
    · rw [List.flatMap_singleton, hr.plaintext_eq]
    · rw [if_pos hshort, hr.built, List.flatMap_singleton]
      rfl
  · obtain ⟨hdata, hcount, hsize⟩ := h.size_eq (by omega)
    have hroom : ([] : Bytes).length + (data.length - 0) +
        chunkCount (data.length - 0) * maxOverheadPerRecord k ≤
          data.length + chunkCount data.length * maxOverheadPerRecord k := by
      rw [List.length_nil, Nat.zero_add, Nat.sub_zero]
    obtain ⟨rs, hrs, hplain, hlength, hloop⟩ :=
      @buildLoop_emits c randomIV k data _ hdata (data.length + 1) 0 clientSeqNum []
        (by omega) hroom
    refine ⟨rs, hrs, hplain, ?_⟩
    rw [if_neg hshort]
    dsimp only
    rw [hcount, hsize, if_neg (by omega), Int.toNat_natCast, hloop, ← Int.natCast_add,
      Int.toNat_natCast, hlength]
    rfl

-- ----
-- All writes

/-- The records of all writes, numbered through. -/
theorem sendAll_emits {writes : List Bytes} (h : ∀ data ∈ writes, Fits k data)
    (clientSeqNum : Nat) :
    ∃ rs sent, Emitted c randomIV k clientSeqNum rs ∧
      rs.flatMap SealedRecord.plaintext = writes.flatten ∧
      sendAll c randomIV k clientSeqNum writes = some (sent, clientSeqNum + rs.length) ∧
      sent.flatten = rs.flatMap SealedRecord.bytes := by
  induction writes generalizing clientSeqNum with
  | nil => exact ⟨[], [], trivial, rfl, rfl, rfl⟩
  | cons data writes ih =>
    obtain ⟨first, hfirst, hplain, hbuilt⟩ :=
      buildTLSRecords_emits (c := c) (k := k) (h data (by simp)) clientSeqNum
    obtain ⟨rs, sent, hrs, hplains, hsent, hbytes⟩ :=
      ih (fun data hdata => h data (by simp [hdata])) (clientSeqNum + first.length)
    refine ⟨first ++ rs, first.flatMap SealedRecord.bytes :: sent, hfirst.append hrs, ?_, ?_, ?_⟩
    · rw [List.flatMap_append, hplain, hplains, List.flatten_cons]
    · rw [sendAll, hbuilt]
      show (sendAll c randomIV k (clientSeqNum + first.length) writes).bind _ = _
      rw [hsent, List.length_append, ← Nat.add_assoc]
      rfl
    · rw [List.flatten_cons, hbytes, List.flatMap_append]

end

/-- The writes are sent as records of at most 16384 bytes of plaintext each, whose headers
announce their bodies and whose sequence numbers are consecutive; and however the bytes
are cut on the way, the peer's `receive` returns what was written until the connection is
closed. -/
def RoundTrips (c : RecordCrypto) (randomIV : Nat → Vector UInt8 16) (k : RecordKeys)
    (seqNum : Nat) (writes : List Bytes) : Prop :=
  ∃ (rs : List SealedRecord) (sent : List Bytes),
    sendAll c randomIV k seqNum writes = some (sent, seqNum + rs.length) ∧
    sent.flatten = rs.flatMap SealedRecord.bytes ∧
    (∀ (i : Nat) (r : SealedRecord), rs[i]? = some r →
      encryptAndBuildTLSRecord c randomIV k r.plaintext (seqNum + i) = some r.bytes ∧
      r.plaintext.length ≤ 16384 ∧
      ∃ v1 v2 l1 l2, r.bytes = [0x17, v1, v2, l1, l2] ++ r.record.payload ∧
        be16 l1 l2 = r.record.payload.length) ∧
    ∀ chunks : List Bytes, chunks.flatten = sent.flatten →
      ∃ batches,
        receiveAll (decryptTLSRecord c k) { serverSeqNum := seqNum, socket := chunks } =
          (batches, .closed) ∧
        batches.flatten = writes.flatten

/-- **Round trip.** For all three ways of protecting records. -/
theorem writes_roundTrip (c : RecordCrypto) (randomIV : Nat → Vector UInt8 16) (k : RecordKeys)
    (seqNum : Nat) (writes : List Bytes) (h : ∀ data ∈ writes, Fits k data) :
    RoundTrips c randomIV k seqNum writes := by
  obtain ⟨rs, sent, hrs, hplain, hsent, hbytes⟩ :=
    sendAll_emits (c := c) (k := k) h seqNum
  refine ⟨rs, sent, hsent, hbytes, ?_, ?_⟩
  · intro i r hr
    obtain ⟨hseals, hlength⟩ := hrs.getElem? hr
    obtain ⟨v1, v2, l1, l2, hheader, hbody⟩ := r.wellFormed
    rw [r.type_eq] at hheader
    refine ⟨hseals.built, hlength, v1, v2, l1, l2, ?_, hbody⟩
    rw [SealedRecord.bytes, Record.bytes, hheader]
  · intro chunks hchunks
    have hcarries : Carries (decryptTLSRecord c k)
        { serverSeqNum := seqNum, socket := chunks } rs := by
      refine ⟨?_, hrs.opens⟩
      rw [List.nil_append, hchunks, hbytes]
    obtain ⟨batches, hall, hflatten⟩ := hcarries.receiveAll
    exact ⟨batches, hall, by rw [hflatten, hplain]⟩

theorem RecordCrypto.length_toy (algo : HmacAlgorithm) (_ _ : Bytes) :
    (List.replicate algo.length (0 : UInt8)).length = algo.length := List.length_replicate

/-- Primitives that hide nothing. -/
def RecordCrypto.toy : RecordCrypto where
  aesGcm := Lib.Aead.toy
  chaCha20Poly1305 := Lib.Aead.toy
  aesCbc := Lib.Cbc.toy
  hmac algo _ _ := List.replicate algo.length 0
  length_hmac := RecordCrypto.length_toy

theorem keys13_iv_length : 0x0304 ≤ 0x0304 ∨ TlsCipherSuite.isChaCha20 0x1301 = true →
    (List.replicate 12 (0 : UInt8)).length = 12 := fun _ => rfl

theorem keys13_suite_known : 0x0304 ≤ 0x0304 ∨ TlsCipherSuite.isAEAD 0x1301 = true ∨
    0x1301 ∈ TlsCipherSuite.cbcSuites := Or.inl (le_refl _)

/-- A TLS 1.3 connection. -/
def keys13 : RecordKeys where
  key := List.replicate 16 0
  iv := List.replicate 12 0
  macKey := []
  cipherSuite := 0x1301
  tlsVersion := 0x0304
  iv_length := keys13_iv_length
  suite_known := keys13_suite_known

/-- A TLS 1.2 connection with `TLS_ECDHE_RSA_WITH_AES_128_CBC_SHA`. -/
def keysCBC : RecordKeys where
  key := List.replicate 16 0
  iv := List.replicate 16 0
  macKey := List.replicate 20 0
  cipherSuite := 0xC013
  tlsVersion := 0x0303
  iv_length := by decide
  suite_known := Or.inr (Or.inr (by decide))

/-- Three writes, one of them empty, behind the Finished message of TLS 1.2. -/
theorem writes_roundTrip_cbc :
    (∀ data ∈ [[1, 2, 3], [], [4]], Fits keysCBC data) ∧
      RoundTrips RecordCrypto.toy (fun _ => Vector.replicate 16 0) keysCBC 1
        [[1, 2, 3], [], [4]] := by
  have hfits : ∀ data ∈ ([[1, 2, 3], [], [4]] : List Bytes), Fits keysCBC data := by
    have hshort : ∀ data ∈ ([[1, 2, 3], [], [4]] : List Bytes),
        data.length ≤ maxRecordPlaintext := by
      decide
    exact fun data hdata => Or.inl (hshort data hdata)
  exact ⟨hfits, writes_roundTrip _ _ _ _ _ hfits⟩

/-- 131071 full records: the array for them would have more than 2³¹ − 1 bytes. -/
theorem buildTLSRecords_throws (c : RecordCrypto) (randomIV : Nat → Vector UInt8 16)
    (h : data.length = 2147467264) (seqNum : Nat) :
    buildTLSRecords c randomIV keys13 data seqNum = none := by
  have hsize : int32 (2147467264 + int32 ((int32 (int32 (2147467264 + maxRecordPlaintext) - 1)).tdiv
      maxRecordPlaintext * maxOverheadPerRecord keys13)) < 0 := by
    decide
  rw [buildTLSRecords, if_neg (by rw [h]; decide)]
  dsimp only
  rw [h]
  exact if_pos hsize

/-- A write of two gigabytes is not sent. -/
theorem large_write_not_sent :
    ¬ RoundTrips RecordCrypto.toy (fun _ => Vector.replicate 16 0) keys13 0
      [List.replicate 2147467264 0] := by
  rintro ⟨rs, sent, hsent, -⟩
  rw [sendAll, buildTLSRecords_throws _ _ List.length_replicate] at hsent
  cases hsent

end Anywhere.Tls
