import Anywhere.Tls.BuiltHello

/-!
# Anywhere — the record of a built ClientHello

The message that `assembleClientHello` puts around the extensions of a fingerprint, its record,
and what the sniffer reads in it.

* `built_hello_wellFormed` — all of it, for every fingerprint.
-/

namespace Anywhere.Tls.TlsClientHelloBuilder

open Lib Format List

-- ----
-- The message

section Message

variable (random sessionId cipherSuites extensions : Bytes) (applyBoringPadding : Bool)

def helloBody : Bytes :=
  ([0x03, 0x03] ++ random) ++ ((UInt8.ofNat sessionId.length :: sessionId) ++
    ((u16 cipherSuites.length ++ cipherSuites) ++
      ([0x01, 0x00] ++ (u16 extensions.length ++ extensions))))

def unpaddedLength : Nat :=
  13 + random.length + sessionId.length + cipherSuites.length + extensions.length

theorem length_helloBody : (helloBody random sessionId cipherSuites extensions).length + 4 =
    unpaddedLength random sessionId cipherSuites extensions := by
  simp only [helloBody, unpaddedLength, length_append, length_cons, length_nil,
    length_u16]
  omega

def helloMessage : Bytes :=
  let body := helloBody random sessionId cipherSuites extensions
  [0x01] ++ (lengthField 3 body.length ++ body)

theorem length_helloMessage : (helloMessage random sessionId cipherSuites extensions).length =
    unpaddedLength random sessionId cipherSuites extensions := by
  rw [helloMessage, ← length_helloBody, length_append, length_append, length_lengthField,
    length_singleton]
  omega

/-- The builder makes the message, with the padding behind the extensions. -/
theorem assemble_eq : assembleClientHello random sessionId cipherSuites extensions
      applyBoringPadding =
    helloMessage random sessionId cipherSuites (padExtensions applyBoringPadding
      (unpaddedLength random sessionId cipherSuites extensions) extensions) := by
  have hfront : ∀ exts : Bytes, [0x01] ++ [0x00, 0x00, 0x00] ++ [0x03, 0x03] ++ random ++
      [UInt8.ofNat sessionId.length] ++ sessionId ++ u16 cipherSuites.length ++ cipherSuites ++
        [0x01] ++ [0x00] ++ u16 exts.length ++ exts =
      0x01 :: 0x00 :: 0x00 :: 0x00 :: helloBody random sessionId cipherSuites exts := by
    intro exts
    simp only [helloBody, append_assoc, cons_append, nil_append]
  have hunpadded : ([0x01] ++ [0x00, 0x00, 0x00] ++ [0x03, 0x03] ++ random ++
      [UInt8.ofNat sessionId.length] ++ sessionId ++ u16 cipherSuites.length ++ cipherSuites ++
        [0x01] ++ [0x00]).length + 2 + extensions.length =
      unpaddedLength random sessionId cipherSuites extensions := by
    simp only [unpaddedLength, length_append, length_cons, length_nil, length_u16]
    omega
  rw [assembleClientHello, hunpadded, hfront, helloMessage]
  generalize helloBody random sessionId cipherSuites (padExtensions applyBoringPadding
    (unpaddedLength random sessionId cipherSuites extensions) extensions) = body
  show 0x01 :: UInt8.ofNat ((body.length + 4 - 4) / 65536) ::
    UInt8.ofNat ((body.length + 4 - 4) / 256) :: UInt8.ofNat (body.length + 4 - 4) :: body = _
  rw [Nat.add_sub_cancel, show (65536 : Nat) = 256 * 256 from rfl, ← Nat.div_div_eq_div_mul]
  rfl

/-- The padding fills a message of 256 to 508 bytes up to 512. -/
theorem padExtensions_cases (n : Nat) :
    (padExtensions applyBoringPadding n extensions = extensions ∧
        (applyBoringPadding = true → n < 256 ∨ 508 < n)) ∨
      ∃ padLen, padExtensions applyBoringPadding n extensions = extensions ++ paddingExt padLen ∧
        n + 4 + padLen = 512 := by
  cases applyBoringPadding with
  | false => exact .inl ⟨rfl, nofun⟩
  | true =>
    simp only [padExtensions, boringPaddingDataLength, if_true]
    split_ifs with hsize hroom
    · exact .inl ⟨rfl, fun _ => by omega⟩
    · exact .inr ⟨_, rfl, by omega⟩
    · exact .inl ⟨rfl, fun _ => by omega⟩

theorem length_paddingExt (length : Nat) : (paddingExt length).length = 4 + length := by
  rw [paddingExt, length_ext, length_replicate]

end Message

section Padded

variable {publicKey : Bytes} {serverName : Text} {exts : List Bytes}

theorem Good.padded (h : Good publicKey serverName exts) (hpadding : 0x0015 ∉ exts.map typeOf)
    (length : Nat) : Good publicKey serverName (exts ++ [paddingExt length]) := by
  have htype : typeOf (paddingExt length) = 0x0015 := typeOf_ext (by norm_num) _
  refine ⟨?_, ?_, ?_⟩
  · intro e he
    rcases mem_append.mp he with he | he
    · exact h.ok e he
    · rw [mem_singleton.mp he, htype]
      exact ok_padding length
  · rw [map_append, map_singleton, htype]
    refine nodup_append.mpr ⟨h.nodup, nodup_singleton _, ?_⟩
    rintro type hmem value hvalue rfl
    exact hpadding (mem_singleton.mp hvalue ▸ hmem)
  · rw [map_append]
    exact mem_append_left _ h.name

theorem exists_extensions (h : ∀ e ∈ exts, Ok publicKey serverName (typeOf e) e) :
    ∃ extensions : List Extension, exts = extensions.map Extension.bytes ∧
      exts.map typeOf = extensions.map Extension.type ∧
      ∀ e ∈ extensions, e.Ok publicKey serverName := by
  induction exts with
  | nil => exact ⟨[], rfl, rfl, by simp⟩
  | cons e exts ih =>
    obtain ⟨hone, hrest⟩ := forall_mem_cons.mp h
    obtain ⟨extensions, rfl, htypes, hok⟩ := ih hrest
    obtain ⟨payload, hbytes, hextension⟩ := hone
    refine ⟨⟨typeOf e, payload⟩ :: extensions, ?_, ?_, forall_mem_cons.mpr ⟨hextension, hok⟩⟩
    · rw [map_cons, Extension.bytes, ← hbytes]
    · rw [map_cons, map_cons, htypes]

end Padded

-- ----
-- The record

section Record

variable {publicKey : Bytes} {serverName : Text}

/-- An extension that is as TLS says, and fits, is so on the wire. -/
theorem Extension.Ok.format {e : Extension} (h : e.Ok publicKey serverName)
    (hfits : e.payload.length < 65536) : extensionFormat e e.bytes := by
  have hbytes : e.bytes = lengthField 2 e.type ++ (lengthField 2 e.payload.length ++ e.payload) :=
    append_assoc ..
  rw [hbytes]
  exact seq_intro rfl (vec_intro (a := e.payload) hfits ⟨rfl, h.payload hfits⟩)

theorem payload_length_le {extensions : List Extension} {e : Extension} (h : e ∈ extensions) :
    e.payload.length + 4 ≤ (extensions.flatMap Extension.bytes).length := by
  have hle : e.bytes.length ≤ (extensions.flatMap Extension.bytes).length :=
    (sublist_flatten_of_mem (mem_map_of_mem h)).length_le
  rw [Extension.bytes, length_ext] at hle
  omega

/-- Every length field of the record counts what is behind it. -/
theorem record_format {random sessionId : Bytes} {suites : List Nat} {extensions : List Extension}
    (hsession : sessionId.length ≤ 32) (hok : ∀ e ∈ extensions, e.Ok publicKey serverName)
    (hfits : unpaddedLength random sessionId (cipherSuitesData suites)
      (extensions.flatMap Extension.bytes) < 65536) :
    helloRecord random sessionId (cipherSuitesData suites) extensions
      (wrapInTLSRecord (helloMessage random sessionId (cipherSuitesData suites)
        (extensions.flatMap Extension.bytes))) := by
  have hmessage := length_helloMessage random sessionId (cipherSuitesData suites)
    (extensions.flatMap Extension.bytes)
  have hbody := length_helloBody random sessionId (cipherSuitesData suites)
    (extensions.flatMap Extension.bytes)
  rw [unpaddedLength] at hfits hmessage hbody
  refine seq_intro (a := [0x16, 0x03, 0x01]) rfl (vec_intro (by omega) (seq_intro rfl
    (vec_intro (by omega) ?_)))
  refine seq_intro rfl (seq_intro (vec_intro (a := sessionId) (by omega) rfl)
    (seq_intro (vec_intro (by omega) ⟨rfl, many_flatMap fun value _ => length_u16 value⟩)
      (seq_intro (a := [0x01, 0x00]) (vec_intro (a := [0x00]) (by decide) rfl)
        (vec_intro (by omega) (each_map fun e he => (hok e he).format ?_)))))
  have hpayload := payload_length_le he
  omega

end Record

-- ----
-- What the sniffer reads

section Sniffed

open TlsClientHelloSniffer

theorem readU16_u16 {n : Nat} (h : n < 65536) (rest : Bytes) :
    readU16 (u16 n ++ rest) = some (n, rest) :=
  readU16_lengthField h rest

variable (lowercase : Text → Text) {serverName : Text}

theorem utf8_ne_nil (h : serverName ≠ []) : utf8 serverName ≠ [] := by
  obtain ⟨c, text, rfl⟩ := exists_cons_of_ne_nil h
  rw [utf8, flatMap_cons]
  exact append_ne_nil_of_left_ne_nil (String.utf8EncodeChar_ne_nil) _

theorem parseServerNameList_sniPayload (hname : serverName ≠ [])
    (hfits : (utf8 serverName).length + 3 < 65536) :
    parseServerNameList lowercase (sniPayload serverName) = some (lowercase serverName) := by
  have hpos : 0 < (utf8 serverName).length := length_pos_iff.mpr (utf8_ne_nil hname)
  have hpayload : sniPayload serverName = u16 ((utf8 serverName).length + 3) ++
      (0x00 :: UInt8.ofNat ((utf8 serverName).length / 256) ::
        UInt8.ofNat (utf8 serverName).length :: utf8 serverName) := by
    rw [sniPayload, append_assoc, append_assoc]
    rfl
  have hvalue := bytes16_value (n := (utf8 serverName).length) (by omega)
  rw [hpayload, parseServerNameList, readU16_u16 hfits]
  simp only [length_cons, Nat.lt_irrefl, if_false, Nat.sub_self]
  rw [parseNames, if_pos (by simp)]
  simp only [hvalue, Nat.add_zero, Nat.lt_irrefl, if_false, true_and, take_length]
  rw [if_pos hpos, utf8, decodeUtf8_encode]

/-- The sniffer finds the server name. -/
theorem parseExtensions_flatMap (hname : serverName ≠ []) {extensions : List Extension}
    (hlt : ∀ e ∈ extensions, e.type < 65536 ∧ e.payload.length < 65536)
    (hsni : ∀ e ∈ extensions, e.type = 0x0000 → e.payload = sniPayload serverName)
    (hmem : 0x0000 ∈ extensions.map Extension.type) :
    parseExtensions lowercase (extensions.flatMap Extension.bytes) =
      .found (lowercase serverName) := by
  induction extensions with
  | nil => cases hmem
  | cons e extensions ih =>
    obtain ⟨⟨htype, hlen⟩, hrest⟩ := forall_mem_cons.mp hlt
    have htypeValue := bytes16_value htype
    have hlenValue := bytes16_value hlen
    have hbytes : (e :: extensions).flatMap Extension.bytes = UInt8.ofNat (e.type / 256) ::
        UInt8.ofNat e.type :: UInt8.ofNat (e.payload.length / 256) ::
          UInt8.ofNat e.payload.length :: (e.payload ++ extensions.flatMap Extension.bytes) := by
      rw [flatMap_cons, Extension.bytes, ext, append_assoc, append_assoc]
      rfl
    rw [hbytes, parseExtensions]
    simp only [htypeValue, hlenValue, length_append, take_left, drop_left]
    rw [if_neg (by omega)]
    split
    · rename_i hzero
      have hpayload := (forall_mem_cons.mp hsni).1 hzero
      rw [hpayload] at hlen ⊢
      rw [parseServerNameList_sniPayload lowercase hname]
      simp only [sniPayload, length_append, length_u16, length_singleton] at hlen
      omega
    · rename_i hother
      refine ih hrest (forall_mem_cons.mp hsni).2 ?_
      rw [map_cons, mem_cons] at hmem
      exact hmem.resolve_left (Ne.symm hother)

variable {random sessionId cipherSuites extensions : Bytes}

theorem helloExtensions_helloBody (hrandom : random.length = 32) (hsession : sessionId.length ≤ 32)
    (hfits : unpaddedLength random sessionId cipherSuites extensions < 65536) :
    helloExtensions (helloBody random sessionId cipherSuites extensions) = some extensions := by
  rw [unpaddedLength] at hfits
  have hskip : TlsClientHelloSniffer.skip (2 + 32)
      (helloBody random sessionId cipherSuites extensions) = some _ :=
    skip_append (by rw [length_append, hrandom]; rfl)
  have hcompression : readU8 ([0x01, 0x00] ++ (u16 extensions.length ++ extensions)) =
    some (1, [0x00] ++ (u16 extensions.length ++ extensions)) := rfl
  rw [helloExtensions, hskip, Option.bind_eq_bind, Option.bind_some, cons_append,
    readU8_ofNat (by omega)]
  simp only [Option.bind_eq_bind, Option.bind_some, skip_append rfl]
  rw [append_assoc, readU16_u16 (by omega)]
  simp only [Option.bind_some, skip_append rfl, hcompression]
  rw [skip_append (n := 1) (a := [0x00]) rfl]
  simp only [Option.bind_some]
  rw [readU16_u16 (by omega)]
  simp only [Option.bind_some, Nat.lt_irrefl, if_false, take_length]

theorem parse_record {message : Bytes} (hpos : 0 < message.length)
    (hfits : message.length ≤ 16384) :
    parse lowercase (wrapInTLSRecord message) = parseHandshake lowercase message := by
  have hvalue := bytes16_value (n := message.length) (by omega)
  rw [show wrapInTLSRecord message = 0x16 :: 0x03 :: 0x01 :: UInt8.ofNat (message.length / 256) ::
    UInt8.ofNat message.length :: message from rfl, parse]
  simp only [hvalue, ne_eq, not_true, if_false, Nat.lt_irrefl, take_length]
  rw [if_neg (by omega)]

theorem parse_part {message part rest : Bytes} (hpos : 0 < message.length)
    (hfits : message.length ≤ 16384) (hsplit : wrapInTLSRecord message = part ++ rest)
    (hrest : rest ≠ []) : parse lowercase part = .needMore := by
  have hvalue := bytes16_value (n := message.length) (by omega)
  have hbytes : wrapInTLSRecord message = 0x16 :: 0x03 :: 0x01 ::
    UInt8.ofNat (message.length / 256) :: UInt8.ofNat message.length :: message := rfl
  rw [hbytes] at hsplit
  rcases part with _ | ⟨a, _ | ⟨b, _ | ⟨c, _ | ⟨d, _ | ⟨e, part⟩⟩⟩⟩⟩
  iterate 5 rfl
  simp only [cons_append, List.cons.injEq] at hsplit
  obtain ⟨rfl, -, -, rfl, rfl, hmessage⟩ := hsplit
  have hlen := congrArg List.length hmessage
  have hmore : 0 < rest.length := length_pos_iff.mpr hrest
  rw [length_append] at hlen
  rw [parse]
  simp only [hvalue, ne_eq, not_true, if_false]
  rw [if_neg (by omega), if_pos (by omega)]

/-- What the sniffer finds in a record, from the extensions of its message. -/
theorem feedAll_record (hrandom : random.length = 32) (hsession : sessionId.length ≤ 32)
    {chunks : List Bytes}
    (hfits : (wrapInTLSRecord (helloMessage random sessionId cipherSuites extensions)).length ≤
      tlsSnifferBufferLimit)
    (hchunks : chunks.flatten =
      wrapInTLSRecord (helloMessage random sessionId cipherSuites extensions)) :
    (feedAll lowercase tlsSnifferBufferLimit chunks).state =
      parseExtensions lowercase extensions := by
  have hmessage := length_helloMessage random sessionId cipherSuites extensions
  have hbody := length_helloBody random sessionId cipherSuites extensions
  have hrecord : (wrapInTLSRecord (helloMessage random sessionId cipherSuites extensions)).length =
      5 + (helloMessage random sessionId cipherSuites extensions).length := by
    simp only [wrapInTLSRecord, length_append, length_u16, length_singleton]
  have hlimit : tlsSnifferBufferLimit = 8192 := rfl
  have hlen : unpaddedLength random sessionId cipherSuites extensions ≤ 8187 := by omega
  have hpos : 0 < unpaddedLength random sessionId cipherSuites extensions := by
    rw [unpaddedLength]
    omega
  rw [feed_chunks rfl hfits
      (fun part rest => parse_part lowercase (by omega) (by omega)) chunks hchunks,
    parse_record lowercase (by omega) (by omega), helloMessage]
  show parseHandshake lowercase (0x01 :: (lengthField 3 _ ++ _)) = _
  rw [parseHandshake, readU8]
  simp only [UInt8.reduceToNat, ne_eq, not_true, if_false]
  rw [readU24_lengthField (by omega)]
  simp only [Nat.lt_irrefl, if_false, take_length]
  rw [parseClientHello, helloExtensions_helloBody hrandom hsession (by omega)]

end Sniffed

-- ----
-- Every fingerprint

section Built

variable {publicKey : Bytes} {serverName : Text}

/-- The padding is one more extension, and fills the message up. -/
theorem concatenate_padded {exts : List Bytes} (needsPadding : Bool) (n : Nat)
    (h : Good publicKey serverName exts) (hpadding : 0x0015 ∉ exts.map typeOf) :
    ∃ padded, padExtensions needsPadding n (concatenateArrays exts) = concatenateArrays padded ∧
      Good publicKey serverName padded ∧
      let length := n + (concatenateArrays padded).length - (concatenateArrays exts).length
      (needsPadding = true → (length < 256 ∨ 508 < length) ∧
        (0x0015 ∈ padded.map typeOf → length = 512)) := by
  rcases padExtensions_cases (concatenateArrays exts) needsPadding n with
    ⟨hsame, hsize⟩ | ⟨padLen, hpadded, hsize⟩
  · refine ⟨exts, hsame, h, fun hneeds => ⟨?_, fun hmem => absurd hmem hpadding⟩⟩
    have hbounds := hsize hneeds
    omega
  · refine ⟨exts ++ [paddingExt padLen], ?_, h.padded hpadding padLen, fun _ => ?_⟩
    · rw [hpadded, concatenateArrays, concatenateArrays, flatten_append, flatten_singleton]
    · rw [concatenateArrays, concatenateArrays, flatten_append, flatten_singleton,
        length_append, length_paddingExt]
      omega

/-- A message as TLS says, with these extensions. -/
structure WellFormed (publicKey random sessionId : Bytes) (parts : FingerprintParts)
    (message : Bytes) (extensions : List Extension) : Prop where
  /-- Every length field counts what is behind it. -/
  record : helloRecord random sessionId parts.cipherSuites extensions (wrapInTLSRecord message)
  type_lt : ∀ e ∈ extensions, e.type < 65536
  nodup : (extensions.map Extension.type).Nodup
  share : ∀ e ∈ extensions, e.type = 0x0033 →
    ∃ shares, OneX25519 publicKey shares ∧ keyShares shares e.payload
  padded : parts.needsPadding = true → (message.length < 256 ∨ 508 < message.length) ∧
    (0x0015 ∈ extensions.map Extension.type → message.length = 512)

/-- The message of good parts, if its record stays within the limit of the sniffer. -/
theorem GoodParts.wellFormed {parts : FingerprintParts} (h : GoodParts publicKey serverName parts)
    (lowercase : Text → Text) {random sessionId : Bytes} (hrandom : random.length = 32)
    (hsession : sessionId.length ≤ 32) (hname : serverName ≠ []) :
    let message := assembleClientHello random sessionId parts.cipherSuites parts.extensions
      parts.needsPadding
    (wrapInTLSRecord message).length ≤ TlsClientHelloSniffer.tlsSnifferBufferLimit →
      ∃ extensions, WellFormed publicKey random sessionId parts message extensions ∧
        ∀ chunks, chunks.flatten = wrapInTLSRecord message →
          (TlsClientHelloSniffer.feedAll lowercase TlsClientHelloSniffer.tlsSnifferBufferLimit
            chunks).state = .found (lowercase serverName) := by
  obtain ⟨cipherSuites, rawExtensions, needsPadding⟩ := parts
  obtain ⟨exts, suites, hexts, hsuites, hgood, hpadding⟩ := h
  dsimp only at hexts hsuites
  subst hexts hsuites
  obtain ⟨padded, hpadded, hgood, hsize⟩ := concatenate_padded needsPadding
    (unpaddedLength random sessionId (cipherSuitesData suites) (concatenateArrays exts)) hgood
    hpadding
  obtain ⟨extensions, rfl, htypes, hok⟩ := exists_extensions hgood.ok
  have hbytes : concatenateArrays (extensions.map Extension.bytes) =
      extensions.flatMap Extension.bytes := flatMap_def.symm
  intro message hlimit
  have hmessage : message = helloMessage random sessionId (cipherSuitesData suites)
      (extensions.flatMap Extension.bytes) := by
    show assembleClientHello _ _ _ _ _ = _
    rw [assemble_eq, hpadded, hbytes]
  have hlength := length_helloMessage random sessionId (cipherSuitesData suites)
    (extensions.flatMap Extension.bytes)
  have hrecord : (wrapInTLSRecord message).length = 5 + message.length := by
    simp only [wrapInTLSRecord, length_append, length_u16, length_singleton]
  rw [← hmessage] at hlength
  have hbound : TlsClientHelloSniffer.tlsSnifferBufferLimit = 8192 := rfl
  have hfits : ∀ e ∈ extensions, e.payload.length < 65536 := by
    intro e he
    have hpayload := payload_length_le he
    rw [unpaddedLength] at hlength
    omega
  refine ⟨extensions, ⟨?_, fun e he => (hok e he).type_lt, htypes ▸ hgood.nodup, ?_, ?_⟩, ?_⟩
  · rw [hmessage]
    exact record_format hsession hok (by omega)
  · intro e he hshare
    obtain ⟨shares, hone, hformat⟩ := (hok e he).share hshare
    exact ⟨shares, hone, hformat (hfits e he)⟩
  · intro hneeds
    have hwhole := hsize hneeds
    rw [hbytes, htypes] at hwhole
    have heq : message.length = unpaddedLength random sessionId (cipherSuitesData suites)
        (concatenateArrays exts) + (extensions.flatMap Extension.bytes).length -
          (concatenateArrays exts).length := by
      rw [hlength, unpaddedLength, unpaddedLength]
      omega
    rw [heq]
    exact hwhole
  · intro chunks hchunks
    rw [hmessage] at hlimit hchunks
    rw [feedAll_record lowercase hrandom hsession hlimit hchunks]
    exact parseExtensions_flatMap lowercase hname
      (fun e he => ⟨(hok e he).type_lt, hfits e he⟩) (fun e he => (hok e he).name)
      (htypes ▸ hgood.name)

theorem resolve_ne_random (random : Bytes) (fingerprint : TlsFingerprint) :
    resolve random fingerprint ≠ .random := by
  have hconcrete : ∀ other ∈ concreteFingerprints, other ≠ .random := by decide
  rw [resolve]
  split
  · have hlt : (random.getD 0 0).toNat % concreteFingerprints.length <
        concreteFingerprints.length := Nat.mod_lt _ (by decide)
    rw [getD_eq_getElem _ _ hlt]
    exact hconcrete _ (getElem_mem hlt)
  · assumption

/-- Every fingerprint gives a message as TLS says, and the sniffer finds the name in its record;
the shuffle only changes the order of what it may move. -/
theorem built_hello_wellFormed (platform : Platform) (lowercase : Text → Text)
    (fingerprint : TlsFingerprint) (random sessionId publicKey : Bytes) (serverName : Text)
    (alpn : Option (List Text)) (omitPQKeyShares : Bool) (mlkemEncapsulationKey : Option Bytes)
    (hrandom : random.length = 32) (hsession : sessionId.length ≤ 32) (hname : serverName ≠ [])
    (halpn : ∀ protocols, alpn = some protocols → ∀ proto ∈ protocols, (utf8 proto).length ≤ 255) :
    (∃ parts message,
      buildFingerprintedParts platform random serverName publicKey alpn omitPQKeyShares
        mlkemEncapsulationKey (resolve random fingerprint) = some parts ∧
      buildRawClientHello platform random serverName publicKey alpn omitPQKeyShares
        mlkemEncapsulationKey fingerprint sessionId = some message ∧
      ((wrapInTLSRecord message).length ≤ TlsClientHelloSniffer.tlsSnifferBufferLimit →
        ∃ extensions, WellFormed publicKey random sessionId parts message extensions ∧
          ∀ chunks, chunks.flatten = wrapInTLSRecord message →
            (TlsClientHelloSniffer.feedAll lowercase TlsClientHelloSniffer.tlsSnifferBufferLimit
              chunks).state = .found (lowercase serverName))) ∧
    ∀ exts : List Bytes, (shuffleChromeExtensions exts random).Perm exts ∧
      ∀ i, isFixed (exts.getD i []) = true → (shuffleChromeExtensions exts random)[i]? =
        exts[i]? := by
  have hfits : ∀ proto ∈ alpn.getD [h2, http11], (utf8 proto).length ≤ 255 := by
    cases alpn with
    | none => decide
    | some protocols => exact halpn protocols rfl
  refine ⟨?_, fun exts => ?_⟩
  · have hparts : ∃ parts, buildFingerprintedParts platform random serverName publicKey alpn
        omitPQKeyShares mlkemEncapsulationKey (resolve random fingerprint) = some parts ∧
          GoodParts publicKey serverName parts :=
      good_parts hfits (resolve_ne_random random fingerprint)
    obtain ⟨parts, hparts, hgood⟩ := hparts
    refine ⟨parts, _, hparts, by rw [buildRawClientHello, hparts, Option.map_some], ?_⟩
    exact hgood.wellFormed lowercase hrandom hsession hname
  · exact shuffle_spec exts random

/-- The hello of Chrome, fed in two parts: shuffled extensions, a post-quantum key share and
padding. -/
theorem built_hello_of_android :
    let platform : Platform :=
      ⟨fun _ => List.replicate 32 0, fun _ => length_replicate, fun _ => none⟩
    ∃ message,
      buildRawClientHello platform (List.replicate 32 1) ['a', '.', 'b'] (List.replicate 32 7) none
        false none .chrome133 [] = some message ∧
      (TlsClientHelloSniffer.feedAll id TlsClientHelloSniffer.tlsSnifferBufferLimit
        [(wrapInTLSRecord message).take 7, (wrapInTLSRecord message).drop 7]).state =
          .found ['a', '.', 'b'] := by
  intro platform
  obtain ⟨⟨parts, message, hparts, hmessage, hfits⟩, -⟩ := built_hello_wellFormed platform id
    .chrome133 (List.replicate 32 1) [] (List.replicate 32 7) ['a', '.', 'b'] none false none
    length_replicate (by decide) (by decide) nofun
  have hlimit : ∀ built ∈ buildRawClientHello platform (List.replicate 32 1) ['a', '.', 'b']
      (List.replicate 32 7) none false none .chrome133 [],
      (wrapInTLSRecord built).length ≤ TlsClientHelloSniffer.tlsSnifferBufferLimit := by
    rintro built ⟨⟩
    decide +kernel
  obtain ⟨extensions, -, hfound⟩ := hfits (hlimit message hmessage)
  exact ⟨message, hmessage, hfound _ (by simp)⟩

end Built

end Anywhere.Tls.TlsClientHelloBuilder
