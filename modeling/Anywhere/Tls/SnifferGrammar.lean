import Anywhere.Tls.SnifferCursor

/-!
# Anywhere — what `TlsClientHelloSniffer` finds

The grammar of the byte strings in which a server name is found: a record that is complete, in
it a ClientHello whose vectors fit into the ones around them, up to the first server name
extension and the first host name in it. What is behind these places is of no account.

* `sniffing_exact` — both, of the sniffer that reads its buffer.
-/

namespace Anywhere.Tls.TlsClientHelloSniffer

open Lib Format List

-- ----
-- The grammar

def HostName (host : Bytes) : Format := fun wire =>
  host ≠ [] ∧ Seq (Is [0x00]) (Vec 2 (Is host)) wire

/-- A name of another type, or an empty one. -/
def OtherName : Format := fun wire =>
  ∃ nameType name, (nameType ≠ 0x00 ∨ name = []) ∧ Seq (Is [nameType]) (Vec 2 (Is name)) wire

def NameList (host : Bytes) : Format := Seq (Many OtherName) (Seq (HostName host) Any)

def ServerName (host : Bytes) : Format := Seq (Vec 2 (NameList host)) Any

def OfType (extType : Nat) (p : Format) : Format := Seq (Is (lengthField 2 extType)) (Vec 2 p)

def OtherExtension : Format := fun wire =>
  ∃ extType, extType ≠ 0x0000 ∧ extType < 65536 ∧ OfType extType Any wire

def ExtensionList (host : Bytes) : Format :=
  Seq (Many OtherExtension) (Seq (OfType 0x0000 (ServerName host)) Any)

/-- Version and random, session id, cipher suites, compression methods and extensions. -/
def HelloWith (p : Format) : Format :=
  Seq (Exactly (2 + 32)) (Seq (Vec 1 Any) (Seq (Vec 2 Any) (Seq (Vec 1 Any) (Seq (Vec 2 p) Any))))

def Handshake (host : Bytes) : Format :=
  Seq (Is [0x01]) (Seq (Vec 3 (HelloWith (ExtensionList host))) Any)

/-- A record of this protocol's size. -/
def Fragment (p : Format) : Format :=
  Vec 2 fun fragment => 0 < fragment.length ∧ fragment.length ≤ 16384 ∧ p fragment

def Naming (host : Bytes) : Format :=
  Seq (Is [0x16]) (Seq (Exactly 2) (Seq (Fragment (Handshake host)) Any))

-- ----
-- The readers

section Readers

variable {p q : Format} {bytes rest : Bytes} {n : Nat}

theorem readU8_exact (h : readU8 bytes = some (n, rest)) :
    n < 256 ∧ bytes = lengthField 1 n ++ rest := by
  rcases bytes with _ | ⟨a, bytes⟩
  · cases h
  · obtain ⟨rfl, rfl⟩ := Prod.mk.inj (Option.some.inj h)
    exact ⟨a.toNat_lt, by simp [lengthField]⟩

theorem readU16_exact (h : readU16 bytes = some (n, rest)) :
    n < 65536 ∧ bytes = lengthField 2 n ++ rest := by
  rcases bytes with _ | ⟨a, _ | ⟨b, bytes⟩⟩
  · cases h
  · cases h
  · obtain ⟨rfl, rfl⟩ := Prod.mk.inj (Option.some.inj h)
    have ha := a.toNat_lt
    have hb := b.toNat_lt
    refine ⟨by omega, ?_⟩
    have hhi : UInt8.ofNat ((a.toNat * 256 + b.toNat) / 256) = a := by
      rw [show (a.toNat * 256 + b.toNat) / 256 = a.toNat by omega, UInt8.ofNat_toNat]
    have hlo : UInt8.ofNat (a.toNat * 256 + b.toNat) = b := by
      rw [← UInt8.toNat_inj, UInt8.toNat_ofNat']
      omega
    simp only [lengthField, nil_append, cons_append, hhi, hlo]

theorem readU24_exact (h : readU24 bytes = some (n, rest)) :
    n < 256 ^ 3 ∧ bytes = lengthField 3 n ++ rest := by
  rcases bytes with _ | ⟨a, _ | ⟨b, _ | ⟨c, bytes⟩⟩⟩
  · cases h
  · cases h
  · cases h
  · obtain ⟨rfl, rfl⟩ := Prod.mk.inj (Option.some.inj h)
    have ha := a.toNat_lt
    have hb := b.toNat_lt
    have hc := c.toNat_lt
    refine ⟨by omega, ?_⟩
    have hhi : UInt8.ofNat ((a.toNat * 65536 + b.toNat * 256 + c.toNat) / 256 / 256) = a := by
      rw [show (a.toNat * 65536 + b.toNat * 256 + c.toNat) / 256 / 256 = a.toNat by omega,
        UInt8.ofNat_toNat]
    have hmid : UInt8.ofNat ((a.toNat * 65536 + b.toNat * 256 + c.toNat) / 256) = b := by
      rw [← UInt8.toNat_inj, UInt8.toNat_ofNat']
      omega
    have hlo : UInt8.ofNat (a.toNat * 65536 + b.toNat * 256 + c.toNat) = c := by
      rw [← UInt8.toNat_inj, UInt8.toNat_ofNat']
      omega
    simp only [lengthField, nil_append, cons_append, hhi, hmid, hlo]

theorem readU8_lengthField {n : Nat} (h : n < 256) (rest : Bytes) :
    readU8 (lengthField 1 n ++ rest) = some (n, rest) :=
  readU8_ofNat h rest

structure LengthReader (width : Nat) (read : Bytes → Option (Nat × Bytes)) : Prop where
  field : ∀ {n}, n < 256 ^ width → ∀ rest, read (lengthField width n ++ rest) = some (n, rest)
  exact : ∀ {bytes n rest}, read bytes = some (n, rest) →
    n < 256 ^ width ∧ bytes = lengthField width n ++ rest

theorem lengthReader_U8 : LengthReader 1 readU8 := ⟨readU8_lengthField, readU8_exact⟩

theorem lengthReader_U16 : LengthReader 2 readU16 := ⟨readU16_lengthField, readU16_exact⟩

theorem lengthReader_U24 : LengthReader 3 readU24 := ⟨readU24_lengthField, readU24_exact⟩

theorem LengthReader.vec_iff {width : Nat} {read : Bytes → Option (Nat × Bytes)}
    (h : LengthReader width read) :
    Seq (Vec width p) q bytes ↔ ∃ n rest, read bytes = some (n, rest) ∧ ¬ rest.length < n ∧
      p (rest.take n) ∧ q (rest.drop n) := by
  constructor
  · rintro ⟨vector, after, rfl, ⟨body, hfits, rfl, hbody⟩, hafter⟩
    refine ⟨body.length, body ++ after, ?_, ?_, ?_, ?_⟩
    · rw [append_assoc, h.field hfits]
    · rw [length_append]
      omega
    · rwa [take_left]
    · rwa [drop_left]
  · rintro ⟨n, rest, hread, hlen, hbody, hafter⟩
    obtain ⟨hfits, rfl⟩ := h.exact hread
    have htake : (rest.take n).length = n := by
      rw [length_take]
      omega
    refine ⟨lengthField width n ++ rest.take n, rest.drop n, ?_,
      ⟨rest.take n, ?_, ?_, hbody⟩, hafter⟩
    · rw [append_assoc, take_append_drop]
    · rwa [htake]
    · rw [htake]

theorem LengthReader.is_iff {width : Nat} {read : Bytes → Option (Nat × Bytes)}
    (h : LengthReader width read) (hfits : n < 256 ^ width) :
    Seq (Is (lengthField width n)) q bytes ↔ ∃ rest, read bytes = some (n, rest) ∧ q rest := by
  constructor
  · rintro ⟨field, rest, rfl, rfl, hrest⟩
    exact ⟨rest, h.field hfits rest, hrest⟩
  · rintro ⟨rest, hread, hrest⟩
    exact ⟨_, rest, (h.exact hread).2, rfl, hrest⟩

theorem skip_iff : Seq (Exactly n) q bytes ↔ ∃ rest, skip n bytes = some rest ∧ q rest := by
  constructor
  · rintro ⟨a, rest, rfl, ha, hrest⟩
    exact ⟨rest, skip_append ha, hrest⟩
  · rintro ⟨rest, hskip, hrest⟩
    rw [skip] at hskip
    split at hskip
    · cases hskip
    · cases hskip
      refine ⟨bytes.take n, bytes.drop n, (take_append_drop _ _).symm, ?_, hrest⟩
      rw [Exactly, length_take]
      omega

end Readers

-- ----
-- The layers

section Layers

variable {lowercase : Text → Text} {bytes : Bytes} {name : Text} {host : Bytes}

/-- What stands behind the end of a list of names is not read as a part of it. -/
theorem parseNames_beyond (lowercase : Text → Text) (list behind : Bytes) :
    parseNames lowercase behind.length (list ++ behind) = parseNames lowercase 0 list := by
  induction hlen : list.length using Nat.strong_induction_on generalizing list with
  | _ len ih =>
    rw [Indexed.parseNames_reads, Indexed.parseNames_reads]
    rcases list with _ | ⟨a, list⟩
    · rw [nil_append, if_neg (Nat.lt_irrefl behind.length)]
      exact (if_neg (Nat.lt_irrefl 0)).symm
    have hmore : (a :: list ++ behind).length > behind.length := by
      rw [length_append, length_cons]
      omega
    have hlist : (a :: list).length > 0 := Nat.succ_pos _
    rw [if_pos hmore, if_pos hlist]
    dsimp only [cons_append, readU8]
    rcases hread : readU16 list with _ | ⟨n, tail⟩
    · -- the header of this name reaches over the end
      rcases hover : readU16 (list ++ behind) with _ | ⟨n, tail⟩
      · rfl
      have hbytes := congrArg List.length (readU16_exact hover).2
      have hshort : list.length < 2 := by
        rcases list with _ | ⟨b, _ | ⟨c, list⟩⟩
        · exact Nat.zero_lt_two
        · exact Nat.one_lt_two
        · cases hread
      simp only [length_append, length_lengthField] at hbytes
      exact if_pos (by omega)
    · obtain ⟨hfits, rfl⟩ := readU16_exact hread
      rw [append_assoc, readU16_lengthField hfits]
      dsimp only
      by_cases hshort : tail.length < n
      · have hover : (tail ++ behind).length < n + behind.length := by
          rw [length_append]
          omega
        rw [if_pos hover, if_pos (by omega)]
      · have hover : ¬ (tail ++ behind).length < n + behind.length := by
          rw [length_append]
          omega
        have hinside : ¬ tail.length < n + 0 := hshort
        rw [if_neg hover, if_neg hinside, take_append_of_le_length (by omega),
          drop_append_of_le_length (by omega), ih _ _ (tail.drop n) rfl]
        rw [← hlen, length_cons, length_append, length_drop]
        omega

theorem nameList_nil : ¬ NameList host [] := by
  rintro ⟨parts, rest, hnil, -, ⟨_, _, rfl, ⟨-, ⟨_, _, rfl, rfl, -⟩⟩, -⟩⟩
  simp at hnil

theorem nameList_cons {a : UInt8} {rest : Bytes} : NameList host (a :: rest) ↔
    ∃ n tail, readU16 rest = some (n, tail) ∧ ¬ tail.length < n ∧
      ((a = 0x00 ∧ tail.take n ≠ [] ∧ tail.take n = host) ∨
        ((a ≠ 0x00 ∨ tail.take n = []) ∧ NameList host (tail.drop n))) := by
  have hentry : ∀ (nameType : UInt8) (p q : Format),
      Seq (Seq (Is [nameType]) (Vec 2 p)) q (a :: rest) ↔ a = nameType ∧ ∃ n tail,
        readU16 rest = some (n, tail) ∧ ¬ tail.length < n ∧ p (tail.take n) ∧ q (tail.drop n) := by
    intro nameType p q
    rw [seq_assoc, seq_is_cons, lengthReader_U16.vec_iff]
  rw [NameList, seq_many_iff]
  constructor
  · rintro (⟨_, more, heq, ⟨hne, hhost⟩, -⟩ |
      ⟨_, more, heq, ⟨nameType, name, hother, hname⟩, hmore⟩)
    · obtain ⟨ha, n, tail, hread, hlen, hhost, -⟩ :=
        (hentry 0x00 (Is host) Any).mp ⟨_, more, heq, hhost, trivial⟩
      refine ⟨n, tail, hread, hlen, .inl ⟨ha, ?_, hhost⟩⟩
      rwa [show tail.take n = host from hhost]
    · obtain ⟨ha, n, tail, hread, hlen, hname, hmore⟩ :=
        (hentry nameType (Is name) _).mp ⟨_, more, heq, hname, hmore⟩
      refine ⟨n, tail, hread, hlen, .inr ⟨?_, hmore⟩⟩
      rwa [ha, show tail.take n = name from hname]
  · rintro ⟨n, tail, hread, hlen, ⟨ha, hne, hhost⟩ | ⟨hother, hmore⟩⟩
    · obtain ⟨_, more, heq, hname, -⟩ :=
        (hentry 0x00 (Is host) Any).mpr ⟨ha, n, tail, hread, hlen, hhost, trivial⟩
      exact .inl ⟨_, more, heq, ⟨by rwa [← hhost], hname⟩, trivial⟩
    · obtain ⟨_, more, heq, hname, hmore⟩ :=
        (hentry a (Is (tail.take n)) _).mpr ⟨rfl, n, tail, hread, hlen, rfl, hmore⟩
      exact .inr ⟨_, more, heq, ⟨a, tail.take n, hother, hname⟩, hmore⟩

theorem parseNames_iff : parseNames lowercase 0 bytes = some name ↔
    ∃ host, NameList host bytes ∧ name = lowercase (decodeUtf8 host) := by
  induction hlen : bytes.length using Nat.strong_induction_on generalizing bytes with
  | _ len ih =>
    rw [Indexed.parseNames_reads]
    rcases bytes with _ | ⟨a, bytes⟩
    · rw [if_neg (show ¬ ([] : Bytes).length > 0 from Nat.lt_irrefl 0)]
      refine iff_of_false (by simp) ?_
      rintro ⟨_, hlist, _⟩
      exact nameList_nil hlist
    rw [if_pos (show (a :: bytes).length > 0 from Nat.succ_pos _)]
    simp only [readU8, nameList_cons]
    rcases hread : readU16 bytes with _ | ⟨n, tail⟩
    · refine iff_of_false (by simp) ?_
      rintro ⟨_, ⟨_, _, hsome, _⟩, _⟩
      cases hsome
    have hzero : a.toNat = 0 ↔ a = 0x00 := by rw [← UInt8.toNat_inj]; rfl
    have hsize : 0 < n → ¬ tail.length < n → tail.take n ≠ [] := by
      intro hpos hlen hnil
      have htake := congrArg List.length hnil
      rw [length_take, length_nil] at htake
      omega
    have hshorter : (tail.drop n).length < len := by
      have hbytes := congrArg List.length (readU16_exact hread).2
      rw [length_append, length_lengthField] at hbytes
      rw [← hlen, length_drop, length_cons]
      omega
    have hrest := ih _ hshorter rfl
    dsimp only
    by_cases hlong : tail.length < n + 0
    · rw [if_pos hlong]
      refine iff_of_false (by simp) ?_
      rintro ⟨_, ⟨_, _, heq, hfits, -⟩, -⟩
      cases heq
      exact hfits hlong
    rw [if_neg hlong]
    by_cases hhost : a.toNat = 0x00 ∧ n > 0
    · have hne := hsize hhost.2 hlong
      rw [if_pos hhost]
      constructor
      · intro hname
        exact ⟨tail.take n, ⟨n, tail, rfl, hlong, .inl ⟨hzero.mp hhost.1, hne, rfl⟩⟩,
          (Option.some.inj hname).symm⟩
      · rintro ⟨host, ⟨_, _, heq, -, ⟨-, -, rfl⟩ | ⟨hother, -⟩⟩, rfl⟩
        · cases heq
          rfl
        · cases heq
          exact absurd (hzero.mp hhost.1) (hother.resolve_right hne)
    · have hother : a ≠ 0x00 ∨ tail.take n = [] := by
        by_cases ha : a = 0x00
        · have hn : n = 0 := by
            by_contra hpos
            exact hhost ⟨hzero.mpr ha, Nat.pos_of_ne_zero hpos⟩
          exact .inr (by rw [hn, take_zero])
        · exact .inl ha
      rw [if_neg hhost, hrest]
      constructor
      · rintro ⟨host, hlist, hname⟩
        exact ⟨host, ⟨n, tail, rfl, hlong, .inr ⟨hother, hlist⟩⟩, hname⟩
      · rintro ⟨host, ⟨_, _, heq, -, ⟨ha, hne, -⟩ | ⟨-, hlist⟩⟩, hname⟩
        · cases heq
          exact absurd (hother.resolve_left (not_not_intro ha)) hne
        · cases heq
          exact ⟨host, hlist, hname⟩

theorem parseServerNameList_iff : parseServerNameList lowercase bytes = some name ↔
    ∃ host, ServerName host bytes ∧ name = lowercase (decodeUtf8 host) := by
  simp only [ServerName, lengthReader_U16.vec_iff]
  rw [parseServerNameList]
  rcases hread : readU16 bytes with _ | ⟨n, rest⟩
  · refine iff_of_false (by simp) ?_
    rintro ⟨_, ⟨_, _, hsome, _⟩, _⟩
    cases hsome
  dsimp only
  by_cases hlong : rest.length < n
  · rw [if_pos hlong]
    refine iff_of_false (by simp) ?_
    rintro ⟨_, ⟨_, _, heq, hfits, -⟩, -⟩
    cases heq
    exact hfits hlong
  · have hbeyond := parseNames_beyond lowercase (rest.take n) (rest.drop n)
    rw [take_append_drop, length_drop] at hbeyond
    rw [if_neg hlong, hbeyond, parseNames_iff]
    constructor
    · rintro ⟨host, hlist, hname⟩
      exact ⟨host, ⟨n, rest, rfl, hlong, hlist, trivial⟩, hname⟩
    · rintro ⟨host, ⟨_, _, heq, -, hlist, -⟩, hname⟩
      cases heq
      exact ⟨host, hlist, hname⟩

theorem extensionList_iff : ExtensionList host bytes ↔
    ∃ extType header n rest, readU16 bytes = some (extType, header) ∧
      readU16 header = some (n, rest) ∧ ¬ rest.length < n ∧
        ((extType = 0x0000 ∧ ServerName host (rest.take n)) ∨
          (extType ≠ 0x0000 ∧ ExtensionList host (rest.drop n))) := by
  have hentry : ∀ {extType : Nat} (p q : Format), extType < 65536 →
      (Seq (OfType extType p) q bytes ↔ ∃ header, readU16 bytes = some (extType, header) ∧
        ∃ n rest, readU16 header = some (n, rest) ∧ ¬ rest.length < n ∧ p (rest.take n) ∧
          q (rest.drop n)) := by
    intro extType p q hlt
    rw [OfType, seq_assoc, lengthReader_U16.is_iff hlt]
    simp only [lengthReader_U16.vec_iff]
  rw [ExtensionList, seq_many_iff]
  constructor
  · rintro (hname | ⟨_, more, heq, ⟨extType, hother, hlt, hext⟩, hmore⟩)
    · obtain ⟨header, htype, n, rest, hread, hlen, hname, -⟩ :=
        (hentry (ServerName host) Any (by norm_num)).mp hname
      exact ⟨0x0000, header, n, rest, htype, hread, hlen, .inl ⟨rfl, hname⟩⟩
    · obtain ⟨header, htype, n, rest, hread, hlen, -, hmore⟩ :=
        (hentry Any _ hlt).mp ⟨_, more, heq, hext, hmore⟩
      exact ⟨extType, header, n, rest, htype, hread, hlen, .inr ⟨hother, hmore⟩⟩
  · rintro ⟨extType, header, n, rest, htype, hread, hlen, ⟨rfl, hname⟩ | ⟨hother, hmore⟩⟩
    · exact .inl ((hentry (ServerName host) Any (by norm_num)).mpr
        ⟨header, htype, n, rest, hread, hlen, hname, trivial⟩)
    · have hlt := (readU16_exact htype).1
      obtain ⟨_, more, heq, hext, hmore⟩ :=
        (hentry Any _ hlt).mpr ⟨header, htype, n, rest, hread, hlen, trivial, hmore⟩
      exact .inr ⟨_, more, heq, ⟨extType, hother, hlt, hext⟩, hmore⟩

theorem found_iff {parsed : Option Text} : (match parsed with
    | some name => State.found name
    | none => State.unavailable) = .found name ↔ parsed = some name := by
  cases parsed with
  | none => simp
  | some other => rw [State.found.injEq, Option.some.injEq]

theorem parseExtensions_iff : parseExtensions lowercase bytes = .found name ↔
    ∃ host, ExtensionList host bytes ∧ name = lowercase (decodeUtf8 host) := by
  induction hlen : bytes.length using Nat.strong_induction_on generalizing bytes with
  | _ len ih =>
    rw [Indexed.parseExtensions_reads]
    have hunfold : ∀ host, ExtensionList host bytes ↔ _ := fun _ => extensionList_iff
    simp only [hunfold]
    rcases htype : readU16 bytes with _ | ⟨extType, header⟩
    · refine iff_of_false (by simp) ?_
      rintro ⟨_, ⟨_, _, _, _, hsome, _⟩, _⟩
      cases hsome
    dsimp only
    rcases hread : readU16 header with _ | ⟨n, rest⟩
    · refine iff_of_false (by simp) ?_
      rintro ⟨_, ⟨_, _, _, _, heq, hsome, -⟩, -⟩
      cases heq
      rw [hread] at hsome
      cases hsome
    have hparts : ∀ {P : Nat → Nat → Bytes → Prop}, (∃ extType' header' n' rest',
        some (extType, header) = some (extType', header') ∧ readU16 header' = some (n', rest') ∧
          P extType' n' rest') ↔ P extType n rest := by
      intro P
      constructor
      · rintro ⟨_, _, _, _, heq, hsome, hp⟩
        cases heq
        rw [hread] at hsome
        cases hsome
        exact hp
      · exact fun hp => ⟨extType, header, n, rest, rfl, hread, hp⟩
    have hshorter : (rest.drop n).length < len := by
      have hbytes := congrArg List.length (readU16_exact htype).2
      have hheader := congrArg List.length (readU16_exact hread).2
      rw [length_append, length_lengthField] at hbytes hheader
      rw [← hlen, length_drop]
      omega
    simp only [hparts]
    by_cases hlong : rest.length < n
    · rw [if_pos hlong]
      refine iff_of_false (by simp) ?_
      rintro ⟨_, ⟨hfits, _⟩, _⟩
      exact hfits hlong
    rw [if_neg hlong]
    by_cases hsni : extType = 0x0000
    · rw [if_pos hsni]
      refine (found_iff.trans parseServerNameList_iff).trans ?_
      constructor
      · rintro ⟨host, hhost, hname⟩
        exact ⟨host, ⟨hlong, .inl ⟨hsni, hhost⟩⟩, hname⟩
      · rintro ⟨host, ⟨-, ⟨-, hhost⟩ | ⟨hother, -⟩⟩, hname⟩
        · exact ⟨host, hhost, hname⟩
        · exact absurd hsni hother
    · rw [if_neg hsni, ih _ hshorter rfl]
      constructor
      · rintro ⟨host, hmore, hname⟩
        exact ⟨host, ⟨hlong, .inr ⟨hsni, hmore⟩⟩, hname⟩
      · rintro ⟨host, ⟨-, ⟨hzero, -⟩ | ⟨-, hmore⟩⟩, hname⟩
        · exact absurd hzero hsni
        · exact ⟨host, hmore, hname⟩

theorem helloExtensions_iff {p : Format} :
    (∃ extensions, helloExtensions bytes = some extensions ∧ p extensions) ↔ HelloWith p bytes := by
  have hshort : ∀ {width : Nat} {read : Bytes → Option (Nat × Bytes)} (_ : LengthReader width read)
      (q : Format) (bytes : Bytes), Seq (Vec width Any) q bytes ↔
        ∃ n rest, read bytes = some (n, rest) ∧ ∃ tail, skip n rest = some tail ∧ q tail := by
    intro width read h q bytes
    rw [h.vec_iff]
    refine exists_congr fun n => exists_congr fun rest => and_congr_right fun _ => ?_
    rw [skip]
    by_cases hlong : rest.length < n
    · rw [if_pos hlong]
      exact iff_of_false (fun h => h.1 hlong) (by simp)
    · rw [if_neg hlong]
      constructor
      · rintro ⟨-, -, hq⟩
        exact ⟨_, rfl, hq⟩
      · rintro ⟨_, heq, hq⟩
        cases heq
        exact ⟨hlong, trivial, hq⟩
  simp only [HelloWith, skip_iff, hshort lengthReader_U8, hshort lengthReader_U16,
    lengthReader_U16.vec_iff (p := p), helloExtensions, Option.bind_eq_bind,
    Option.bind_eq_some_iff, Prod.exists]
  constructor
  · rintro ⟨_, ⟨a, hskip, sidLen, sid, hsid, b, hb, csLen, cs, hcs, c, hc, cmLen, cm, hcm, d, hd,
      extLen, rest, hext, heq⟩, hp⟩
    split at heq
    · cases heq
    · rename_i hlen
      cases heq
      exact ⟨a, hskip, sidLen, sid, hsid, b, hb, csLen, cs, hcs, c, hc, cmLen, cm, hcm, d, hd,
        extLen, rest, hext, hlen, hp, trivial⟩
  · rintro ⟨a, hskip, sidLen, sid, hsid, b, hb, csLen, cs, hcs, c, hc, cmLen, cm, hcm, d, hd,
      extLen, rest, hext, hlen, hp, -⟩
    exact ⟨_, ⟨a, hskip, sidLen, sid, hsid, b, hb, csLen, cs, hcs, c, hc, cmLen, cm, hcm, d, hd,
      extLen, rest, hext, if_neg hlen⟩, hp⟩

theorem parseClientHello_iff : parseClientHello lowercase bytes = .found name ↔
    ∃ host, HelloWith (ExtensionList host) bytes ∧ name = lowercase (decodeUtf8 host) := by
  have hgoes : parseClientHello lowercase bytes = .found name ↔
      ∃ extensions, helloExtensions bytes = some extensions ∧
        parseExtensions lowercase extensions = .found name := by
    rw [parseClientHello]
    cases helloExtensions bytes with
    | none =>
      refine iff_of_false (by simp) ?_
      rintro ⟨_, hsome, _⟩
      cases hsome
    | some extensions =>
      constructor
      · exact fun h => ⟨extensions, rfl, h⟩
      · rintro ⟨_, heq, h⟩
        cases heq
        exact h
  simp only [hgoes, parseExtensions_iff, ← helloExtensions_iff]
  constructor
  · rintro ⟨e, he, host, hlist, hname⟩
    exact ⟨host, ⟨e, he, hlist⟩, hname⟩
  · rintro ⟨host, ⟨e, he, hlist⟩, hname⟩
    exact ⟨e, he, host, hlist, hname⟩

theorem parseHandshake_iff : parseHandshake lowercase bytes = .found name ↔
    ∃ host, Handshake host bytes ∧ name = lowercase (decodeUtf8 host) := by
  rcases bytes with _ | ⟨msgType, bytes⟩
  · refine iff_of_false (by rintro ⟨⟩) ?_
    rintro ⟨_, ⟨_, _, heq, rfl, -⟩, -⟩
    cases heq
  have hone : msgType.toNat = 1 ↔ msgType = 0x01 := by rw [← UInt8.toNat_inj]; rfl
  simp only [Handshake, seq_is_cons, lengthReader_U24.vec_iff]
  rw [parseHandshake]
  dsimp only [readU8]
  by_cases htype : msgType.toNat ≠ 0x01
  · rw [if_pos htype]
    refine iff_of_false (by simp) ?_
    rintro ⟨_, ⟨ha, _⟩, _⟩
    exact htype (hone.mpr ha)
  rw [if_neg htype]
  have hmsg : msgType = 0x01 := hone.mp (not_not.mp htype)
  rcases hread : readU24 bytes with _ | ⟨n, rest⟩
  · refine iff_of_false (by simp) ?_
    rintro ⟨_, ⟨_, _, _, hsome, _⟩, _⟩
    cases hsome
  dsimp only
  by_cases hlong : rest.length < n
  · rw [if_pos hlong]
    refine iff_of_false (by simp) ?_
    rintro ⟨_, ⟨-, _, _, heq, hfits, -⟩, -⟩
    cases heq
    exact hfits hlong
  rw [if_neg hlong, parseClientHello_iff]
  constructor
  · rintro ⟨host, hhello, hname⟩
    exact ⟨host, ⟨hmsg, n, rest, rfl, hlong, hhello, trivial⟩, hname⟩
  · rintro ⟨host, ⟨-, _, _, heq, -, hhello, -⟩, hname⟩
    cases heq
    exact ⟨host, hhello, hname⟩

theorem naming_iff : Naming host bytes ↔ ∃ v₁ v₂ l₁ l₂ rest,
    bytes = 0x16 :: v₁ :: v₂ :: l₁ :: l₂ :: rest ∧ ¬ rest.length < l₁.toNat * 256 + l₂.toNat ∧
      0 < l₁.toNat * 256 + l₂.toNat ∧ l₁.toNat * 256 + l₂.toNat ≤ 16384 ∧
        Handshake host (rest.take (l₁.toNat * 256 + l₂.toNat)) := by
  have hsplit : Naming host bytes ↔ ∃ a rest, bytes = a :: rest ∧ a = 0x16 ∧
      ∃ tail, skip 2 rest = some tail ∧ ∃ n fragment, readU16 tail = some (n, fragment) ∧
        ¬ fragment.length < n ∧ (0 < (fragment.take n).length ∧ (fragment.take n).length ≤ 16384 ∧
          Handshake host (fragment.take n)) ∧ True := by
    rcases bytes with _ | ⟨a, rest⟩
    · refine iff_of_false ?_ nofun
      rintro ⟨_, _, heq, rfl, -⟩
      cases heq
    · rw [Naming, seq_is_cons, skip_iff]
      simp only [Fragment, lengthReader_U16.vec_iff]
      exact ⟨fun h => ⟨a, rest, rfl, h⟩, fun ⟨_, _, heq, h⟩ => by cases heq; exact h⟩
  rw [hsplit]
  constructor
  · rintro ⟨_, rest, rfl, rfl, tail, hskip, n, fragment, hread, hlen, ⟨hpos, hmax, hhello⟩, -⟩
    rcases rest with _ | ⟨v₁, _ | ⟨v₂, _ | ⟨l₁, _ | ⟨l₂, rest⟩⟩⟩⟩
    · cases hskip
    · cases hskip
    · cases hskip
      cases hread
    · cases hskip
      cases hread
    · cases hskip
      cases hread
      rw [length_take, Nat.min_eq_left (Nat.le_of_not_lt hlen)] at hpos hmax
      exact ⟨v₁, v₂, l₁, l₂, fragment, rfl, hlen, hpos, hmax, hhello⟩
  · rintro ⟨v₁, v₂, l₁, l₂, rest, rfl, hlen, hpos, hmax, hhello⟩
    refine ⟨_, _, rfl, rfl, _, rfl, _, _, rfl, hlen, ⟨?_, ?_, hhello⟩, trivial⟩
    · rwa [length_take, Nat.min_eq_left (Nat.le_of_not_lt hlen)]
    · rwa [length_take, Nat.min_eq_left (Nat.le_of_not_lt hlen)]

/-- The parser finds a host name exactly in the byte strings of the grammar. -/
theorem parse_found_iff : parse lowercase bytes = .found name ↔
    ∃ host, Naming host bytes ∧ name = lowercase (decodeUtf8 host) := by
  simp only [naming_iff]
  rcases bytes with _ | ⟨a, _ | ⟨v₁, _ | ⟨v₂, _ | ⟨l₁, _ | ⟨l₂, rest⟩⟩⟩⟩⟩
  iterate 5
    refine iff_of_false (by rintro ⟨⟩) ?_
    rintro ⟨_, ⟨_, _, _, _, _, heq, -⟩, -⟩
    cases heq
  have hparts : ∀ {P : UInt8 → UInt8 → Bytes → Prop}, (∃ w₁ w₂ m₁ m₂ tail,
      a :: v₁ :: v₂ :: l₁ :: l₂ :: rest = 0x16 :: w₁ :: w₂ :: m₁ :: m₂ :: tail ∧ P m₁ m₂ tail) ↔
        a = 0x16 ∧ P l₁ l₂ rest := by
    intro P
    constructor
    · rintro ⟨_, _, _, _, _, heq, hp⟩
      cases heq
      exact ⟨rfl, hp⟩
    · rintro ⟨rfl, hp⟩
      exact ⟨_, _, _, _, _, rfl, hp⟩
  simp only [hparts]
  rw [parse]
  by_cases htype : a ≠ 0x16
  · rw [if_pos htype]
    refine iff_of_false (by simp) ?_
    rintro ⟨_, ⟨ha, _⟩, _⟩
    exact htype ha
  rw [if_neg htype]
  dsimp only
  by_cases hsize : l₁.toNat * 256 + l₂.toNat ≤ 0 ∨ l₁.toNat * 256 + l₂.toNat > 16384
  · rw [if_pos hsize]
    refine iff_of_false (by simp) ?_
    rintro ⟨_, ⟨-, -, hpos, hmax, -⟩, -⟩
    omega
  rw [if_neg hsize]
  by_cases hlong : rest.length < l₁.toNat * 256 + l₂.toNat
  · rw [if_pos hlong]
    refine iff_of_false (by simp) ?_
    rintro ⟨_, ⟨_, hfits, _⟩, _⟩
    exact hfits hlong
  rw [if_neg hlong, parseHandshake_iff]
  constructor
  · rintro ⟨host, hhello, hname⟩
    exact ⟨host, ⟨not_not.mp htype, hlong, by omega, by omega, hhello⟩, hname⟩
  · rintro ⟨host, ⟨-, -, -, -, hhello⟩, hname⟩
    exact ⟨host, hhello, hname⟩

end Layers

-- ----
-- Feeding

section Feeding

/-- What some bytes are, however they come. -/
def verdict (lowercase : Text → Text) (bytes : Bytes) : State :=
  if bytes = [] then .needMore
  else if bytes.head? ≠ some 0x16 then .notTls
  else parse lowercase bytes

variable {lowercase : Text → Text} {bufferLimit : Nat} {fed data : Bytes} {name : Text}

/-- A verdict of the parser stands whatever comes behind. -/
theorem parse_append (hdone : parse lowercase fed ≠ .needMore) (data : Bytes) :
    parse lowercase (fed ++ data) = parse lowercase fed := by
  rcases fed with _ | ⟨a, _ | ⟨v₁, _ | ⟨v₂, _ | ⟨l₁, _ | ⟨l₂, rest⟩⟩⟩⟩⟩
  iterate 5 exact absurd rfl hdone
  simp only [cons_append]
  rw [parse] at hdone ⊢
  rw [parse]
  by_cases htype : a ≠ 0x16
  · rw [if_pos htype, if_pos htype]
  rw [if_neg htype] at hdone ⊢
  rw [if_neg htype]
  dsimp only at hdone ⊢
  by_cases hsize : l₁.toNat * 256 + l₂.toNat ≤ 0 ∨ l₁.toNat * 256 + l₂.toNat > 16384
  · rw [if_pos hsize, if_pos hsize]
  rw [if_neg hsize] at hdone ⊢
  rw [if_neg hsize]
  by_cases hlong : rest.length < l₁.toNat * 256 + l₂.toNat
  · rw [if_pos hlong] at hdone
    exact absurd rfl hdone
  have hmore : ¬ (rest ++ data).length < l₁.toNat * 256 + l₂.toNat := by
    rw [length_append]
    omega
  rw [if_neg hlong, if_neg hmore, take_append_of_le_length (Nat.le_of_not_lt hlong)]

theorem verdict_append (hdone : verdict lowercase fed ≠ .needMore) (data : Bytes) :
    verdict lowercase (fed ++ data) = verdict lowercase fed := by
  have hne : fed ≠ [] := by
    rintro rfl
    exact hdone rfl
  have hmore : fed ++ data ≠ [] := append_ne_nil_of_left_ne_nil hne data
  have hfed : verdict lowercase fed =
      if fed.head? ≠ some 0x16 then .notTls else parse lowercase fed := if_neg hne
  rw [hfed] at hdone ⊢
  rw [verdict, if_neg hmore, List.head?_append_of_ne_nil _ hne]
  split
  · rfl
  · rename_i hhead
    rw [if_neg hhead] at hdone
    exact parse_append hdone data

theorem verdict_found_iff : verdict lowercase fed = .found name ↔
    ∃ host, Naming host fed ∧ name = lowercase (decodeUtf8 host) := by
  rw [← parse_found_iff, verdict]
  split
  · rename_i hnil
    rw [hnil]
    exact iff_of_false nofun nofun
  · split
    · rename_i hhead
      refine iff_of_false nofun fun hparse => hhead ?_
      obtain ⟨host, hnaming, -⟩ := parse_found_iff.1 hparse
      obtain ⟨_, _, _, _, _, rfl, -⟩ := naming_iff.1 hnaming
      rfl
    · exact Iff.rfl

/-- The state is the verdict on what was fed, all of which is kept while it is undecided. -/
structure Answers (lowercase : Text → Text) (s : TlsClientHelloSniffer) (fed : Bytes) : Prop where
  state : s.state = verdict lowercase fed
  buffer : s.state = .needMore → s.buffer = fed

theorem feed_answers {s : TlsClientHelloSniffer} (h : Answers lowercase s fed)
    (hlimit : (fed ++ data).length ≤ bufferLimit) :
    Answers lowercase (s.feed lowercase bufferLimit data) (fed ++ data) := by
  rw [feed]
  by_cases hdone : s.state ≠ .needMore
  · rw [if_pos (.inl hdone)]
    refine ⟨?_, fun hneed => absurd hneed hdone⟩
    rw [h.state, verdict_append (h.state ▸ hdone)]
  have hneed : s.state = .needMore := not_not.mp hdone
  have hbuffer := h.buffer hneed
  by_cases hdata : data = []
  · subst hdata
    rw [if_pos (.inr rfl), append_nil]
    exact h
  rw [if_neg (not_or.mpr ⟨hdone, hdata⟩), hbuffer]
  have hmore : fed ++ data ≠ [] := append_ne_nil_of_right_ne_nil _ hdata
  by_cases hother : fed = [] ∧ data.head? ≠ some 0x16
  · rw [if_pos hother, hother.1, nil_append]
    refine ⟨?_, by simp⟩
    rw [verdict, if_neg hdata, if_pos hother.2]
  · have hhead : ¬ (fed ++ data).head? ≠ some 0x16 := by
      rcases eq_nil_or_concat fed with rfl | hconcat
      · exact fun hne => hother ⟨rfl, hne⟩
      · have hne : fed ≠ [] := by
          rintro rfl
          obtain ⟨_, _, heq⟩ := hconcat
          simp at heq
        have hverdict := h.state
        rw [hneed, verdict, if_neg hne] at hverdict
        rw [List.head?_append_of_ne_nil _ hne]
        intro hhead
        rw [if_pos hhead] at hverdict
        cases hverdict
    rw [if_neg hother]
    dsimp only
    rw [if_neg (Nat.not_lt_of_le hlimit)]
    refine ⟨?_, fun _ => rfl⟩
    rw [verdict, if_neg hmore, if_neg hhead]

/-- The state after some chunks is the verdict on the bytes in them. -/
theorem feedAll_eq {chunks : List Bytes} (hlimit : chunks.flatten.length ≤ bufferLimit) :
    (feedAll lowercase bufferLimit chunks).state = verdict lowercase chunks.flatten := by
  have hrun : ∀ (chunks : List Bytes) (s : TlsClientHelloSniffer) (fed : Bytes),
      Answers lowercase s fed → (fed ++ chunks.flatten).length ≤ bufferLimit →
        Answers lowercase (chunks.foldl (feed lowercase bufferLimit) s)
          (fed ++ chunks.flatten) := by
    intro chunks
    induction chunks with
    | nil =>
      intro s fed h _
      rwa [flatten_nil, append_nil]
    | cons data chunks ih =>
      intro s fed h hlimit
      rw [flatten_cons, ← append_assoc] at hlimit ⊢
      refine ih _ _ (feed_answers h ?_) hlimit
      rw [length_append] at hlimit
      omega
  exact (hrun chunks {} [] ⟨rfl, fun _ => rfl⟩ hlimit).state

namespace Indexed

theorem feed_done {s : Sniffer} (h : s.state ≠ .needMore) (data : Bytes) :
    feed lowercase bufferLimit s data = .ok s :=
  if_pos (.inl h)

end Indexed

/-- The sniffer finds a name exactly in the byte strings of the grammar, however they are cut,
stays with what it decided, and never reads outside its buffer. -/
theorem sniffing_exact (lowercase : Text → Text) (bufferLimit : Nat) :
    (∀ chunks, ∃ s, Indexed.feedAll lowercase bufferLimit chunks = .ok s) ∧
    (∀ chunks chunks' s s', chunks.flatten = chunks'.flatten →
      chunks.flatten.length ≤ bufferLimit →
      Indexed.feedAll lowercase bufferLimit chunks = .ok s →
      Indexed.feedAll lowercase bufferLimit chunks' = .ok s' → s.state = s'.state) ∧
    (∀ chunks s name, chunks.flatten.length ≤ bufferLimit →
      Indexed.feedAll lowercase bufferLimit chunks = .ok s →
      (s.state = .found name ↔
        ∃ host, Naming host chunks.flatten ∧ name = lowercase (decodeUtf8 host))) ∧
    (∀ (s : Indexed.Sniffer) (chunks : List Bytes), s.state ≠ .needMore →
      chunks.foldlM (Indexed.feed lowercase bufferLimit) s = .ok s) := by
  have hstate : ∀ chunks s, chunks.flatten.length ≤ bufferLimit →
      Indexed.feedAll lowercase bufferLimit chunks = .ok s →
      s.state = verdict lowercase chunks.flatten := by
    intro chunks s hlimit hfeed
    obtain ⟨s', hfeed', hheld⟩ :=
      Indexed.feedAll_spec lowercase bufferLimit chunks
    rw [hfeed] at hfeed'
    cases hfeed'
    rw [hheld.state, feedAll_eq hlimit]
  refine ⟨?_, ?_, ?_, ?_⟩
  · intro chunks
    obtain ⟨s, hfeed, -⟩ :=
      Indexed.feedAll_spec lowercase bufferLimit chunks
    exact ⟨s, hfeed⟩
  · intro chunks chunks' s s' heq hlimit hfeed hfeed'
    rw [hstate chunks s hlimit hfeed, hstate chunks' s' (heq ▸ hlimit) hfeed', heq]
  · intro chunks s name hlimit hfeed
    rw [hstate chunks s hlimit hfeed, verdict_found_iff]
  · intro s chunks hdone
    induction chunks with
    | nil => rfl
    | cons data chunks ih => rw [foldlM_cons, Indexed.feed_done hdone, bind_ok, ih]

end Feeding

end Anywhere.Tls.TlsClientHelloSniffer
