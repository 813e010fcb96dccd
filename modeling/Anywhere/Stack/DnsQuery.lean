import Anywhere.Lib.ArrayReads
import Anywhere.Lib.Dns
import Anywhere.FakeIp.Pool

/-!
# Anywhere — the interception of DNS queries

`parseDnsQueryExt` reads the name and the type of the first question of a query, and
`generateDnsResponse` builds the response from the query up to the end of that question: it
overwrites the flags and three of the counts, and appends one record for a fake address. A read
outside an array is an error of its own.

* `wellAnswered_iff` — when a response is a good one: the query has one question, with a name of
  at most 255 bytes.
-/

namespace Anywhere.Stack

open Lib Lib.Dns List

-- ----
-- The model

structure DnsQuery where
  domain : Text
  qtype : Nat
  deriving DecidableEq

/-- `(byte.toInt() and 0xFF).toChar()`. -/
def byteChar (b : UInt8) : Char := Char.ofNat b.toNat

def appendLabel (sb : Text) (label : Bytes) : Text :=
  (if sb = [] then sb else sb ++ ['.']) ++ label.map byteChar

/-- The loop of `parseDnsQueryExt`: the offset behind the name, and the name. -/
def parseLabels (data : Bytes) : Nat → Nat → Text → Except OutOfBounds (Option (Nat × Text))
  | 0, offset, sb => .ok (some (offset, sb))
  | n + 1, offset, sb =>
    if offset < data.length then do
      let labelLen ← readByte data offset
      if labelLen.toNat = 0 then .ok (some (offset + 1, sb))
      else if labelLen &&& 0xC0 ≠ 0 then .ok none
      else if offset + 1 + labelLen.toNat > data.length then .ok none
      else
        let label ← readBytes data (offset + 1) labelLen.toNat
        parseLabels data n (offset + 1 + labelLen.toNat) (appendLabel sb label)
    else .ok (some (offset, sb))

def parseDnsQueryExt (data : Bytes) : Except OutOfBounds (Option DnsQuery) :=
  if data.length < 12 then .ok none
  else do
    let qdcount ← readWord data 4
    if qdcount = 0 then .ok none
    else
      match ← parseLabels data data.length 12 [] with
      | none => .ok none
      | some (offset, sb) =>
        if sb = [] then .ok none
        else if offset + 2 > data.length then .ok none
        else
          let qtype ← readWord data offset
          .ok (some ⟨sb, qtype⟩)

/-- The loop of `generateDnsResponse`. -/
def skipLabels (query : Bytes) : Nat → Nat → Except OutOfBounds Nat
  | 0, offset => .ok offset
  | n + 1, offset =>
    if offset < query.length then do
      let labelLen ← readByte query offset
      if labelLen.toNat = 0 then .ok (offset + 1)
      else if labelLen &&& 0xC0 ≠ 0 then .ok (offset + 1)
      else skipLabels query n (offset + 1 + labelLen.toNat)
    else .ok offset

def writeHeader (buf : Bytes) (ancount : Nat) : Bytes :=
  buf.take 2 ++ [0x85, 0x80] ++ (buf.drop 4).take 2 ++
    [UInt8.ofNat (ancount / 256), UInt8.ofNat ancount, 0, 0, 0, 0] ++ buf.drop 12

/-- `rdLength`; `ansType` is the type it is for. -/
def rdLength (fakeIp : Option Bytes) (qtype : Nat) : Nat :=
  if fakeIp.isSome then if qtype = 1 then 4 else if qtype = 28 then 16 else 0 else 0

def answerRecord (ansType : Nat) (rdata : Bytes) : Bytes :=
  [0xC0, 0x0C, UInt8.ofNat (ansType / 256), UInt8.ofNat ansType, 0x00, 0x01, 0x00, 0x00, 0x00, 0x01,
    UInt8.ofNat (rdata.length / 256), UInt8.ofNat rdata.length] ++ rdata

def generateDnsResponse (query : Bytes) (fakeIp : Option Bytes) (qtype : Nat) :
    Except OutOfBounds (Option Bytes) :=
  if query.length < 12 then .ok none
  else do
    let questionEnd := (← skipLabels query query.length 12) + 4
    if questionEnd > query.length then .ok none
    else
      let question ← readBytes query 0 questionEnd
      match fakeIp with
      | some ip =>
        if 0 < rdLength fakeIp qtype ∧ rdLength fakeIp qtype ≤ ip.length then
          let rdata ← readBytes ip 0 (rdLength fakeIp qtype)
          .ok (some (writeHeader question 1 ++ answerRecord qtype rdata))
        else .ok (some (writeHeader question 0))
      | none => .ok (some (writeHeader question 0))

/-- What `handleDnsQuery` is given besides the query. -/
structure DnsSettings where
  encryptedDnsEnabled : Bool
  ipv6DNSEnabled : Bool
  /-- `String.lowercase()`. -/
  lowercase : Text → Text

def ddrDomain : Text := "_dns.resolver.arpa".toList

/-- `handleDnsQuery`: the pool behind it, and the response that is sent. -/
def handleDnsQuery (settings : DnsSettings) (pool : FakeIp.FakeIpPool) (payload : Bytes) :
    Except OutOfBounds (FakeIp.FakeIpPool × Option Bytes) := do
  match ← parseDnsQueryExt payload with
  | none => .ok (pool, none)
  | some parsed =>
    let domain := settings.lowercase parsed.domain
    if (!settings.encryptedDnsEnabled && domain == ddrDomain) || parsed.qtype == 65 then
      .ok (pool, ← generateDnsResponse payload none parsed.qtype)
    else if parsed.qtype ≠ 1 ∧ parsed.qtype ≠ 28 then .ok (pool, none)
    else
      let allocated := pool.allocate domain
      let fakeIpBytes :=
        if parsed.qtype = 1 then some (FakeIp.ipv4Bytes allocated.2)
        else if settings.ipv6DNSEnabled then some (FakeIp.ipv6Bytes allocated.2)
        else none
      .ok (allocated.1, ← generateDnsResponse payload fakeIpBytes parsed.qtype)

-- ----
-- Reads

section

variable {data : Bytes} {i : Nat}

theorem readWord_ok (h : i + 1 < data.length) :
    ∃ k, readWord data i = .ok k ∧ u16At data i = some k := by
  rw [readWord_eq h, u16At, List.getElem?_eq_getElem (show i < data.length by omega),
    List.getElem?_eq_getElem h]
  exact ⟨_, rfl, rfl⟩

theorem and_C0_eq_zero_iff (b : UInt8) : b &&& 0xC0 = 0 ↔ b.toNat < 64 := by
  have hall : ∀ n : Fin 256, UInt8.ofNat n.val &&& 0xC0 = 0 ↔ n.val < 64 := by
    decide +kernel
  have h := hall ⟨b.toNat, b.toNat_lt⟩
  rwa [UInt8.ofNat_toNat] at h

end

/-- The loop of `parseDnsQueryExt` never reads outside, and stops behind a name, if it is not at
the end of the data. -/
theorem parseLabels_spec (front tail : Bytes) (sb : Text) {n : Nat} (hn : tail.length ≤ n) :
    ∃ r, parseLabels (front ++ tail) n front.length sb = .ok r ∧
      ∀ offset domain, r = some (offset, domain) → offset < (front ++ tail).length →
        ∃ name rest, WellFormed name ∧ tail = encodeName name ++ rest ∧
          offset = front.length + (encodeName name).length := by
  induction n generalizing front tail sb with
  | zero =>
    obtain rfl : tail = [] := length_eq_zero_iff.mp (Nat.le_zero.mp hn)
    refine ⟨_, rfl, ?_⟩
    intro offset domain h hlt
    cases h
    rw [append_nil] at hlt
    exact absurd hlt (Nat.lt_irrefl _)
  | succ n ih =>
    cases tail with
    | nil =>
      rw [parseLabels, if_neg (by simp)]
      refine ⟨_, rfl, ?_⟩
      intro offset domain h hlt
      cases h
      rw [append_nil] at hlt
      exact absurd hlt (Nat.lt_irrefl _)
    | cons b tail =>
      have hlt : front.length < (front ++ b :: tail).length := by simp
      have hbyte : (front ++ b :: tail)[front.length] = b := by simp
      have hlength : (front ++ b :: tail).length = front.length + 1 + tail.length := by
        rw [length_append, length_cons]
        omega
      rw [parseLabels, if_pos hlt, readByte_eq hlt, hbyte, bind_ok]
      by_cases hzero : b.toNat = 0
      · obtain rfl : b = 0 := UInt8.toNat_inj.mp hzero
        rw [if_pos hzero]
        refine ⟨_, rfl, ?_⟩
        intro offset domain h _
        cases h
        refine ⟨[], tail, ?_, rfl, rfl⟩
        intro label hlabel
        cases hlabel
      · rw [if_neg hzero]
        by_cases hpointer : b &&& 0xC0 ≠ 0
        · rw [if_pos hpointer]
          exact ⟨none, rfl, fun _ _ h => by cases h⟩
        · have hsmall := (and_C0_eq_zero_iff b).mp (not_not.mp hpointer)
          rw [if_neg hpointer]
          by_cases hlong : front.length + 1 + b.toNat > (front ++ b :: tail).length
          · rw [if_pos hlong]
            exact ⟨none, rfl, fun _ _ h => by cases h⟩
          · rw [if_neg hlong, readBytes_eq (Nat.le_of_not_lt hlong), bind_ok]
            -- the label becomes a part of what has been read
            have hsplit : front ++ b :: tail =
                (front ++ b :: tail.take b.toNat) ++ tail.drop b.toNat := by
              simp
            have hfront : (front ++ b :: tail.take b.toNat).length = front.length + 1 +
                b.toNat := by
              rw [length_append, length_cons, length_take]
              omega
            have htail : (tail.drop b.toNat).length ≤ n := by
              rw [length_cons] at hn
              rw [length_drop]
              omega
            obtain ⟨r, hr, hspec⟩ := ih (front ++ b :: tail.take b.toNat) (tail.drop b.toNat)
              (appendLabel sb (((front ++ b :: tail).drop (front.length + 1)).take b.toNat)) htail
            rw [← hsplit, hfront] at hr
            rw [← hsplit] at hspec
            refine ⟨r, hr, ?_⟩
            intro offset domain hsome hoffset
            obtain ⟨name, rest, hname, hrest, rfl⟩ := hspec offset domain hsome hoffset
            have htake : (tail.take b.toNat).length = b.toNat := by
              rw [length_take]
              omega
            refine ⟨tail.take b.toNat :: name, rest, ?_, ?_, ?_⟩
            · intro label hlabel
              rcases mem_cons.mp hlabel with rfl | hlabel
              · omega
              · exact hname label hlabel
            · rw [encodeName_cons, htake, UInt8.ofNat_toNat, cons_append, append_assoc,
                ← hrest, take_append_drop]
            · rw [hfront, encodeName_cons, length_cons, length_append, htake]
              omega

/-- The loop of `generateDnsResponse` never reads outside. -/
theorem skipLabels_ok (query : Bytes) (n offset : Nat) :
    ∃ k, skipLabels query n offset = .ok k := by
  induction n generalizing offset with
  | zero => exact ⟨offset, rfl⟩
  | succ n ih =>
    rw [skipLabels]
    by_cases hlt : offset < query.length
    · rw [if_pos hlt, readByte_eq hlt, bind_ok]
      split
      · exact ⟨_, rfl⟩
      · split
        · exact ⟨_, rfl⟩
        · exact ih _
    · rw [if_neg hlt]
      exact ⟨offset, rfl⟩

theorem skipLabels_name {name : Name} (h : WellFormed name) (front rest : Bytes) {n : Nat}
    (hn : name.length < n) :
    skipLabels (front ++ encodeName name ++ rest) n front.length =
      .ok (front.length + (encodeName name).length) := by
  induction name generalizing front n with
  | nil =>
    obtain ⟨n, rfl⟩ := Nat.exists_eq_succ_of_ne_zero (Nat.ne_zero_of_lt hn)
    have hlt : front.length < (front ++ encodeName [] ++ rest).length := by simp [encodeName]
    have hbyte : (front ++ encodeName [] ++ rest)[front.length] = 0 := by simp [encodeName]
    rw [skipLabels, if_pos hlt, readByte_eq hlt, hbyte]
    rfl
  | cons label name ih =>
    obtain ⟨n, rfl⟩ := Nat.exists_eq_succ_of_ne_zero (Nat.ne_zero_of_lt hn)
    obtain ⟨hpos, hlabel⟩ := h label mem_cons_self
    have hlength := h.toNat_length
    have hlt : front.length < (front ++ encodeName (label :: name) ++ rest).length := by
      simp [encodeName_cons]
    have hbyte : (front ++ encodeName (label :: name) ++ rest)[front.length] =
        UInt8.ofNat label.length := by
      simp [encodeName_cons]
    have hmsg : front ++ encodeName (label :: name) ++ rest =
        (front ++ UInt8.ofNat label.length :: label) ++ encodeName name ++ rest := by
      simp [encodeName_cons]
    have hfront : (front ++ UInt8.ofNat label.length :: label).length =
        front.length + 1 + label.length := by
      rw [length_append, length_cons]
      omega
    have hnext := ih h.tail (front ++ UInt8.ofNat label.length :: label) (Nat.lt_of_succ_lt_succ hn)
    have hsmall : ¬ (UInt8.ofNat label.length &&& 0xC0 ≠ 0) := by
      rw [not_not, and_C0_eq_zero_iff, hlength]
      exact hlabel
    rw [← hmsg, hfront] at hnext
    rw [skipLabels, if_pos hlt, readByte_eq hlt, hbyte, bind_ok, hlength, if_neg (by omega),
      if_neg hsmall, hnext, encodeName_cons, length_cons, length_append]
    congr 1
    omega

-- ----
-- Both functions

/-- `parseDnsQueryExt` never reads outside; what it returns a query for begins with a name and a
type. -/
theorem parseDnsQueryExt_spec (data : Bytes) :
    ∃ r, parseDnsQueryExt data = .ok r ∧ ∀ query, r = some query →
      12 ≤ data.length ∧ u16At data 4 ≠ some 0 ∧ ∃ name rest, WellFormed name ∧
        data = data.take 12 ++ encodeName name ++ rest ∧
        u16At data (12 + (encodeName name).length) = some query.qtype := by
  rw [parseDnsQueryExt]
  by_cases hshort : data.length < 12
  · rw [if_pos hshort]
    exact ⟨none, rfl, fun _ h => by cases h⟩
  · obtain ⟨qdcount, hread, hcount⟩ := readWord_ok (show 4 + 1 < data.length by omega)
    rw [if_neg hshort, hread, bind_ok]
    by_cases hzero : qdcount = 0
    · rw [if_pos hzero]
      exact ⟨none, rfl, fun _ h => by cases h⟩
    · have htake : (data.take 12).length = 12 := by
        rw [length_take]
        omega
      obtain ⟨r, hr, hspec⟩ := parseLabels_spec (data.take 12) (data.drop 12) [] (n := data.length)
        (by rw [length_drop]; omega)
      rw [take_append_drop, htake] at hr
      rw [take_append_drop] at hspec
      rw [if_neg hzero, hr, bind_ok]
      cases r with
      | none => exact ⟨none, rfl, fun _ h => by cases h⟩
      | some found =>
        obtain ⟨offset, sb⟩ := found
        simp only
        by_cases hempty : sb = []
        · rw [if_pos hempty]
          exact ⟨none, rfl, fun _ h => by cases h⟩
        · rw [if_neg hempty]
          by_cases hend : offset + 2 > data.length
          · rw [if_pos hend]
            exact ⟨none, rfl, fun _ h => by cases h⟩
          · obtain ⟨qtype, hread, hqtype⟩ := readWord_ok (show offset + 1 < data.length by omega)
            rw [if_neg hend, hread, bind_ok]
            obtain ⟨name, rest, hname, hrest, rfl⟩ := hspec offset sb rfl (by omega)
            rw [htake] at hqtype
            refine ⟨_, rfl, ?_⟩
            intro query hquery
            cases hquery
            refine ⟨by omega, ?_, name, rest, hname, ?_, hqtype⟩
            · rw [hcount]
              intro h
              exact hzero (Option.some.inj h)
            · rw [append_assoc, ← hrest, take_append_drop]

/-- `generateDnsResponse` never reads outside. -/
theorem generateDnsResponse_ok (query : Bytes) (fakeIp : Option Bytes) (qtype : Nat) :
    ∃ r, generateDnsResponse query fakeIp qtype = .ok r := by
  rw [generateDnsResponse]
  split
  · exact ⟨none, rfl⟩
  · obtain ⟨offset, hoffset⟩ := skipLabels_ok query query.length 12
    rw [hoffset, bind_ok]
    simp only
    split
    · exact ⟨none, rfl⟩
    · rename_i hend
      rw [readBytes_eq (by omega), bind_ok]
      cases fakeIp with
      | none => exact ⟨_, rfl⟩
      | some ip =>
        simp only
        split
        · rename_i hsize
          rw [readBytes_eq (by omega), bind_ok]
          exact ⟨_, rfl⟩
        · exact ⟨_, rfl⟩

def answerPart (fakeIp : Option Bytes) (qtype : Nat) : Option Bytes :=
  fakeIp.filter fun _ => qtype = 1 || qtype = 28

/-- A fake address is one of the family that is asked for. -/
def Fits (fakeIp : Option Bytes) (qtype : Nat) : Prop :=
  ∀ ip, fakeIp = some ip → (qtype = 1 → ip.length = 4) ∧ (qtype = 28 → ip.length = 16)

/-- The response to a query with a whole name: a header, the question, and the record. -/
theorem generateDnsResponse_spec {name : Name} (h : WellFormed name) {header rest : Bytes}
    (hheader : header.length = 12) {fakeIp : Option Bytes} {qtype : Nat} (hfits : Fits fakeIp qtype)
    {response : Bytes}
    (hresponse : generateDnsResponse (header ++ encodeName name ++ rest) fakeIp qtype =
      .ok (some response)) :
    4 ≤ rest.length ∧ response =
      match answerPart fakeIp qtype with
      | some ip => writeHeader (header ++ encodeName name ++ rest.take 4) 1 ++ answerRecord qtype ip
      | none => writeHeader (header ++ encodeName name ++ rest.take 4) 0 := by
  have hlength : (header ++ encodeName name ++ rest).length =
      12 + (encodeName name).length + rest.length := by
    rw [length_append, length_append, hheader]
  have hcount := length_le_nameLength h
  have hname := length_encodeName name
  have hskip := skipLabels_name h header rest
    (show name.length < (header ++ encodeName name ++ rest).length by omega)
  rw [hheader] at hskip
  rw [generateDnsResponse, if_neg (by omega), hskip, bind_ok] at hresponse
  simp only at hresponse
  split at hresponse
  · cases hresponse
  · rename_i hend
    have hquestion : ((header ++ encodeName name ++ rest).drop 0).take
        (12 + (encodeName name).length + 4) = header ++ encodeName name ++ rest.take 4 := by
      rw [drop_zero, take_append, length_append, hheader,
        take_of_length_le (by rw [length_append, hheader]; omega),
        Nat.add_sub_cancel_left]
    rw [readBytes_eq (by omega), bind_ok, hquestion] at hresponse
    refine ⟨by omega, ?_⟩
    cases fakeIp with
    | none => exact (Option.some.inj (Except.ok.inj hresponse)).symm
    | some ip =>
      obtain ⟨h4, h16⟩ := hfits ip rfl
      by_cases h : qtype = 1 ∨ qtype = 28
      · have hsize : rdLength (some ip) qtype = ip.length := by
          rcases h with hA | hAAAA
          · rw [h4 hA, hA]
            rfl
          · rw [h16 hAAAA, hAAAA]
            rfl
        have hpart : answerPart (some ip) qtype = some ip := by
          rcases h with rfl | rfl <;> rfl
        have hpos : 0 < ip.length := by
          rcases h with hA | hAAAA
          · exact (h4 hA).symm ▸ by decide
          · exact (h16 hAAAA).symm ▸ by decide
        simp only [hsize] at hresponse
        rw [if_pos ⟨by omega, Nat.le_refl _⟩, readBytes_eq (by omega), bind_ok, drop_zero,
          take_length] at hresponse
        rw [hpart]
        exact (Option.some.inj (Except.ok.inj hresponse)).symm
      · obtain ⟨hA, hAAAA⟩ := not_or.mp h
        have hsize : rdLength (some ip) qtype = 0 := by
          rw [rdLength, Option.isSome_some, if_pos rfl, if_neg hA, if_neg hAAAA]
        have hpart : answerPart (some ip) qtype = none := by
          simp [answerPart, hA, hAAAA]
        simp only [hsize] at hresponse
        rw [if_neg (by omega)] at hresponse
        rw [hpart]
        exact (Option.some.inj (Except.ok.inj hresponse)).symm

-- ----
-- Good responses

/-- A decoder takes the whole response; its id and first question are those of the query, and a
fake address is the only answer, owned by that question's name. -/
def WellAnswered (query : Bytes) (fakeIp : Option Bytes) (qtype : Nat) (response : Bytes) : Prop :=
  ∃ m question next, decode response = some m ∧ u16At query 0 = some m.id ∧
    questionAt query 12 = some (question, next) ∧ m.questions.head? = some question ∧
    ((qtype = 1 ∨ qtype = 28) → ∀ ip, fakeIp = some ip →
      ∃ rclass ttl, m.answers = [⟨question.name, qtype, rclass, ttl, ip⟩])

/-- A query with one question, whose name has at most 255 bytes. -/
def OneShortQuestion (query : Bytes) : Prop :=
  u16At query 4 = some 1 ∧ ∃ name rest, WellFormed name ∧
    query = query.take 12 ++ encodeName name ++ rest ∧ nameLength name ≤ 255

section Response

variable {name : Name} (hname : WellFormed name) (front : Bytes) (t1 t2 c1 c2 : UInt8)
  (behind : Bytes)

def questionMessage (name : Name) (front : Bytes) (t1 t2 c1 c2 : UInt8) (behind : Bytes) : Bytes :=
  front ++ encodeName name ++ (t1 :: t2 :: c1 :: c2 :: behind)

include hname

theorem questionAt_question (hfront : front.length = 12) :
    questionAt (questionMessage name front t1 t2 c1 c2 behind) 12 =
      if nameLength name ≤ 255 then
        some (⟨name, t1.toNat * 256 + t2.toNat, c1.toNat * 256 + c2.toNat⟩,
          12 + (encodeName name).length + 4)
      else none := by
  have hread := nameAt_encode hname front (t1 :: t2 :: c1 :: c2 :: behind)
  rw [hfront] at hread
  have hlength : (front ++ encodeName name).length = 12 + (encodeName name).length := by
    rw [length_append, hfront]
  have htype := u16At_append (front ++ encodeName name) (t1 :: t2 :: c1 :: c2 :: behind) 0
  have hclass := u16At_append (front ++ encodeName name) (t1 :: t2 :: c1 :: c2 :: behind) 2
  rw [hlength] at htype hclass
  rw [questionAt, questionMessage, hread]
  by_cases hshort : nameLength name ≤ 255
  · rw [if_pos hshort, if_pos hshort]
    simp only [Option.bind_eq_bind, Option.bind_some]
    rw [Nat.add_zero] at htype
    rw [htype, hclass]
    rfl
  · rw [if_neg hshort, if_neg hshort]
    rfl

theorem recordAt_answer (hfront : front.length = 12) (hshort : nameLength name ≤ 255)
    {ansType : Nat} (htype : ansType < 65536) {rdata : Bytes} (hrdata : rdata.length < 65536) :
    recordAt (questionMessage name front t1 t2 c1 c2 (answerRecord ansType rdata))
        (12 + (encodeName name).length + 4) =
      some (⟨name, ansType, 1, 1, rdata⟩,
        (questionMessage name front t1 t2 c1 c2 (answerRecord ansType rdata)).length) := by
  have hmsg : questionMessage name front t1 t2 c1 c2 (answerRecord ansType rdata) =
      (front ++ encodeName name ++ [t1, t2, c1, c2]) ++ answerRecord ansType rdata := by
    simp [questionMessage]
  have hlength : (front ++ encodeName name ++ [t1, t2, c1, c2]).length =
      12 + (encodeName name).length + 4 := by
    rw [length_append, length_append, hfront]
    rfl
  have hread : ∀ k, u16At (questionMessage name front t1 t2 c1 c2 (answerRecord ansType rdata))
      (12 + (encodeName name).length + 4 + k) = u16At (answerRecord ansType rdata) k := by
    intro k
    rw [hmsg, ← hlength]
    exact u16At_append _ _ k
  have htotal : (questionMessage name front t1 t2 c1 c2 (answerRecord ansType rdata)).length =
      12 + (encodeName name).length + 4 + 12 + rdata.length := by
    rw [hmsg, length_append, hlength, answerRecord, length_append]
    simp only [length_cons, length_nil]
    omega
  have hvalue : ∀ n, n < 65536 → (UInt8.ofNat (n / 256)).toNat * 256 +
      (UInt8.ofNat n).toNat = n := by
    intro n hn
    rw [UInt8.toNat_ofNat', UInt8.toNat_ofNat']
    omega
  have howner : nameAt (questionMessage name front t1 t2 c1 c2 (answerRecord ansType rdata))
      (12 + (encodeName name).length + 4) = some (name, 12 + (encodeName name).length + 4 + 2) :=
    nameAt_pointer hname (by rw [hfront]; exact hread 0) (by omega) (by omega) hshort
  have hdata : ((questionMessage name front t1 t2 c1 c2 (answerRecord ansType rdata)).drop
      (12 + (encodeName name).length + 4 + 2 + 10)).take rdata.length = rdata := by
    rw [hmsg, Nat.add_assoc _ 2 10, ← hlength, drop_append, drop_of_length_le (by omega),
      Nat.add_sub_cancel_left]
    simp [answerRecord]
  -- the fields behind the pointer
  have hansType : u16At (questionMessage name front t1 t2 c1 c2 (answerRecord ansType rdata))
      (12 + (encodeName name).length + 4 + 2) = some ansType := by
    rw [hread]
    exact congrArg some (hvalue ansType htype)
  have hclass : u16At (questionMessage name front t1 t2 c1 c2 (answerRecord ansType rdata))
      (12 + (encodeName name).length + 4 + 2 + 2) = some 1 := by
    rw [Nat.add_assoc _ 2 2, hread]
    rfl
  have hhi : u16At (questionMessage name front t1 t2 c1 c2 (answerRecord ansType rdata))
      (12 + (encodeName name).length + 4 + 2 + 4) = some 0 := by
    rw [Nat.add_assoc _ 2 4, hread]
    rfl
  have hlo : u16At (questionMessage name front t1 t2 c1 c2 (answerRecord ansType rdata))
      (12 + (encodeName name).length + 4 + 2 + 6) = some 1 := by
    rw [Nat.add_assoc _ 2 6, hread]
    rfl
  have hrdlength : u16At (questionMessage name front t1 t2 c1 c2 (answerRecord ansType rdata))
      (12 + (encodeName name).length + 4 + 2 + 8) = some rdata.length := by
    rw [Nat.add_assoc _ 2 8, hread]
    exact congrArg some (hvalue rdata.length hrdata)
  rw [recordAt, howner]
  simp only [Option.bind_eq_bind, Option.bind_some, hansType, hclass, hhi, hlo, hrdlength]
  rw [if_pos (by omega), hdata, htotal]

omit hname

variable (name)

theorem length_questionMessage (hfront : front.length = 12) :
    (questionMessage name front t1 t2 c1 c2 behind).length =
      12 + (encodeName name).length + 4 + behind.length := by
  rw [questionMessage, length_append, length_append, hfront]
  simp only [length_cons]
  omega

theorem u16At_questionMessage (hfront : front.length = 12) {k : Nat} (hk : k < 11) :
    u16At (questionMessage name front t1 t2 c1 c2 behind) k = u16At front k := by
  rw [questionMessage, append_assoc, u16At_append_left (by omega)]

variable {name}

include hname in
/-- What a decoded message with more than one question has behind the first one. -/
theorem length_behind_of_decode (hfront : front.length = 12) {qdcount : Nat}
    (hqdcount : u16At front 4 = some qdcount) (hpos : qdcount ≠ 0) {m : Message}
    (h : decode (questionMessage name front t1 t2 c1 c2 behind) = some m) :
    nameLength name ≤ 255 ∧ (qdcount = 1 ∨ 5 ≤ behind.length ∧
      ∀ r, m.answers = [r] → 16 + r.rdata.length ≤ behind.length) := by
  obtain ⟨qdcount', ancount, i, j, hdecoded⟩ := decoded_of_decode h
  have hlength := length_questionMessage name front t1 t2 c1 c2 behind hfront
  have hcount := hdecoded.qdcount_eq
  rw [u16At_questionMessage name front t1 t2 c1 c2 behind hfront (by decide), hqdcount] at hcount
  obtain rfl : qdcount = qdcount' := Option.some.inj hcount
  obtain ⟨k, rfl⟩ := Nat.exists_eq_succ_of_ne_zero hpos
  have hquestions := hdecoded.questions
  rw [many, questionAt_question hname front t1 t2 c1 c2 behind hfront] at hquestions
  by_cases hshort : nameLength name ≤ 255
  · refine ⟨hshort, ?_⟩
    rw [if_pos hshort, Option.bind_some] at hquestions
    obtain ⟨⟨others, i'⟩, hothers, hall⟩ := Option.map_eq_some_iff.mp hquestions
    obtain rfl : i' = i := congrArg Prod.snd hall
    obtain ⟨-, hi, -⟩ := many_next (fun _ _ _ => questionAt_next) (by omega) hothers
    have hij := hdecoded.length
    cases k with
    | zero => exact Or.inl rfl
    | succ k =>
      refine Or.inr ⟨by omega, ?_⟩
      intro r hr
      have hanswers := hdecoded.answers
      rw [hr] at hanswers
      cases ancount with
      | zero => cases hanswers
      | succ ancount =>
        rw [many] at hanswers
        obtain ⟨⟨first, j'⟩, hfirst, hanswers⟩ := Option.bind_eq_some_iff.mp hanswers
        obtain ⟨⟨more, j''⟩, hmore, hsame⟩ := Option.map_eq_some_iff.mp hanswers
        obtain rfl : first = r := (List.cons.inj (congrArg Prod.fst hsame)).1
        have hnext := recordAt_next hfirst
        omega
  · rw [if_neg hshort] at hquestions
    cases hquestions

end Response

theorem exists_twelve {header : Bytes} (h : header.length = 12) :
    ∃ h0 h1 h2 h3 h4 h5 h6 h7 h8 h9 h10 h11,
      header = [h0, h1, h2, h3, h4, h5, h6, h7, h8, h9, h10, h11] :=
  match header, h with
  | [h0, h1, h2, h3, h4, h5, h6, h7, h8, h9, h10, h11], _ =>
    ⟨h0, h1, h2, h3, h4, h5, h6, h7, h8, h9, h10, h11, rfl⟩

/-- A response is a good one just when the query has one question and its name is short. -/
theorem wellAnswered_iff_of_whole {name : Name} (hname : WellFormed name) {header : Bytes}
    (hheader : header.length = 12) {t1 t2 c1 c2 : UInt8} {rest : Bytes} {fakeIp : Option Bytes}
    (hfits : Fits fakeIp (t1.toNat * 256 + t2.toNat)) (hquestions : u16At header 4 ≠ some 0)
    {response : Bytes}
    (hresponse : generateDnsResponse (questionMessage name header t1 t2 c1 c2 rest) fakeIp
      (t1.toNat * 256 + t2.toNat) = .ok (some response)) :
    WellAnswered (questionMessage name header t1 t2 c1 c2 rest) fakeIp (t1.toNat * 256 + t2.toNat)
        response ↔
      u16At header 4 = some 1 ∧ nameLength name ≤ 255 := by
  have hqtype : t1.toNat * 256 + t2.toNat < 65536 := by
    have h1 := t1.toNat_lt
    have h2 := t2.toNat_lt
    omega
  obtain ⟨-, hresponse⟩ := generateDnsResponse_spec hname hheader hfits hresponse
  obtain ⟨h0, h1, h2, h3, h4, h5, h6, h7, h8, h9, h10, h11, rfl⟩ := exists_twelve hheader
  have hquery := questionAt_question hname _ t1 t2 c1 c2 rest hheader
  have hid := u16At_questionMessage name _ t1 t2 c1 c2 rest hheader (show 0 < 11 by decide)
  have hcount : u16At [h0, h1, h2, h3, h4, h5, h6, h7, h8, h9, h10, h11] 4 =
      some (h4.toNat * 256 + h5.toNat) := rfl
  rw [hcount] at hquestions ⊢
  have hpos : h4.toNat * 256 + h5.toNat ≠ 0 := fun h => hquestions (congrArg some h)
  -- the header of the response, with the number of its answers
  let front (ancount : UInt8) : Bytes := [h0, h1, 0x85, 0x80, h4, h5, 0, ancount, 0, 0, 0, 0]
  cases hpart : answerPart fakeIp (t1.toNat * 256 + t2.toNat) with
  | none =>
    rw [hpart] at hresponse
    have hmsg : response = questionMessage name (front 0) t1 t2 c1 c2 [] := hresponse
    have hnone : (t1.toNat * 256 + t2.toNat = 1 ∨ t1.toNat * 256 + t2.toNat = 28) →
        ∀ ip, fakeIp = some ip → False := by
      intro hasked ip hip
      rw [answerPart, hip, Option.filter_some, if_pos (by simpa using hasked)] at hpart
      cases hpart
    rw [hmsg]
    constructor
    · rintro ⟨m, question, next, hdecode, -⟩
      obtain ⟨hshort, hone | ⟨hlong, -⟩⟩ := length_behind_of_decode hname (front 0) t1 t2 c1 c2 []
        rfl (show u16At (front 0) 4 = some _ from rfl) hpos hdecode
      · exact ⟨congrArg some hone, hshort⟩
      · exact absurd hlong (by decide)
    · rintro ⟨hone, hshort⟩
      rw [if_pos hshort] at hquery
      have hresponded := questionAt_question hname (front 0) t1 t2 c1 c2 [] rfl
      rw [if_pos hshort] at hresponded
      have hdecode : decode (questionMessage name (front 0) t1 t2 c1 c2 []) =
          some ⟨h0.toNat * 256 + h1.toNat, 0x8580,
            [⟨name, t1.toNat * 256 + t2.toNat, c1.toNat * 256 + c2.toNat⟩], [], [], []⟩ :=
        decode_of_sections rfl rfl hone rfl rfl rfl (by rw [many, hresponded]; rfl)
          (by rw [length_questionMessage name (front 0) t1 t2 c1 c2 [] rfl]; rfl)
      exact ⟨_, _, _, hdecode, hid, hquery, rfl, fun hasked ip hip => absurd hip (hnone hasked ip)⟩
  | some ip =>
    rw [hpart] at hresponse
    obtain ⟨hip, hasked⟩ := Option.filter_eq_some_iff.mp hpart
    have hasked : t1.toNat * 256 + t2.toNat = 1 ∨ t1.toNat * 256 + t2.toNat = 28 := by
      simpa using hasked
    have hsmall : ip.length < 65536 := by
      obtain ⟨h4, h16⟩ := hfits ip hip
      rcases hasked with h | h
      · rw [h4 h]
        decide
      · rw [h16 h]
        decide
    have hmsg : response = questionMessage name (front 1) t1 t2 c1 c2
        (answerRecord (t1.toNat * 256 + t2.toNat) ip) := by
      rw [hresponse]
      simp [writeHeader, questionMessage, front]
    rw [hmsg]
    constructor
    · rintro ⟨m, question, next, hdecode, -, -, -, hanswers⟩
      obtain ⟨rclass, ttl, honly⟩ := hanswers hasked ip hip
      obtain ⟨hshort, hone | ⟨-, hlong⟩⟩ := length_behind_of_decode hname (front 1) t1 t2 c1 c2
        (answerRecord _ ip) rfl (show u16At (front 1) 4 = some _ from rfl) hpos hdecode
      · exact ⟨congrArg some hone, hshort⟩
      · -- a second question takes too much of the record
        have htoo := hlong _ honly
        rw [answerRecord, length_append] at htoo
        simp only [length_cons, length_nil] at htoo
        omega
    · rintro ⟨hone, hshort⟩
      rw [if_pos hshort] at hquery
      have hresponded := questionAt_question hname (front 1) t1 t2 c1 c2
        (answerRecord (t1.toNat * 256 + t2.toNat) ip) rfl
      rw [if_pos hshort] at hresponded
      have hrecord := recordAt_answer hname (front 1) t1 t2 c1 c2 rfl hshort hqtype hsmall
      have hdecode : decode (questionMessage name (front 1) t1 t2 c1 c2
          (answerRecord (t1.toNat * 256 + t2.toNat) ip)) =
          some ⟨h0.toNat * 256 + h1.toNat, 0x8580,
            [⟨name, t1.toNat * 256 + t2.toNat, c1.toNat * 256 + c2.toNat⟩],
            [⟨name, t1.toNat * 256 + t2.toNat, 1, 1, ip⟩], [], []⟩ :=
        decode_of_sections rfl rfl hone (show u16At _ 6 = some 1 from rfl) rfl rfl
          (by rw [many, hresponded]; rfl) (by rw [many, hrecord]; rfl)
      refine ⟨_, _, _, hdecode, hid, hquery, rfl, ?_⟩
      intro _ ip' hip'
      obtain rfl : ip = ip' := Option.some.inj (hip.symm.trans hip')
      exact ⟨1, 1, rfl⟩

/-- A fake address is the one that the pool has allocated to the domain. -/
def Allocated (settings : DnsSettings) (pool pool' : FakeIp.FakeIpPool) (fakeIp : Option Bytes)
    (parsed : DnsQuery) : Prop :=
  ∀ ip, fakeIp = some ip → ∃ offset, pool.allocate (settings.lowercase parsed.domain) =
    (pool', offset) ∧
    ip = if parsed.qtype = 1 then FakeIp.ipv4Bytes offset else FakeIp.ipv6Bytes offset

/-- What `handleDnsQuery` sends is such a response: an address in it is of the family that is asked
for, and the one that the pool has allocated to the domain. -/
theorem handleDnsQuery_response (settings : DnsSettings) (pool : FakeIp.FakeIpPool)
    (payload : Bytes) :
    ∃ r, handleDnsQuery settings pool payload = .ok r ∧ ∀ response, r.2 = some response →
      ∃ parsed fakeIp, parseDnsQueryExt payload = .ok (some parsed) ∧ Fits fakeIp parsed.qtype ∧
        Allocated settings pool r.1 fakeIp parsed ∧
        generateDnsResponse payload fakeIp parsed.qtype = .ok (some response) := by
  obtain ⟨parsed, hparsed, -⟩ := parseDnsQueryExt_spec payload
  rw [handleDnsQuery, hparsed, bind_ok]
  cases parsed with
  | none => exact ⟨_, rfl, fun _ h => by cases h⟩
  | some parsed =>
    simp only
    have hresponds : ∀ (pool' : FakeIp.FakeIpPool) fakeIp, Fits fakeIp parsed.qtype →
        Allocated settings pool pool' fakeIp parsed →
        ∃ r, (do .ok (pool', ← generateDnsResponse payload fakeIp parsed.qtype) :
            Except OutOfBounds (FakeIp.FakeIpPool × Option Bytes)) = .ok r ∧
          ∀ response, r.2 = some response → ∃ parsed' fakeIp,
            Except.ok (some parsed) = (Except.ok (some parsed') : Except OutOfBounds _) ∧
            Fits fakeIp parsed'.qtype ∧
            Allocated settings pool r.1 fakeIp parsed' ∧
            generateDnsResponse payload fakeIp parsed'.qtype = .ok (some response) := by
      intro pool' fakeIp hfits hallocated
      obtain ⟨response, hresponse⟩ := generateDnsResponse_ok payload fakeIp parsed.qtype
      rw [hresponse, bind_ok]
      refine ⟨_, rfl, ?_⟩
      rintro response' rfl
      exact ⟨parsed, fakeIp, rfl, hfits, hallocated, hresponse⟩
    split
    · exact hresponds pool none (fun _ h => by cases h) fun _ h => by cases h
    · split
      · exact ⟨_, rfl, fun _ h => by cases h⟩
      · refine hresponds _ _ ?_ fun ip hip => ⟨_, rfl, ?_⟩
        · intro ip hip
          split at hip
          · cases hip
            exact ⟨fun _ => rfl, fun hAAAA => by omega⟩
          · rename_i hA
            split at hip
            · cases hip
              exact ⟨fun h => absurd h hA, fun _ => rfl⟩
            · cases hip
        · split at hip
          · rename_i hA
            rw [if_pos hA]
            exact (Option.some.inj hip).symm
          · rename_i hA
            rw [if_neg hA]
            split at hip
            · exact (Option.some.inj hip).symm
            · cases hip

/-- No read of either function is outside, on any input; and a response to a query that was
parsed is a good one just when the query has one question and its name is short. -/
theorem wellAnswered_iff (query : Bytes) (fakeIp : Option Bytes) (qtype : Nat) :
    (∃ r, parseDnsQueryExt query = .ok r) ∧ (∃ r, generateDnsResponse query fakeIp qtype = .ok r) ∧
    ∀ parsed response, parseDnsQueryExt query = .ok (some parsed) → Fits fakeIp parsed.qtype →
      generateDnsResponse query fakeIp parsed.qtype = .ok (some response) →
      (WellAnswered query fakeIp parsed.qtype response ↔ OneShortQuestion query) := by
  obtain ⟨r, hr, hspec⟩ := parseDnsQueryExt_spec query
  refine ⟨⟨r, hr⟩, generateDnsResponse_ok query fakeIp qtype, ?_⟩
  intro parsed response hparsed hfits hresponse
  obtain rfl : r = some parsed := Except.ok.inj (hr.symm.trans hparsed)
  obtain ⟨hlong, hcount, name, rest, hname, hquery, hqtype⟩ := hspec parsed rfl
  have hheader : (query.take 12).length = 12 := by
    rw [length_take]
    omega
  have hwhole := hresponse
  rw [hquery] at hwhole
  obtain ⟨hfour, -⟩ := generateDnsResponse_spec hname hheader hfits hwhole
  obtain ⟨t1, t2, c1, c2, rest, rfl⟩ : ∃ t1 t2 c1 c2 rest', rest = t1 :: t2 :: c1 :: c2 :: rest' :=
    match rest, hfour with
    | t1 :: t2 :: c1 :: c2 :: rest', _ => ⟨t1, t2, c1, c2, rest', rfl⟩
  -- the type is the one behind the name
  have htype := u16At_append (query.take 12 ++ encodeName name) (t1 :: t2 :: c1 :: c2 :: rest) 0
  rw [← hquery, length_append, hheader, Nat.add_zero, hqtype] at htype
  have htype : parsed.qtype = t1.toNat * 256 + t2.toNat := Option.some.inj htype
  have hfour := u16At_questionMessage name (query.take 12) t1 t2 c1 c2 rest hheader
    (show 4 < 11 by decide)
  rw [questionMessage, ← hquery] at hfour
  rw [hfour] at hcount
  rw [htype] at hfits hwhole ⊢
  have hiff := wellAnswered_iff_of_whole hname hheader hfits hcount hwhole
  rw [questionMessage, ← hquery, ← hfour] at hiff
  rw [hiff]
  constructor
  · rintro ⟨hone, hshort⟩
    exact ⟨hone, name, _, hname, hquery, hshort⟩
  · rintro ⟨hone, name', rest', hname', hquery', hshort⟩
    refine ⟨hone, ?_⟩
    -- both names are read at the same place
    have hread := labelsAt_encode hname (query.take 12) (t1 :: t2 :: c1 :: c2 :: rest)
      (name.length + name'.length + 1)
    have hread' := labelsAt_encode hname' (query.take 12) rest' (name.length + name'.length + 1)
    rw [← hquery, if_pos (by omega)] at hread
    rw [← hquery', if_pos (by omega), hread] at hread'
    obtain rfl : name = name' := (Prod.mk.inj (Option.some.inj hread')).1
    exact hshort

def queryOfA : Bytes := [0, 7, 1, 0, 0, 1, 0, 0, 0, 0, 0, 0, 1, 97, 0, 0, 1, 0, 1]

theorem queryOfA_wellAnswered : WellAnswered queryOfA (some [198, 18, 0, 1]) 1
    [0, 7, 0x85, 0x80, 0, 1, 0, 1, 0, 0, 0, 0, 1, 97, 0, 0, 1, 0, 1, 0xC0, 0x0C, 0, 1, 0,
      1, 0, 0, 0, 1, 0, 4, 198, 18, 0, 1] := by
  have hfits : Fits (some [198, 18, 0, 1]) 1 := by
    intro ip hip
    cases hip
    exact ⟨fun _ => rfl, fun h => absurd h (by decide)⟩
  have hname : WellFormed [[97]] := by
    intro label hlabel
    rw [mem_singleton] at hlabel
    rw [hlabel]
    decide
  exact ((wellAnswered_iff queryOfA (some [198, 18, 0, 1]) 1).2.2 ⟨['a'], 1⟩ _ (by decide)
    hfits (by decide)).mpr ⟨by decide, [[97]], [0, 1, 0, 1], hname, by decide, by decide⟩

/-- The same with a second question, for `b`. -/
def queryOfTwo : Bytes :=
  [0, 7, 1, 0, 0, 2, 0, 0, 0, 0, 0, 0, 1, 97, 0, 0, 1, 0, 1, 1, 98, 0, 0, 1, 0, 1]

/-- The response says that it has two questions, and has one. -/
theorem queryOfTwo_not_wellAnswered : ¬ ∀ (query : Bytes) (fakeIp : Option Bytes)
    (parsed : DnsQuery) (response : Bytes), parseDnsQueryExt query = .ok (some parsed) →
      Fits fakeIp parsed.qtype → generateDnsResponse query fakeIp parsed.qtype =
        .ok (some response) →
      WellAnswered query fakeIp parsed.qtype response := by
  intro h
  obtain ⟨m, question, next, hdecode, -⟩ := h queryOfTwo none ⟨['a'], 1⟩
    [0, 7, 0x85, 0x80, 0, 2, 0, 0, 0, 0, 0, 0, 1, 97, 0, 0, 1, 0, 1] (by decide)
    (fun _ hip => by cases hip) (by decide)
  have hnone : decode [0, 7, 0x85, 0x80, 0, 2, 0, 0, 0, 0, 0, 0, 1, 97, 0, 0, 1, 0, 1] = none := by
    decide
  rw [hnone] at hdecode
  cases hdecode

end Anywhere.Stack
