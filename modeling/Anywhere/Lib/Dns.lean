import Mathlib.Data.List.Basic
import Mathlib.Algebra.BigOperators.Group.List.Basic
import Mathlib.Tactic.Ring

/-!
# DNS messages

A decoder for whole messages: a header with the number of entries of each section, names of at
most 255 bytes that may end in a pointer to an earlier offset, questions and resource records.
Nothing may be left behind the last record.
-/

namespace Anywhere.Lib.Dns

open List

abbrev Name := List (List UInt8)

structure Question where
  name : Name
  type : Nat
  qclass : Nat

structure ResourceRecord where
  name : Name
  type : Nat
  rclass : Nat
  ttl : Nat
  rdata : List UInt8

structure Message where
  id : Nat
  flags : Nat
  questions : List Question
  answers : List ResourceRecord
  authorities : List ResourceRecord
  additionals : List ResourceRecord

-- ----
-- The decoder

section

variable (msg : List UInt8)

def u16At (i : Nat) : Option Nat :=
  (msg[i]?).bind fun a => (msg[i + 1]?).map fun b => a.toNat * 256 + b.toNat

/-- The labels from an offset on, and the offset behind them. A pointer leads back. -/
def labelsAt : Nat → Nat → Option (Name × Nat)
  | 0, _ => none
  | n + 1, i =>
    (msg[i]?).bind fun b =>
      if b.toNat = 0 then some ([], i + 1)
      else if b.toNat < 64 then
        if i + 1 + b.toNat ≤ msg.length then
          (labelsAt n (i + 1 + b.toNat)).map fun r => ((msg.drop (i + 1)).take b.toNat :: r.1, r.2)
        else none
      else if 192 ≤ b.toNat then
        (u16At msg i).bind fun pointer =>
          if pointer - 0xC000 < i then (labelsAt n (pointer - 0xC000)).map fun r => (r.1, i + 2)
          else none
      else none

def nameLength (name : Name) : Nat := (name.map fun label => label.length + 1).sum + 1

/-- A name of at most 255 bytes. -/
def nameAt (i : Nat) : Option (Name × Nat) :=
  (labelsAt msg 256 i).filter fun r => nameLength r.1 ≤ 255

def questionAt (i : Nat) : Option (Question × Nat) := do
  let (name, i) ← nameAt msg i
  let type ← u16At msg i
  let qclass ← u16At msg (i + 2)
  some (⟨name, type, qclass⟩, i + 4)

def recordAt (i : Nat) : Option (ResourceRecord × Nat) := do
  let (name, i) ← nameAt msg i
  let type ← u16At msg i
  let rclass ← u16At msg (i + 2)
  let hi ← u16At msg (i + 4)
  let lo ← u16At msg (i + 6)
  let rdlength ← u16At msg (i + 8)
  if i + 10 + rdlength ≤ msg.length then
    some (⟨name, type, rclass, hi * 65536 + lo, (msg.drop (i + 10)).take rdlength⟩,
      i + 10 + rdlength)
  else none

/-- As many entries as the header says. -/
def many {α : Type} (read : Nat → Option (α × Nat)) : Nat → Nat → Option (List α × Nat)
  | 0, i => some ([], i)
  | n + 1, i =>
    (read i).bind fun entry =>
      (many read n entry.2).map fun entries => (entry.1 :: entries.1, entries.2)

def decode : Option Message := do
  let id ← u16At msg 0
  let flags ← u16At msg 2
  let qdcount ← u16At msg 4
  let ancount ← u16At msg 6
  let nscount ← u16At msg 8
  let arcount ← u16At msg 10
  let (questions, i) ← many (questionAt msg) qdcount 12
  let (answers, i) ← many (recordAt msg) ancount i
  let (authorities, i) ← many (recordAt msg) nscount i
  let (additionals, i) ← many (recordAt msg) arcount i
  if i = msg.length then some ⟨id, flags, questions, answers, authorities, additionals⟩ else none

end

-- ----
-- Names

def encodeName (name : Name) : List UInt8 :=
  name.flatMap (fun label => UInt8.ofNat label.length :: label) ++ [0]

/-- Labels of 1 to 63 bytes. -/
def WellFormed (name : Name) : Prop := ∀ label ∈ name, 0 < label.length ∧ label.length < 64

theorem encodeName_cons (label : List UInt8) (name : Name) :
    encodeName (label :: name) = UInt8.ofNat label.length :: (label ++ encodeName name) := by
  simp [encodeName]

theorem length_encodeName (name : Name) : (encodeName name).length = nameLength name := by
  induction name with
  | nil => rfl
  | cons label name ih =>
    rw [encodeName_cons, length_cons, length_append, ih, nameLength, nameLength,
      map_cons, sum_cons]
    omega

variable {name : Name}

theorem length_le_nameLength (h : WellFormed name) :
    2 * name.length < nameLength name := by
  induction name with
  | nil => exact Nat.zero_lt_one
  | cons label name ih =>
    have hlabel := (h label mem_cons_self).1
    have hname := ih fun other hother => h other (mem_cons_of_mem _ hother)
    rw [nameLength, map_cons, sum_cons, length_cons]
    rw [nameLength] at hname
    omega

theorem WellFormed.toNat_length {label : List UInt8} (h : WellFormed (label :: name)) :
    (UInt8.ofNat label.length).toNat = label.length := by
  have hlabel := (h label mem_cons_self).2
  rw [UInt8.toNat_ofNat']
  omega

theorem WellFormed.tail {label : List UInt8} (h : WellFormed (label :: name)) :
    WellFormed name := fun other hother => h other (mem_cons_of_mem _ hother)

/-- A name that is written out is read back, if the labels are not too many. -/
theorem labelsAt_encode (h : WellFormed name) (front behind : List UInt8) (n : Nat) :
    labelsAt (front ++ encodeName name ++ behind) n front.length =
      if name.length < n then some (name, front.length + (encodeName name).length) else none := by
  induction name generalizing front n with
  | nil =>
    cases n with
    | zero => rfl
    | succ n => simp [labelsAt, encodeName]
  | cons label name ih =>
    obtain ⟨hpos, hlt⟩ := h label mem_cons_self
    have hlength := h.toNat_length
    cases n with
    | zero => rfl
    | succ n =>
      have hmsg : front ++ encodeName (label :: name) ++ behind =
          (front ++ UInt8.ofNat label.length :: label) ++ encodeName name ++ behind := by
        simp [encodeName_cons]
      have hfront : (front ++ UInt8.ofNat label.length :: label).length =
          front.length + 1 + label.length := by
        rw [length_append, length_cons]
        omega
      have hbyte : (front ++ encodeName (label :: name) ++ behind)[front.length]? =
          some (UInt8.ofNat label.length) := by
        simp [encodeName_cons]
      have hlabel : ((front ++ encodeName (label :: name) ++ behind).drop (front.length + 1)).take
          label.length = label := by
        rw [encodeName_cons, append_assoc, drop_append, drop_of_length_le (by omega)]
        simp
      have hfits : front.length + 1 + label.length ≤
          (front ++ encodeName (label :: name) ++ behind).length := by
        simp only [length_append, encodeName_cons, length_cons]
        omega
      have hnext := ih h.tail (front ++ UInt8.ofNat label.length :: label) n
      rw [← hmsg, hfront] at hnext
      rw [labelsAt, hbyte, Option.bind_some, hlength, if_neg (by omega), if_pos hlt, if_pos hfits,
        hlabel, hnext]
      by_cases hn : name.length < n
      · rw [if_pos hn, if_pos (by rw [length_cons]; omega), Option.map_some, encodeName_cons,
          length_cons, length_append]
        congr 2
        omega
      · rw [if_neg hn, if_neg (by rw [length_cons]; omega)]
        rfl

/-- A name that is written out is read back, unless it is too long. -/
theorem nameAt_encode (h : WellFormed name) (front behind : List UInt8) :
    nameAt (front ++ encodeName name ++ behind) front.length =
      if nameLength name ≤ 255 then some (name, front.length + (encodeName name).length)
      else none := by
  have hcount := length_le_nameLength h
  rw [nameAt, labelsAt_encode h]
  by_cases hshort : nameLength name ≤ 255
  · rw [if_pos (by omega), if_pos hshort]
    simp [hshort]
  · rw [if_neg hshort]
    by_cases hn : name.length < 256
    · rw [if_pos hn, Option.filter_some, if_neg (by simpa using hshort)]
    · rw [if_neg hn]
      rfl

theorem u16At_append (front behind : List UInt8) (k : Nat) :
    u16At (front ++ behind) (front.length + k) = u16At behind k := by
  have hget : ∀ j, (front ++ behind)[front.length + j]? = behind[j]? := by
    intro j
    rw [List.getElem?_append_right (Nat.le_add_right _ _), Nat.add_sub_cancel_left]
  rw [u16At, u16At, Nat.add_assoc, hget, hget]

theorem u16At_append_left {front : List UInt8} {k : Nat} (h : k + 1 < front.length)
    (behind : List UInt8) : u16At (front ++ behind) k = u16At front k := by
  rw [u16At, u16At, List.getElem?_append_left (by omega), List.getElem?_append_left h]

theorem nameAt_pointer (h : WellFormed name) {front behind : List UInt8} {i : Nat}
    (hpointer : u16At (front ++ encodeName name ++ behind) i = some (0xC000 + front.length))
    (hback : front.length < i) (hoffset : front.length < 0x4000) (hshort : nameLength name ≤ 255) :
    nameAt (front ++ encodeName name ++ behind) i = some (name, i + 2) := by
  have hcount := length_le_nameLength h
  obtain ⟨a, ha, hb⟩ := Option.bind_eq_some_iff.mp hpointer
  obtain ⟨b, -, hab⟩ := Option.map_eq_some_iff.mp hb
  have hlow := b.toNat_lt
  rw [nameAt, labelsAt, ha, Option.bind_some, if_neg (by omega), if_neg (by omega),
    if_pos (by omega), hpointer, Option.bind_some, Nat.add_sub_cancel_left, if_pos hback,
    labelsAt_encode h, if_pos (by omega), Option.map_some, Option.filter_some, if_pos]
  exact decide_eq_true hshort

-- ----
-- How far the readers get

section

variable {msg : List UInt8} {i j k : Nat}

theorem u16At_lt (h : u16At msg i = some k) : i + 1 < msg.length := by
  obtain ⟨a, -, h⟩ := Option.bind_eq_some_iff.mp h
  obtain ⟨b, hb, -⟩ := Option.map_eq_some_iff.mp h
  exact (List.getElem?_eq_some_iff.mp hb).1

theorem labelsAt_next {n : Nat} (h : labelsAt msg n i = some (name, j)) :
    i < j ∧ j ≤ msg.length := by
  induction n generalizing i name with
  | zero => cases h
  | succ n ih =>
    rw [labelsAt] at h
    obtain ⟨b, hb, h⟩ := Option.bind_eq_some_iff.mp h
    have hi := (List.getElem?_eq_some_iff.mp hb).1
    split at h
    · cases h
      exact ⟨Nat.lt_succ_self i, hi⟩
    · split at h
      · split at h
        · obtain ⟨⟨rest, j'⟩, hrest, hj⟩ := Option.map_eq_some_iff.mp h
          cases hj
          have hnext := ih hrest
          omega
        · cases h
      · split at h
        · obtain ⟨pointer, hpointer, h⟩ := Option.bind_eq_some_iff.mp h
          have hlt := u16At_lt hpointer
          split at h
          · obtain ⟨r, -, hj⟩ := Option.map_eq_some_iff.mp h
            cases hj
            omega
          · cases h
        · cases h

theorem nameAt_next (h : nameAt msg i = some (name, j)) :
    i < j ∧ j ≤ msg.length :=
  labelsAt_next (Option.filter_eq_some_iff.mp h).1

/-- A question takes five bytes, and ends inside the message. -/
theorem questionAt_next {q : Question} (h : questionAt msg i = some (q, j)) :
    i + 5 ≤ j ∧ j ≤ msg.length := by
  simp only [questionAt, Option.bind_eq_bind, Option.bind_eq_some_iff] at h
  obtain ⟨⟨name, i'⟩, hname, type, -, qclass, hclass, h⟩ := h
  cases h
  have hnext := nameAt_next hname
  have hlt := u16At_lt hclass
  omega

/-- A record takes eleven bytes and its data, and ends inside the message. -/
theorem recordAt_next {r : ResourceRecord} (h : recordAt msg i = some (r, j)) :
    i + 11 + r.rdata.length ≤ j ∧ j ≤ msg.length := by
  simp only [recordAt, Option.bind_eq_bind, Option.bind_eq_some_iff] at h
  obtain ⟨⟨name, i'⟩, hname, type, -, rclass, -, hi, -, lo, -, rdlength, -, h⟩ := h
  have hnext := nameAt_next hname
  split at h
  · cases h
    simp only [length_take, length_drop]
    omega
  · cases h

/-- A list of entries of at least this many bytes. -/
theorem many_next {α : Type} {read : Nat → Option (α × Nat)} {size : Nat}
    (hread : ∀ i entry j, read i = some (entry, j) → i + size ≤ j ∧ j ≤ msg.length) {n : Nat}
    {entries : List α} (hi : i ≤ msg.length) (h : many read n i = some (entries, j)) :
    entries.length = n ∧ i + size * n ≤ j ∧ j ≤ msg.length := by
  induction n generalizing i entries with
  | zero =>
    cases h
    exact ⟨rfl, Nat.le_refl _, hi⟩
  | succ n ih =>
    rw [many] at h
    obtain ⟨⟨entry, i'⟩, hentry, h⟩ := Option.bind_eq_some_iff.mp h
    obtain ⟨⟨rest, j'⟩, hrest, h⟩ := Option.map_eq_some_iff.mp h
    cases h
    obtain ⟨hle, hlen⟩ := hread _ _ _ hentry
    obtain ⟨hcount, hle', hlen'⟩ := ih hlen hrest
    rw [Nat.mul_succ]
    exact ⟨congrArg (· + 1) hcount, by omega, hlen'⟩

-- ----
-- Whole messages

/-- The parts of a message, with the offsets behind its sections. -/
structure Decoded (msg : List UInt8) (m : Message) (qdcount ancount i j : Nat) : Prop where
  id : u16At msg 0 = some m.id
  qdcount_eq : u16At msg 4 = some qdcount
  ancount_eq : u16At msg 6 = some ancount
  questions : many (questionAt msg) qdcount 12 = some (m.questions, i)
  answers : many (recordAt msg) ancount i = some (m.answers, j)
  length : i ≤ j ∧ j ≤ msg.length

theorem decoded_of_decode {m : Message} (h : decode msg = some m) :
    ∃ qdcount ancount i j, Decoded msg m qdcount ancount i j := by
  simp only [decode, Option.bind_eq_bind, Option.bind_eq_some_iff] at h
  obtain ⟨id, hid, flags, -, qdcount, hqdcount, ancount, hancount, nscount, -, arcount, harcount,
    ⟨questions, i⟩, hquestions, ⟨answers, j⟩, hanswers, ⟨authorities, k⟩, -,
    ⟨additionals, l⟩, -, h⟩ := h
  split at h
  · cases h
    have harlength := u16At_lt harcount
    have hrecord : ∀ i r j, recordAt msg i = some (r, j) → i + 11 ≤ j ∧ j ≤ msg.length := by
      intro i r j hr
      have hnext := recordAt_next hr
      omega
    obtain ⟨-, -, hi⟩ := many_next (fun _ _ _ => questionAt_next) (by omega) hquestions
    obtain ⟨-, hj, hlength⟩ := many_next hrecord hi hanswers
    exact ⟨qdcount, ancount, i, j, hid, hqdcount, hancount, hquestions, hanswers,
      Nat.le_of_add_right_le hj, hlength⟩
  · cases h

/-- A message without authorities and additional records. -/
theorem decode_of_sections {id flags qdcount ancount : Nat} {questions : List Question}
    {answers : List ResourceRecord} (hid : u16At msg 0 = some id)
    (hflags : u16At msg 2 = some flags) (hqdcount : u16At msg 4 = some qdcount)
    (hancount : u16At msg 6 = some ancount) (hnscount : u16At msg 8 = some 0)
    (harcount : u16At msg 10 = some 0)
    (hquestions : many (questionAt msg) qdcount 12 = some (questions, i))
    (hanswers : many (recordAt msg) ancount i = some (answers, msg.length)) :
    decode msg = some ⟨id, flags, questions, answers, [], []⟩ := by
  simp [decode, hid, hflags, hqdcount, hancount, hnscount, harcount, hquestions, hanswers, many]

end

end Anywhere.Lib.Dns
