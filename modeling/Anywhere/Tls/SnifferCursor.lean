import Anywhere.Lib.ArrayReads
import Anywhere.Tls.ClientHelloSniffer

/-!
# Anywhere — the buffer of `TlsClientHelloSniffer`

The sniffer as it reads its buffer: an array that grows by doubling, and a `Cursor` into it,
where a read outside the array is an error. What is behind `bufferLen` in the array belongs to
nobody.
-/

namespace Anywhere.Tls.TlsClientHelloSniffer

open Lib List

-- ----
-- The cursor

structure Cursor where
  data : Bytes
  pos : Nat
  endPos : Nat

namespace Cursor

def isAtEnd (c : Cursor) : Prop := c.pos ≥ c.endPos

instance (c : Cursor) : Decidable c.isAtEnd := inferInstanceAs (Decidable (c.pos ≥ c.endPos))

def advance (c : Cursor) (n : Nat) : Cursor := { c with pos := c.pos + n }

def skip (c : Cursor) (n : Nat) : Option Cursor :=
  if c.pos + n > c.endPos then none else some (c.advance n)

def readU8 (c : Cursor) : Except OutOfBounds (Option (Nat × Cursor)) :=
  if c.pos ≥ c.endPos then .ok none
  else do
    let v ← readByte c.data c.pos
    .ok (some (v.toNat, c.advance 1))

def readU16 (c : Cursor) : Except OutOfBounds (Option (Nat × Cursor)) :=
  if c.pos + 2 > c.endPos then .ok none
  else do
    let a ← readByte c.data c.pos
    let b ← readByte c.data (c.pos + 1)
    .ok (some (a.toNat * 256 + b.toNat, c.advance 2))

def readU24 (c : Cursor) : Except OutOfBounds (Option (Nat × Cursor)) :=
  if c.pos + 3 > c.endPos then .ok none
  else do
    let a ← readByte c.data c.pos
    let b ← readByte c.data (c.pos + 1)
    let d ← readByte c.data (c.pos + 2)
    .ok (some (a.toNat * 65536 + b.toNat * 256 + d.toNat, c.advance 3))

def remaining (c : Cursor) : Bytes := (c.data.take c.endPos).drop c.pos

structure Inside (c : Cursor) : Prop where
  pos : c.pos ≤ c.endPos
  endPos : c.endPos ≤ c.data.length

variable {c : Cursor} {n : Nat}

@[simp] theorem advance_data (c : Cursor) (n : Nat) : (c.advance n).data = c.data := rfl

@[simp] theorem advance_endPos (c : Cursor) (n : Nat) : (c.advance n).endPos = c.endPos := rfl

@[simp] theorem advance_pos (c : Cursor) (n : Nat) : (c.advance n).pos = c.pos + n := rfl

theorem Inside.length (h : c.Inside) : c.remaining.length = c.endPos - c.pos := by
  have hend := h.endPos
  rw [remaining, length_drop, length_take]
  omega

theorem Inside.advance (h : c.Inside) (hn : c.pos + n ≤ c.endPos) : (c.advance n).Inside :=
  ⟨hn, h.endPos⟩

/-- The first `n` bytes of a cursor. -/
def first (c : Cursor) (n : Nat) : Cursor := { c with endPos := c.pos + n }

theorem Inside.first (h : c.Inside) (hn : c.pos + n ≤ c.endPos) : (c.first n).Inside :=
  ⟨Nat.le_add_right _ _, Nat.le_trans hn h.endPos⟩

theorem remaining_first (hn : c.pos + n ≤ c.endPos) :
    (c.first n).remaining = c.remaining.take n := by
  show (c.data.take (c.pos + n)).drop c.pos = ((c.data.take c.endPos).drop c.pos).take n
  rw [drop_take, drop_take, take_take, Nat.add_sub_cancel_left,
    Nat.min_eq_left (by omega : n ≤ c.endPos - c.pos)]

theorem remaining_advance (c : Cursor) (n : Nat) : (c.advance n).remaining = c.remaining.drop n :=
  drop_drop.symm

theorem remaining_cons (h : c.Inside) (hpos : c.pos < c.endPos) :
    ∃ a, readByte c.data c.pos = .ok a ∧ c.remaining = a :: (c.advance 1).remaining := by
  have hlt : c.pos < c.data.length := Nat.lt_of_lt_of_le hpos h.endPos
  have hcons : c.remaining ≠ [] := by
    intro hnil
    have hlen := h.length
    rw [hnil, length_nil] at hlen
    omega
  obtain ⟨a, rest, hrest⟩ := exists_cons_of_ne_nil hcons
  refine ⟨a, ?_, ?_⟩
  · have hget : c.remaining[0]? = c.data[c.pos]? := by
      rw [remaining, List.getElem?_drop, Nat.add_zero, List.getElem?_take_of_lt hpos]
    rw [hrest, List.getElem?_cons_zero] at hget
    rw [readByte, ← hget]
  · rw [remaining_advance, hrest, drop_one, tail_cons]

/-- A read of `n` bytes and the parser's own of what remains. -/
def Reads (c : Cursor) (n : Nat) (read : Except OutOfBounds (Option (Nat × Cursor)))
    (parsed : Option (Nat × Bytes)) : Prop :=
  (read = .ok none ∧ parsed = none) ∨
    ∃ v, read = .ok (some (v, c.advance n)) ∧ parsed = some (v, (c.advance n).remaining) ∧
      (c.advance n).Inside

theorem readU8_reads (h : c.Inside) :
    Reads c 1 c.readU8 (TlsClientHelloSniffer.readU8 c.remaining) := by
  rw [readU8]
  split
  · rename_i hend
    have hnil : c.remaining = [] := by
      apply eq_nil_of_length_eq_zero
      rw [h.length]
      omega
    exact .inl ⟨rfl, by rw [hnil, TlsClientHelloSniffer.readU8]⟩
  · rename_i hpos
    obtain ⟨a, ha, hrest⟩ := remaining_cons h (by omega)
    refine .inr ⟨a.toNat, ?_, ?_, h.advance (by omega)⟩
    · rw [ha, bind_ok]
    · rw [hrest, TlsClientHelloSniffer.readU8]

theorem readU16_reads (h : c.Inside) :
    Reads c 2 c.readU16 (TlsClientHelloSniffer.readU16 c.remaining) := by
  have hlen := h.length
  rw [readU16]
  split
  · rename_i hend
    refine .inl ⟨rfl, ?_⟩
    rcases hrest : c.remaining with _ | ⟨a, _ | ⟨b, rest⟩⟩
    · rfl
    · rfl
    · rw [hrest, length_cons, length_cons] at hlen
      omega
  · rename_i hpos
    obtain ⟨a, ha, hrest⟩ := remaining_cons h (by omega)
    obtain ⟨b, hb, hrest'⟩ := remaining_cons (h.advance (n := 1) (by omega)) (by
      rw [advance_pos, advance_endPos]
      omega)
    rw [advance_data, advance_pos] at hb
    refine .inr ⟨a.toNat * 256 + b.toNat, ?_, ?_, h.advance (by omega)⟩
    · rw [ha, bind_ok, hb, bind_ok]
    · rw [hrest, hrest', TlsClientHelloSniffer.readU16]
      rfl

theorem readU24_reads (h : c.Inside) :
    Reads c 3 c.readU24 (TlsClientHelloSniffer.readU24 c.remaining) := by
  have hlen := h.length
  rw [readU24]
  split
  · rename_i hend
    refine .inl ⟨rfl, ?_⟩
    rcases hrest : c.remaining with _ | ⟨a, _ | ⟨b, _ | ⟨d, rest⟩⟩⟩
    · rfl
    · rfl
    · rfl
    · rw [hrest, length_cons, length_cons, length_cons] at hlen
      omega
  · rename_i hpos
    obtain ⟨a, ha, hrest⟩ := remaining_cons h (by omega)
    obtain ⟨b, hb, hrest'⟩ := remaining_cons (h.advance (n := 1) (by omega)) (by
      rw [advance_pos, advance_endPos]
      omega)
    obtain ⟨d, hd, hrest''⟩ := remaining_cons (h.advance (n := 2) (by omega)) (by
      rw [advance_pos, advance_endPos]
      omega)
    rw [advance_data, advance_pos] at hb hd
    refine .inr ⟨a.toNat * 65536 + b.toNat * 256 + d.toNat, ?_, ?_, h.advance (by omega)⟩
    · rw [ha, bind_ok, hb, bind_ok, hd, bind_ok]
    · rw [hrest, hrest', show ((c.advance 1).advance 1).remaining =
        (c.advance 2).remaining from rfl, hrest'', TlsClientHelloSniffer.readU24]
      rfl

theorem skip_reads (h : c.Inside) (n : Nat) :
    (c.skip n = none ∧ TlsClientHelloSniffer.skip n c.remaining = none) ∨
      (c.skip n = some (c.advance n) ∧
        TlsClientHelloSniffer.skip n c.remaining = some (c.advance n).remaining ∧
          (c.advance n).Inside) := by
  have hlen := h.length
  have hpos := h.pos
  rw [skip, TlsClientHelloSniffer.skip]
  by_cases hfits : c.pos + n > c.endPos
  · exact .inl ⟨if_pos hfits, if_pos (by omega)⟩
  · refine .inr ⟨if_neg hfits, ?_, h.advance (by omega)⟩
    rw [if_neg (by omega), remaining_advance]

end Cursor

-- ----
-- The layers

namespace Indexed

theorem readU8_advance {c c' : Cursor} {v : Nat} (h : c.readU8 = .ok (some (v, c'))) :
    c' = c.advance 1 := by
  rw [Cursor.readU8] at h
  split at h
  · cases h
  · rcases hread : readByte c.data c.pos with e | a
    · rw [hread] at h
      cases h
    · rw [hread] at h
      cases h
      rfl

theorem readU16_advance {c c' : Cursor} {v : Nat} (h : c.readU16 = .ok (some (v, c'))) :
    c' = c.advance 2 := by
  rw [Cursor.readU16] at h
  split at h
  · cases h
  · rcases hhi : readByte c.data c.pos with e | a
    · rw [hhi] at h
      cases h
    · rw [hhi, bind_ok] at h
      rcases hlo : readByte c.data (c.pos + 1) with e | b
      · rw [hlo] at h
        cases h
      · rw [hlo] at h
        cases h
        rfl

variable (lowercase : Text → Text)

theorem parseNames_reads (beyond : Nat) (bytes : Bytes) :
    TlsClientHelloSniffer.parseNames lowercase beyond bytes =
      if bytes.length > beyond then
        match TlsClientHelloSniffer.readU8 bytes with
        | none => none
        | some (nameType, rest) =>
          match TlsClientHelloSniffer.readU16 rest with
          | none => none
          | some (nameLen, rest) =>
            if rest.length < nameLen + beyond then none
            else if nameType = 0x00 ∧ nameLen > 0 then
              some (lowercase (decodeUtf8 (rest.take nameLen)))
            else TlsClientHelloSniffer.parseNames lowercase beyond (rest.drop nameLen)
      else none := by
  rcases bytes with _ | ⟨a, _ | ⟨b, _ | ⟨c, rest⟩⟩⟩
  · rw [TlsClientHelloSniffer.parseNames]
    · rfl
    · simp
  · rw [TlsClientHelloSniffer.parseNames]
    · rfl
    · simp
  · rw [TlsClientHelloSniffer.parseNames]
    · rfl
    · simp
  · have hzero : a.toNat = 0 ↔ a = 0x00 := by rw [← UInt8.toNat_inj]; rfl
    rw [TlsClientHelloSniffer.parseNames]
    simp only [TlsClientHelloSniffer.readU8, TlsClientHelloSniffer.readU16, hzero]

theorem parseExtensions_reads (bytes : Bytes) :
    TlsClientHelloSniffer.parseExtensions lowercase bytes =
      match TlsClientHelloSniffer.readU16 bytes with
      | none => .unavailable
      | some (extType, rest) =>
        match TlsClientHelloSniffer.readU16 rest with
        | none => .unavailable
        | some (extLen, rest) =>
          if rest.length < extLen then .unavailable
          else if extType = 0x0000 then
            match TlsClientHelloSniffer.parseServerNameList lowercase (rest.take extLen) with
            | some name => .found name
            | none => .unavailable
          else TlsClientHelloSniffer.parseExtensions lowercase (rest.drop extLen) := by
  rcases bytes with _ | ⟨a, _ | ⟨b, _ | ⟨c, _ | ⟨d, rest⟩⟩⟩⟩
  iterate 4
    rw [TlsClientHelloSniffer.parseExtensions]
    · rfl
    · simp
  rw [TlsClientHelloSniffer.parseExtensions]
  rfl

def parseNames (cur : Cursor) (listEnd : Nat) : Except OutOfBounds (Option Text) :=
  if cur.pos < listEnd then
    match _htype : cur.readU8 with
    | .error e => .error e
    | .ok none => .ok none
    | .ok (some (nameType, cur₁)) =>
      match _hlen : cur₁.readU16 with
      | .error e => .error e
      | .ok none => .ok none
      | .ok (some (nameLen, cur₂)) =>
        let nameEnd := cur₂.pos + nameLen
        if nameEnd > listEnd then .ok none
        else if nameType = 0x00 ∧ nameLen > 0 then do
          let host ← readBytes cur₂.data cur₂.pos nameLen
          .ok (some (lowercase (decodeUtf8 host)))
        else parseNames { cur₂ with pos := nameEnd } listEnd
  else .ok none
termination_by listEnd - cur.pos
decreasing_by
  rw [readU16_advance _hlen, readU8_advance _htype]
  simp only [Cursor.advance_pos]
  omega

def parseServerNameList (buffer : Bytes) (start endPos : Nat) :
    Except OutOfBounds (Option Text) := do
  let some (listLen, cur) ← Cursor.readU16 ⟨buffer, start, endPos⟩ | return none
  let listEnd := cur.pos + listLen
  if listEnd > endPos then return none
  else parseNames lowercase cur listEnd

def extensions (buffer : Bytes) (cur : Cursor) : Except OutOfBounds State :=
  if ¬ cur.isAtEnd then
    match _htype : cur.readU16 with
    | .error e => .error e
    | .ok none => .ok .unavailable
    | .ok (some (extType, cur₁)) =>
      match _hlen : cur₁.readU16 with
      | .error e => .error e
      | .ok none => .ok .unavailable
      | .ok (some (extLen, cur₂)) =>
        let extEnd := cur₂.pos + extLen
        if extEnd > cur₂.endPos then .ok .unavailable
        else if extType = 0x0000 then do
          match ← parseServerNameList lowercase buffer cur₂.pos extEnd with
          | some name => .ok (.found name)
          | none => .ok .unavailable
        else extensions buffer { cur₂ with pos := extEnd }
  else .ok .unavailable
termination_by cur.endPos - cur.pos
decreasing_by
  rename_i hend _ _
  have hpos : cur.pos < cur.endPos := Nat.lt_of_not_le hend
  rw [readU16_advance _hlen, readU16_advance _htype]
  simp only [Cursor.advance_pos, Cursor.advance_endPos]
  omega

def parseExtensions (buffer : Bytes) (start endPos : Nat) : Except OutOfBounds State :=
  extensions lowercase buffer ⟨buffer, start, endPos⟩

def parseClientHello (buffer : Bytes) (start endPos : Nat) : Except OutOfBounds State := do
  let some cur := Cursor.skip ⟨buffer, start, endPos⟩ (2 + 32) | return .unavailable
  let some (sidLen, cur) ← cur.readU8 | return .unavailable
  let some cur := cur.skip sidLen | return .unavailable
  let some (csLen, cur) ← cur.readU16 | return .unavailable
  let some cur := cur.skip csLen | return .unavailable
  let some (cmLen, cur) ← cur.readU8 | return .unavailable
  let some cur := cur.skip cmLen | return .unavailable
  let some (extLen, cur) ← cur.readU16 | return .unavailable
  let extEnd := cur.pos + extLen
  if extEnd > endPos then return .unavailable
  else parseExtensions lowercase buffer cur.pos extEnd

def parseHandshake (buffer : Bytes) (start endPos : Nat) : Except OutOfBounds State := do
  let some (msgType, cur) ← Cursor.readU8 ⟨buffer, start, endPos⟩ | return .unavailable
  if msgType ≠ 0x01 then return .unavailable
  else
    let some (bodyLen, cur) ← cur.readU24 | return .unavailable
    let bodyEnd := cur.pos + bodyLen
    if bodyEnd > endPos then return .unavailable
    else parseClientHello lowercase buffer cur.pos bodyEnd

def parse (buffer : Bytes) (bufferLen : Nat) : Except OutOfBounds State := do
  if bufferLen < 5 then return .needMore
  else
    let contentType ← readByte buffer 0
    if contentType ≠ 0x16 then return .unavailable
    else
      let fragLen ← Lib.readWord buffer 3
      if fragLen ≤ 0 ∨ fragLen > 16384 then return .unavailable
      else
        let recordEnd := 5 + fragLen
        if bufferLen < recordEnd then return .needMore
        else parseHandshake lowercase buffer 5 recordEnd


section Reading

variable {cur : Cursor} {listEnd type length : Nat}

theorem parseNames_short (hpos : cur.pos < listEnd)
    (htype : cur.readU8 = .ok (some (type, cur.advance 1)))
    (hlen : (cur.advance 1).readU16 = .ok none) : parseNames lowercase cur listEnd = .ok none := by
  rw [parseNames, if_pos hpos]
  split <;> rename_i h <;> rw [htype] at h <;> cases h
  split <;> rename_i h <;> rw [hlen] at h <;> cases h

theorem parseNames_next (hpos : cur.pos < listEnd)
    (htype : cur.readU8 = .ok (some (type, cur.advance 1)))
    (hlen : (cur.advance 1).readU16 = .ok (some (length, cur.advance 3))) :
    parseNames lowercase cur listEnd =
      if cur.pos + 3 + length > listEnd then .ok none
      else if type = 0x00 ∧ length > 0 then do
        let host ← readBytes cur.data (cur.pos + 3) length
        .ok (some (lowercase (decodeUtf8 host)))
      else parseNames lowercase ((cur.advance 3).advance length) listEnd := by
  rw [parseNames, if_pos hpos]
  split <;> rename_i h <;> rw [htype] at h <;> cases h
  split <;> rename_i h <;> rw [hlen] at h <;> cases h
  rfl

theorem readBytes_remaining (hin : cur.Inside) (hn : cur.pos + length ≤ cur.endPos) :
    readBytes cur.data cur.pos length = .ok (cur.remaining.take length) := by
  have hend := hin.endPos
  rw [readBytes_eq (by omega), Cursor.remaining, drop_take, take_take,
    Nat.min_eq_left (by omega : length ≤ cur.endPos - cur.pos)]

theorem parseNames_eq (hin : cur.Inside) (hlist : listEnd ≤ cur.endPos) :
    parseNames lowercase cur listEnd =
      .ok (TlsClientHelloSniffer.parseNames lowercase (cur.endPos - listEnd) cur.remaining) := by
  induction hroom : listEnd - cur.pos using Nat.strong_induction_on generalizing cur with
  | _ room ih =>
    have hlen := hin.length
    rw [parseNames_reads]
    by_cases hpos : cur.pos < listEnd
    · rw [if_pos (by omega)]
      rcases Cursor.readU8_reads hin with ⟨-, hnone⟩ | ⟨nameType, htype, hbytes, hin₁⟩
      · rcases hrest : cur.remaining with _ | ⟨a, rest⟩
        · rw [hrest, length_nil] at hlen
          omega
        · rw [hrest] at hnone
          cases hnone
      rw [hbytes]
      dsimp only
      rcases Cursor.readU16_reads hin₁ with ⟨hlength, hnone⟩ | ⟨nameLen, hlength, hbytes₂, hin₂⟩
      · rw [parseNames_short lowercase hpos htype hlength, hnone]
      rw [show (cur.advance 1).advance 2 = cur.advance 3 from rfl] at hlength hbytes₂ hin₂
      have hlen₂ : (cur.advance 3).remaining.length = cur.endPos - (cur.pos + 3) := hin₂.length
      have hinside : cur.pos + 3 ≤ cur.endPos := hin₂.pos
      rw [parseNames_next lowercase hpos htype hlength, hbytes₂]
      dsimp only
      by_cases hfits : cur.pos + 3 + nameLen > listEnd
      · rw [if_pos hfits, if_pos (by omega)]
      · have hroomy : ¬ (cur.advance 3).remaining.length < nameLen +
            (cur.endPos - listEnd) := by omega
        rw [if_neg hfits, if_neg hroomy]
        by_cases hhost : nameType = 0x00 ∧ nameLen > 0
        · have hread := readBytes_remaining hin₂ (show (cur.advance 3).pos + nameLen ≤ _ by
            rw [Cursor.advance_pos, Cursor.advance_endPos]
            omega)
          rw [if_pos hhost, if_pos hhost]
          exact congrArg (fun read => read >>= fun host =>
            Except.ok (some (lowercase (decodeUtf8 host))))
            hread
        · rw [if_neg hhost, if_neg hhost, ← Cursor.remaining_advance]
          exact ih (listEnd - (cur.pos + 3 + nameLen)) (by omega) (hin₂.advance (by
            rw [Cursor.advance_pos, Cursor.advance_endPos]
            omega)) hlist rfl
    · rw [parseNames, if_neg hpos, if_neg (by omega)]

theorem parseServerNameList_eq (hin : cur.Inside) :
    parseServerNameList lowercase cur.data cur.pos cur.endPos =
      .ok (TlsClientHelloSniffer.parseServerNameList lowercase cur.remaining) := by
  rw [parseServerNameList, TlsClientHelloSniffer.parseServerNameList]
  rcases Cursor.readU16_reads hin with ⟨hread, hnone⟩ | ⟨listLen, hread, hbytes, hin₁⟩
  · rw [hread, hnone]
    rfl
  have hlen : (cur.advance 2).remaining.length = cur.endPos - (cur.pos + 2) := hin₁.length
  have hpos : cur.pos + 2 ≤ cur.endPos := hin₁.pos
  rw [hread, hbytes, bind_ok]
  dsimp only
  by_cases hfits : cur.pos + 2 + listLen > cur.endPos
  · have hshort : (cur.advance 2).remaining.length < listLen := by omega
    rw [if_pos hshort]
    exact if_pos hfits
  · have hroomy : ¬ (cur.advance 2).remaining.length < listLen := by omega
    have hbeyond : cur.endPos - (cur.pos + 2) - listLen = cur.endPos - (cur.pos + 2 + listLen) := by
      omega
    rw [if_neg hroomy, hlen, hbeyond]
    exact (if_neg hfits).trans (parseNames_eq lowercase hin₁ (Nat.le_of_not_lt hfits))

theorem extensions_next (hpos : ¬ cur.isAtEnd)
    (htype : cur.readU16 = .ok (some (type, cur.advance 2)))
    (hlen : (cur.advance 2).readU16 = .ok (some (length, cur.advance 4))) :
    extensions lowercase cur.data cur =
      if cur.pos + 4 + length > cur.endPos then .ok .unavailable
      else if type = 0x0000 then do
        match ← parseServerNameList lowercase cur.data (cur.pos + 4) (cur.pos + 4 + length) with
        | some name => .ok (.found name)
        | none => .ok .unavailable
      else extensions lowercase cur.data ((cur.advance 4).advance length) := by
  rw [extensions, if_pos hpos]
  split <;> rename_i h <;> rw [htype] at h <;> cases h
  split <;> rename_i h <;> rw [hlen] at h <;> cases h
  rfl

theorem extensions_eq (hin : cur.Inside) :
    extensions lowercase cur.data cur =
      .ok (TlsClientHelloSniffer.parseExtensions lowercase cur.remaining) := by
  induction hroom : cur.endPos - cur.pos using Nat.strong_induction_on generalizing cur with
  | _ room ih =>
    have hlen := hin.length
    rw [parseExtensions_reads]
    by_cases hpos : cur.isAtEnd
    · have hnil : cur.remaining = [] := by
        apply eq_nil_of_length_eq_zero
        rw [Cursor.isAtEnd] at hpos
        omega
      rw [extensions, if_neg (not_not_intro hpos), hnil]
      rfl
    · have hlt : cur.pos < cur.endPos := Nat.lt_of_not_le hpos
      rcases Cursor.readU16_reads hin with ⟨htype, hnone⟩ | ⟨extType, htype, hbytes, hin₁⟩
      · rw [hnone, extensions, if_pos hpos]
        split <;> rename_i h <;> rw [htype] at h <;> cases h
      rw [hbytes]
      dsimp only
      rcases Cursor.readU16_reads hin₁ with ⟨hlength, hnone⟩ | ⟨extLen, hlength, hbytes₂, hin₂⟩
      · rw [hnone, extensions, if_pos hpos]
        split <;> rename_i h <;> rw [htype] at h <;> cases h
        split <;> rename_i h <;> rw [hlength] at h <;> cases h
      rw [show (cur.advance 2).advance 2 = cur.advance 4 from rfl] at hlength hbytes₂ hin₂
      have hlen₂ : (cur.advance 4).remaining.length = cur.endPos - (cur.pos + 4) := hin₂.length
      have hinside : cur.pos + 4 ≤ cur.endPos := hin₂.pos
      rw [extensions_next lowercase hpos htype hlength, hbytes₂]
      dsimp only
      by_cases hfits : cur.pos + 4 + extLen > cur.endPos
      · rw [if_pos hfits, if_pos (by omega)]
      · have hroomy : ¬ (cur.advance 4).remaining.length < extLen := by omega
        rw [if_neg hfits, if_neg hroomy]
        by_cases hname : extType = 0x0000
        · have hlist := parseServerNameList_eq lowercase
            (hin₂.first (n := extLen) (Nat.le_of_not_lt hfits))
          rw [Cursor.remaining_first (c := cur.advance 4) (Nat.le_of_not_lt hfits)] at hlist
          have hread : parseServerNameList lowercase cur.data (cur.pos + 4)
              (cur.pos + 4 + extLen) = _ :=
            hlist
          rw [if_pos hname, if_pos hname, hread, bind_ok]
          cases TlsClientHelloSniffer.parseServerNameList lowercase
            ((cur.advance 4).remaining.take extLen) with
          | none => rfl
          | some name => rfl
        · rw [if_neg hname, if_neg hname, ← Cursor.remaining_advance]
          exact ih (cur.endPos - (cur.pos + 4 + extLen)) (by omega) (hin₂.advance (by
            rw [Cursor.advance_pos, Cursor.advance_endPos]
            omega)) rfl

/-- A part of the bytes, with a length in front of it. -/
theorem part_eq {α : Type} {read : Bytes → Nat → Nat → Except OutOfBounds α} {parsed : Bytes → α}
    {missing : α} (hin : cur.Inside)
    (hread : ∀ c : Cursor, c.Inside → read c.data c.pos c.endPos = .ok (parsed c.remaining)) :
    (if cur.pos + length > cur.endPos then .ok missing
      else read cur.data cur.pos (cur.pos + length)) =
      .ok (if cur.remaining.length < length then missing
        else parsed (cur.remaining.take length)) := by
  have hlen := hin.length
  have hpos := hin.pos
  by_cases hfits : cur.pos + length > cur.endPos
  · rw [if_pos hfits, if_pos (by omega)]
  · have hroomy : ¬ cur.remaining.length < length := by omega
    have hpart := hread _ (hin.first (Nat.le_of_not_lt hfits))
    rw [Cursor.remaining_first (Nat.le_of_not_lt hfits)] at hpart
    rw [if_neg hfits, if_neg hroomy]
    exact hpart

/-- A ClientHello is read as the parser reads its bytes. -/
theorem parseClientHello_eq (hin : cur.Inside) :
    parseClientHello lowercase cur.data cur.pos cur.endPos =
      .ok (TlsClientHelloSniffer.parseClientHello lowercase cur.remaining) := by
  rw [parseClientHello, TlsClientHelloSniffer.parseClientHello, helloExtensions]
  simp only [Option.bind_eq_bind]
  rcases Cursor.skip_reads hin (2 + 32) with ⟨hread, hbytes⟩ | ⟨hread, hbytes, hin⟩
  · rw [hread, hbytes]
    rfl
  rw [hread, hbytes, Option.bind_some]
  dsimp only
  rcases Cursor.readU8_reads hin with ⟨hread, hbytes⟩ | ⟨sidLen, hread, hbytes, hin⟩
  · rw [hread, hbytes]
    rfl
  rw [hread, hbytes, bind_ok, Option.bind_some]
  dsimp only
  rcases Cursor.skip_reads hin sidLen with ⟨hread, hbytes⟩ | ⟨hread, hbytes, hin⟩
  · rw [hread, hbytes]
    rfl
  rw [hread, hbytes, Option.bind_some]
  dsimp only
  rcases Cursor.readU16_reads hin with ⟨hread, hbytes⟩ | ⟨csLen, hread, hbytes, hin⟩
  · rw [hread, hbytes]
    rfl
  rw [hread, hbytes, bind_ok, Option.bind_some]
  dsimp only
  rcases Cursor.skip_reads hin csLen with ⟨hread, hbytes⟩ | ⟨hread, hbytes, hin⟩
  · rw [hread, hbytes]
    rfl
  rw [hread, hbytes, Option.bind_some]
  dsimp only
  rcases Cursor.readU8_reads hin with ⟨hread, hbytes⟩ | ⟨cmLen, hread, hbytes, hin⟩
  · rw [hread, hbytes]
    rfl
  rw [hread, hbytes, bind_ok, Option.bind_some]
  dsimp only
  rcases Cursor.skip_reads hin cmLen with ⟨hread, hbytes⟩ | ⟨hread, hbytes, hin⟩
  · rw [hread, hbytes]
    rfl
  rw [hread, hbytes, Option.bind_some]
  dsimp only
  rcases Cursor.readU16_reads hin with ⟨hread, hbytes⟩ | ⟨extLen, hread, hbytes, hin⟩
  · rw [hread, hbytes]
    rfl
  rw [hread, hbytes, bind_ok, Option.bind_some]
  dsimp only
  refine (part_eq hin fun c hc => extensions_eq lowercase hc).trans ?_
  split <;> rfl

theorem parseHandshake_eq (hin : cur.Inside) :
    parseHandshake lowercase cur.data cur.pos cur.endPos =
      .ok (TlsClientHelloSniffer.parseHandshake lowercase cur.remaining) := by
  rw [parseHandshake, TlsClientHelloSniffer.parseHandshake]
  rcases Cursor.readU8_reads hin with ⟨hread, hbytes⟩ | ⟨msgType, hread, hbytes, hin⟩
  · rw [hread, hbytes]
    rfl
  rw [hread, hbytes, bind_ok]
  dsimp only
  by_cases htype : msgType ≠ 0x01
  · rw [if_pos htype, if_pos htype]
    rfl
  rw [if_neg htype, if_neg htype]
  rcases Cursor.readU24_reads hin with ⟨hread, hbytes⟩ | ⟨bodyLen, hread, hbytes, hin⟩
  · rw [hread, hbytes]
    rfl
  rw [hread, hbytes, bind_ok]
  dsimp only
  exact part_eq hin fun c hc => parseClientHello_eq lowercase hc

/-- The parser reads the buffer only before `bufferLen`. -/
theorem parse_eq {buffer : Bytes} {bufferLen : Nat} (hin : bufferLen ≤ buffer.length) :
    parse lowercase buffer bufferLen =
      .ok (TlsClientHelloSniffer.parse lowercase (buffer.take bufferLen)) := by
  have hlen : (buffer.take bufferLen).length = bufferLen := by
    rw [length_take, Nat.min_eq_left hin]
  rw [parse]
  by_cases hshort : bufferLen < 5
  · rw [if_pos hshort]
    rcases hbytes : buffer.take bufferLen with _ | ⟨a, _ | ⟨b, _ | ⟨c, _ | ⟨d, _ | ⟨e, rest⟩⟩⟩⟩⟩
    iterate 5 rfl
    rw [hbytes] at hlen
    simp only [length_cons] at hlen
    omega
  · have hread : ∀ i < 5, readByte buffer i = readByte (buffer.take bufferLen) i := by
      intro i hi
      rw [readByte, readByte, List.getElem?_take_of_lt (by omega)]
    have hlist : (buffer.take bufferLen).drop 5 = Cursor.remaining ⟨buffer, 5, bufferLen⟩ := rfl
    rw [if_neg hshort, hread 0 (by omega), Lib.readWord, hread 3 (by omega), hread 4 (by omega)]
    rcases hbytes : buffer.take bufferLen with _ | ⟨a, _ | ⟨b, _ | ⟨c, _ | ⟨d, _ | ⟨e, rest⟩⟩⟩⟩⟩
    iterate 5
      rw [hbytes] at hlen
      simp only [length_cons, length_nil] at hlen
      omega
    rw [hbytes] at hlist hlen
    simp only [length_cons] at hlen
    simp only [readByte, List.getElem?_cons_zero, List.getElem?_cons_succ, bind_ok,
      TlsClientHelloSniffer.parse]
    by_cases htype : a ≠ 0x16
    · rw [if_pos htype, if_pos htype]
      rfl
    rw [if_neg htype, if_neg htype]
    by_cases hfrag : d.toNat * 256 + e.toNat ≤ 0 ∨ d.toNat * 256 + e.toNat > 16384
    · rw [if_pos hfrag, if_pos hfrag]
      rfl
    rw [if_neg hfrag, if_neg hfrag]
    by_cases hmore : bufferLen < 5 + (d.toNat * 256 + e.toNat)
    · rw [if_pos hmore, if_pos (by omega)]
      rfl
    have hroomy : ¬ rest.length < d.toNat * 256 + e.toNat := by omega
    have hfirst : (⟨buffer, 5, bufferLen⟩ : Cursor).Inside := ⟨Nat.le_of_not_lt hshort, hin⟩
    have hhandshake := parseHandshake_eq lowercase
      (hfirst.first (Nat.le_of_not_lt hmore))
    rw [Cursor.remaining_first (Nat.le_of_not_lt hmore), ← hlist] at hhandshake
    rw [if_neg hmore, if_neg hroomy]
    exact hhandshake

end Reading

end Indexed

-- ----
-- Feeding

namespace Indexed

/-- The doubling of an array's size until it is no less than this. -/
def grow (newSize needed : Nat) : Nat :=
  if 0 < newSize ∧ newSize < needed then grow (newSize * 2) needed else newSize
termination_by needed - newSize

theorem le_grow {newSize : Nat} (needed : Nat) (hpos : 0 < newSize) :
    newSize ≤ grow newSize needed ∧ needed ≤ grow newSize needed := by
  fun_induction grow newSize needed with
  | case1 newSize hcond ih =>
    have hih := ih (by omega)
    omega
  | case2 newSize hcond => omega

def copyOf (buffer : Bytes) (newSize : Nat) : Bytes :=
  buffer.take newSize ++ List.replicate (newSize - buffer.length) 0

structure Sniffer where
  buffer : Bytes := []
  bufferLen : Nat := 0
  state : State := .needMore

variable (lowercase : Text → Text) (bufferLimit : Nat)

def append (s : Sniffer) (data : Bytes) : Except OutOfBounds Sniffer := do
  let buffer :=
    if s.bufferLen + data.length > s.buffer.length then
      copyOf s.buffer (grow (if s.buffer.isEmpty then 256 else s.buffer.length)
        (s.bufferLen + data.length))
    else s.buffer
  let buffer ← arraycopy data 0 buffer s.bufferLen data.length
  .ok { s with buffer := buffer, bufferLen := s.bufferLen + data.length }

/-- The fast reject before a chunk is copied. -/
def rejects (s : Sniffer) (data : Bytes) : Except OutOfBounds Bool :=
  if s.bufferLen = 0 then (readByte data 0).map (· != 0x16) else .ok false

/-- A chunk is a whole array. -/
def feed (s : Sniffer) (data : Bytes) : Except OutOfBounds Sniffer :=
  if s.state ≠ .needMore ∨ data.length ≤ 0 then .ok s
  else do
    let rejected ← rejects s data
    if rejected then .ok { s with state := .notTls }
    else
      let s ← append s data
      if s.bufferLen > bufferLimit then .ok { s with state := .unavailable }
      else
        let state ← parse lowercase s.buffer s.bufferLen
        .ok { s with state := state }

structure Holds (s : Sniffer) (t : TlsClientHelloSniffer) : Prop where
  inside : s.bufferLen ≤ s.buffer.length
  bytes : s.buffer.take s.bufferLen = t.buffer
  state : s.state = t.state

variable {s : Sniffer} {t : TlsClientHelloSniffer} {data : Bytes}

theorem Holds.bufferLen (h : Holds s t) : s.bufferLen = t.buffer.length := by
  rw [← h.bytes, length_take, Nat.min_eq_left h.inside]

theorem room_spec (s : Sniffer) (data : Bytes) :
    ∃ zeros : Bytes, (if s.bufferLen + data.length > s.buffer.length then
        copyOf s.buffer (grow (if s.buffer.isEmpty then 256 else s.buffer.length)
          (s.bufferLen + data.length))
      else s.buffer) = s.buffer ++ zeros ∧
      s.bufferLen + data.length ≤ (s.buffer ++ zeros).length := by
  split
  · have hpos : 0 < (if s.buffer.isEmpty then 256 else s.buffer.length) := by
      split
      · norm_num
      · rename_i hne
        rw [List.isEmpty_iff] at hne
        exact length_pos_iff.mpr hne
    have hsize := le_grow (s.bufferLen + data.length) hpos
    have hlong : s.buffer.length ≤ grow (if s.buffer.isEmpty then 256 else s.buffer.length)
        (s.bufferLen + data.length) := by omega
    refine ⟨_, by rw [copyOf, take_of_length_le hlong], ?_⟩
    rw [length_append, length_replicate]
    omega
  · exact ⟨[], (append_nil _).symm, by rw [append_nil]; omega⟩

/-- A chunk is stored behind the others. -/
theorem append_spec (h : Holds s t) (data : Bytes) : ∃ s', append s data = .ok s' ∧
    Holds s' { t with buffer := t.buffer ++ data } := by
  obtain ⟨zeros, hroom, hfits⟩ := room_spec s data
  have htake : (s.buffer ++ zeros).take s.bufferLen = t.buffer := by
    rw [take_append_of_le_length h.inside, h.bytes]
  rw [append, hroom]
  simp only [arraycopy_all hfits, bind_ok, htake]
  refine ⟨_, rfl, ⟨?_, ?_, h.state⟩⟩
  · simp only [length_append, h.bufferLen]
    omega
  · simp only
    rw [take_append_of_le_length (by rw [length_append, h.bufferLen])]
    exact take_of_length_le (by rw [length_append, h.bufferLen])

theorem rejects_eq (h : Holds s t) (hdata : data ≠ []) :
    rejects s data = .ok (decide (t.buffer = [] ∧ data.head? ≠ some 0x16)) := by
  obtain ⟨a, rest, rfl⟩ := exists_cons_of_ne_nil hdata
  rw [rejects]
  by_cases hempty : t.buffer = []
  · rw [if_pos (by rw [h.bufferLen, hempty, length_nil])]
    have hsame : (a == 0x16) = decide (a = 0x16) := beq_eq_decide a 0x16
    simp [readByte, hempty, Except.map, bne, hsame]
  · have hlen : s.bufferLen ≠ 0 := by
      rw [h.bufferLen]
      exact fun hzero => hempty (eq_nil_of_length_eq_zero hzero)
    rw [if_neg hlen]
    simp [hempty]

/-- Fed with a chunk, the sniffer reads nothing outside its buffer, and answers as the parser of
the bytes it was fed. -/
theorem feed_spec (h : Holds s t) (data : Bytes) :
    ∃ s', feed lowercase bufferLimit s data = .ok s' ∧
    Holds s' (t.feed lowercase bufferLimit data) := by
  rw [feed, TlsClientHelloSniffer.feed]
  by_cases hdone : t.state ≠ .needMore ∨ data = []
  · have hsame : s.state ≠ .needMore ∨ data.length ≤ 0 := by
      rwa [h.state, Nat.le_zero, length_eq_zero_iff]
    rw [if_pos hsame, if_pos hdone]
    exact ⟨s, rfl, h⟩
  have hsame : ¬ (s.state ≠ .needMore ∨ data.length ≤ 0) := by
    rwa [h.state, Nat.le_zero, length_eq_zero_iff]
  rw [if_neg hsame, if_neg hdone, rejects_eq h (fun hnil => hdone (.inr hnil)), bind_ok]
  by_cases hother : t.buffer = [] ∧ data.head? ≠ some 0x16
  · rw [if_pos (decide_eq_true hother), if_pos hother]
    exact ⟨_, rfl, ⟨h.inside, h.bytes, rfl⟩⟩
  obtain ⟨s', happend, hheld⟩ := append_spec h data
  rw [if_neg (by rw [decide_eq_true_iff]; exact hother), if_neg hother, happend, bind_ok]
  dsimp only
  by_cases hover : (t.buffer ++ data).length > bufferLimit
  · rw [if_pos (by rwa [hheld.bufferLen]), if_pos hover]
    exact ⟨_, rfl, ⟨hheld.inside, hheld.bytes, rfl⟩⟩
  · have hparse := parse_eq lowercase hheld.inside
    rw [hheld.bytes] at hparse
    rw [if_neg (by rwa [hheld.bufferLen]), if_neg hover, hparse, bind_ok]
    exact ⟨_, rfl, ⟨hheld.inside, hheld.bytes, rfl⟩⟩

/-- A new sniffer that is fed these chunks. -/
def feedAll (lowercase : Text → Text) (bufferLimit : Nat) (chunks : List Bytes) :
    Except OutOfBounds Sniffer :=
  chunks.foldlM (feed lowercase bufferLimit) {}

/-- The same, for every sequence of chunks. -/
theorem feedAll_spec (lowercase : Text → Text) (bufferLimit : Nat) (chunks : List Bytes) :
    ∃ s, feedAll lowercase bufferLimit chunks = .ok s ∧
    Holds s (TlsClientHelloSniffer.feedAll lowercase bufferLimit chunks) := by
  have hnew : Holds {} {} := ⟨Nat.le_refl 0, rfl, rfl⟩
  rw [feedAll, TlsClientHelloSniffer.feedAll]
  revert hnew
  generalize ({} : Sniffer) = s
  generalize ({} : TlsClientHelloSniffer) = t
  intro hheld
  induction chunks generalizing s t with
  | nil => exact ⟨s, rfl, hheld⟩
  | cons data chunks ih =>
    obtain ⟨s', hfeed, hheld'⟩ := feed_spec lowercase bufferLimit hheld data
    rw [foldlM_cons, hfeed, bind_ok]
    exact ih s' _ hheld'

end Indexed

end Anywhere.Tls.TlsClientHelloSniffer
