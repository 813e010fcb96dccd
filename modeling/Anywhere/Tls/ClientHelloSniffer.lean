import Anywhere.Config
import Anywhere.Lib.Format
import Anywhere.Lib.Utf8

/-!
# Anywhere — `TlsClientHelloSniffer`

The incremental parser that looks for the server name of a ClientHello. A cursor into the
buffer is the bytes between its position and its end. Lower-casing a text is the platform's.
-/

namespace Anywhere.Tls

open Lib List

namespace TlsClientHelloSniffer

inductive State where
  | needMore
  | notTls
  | found (serverName : Text)
  | unavailable
  deriving DecidableEq

/-- `TunnelConstants.tlsSnifferBufferLimit`. -/
def tlsSnifferBufferLimit : Nat := 8192

-- ----
-- The cursor

def skip (n : Nat) (bytes : Bytes) : Option Bytes :=
  if bytes.length < n then none else some (bytes.drop n)

def readU8 : Bytes → Option (Nat × Bytes)
  | a :: rest => some (a.toNat, rest)
  | [] => none

def readU16 : Bytes → Option (Nat × Bytes)
  | a :: b :: rest => some (a.toNat * 256 + b.toNat, rest)
  | _ => none

def readU24 : Bytes → Option (Nat × Bytes)
  | a :: b :: c :: rest => some (a.toNat * 65536 + b.toNat * 256 + c.toNat, rest)
  | _ => none

theorem skip_append {n : Nat} {a b : Bytes} (h : a.length = n) : skip n (a ++ b) = some b := by
  rw [skip, if_neg (by rw [length_append]; omega), ← h, drop_left]

theorem readU8_ofNat {n : Nat} (h : n < 256) (rest : Bytes) :
    readU8 (UInt8.ofNat n :: rest) = some (n, rest) := by
  rw [readU8, UInt8.toNat_ofNat', Nat.mod_eq_of_lt h]

theorem readU16_lengthField {n : Nat} (h : n < 65536) (rest : Bytes) :
    readU16 (lengthField 2 n ++ rest) = some (n, rest) := by
  have hvalue := bytes16_value h
  rw [show lengthField 2 n ++ rest = UInt8.ofNat (n / 256) :: UInt8.ofNat n :: rest from rfl,
    readU16, hvalue]

theorem readU24_lengthField {n : Nat} (h : n < 256 ^ 3) (rest : Bytes) :
    readU24 (lengthField 3 n ++ rest) = some (n, rest) := by
  have hvalue : (UInt8.ofNat (n / 256 / 256)).toNat * 65536 + (UInt8.ofNat (n / 256)).toNat * 256 +
      (UInt8.ofNat n).toNat = n := by
    rw [UInt8.toNat_ofNat', UInt8.toNat_ofNat', UInt8.toNat_ofNat']
    omega
  rw [show lengthField 3 n ++ rest = UInt8.ofNat (n / 256 / 256) :: UInt8.ofNat (n / 256) ::
    UInt8.ofNat n :: rest from rfl, readU24, hvalue]

-- ----
-- The layers

section Layers

variable (lowercase : Text → Text)

/-- The loop over the names, with the number of bytes behind the end of their list. -/
def parseNames (beyond : Nat) (bytes : Bytes) : Option Text :=
  if bytes.length > beyond then
    match bytes with
    | nameType :: l1 :: l2 :: rest =>
      let nameLen := l1.toNat * 256 + l2.toNat
      if rest.length < nameLen + beyond then none
      else if nameType = 0x00 ∧ nameLen > 0 then some (lowercase (decodeUtf8 (rest.take nameLen)))
      else parseNames beyond (rest.drop nameLen)
    | _ => none
  else none
termination_by bytes.length
decreasing_by
  simp only [length_drop, length_cons]
  omega

def parseServerNameList (bytes : Bytes) : Option Text :=
  match readU16 bytes with
  | none => none
  | some (listLen, rest) =>
    if rest.length < listLen then none else parseNames lowercase (rest.length - listLen) rest

def parseExtensions (bytes : Bytes) : State :=
  match bytes with
  | t1 :: t2 :: l1 :: l2 :: rest =>
    let extLen := l1.toNat * 256 + l2.toNat
    if rest.length < extLen then .unavailable
    else if t1.toNat * 256 + t2.toNat = 0x0000 then
      match parseServerNameList lowercase (rest.take extLen) with
      | some name => .found name
      | none => .unavailable
    else parseExtensions (rest.drop extLen)
  | _ => .unavailable
termination_by bytes.length
decreasing_by
  simp only [length_drop, length_cons]
  omega

/-- `parseClientHello`; none where it gives up. -/
def helloExtensions (bytes : Bytes) : Option Bytes := do
  let bytes ← skip (2 + 32) bytes
  let (sidLen, bytes) ← readU8 bytes
  let bytes ← skip sidLen bytes
  let (csLen, bytes) ← readU16 bytes
  let bytes ← skip csLen bytes
  let (cmLen, bytes) ← readU8 bytes
  let bytes ← skip cmLen bytes
  let (extLen, bytes) ← readU16 bytes
  if bytes.length < extLen then none else some (bytes.take extLen)

def parseClientHello (bytes : Bytes) : State :=
  match helloExtensions bytes with
  | none => .unavailable
  | some extensions => parseExtensions lowercase extensions

def parseHandshake (bytes : Bytes) : State :=
  match readU8 bytes with
  | none => .unavailable
  | some (msgType, rest) =>
    if msgType ≠ 0x01 then .unavailable
    else
      match readU24 rest with
      | none => .unavailable
      | some (bodyLen, rest) =>
        if rest.length < bodyLen then .unavailable
        else parseClientHello lowercase (rest.take bodyLen)

def parse (buffer : Bytes) : State :=
  match buffer with
  | contentType :: _ :: _ :: l1 :: l2 :: rest =>
    if contentType ≠ 0x16 then .unavailable
    else
      let fragLen := l1.toNat * 256 + l2.toNat
      if fragLen ≤ 0 ∨ fragLen > 16384 then .unavailable
      else if rest.length < fragLen then .needMore
      else parseHandshake lowercase (rest.take fragLen)
  | _ => .needMore

end Layers

end TlsClientHelloSniffer

open TlsClientHelloSniffer

-- ----
-- Feeding

structure TlsClientHelloSniffer where
  buffer : Bytes := []
  state : State := .needMore

namespace TlsClientHelloSniffer

variable (lowercase : Text → Text) (bufferLimit : Nat)

def feed (s : TlsClientHelloSniffer) (data : Bytes) : TlsClientHelloSniffer :=
  if s.state ≠ .needMore ∨ data = [] then s
  else if s.buffer = [] ∧ data.head? ≠ some 0x16 then { s with state := .notTls }
  else
    let s := { s with buffer := s.buffer ++ data }
    if s.buffer.length > bufferLimit then { s with state := .unavailable }
    else { s with state := parse lowercase s.buffer }

/-- A new sniffer that is fed these chunks. -/
def feedAll (chunks : List Bytes) : TlsClientHelloSniffer :=
  chunks.foldl (feed lowercase bufferLimit) {}

variable {lowercase bufferLimit}

/-- Fed with the rest of a record, a sniffer that has seen its beginning answers as if it had
seen it at once. -/
theorem feed_rest {record : Bytes} (hhead : record.head? = some 0x16)
    (hlimit : record.length ≤ bufferLimit)
    (hpart : ∀ part rest, record = part ++ rest → rest ≠ [] → parse lowercase part = .needMore)
    (chunks : List Bytes) {s : TlsClientHelloSniffer}
    (hrecord : s.buffer ++ chunks.flatten = record) (hstate : s.state = if s.buffer = record then
      parse lowercase record else .needMore) :
    (chunks.foldl (feed lowercase bufferLimit) s).state = parse lowercase record := by
  induction chunks generalizing s with
  | nil =>
    rw [flatten_nil, append_nil] at hrecord
    rw [foldl_nil, hstate, if_pos hrecord]
  | cons data chunks ih =>
    rw [foldl_cons]
    by_cases hdata : data = []
    · subst hdata
      have hsame : s.feed lowercase bufferLimit [] = s := by simp [feed]
      rw [hsame]
      exact ih hrecord hstate
    · have hneed : s.state = .needMore := by
        rw [hstate, if_neg]
        intro hall
        rw [hall, flatten_cons] at hrecord
        have hlen := congrArg List.length hrecord
        simp only [length_append] at hlen
        exact hdata (eq_nil_of_length_eq_zero (by omega))
      have hfirst : ¬ (s.buffer = [] ∧ data.head? ≠ some 0x16) := by
        rintro ⟨hempty, hother⟩
        refine hother ?_
        rw [hempty, nil_append, flatten_cons] at hrecord
        rw [← hrecord, List.head?_append_of_ne_nil _ hdata] at hhead
        exact hhead
      have hsplit : s.buffer ++ data ++ chunks.flatten = record := by
        rw [append_assoc, ← flatten_cons, hrecord]
      have hfits : ¬ (s.buffer ++ data).length > bufferLimit := by
        have hlen := congrArg List.length hsplit
        rw [length_append] at hlen
        omega
      have hfeed : s.feed lowercase bufferLimit data =
          ⟨s.buffer ++ data, parse lowercase (s.buffer ++ data)⟩ := by
        rw [feed, if_neg (by simp [hneed, hdata]), if_neg hfirst]
        exact if_neg hfits
      rw [hfeed]
      refine ih hsplit ?_
      dsimp only
      split
      · rename_i hall
        rw [hall]
      · rename_i hall
        refine hpart _ _ hsplit.symm fun hnil => hall ?_
        rw [hnil, append_nil] at hsplit
        exact hsplit

/-- A sniffer answers for what it has been fed, however it was cut. -/
theorem feed_chunks {record : Bytes} (hhead : record.head? = some 0x16)
    (hlimit : record.length ≤ bufferLimit)
    (hpart : ∀ part rest, record = part ++ rest → rest ≠ [] → parse lowercase part = .needMore)
    (chunks : List Bytes) (hrecord : chunks.flatten = record) :
    (feedAll lowercase bufferLimit chunks).state = parse lowercase record := by
  refine feed_rest hhead hlimit hpart chunks (s := {}) hrecord ?_
  rw [if_neg]
  rintro rfl
  cases hhead

end TlsClientHelloSniffer

end Anywhere.Tls
