import Anywhere.Lib.BigEndian
import Anywhere.Lib.Utf8
import Anywhere.WebSocket.Frame

/-!
# Anywhere — `WebSocketConnection.receive`

Frames of the server are taken off a buffer that grows by what the transport returns.
Lengths are `Long`s that are cut to `Int`s. Pings are answered, pongs dropped, and what
is left comes out of `receive`; `VlessWebSocketConnection.receiveRaw` strips the response
header of VLESS off it and takes an empty payload for the end of the stream.
-/

namespace Anywhere.WebSocket

open Lib List

-- ----
-- The model

def maxReceiveBufferSize : Nat := 1048576

/-- A number as a 32-bit `Int`. -/
def toInt (n : Int) : Int := n.bmod (2 ^ 32)

/-- A number as a 64-bit `Long`. -/
def toLong (n : Int) : Int := n.bmod (2 ^ 64)

inductive FrameResult
  | binary (data : Bytes)
  | ping (data : Bytes)
  | pong (data : Bytes)
  | close (code : Nat) (reason : Text)
  deriving DecidableEq

/-- What `receive` throws: an array of an impossible size, a buffer that would grow too
large, or the close frame of the server. -/
inductive Failure
  | illegalSize
  | overflow
  | closed (code : Nat) (reason : Text)
  deriving DecidableEq

/-- The size of a header, the payload length in it and whether a key belongs to it. -/
structure Header where
  headerSize : Nat
  payloadLength : Int
  isMasked : Bool

/-- The payload length and the bytes it takes, behind the first two bytes; null when
the buffer is short. -/
def extendedLength (len : Nat) (bytes : Bytes) : Option (Int × Nat) :=
  if len = 126 then
    if bytes.length < 2 then none else some (beValue (bytes.take 2), 2)
  else if len = 127 then
    if bytes.length < 8 then none else some (toLong (beValue (bytes.take 8)), 8)
  else some (len, 0)

/-- The header at the front of the buffer; null when the buffer is short. -/
def parseHeader : Bytes → Option Header
  | _ :: byte1 :: bytes =>
    (extendedLength (byte1.toNat % 128) bytes).map fun extended =>
      ⟨2 + extended.2 + if 128 ≤ byte1.toNat then 4 else 0, extended.1, decide (128 ≤ byte1.toNat)⟩
  | _ => none

/-- The end of `tryExtractFrame`: what a payload is, by its opcode. -/
def frameResult (opcode : Nat) (payload : Bytes) : FrameResult :=
  if opcode = 0x08 then
    match payload with
    | hi :: lo :: reason => .close (hi.toNat * 256 + lo.toNat) (decodeUtf8 reason)
    | _ => .close 1005 []
  else if opcode = 0x09 then .ping payload
  else if opcode = 0x0A then .pong payload
  else .binary payload

def framePayload (header : Header) (buffer : Bytes) : Bytes :=
  let octets := (buffer.drop header.headerSize).take (toInt header.payloadLength).toNat
  if header.isMasked then mask ((buffer.drop (header.headerSize - 4)).take 4) octets else octets

/-- `tryExtractFrame`: the frame and the buffer behind it; null when the buffer is
short. The size of the frame is an `Int`, and one below that of its header makes an array
of a negative size. -/
def tryExtractFrame (buffer : Bytes) : Except Failure (Option (FrameResult × Bytes)) :=
  match parseHeader buffer with
  | none => .ok none
  | some header =>
    let totalFrameSize := toInt (header.headerSize + toInt header.payloadLength)
    if (buffer.length : Int) < totalFrameSize then .ok none
    else if totalFrameSize < header.headerSize then .error .illegalSize
    else .ok (some (frameResult ((buffer.getD 0 0).toNat % 16) (framePayload header buffer),
      buffer.drop totalFrameSize.toNat))

/-- The receiving side of a connection: its buffer, what the transport has yet to return
and whether it has returned null, and the control frames sent in answer. -/
structure Connection where
  receiveBuffer : Bytes := []
  reads : List Bytes
  atEof : Bool := false
  sent : List (UInt8 × Bytes) := []

/-- The frames in the buffer, up to the first data; null when the buffer is short. Each
frame takes two bytes at least, so the length of the buffer bounds the loop. -/
def nextData : Nat → Connection → Except Failure (Option Bytes × Connection)
  | 0, c => .ok (none, c)
  | n + 1, c =>
    match tryExtractFrame c.receiveBuffer with
    | .error failure => .error failure
    | .ok none => .ok (none, c)
    | .ok (some (.binary data, rest)) => .ok (some data, { c with receiveBuffer := rest })
    | .ok (some (.ping data, rest)) =>
      nextData n { c with receiveBuffer := rest, sent := c.sent ++ [(0x0A, data)] }
    | .ok (some (.pong _, rest)) => nextData n { c with receiveBuffer := rest }
    | .ok (some (.close code reason, _)) => .error (.closed code reason)

/-- The loop of `receive` over the reads. -/
def receiveLoop : List Bytes → Connection → Except Failure (Option Bytes × Connection)
  | reads, c =>
    match nextData (c.receiveBuffer.length + 1) c with
    | .error failure => .error failure
    | .ok (some data, c) => .ok (some data, { c with reads := reads })
    | .ok (none, c) =>
      match reads with
      | [] => .ok (none, { c with reads := [], atEof := true })
      | data :: reads =>
        if data = [] then receiveLoop reads c
        else if c.receiveBuffer.length + data.length > maxReceiveBufferSize then .error .overflow
        else receiveLoop reads { c with receiveBuffer := c.receiveBuffer ++ data }

/-- `receive`; null at the end of the stream. -/
def receive (c : Connection) : Except Failure (Option Bytes × Connection) := receiveLoop c.reads c

/-- The results of `n` calls of `receive`. -/
def receives : Nat → Connection → Except Failure (List (Option Bytes))
  | 0, _ => .ok []
  | n + 1, c =>
    match receive c with
    | .error failure => .error failure
    | .ok (result, c) => (receives n c).map (result :: ·)

-- ----
-- The layer of VLESS

/-- `responseHeaderReceived` and `pendingResponseHeaderBuffer`. -/
structure ResponseHeader where
  received : Bool := false
  pending : Bytes := []

/-- `processResponseHeader` on data: the output, or null when more has to be received. -/
def processResponseHeader (h : ResponseHeader) (data : Bytes) : Option Bytes × ResponseHeader :=
  if h.received then (some data, h)
  else
    match h.pending ++ data with
    | version :: addonsLength :: rest =>
      if version ≠ 0x00 then (some (version :: addonsLength :: rest), ⟨true, []⟩)
      else if rest.length < addonsLength.toNat then (none, ⟨false, version :: addonsLength :: rest⟩)
      else if rest.length > addonsLength.toNat then
        (some (rest.drop addonsLength.toNat), ⟨true, []⟩)
      else (none, ⟨true, []⟩)
    | combined => (none, ⟨false, combined⟩)

structure VlessWebSocketConnection where
  wsConnection : Connection
  header : ResponseHeader := {}

/-- `receiveRaw`, which `processResponseHeader` calls again for more; every call takes a
frame, so the bytes to come bound the depth. -/
def receiveRawFuel : Nat → VlessWebSocketConnection →
    Except Failure (Option Bytes × VlessWebSocketConnection)
  | 0, v => .ok (none, v)
  | n + 1, v =>
    match receive v.wsConnection with
    | .error failure => .error failure
    | .ok (none, ws) => .ok (none, { v with wsConnection := ws })
    | .ok (some data, ws) =>
      if data = [] then .ok (none, { v with wsConnection := ws })
      else
        match processResponseHeader v.header data with
        | (some output, header) => .ok (some output, ⟨ws, header⟩)
        | (none, header) => receiveRawFuel n ⟨ws, header⟩

def Connection.stream (c : Connection) : Bytes := c.receiveBuffer ++ c.reads.flatten

def receiveRaw (v : VlessWebSocketConnection) :
    Except Failure (Option Bytes × VlessWebSocketConnection) :=
  receiveRawFuel (v.wsConnection.stream.length + 1) v

/-- The results of `n` calls of `receiveRaw`, each with whether the transport has
returned null by then. -/
def receivesRaw : Nat → VlessWebSocketConnection → Except Failure (List (Option Bytes × Bool))
  | 0, _ => .ok []
  | n + 1, v =>
    match receiveRaw v with
    | .error failure => .error failure
    | .ok (result, v) => (receivesRaw n v).map ((result, v.wsConnection.atEof) :: ·)

-- ----
-- More bytes change no decision

theorem extendedLength_append {len : Nat} {bytes : Bytes} {extended : Int × Nat}
    (h : extendedLength len bytes = some extended) (more : Bytes) :
    extendedLength len (bytes ++ more) = some extended ∧ extended.2 ≤ 8 := by
  unfold extendedLength at h ⊢
  by_cases h6 : len = 126
  · rw [if_pos h6] at h ⊢
    split at h
    · cases h
    · rename_i hlen
      rw [if_neg (by simp; omega), take_append_of_le_length (by omega)]
      obtain rfl := Option.some.inj h
      exact ⟨rfl, (by decide : 2 ≤ 8)⟩
  · rw [if_neg h6] at h ⊢
    by_cases h7 : len = 127
    · rw [if_pos h7] at h ⊢
      split at h
      · cases h
      · rename_i hlen
        rw [if_neg (by simp; omega), take_append_of_le_length (by omega)]
        obtain rfl := Option.some.inj h
        exact ⟨rfl, (by decide : 8 ≤ 8)⟩
    · rw [if_neg h7] at h ⊢
      obtain rfl := Option.some.inj h
      exact ⟨rfl, Nat.zero_le _⟩

theorem parseHeader_append {buffer : Bytes} {header : Header} (h : parseHeader buffer = some header)
    (more : Bytes) : parseHeader (buffer ++ more) = some header ∧ 2 ≤ buffer.length ∧
      2 ≤ header.headerSize ∧ header.headerSize ≤ 14 ∧
      (header.isMasked = true → 4 ≤ header.headerSize) := by
  rcases buffer with _ | ⟨byte0, _ | ⟨byte1, bytes⟩⟩
  · cases h
  · cases h
  · obtain ⟨extended, hext, rfl⟩ := Option.map_eq_some_iff.1 h
    obtain ⟨happend, hle⟩ := extendedLength_append hext more
    refine ⟨?_, by simp, by simp; omega, ?_, fun hmask => ?_⟩
    · show (extendedLength (byte1.toNat % 128) (bytes ++ more)).map _ = _
      rw [happend]
      rfl
    · show 2 + extended.2 + (if 128 ≤ byte1.toNat then 4 else 0) ≤ 14
      split <;> omega
    · have hb1 : 128 ≤ byte1.toNat := by simpa using hmask
      show 4 ≤ 2 + extended.2 + if 128 ≤ byte1.toNat then 4 else 0
      rw [if_pos hb1]
      omega

theorem framePayload_append {header : Header} {buffer : Bytes}
    (hmask : header.isMasked = true → 4 ≤ header.headerSize)
    (h : header.headerSize + (toInt header.payloadLength).toNat ≤ buffer.length) (more : Bytes) :
    framePayload header (buffer ++ more) = framePayload header buffer := by
  have hoctets : ((buffer ++ more).drop header.headerSize).take (toInt header.payloadLength).toNat =
      (buffer.drop header.headerSize).take (toInt header.payloadLength).toNat := by
    rw [drop_append_of_le_length (by omega), take_append_of_le_length (by simp; omega)]
  unfold framePayload
  dsimp only
  rw [hoctets]
  split
  · rename_i hm
    have hsize := hmask hm
    rw [drop_append_of_le_length (by omega), take_append_of_le_length (by simp; omega)]
  · rfl

theorem totalFrameSize_of_ge {headerSize : Nat} {length : Int} (hsize : headerSize ≤ 14)
    (h : ¬ toInt (headerSize + toInt length) < headerSize) :
    toInt (headerSize + toInt length) = headerSize + (toInt length).toNat := by
  unfold toInt at h ⊢
  have hlow := Int.le_bmod (x := length) (m := 2 ^ 32) (by decide)
  have hhigh := Int.bmod_lt (x := length) (m := 2 ^ 32) (by decide)
  generalize length.bmod (2 ^ 32) = l at *
  rw [Int.bmod_def] at h ⊢
  norm_num at hlow hhigh h ⊢
  split at h <;> split <;> omega

/-- Once `tryExtractFrame` has decided, more bytes only go behind the frame. -/
theorem tryExtractFrame_append {buffer : Bytes} (h : tryExtractFrame buffer ≠ .ok none)
    (more : Bytes) :
    tryExtractFrame (buffer ++ more) =
      (tryExtractFrame buffer).map fun r => r.map fun frame => (frame.1, frame.2 ++ more) := by
  unfold tryExtractFrame at h ⊢
  rcases hheader : parseHeader buffer with _ | header
  · rw [hheader] at h
    exact absurd rfl h
  · obtain ⟨happend, hlen, -, hsize, hmask⟩ := parseHeader_append hheader more
    rw [hheader] at h
    rw [happend]
    dsimp only at h ⊢
    by_cases hshort : (buffer.length : Int) < toInt (header.headerSize + toInt header.payloadLength)
    · rw [if_pos hshort] at h
      exact absurd rfl h
    · rw [if_neg hshort, if_neg (by rw [length_append]; omega)]
      by_cases hneg : toInt (header.headerSize + toInt header.payloadLength) < header.headerSize
      · rw [if_pos hneg, if_pos hneg]
        rfl
      · rw [if_neg hneg, if_neg hneg]
        have hbound : header.headerSize + (toInt header.payloadLength).toNat ≤ buffer.length := by
          have := totalFrameSize_of_ge hsize hneg
          omega
        rw [framePayload_append hmask hbound, drop_append_of_le_length (by omega),
          getD_append _ _ _ _ (by omega)]
        rfl

-- ----
-- Frames of the server

inductive LengthForm
  | short | medium | long
  deriving Repr

/-- The payload length in a form: the seven bits of the second byte and the bytes behind
it. -/
def LengthForm.wire (form : LengthForm) (length : Nat) : Nat × Bytes :=
  match form with
  | short => (length, [])
  | medium => (126, [UInt8.ofNat (length / 256), UInt8.ofNat length])
  | long => (127, [7, 6, 5, 4, 3, 2, 1, 0].map fun i => UInt8.ofNat (length / 256 ^ i))

def LengthForm.holds (form : LengthForm) (length : Nat) : Prop :=
  match form with
  | short => length ≤ 125
  | medium => length < 2 ^ 16
  | long => length < 2 ^ 63

/-- A frame of the server: its first byte, with the final bit, the reserved bits and the
opcode, the form of its length, its masking key and its payload. -/
structure ServerFrame where
  byte0 : UInt8
  form : LengthForm
  key : Option {key : Bytes // key.length = 4}
  payload : Bytes
  holds : form.holds payload.length

namespace ServerFrame

def opcode (f : ServerFrame) : Nat := f.byte0.toNat % 16

def wire (f : ServerFrame) : Bytes :=
  match f.key with
  | none => f.byte0 :: UInt8.ofNat (f.form.wire f.payload.length).1 ::
      ((f.form.wire f.payload.length).2 ++ f.payload)
  | some key => f.byte0 :: UInt8.ofNat (128 + (f.form.wire f.payload.length).1) ::
      ((f.form.wire f.payload.length).2 ++ (key.1 ++ mask key.1 f.payload))

def headerSize (f : ServerFrame) : Nat :=
  2 + (f.form.wire f.payload.length).2.length + if f.key.isSome then 4 else 0

end ServerFrame

theorem length_wire (f : ServerFrame) : f.wire.length = f.headerSize + f.payload.length := by
  unfold ServerFrame.wire ServerFrame.headerSize
  rcases f.key with _ | key
  · simp
    omega
  · simp [key.2]
    omega

theorem beValue_eight {length : Nat} (h : length < 2 ^ 63) :
    beValue ([7, 6, 5, 4, 3, 2, 1, 0].map fun i => UInt8.ofNat (length / 256 ^ i)) = length := by
  show BigEndian.value (BigEndian.digits 8 length) = length
  rw [BigEndian.value_digits]
  exact Nat.mod_eq_of_lt (by omega)

theorem extendedLength_wire {form : LengthForm} {length : Nat} (h : form.holds length)
    (rest : Bytes) :
    (form.wire length).1 < 128 ∧
      extendedLength (form.wire length).1 ((form.wire length).2 ++ rest) =
        some ((length : Int), (form.wire length).2.length) := by
  rcases form with _ | _ | _
  · change length ≤ 125 at h
    refine ⟨show length < 128 by omega, ?_⟩
    show extendedLength length rest = some ((length : Int), 0)
    rw [extendedLength, if_neg (by omega), if_neg (by omega)]
  · change length < 2 ^ 16 at h
    have hvalue : beValue [UInt8.ofNat (length / 256), UInt8.ofNat length] = length := by
      simp only [beValue, foldl_cons, foldl_nil, UInt8.toNat_ofNat']
      omega
    refine ⟨(by decide : 126 < 128), ?_⟩
    show extendedLength 126 ([UInt8.ofNat (length / 256), UInt8.ofNat length] ++ rest) = _
    rw [extendedLength, if_pos rfl, if_neg (by simp)]
    show some ((beValue [UInt8.ofNat (length / 256), UInt8.ofNat length] : Int), 2) = _
    rw [hvalue]
    rfl
  · change length < 2 ^ 63 at h
    have hlong : toLong (length : Int) = length := by
      unfold toLong
      exact Int.bmod_eq_of_le (by omega) (by omega)
    refine ⟨(by decide : 127 < 128), ?_⟩
    show extendedLength 127
      (([7, 6, 5, 4, 3, 2, 1, 0].map fun i => UInt8.ofNat (length / 256 ^ i)) ++ rest) = _
    rw [extendedLength, if_neg (by decide), if_pos rfl, if_neg (by simp)]
    show some (toLong (beValue
      ([7, 6, 5, 4, 3, 2, 1, 0].map fun i => UInt8.ofNat (length / 256 ^ i))), 8) = _
    rw [beValue_eight h, hlong]
    rfl

theorem parseHeader_wire (f : ServerFrame) (rest : Bytes) :
    parseHeader (f.wire ++ rest) = some ⟨f.headerSize, f.payload.length, f.key.isSome⟩ := by
  unfold ServerFrame.wire ServerFrame.headerSize
  rcases f.key with _ | key
  · obtain ⟨hlt, hext⟩ := extendedLength_wire f.holds (f.payload ++ rest)
    have hbyte : (UInt8.ofNat (f.form.wire f.payload.length).1).toNat =
        (f.form.wire f.payload.length).1 := by
      rw [UInt8.toNat_ofNat']
      omega
    dsimp only
    rw [cons_append, cons_append, append_assoc, parseHeader, hbyte,
      Nat.mod_eq_of_lt hlt, hext, Option.map_some]
    simp only [Option.isSome_none, show ¬ 128 ≤ (f.form.wire f.payload.length).1 by omega,
      decide_false]
    rfl
  · obtain ⟨hlt, hext⟩ := extendedLength_wire f.holds (key.1 ++ mask key.1 f.payload ++ rest)
    have hbyte : (UInt8.ofNat (128 + (f.form.wire f.payload.length).1)).toNat =
        128 + (f.form.wire f.payload.length).1 := by
      rw [UInt8.toNat_ofNat']
      omega
    dsimp only
    rw [cons_append, cons_append, append_assoc, parseHeader, hbyte, Nat.add_mod_left,
      Nat.mod_eq_of_lt hlt, hext, Option.map_some]
    simp

/-- The payload is read back, with its mask taken off. -/
theorem framePayload_wire (f : ServerFrame) (hlen : f.payload.length < 2 ^ 31) (rest : Bytes) :
    framePayload ⟨f.headerSize, f.payload.length, f.key.isSome⟩ (f.wire ++ rest) = f.payload := by
  have hint : (toInt (f.payload.length : Int)).toNat = f.payload.length := by
    unfold toInt
    rw [Int.bmod_eq_of_le (by omega) (by omega), Int.toNat_natCast]
  unfold framePayload ServerFrame.wire ServerFrame.headerSize
  dsimp only
  rw [hint]
  generalize (f.form.wire f.payload.length).1 = len7
  generalize (f.form.wire f.payload.length).2 = extended
  rcases f.key with _ | key
  · have hwire : f.byte0 :: UInt8.ofNat len7 :: (extended ++ f.payload) ++ rest =
        (f.byte0 :: UInt8.ofNat len7 :: extended) ++ (f.payload ++ rest) := by simp
    have hdrop : 2 + extended.length + 0 = (f.byte0 :: UInt8.ofNat len7 :: extended).length := by
      simp
      omega
    show (((f.byte0 :: UInt8.ofNat len7 :: (extended ++ f.payload)) ++ rest).drop
      (2 + extended.length + 0)).take f.payload.length = f.payload
    rw [hwire, hdrop, drop_left, take_left]
  · have hwire : f.byte0 :: UInt8.ofNat (128 + len7) ::
        (extended ++ (key.1 ++ mask key.1 f.payload)) ++
        rest = (f.byte0 :: UInt8.ofNat (128 + len7) :: extended) ++
          (key.1 ++ (mask key.1 f.payload ++ rest)) := by simp
    have hdrop : 2 + extended.length + 4 - 4 =
        (f.byte0 :: UInt8.ofNat (128 + len7) :: extended).length := by
      simp
      omega
    have hdrop' : 2 + extended.length + 4 =
        (f.byte0 :: UInt8.ofNat (128 + len7) :: extended ++ key.1).length := by
      simp [key.2]
      omega
    show mask ((((f.byte0 :: UInt8.ofNat (128 + len7) ::
        (extended ++ (key.1 ++ mask key.1 f.payload))) ++ rest).drop
        (2 + extended.length + 4 - 4)).take 4)
      ((((f.byte0 :: UInt8.ofNat (128 + len7) :: (extended ++ (key.1 ++ mask key.1 f.payload))) ++
        rest).drop (2 + extended.length + 4)).take f.payload.length) = f.payload
    rw [hwire, hdrop, drop_left, take_left' key.2, hdrop', ← append_assoc,
      drop_left, take_left' (length_mask _ _), unmask_mask]

/-- A frame is taken when it is complete. -/
theorem tryExtractFrame_wire (f : ServerFrame) (hlen : f.wire.length ≤ maxReceiveBufferSize)
    (rest : Bytes) :
    tryExtractFrame (f.wire ++ rest) = .ok (some (frameResult f.opcode f.payload, rest)) := by
  have hwire := length_wire f
  unfold maxReceiveBufferSize at hlen
  have hheader : f.headerSize ≤ 1048576 := by omega
  have hsmall : toInt (f.payload.length : Int) = f.payload.length := by
    unfold toInt
    exact Int.bmod_eq_of_le (by omega) (by omega)
  have htotal : toInt (f.headerSize + toInt (f.payload.length : Int)) = f.wire.length := by
    rw [hsmall, hwire, Nat.cast_add]
    unfold toInt
    exact Int.bmod_eq_of_le (by omega) (by omega)
  have hbyte0 : (f.wire ++ rest).getD 0 0 = f.byte0 := by
    unfold ServerFrame.wire
    rcases f.key with _ | key <;> rfl
  unfold tryExtractFrame
  rw [parseHeader_wire]
  dsimp only
  rw [htotal, if_neg (by rw [length_append]; omega), if_neg (by omega), hbyte0,
    framePayload_wire f (by omega), Int.toNat_natCast, drop_left]
  rfl

/-- A frame is not taken before it is complete. -/
theorem tryExtractFrame_part {f : ServerFrame} (hlen : f.wire.length ≤ maxReceiveBufferSize)
    {buffer more : Bytes} (h : f.wire = buffer ++ more) (hmore : more ≠ []) :
    tryExtractFrame buffer = .ok none := by
  by_contra hne
  have hwhole := tryExtractFrame_wire f hlen []
  rw [append_nil, h, tryExtractFrame_append hne] at hwhole
  rcases hbuffer : tryExtractFrame buffer with failure | _ | ⟨result, rest⟩
  · rw [hbuffer] at hwhole
    cases hwhole
  · exact hne hbuffer
  · rw [hbuffer] at hwhole
    have hrest := (Prod.mk.inj (Option.some.inj (Except.ok.inj hwhole))).2
    exact hmore (append_eq_nil_iff.1 hrest).2

end Anywhere.WebSocket
