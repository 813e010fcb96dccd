import Anywhere.Lib.ArrayReads
import Anywhere.Shadowsocks.Request2022
import Anywhere.Shadowsocks.UdpSession

/-!
# Anywhere — the receiving side of `Shadowsocks2022Connection`

An array with the bytes between an offset and an end in it, a header in two parts, and chunks of a
length and a payload. Every part that is not there yet is waited for. A byte or a copy outside the
array is an error of its own. The ciphertexts that were opened, with their nonces, are kept on a
list.

* `responseReader` — the reader without its array, as an `ExactReader`.
-/

namespace Anywhere.Shadowsocks

open Lib List

-- ----
-- The model

/-- `ShadowsocksError`, a failed `require`, and a place outside an array. -/
inductive Failure
  | decryptionFailed | badHeaderType | badTimestamp | badRequestSalt | requirement | outOfBounds

def HEADER_TYPE_SERVER : UInt8 := 1

def MAX_TIMESTAMP_DIFF : Int := 30

def TAG_SIZE : Nat := 16

def COMPACT_THRESHOLD : Nat := 4096

/-- The fields of `Shadowsocks2022Connection` that `processReceived` uses. -/
structure ResponseState where
  requestSalt : Option Bytes
  readNonce : Bytes
  readSubkey : Option Bytes := none
  readBuffer : Bytes := []
  readBufferOffset : Nat := 0
  readBufferEnd : Nat := 0
  responseHeaderParsed : Bool := false
  pendingVarHeaderLen : Option Nat := none
  pendingPayloadLength : Option Nat := none
  opened : List (Bytes × Bytes) := []

variable {n : Nat} {s s' : ResponseState} {subkey : Bytes}

namespace ResponseState

def ofReads {α : Type} : Except OutOfBounds α → Except Failure α
  | .ok a => .ok a
  | .error _ => .error .outOfBounds

def readBufferAvailable (s : ResponseState) : Nat := s.readBufferEnd - s.readBufferOffset

/-- The beginning of `processReceived`: the chunk behind what is unread. -/
def append (s : ResponseState) (data : Bytes) : Except Failure ResponseState := do
  let activeLen := s.readBufferAvailable
  let needed := activeLen + data.length
  let s ←
    if s.readBufferOffset + activeLen + data.length > s.readBuffer.length then do
      let room :=
        if s.readBuffer.length ≥ needed ∧ s.readBufferOffset > 0 then s.readBuffer
        else List.replicate (max (s.readBuffer.length * 2) needed) 0
      let readBuffer ← ofReads (arraycopy s.readBuffer s.readBufferOffset room 0 activeLen)
      .ok { s with readBuffer := readBuffer, readBufferOffset := 0, readBufferEnd := activeLen }
    else .ok s
  let readBuffer ← ofReads (arraycopy data 0 s.readBuffer s.readBufferEnd data.length)
  .ok { s with readBuffer := readBuffer, readBufferEnd := s.readBufferEnd + data.length }

/-- The end of `processReceived`: unread bytes are moved to the front of the array now and then. -/
def compact (s : ResponseState) : Except Failure ResponseState :=
  if s.readBufferOffset > COMPACT_THRESHOLD then do
    let remaining := s.readBufferAvailable
    let readBuffer ←
      if remaining > 0 then
        ofReads (arraycopy s.readBuffer s.readBufferOffset s.readBuffer 0 remaining)
      else .ok s.readBuffer
    .ok { s with readBuffer := readBuffer, readBufferOffset := 0, readBufferEnd := remaining }
  else if s.readBufferOffset > 0 ∧ s.readBufferAvailable = 0 then
    .ok { s with readBufferOffset := 0, readBufferEnd := 0 }
  else .ok s

variable (c : Ciphers2022) (account : Account)

def openNext (s : ResponseState) (subkey ciphertext : Bytes) :
    Except Failure (ResponseState × Bytes) :=
  let nonce := increment s.readNonce
  match c.aeadOpen account.cipher subkey nonce ciphertext with
  | some plaintext =>
    .ok ({ s with readNonce := nonce, opened := s.opened ++ [(nonce, ciphertext)] }, plaintext)
  | none => .error .decryptionFailed

def parseVariableHeader (s : ResponseState) (varLen : Nat) :
    Except Failure (ResponseState × Option Bytes) := do
  let varChunkLen := varLen + TAG_SIZE
  if s.readBufferAvailable < varChunkLen then
    .ok ({ s with pendingVarHeaderLen := some varLen }, none)
  else
    let varChunk ← ofReads (readBytes s.readBuffer s.readBufferOffset varChunkLen)
    let s := { s with readBufferOffset := s.readBufferOffset + varChunkLen }
    match s.readSubkey with
    | none => .error .decryptionFailed
    | some subkey =>
      let r ← s.openNext c account subkey varChunk
      .ok ({ r.1 with pendingVarHeaderLen := none, responseHeaderParsed := true }, some r.2)

/-- What `parseResponseHeader` checks in the fixed header; the length of the other one. -/
def checkFixedHeader (requestSalt : Option Bytes) (keySize : Nat) (now : Int)
    (fixedHeader : Bytes) :
    Except Failure Nat := do
  if fixedHeader.length ≠ 1 + 8 + keySize + 2 then .error .requirement
  else
    let headerType ← ofReads (readByte fixedHeader 0)
    if headerType ≠ HEADER_TYPE_SERVER then .error .badHeaderType
    else
      let epoch := readLongBE fixedHeader 1
      if mathAbs (toLong (now - epoch)) > MAX_TIMESTAMP_DIFF then .error .badTimestamp
      else
        let responseSalt ← ofReads (readBytes fixedHeader 9 keySize)
        if requestSalt.any (· ≠ responseSalt) then .error .badRequestSalt
        else ofReads (readWord fixedHeader (9 + keySize))

def parseResponseHeader (now : Int) (s : ResponseState) :
    Except Failure (ResponseState × Option Bytes) := do
  let keySize := account.cipher.keySize
  let fixedHeaderPlainLen := 1 + 8 + keySize + 2
  let minNeeded := keySize + fixedHeaderPlainLen + TAG_SIZE
  if s.readBufferAvailable < minNeeded then .ok (s, none)
  else
    let salt ← ofReads (readBytes s.readBuffer s.readBufferOffset keySize)
    let sessionKey := c.deriveSessionKey account.psk salt keySize
    let fixedChunkLen := fixedHeaderPlainLen + TAG_SIZE
    let fixedChunk ← ofReads (readBytes s.readBuffer (s.readBufferOffset + keySize) fixedChunkLen)
    let s := { s with
      readSubkey := some sessionKey
      readBufferOffset := s.readBufferOffset + (keySize + fixedChunkLen) }
    let r ← s.openNext c account sessionKey fixedChunk
    let varLen ← checkFixedHeader r.1.requestSalt keySize now r.2
    let t ← r.1.parseVariableHeader c account varLen
    .ok (t.1, some (t.2.getD []))

def payloadLength (s : ResponseState) (subkey : Bytes) :
    Except Failure (ResponseState × Option Nat) :=
  match s.pendingPayloadLength with
  | some pending => .ok (s, some pending)
  | none => do
    let lenNeeded := 2 + TAG_SIZE
    if s.readBufferAvailable < lenNeeded then .ok (s, none)
    else
      let encLen ← ofReads (readBytes s.readBuffer s.readBufferOffset lenNeeded)
      let r ← s.openNext c account subkey encLen
      if r.2.length ≠ 2 then .error .requirement
      else
        let payloadLen ← ofReads (readWord r.2 0)
        .ok ({ r.1 with readBufferOffset := r.1.readBufferOffset + lenNeeded }, some payloadLen)

/-- The payload of this length; null when it is not there yet. -/
def takePayload (s : ResponseState) (subkey : Bytes) (payloadLen : Nat) :
    Except Failure (ResponseState × Option Bytes) := do
  let payloadNeeded := payloadLen + TAG_SIZE
  if s.readBufferAvailable < payloadNeeded then
    .ok ({ s with pendingPayloadLength := some payloadLen }, none)
  else
    let encPayload ← ofReads (readBytes s.readBuffer s.readBufferOffset payloadNeeded)
    let s := { s with
      pendingPayloadLength := none
      readBufferOffset := s.readBufferOffset + payloadNeeded }
    let r ← s.openNext c account subkey encPayload
    .ok (r.1, some r.2)

/-- One turn of the loop of `decryptChunks`; null where it ends. -/
def decryptChunk (s : ResponseState) (subkey : Bytes) :
    Except Failure (ResponseState × Option Bytes) := do
  let r ← s.payloadLength c account subkey
  match r.2 with
  | none => .ok (r.1, none)
  | some payloadLen => r.1.takePayload c account subkey payloadLen

theorem openNext_available {ciphertext plaintext : Bytes}
    (h : s.openNext c account subkey ciphertext = .ok (s', plaintext)) :
    s'.readBufferAvailable = s.readBufferAvailable := by
  rw [openNext] at h
  split at h
  · obtain ⟨rfl, -⟩ := by simpa using h
    rfl
  · cases h

theorem payloadLength_available
    (h : s.payloadLength c account subkey = .ok (s', some n)) :
    s'.readBufferAvailable ≤ s.readBufferAvailable := by
  rw [payloadLength] at h
  split at h
  · obtain ⟨rfl, -⟩ := by simpa using h
    exact Nat.le_refl _
  · dsimp only at h
    split_ifs at h
    · simp at h
    · obtain ⟨encLen, -, h⟩ := bind_eq_ok.1 h
      obtain ⟨r, hopen, h⟩ := bind_eq_ok.1 h
      split_ifs at h
      obtain ⟨size, -, h⟩ := bind_eq_ok.1 h
      obtain ⟨rfl, -⟩ := by simpa using h
      have hkept := openNext_available c account hopen
      rw [readBufferAvailable] at hkept ⊢
      dsimp only
      omega

theorem takePayload_available {payload : Bytes}
    (h : s.takePayload c account subkey n = .ok (s', some payload)) :
    s'.readBufferAvailable < s.readBufferAvailable := by
  rw [takePayload] at h
  dsimp only at h
  split_ifs at h with hshort
  · simp at h
  · obtain ⟨encPayload, -, h⟩ := bind_eq_ok.1 h
    obtain ⟨r, hopen, h⟩ := bind_eq_ok.1 h
    obtain ⟨rfl, -⟩ := by simpa using h
    have hkept := openNext_available c account hopen
    rw [hkept]
    rw [readBufferAvailable, TAG_SIZE] at hshort ⊢
    rw [readBufferAvailable]
    dsimp only
    omega

/-- A turn that takes a payload leaves less. -/
theorem decryptChunk_available {payload : Bytes}
    (h : s.decryptChunk c account subkey = .ok (s', some payload)) :
    s'.readBufferAvailable < s.readBufferAvailable := by
  obtain ⟨⟨s₁, size⟩, hlength, h⟩ := bind_eq_ok.1 h
  cases size with
  | none => simp at h
  | some n =>
    exact Nat.lt_of_lt_of_le (takePayload_available c account h)
      (payloadLength_available c account hlength)

/-- The loop of `decryptChunks`. -/
def decryptLoop (s : ResponseState) (subkey output : Bytes) :
    Except Failure (ResponseState × Bytes) :=
  match _hturn : s.decryptChunk c account subkey with
  | .error e => .error e
  | .ok (s', none) => .ok (s', output)
  | .ok (s', some payload) => decryptLoop s' subkey (output ++ payload)
termination_by s.readBufferAvailable
decreasing_by exact decryptChunk_available c account _hturn

def decryptChunks (s : ResponseState) : Except Failure (ResponseState × Bytes) :=
  match s.readSubkey with
  | none => .ok (s, [])
  | some subkey => s.decryptLoop c account subkey []

/-- The parts of `processReceived` behind the headers. -/
def finish (s : ResponseState) (output : Bytes) : Except Failure (ResponseState × Bytes) := do
  let r ← if s.responseHeaderParsed then s.decryptChunks c account else .ok (s, [])
  let s ← r.1.compact
  .ok (s, output ++ r.2)

/-- `processReceived` behind the copy of the chunk. -/
def parseBuffered (now : Int) (s : ResponseState) : Except Failure (ResponseState × Bytes) := do
  let r ←
    match s.pendingVarHeaderLen with
    | some varLen => s.parseVariableHeader c account varLen
    | none => .ok (s, some [])
  match r.2 with
  | none => .ok (r.1, [])
  | some parsed =>
    let t ←
      if ¬ r.1.responseHeaderParsed then r.1.parseResponseHeader c account now
      else .ok (r.1, some [])
    match t.2 with
    | none => .ok (t.1, [])
    | some header => t.1.finish c account (parsed ++ header)

/-- A call at a time in seconds. -/
def processReceived (now : Int) (s : ResponseState) (data : Bytes) :
    Except Failure (ResponseState × Bytes) := do
  let s ← s.append data
  s.parseBuffered c account now

/-- Calls one after the other, with what they return. -/
def receiveAll : ResponseState → List (Int × Bytes) → Except Failure (ResponseState × List Bytes)
  | s, [] => .ok (s, [])
  | s, (now, data) :: calls => do
    let r ← s.processReceived c account now data
    let t ← receiveAll r.1 calls
    .ok (t.1, r.2 :: t.2)

end ResponseState

-- ----
-- The reader without its array

inductive ResponseStage
  | header
  | variableHeader (length : Nat)
  | chunkLength
  | chunkPayload (length : Nat)
  deriving Repr

structure ResponseCore where
  key : Bytes
  nonce : Bytes
  stage : ResponseStage
  opened : List (Bytes × Bytes)

section Reader

variable (c : Ciphers2022) (account : Account)

/-- What a reader has behind a ciphertext that is opened with the next nonce. -/
def ResponseCore.behind (k : ResponseCore) (key ciphertext : Bytes) (stage : ResponseStage) :
    ResponseCore :=
  ⟨key, increment k.nonce, stage, k.opened ++ [(increment k.nonce, ciphertext)]⟩

def fixedLength : Nat := 1 + 8 + account.cipher.keySize + 2

/-- `check` gives the length of the variable header for a fixed header. -/
def responseReader (check : Bytes → Option Nat) : ExactReader ResponseCore UInt8 UInt8 where
  need k :=
    match k.stage with
    | .header => account.cipher.keySize + fixedLength account + TAG_SIZE
    | .variableHeader length => length + TAG_SIZE
    | .chunkLength => 2 + TAG_SIZE
    | .chunkPayload length => length + TAG_SIZE
  need_pos k := by
    split <;> simp only [TAG_SIZE] <;> omega
  on k piece :=
    match k.stage with
    | .header =>
      let key :=
        c.deriveSessionKey account.psk (piece.take account.cipher.keySize) account.cipher.keySize
      let ciphertext := piece.drop account.cipher.keySize
      ((c.aeadOpen account.cipher key (increment k.nonce) ciphertext).bind check).map fun length =>
        (k.behind key ciphertext (.variableHeader length), [])
    | .variableHeader _ =>
      (c.aeadOpen account.cipher k.key (increment k.nonce) piece).map fun data =>
        (k.behind k.key piece .chunkLength, data)
    | .chunkLength =>
      let length := c.aeadOpen account.cipher k.key (increment k.nonce) piece
      (length.filter (·.length = 2)).map fun length =>
        (k.behind k.key piece (.chunkPayload (readSize length)), [])
    | .chunkPayload _ =>
      (c.aeadOpen account.cipher k.key (increment k.nonce) piece).map fun payload =>
        (k.behind k.key piece .chunkLength, payload)

end Reader

-- ----
-- The two readers side by side

namespace ResponseState

variable {c : Ciphers2022} {account : Account} {requestSalt : Option Bytes}
  {s : ResponseState} {k : ResponseCore} {unread : Bytes}

structure Holds (requestSalt : Option Bytes) (s : ResponseState) (k : ResponseCore)
    (unread : Bytes) :
    Prop where
  inside : s.readBufferOffset ≤ s.readBufferEnd
  fits : s.readBufferEnd ≤ s.readBuffer.length
  unread : (s.readBuffer.take s.readBufferEnd).drop s.readBufferOffset = unread
  nonce : s.readNonce = k.nonce
  opened : s.opened = k.opened
  requestSalt : s.requestSalt = requestSalt

theorem Holds.available (h : Holds requestSalt s k unread) :
    s.readBufferAvailable = unread.length := by
  have hfits := h.fits
  rw [readBufferAvailable, ← h.unread, length_drop, length_take]
  omega

theorem Holds.read (h : Holds requestSalt s k unread) {i : Nat} (hn : i + n ≤ unread.length) :
    ofReads (readBytes s.readBuffer (s.readBufferOffset + i) n) = .ok ((unread.drop i).take n) := by
  have havailable := h.available
  have hinside := h.inside
  have hfits := h.fits
  rw [readBufferAvailable] at havailable
  rw [readBytes_eq (by omega), ofReads, ← h.unread, drop_drop, drop_take, take_take,
    Nat.min_eq_left (by omega : n ≤ s.readBufferEnd - (s.readBufferOffset + i))]

theorem Holds.read_first (h : Holds requestSalt s k unread) (hn : n ≤ unread.length) :
    ofReads (readBytes s.readBuffer s.readBufferOffset n) = .ok (unread.take n) :=
  h.read (i := 0) (by rwa [Nat.zero_add])

theorem Holds.advance (h : Holds requestSalt s k unread) (hn : n ≤ unread.length) :
    Holds requestSalt { s with readBufferOffset := s.readBufferOffset + n } k (unread.drop n) := by
  have havailable := h.available
  have hinside := h.inside
  rw [readBufferAvailable] at havailable
  refine ⟨?_, h.fits, ?_, h.nonce, h.opened, h.requestSalt⟩
  · dsimp only
    omega
  · rw [← h.unread, drop_drop]

/-- What `openNext` leaves behind a ciphertext that is opened. -/
theorem Holds.openNext (h : Holds requestSalt s k unread) {key ciphertext plaintext : Bytes}
    (stage : ResponseStage)
    (hopen : c.aeadOpen account.cipher key (increment k.nonce) ciphertext = some plaintext) :
    s.openNext c account key ciphertext = .ok ({ s with
      readNonce := increment s.readNonce
      opened := s.opened ++ [(increment s.readNonce, ciphertext)] }, plaintext) ∧
    Holds requestSalt { s with
      readNonce := increment s.readNonce
      opened := s.opened ++ [(increment s.readNonce, ciphertext)] }
        (k.behind key ciphertext stage) unread := by
  refine ⟨?_, h.inside, h.fits, h.unread, congrArg increment h.nonce, ?_, h.requestSalt⟩
  · rw [← h.nonce] at hopen
    rw [ResponseState.openNext]
    simp only [hopen]
  · dsimp only [ResponseCore.behind]
    rw [h.opened, h.nonce]

/-- Where the other fields say that the reader is. -/
def Located (s : ResponseState) (k : ResponseCore) : Prop :=
  match k.stage with
  | .header => s.pendingVarHeaderLen = none ∧ s.responseHeaderParsed = false ∧
      s.pendingPayloadLength = none
  | .variableHeader length => s.readSubkey = some k.key ∧ s.pendingVarHeaderLen = some length ∧
      s.responseHeaderParsed = false ∧ s.pendingPayloadLength = none
  | .chunkLength => s.readSubkey = some k.key ∧ s.pendingVarHeaderLen = none ∧
      s.responseHeaderParsed = true ∧ s.pendingPayloadLength = none
  | .chunkPayload length => s.readSubkey = some k.key ∧ s.pendingVarHeaderLen = none ∧
      s.responseHeaderParsed = true ∧ s.pendingPayloadLength = some length

-- ----
-- The array

theorem Holds.move (h : Holds requestSalt s k unread) (room : Bytes)
    (hroom : unread.length ≤ room.length) :
    ofReads (arraycopy s.readBuffer s.readBufferOffset room 0 unread.length) =
      .ok (unread ++ room.drop unread.length) ∧
    Holds requestSalt { s with
      readBuffer := unread ++ room.drop unread.length
      readBufferOffset := 0
      readBufferEnd := unread.length } k unread := by
  have havailable := h.available
  have hinside := h.inside
  have hfits := h.fits
  rw [readBufferAvailable] at havailable
  have hpart : (s.readBuffer.drop s.readBufferOffset).take unread.length = unread := by
    rw [← havailable, ← drop_take, h.unread]
  refine ⟨?_, ?_⟩
  · rw [arraycopy, if_pos ⟨by omega, by omega⟩, ofReads, hpart, take_zero, nil_append,
      Nat.zero_add]
  · exact ⟨Nat.zero_le _, by simp, by simp, h.nonce, h.opened, h.requestSalt⟩

theorem Holds.write (h : Holds requestSalt s k unread) (data : Bytes)
    (hroom : s.readBufferEnd + data.length ≤ s.readBuffer.length) :
    ∃ buffer, ofReads (arraycopy data 0 s.readBuffer s.readBufferEnd data.length) = .ok buffer ∧
      Holds requestSalt { s with
        readBuffer := buffer, readBufferEnd := s.readBufferEnd + data.length } k
        (unread ++ data) := by
  have hfits := h.fits
  have hlength : (s.readBuffer.take s.readBufferEnd).length = s.readBufferEnd := by
    rw [length_take]
    omega
  refine ⟨_, by rw [arraycopy_all hroom, ofReads], ?_⟩
  refine ⟨Nat.le_add_right_of_le h.inside, ?_, ?_, h.nonce, h.opened, h.requestSalt⟩
  · rw [length_append, length_append, hlength]
    exact Nat.le_add_right _ _
  · dsimp only
    rw [take_left' (by rw [length_append, hlength]),
      drop_append_of_le_length (by rw [hlength]; exact h.inside), h.unread]

/-- The array keeps what is unread, and takes the chunk behind it. -/
theorem append_spec (h : Holds requestSalt s k unread) (data : Bytes) :
    ∃ buffer offset finish, s.append data = .ok { s with
      readBuffer := buffer, readBufferOffset := offset, readBufferEnd := finish } ∧
      Holds requestSalt { s with
        readBuffer := buffer, readBufferOffset := offset, readBufferEnd := finish } k
          (unread ++ data) := by
  have havailable := h.available
  by_cases hroom : s.readBufferOffset + unread.length + data.length > s.readBuffer.length
  · obtain ⟨room, hcopy, hlength⟩ : ∃ room : Bytes, room = (
        if s.readBuffer.length ≥ unread.length + data.length ∧ s.readBufferOffset >
        0 then s.readBuffer
        else List.replicate (max (s.readBuffer.length * 2) (unread.length + data.length)) 0) ∧
        unread.length + data.length ≤ room.length := by
      refine ⟨_, rfl, ?_⟩
      split_ifs with hshift
      · exact hshift.1
      · rw [length_replicate]
        exact Nat.le_max_right _ _
    obtain ⟨hmove, hmoved⟩ := h.move room (by omega)
    obtain ⟨buffer, hwrite, hheld⟩ := hmoved.write data (by
      simp only [length_append, length_drop]
      omega)
    refine ⟨buffer, 0, unread.length + data.length, ?_, hheld⟩
    rw [append, havailable, ← hcopy, if_pos hroom]
    simp only [hmove, bind_ok]
    rw [hwrite]
    rfl
  · have hinside := h.inside
    rw [readBufferAvailable] at havailable
    obtain ⟨buffer, hwrite, hheld⟩ := h.write data (by omega)
    refine ⟨buffer, s.readBufferOffset, s.readBufferEnd + data.length, ?_, hheld⟩
    rw [append, h.available, if_neg hroom, bind_ok]
    dsimp only
    rw [hwrite]
    rfl

/-- The array keeps what is unread. -/
theorem compact_spec (h : Holds requestSalt s k unread) :
    ∃ buffer offset finish, s.compact = .ok { s with
      readBuffer := buffer, readBufferOffset := offset, readBufferEnd := finish } ∧
      Holds requestSalt { s with
        readBuffer := buffer, readBufferOffset := offset, readBufferEnd := finish } k unread := by
  have havailable := h.available
  have hinside := h.inside
  have hfits := h.fits
  have hlength : unread.length ≤ s.readBuffer.length := by
    rw [readBufferAvailable] at havailable
    omega
  obtain ⟨hmove, hmoved⟩ := h.move s.readBuffer hlength
  rw [compact, havailable]
  by_cases hfar : s.readBufferOffset > COMPACT_THRESHOLD
  · rw [if_pos hfar]
    by_cases hsome : unread.length > 0
    · exact ⟨_, _, _, by rw [if_pos hsome, hmove]; rfl, hmoved⟩
    · obtain rfl : unread = [] := eq_nil_of_length_eq_zero (by omega)
      exact ⟨s.readBuffer, 0, 0, rfl, Nat.le_refl _, Nat.zero_le _, rfl, h.nonce, h.opened,
        h.requestSalt⟩
  · rw [if_neg hfar]
    split_ifs with hempty
    · obtain rfl : unread = [] := eq_nil_of_length_eq_zero hempty.2
      exact ⟨s.readBuffer, 0, 0, rfl, Nat.le_refl _, Nat.zero_le _, rfl, h.nonce, h.opened,
        h.requestSalt⟩
    · exact ⟨_, _, _, rfl, h⟩

end ResponseState

end Anywhere.Shadowsocks
