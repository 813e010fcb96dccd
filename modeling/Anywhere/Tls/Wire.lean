import Anywhere.Config
import Anywhere.Lib.Framing

/-!
# Anywhere — TLS on the wire

Records and handshake messages as the clients cut them out of their buffers,
and the part of the ServerHello the clients look at before any key exists.
A buffer and an offset into it are modelled by the bytes from that offset on.

* `records`, `messages` — the two framings.
* `PacketUtil.parseServerHello` — the X25519 key share and the cipher suite.
* `bufferContainsCompleteServerHello`, `extractServerHelloMessage`,
  `isHelloRetryRequest` — the scans of `TlsClient`.
-/

namespace Anywhere.Tls

open List

/-- Two bytes, most significant first. -/
def be16 (a b : UInt8) : Nat := a.toNat * 256 + b.toNat

theorem be16_ofNat {n : Nat} (h : n < 65536) :
    be16 (UInt8.ofNat (n / 256)) (UInt8.ofNat n) = n := by
  rw [be16, UInt8.toNat_ofNat', UInt8.toNat_ofNat']
  omega

/-- Three bytes, most significant first. -/
def be24 (a b c : UInt8) : Nat := a.toNat * 65536 + b.toNat * 256 + c.toNat

def constantTimeEqual (a b : Bytes) : Bool :=
  a.length == b.length && (a.zip b).foldl (fun diff p => diff ||| (p.1 ^^^ p.2)) 0 == 0

theorem constantTimeEqual_iff (a b : Bytes) : constantTimeEqual a b = true ↔ a = b := by
  -- the accumulated difference is zero when it was and no pair differs
  have hfold : ∀ (l : List (UInt8 × UInt8)) (d : UInt8),
      l.foldl (fun diff p => diff ||| (p.1 ^^^ p.2)) d = 0 ↔ d = 0 ∧ ∀ p ∈ l, p.1 = p.2 := by
    intro l
    induction l with
    | nil => simp
    | cons p l ih =>
      intro d
      simp [ih, and_assoc]
  have hzip : ∀ a b : Bytes, a.length = b.length → (∀ p ∈ a.zip b, p.1 = p.2) → a = b := by
    intro a
    induction a with
    | nil =>
      intro b hlen _
      exact (eq_nil_of_length_eq_zero hlen.symm).symm
    | cons x a ih =>
      intro b hlen h
      cases b with
      | nil => cases hlen
      | cons y b =>
        have hxy : x = y := h (x, y) (by simp)
        have hrest : a = b := ih b (by simpa using hlen) fun p hp => h p (by simp [hp])
        rw [hxy, hrest]
  simp only [constantTimeEqual, Bool.and_eq_true, beq_iff_eq, hfold, true_and]
  constructor
  · exact fun h => hzip a b h.1 h.2
  · rintro rfl
    refine ⟨rfl, fun p hp => ?_⟩
    obtain ⟨i, hi, rfl⟩ := mem_iff_getElem.mp hp
    simp

/-! ## Records -/

/-- A TLS record: content type, the five header bytes, and what they announce. -/
structure Record where
  contentType : UInt8
  header : Bytes
  payload : Bytes
  deriving DecidableEq

def Record.bytes (r : Record) : Bytes := r.header ++ r.payload

def takeRecord : Bytes → Option (Record × Bytes)
  | ct :: v1 :: v2 :: l1 :: l2 :: rest =>
    let recordLen := be16 l1 l2
    if recordLen ≤ rest.length then
      some (⟨ct, [ct, v1, v2, l1, l2], rest.take recordLen⟩, rest.drop recordLen)
    else none
  | _ => none

variable {r : Record} {xs ys : Bytes}

/-- The header of a record that `takeRecord` takes. -/
theorem takeRecord_some (h : takeRecord xs = some (r, ys)) :
    ∃ ct v1 v2 l1 l2 rest, xs = ct :: v1 :: v2 :: l1 :: l2 :: rest ∧ be16 l1 l2 ≤ rest.length ∧
      r = ⟨ct, [ct, v1, v2, l1, l2], rest.take (be16 l1 l2)⟩ ∧ ys = rest.drop (be16 l1 l2) := by
  unfold takeRecord at h
  split at h
  · rename_i ct v1 v2 l1 l2 rest
    dsimp only at h
    split at h
    · rename_i hlen
      simp only [Option.some.injEq, Prod.mk.injEq] at h
      exact ⟨ct, v1, v2, l1, l2, rest, rfl, hlen, h.1.symm, h.2.symm⟩
    · cases h
  · cases h

def records : Lib.Framing UInt8 Record where
  next := takeRecord
  progress := by
    intro xs r ys h
    obtain ⟨ct, v1, v2, l1, l2, rest, rfl, -, -, rfl⟩ := takeRecord_some h
    simp only [length_cons, length_drop]
    omega
  extend := by
    intro xs r ys zs h
    obtain ⟨ct, v1, v2, l1, l2, rest, rfl, hlen, rfl, rfl⟩ := takeRecord_some h
    simp only [takeRecord, cons_append, length_append]
    rw [if_pos (by omega), take_append_of_le_length hlen, drop_append_of_le_length hlen]

/-- What was taken, followed by what is left, is the buffer. -/
theorem takeRecord_bytes (h : takeRecord xs = some (r, ys)) :
    xs = r.bytes ++ ys := by
  obtain ⟨ct, v1, v2, l1, l2, rest, rfl, hlen, rfl, rfl⟩ := takeRecord_some h
  simp [Record.bytes]

/-- A record whose header announces its payload. -/
def Record.WellFormed (r : Record) : Prop :=
  ∃ v1 v2 l1 l2, r.header = [r.contentType, v1, v2, l1, l2] ∧ be16 l1 l2 = r.payload.length

theorem Record.WellFormed.encodes (h : r.WellFormed) :
    records.Encodes Record.bytes r := by
  obtain ⟨v1, v2, l1, l2, hheader, hlen⟩ := h
  intro zs
  cases r with
  | mk ct header payload =>
    dsimp only at hheader hlen
    subst hheader
    simp [records, takeRecord, Record.bytes, hlen]

/-! ## Handshake messages -/

/-- A handshake message: its type, its four header bytes, and its body. -/
structure HandshakeMessage where
  hsType : UInt8
  header : Bytes
  body : Bytes
  deriving DecidableEq

/-- `hsMessage`: what goes into the transcript. -/
def HandshakeMessage.bytes (m : HandshakeMessage) : Bytes := m.header ++ m.body

/-- The first message of a record's content, when all of it is there. -/
def takeMessage : Bytes → Option (HandshakeMessage × Bytes)
  | t :: a :: b :: c :: rest =>
    let hsLen := be24 a b c
    if hsLen ≤ rest.length then some (⟨t, [t, a, b, c], rest.take hsLen⟩, rest.drop hsLen)
    else none
  | _ => none

variable {m : HandshakeMessage}

theorem takeMessage_some
    (h : takeMessage xs = some (m, ys)) :
    ∃ t a b c rest, xs = t :: a :: b :: c :: rest ∧ be24 a b c ≤ rest.length ∧
      m = ⟨t, [t, a, b, c], rest.take (be24 a b c)⟩ ∧ ys = rest.drop (be24 a b c) := by
  unfold takeMessage at h
  split at h
  · rename_i t a b c rest
    dsimp only at h
    split at h
    · rename_i hlen
      simp only [Option.some.injEq, Prod.mk.injEq] at h
      exact ⟨t, a, b, c, rest, rfl, hlen, h.1.symm, h.2.symm⟩
    · cases h
  · cases h

/-- The messages of a record's content. -/
def messages : Lib.Framing UInt8 HandshakeMessage where
  next := takeMessage
  progress := by
    intro xs m ys h
    obtain ⟨t, a, b, c, rest, rfl, -, -, rfl⟩ := takeMessage_some h
    simp only [length_cons, length_drop]
    omega
  extend := by
    intro xs m ys zs h
    obtain ⟨t, a, b, c, rest, rfl, hlen, rfl, rfl⟩ := takeMessage_some h
    simp only [takeMessage, cons_append, length_append]
    rw [if_pos (by omega), take_append_of_le_length hlen, drop_append_of_le_length hlen]

theorem takeMessage_bytes
    (h : takeMessage xs = some (m, ys)) : xs = m.bytes ++ ys := by
  obtain ⟨t, a, b, c, rest, rfl, hlen, rfl, rfl⟩ := takeMessage_some h
  rw [HandshakeMessage.bytes, append_assoc, take_append_drop]
  rfl

theorem takeMessage_ne_nil
    (h : takeMessage xs = some (m, ys)) : m.bytes ≠ [] := by
  obtain ⟨t, a, b, c, rest, rfl, hlen, rfl, rfl⟩ := takeMessage_some h
  simp [HandshakeMessage.bytes]

/-- A message whose header announces its type and its body. -/
def HandshakeMessage.WellFormed (m : HandshakeMessage) : Prop :=
  ∃ a b c, m.header = [m.hsType, a, b, c] ∧ be24 a b c = m.body.length

theorem HandshakeMessage.WellFormed.encodes (h : m.WellFormed) :
    messages.Encodes HandshakeMessage.bytes m := by
  obtain ⟨a, b, c, hheader, hlen⟩ := h
  intro zs
  cases m with
  | mk t header body =>
    dsimp only at hheader hlen
    subst hheader
    simp [messages, takeMessage, HandshakeMessage.bytes, hlen]

/-! ## Reading -/

/-- How a handshake ends: `waiting` when it is suspended in a `receive` that
never returns. -/
inductive Result (ε α : Type) where
  | waiting
  | threw (e : ε)
  | returned (a : α)
  deriving DecidableEq

def Result.value? {ε α : Type} : Result ε α → Option α
  | .returned a => some a
  | _ => none

theorem Result.returned_of_value? {ε α β : Type} {r : Result ε α} {f : α → β} {b : β}
    (h : r.value?.map f = some b) : ∃ a, r = .returned a ∧ f a = b := by
  cases r with
  | waiting => cases h
  | threw e => cases h
  | returned a => exact ⟨a, rfl, Option.some.inj h⟩

/-- The server from the client's side: what each `receive` returns, `none` for
the `null` of a closed connection. -/
abbrev Reads := List (Option Bytes)

def Reads.chunks (reads : Reads) : List Bytes := reads.map (·.getD [])

def Reads.bytes (reads : Reads) : Bytes := reads.chunks.flatten

@[simp] theorem Reads.chunks_cons (data : Bytes) (reads : Reads) :
    Reads.chunks (some data :: reads) = data :: reads.chunks := rfl

@[simp] theorem Reads.bytes_nil : Reads.bytes [] = [] := rfl

@[simp] theorem Reads.bytes_cons (data : Bytes) (reads : Reads) :
    Reads.bytes (some data :: reads) = data ++ reads.bytes := by
  simp [Reads.bytes]

section Reading

variable {ε : Type} (handshakeFailed : String → ε)

/-- `receiveServerResponse` of both clients: at least a record header, of a
handshake record. -/
def receiveResponse (closed : String) : Bytes → Reads → Result ε (Bytes × Reads)
  | existingBuffer, reads =>
    if 5 ≤ existingBuffer.length then
      let contentType := existingBuffer.headD 0
      if contentType = 0x16 then .returned (existingBuffer, reads)
      else if contentType = 0x15 then
        let alertLevel := ((existingBuffer.drop 5).headD 0).toNat
        let alertDesc := ((existingBuffer.drop 6).headD 0).toNat
        .threw (handshakeFailed
          ("TLS Alert: level=" ++ toString alertLevel ++ ", desc=" ++ toString alertDesc))
      else .threw (handshakeFailed ("Unexpected content type: " ++ toString contentType.toNat))
    else
      match reads with
      | [] => .waiting
      | none :: _ => .threw (handshakeFailed closed)
      | some data :: reads =>
        if data.isEmpty then .threw (handshakeFailed closed)
        else receiveResponse closed (existingBuffer ++ data) reads

/-- The loop of `continueReceivingHandshake` of both clients. -/
def receiveUntil (complete : Bytes → Bool) : Bytes → Reads → Result ε (Bytes × Reads)
  | buf, reads =>
    if complete buf then .returned (buf, reads)
    else
      match reads with
      | [] => .waiting
      | none :: _ => .threw (handshakeFailed "Connection closed during handshake")
      | some moreData :: reads => receiveUntil complete (buf ++ moreData) reads

end Reading

/-! ## The ServerHello -/

/-- What `PacketUtil.parseServerHello` returns: 32 bytes of key share, then the
cipher suite. -/
structure ServerKeyShare where
  keyShare : Bytes
  cipherSuite : Nat
  deriving DecidableEq

namespace PacketUtil

/-- The extension loop: `left` bytes of extensions remain at the front of `q`.
After a key share of another group the loop has moved four bytes further than
the extension's length says. -/
def parseExtensions (cipherSuite : Nat) : Nat → Nat → Bytes → Option ServerKeyShare
  | 0, _, _ => none
  | fuel + 1, left, q =>
    if 4 ≤ left then
      match q with
      | t1 :: t2 :: l1 :: l2 :: q =>
        let extDataLen := be16 l1 l2
        if be16 t1 t2 = 0x0033 then
          match q with
          | g1 :: g2 :: k1 :: k2 :: q =>
            if be16 g1 g2 = 0x001d ∧ be16 k1 k2 = 32 then
              if 32 ≤ q.length then some ⟨q.take 32, cipherSuite⟩ else none
            else parseExtensions cipherSuite fuel (left - 8 - extDataLen) (q.drop extDataLen)
          | _ => none
        else parseExtensions cipherSuite fuel (left - 4 - extDataLen) (q.drop extDataLen)
      | _ => none
    else none

/-- From the handshake type byte on, as far as the buffer goes; `extensions` is
the extension loop. -/
def parseHello (extensions : Nat → Nat → Nat → Bytes → Option ServerKeyShare) (p : Bytes) :
    Option ServerKeyShare :=
  -- type(1) + length(3) + version(2) + random(32)
  match p.drop 38 with
  | [] => none
  | sessionIdLen :: q =>
    match q.drop sessionIdLen.toNat with
    | c1 :: c2 :: q =>
      -- compression(1)
      match q.drop 1 with
      | e1 :: e2 :: q =>
        if be16 e1 e2 ≤ q.length then extensions (be16 c1 c2) (be16 e1 e2) (be16 e1 e2) q else none
      | _ => none
    | _ => none

/-- The record loop around it: the first handshake record that starts with a
ServerHello. -/
def parseRecords (extensions : Nat → Nat → Nat → Bytes → Option ServerKeyShare) :
    Nat → Bytes → Option ServerKeyShare
  | 0, _ => none
  | fuel + 1, data =>
    if 5 < data.length then
      if data.head? ≠ some 0x16 then none
      else
        match takeRecord data with
        | none => none
        | some (r, rest) =>
          if (r.payload ++ rest).head? ≠ some 0x02 then parseRecords extensions fuel rest
          else parseHello extensions (r.payload ++ rest)
    else none

def parseServerHello (data : Bytes) : Option ServerKeyShare :=
  parseRecords parseExtensions data.length data

end PacketUtil

/-- The record loop of `bufferContainsCompleteServerHello`. The byte behind a
record header is looked at even when the record is empty. -/
def containsServerHello : Nat → Bytes → Bool
  | 0, _ => false
  | fuel + 1, buffer =>
    match takeRecord buffer with
    | none => false
    | some (r, rest) =>
      if r.contentType = 0x16 ∧ (r.payload ++ rest).head? = some 0x02 then true
      else containsServerHello fuel rest

def bufferContainsCompleteServerHello (buffer : Bytes) : Bool :=
  containsServerHello buffer.length buffer

/-- The record loop of `extractServerHelloMessage`. -/
def extractServerHello : Nat → Bytes → Bytes
  | 0, _ => []
  | fuel + 1, buffer =>
    match takeRecord buffer with
    | none => []
    | some (r, rest) =>
      if r.contentType = 0x16 then
        match (messages.frames r.payload).find? (fun m => m.hsType == 0x02) with
        | some m => m.bytes
        | none => extractServerHello fuel rest
      else extractServerHello fuel rest

def extractServerHelloMessage (buffer : Bytes) : Bytes :=
  extractServerHello buffer.length buffer

/-- The random of a HelloRetryRequest (RFC 8446 §4.1.3). -/
def helloRetryRequestRandom : Bytes :=
  [0xCF, 0x21, 0xAD, 0x74, 0xE5, 0x9A, 0x61, 0x11, 0xBE, 0x1D, 0x8C, 0x02, 0x1E, 0x65, 0xB8, 0x91,
    0xC2, 0xA2, 0x11, 0x16, 0x7A, 0xBB, 0x8C, 0x5E, 0x07, 0x9E, 0x09, 0xE2, 0xC8, 0xA8, 0x33, 0x9C]

/-- `checkHelloRetryRequest` throws. -/
def isHelloRetryRequest (serverHello : Bytes) : Bool :=
  38 ≤ serverHello.length && (serverHello.drop 6).take 32 == helloRetryRequestRandom

end Anywhere.Tls
