import Anywhere.Config
import Anywhere.Lib.Aead
import Anywhere.Lib.ExactReader

/-!
# Anywhere — `ShadowsocksAead`

The writer cuts what it is given into chunks of at most 16383 bytes and seals the
length and the bytes of each one by itself, with a counter for a nonce. The reader
waits for the salt, then for a length and for as many bytes in turn.

* `wireReader` — the reader without its buffer, as an `ExactReader`.
* `aead_stream` — the stream of a connection, under every cutting.
-/

namespace Anywhere.Shadowsocks

open Lib List

-- ----
-- Ciphers

inductive ShadowsocksCipher
  | aes128Gcm | aes256Gcm | chacha20Poly1305 | none
  | blake3Aes128Gcm | blake3Aes256Gcm | blake3Chacha20Poly1305
  deriving DecidableEq, Repr

variable {cipher : ShadowsocksCipher}

namespace ShadowsocksCipher

def keySize : ShadowsocksCipher → Nat
  | aes128Gcm => 16
  | aes256Gcm => 32
  | chacha20Poly1305 => 32
  | none => 0
  | blake3Aes128Gcm => 16
  | blake3Aes256Gcm => 32
  | blake3Chacha20Poly1305 => 32

def saltSize (cipher : ShadowsocksCipher) : Nat := cipher.keySize

def tagSize (cipher : ShadowsocksCipher) : Nat := if cipher = none then 0 else 16

def nonceSize (cipher : ShadowsocksCipher) : Nat := if cipher = none then 0 else 12

def isChaCha (cipher : ShadowsocksCipher) : Bool :=
  cipher == chacha20Poly1305 || cipher == blake3Chacha20Poly1305

theorem saltSize_pos (h : cipher ≠ none) : 0 < cipher.saltSize := by
  rcases cipher with _ | _ | _ | _ | _ | _ | _
  all_goals first | decide | exact absurd rfl h

theorem tagSize_eq (h : cipher ≠ none) : cipher.tagSize = 16 := if_neg h

end ShadowsocksCipher

/-- The two AEADs, and HKDF with the key, the salt and the size. -/
structure Ciphers where
  aesGcm : Aead
  chaCha20Poly1305 : Aead
  deriveSubkey : Bytes → Bytes → Nat → Bytes

namespace Ciphers

/-- `ShadowsocksAEADCrypto.seal`. -/
def aeadSeal (c : Ciphers) (cipher : ShadowsocksCipher) (key nonce plaintext : Bytes) : Bytes :=
  if cipher = .none then plaintext
  else if cipher.isChaCha then c.chaCha20Poly1305.encrypt key nonce [] plaintext
  else c.aesGcm.encrypt key nonce [] plaintext

/-- `ShadowsocksAEADCrypto.open`. -/
def aeadOpen (c : Ciphers) (cipher : ShadowsocksCipher) (key nonce ciphertext : Bytes) :
    Option Bytes :=
  if cipher = .none then some ciphertext
  else if cipher.isChaCha then c.chaCha20Poly1305.decrypt key nonce [] ciphertext
  else c.aesGcm.decrypt key nonce [] ciphertext

@[simp] theorem aeadOpen_aeadSeal (c : Ciphers) (cipher : ShadowsocksCipher)
    (key nonce plaintext : Bytes) :
    c.aeadOpen cipher key nonce (c.aeadSeal cipher key nonce plaintext) = some plaintext := by
  unfold aeadOpen aeadSeal
  split_ifs <;> simp

@[simp] theorem length_aeadSeal (c : Ciphers) (cipher : ShadowsocksCipher)
    (key nonce plaintext : Bytes) :
    (c.aeadSeal cipher key nonce plaintext).length = plaintext.length + cipher.tagSize := by
  unfold aeadSeal ShadowsocksCipher.tagSize
  split_ifs <;> simp

end Ciphers

/-- A `ShadowsocksNonce` nothing was taken from; `next` is `increment`. -/
def newNonce (cipher : ShadowsocksCipher) : Bytes := List.replicate cipher.nonceSize 0xFF

-- ----
-- The writer

def maxPayloadSize : Nat := 0x3FFF

/-- A size in two bytes, the high one first. -/
def sizeBytes (n : Nat) : Bytes := [UInt8.ofNat (n / 256), UInt8.ofNat n]

/-- What the loop of `seal` seals for one chunk, and with which nonces. -/
structure Chunk where
  lengthNonce : Bytes
  lengthBytes : Bytes
  payloadNonce : Bytes
  payload : Bytes

/-- The loop of `seal`, and of `sealChunks`: the chunks, and the nonce behind them. -/
def chunkLoop (nonce plaintext : Bytes) : List Chunk × Bytes :=
  if _hne : plaintext = [] then ([], nonce)
  else
    let chunkSize := min plaintext.length maxPayloadSize
    let lengthNonce := increment nonce
    let payloadNonce := increment lengthNonce
    let r := chunkLoop payloadNonce (plaintext.drop chunkSize)
    (⟨lengthNonce, sizeBytes chunkSize, payloadNonce, plaintext.take chunkSize⟩ :: r.1, r.2)
termination_by plaintext.length
decreasing_by
  have := length_pos_iff.2 _hne
  simp only [length_drop, maxPayloadSize]
  omega

def Chunk.bytes (c : Ciphers) (cipher : ShadowsocksCipher) (subkey : Bytes)
    (chunk : Chunk) : Bytes :=
  c.aeadSeal cipher subkey chunk.lengthNonce chunk.lengthBytes ++
    c.aeadSeal cipher subkey chunk.payloadNonce chunk.payload

structure ShadowsocksAEADWriter where
  cipher : ShadowsocksCipher
  nonce : Bytes
  salt : Bytes
  subkey : Bytes
  saltWritten : Bool

/-- A salt `generateRandomSalt` may return for the cipher. -/
def Salt (cipher : ShadowsocksCipher) : Type := {salt : Bytes // salt.length = cipher.saltSize}

namespace ShadowsocksAEADWriter

/-- The `init` block. -/
def create (c : Ciphers) (cipher : ShadowsocksCipher) (masterKey : Bytes) (salt : Salt cipher) :
    ShadowsocksAEADWriter :=
  if cipher = .none then ⟨cipher, newNonce cipher, [], [], false⟩
  else ⟨cipher, newNonce cipher, salt.1, c.deriveSubkey masterKey salt.1 cipher.keySize, false⟩

/-- `seal`: the writer behind it, the chunks it has sealed and its output. -/
def sealPlaintext (c : Ciphers) (w : ShadowsocksAEADWriter) (plaintext : Bytes) :
    ShadowsocksAEADWriter × List Chunk × Bytes :=
  if w.cipher = .none then (w, [], plaintext)
  else
    let r := chunkLoop w.nonce plaintext
    ({ w with nonce := r.2, saltWritten := true }, r.1,
      (if w.saltWritten then [] else w.salt) ++ r.1.flatMap (Chunk.bytes c w.cipher w.subkey))

end ShadowsocksAEADWriter

/-- `ShadowsocksConnection`, the sending side. -/
structure ShadowsocksConnection where
  writer : ShadowsocksAEADWriter
  addressHeader : Option Bytes

namespace ShadowsocksConnection

/-- `sendRaw`: the connection behind it, the chunks and what the transport is given. -/
def sendRaw (c : Ciphers) (s : ShadowsocksConnection) (data : Bytes) :
    ShadowsocksConnection × List Chunk × Bytes :=
  let plaintext :=
    match s.addressHeader with
    | some header => header ++ data
    | none => data
  let r := s.writer.sealPlaintext c plaintext
  (⟨r.1, none⟩, r.2.1, r.2.2)

def sendAll (c : Ciphers) : ShadowsocksConnection → List Bytes → List Chunk × Bytes
  | _, [] => ([], [])
  | s, data :: writes =>
    let r := s.sendRaw c data
    let t := sendAll c r.1 writes
    (r.2.1 ++ t.1, r.2.2 ++ t.2)

end ShadowsocksConnection

-- ----
-- The reader

/-- `ShadowsocksAEADReader.State`. -/
inductive ReaderState
  | waitingSalt | readingLength | readingPayload
  deriving DecidableEq, Repr

/-- What `ShadowsocksAEADReader` keeps beside its buffer. -/
structure ReaderCore where
  subkey : Option Bytes
  nonce : Bytes
  state : ReaderState
  pendingPayloadLength : Nat
  deriving DecidableEq

structure ShadowsocksAEADReader extends ReaderCore where
  bufferBytes : Bytes
  bufferOffset : Nat

namespace ShadowsocksAEADReader

/-- The initial values of the fields and the `init` block. -/
def create (cipher : ShadowsocksCipher) : ShadowsocksAEADReader where
  subkey := if cipher = .none then some [] else none
  nonce := newNonce cipher
  state := if cipher = .none then .readingLength else .waitingSalt
  pendingPayloadLength := 0
  bufferBytes := []
  bufferOffset := 0

def slice (r : ShadowsocksAEADReader) (n : Nat) : Bytes :=
  (r.bufferBytes.drop r.bufferOffset).take n

/-- The loop of `open`; null where it throws. Every turn takes at least a tag. -/
def openLoop (c : Ciphers) (cipher : ShadowsocksCipher) (masterKey : Bytes) :
    Nat → ShadowsocksAEADReader → Bytes → Option (ShadowsocksAEADReader × Bytes)
  | 0, r, output => some (r, output)
  | n + 1, r, output =>
    let remaining := r.bufferBytes.length - r.bufferOffset
    match r.state with
    | .waitingSalt =>
      if remaining < cipher.saltSize then some (r, output)
      else
        openLoop c cipher masterKey n
          { r with
            bufferOffset := r.bufferOffset + cipher.saltSize
            subkey := some (c.deriveSubkey masterKey (r.slice cipher.saltSize) cipher.keySize)
            state := .readingLength } output
    | .readingLength =>
      let needed := 2 + cipher.tagSize
      if remaining < needed then some (r, output)
      else
        match r.subkey.bind fun subkey => c.aeadOpen cipher subkey (increment r.nonce)
          (r.slice needed) with
        | some [hi, lo] =>
          openLoop c cipher masterKey n
            { r with
              bufferOffset := r.bufferOffset + needed
              nonce := increment r.nonce
              pendingPayloadLength := hi.toNat * 256 + lo.toNat
              state := .readingPayload } output
        | _ => none
    | .readingPayload =>
      let needed := r.pendingPayloadLength + cipher.tagSize
      if remaining < needed then some (r, output)
      else
        match r.subkey.bind fun subkey => c.aeadOpen cipher subkey (increment r.nonce)
          (r.slice needed) with
        | some payload =>
          openLoop c cipher masterKey n
            { r with
              bufferOffset := r.bufferOffset + needed
              nonce := increment r.nonce
              state := .readingLength } (output ++ payload)
        | none => none

/-- The end of `open`: read bytes are dropped when they are many, or all there are. -/
def compact (r : ShadowsocksAEADReader) : ShadowsocksAEADReader :=
  if r.bufferOffset > 4096 then
    { r with bufferBytes := r.bufferBytes.drop r.bufferOffset, bufferOffset := 0 }
  else if r.bufferOffset > 0 ∧ r.bufferOffset = r.bufferBytes.length then
    { r with bufferBytes := [], bufferOffset := 0 }
  else r

/-- `open`; null where it throws. -/
def openCiphertext (c : Ciphers) (cipher : ShadowsocksCipher) (masterKey : Bytes)
    (r : ShadowsocksAEADReader) (ciphertext : Bytes) : Option (ShadowsocksAEADReader × Bytes) :=
  if cipher = .none then some (r, ciphertext)
  else
    let newBuf := r.bufferBytes.drop r.bufferOffset ++ ciphertext
    (openLoop c cipher masterKey (newBuf.length + 1)
      { r with bufferBytes := newBuf, bufferOffset := 0 } []).map fun t => (t.1.compact, t.2)

/-- The results of `open` for one chunk of the stream after the other. -/
def openAll (c : Ciphers) (cipher : ShadowsocksCipher) (masterKey : Bytes) :
    ShadowsocksAEADReader → List Bytes → Option (List Bytes)
  | _, [] => some []
  | r, ciphertext :: rest =>
    (openCiphertext c cipher masterKey r ciphertext).bind fun t =>
      (openAll c cipher masterKey t.1 rest).map fun outs => t.2 :: outs

-- ----
-- The reader without its buffer

def wireReader (c : Ciphers) {cipher : ShadowsocksCipher} (hcipher : cipher ≠ .none)
    (masterKey : Bytes) : ExactReader ReaderCore UInt8 UInt8 where
  need s :=
    match s.state with
    | .waitingSalt => cipher.saltSize
    | .readingLength => 2 + cipher.tagSize
    | .readingPayload => s.pendingPayloadLength + cipher.tagSize
  need_pos s := by
    have hsalt := ShadowsocksCipher.saltSize_pos hcipher
    have htag := ShadowsocksCipher.tagSize_eq hcipher
    split <;> omega
  on s piece :=
    match s.state with
    | .waitingSalt =>
      some ({ s with
        subkey := some (c.deriveSubkey masterKey piece cipher.keySize)
        state := .readingLength }, [])
    | .readingLength =>
      match s.subkey.bind fun subkey => c.aeadOpen cipher subkey (increment s.nonce) piece with
      | some [hi, lo] =>
        some ({ s with
          nonce := increment s.nonce
          pendingPayloadLength := hi.toNat * 256 + lo.toNat
          state := .readingPayload }, [])
      | _ => none
    | .readingPayload =>
      match s.subkey.bind fun subkey => c.aeadOpen cipher subkey (increment s.nonce) piece with
      | some payload =>
          some ({ s with nonce := increment s.nonce, state := .readingLength }, payload)
      | none => none

def unread (r : ShadowsocksAEADReader) : Bytes := r.bufferBytes.drop r.bufferOffset

theorem length_unread (r : ShadowsocksAEADReader) :
    r.unread.length = r.bufferBytes.length - r.bufferOffset := length_drop

/-- A turn of the loop is a piece of the reader without its buffer. -/
theorem openLoop_succ (c : Ciphers) (hcipher : cipher ≠ .none)
    (masterKey : Bytes) (n : Nat) (r : ShadowsocksAEADReader) (output : Bytes) :
    openLoop c cipher masterKey (n + 1) r output =
      if r.unread.length < (wireReader c hcipher masterKey).need r.toReaderCore then
        some (r, output)
      else
        ((wireReader c hcipher masterKey).on r.toReaderCore
          (r.unread.take ((wireReader c hcipher masterKey).need r.toReaderCore))).bind fun t =>
            openLoop c cipher masterKey n
              { toReaderCore := t.1
                bufferBytes := r.bufferBytes
                bufferOffset :=
                  r.bufferOffset + (wireReader c hcipher masterKey).need r.toReaderCore }
              (output ++ t.2) := by
  obtain ⟨⟨subkey, nonce, state, pending⟩, buffer, offset⟩ := r
  rw [length_unread]
  rcases state with _ | _ | _
  · simp only [openLoop, wireReader, slice, unread]
    refine if_congr Iff.rfl rfl ?_
    simp
  · simp only [openLoop, wireReader, slice, unread]
    refine if_congr Iff.rfl rfl ?_
    rcases subkey.bind _ with _ | data
    · rfl
    · rcases data with _ | ⟨hi, _ | ⟨lo, _ | ⟨x, data⟩⟩⟩
      · rfl
      · rfl
      · simp
      · rfl
  · simp only [openLoop, wireReader, slice, unread]
    refine if_congr Iff.rfl rfl ?_
    rcases subkey.bind _ with _ | payload
    · rfl
    · rfl

theorem openLoop_eq (c : Ciphers) (hcipher : cipher ≠ .none)
    (masterKey : Bytes) (n : Nat) (r : ShadowsocksAEADReader) (output : Bytes)
    (hn : r.unread.length < n) :
    (openLoop c cipher masterKey n r output).map
        (fun t => (t.1.toReaderCore, t.1.unread, t.2)) =
      ((wireReader c hcipher masterKey).feed r.toReaderCore r.unread).map
        (fun t => (t.1, t.2.1, output ++ t.2.2)) := by
  induction n generalizing r output with
  | zero => omega
  | succ n ih =>
    have hpos := (wireReader c hcipher masterKey).need_pos r.toReaderCore
    rw [openLoop_succ c hcipher]
    split <;> rename_i hlt
    · rw [ExactReader.feed_short _ hlt]
      simp
    · rw [ExactReader.feed_of_le _ (by omega)]
      rcases (wireReader c hcipher masterKey).on r.toReaderCore _ with _ | ⟨core, out⟩
      · rfl
      · have hunread : r.unread.drop ((wireReader c hcipher masterKey).need r.toReaderCore) =
            unread ⟨core, r.bufferBytes,
              r.bufferOffset + (wireReader c hcipher masterKey).need r.toReaderCore⟩ := by
          simp [unread]
        simp only [Option.bind_some]
        rw [ih _ _ (by rw [← hunread]; simp; omega), hunread, Option.map_map]
        congr 1
        funext t
        simp

theorem unread_compact (r : ShadowsocksAEADReader) : r.compact.unread = r.unread := by
  unfold compact
  split
  · simp [unread]
  · split
    · rename_i hall
      simp [unread, hall.2]
    · rfl

theorem core_compact (r : ShadowsocksAEADReader) : r.compact.toReaderCore = r.toReaderCore := by
  unfold compact
  split
  · rfl
  · split <;> rfl

/-- `open` feeds the reader the bytes that have not been read and the new ones. -/
theorem openCiphertext_eq (c : Ciphers) (hcipher : cipher ≠ .none)
    (masterKey : Bytes) (r : ShadowsocksAEADReader) (ciphertext : Bytes) :
    (openCiphertext c cipher masterKey r ciphertext).map
        (fun t => (t.1.toReaderCore, t.1.unread, t.2)) =
      (wireReader c hcipher masterKey).feed r.toReaderCore (r.unread ++ ciphertext) := by
  have hloop := openLoop_eq c hcipher masterKey ((r.unread ++ ciphertext).length + 1)
    { r with bufferBytes := r.unread ++ ciphertext, bufferOffset := 0 } [] (by simp [unread])
  have hfeed : ((wireReader c hcipher masterKey).feed r.toReaderCore (r.unread ++ ciphertext)).map
      (fun t => (t.1, t.2.1, [] ++ t.2.2)) =
        (wireReader c hcipher masterKey).feed r.toReaderCore (r.unread ++ ciphertext) := by
    simp
  rw [openCiphertext, if_neg hcipher, ← hfeed]
  refine Eq.trans ?_ hloop
  show Option.map _ (Option.map _ (openLoop c cipher masterKey ((r.unread ++ ciphertext).length + 1)
    { r with bufferBytes := r.unread ++ ciphertext, bufferOffset := 0 } [])) = _
  rcases openLoop c cipher masterKey _ _ [] with _ | ⟨r', out⟩
  · rfl
  · simp only [Option.map_some, unread_compact, core_compact]

/-- So the results for all chunks of a stream are those of the reader without its buffer. -/
theorem openAll_eq (c : Ciphers) (hcipher : cipher ≠ .none)
    (masterKey : Bytes) (r : ShadowsocksAEADReader) (pieces : List Bytes) :
    openAll c cipher masterKey r pieces =
      ((wireReader c hcipher masterKey).feedAll r.toReaderCore r.unread pieces).map
        (fun t : ReaderCore × Bytes × List Bytes => t.2.2) := by
  induction pieces generalizing r with
  | nil => rfl
  | cons piece pieces ih =>
    rw [openAll, ExactReader.feedAll, ← openCiphertext_eq]
    rcases openCiphertext c cipher masterKey r piece with _ | ⟨r', out⟩
    · rfl
    · simp only [Option.bind_some, Option.map_some, ih]
      rcases (wireReader c hcipher masterKey).feedAll _ _ pieces with _ | t
      · rfl
      · rfl

end ShadowsocksAEADReader

-- ----
-- The chunk loop

theorem chunkLoop_nil (nonce : Bytes) : chunkLoop nonce [] = ([], nonce) := by
  rw [chunkLoop, dif_pos rfl]

theorem chunkLoop_of_ne {plaintext : Bytes} (h : plaintext ≠ []) (nonce : Bytes) :
    chunkLoop nonce plaintext =
      (⟨increment nonce, sizeBytes (min plaintext.length maxPayloadSize),
          increment (increment nonce), plaintext.take (min plaintext.length maxPayloadSize)⟩ ::
        (chunkLoop (increment (increment nonce))
          (plaintext.drop (min plaintext.length maxPayloadSize))).1,
        (chunkLoop (increment (increment nonce))
          (plaintext.drop (min plaintext.length maxPayloadSize))).2) := by
  rw [chunkLoop, dif_neg h]

/-- The chunks use the nonces behind `nonce` in order, two each, up to `last`; the
length of each one is in bounds and is what stands in its length field. -/
def Chained (nonce : Bytes) : List Chunk → Bytes → Prop
  | [], last => nonce = last
  | chunk :: chunks, last =>
    chunk.lengthNonce = increment nonce ∧ chunk.payloadNonce = increment (increment nonce) ∧
      chunk.lengthBytes = sizeBytes chunk.payload.length ∧ chunk.payload.length ≤ maxPayloadSize ∧
      Chained chunk.payloadNonce chunks last

variable {last nonce : Bytes}

theorem Chained.append {mid : Bytes} {as bs : List Chunk} (ha : Chained nonce as mid)
    (hb : Chained mid bs last) : Chained nonce (as ++ bs) last := by
  induction as generalizing nonce with
  | nil =>
    obtain rfl : nonce = mid := ha
    exact hb
  | cons chunk as ih =>
    obtain ⟨h1, h2, h3, h4, h5⟩ := ha
    exact ⟨h1, h2, h3, h4, ih h5⟩

theorem chunkLoop_spec (nonce plaintext : Bytes) :
    Chained nonce (chunkLoop nonce plaintext).1 (chunkLoop nonce plaintext).2 ∧
      ((chunkLoop nonce plaintext).1.map Chunk.payload).flatten = plaintext := by
  induction hn : plaintext.length using Nat.strongRecOn generalizing nonce plaintext with
  | ind n ih =>
    subst hn
    by_cases h : plaintext = []
    · subst h
      rw [chunkLoop_nil]
      exact ⟨rfl, rfl⟩
    · have hpos := length_pos_iff.2 h
      have hlen : (plaintext.take (min plaintext.length maxPayloadSize)).length =
          min plaintext.length maxPayloadSize := by
        rw [length_take]
        omega
      obtain ⟨hchained, hflat⟩ := ih _ (by simp [maxPayloadSize]; omega)
        (increment (increment nonce)) (plaintext.drop (min plaintext.length maxPayloadSize)) rfl
      rw [chunkLoop_of_ne h]
      refine ⟨⟨rfl, rfl, by rw [hlen], ?_, hchained⟩, ?_⟩
      · show (plaintext.take (min plaintext.length maxPayloadSize)).length ≤ _
        rw [hlen]
        exact Nat.min_le_right _ _
      · rw [map_cons, flatten_cons, hflat, take_append_drop]

def Chunk.nonces (chunk : Chunk) : List Bytes := [chunk.lengthNonce, chunk.payloadNonce]

variable {chunks : List Chunk}

theorem Chained.nonces_eq (h : Chained nonce chunks last) :
    chunks.flatMap Chunk.nonces = counters (2 * chunks.length) nonce := by
  induction chunks generalizing nonce with
  | nil => rfl
  | cons chunk chunks ih =>
    obtain ⟨h1, h2, -, -, h5⟩ := h
    rw [flatMap_cons, ih h5, Chunk.nonces, h1, h2, length_cons,
      show 2 * (chunks.length + 1) = 2 * chunks.length + 1 + 1 by ring, counters, counters]
    rfl

theorem Chained.lengths (h : Chained nonce chunks last)
    {chunk : Chunk} (hmem : chunk ∈ chunks) :
    chunk.lengthBytes = sizeBytes chunk.payload.length ∧ chunk.payload.length ≤ maxPayloadSize := by
  induction chunks generalizing nonce with
  | nil => cases hmem
  | cons chunk' chunks ih =>
    obtain ⟨-, -, h3, h4, h5⟩ := h
    rcases mem_cons.1 hmem with rfl | hmem
    · exact ⟨h3, h4⟩
    · exact ih h5 hmem

-- ----
-- Reading chunks

section Reading

variable (c : Ciphers) {cipher : ShadowsocksCipher} (hcipher : cipher ≠ .none)
    (masterKey subkey : Bytes)

open ShadowsocksAEADReader

theorem feed_chunk {chunk : Chunk} (h1 : chunk.lengthNonce = increment nonce)
    (h2 : chunk.payloadNonce = increment (increment nonce))
    (h3 : chunk.lengthBytes = sizeBytes chunk.payload.length)
    (h4 : chunk.payload.length ≤ maxPayloadSize) (pending : Nat) (ys : Bytes) :
    (wireReader c hcipher masterKey).feed ⟨some subkey, nonce, .readingLength, pending⟩
        (chunk.bytes c cipher subkey ++ ys) =
      ((wireReader c hcipher masterKey).feed
        ⟨some subkey, chunk.payloadNonce, .readingLength, chunk.payload.length⟩ ys).map
        (fun t => (t.1, t.2.1, chunk.payload ++ t.2.2)) := by
  have hsize := bytes16_value (Nat.lt_of_le_of_lt h4 (by decide : maxPayloadSize < 65536))
  have hlength : (wireReader c hcipher masterKey).on ⟨some subkey, nonce, .readingLength, pending⟩
      (c.aeadSeal cipher subkey (increment nonce) (sizeBytes chunk.payload.length)) =
        some (⟨some subkey, increment nonce, .readingPayload, chunk.payload.length⟩, []) := by
    simp only [wireReader, Option.bind_some, Ciphers.aeadOpen_aeadSeal, sizeBytes, hsize]
  have hpayload : (wireReader c hcipher masterKey).on
      ⟨some subkey, increment nonce, .readingPayload, chunk.payload.length⟩
      (c.aeadSeal cipher subkey (increment (increment nonce)) chunk.payload) =
        some (⟨some subkey, increment (increment nonce), .readingLength, chunk.payload.length⟩,
          chunk.payload) := by
    simp only [wireReader, Option.bind_some, Ciphers.aeadOpen_aeadSeal]
  rw [Chunk.bytes, append_assoc, h1, h2, h3,
    ExactReader.feed_piece _ (by simp [wireReader, sizeBytes]) hlength,
    ExactReader.feed_piece _ (by simp [wireReader]) hpayload, Option.map_map]
  rfl

/-- The chunks of a chain are read back, whatever stands behind them. -/
theorem feed_chunks (h : Chained nonce chunks last)
    (pending : Nat) :
    ∃ pending', (wireReader c hcipher masterKey).feed ⟨some subkey, nonce, .readingLength, pending⟩
        (chunks.flatMap (Chunk.bytes c cipher subkey)) =
      some (⟨some subkey, last, .readingLength, pending'⟩, [],
        (chunks.map Chunk.payload).flatten) := by
  induction chunks generalizing nonce pending with
  | nil =>
    obtain rfl : nonce = last := h
    refine ⟨pending, ExactReader.feed_short _ ?_⟩
    simp [wireReader]
  | cons chunk chunks ih =>
    obtain ⟨h1, h2, h3, h4, h5⟩ := h
    obtain ⟨pending', hfeed⟩ := ih h5 chunk.payload.length
    refine ⟨pending', ?_⟩
    rw [flatMap_cons, feed_chunk c hcipher masterKey subkey h1 h2 h3 h4, hfeed]
    rfl

end Reading

-- ----
-- The stream of a connection

variable {s : ShadowsocksConnection}

namespace ShadowsocksConnection

/-- What a sequence of writes has the writer seal: the header goes before the first. -/
def plaintexts (addressHeader : Option Bytes) : List Bytes → List Bytes
  | [] => []
  | data :: writes => (addressHeader.getD [] ++ data) :: writes

theorem plaintexts_none (writes : List Bytes) : plaintexts none writes = writes := by
  rcases writes with _ | ⟨data, writes⟩ <;> rfl

theorem sendRaw_eq (c : Ciphers) (hcipher : s.writer.cipher ≠ .none)
    (data : Bytes) :
    s.sendRaw c data =
      (⟨{ s.writer with
            nonce := (chunkLoop s.writer.nonce (s.addressHeader.getD [] ++ data)).2
            saltWritten := true }, none⟩,
        (chunkLoop s.writer.nonce (s.addressHeader.getD [] ++ data)).1,
        (if s.writer.saltWritten then [] else s.writer.salt) ++
          (chunkLoop s.writer.nonce (s.addressHeader.getD [] ++ data)).1.flatMap
            (Chunk.bytes c s.writer.cipher s.writer.subkey)) := by
  rcases s with ⟨writer, _ | header⟩
  · simp [sendRaw, ShadowsocksAEADWriter.sealPlaintext, hcipher]
  · simp [sendRaw, ShadowsocksAEADWriter.sealPlaintext, hcipher]

/-- The chunks of a sequence of writes are a chain that holds what was written, and
the salt stands before them once. -/
theorem sendAll_spec (c : Ciphers) (hcipher : s.writer.cipher ≠ .none)
    (writes : List Bytes) :
    (∃ last, Chained s.writer.nonce (sendAll c s writes).1 last) ∧
      ((sendAll c s writes).1.map Chunk.payload).flatten =
        (plaintexts s.addressHeader writes).flatten ∧
      (sendAll c s writes).2 =
        (if writes = [] ∨ s.writer.saltWritten then [] else s.writer.salt) ++
          (sendAll c s writes).1.flatMap (Chunk.bytes c s.writer.cipher s.writer.subkey) := by
  induction writes generalizing s with
  | nil => exact ⟨⟨_, rfl⟩, rfl, by simp [sendAll]⟩
  | cons data writes ih =>
    obtain ⟨hchained, hflat⟩ := chunkLoop_spec s.writer.nonce (s.addressHeader.getD [] ++ data)
    rw [sendAll, sendRaw_eq c hcipher]
    generalize chunkLoop s.writer.nonce (s.addressHeader.getD [] ++ data) = r at hchained hflat ⊢
    obtain ⟨⟨last, hrest⟩, hpayload, hbytes⟩ :=
      @ih ⟨{ s.writer with nonce := r.2, saltWritten := true }, none⟩ hcipher
    refine ⟨⟨last, hchained.append hrest⟩, ?_, ?_⟩
    · rw [plaintexts_none] at hpayload
      simp [plaintexts, hflat, hpayload]
    · simp [hbytes]

theorem sendRaw_none (c : Ciphers) (hcipher : s.writer.cipher = .none)
    (data : Bytes) :
    s.sendRaw c data = (⟨s.writer, none⟩, [], s.addressHeader.getD [] ++ data) := by
  obtain ⟨writer, header⟩ := s
  have hwriter : writer.cipher = .none := hcipher
  rcases header with _ | header
  · simp [sendRaw, ShadowsocksAEADWriter.sealPlaintext, hwriter]
  · simp [sendRaw, ShadowsocksAEADWriter.sealPlaintext, hwriter]

theorem sendAll_none (c : Ciphers) (hcipher : s.writer.cipher = .none)
    (writes : List Bytes) :
    sendAll c s writes = ([], (plaintexts s.addressHeader writes).flatten) := by
  induction writes generalizing s with
  | nil => rfl
  | cons data writes ih =>
    rw [sendAll, sendRaw_none c hcipher]
    simp only [@ih ⟨s.writer, none⟩ hcipher, plaintexts_none]
    rfl

end ShadowsocksConnection

open ShadowsocksConnection ShadowsocksAEADReader

theorem openAll_none (c : Ciphers) (masterKey : Bytes) (r : ShadowsocksAEADReader)
    (pieces : List Bytes) : openAll c .none masterKey r pieces = some pieces := by
  induction pieces with
  | nil => rfl
  | cons piece pieces ih => simp [openAll, openCiphertext, ih]

/-- The reader with the key of the writer reads the whole stream back. -/
theorem feed_stream (c : Ciphers) (hcipher : cipher ≠ .none)
    (masterKey : Bytes) (salt : Salt cipher)
    (h : Chained (newNonce cipher) chunks last) :
    ∃ core, (wireReader c hcipher masterKey).feed (create cipher).toReaderCore
        (salt.1 ++ chunks.flatMap
          (Chunk.bytes c cipher (c.deriveSubkey masterKey salt.1 cipher.keySize))) =
      some (core, [], (chunks.map Chunk.payload).flatten) := by
  obtain ⟨pending, hfeed⟩ :=
    feed_chunks c hcipher masterKey (c.deriveSubkey masterKey salt.1 cipher.keySize) h 0
  refine ⟨⟨some (c.deriveSubkey masterKey salt.1 cipher.keySize), last, .readingLength, pending⟩,
    ?_⟩
  have hsalt : (wireReader c hcipher masterKey).on (create cipher).toReaderCore salt.1 =
      some (⟨some (c.deriveSubkey masterKey salt.1 cipher.keySize), newNonce cipher,
        .readingLength, 0⟩, []) := by
    simp [wireReader, create, hcipher]
  rw [ExactReader.feed_piece _ (by simp [wireReader, create, hcipher, salt.2]) hsalt, hfeed]
  rfl

/-- What the reader makes of the whole stream it makes of its pieces. -/
theorem openAll_of_feed (c : Ciphers) (hcipher : cipher ≠ .none)
    (masterKey : Bytes) {pieces : List Bytes} {core : ReaderCore} {rest out : Bytes}
    (h : (wireReader c hcipher masterKey).feed (create cipher).toReaderCore pieces.flatten =
      some (core, rest, out)) :
    ∃ outs, openAll c cipher masterKey (create cipher) pieces = some outs ∧ outs.flatten = out := by
  have hshort : ([] : Bytes).length < (wireReader c hcipher masterKey).need
      (create cipher).toReaderCore :=
    (wireReader c hcipher masterKey).need_pos _
  have hall := (wireReader c hcipher masterKey).feedAll_eq hshort pieces
  rw [nil_append, h] at hall
  obtain ⟨⟨core', rest', outs⟩, hfeed, heq⟩ := Option.map_eq_some_iff.1 hall.symm
  refine ⟨outs, ?_, (Prod.mk.inj (Prod.mk.inj heq).2).2⟩
  rw [openAll_eq c hcipher, show (create cipher).unread = [] from rfl, hfeed]
  rfl

theorem writer_create (c : Ciphers) (hcipher : cipher ≠ .none)
    (masterKey : Bytes) (salt : Salt cipher) :
    ShadowsocksAEADWriter.create c cipher masterKey salt =
      ⟨cipher, newNonce cipher, salt.1, c.deriveSubkey masterKey salt.1 cipher.keySize, false⟩ :=
  if_neg hcipher

/-- However the bytes of a connection are cut, the reader returns what was written;
the length fields are in bounds and true; and no nonce is used twice under the
subkey of the connection as long as there are at most 2^95 chunks. -/
theorem aead_stream (c : Ciphers) (cipher : ShadowsocksCipher) (masterKey : Bytes)
    (salt : Salt cipher) (addressHeader : Option Bytes) (writes pieces : List Bytes)
    (hpieces : pieces.flatten =
      (sendAll c ⟨.create c cipher masterKey salt, addressHeader⟩ writes).2) :
    (∃ outs, openAll c cipher masterKey (create cipher) pieces = some outs ∧
      outs.flatten = (plaintexts addressHeader writes).flatten) ∧
    (∀ chunk ∈ (sendAll c ⟨.create c cipher masterKey salt, addressHeader⟩ writes).1,
      ∃ hi lo, chunk.lengthBytes = [hi, lo] ∧ hi.toNat * 256 + lo.toNat = chunk.payload.length ∧
        chunk.payload.length ≤ 0x3FFF) ∧
    ((sendAll c ⟨.create c cipher masterKey salt, addressHeader⟩ writes).1.length ≤ 2 ^ 95 →
      ((sendAll c ⟨.create c cipher masterKey salt, addressHeader⟩ writes).1.flatMap
        Chunk.nonces).Nodup) := by
  by_cases hcipher : cipher = .none
  · subst hcipher
    have hwriter : (ShadowsocksAEADWriter.create c .none masterKey salt).cipher = .none := rfl
    rw [sendAll_none c hwriter] at hpieces ⊢
    refine ⟨⟨pieces, openAll_none c masterKey _ pieces, hpieces⟩, ?_, ?_⟩
    · intro chunk hmem
      cases hmem
    · intro _
      exact nodup_nil
  · rw [writer_create c hcipher] at hpieces ⊢
    obtain ⟨⟨last, hchained⟩, hpayload, hbytes⟩ := sendAll_spec c
      (s := ⟨⟨cipher, newNonce cipher, salt.1, c.deriveSubkey masterKey salt.1 cipher.keySize,
        false⟩, addressHeader⟩) hcipher writes
    rw [hbytes] at hpieces
    refine ⟨?_, ?_, ?_⟩
    · -- nothing is written before the first write, not even the salt
      rw [← hpayload]
      by_cases hwrites : writes = []
      · subst hwrites
        have hfeed : (wireReader c hcipher masterKey).feed
            (create cipher).toReaderCore pieces.flatten =
            some ((create cipher).toReaderCore, [], []) := by
          rw [hpieces]
          exact ExactReader.feed_short _ ((wireReader c hcipher masterKey).need_pos _)
        exact openAll_of_feed c hcipher masterKey hfeed
      · obtain ⟨core, hfeed⟩ := feed_stream c hcipher masterKey salt hchained
        simp only [hwrites, false_or, Bool.false_eq_true, if_false] at hpieces
        rw [← hpieces] at hfeed
        exact openAll_of_feed c hcipher masterKey hfeed
    · intro chunk hmem
      obtain ⟨hsize, hle⟩ := hchained.lengths hmem
      exact ⟨_, _, hsize, bytes16_value (Nat.lt_of_le_of_lt hle (by decide)), hle⟩
    · intro hle
      rw [hchained.nonces_eq, nodup_counters_iff]
      have hlen : (newNonce cipher).length =
          12 := by simp [newNonce, ShadowsocksCipher.nonceSize, hcipher]
      rw [hlen]
      omega

def toyCiphers : Ciphers := ⟨.toy, .toy, fun _ salt _ => salt⟩

def zeroSalt : Salt .aes128Gcm := ⟨List.replicate 16 0, rfl⟩

/-- Three writes, the second of two chunks, with cuts inside the salt and inside that one. -/
theorem aead_stream_of_one_write :
    let writes := [[1, 2], List.replicate 0x4000 7, [3]]
    let sent := (sendAll toyCiphers ⟨.create toyCiphers .aes128Gcm [] zeroSalt, some [9]⟩ writes).2
    ∃ outs, openAll toyCiphers .aes128Gcm [] (create .aes128Gcm)
        [sent.take 7, (sent.drop 7).take 90, (sent.drop 7).drop 90] = some outs ∧
      outs.flatten = [9, 1, 2] ++ List.replicate 0x4000 7 ++ [3] := by
  intro writes sent
  have hpieces : [sent.take 7, (sent.drop 7).take 90, (sent.drop 7).drop 90].flatten = sent := by
    simp only [flatten_cons, flatten_nil, append_nil, take_append_drop]
  obtain ⟨outs, hopens, hflat⟩ :=
    (aead_stream toyCiphers .aes128Gcm [] zeroSalt (some [9]) writes _ hpieces).1
  have hplain : ∀ long : Bytes, (plaintexts (some [9]) [[1, 2], long, [3]]).flatten = [9, 1, 2] ++
      long ++ [3] := by
    simp [plaintexts]
  exact ⟨outs, hopens, hflat.trans (hplain _)⟩

theorem length_sendAll_bytes (c : Ciphers)
    (hcipher : s.writer.cipher ≠ .none) (hheader : s.addressHeader = none) (n : Nat) (b : UInt8) :
    (sendAll c s (List.replicate n [b])).1.length = n := by
  induction n generalizing s with
  | zero => rfl
  | succ n ih =>
    have hone : (chunkLoop s.writer.nonce [b]).1.length = 1 := by
      rw [chunkLoop_of_ne (by simp)]
      simp [maxPayloadSize, chunkLoop_nil]
    rw [replicate_succ, sendAll, sendRaw_eq c hcipher, hheader]
    show ((chunkLoop s.writer.nonce [b]).1 ++ _).length = _
    rw [length_append, hone, @ih ⟨{ s.writer with nonce := _, saltWritten := true },
      none⟩ hcipher rfl]
    omega

/-- A chunk uses two nonces: with one chunk more than 2^95 the first nonce comes
again. -/
theorem nonce_used_twice :
    (sendAll toyCiphers ⟨.create toyCiphers .aes128Gcm [] zeroSalt, none⟩
      (List.replicate (2 ^ 95 + 1) [0])).1.length < 2 ^ 96 ∧
    ¬ ((sendAll toyCiphers ⟨.create toyCiphers .aes128Gcm [] zeroSalt, none⟩
      (List.replicate (2 ^ 95 + 1) [0])).1.flatMap Chunk.nonces).Nodup := by
  have hcipher : (ShadowsocksAEADWriter.create toyCiphers .aes128Gcm [] zeroSalt).cipher ≠
      .none := by
    decide
  have hlen :=
    length_sendAll_bytes toyCiphers (s := ⟨.create toyCiphers .aes128Gcm [] zeroSalt, none⟩)
    hcipher rfl (2 ^ 95 + 1) 0
  obtain ⟨⟨last, hchained⟩, -, -⟩ := sendAll_spec toyCiphers
    (s := ⟨.create toyCiphers .aes128Gcm [] zeroSalt, none⟩) hcipher
      (List.replicate (2 ^ 95 + 1) [0])
  refine ⟨by rw [hlen]; decide, ?_⟩
  rw [hchained.nonces_eq, hlen, nodup_counters_iff]
  decide

end Anywhere.Shadowsocks
