import Anywhere.Shadowsocks.Aead
import Anywhere.Shadowsocks.Protocol

/-!
# Anywhere — the request of `Shadowsocks2022Connection`

The first write of a connection goes into the request: the salt, the identity
headers, a sealed header of fixed size with the length of the next one in two
bytes, and a sealed header with the address, padding and all of the first write.
Later writes are cut into chunks.

* `serverReader` — a server that follows the format.
* `request_recovered_iff` — the requests for which the length is true.
-/

namespace Anywhere.Shadowsocks

open Lib List

-- ----
-- The model

/-- The ciphers of the 2022 edition: BLAKE3 with the key, the salt and the size, and
one block of AES. -/
structure Ciphers2022 extends Ciphers where
  deriveSessionKey : Bytes → Bytes → Nat → Bytes
  deriveIdentitySubkey : Bytes → Bytes → Nat → Bytes
  blake3Hash16 : Bytes → Bytes
  aesEcbEncrypt : Bytes → Bytes → Bytes
  length_aesEcbEncrypt : ∀ key block, (aesEcbEncrypt key block).length = 16

/-- What a `Shadowsocks2022Connection` is made with. -/
structure Account where
  cipher : ShadowsocksCipher
  cipher_ne : cipher ≠ .none
  pskList : List Bytes

def Account.psk (account : Account) : Bytes := account.pskList.getLastD []

/-- An address header: an IP address or a domain, and the port. -/
inductive Destination
  | ip (a : IpAddress)
  | domain (bytes : {bytes : Bytes // bytes.length ≤ 255})

/-- The address header `buildAddressHeader` makes. -/
def Destination.header (port : Nat) : Destination → Bytes
  | ip a => a.header ++ sizeBytes port
  | domain bytes => 0x03 :: UInt8.ofNat bytes.1.length :: bytes.1 ++ sizeBytes port

/-- `Long.toBigEndianBytes`. -/
def longBytes (n : Nat) : Bytes := (List.range 8).map fun i => UInt8.ofNat (n / 256 ^ (7 - i))

/-- `writeIdentityHeaders`. -/
def identityHeaders (c : Ciphers2022) (account : Account) (salt : Bytes) : List Bytes :=
  (account.pskList.zip account.pskList.tail).map fun p =>
    c.aesEcbEncrypt (c.deriveIdentitySubkey p.1 salt account.cipher.keySize) (c.blake3Hash16 p.2)

/-- The random choices of `buildRequest`, and the time. -/
structure Choices (cipher : ShadowsocksCipher) where
  salt : Salt cipher
  padding : Fin 900
  timestamp : Nat

section Request

variable (c : Ciphers2022) (account : Account) (choices : Choices account.cipher)

def paddingLen (payload : Bytes) : Nat := if payload.length < 900 then choices.padding + 1 else 0

def variableHeader (payload addressHeader : Bytes) : Bytes :=
  addressHeader ++ sizeBytes (paddingLen account choices payload) ++
    List.replicate (paddingLen account choices payload) 0 ++ payload

/-- The header of eleven bytes: type, time, and the length of the other one. -/
def fixedHeader (payload addressHeader : Bytes) : Bytes :=
  0 :: longBytes choices.timestamp ++
    sizeBytes (addressHeader.length + 2 + paddingLen account choices payload + payload.length)

def sessionKey : Bytes := c.deriveSessionKey account.psk choices.salt.1 account.cipher.keySize

end Request

/-- `Shadowsocks2022Connection`, the sending side. -/
structure Shadowsocks2022Connection where
  addressHeader : Option Bytes
  handshakeSent : Bool
  writeNonce : Bytes
  writeSubkey : Option Bytes

namespace Shadowsocks2022Connection

variable (c : Ciphers2022) (account : Account) (choices : Choices account.cipher)

def create (addressHeader : Bytes) : Shadowsocks2022Connection :=
  ⟨some addressHeader, false, newNonce account.cipher, none⟩

def buildRequest (s : Shadowsocks2022Connection) (payload addressHeader : Bytes) :
    Shadowsocks2022Connection × Bytes :=
  ({ s with
      writeNonce := increment (increment s.writeNonce)
      writeSubkey := some (sessionKey c account choices) },
    choices.salt.1 ++
      ((if account.pskList.length ≥ 2 then (identityHeaders c account choices.salt.1).flatten
        else []) ++ (c.aeadSeal account.cipher (sessionKey c account choices)
        (increment s.writeNonce)
          (fixedHeader account choices payload addressHeader) ++
          c.aeadSeal account.cipher (sessionKey c account choices)
          (increment (increment s.writeNonce))
            (variableHeader account choices payload addressHeader))))

/-- `sealChunks`; null where it throws. -/
def sealChunks (s : Shadowsocks2022Connection) (plaintext : Bytes) :
    Option (Shadowsocks2022Connection × Bytes) :=
  s.writeSubkey.map fun subkey =>
    let r := chunkLoop s.writeNonce plaintext
    ({ s with writeNonce := r.2 }, r.1.flatMap (Chunk.bytes c.toCiphers account.cipher subkey))

/-- `sendRaw`: what the transport is given. -/
def sendRaw (s : Shadowsocks2022Connection) (data : Bytes) :
    Option (Shadowsocks2022Connection × Bytes) :=
  if s.handshakeSent then s.sealChunks c account data
  else
    s.addressHeader.map fun header =>
      buildRequest c account choices
        { s with handshakeSent := true, addressHeader := none } data header

def sendAll : Shadowsocks2022Connection → List Bytes → Option Bytes
  | _, [] => some []
  | s, data :: writes =>
    (s.sendRaw c account choices data).bind fun r => (sendAll r.1 writes).map (r.2 ++ ·)

end Shadowsocks2022Connection

-- ----
-- A server

inductive Stage
  | salt
  | identity (left : Nat)
  | fixedHeader
  | variableHeader (length : Nat)
  | chunkLength
  | chunkPayload (length : Nat)
  deriving Repr

structure ServerState where
  key : Bytes
  nonce : Bytes
  stage : Stage
  address : Option Bytes

def readSize : Bytes → Nat
  | [hi, lo] => hi.toNat * 256 + lo.toNat
  | _ => 0

def addressLength : Bytes → Option Nat
  | 0x01 :: _ => some 7
  | 0x03 :: len :: _ => some (len.toNat + 4)
  | 0x04 :: _ => some 19
  | _ => none

def splitVariable (header : Bytes) : Option (Bytes × Bytes) :=
  (addressLength header).bind fun n =>
    let padding := readSize ((header.drop n).take 2)
    if header.length < n + 2 + padding then none
    else some (header.take n, header.drop (n + 2 + padding))

def serverReader (c : Ciphers2022) (account : Account) : ExactReader ServerState UInt8 UInt8 where
  need s :=
    match s.stage with
    | .salt => account.cipher.saltSize
    | .identity _ => 16
    | .fixedHeader => 11 + account.cipher.tagSize
    | .variableHeader length => length + account.cipher.tagSize
    | .chunkLength => 2 + account.cipher.tagSize
    | .chunkPayload length => length + account.cipher.tagSize
  need_pos s := by
    have hsalt := ShadowsocksCipher.saltSize_pos account.cipher_ne
    have htag := ShadowsocksCipher.tagSize_eq account.cipher_ne
    split <;> omega
  on s piece :=
    match s.stage with
    | .salt =>
      some ({ s with
        key := c.deriveSessionKey account.psk piece account.cipher.keySize
        stage := if account.pskList.length ≥ 2 then .identity (account.pskList.length - 1)
        else .fixedHeader }, [])
    | .identity left =>
        some ({ s with stage := if left ≤ 1 then .fixedHeader else .identity (left - 1) }, [])
    | .fixedHeader =>
      (c.aeadOpen account.cipher s.key (increment s.nonce) piece).map fun header =>
        ({ s with nonce := increment s.nonce, stage := .variableHeader (readSize (header.drop 9)) },
          [])
    | .variableHeader _ =>
      ((c.aeadOpen account.cipher s.key (increment s.nonce) piece).bind splitVariable).map fun t =>
        ({ s with nonce := increment s.nonce, stage := .chunkLength, address := some t.1 }, t.2)
    | .chunkLength =>
      (c.aeadOpen account.cipher s.key (increment s.nonce) piece).map fun length =>
        ({ s with nonce := increment s.nonce, stage := .chunkPayload (readSize length) }, [])
    | .chunkPayload _ =>
      (c.aeadOpen account.cipher s.key (increment s.nonce) piece).map fun payload =>
        ({ s with nonce := increment s.nonce, stage := .chunkLength }, payload)

/-- A server nothing has been sent to. -/
def newServer (account : Account) : ServerState := ⟨[], newNonce account.cipher, .salt, none⟩

-- ----
-- The variable header

theorem readSize_sizeBytes {n : Nat} (h : n < 65536) : readSize (sizeBytes n) = n :=
  bytes16_value h

theorem readSize_sizeBytes_iff (n : Nat) : readSize (sizeBytes n) = n ↔ n < 65536 := by
  refine ⟨fun h => ?_, readSize_sizeBytes⟩
  have hhi := (UInt8.ofNat (n / 256)).toNat_lt
  have hlo := (UInt8.ofNat n).toNat_lt
  have hvalue : (UInt8.ofNat (n / 256)).toNat * 256 + (UInt8.ofNat n).toNat = n := h
  omega

theorem length_header (d : Destination) (port : Nat) : (d.header port).length ≤ 259 := by
  rcases d with (⟨bytes, hlen⟩ | ⟨bytes, hlen⟩) | ⟨bytes, hlen⟩
  · simp [Destination.header, IpAddress.header, sizeBytes, hlen]
  · simp [Destination.header, IpAddress.header, sizeBytes, hlen]
  · simp [Destination.header, sizeBytes]
    omega

theorem addressLength_header (d : Destination) (port : Nat) (rest : Bytes) :
    addressLength (d.header port ++ rest) = some (d.header port).length := by
  rcases d with (⟨bytes, hlen⟩ | ⟨bytes, hlen⟩) | ⟨bytes, hlen⟩
  · simp [Destination.header, IpAddress.header, sizeBytes, hlen, addressLength]
  · simp [Destination.header, IpAddress.header, sizeBytes, hlen, addressLength]
  · have hbyte : (UInt8.ofNat bytes.length).toNat = bytes.length := by
      rw [UInt8.toNat_ofNat']
      omega
    show some ((UInt8.ofNat bytes.length).toNat + 4) = _
    rw [hbyte]
    simp [Destination.header, sizeBytes]

section Recovery

variable (c : Ciphers2022) (account : Account) (choices : Choices account.cipher)

theorem paddingLen_le (payload : Bytes) : paddingLen account choices payload ≤ 900 := by
  unfold paddingLen
  split
  · have := choices.padding.isLt
    omega
  · omega

theorem length_variableHeader (payload addressHeader : Bytes) :
    (variableHeader account choices payload addressHeader).length =
      addressHeader.length + 2 + paddingLen account choices payload + payload.length := by
  simp [variableHeader, sizeBytes]
  omega

theorem length_fixedHeader (payload addressHeader : Bytes) :
    (fixedHeader account choices payload addressHeader).length = 11 := by
  simp [fixedHeader, longBytes, sizeBytes]

theorem drop_fixedHeader (payload addressHeader : Bytes) :
    (fixedHeader account choices payload addressHeader).drop 9 =
      sizeBytes (variableHeader account choices payload addressHeader).length := by
  rw [length_variableHeader]
  rfl

theorem splitVariable_variableHeader (d : Destination) (port : Nat) (payload : Bytes) :
    splitVariable (variableHeader account choices payload (d.header port)) =
      some (d.header port, payload) := by
  have hpad := paddingLen_le account choices payload
  have hsize : readSize (sizeBytes (paddingLen account choices payload)) =
      paddingLen account choices payload := readSize_sizeBytes (by omega)
  have hlen := length_variableHeader account choices payload (d.header port)
  have hdrop : ((variableHeader account choices payload (d.header port)).drop
      (d.header port).length).take 2 = sizeBytes (paddingLen account choices payload) := by
    simp [variableHeader, append_assoc, sizeBytes]
  have haddr : addressLength (variableHeader account choices payload (d.header port)) =
      some (d.header port).length := by
    rw [variableHeader, append_assoc, append_assoc]
    exact addressLength_header d port _
  rw [splitVariable, haddr, Option.bind_some]
  simp only [hdrop, hsize]
  rw [if_neg (by omega)]
  congr 1
  refine Prod.ext ?_ ?_
  · simp [variableHeader, append_assoc]
  · show List.drop _ (d.header port ++ sizeBytes _ ++ List.replicate _ 0 ++ payload) = payload
    exact drop_left' (by simp [sizeBytes]; omega)

-- ----
-- Reading a request

theorem length_identityHeaders (salt : Bytes) :
    (identityHeaders c account salt).length = account.pskList.length - 1 := by
  simp [identityHeaders]

theorem feed_identity (key nonce : Bytes) (headers : List Bytes)
    (hlen : ∀ h ∈ headers, h.length = 16) (hne : headers ≠ []) (ys : Bytes) :
    (serverReader c account).feed ⟨key, nonce, .identity headers.length, none⟩
    (headers.flatten ++ ys) =
      (serverReader c account).feed ⟨key, nonce, .fixedHeader, none⟩ ys := by
  induction headers with
  | nil => exact absurd rfl hne
  | cons header headers ih =>
    have hheader : header.length = 16 := hlen header (by simp)
    rw [flatten_cons, append_assoc]
    by_cases hnil : headers = []
    · subst hnil
      have hon : (serverReader c account).on ⟨key, nonce, .identity 1, none⟩ header =
          some (⟨key, nonce, .fixedHeader, none⟩, []) := rfl
      show (serverReader c account).feed ⟨key, nonce, .identity 1, none⟩ (header ++ ([] ++ ys)) = _
      rw [ExactReader.feed_piece _ (by simpa [serverReader] using hheader) hon]
      simp
    · have hpos := length_pos_iff.2 hnil
      have hon : (serverReader c account).on
          ⟨key, nonce, .identity (header :: headers).length, none⟩ header =
            some (⟨key, nonce, .identity headers.length, none⟩, []) := by
        simp only [serverReader, length_cons, Nat.add_sub_cancel]
        rw [if_neg (by omega)]
      rw [ExactReader.feed_piece _ (by simpa [serverReader] using hheader) hon,
        ih (fun h hh => hlen h (by simp [hh])) hnil]
      simp

/-- The salt and the identity headers leave the server at the fixed header, with the
key of the session. -/
theorem feed_preamble (ys : Bytes) :
    (serverReader c account).feed (newServer account) (choices.salt.1 ++
        ((if account.pskList.length ≥ 2 then (identityHeaders c account choices.salt.1).flatten
          else []) ++ ys)) =
      (serverReader c account).feed
        ⟨sessionKey c account choices, newNonce account.cipher, .fixedHeader, none⟩ ys := by
  have hsalt : choices.salt.1.length = (serverReader c account).need (newServer account) :=
    choices.salt.2
  by_cases hpsk : account.pskList.length ≥ 2
  · have hon : (serverReader c account).on (newServer account) choices.salt.1 =
        some (⟨sessionKey c account choices, newNonce account.cipher,
          .identity (account.pskList.length - 1), none⟩, []) := by
      simp [serverReader, newServer, sessionKey, hpsk]
    have hlen := length_identityHeaders c account choices.salt.1
    rw [if_pos hpsk, ExactReader.feed_piece _ hsalt hon, ← hlen, feed_identity]
    · simp
    · intro h hh
      obtain ⟨p, -, rfl⟩ := mem_map.1 hh
      exact c.length_aesEcbEncrypt _ _
    · intro hnil
      rw [hnil] at hlen
      simp at hlen
      omega
  · have hon : (serverReader c account).on (newServer account) choices.salt.1 =
        some (⟨sessionKey c account choices, newNonce account.cipher, .fixedHeader, none⟩, []) := by
      simp [serverReader, newServer, sessionKey, hpsk]
    rw [if_neg hpsk, ExactReader.feed_piece _ hsalt hon, nil_append]
    simp

theorem feed_server_chunks (key : Bytes) (address : Option Bytes) {nonce last : Bytes}
    {chunks : List Chunk} (h : Chained nonce chunks last) :
    (serverReader c account).feed ⟨key, nonce, .chunkLength, address⟩
        (chunks.flatMap (Chunk.bytes c.toCiphers account.cipher key)) =
      some (⟨key, last, .chunkLength, address⟩, [], (chunks.map Chunk.payload).flatten) := by
  induction chunks generalizing nonce with
  | nil =>
    obtain rfl : nonce = last := h
    exact ExactReader.feed_short _ ((serverReader c account).need_pos _)
  | cons chunk chunks ih =>
    obtain ⟨h1, h2, h3, h4, h5⟩ := h
    have hsize : readSize chunk.lengthBytes = chunk.payload.length := by
      rw [h3]
      exact readSize_sizeBytes (Nat.lt_of_le_of_lt h4 (by decide))
    have hlength : (serverReader c account).on ⟨key, nonce, .chunkLength, address⟩
        (c.aeadSeal account.cipher key chunk.lengthNonce chunk.lengthBytes) =
          some (⟨key, chunk.lengthNonce, .chunkPayload chunk.payload.length, address⟩, []) := by
      simp [serverReader, h1, hsize]
    have hpayload : (serverReader c account).on
        ⟨key, chunk.lengthNonce, .chunkPayload chunk.payload.length, address⟩
        (c.aeadSeal account.cipher key chunk.payloadNonce chunk.payload) =
          some (⟨key, chunk.payloadNonce, .chunkLength, address⟩, chunk.payload) := by
      simp [serverReader, h1, h2]
    rw [flatMap_cons, Chunk.bytes, append_assoc,
      ExactReader.feed_piece _ (by simp [serverReader, h3, sizeBytes]) hlength,
      ExactReader.feed_piece _ (by simp [serverReader]) hpayload, ih h5]
    rfl

-- ----
-- The writes of a connection

namespace Shadowsocks2022Connection

theorem sendAll_chunks (nonce key : Bytes) (header : Option Bytes) (writes : List Bytes) :
    ∃ chunks last, Chained nonce chunks last ∧ (chunks.map Chunk.payload).flatten = writes.flatten ∧
      sendAll c account choices ⟨header, true, nonce, some key⟩ writes =
        some (chunks.flatMap (Chunk.bytes c.toCiphers account.cipher key)) := by
  induction writes generalizing nonce with
  | nil => exact ⟨[], nonce, rfl, rfl, rfl⟩
  | cons data writes ih =>
    obtain ⟨hchained, hflat⟩ := chunkLoop_spec nonce data
    obtain ⟨chunks, last, hrest, hpayload, hsend⟩ := ih (chunkLoop nonce data).2
    refine ⟨(chunkLoop nonce data).1 ++ chunks, last, hchained.append hrest, ?_, ?_⟩
    · rw [map_append, flatten_append, hflat, hpayload, flatten_cons]
    · rw [sendAll, sendRaw, if_pos rfl, sealChunks]
      simp only [Option.map_some, Option.bind_some, hsend, flatMap_append]

/-- The server has read everything and knows the address and what was sent. -/
def Recovered (addressHeader payload : Bytes)
    (outcome : Option (ServerState × Bytes × Bytes)) : Prop :=
  ∃ s, outcome = some (s, [], payload) ∧ s.address = some addressHeader

/-- What the server recovers from a request whose length fits in two bytes. -/
theorem recovered_of_fits (d : Destination) (port : Nat) (first : Bytes) (writes : List Bytes)
    (hfits : (variableHeader account choices first (d.header port)).length < 65536) :
    Recovered (d.header port) (first :: writes).flatten
      ((sendAll c account choices (create account (d.header port)) (first :: writes)).bind
        ((serverReader c account).feed (newServer account))) := by
  obtain ⟨chunks, last, hchained, hpayload, hsend⟩ := sendAll_chunks c account choices
    (increment (increment (newNonce account.cipher))) (sessionKey c account choices) none writes
  have hfixed : (serverReader c account).on
      ⟨sessionKey c account choices, newNonce account.cipher, .fixedHeader, none⟩
      (c.aeadSeal account.cipher (sessionKey c account choices)
        (increment (newNonce account.cipher)) (fixedHeader account choices first (d.header port))) =
      some (⟨sessionKey c account choices, increment (newNonce account.cipher),
        .variableHeader (variableHeader account choices first (d.header port)).length, none⟩,
        []) := by
    simp only [serverReader, Ciphers.aeadOpen_aeadSeal, Option.map_some, drop_fixedHeader,
      readSize_sizeBytes hfits]
  have hvariable : (serverReader c account).on
      ⟨sessionKey c account choices, increment (newNonce account.cipher),
        .variableHeader (variableHeader account choices first (d.header port)).length, none⟩
      (c.aeadSeal account.cipher (sessionKey c account choices)
        (increment (increment (newNonce account.cipher)))
        (variableHeader account choices first (d.header port))) =
      some (⟨sessionKey c account choices, increment (increment (newNonce account.cipher)),
        .chunkLength, some (d.header port)⟩, first) := by
    simp only [serverReader, Ciphers.aeadOpen_aeadSeal, Option.bind_some,
      splitVariable_variableHeader, Option.map_some]
  refine ⟨⟨sessionKey c account choices, last, .chunkLength, some (d.header port)⟩, ?_, rfl⟩
  rw [sendAll, sendRaw, create, if_neg (by simp)]
  simp only [Option.map_some, Option.bind_some, buildRequest, hsend]
  rw [append_assoc, append_assoc, append_assoc, feed_preamble,
    ExactReader.feed_piece _ (by simp [serverReader, length_fixedHeader]) hfixed,
    ExactReader.feed_piece _ (by simp [serverReader]) hvariable,
    feed_server_chunks c account _ _ hchained, hpayload]
  rfl

/-- The server recovers the address and everything that was sent, and the length in
the fixed header is that of the variable header, exactly when the address header
and the first write leave room for each other in two bytes. -/
theorem request_recovered_iff (d : Destination) (port : Nat) (first : Bytes) (writes : List Bytes) :
    (Recovered (d.header port) (first :: writes).flatten
        ((sendAll c account choices (create account (d.header port)) (first :: writes)).bind
          ((serverReader c account).feed (newServer account))) ∧
      readSize ((fixedHeader account choices first (d.header port)).drop 9) =
        (variableHeader account choices first (d.header port)).length) ↔
    (d.header port).length + 2 + first.length ≤ 65535 := by
  have hheader := length_header d port
  have hlen := length_variableHeader account choices first (d.header port)
  -- padding is only added to writes that are short
  have hpad : paddingLen account choices first ≤ 900 ∧
      (900 ≤ first.length → paddingLen account choices first = 0) :=
    ⟨paddingLen_le account choices first, fun h => if_neg (by omega)⟩
  rw [drop_fixedHeader, readSize_sizeBytes_iff]
  constructor
  · rintro ⟨-, hfits⟩
    omega
  · intro h
    have hfits : (variableHeader account choices first (d.header port)).length < 65536 := by
      by_cases hshort : first.length < 900
      · omega
      · have := hpad.2 (by omega)
        omega
    exact ⟨recovered_of_fits c account choices d port first writes hfits, hfits⟩

/-- The toy ciphers, with a block of zeros for AES. -/
def toy2022 : Ciphers2022 where
  toCiphers := toyCiphers
  deriveSessionKey _ salt _ := salt
  deriveIdentitySubkey _ salt _ := salt
  blake3Hash16 _ := List.replicate 16 0
  aesEcbEncrypt _ _ := List.replicate 16 0
  length_aesEcbEncrypt _ _ := rfl

def oneUser : Account := ⟨.blake3Aes128Gcm, by decide, [[1]]⟩

theorem length_zeros : (List.replicate 16 (0 : UInt8)).length = oneUser.cipher.keySize := rfl

def zeroChoices : Choices oneUser.cipher := ⟨⟨List.replicate 16 0, length_zeros⟩, 0, 0⟩

def plainHost : Destination := .ip (.ipv4 ⟨[1, 1, 1, 1], rfl⟩)

theorem refused_of_length {first : Bytes} (hfirst : first.length = 65527) :
    readSize ((fixedHeader oneUser zeroChoices first (plainHost.header 443)).drop 9) = 0 ∧
    (variableHeader oneUser zeroChoices first (plainHost.header 443)).length = 65536 ∧
    (sendAll toy2022 oneUser zeroChoices (create oneUser (plainHost.header 443))
      [first]).bind ((serverReader toy2022 oneUser).feed (newServer oneUser)) = none := by
  have hlen : (variableHeader oneUser zeroChoices first (plainHost.header 443)).length =
      65536 := by
    rw [length_variableHeader, paddingLen, if_neg (by omega), hfirst]
    rfl
  have hzero : readSize ((fixedHeader oneUser zeroChoices first
      (plainHost.header 443)).drop 9) = 0 := by
    rw [drop_fixedHeader, hlen]
    decide
  refine ⟨hzero, hlen, ?_⟩
  have hfixed : (serverReader toy2022 oneUser).on
      ⟨sessionKey toy2022 oneUser zeroChoices, newNonce oneUser.cipher, .fixedHeader, none⟩
      (toy2022.aeadSeal oneUser.cipher (sessionKey toy2022 oneUser zeroChoices)
        (increment (newNonce oneUser.cipher))
        (fixedHeader oneUser zeroChoices first (plainHost.header 443))) =
      some (⟨sessionKey toy2022 oneUser zeroChoices, increment (newNonce oneUser.cipher),
        .variableHeader 0, none⟩, []) := by
    simp only [serverReader, Ciphers.aeadOpen_aeadSeal, Option.map_some, hzero]
  -- sixteen bytes are taken for the variable header, and they hold no address
  have hvariable : ∀ piece : Bytes, piece.length = 16 → (serverReader toy2022 oneUser).on
      ⟨sessionKey toy2022 oneUser zeroChoices, increment (newNonce oneUser.cipher),
        .variableHeader 0, none⟩ piece = none := by
    intro piece hpiece
    have hopen : toy2022.aeadOpen oneUser.cipher (sessionKey toy2022 oneUser zeroChoices)
        (increment (increment (newNonce oneUser.cipher))) piece = some [] := by
      show (if piece.length < 16 then none else some (piece.take (piece.length - 16))) = _
      simp [hpiece]
    simp only [serverReader, hopen, Option.bind_some]
    rfl
  rw [sendAll, sendRaw, create, if_neg (by simp)]
  simp only [Option.map_some, Option.bind_some, buildRequest, sendAll]
  rw [append_assoc, append_assoc, append_assoc, feed_preamble,
    ExactReader.feed_piece _ (by simp [serverReader, length_fixedHeader]) hfixed,
    ExactReader.feed_of_le _ (by simp [serverReader, hlen]), hvariable _ ?_]
  · rfl
  · simp [serverReader, hlen]
    decide

/-- A first write of 65527 bytes: the variable header has 65536 bytes, the length in
the fixed header is zero, and the server refuses the request. -/
theorem request_refused :
    readSize ((fixedHeader oneUser zeroChoices (List.replicate 65527 0) (plainHost.header 443)).drop
      9) = 0 ∧
    (variableHeader oneUser zeroChoices (List.replicate 65527 0) (plainHost.header 443)).length =
      65536 ∧
    (sendAll toy2022 oneUser zeroChoices (create oneUser (plainHost.header 443))
      [List.replicate 65527 0]).bind ((serverReader toy2022 oneUser).feed (newServer oneUser)) =
      none :=
  refused_of_length length_replicate

end Shadowsocks2022Connection

end Recovery

end Anywhere.Shadowsocks
