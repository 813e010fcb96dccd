import Anywhere.Shadowsocks.Parts2022

/-!
# Anywhere — the packets a Shadowsocks-2022 session sends

The AES variant has a header of sixteen bytes, the session and the packet, under the first key, an
identity block for every further key, and a body that is sealed with the last twelve bytes of the
header for a nonce. The ChaCha variant seals all of it with a nonce of its own.

* `serverOpen` — a server that follows the formats.
-/

namespace Anywhere.Shadowsocks

open Lib List

-- ----
-- Ciphers and modes

/-- The ciphers with both directions of a block of AES. An AEAD has one ciphertext for a text. -/
structure UdpCiphers extends Ciphers2022 where
  aesEcbDecrypt : Bytes → Bytes → Bytes
  length_aesEcbDecrypt : ∀ key block, (aesEcbDecrypt key block).length = 16
  aesEcbDecrypt_encrypt : ∀ key block, block.length = 16 →
      aesEcbDecrypt key (aesEcbEncrypt key block) = block
  aesEcbEncrypt_decrypt : ∀ key block, block.length = 16 →
      aesEcbEncrypt key (aesEcbDecrypt key block) = block
  length_blake3Hash16 : ∀ data, (blake3Hash16 data).length = 16
  aesGcm_tidy : aesGcm.Tidy
  chaCha20Poly1305_tidy : chaCha20Poly1305.Tidy

/-- What `modeFor` makes the AES variant with. -/
structure AesAccount extends Account where
  cipher_aes : cipher = .blake3Aes128Gcm ∨ cipher = .blake3Aes256Gcm
  pskList_ne : pskList ≠ []
  length_psk : ∀ psk ∈ pskList, psk.length = cipher.keySize

inductive Mode2022
  | aes (account : AesAccount)
  | chaCha (psk : {psk : Bytes // psk.length = 32})

namespace UdpCiphers

variable (c : UdpCiphers)

theorem aeadOpen_eq_some_iff {cipher : ShadowsocksCipher} (h : cipher ≠ .none)
    {key nonce ciphertext text : Bytes} :
    c.aeadOpen cipher key nonce ciphertext = some text ↔
    ciphertext = c.aeadSeal cipher key nonce text := by
  refine ⟨fun hopen => ?_, fun hseal => by rw [hseal, Ciphers.aeadOpen_aeadSeal]⟩
  unfold Ciphers.aeadOpen at hopen
  unfold Ciphers.aeadSeal
  rw [if_neg h] at hopen ⊢
  split at hopen
  · rename_i hchacha
    rw [if_pos hchacha]
    exact c.chaCha20Poly1305_tidy _ _ _ _ _ hopen
  · rename_i hchacha
    rw [if_neg hchacha]
    exact c.aesGcm_tidy _ _ _ _ _ hopen

/-- `XChaCha20Poly1305.seal`. -/
def xSeal (key nonce plaintext : Bytes) : Bytes :=
  c.aeadSeal .chacha20Poly1305 (xChaChaKey key nonce) (xChaChaNonce nonce) plaintext

/-- `XChaCha20Poly1305.open`. -/
def xOpen (key nonce ciphertext : Bytes) : Option Bytes :=
  c.aeadOpen .chacha20Poly1305 (xChaChaKey key nonce) (xChaChaNonce nonce) ciphertext

@[simp] theorem xOpen_xSeal (key nonce plaintext : Bytes) :
    c.xOpen key nonce (c.xSeal key nonce plaintext) = some plaintext := c.aeadOpen_aeadSeal _ _ _ _

end UdpCiphers

-- ----
-- The session

/-- The fields of `ShadowsocksUdpSession` that `encryptPacket` uses. -/
structure Outbound where
  sessionID : Int
  packetIDCounter : Int := 0
  outboundCipherKey : Option Bytes := none
  pskHashes : List Bytes := []

/-- What `random` and the clock say in a call. -/
structure Draws where
  padding : Nat
  nonce : {nonce : Bytes // nonce.length = 24}
  timestamp : Long

/-- A datagram, with the key and the nonce of its `seal`. -/
structure SealedPacket where
  bytes : Bytes
  key : Bytes
  nonce : Bytes

def xorBlock (a b : Bytes) : Bytes := List.zipWith (· ^^^ ·) a b

/-- Padding is for short DNS queries: `nextInt(bound) + 1`. -/
def udpPaddingLen (draw dstPort : Nat) (payload : Bytes) : Nat :=
  if dstPort = 53 ∧ payload.length < 900 then draw % (900 - payload.length) + 1 else 0

/-- What both variants seal behind the ids: type, time, padding, address and payload. -/
def clientBody (timestamp : Int) (paddingLen : Nat) (addressHeader payload : Bytes) : Bytes :=
  [0x00] ++ (toBigEndianBytes timestamp ++ (sizeBytes paddingLen ++
    (List.replicate paddingLen 0 ++ (addressHeader ++ payload))))

namespace Outbound

variable (c : UdpCiphers) (inet : Net.Inet)

/-- The `init` block. -/
def create (mode : Mode2022) (sessionID : Long) : Outbound :=
  match mode with
  | .aes account =>
    { sessionID := sessionID
      outboundCipherKey :=
        some (c.deriveSessionKey account.psk (toBigEndianBytes sessionID) account.cipher.keySize)
      pskHashes := account.pskList.tail.map c.blake3Hash16 }
  | .chaCha _ => { sessionID := sessionID }

/-- `nextPacketID`: it returns the new counter. -/
def nextPacketID (o : Outbound) : Outbound :=
  { o with packetIDCounter := toLong (o.packetIDCounter + 1) }

/-- The header of a packet of the AES variant. -/
def header (o : Outbound) : Bytes :=
  toBigEndianBytes o.sessionID ++ toBigEndianBytes o.packetIDCounter

/-- `encryptSS2022AES`; none where it throws. -/
def encryptSS2022AES (account : AesAccount) (o : Outbound) (payload : Bytes) (dstHost : Text)
    (dstPort : Nat)
    (draws : Draws) : Outbound × Option SealedPacket :=
  match o.outboundCipherKey with
  | none => (o, none)
  | some sessionKey =>
    let o := o.nextPacketID
    let identityData := (account.pskList.zip o.pskHashes).flatMap fun p =>
      c.aesEcbEncrypt p.1 (xorBlock p.2 o.header)
    (o, (buildAddressHeader inet dstHost dstPort).map fun addressHeader =>
      let body := clientBody draws.timestamp
          (udpPaddingLen draws.padding dstPort payload) addressHeader payload
      let nonce := (o.header.drop 4).take 12
      { bytes := c.aesEcbEncrypt (account.pskList.head account.pskList_ne) o.header ++
          (identityData ++ c.aeadSeal account.cipher sessionKey nonce body)
        key := sessionKey
        nonce := nonce })

/-- `encryptSS2022ChaCha`; none where it throws. -/
def encryptSS2022ChaCha (psk : Bytes) (o : Outbound) (payload : Bytes) (dstHost : Text)
    (dstPort : Nat)
    (draws : Draws) : Outbound × Option SealedPacket :=
  match buildAddressHeader inet dstHost dstPort with
  | none => (o, none)
  | some addressHeader =>
    let o := o.nextPacketID
    let body := clientBody draws.timestamp
        (udpPaddingLen draws.padding dstPort payload) addressHeader payload
    (o, some
      { bytes := draws.nonce.1 ++ c.xSeal psk draws.nonce (o.header ++ body)
        key := psk
        nonce := draws.nonce })

def encryptPacket (mode : Mode2022) (o : Outbound) (payload : Bytes) (dstHost : Text)
    (dstPort : Nat)
    (draws : Draws) : Outbound × Option SealedPacket :=
  match mode with
  | .aes account => o.encryptSS2022AES c inet account payload dstHost dstPort draws
  | .chaCha psk => o.encryptSS2022ChaCha c inet psk payload dstHost dstPort draws

end Outbound

-- ----
-- A server

structure ClientPacket where
  sessionID : Int
  packetID : Nat
  timestamp : Int
  address : Destination
  port : Nat
  payload : Bytes

def readClientBody (sessionID : Int) (packetID : Nat) (body : Bytes) : Option ClientPacket :=
  if body.length < 1 + 8 + 2 ∨ body.head? ≠ some 0x00 then none
  else
    let paddingLen := readSize ((body.drop 9).take 2)
    if body.length < 11 + paddingLen then none
    else (readDestination (body.drop (11 + paddingLen))).map fun t =>
      ⟨sessionID, packetID, readLongBE body 1, t.1, t.2.1, t.2.2⟩

/-- The identity blocks: each one has the hash of the next key in it. What is behind them. -/
def readIdentity (c : UdpCiphers) (header : Bytes) : List (Bytes × Bytes) → Bytes → Option Bytes
  | [], bytes => some bytes
  | (psk, next) :: keys, bytes =>
    if xorBlock (c.aesEcbDecrypt psk (bytes.take 16)) header = c.blake3Hash16 next then
      readIdentity c header keys (bytes.drop 16)
    else none

def serverOpenAES (c : UdpCiphers) (account : AesAccount) (packet : Bytes) : Option ClientPacket :=
  let header := c.aesEcbDecrypt (account.pskList.head account.pskList_ne) (packet.take 16)
  let key := c.deriveSessionKey account.psk (header.take 8) account.cipher.keySize
  (readIdentity c header (account.pskList.zip account.pskList.tail)
  (packet.drop 16)).bind fun sealed =>
    (c.aeadOpen account.cipher key ((header.drop 4).take 12) sealed).bind
      (readClientBody (readLongBE header 0) (beNat (header.drop 8)))

def serverOpenChaCha (c : UdpCiphers) (psk packet : Bytes) : Option ClientPacket :=
  (c.xOpen psk (packet.take 24) (packet.drop 24)).bind fun text =>
    readClientBody (readLongBE text 0) (beNat ((text.drop 8).take 8)) (text.drop 16)

def serverOpen (c : UdpCiphers) : Mode2022 → Bytes → Option ClientPacket
  | .aes account => serverOpenAES c account
  | .chaCha psk => serverOpenChaCha c psk

-- ----
-- Parts of a packet

theorem xorBlock_cancel {a b : Bytes} (h : a.length = b.length) :
    xorBlock (xorBlock a b) b = a := by
  induction a generalizing b with
  | nil => rfl
  | cons x a ih =>
    rcases b with _ | ⟨y, b⟩
    · cases h
    · have htail := ih (Nat.succ.inj h)
      show (x ^^^ y ^^^ y) :: xorBlock (xorBlock a b) b = x :: a
      rw [htail, UInt8.xor_assoc, UInt8.xor_self, UInt8.xor_zero]

theorem length_xorBlock {a b : Bytes} (h : a.length = b.length) :
    (xorBlock a b).length = a.length := by
  rw [xorBlock, length_zipWith, h, Nat.min_self]

theorem readClientBody_clientBody (sessionID : Int) (packetID : Nat) (timestamp : Long)
    {paddingLen port : Nat}
    (hpadding : paddingLen < 65536) (hport : port < 65536) (d : Destination) (payload : Bytes) :
    readClientBody sessionID packetID (clientBody timestamp paddingLen (d.header port) payload) =
      some ⟨sessionID, packetID, timestamp, d, port, payload⟩ := by
  have hlen : (clientBody timestamp paddingLen (d.header port) payload).length =
      11 + paddingLen + (d.header port ++ payload).length := by
    simp [clientBody, sizeBytes]
    omega
  have hsize : readSize
      (((clientBody timestamp paddingLen (d.header port) payload).drop 9).take 2) = paddingLen := by
    have hdrop : (clientBody timestamp paddingLen (d.header port) payload).drop 9 =
        sizeBytes paddingLen ++ (List.replicate paddingLen 0 ++ (d.header port ++ payload)) := by
      rw [clientBody, ← append_assoc]
      exact drop_left' (by simp)
    rw [hdrop]
    exact readSize_sizeBytes hpadding
  have hrest : (clientBody timestamp paddingLen (d.header port) payload).drop (11 + paddingLen) =
      d.header port ++ payload := by
    rw [clientBody, ← append_assoc, ← append_assoc, ← append_assoc]
    exact drop_left' (by simp [sizeBytes]; omega)
  rw [readClientBody, if_neg (by rw [hlen]; simp [clientBody]; omega)]
  dsimp only
  rw [hsize, if_neg (by omega), hrest, readDestination_header d hport]
  have htime : readLongBE (clientBody timestamp paddingLen (d.header port) payload) 1 = timestamp :=
    (readLongBE_append rfl _ _).trans (toLong_val timestamp)
  rw [Option.map_some, htime]

theorem udpPaddingLen_lt (draw dstPort : Nat) (payload : Bytes) :
    udpPaddingLen draw dstPort payload < 65536 := by
  unfold udpPaddingLen
  split
  · have := Nat.mod_lt draw (show 0 < 900 - payload.length by omega)
    omega
  · decide

theorem readIdentity_blocks (c : UdpCiphers) {header : Bytes} (hheader : header.length = 16)
    (keys : List (Bytes × Bytes)) (rest : Bytes) :
    readIdentity c header keys ((keys.flatMap fun p =>
      c.aesEcbEncrypt p.1 (xorBlock (c.blake3Hash16 p.2) header)) ++ rest) = some rest := by
  induction keys with
  | nil => rfl
  | cons p keys ih =>
    have hhash : (c.blake3Hash16 p.2).length = header.length :=
      (c.length_blake3Hash16 p.2).trans hheader.symm
    have hblock := c.length_aesEcbEncrypt p.1 (xorBlock (c.blake3Hash16 p.2) header)
    rw [flatMap_cons, append_assoc, readIdentity, take_left' hblock,
      drop_left' hblock,
      c.aesEcbDecrypt_encrypt _ _ (by rw [length_xorBlock hhash, c.length_blake3Hash16]),
      if_pos (xorBlock_cancel hhash)]
    exact ih

-- ----
-- A packet

/-- A call of `encryptPacket` for a destination. -/
structure UdpRequest (inet : Net.Inet) where
  host : {host : Text // IsDestination inet host}
  port : Nat
  port_lt : port < 65536
  payload : Bytes
  draws : Draws

/-- What the server is meant to read. -/
def UdpRequest.packet {inet : Net.Inet} (r : UdpRequest inet) (sessionID : Long) (packetID : Nat) :
    ClientPacket :=
  ⟨sessionID, packetID, r.draws.timestamp, Destination.ofHost inet r.host, r.port, r.payload⟩

def packetHeader (sessionID : Long) (packetID : Int) : Bytes :=
  toBigEndianBytes sessionID ++ toBigEndianBytes packetID

theorem length_packetHeader (sessionID : Long) (packetID : Int) :
    (packetHeader sessionID packetID).length = 16 := by
  simp [packetHeader]

theorem packetHeader_session (sessionID : Long) (packetID : Int) (rest : Bytes) :
    readLongBE (packetHeader sessionID packetID ++ rest) 0 = sessionID := by
  have hread := @readLongBE_append [] 0 rfl sessionID (toBigEndianBytes packetID ++ rest)
  rw [nil_append, toLong_val] at hread
  rw [packetHeader, append_assoc, hread]

namespace Outbound

variable (c : UdpCiphers) (inet : Net.Inet)

def counted (mode : Mode2022) (sessionID : Long) (counter : Int) : Outbound :=
  { create c mode sessionID with packetIDCounter := counter }

theorem counted_zero (mode : Mode2022) (sessionID : Long) :
    counted c mode sessionID 0 = create c mode sessionID := by
  rcases mode with account | psk <;> rfl

theorem create_sessionID (mode : Mode2022) (sessionID : Long) :
    (create c mode sessionID).sessionID = sessionID := by
  rcases mode with account | psk <;> rfl

theorem nextPacketID_counted (mode : Mode2022) (sessionID : Long) (counter : Int) :
    (counted c mode sessionID counter).nextPacketID =
    counted c mode sessionID (toLong (counter + 1)) := rfl

theorem header_counted (mode : Mode2022) (sessionID : Long) (counter : Int) :
    (counted c mode sessionID counter).header = packetHeader sessionID counter := by
  simp only [header, counted, packetHeader, create_sessionID]

end Outbound

-- ----
-- Reading a packet

def UdpRequest.body {inet : Net.Inet} (r : UdpRequest inet) : Bytes :=
  clientBody r.draws.timestamp (udpPaddingLen r.draws.padding r.port r.payload)
    ((Destination.ofHost inet r.host).header r.port) r.payload

section Packets

variable (c : UdpCiphers) {inet : Net.Inet}

def aesKey (account : AesAccount) (sessionID : Long) : Bytes :=
  c.deriveSessionKey account.psk (toBigEndianBytes sessionID) account.cipher.keySize

def aesPacket (account : AesAccount) (header key body : Bytes) : SealedPacket where
  bytes := c.aesEcbEncrypt (account.pskList.head account.pskList_ne) header ++
    (((account.pskList.zip account.pskList.tail).flatMap fun p =>
        c.aesEcbEncrypt p.1 (xorBlock (c.blake3Hash16 p.2) header)) ++
      c.aeadSeal account.cipher key ((header.drop 4).take 12) body)
  key := key
  nonce := (header.drop 4).take 12

def chaChaPacket (psk nonce text : Bytes) : SealedPacket where
  bytes := nonce ++ c.xSeal psk nonce text
  key := psk
  nonce := nonce

def UdpRequest.sealed (mode : Mode2022) (sessionID : Long) (packetID : Int) (r : UdpRequest inet) :
    SealedPacket :=
  match mode with
  | .aes account => aesPacket c account (packetHeader sessionID packetID)
      (aesKey c account sessionID) r.body
  | .chaCha psk => chaChaPacket c psk r.draws.nonce (packetHeader sessionID packetID ++ r.body)

/-- `encryptPacket` makes it, with the next id. -/
theorem encryptPacket_counted (mode : Mode2022) (sessionID : Long) (counter : Int)
    (r : UdpRequest inet) :
    (Outbound.counted c mode sessionID counter).encryptPacket c inet mode r.payload r.host
      r.port r.draws =
      (Outbound.counted c mode sessionID (toLong (counter + 1)),
        some (r.sealed c mode sessionID (toLong (counter + 1)))) := by
  rcases mode with account | psk
  · have hkeys : account.pskList.zip (account.pskList.tail.map c.blake3Hash16) =
        (account.pskList.zip account.pskList.tail).map fun p => (p.1, c.blake3Hash16 p.2) := by
      rw [zip_map_right]
      rfl
    have hkey : (Outbound.counted c (.aes account) sessionID counter).outboundCipherKey =
        some (aesKey c account sessionID) := rfl
    have hhashes : ∀ counter, (Outbound.counted c (.aes account) sessionID counter).pskHashes =
        account.pskList.tail.map c.blake3Hash16 := fun _ => rfl
    rw [Outbound.encryptPacket, Outbound.encryptSS2022AES, hkey]
    dsimp only
    rw [Outbound.nextPacketID_counted, Outbound.header_counted, hhashes, hkeys, flatMap_map,
      buildAddressHeader_eq]
    rfl
  · show Outbound.encryptSS2022ChaCha c inet psk _ _ _ _ _ = _
    rw [Outbound.encryptSS2022ChaCha, buildAddressHeader_eq]
    dsimp only
    rw [Outbound.nextPacketID_counted, Outbound.header_counted]
    rfl

/-- The server reads a packet back. -/
theorem serverOpen_sealed (mode : Mode2022) (sessionID : Long) (packetID : Int)
    (r : UdpRequest inet) :
    serverOpen c mode (r.sealed c mode sessionID packetID).bytes =
      some (r.packet sessionID (beNat (toBigEndianBytes packetID))) := by
  have hheader := length_packetHeader sessionID packetID
  have hbody : ∀ id, readClientBody sessionID id r.body = some (r.packet sessionID id) := fun id =>
    readClientBody_clientBody sessionID id r.draws.timestamp (udpPaddingLen_lt _ _ _) r.port_lt _ _
  have hid : (packetHeader sessionID packetID).drop 8 = toBigEndianBytes packetID :=
    drop_left' (length_toBigEndianBytes _)
  have hsession : (packetHeader sessionID packetID).take 8 = toBigEndianBytes sessionID :=
    take_left' (length_toBigEndianBytes _)
  rcases mode with account | psk
  · have hblock := c.length_aesEcbEncrypt (account.pskList.head account.pskList_ne)
      (packetHeader sessionID packetID)
    have hread : readLongBE (packetHeader sessionID packetID) 0 = sessionID := by
      have h := packetHeader_session sessionID packetID []
      rwa [append_nil] at h
    show serverOpenAES c account (aesPacket c account _ _ _).bytes = _
    rw [serverOpenAES, aesPacket]
    dsimp only
    rw [take_left' hblock, drop_left' hblock, c.aesEcbDecrypt_encrypt _ _ hheader,
      readIdentity_blocks c hheader, Option.bind_some, hsession, hread, hid, aesKey,
      Ciphers.aeadOpen_aeadSeal,
      Option.bind_some, hbody]
  · show serverOpenChaCha c psk (chaChaPacket c psk _ _).bytes = _
    rw [serverOpenChaCha, chaChaPacket]
    dsimp only
    rw [take_left' r.draws.nonce.2, drop_left' r.draws.nonce.2, UdpCiphers.xOpen_xSeal,
      Option.bind_some, packetHeader_session, drop_left' hheader,
      drop_append_of_le_length (by omega), hid, take_left' (length_toBigEndianBytes _), hbody]

end Packets

-- ----
-- A session

section Session

variable (c : UdpCiphers) (inet : Net.Inet) (mode : Mode2022)

def packets : Outbound → List (UdpRequest inet) → List (Option SealedPacket)
  | _, [] => []
  | o, r :: rs =>
    let sent := o.encryptPacket c inet mode r.payload r.host r.port r.draws
    sent.2 :: packets sent.1 rs

def serverReads (packet : Option SealedPacket) : Option ClientPacket :=
  packet.bind fun packet => serverOpen c mode packet.bytes

variable {inet} (sessionID : Long)

theorem packets_counted (counter : Int) (rs : List (UdpRequest inet)) :
    packets c inet mode (Outbound.counted c mode sessionID counter) rs =
      rs.mapIdx fun i r => some (r.sealed c mode sessionID (toLong (counter + (i + 1 : Nat)))) := by
  induction rs generalizing counter with
  | nil => rfl
  | cons r rs ih =>
    have hids : ∀ i : Nat, toLong (toLong (counter + 1) + (i + 1 : Nat)) =
        toLong (counter + (i + 1 + 1 : Nat)) := by
      intro i
      have hsum : counter + 1 + ((i + 1 : Nat) : Int) =
          counter + ((i + 1 + 1 : Nat) : Int) := by omega
      rw [toLong_add_toLong, hsum]
    rw [packets, encryptPacket_counted, mapIdx_cons]
    dsimp only
    rw [ih]
    simp only [hids]
    rfl

/-- The id of a packet counts modulo 2^64. -/
theorem packets_read (rs : List (UdpRequest inet)) :
    (packets c inet mode (Outbound.create c mode sessionID) rs).map (serverReads c mode) =
      rs.mapIdx fun i r => some (r.packet sessionID ((i + 1) % 2 ^ 64)) := by
  rw [← Outbound.counted_zero, packets_counted]
  refine List.ext_getElem? fun i => ?_
  rw [List.getElem?_map, List.getElem?_mapIdx, List.getElem?_mapIdx, Option.map_map]
  refine congrArg (fun f => Option.map f rs[i]?) (funext fun r => ?_)
  show serverOpen c mode (r.sealed c mode sessionID (toLong (0 + (i + 1 : Nat)))).bytes = _
  rw [serverOpen_sealed, Int.zero_add, beNat_toBigEndianBytes]

/-- The packets of a session reach the server, with ids that increase, and in the AES variant no key
and nonce are used twice. -/
structure Served (rs : List (UdpRequest inet)) : Prop where
  reads : ∃ ids : List Nat, ids.length = rs.length ∧ ids.Pairwise (· < ·) ∧
    (packets c inet mode (Outbound.create c mode sessionID) rs).map (serverReads c mode) =
      List.zipWith (fun r id => some (UdpRequest.packet r sessionID id)) rs ids
  nonces : ∀ account, mode = .aes account → rs.length < 2 ^ 63 →
    ((packets c inet mode (Outbound.create c mode sessionID) rs).map
      (Option.map fun packet => (packet.key, packet.nonce))).Nodup

variable {c mode sessionID}

theorem ids_eq {rs : List (UdpRequest inet)} {ids : List Nat} (hlen : ids.length = rs.length)
    (h : (packets c inet mode (Outbound.create c mode sessionID) rs).map (serverReads c mode) =
      List.zipWith (fun r id => some (UdpRequest.packet r sessionID id)) rs ids)
    {i : Nat} (hi : i < ids.length) : ids[i] = (i + 1) % 2 ^ 64 := by
  rw [packets_read] at h
  have hget := congrArg (fun l => l[i]?) h
  have hir : i < rs.length := hlen ▸ hi
  simp only [List.getElem?_mapIdx, List.getElem?_zipWith, List.getElem?_eq_getElem hir,
    List.getElem?_eq_getElem hi, Option.map_some] at hget
  exact (congrArg ClientPacket.packetID (Option.some.inj (Option.some.inj hget))).symm

theorem nonce_sealed (account : AesAccount) (packetID : Int) (r : UdpRequest inet) :
    (r.sealed c (.aes account) sessionID packetID).nonce.drop 4 = toBigEndianBytes packetID := by
  have hlen := length_packetHeader sessionID packetID
  show (((packetHeader sessionID packetID).drop 4).take 12).drop 4 = _
  rw [take_of_length_le (by rw [length_drop]; omega), drop_drop]
  exact drop_left' (length_toBigEndianBytes _)

/-- The ids in the nonces count up from one, modulo 2^64. -/
theorem ids_of_nonces (account : AesAccount) (rs : List (UdpRequest inet)) :
    ((packets c inet (.aes account) (Outbound.create c (.aes account) sessionID) rs).map
      (Option.map fun packet => (packet.key, packet.nonce))).map
      (fun use => beNat ((use.elim [] Prod.snd).drop 4)) =
      (List.range rs.length).map fun i => (i + 1) % 2 ^ 64 := by
  rw [← Outbound.counted_zero, packets_counted]
  refine List.ext_getElem? fun i => ?_
  rw [List.getElem?_map, List.getElem?_map, List.getElem?_mapIdx, List.getElem?_map]
  by_cases hi : i < rs.length
  · simp only [List.getElem?_eq_getElem hi, List.getElem?_range hi, Option.map_some,
      Option.elim_some, nonce_sealed,
      Int.zero_add, beNat_toBigEndianBytes]
  · rw [List.getElem?_eq_none (by omega), List.getElem?_eq_none (by simpa using hi)]
    rfl

/-- No id is used twice among 2^64. -/
theorem nodup_ids {n : Nat} (h : n < 2 ^ 64) :
    ((List.range n).map fun i => (i + 1) % 2 ^ 64).Nodup := by
  rw [nodup_map_iff_inj_on nodup_range]
  intro i hi j hj hij
  rw [mem_range] at hi hj
  omega

/-- **The packets of a session** reach the server just as long as their ids do not wrap. -/
theorem served_iff (rs : List (UdpRequest inet)) : Served c mode sessionID rs ↔
    rs.length < 2 ^ 64 := by
  constructor
  · rintro ⟨⟨ids, hlen, hsorted, hreads⟩, -⟩
    by_contra hlong
    have hfirst : 0 < ids.length := by omega
    have hwrap : 2 ^ 64 - 1 < ids.length := by omega
    have hlt := pairwise_iff_getElem.1 hsorted 0 (2 ^ 64 - 1) hfirst hwrap (by omega)
    rw [ids_eq hlen hreads hfirst, ids_eq hlen hreads hwrap] at hlt
    omega
  · intro h
    refine ⟨⟨(List.range rs.length).map (· + 1), by simp, ?_, ?_⟩, ?_⟩
    · rw [pairwise_map]
      exact pairwise_lt_range.imp fun hlt => Nat.succ_lt_succ hlt
    · rw [packets_read]
      refine List.ext_getElem? fun i => ?_
      rw [List.getElem?_mapIdx, List.getElem?_zipWith]
      by_cases hi : i < rs.length
      · have hmod : (i + 1) % 2 ^ 64 = i + 1 := by omega
        simp only [List.getElem?_eq_getElem hi, List.getElem?_map, List.getElem?_range hi,
          Option.map_some, hmod]
      · simp [List.getElem?_eq_none (show rs.length ≤ i by omega)]
    · rintro account rfl -
      have hids := nodup_ids h
      rw [← @ids_of_nonces c inet sessionID account] at hids
      exact hids.of_map _

end Session

end Anywhere.Shadowsocks
