import Anywhere.Config
import Anywhere.Lib.Text

/-!
# Anywhere — `TlsClientHelloBuilder`

The ClientHello of each browser fingerprint: its cipher suites and its extensions, the
Chrome shuffle, the padding, and the message and the record around them. SHA-256 and the
generation of a P-256 key pair are the platform's (`Platform`).
-/

namespace Anywhere.Tls.TlsClientHelloBuilder

open Lib

structure Platform where
  /-- `MessageDigest.getInstance("SHA-256")`. -/
  sha256 : Bytes → Bytes
  length_sha256 : ∀ bytes, (sha256 bytes).length = 32
  /-- The coordinates of a new secp256r1 key for a seed, as `toByteArray()` gives them; none
  where the generation throws. -/
  generateP256 : Bytes → Option (Bytes × Bytes)

/-- `toByteArray(Charsets.UTF_8)`. -/
def utf8 (text : Text) : Bytes := text.flatMap String.utf8EncodeChar

-- ----
-- GREASE

def greaseTable : List Nat :=
  [0x0A0A, 0x1A1A, 0x2A2A, 0x3A3A, 0x4A4A, 0x5A5A, 0x6A6A, 0x7A7A, 0x8A8A, 0x9A9A, 0xAAAA, 0xBABA,
    0xCACA, 0xDADA, 0xEAEA, 0xFAFA]

def grease (seed : UInt8) : Nat := greaseTable.getD (seed.toNat % greaseTable.length) 0

def isGREASE (value : Nat) : Bool := value &&& 0x0F0F == 0x0A0A

/-- The GREASE values of a hello, from the bytes of its random. -/
structure GreaseValues where
  gCipher : Nat
  gExt1 : Nat
  gGroup : Nat
  gVersion : Nat
  gExt2 : Nat

/-- The second extension takes the next value where it would be the first one's. -/
def greaseValues (random : Bytes) : GreaseValues :=
  let gExt1 := grease (random.getD 25 0)
  let gExt2 := grease (random.getD 29 0)
  { gCipher := grease (random.getD 24 0)
    gExt1
    gGroup := grease (random.getD 26 0)
    gVersion := grease (random.getD 28 0)
    gExt2 := if gExt2 = gExt1 then grease (random.getD 29 0 + 1) else gExt2 }

-- ----
-- Derived bytes

section Derived

variable (platform : Platform)

/-- The loop of `derivePRBytes`, with what is filled so far. -/
def derivePRLoop (random label : Bytes) (length : Nat) (result : Bytes) (counter : UInt8) : Bytes :=
  if _h : result.length < length then
    let hash := platform.sha256 (random ++ label ++ [counter])
    let toCopy := min hash.length (length - result.length)
    derivePRLoop random label length (result ++ hash.take toCopy) (counter + 1)
  else result
termination_by length - result.length
decreasing_by
  rw [List.length_append, List.length_take, platform.length_sha256]
  omega

def derivePRBytes (random : Bytes) (label : Text) (length : Nat) : Bytes :=
  derivePRLoop platform random (utf8 label) length [] 0

/-- A coordinate in 32 bytes: cut at its front, or filled up with zeros there. -/
def coordinate (bytes : Bytes) : Bytes :=
  if bytes.length = 32 then bytes
  else if bytes.length > 32 then bytes.drop (bytes.length - 32)
  else List.replicate (32 - bytes.length) 0 ++ bytes

def p256Label : Text :=
  ['p', '2', '5', '6', '-', 'f', 'i', 'n', 'g', 'e', 'r', 'p', 'r', 'i', 'n', 't']

def deriveP256PublicKey (random : Bytes) : Bytes :=
  match platform.generateP256 (platform.sha256 (random ++ utf8 p256Label)) with
  | some (x, y) => [0x04] ++ coordinate x ++ coordinate y
  | none => List.replicate 65 0

end Derived

-- ----
-- Extensions

/-- `appendU16`. -/
def u16 (value : Nat) : Bytes := [UInt8.ofNat (value / 256), UInt8.ofNat value]

def ext (type : Nat) (payload : Bytes) : Bytes := u16 type ++ u16 payload.length ++ payload

def buildSNIExtension (serverName : Text) : Bytes :=
  let nameBytes := utf8 serverName
  let listLen := nameBytes.length + 3
  ext 0x0000 (u16 listLen ++ [0x00] ++ u16 nameBytes.length ++ nameBytes)

def statusRequestExt : Bytes := ext 0x0005 [0x01, 0x00, 0x00, 0x00, 0x00]

/-- A list of numbers behind its length in two bytes. -/
def u16ListExt (type : Nat) (values : List Nat) : Bytes :=
  ext type (u16 (values.length * 2) ++ values.flatMap u16)

def supportedGroupsExt (groups : List Nat) : Bytes := u16ListExt 0x000A groups

def ecPointFormatsExt : Bytes := ext 0x000B [0x01, 0x00]

def signatureAlgorithmsExt (algs : List Nat) : Bytes := u16ListExt 0x000D algs

/-- Names behind their lengths in one byte, and the list behind its own in two. -/
def protocolsExt (type : Nat) (protocols : List Text) : Bytes :=
  let list := protocols.flatMap fun proto => UInt8.ofNat (utf8 proto).length :: utf8 proto
  ext type (u16 list.length ++ list)

def alpnExt (protocols : List Text) : Bytes := protocolsExt 0x0010 protocols

def sctExt : Bytes := ext 0x0012 []

def paddingExt (length : Nat) : Bytes := ext 0x0015 (List.replicate length 0)

def extendedMasterSecretExt : Bytes := ext 0x0017 []

def shortListExt (type : Nat) (values : List Nat) : Bytes :=
  ext type (UInt8.ofNat (values.length * 2) :: values.flatMap u16)

def compressCertExt (algorithms : List Nat) : Bytes := shortListExt 0x001B algorithms

def recordSizeLimitExt (limit : Nat) : Bytes := ext 0x001C (u16 limit)

def delegatedCredentialsExt (algs : List Nat) : Bytes := u16ListExt 0x0022 algs

def sessionTicketExt : Bytes := ext 0x0023 []

def supportedVersionsExt (versions : List Nat) : Bytes := shortListExt 0x002B versions

def pskKeyExchangeModesExt : Bytes := ext 0x002D [0x01, 0x01]

def keyShareExt (entries : List (Nat × Bytes)) : Bytes :=
  let list := entries.flatMap fun entry => u16 entry.1 ++ u16 entry.2.length ++ entry.2
  ext 0x0033 (u16 list.length ++ list)

def applicationSettingsExt (protocols : List Text) : Bytes := protocolsExt 0x4469 protocols

def applicationSettingsNewExt (protocols : List Text) : Bytes := protocolsExt 0x44CD protocols

def echEnc : Text := ['e', 'c', 'h', '-', 'e', 'n', 'c']

def echPayload : Text := ['e', 'c', 'h', '-', 'p', 'a', 'y', 'l', 'o', 'a', 'd']

def echConfig : Text := ['e', 'c', 'h', '-', 'c', 'o', 'n', 'f', 'i', 'g']

def greaseECHExt (platform : Platform) (random : Bytes) (kdfId aeadId payloadLen : Nat) : Bytes :=
  let enc := derivePRBytes platform random echEnc 32
  let payload := derivePRBytes platform random echPayload payloadLen
  let configId := (derivePRBytes platform random echConfig 1).getD 0 0
  ext 0xFE0D
    ([0x00] ++ u16 kdfId ++ u16 aeadId ++ [configId] ++ u16 enc.length ++ enc ++
      u16 payload.length ++ payload)

def npnExt : Bytes := ext 0x3374 []

def fakeChannelIDOldExt : Bytes := ext 0x754F []

def renegotiationInfoExt : Bytes := ext 0xFF01 [0x00]

def greaseExt (value : Nat) : Bytes := ext value []

def mlkem768HybridKeyShare (mlkemEncapsulationKey x25519PubKey : Bytes) : Bytes :=
  mlkemEncapsulationKey ++ x25519PubKey

def cipherSuitesData (suites : List Nat) : Bytes := suites.flatMap u16

-- ----
-- Padding and shuffling

def boringPaddingDataLength (clientHelloLen : Nat) : Option Nat :=
  if clientHelloLen ≤ 0xFF ∨ clientHelloLen ≥ 0x200 then none
  else
    let needed := 0x200 - clientHelloLen
    if needed ≥ 4 then some (needed - 4) else none

def typeOf (extension : Bytes) : Nat :=
  (extension.getD 0 0).toNat * 256 + (extension.getD 1 0).toNat

def isFixed (extension : Bytes) : Bool :=
  2 ≤ extension.length && (isGREASE (typeOf extension) || typeOf extension == 0x0015)

/-- Two elements change places. -/
def swap (exts : List Bytes) (i j : Nat) : List Bytes :=
  (exts.set i (exts.getD j [])).set j (exts.getD i [])

/-- `seed * 6364136223846793005L + 1442695040888963407L`. -/
def nextSeed (seed : UInt64) : UInt64 := seed * 6364136223846793005 + 1442695040888963407

/-- A round of the Fisher-Yates loop over the indices that are shuffled. -/
def shuffleRound (shuffleable : List Nat) (state : UInt64 × List Bytes) (i : Nat) :
    UInt64 × List Bytes :=
  let seed := nextSeed state.1
  let j := (seed >>> 33).toNat % (i + 1)
  (seed,
    if i ≠ j then swap state.2 (shuffleable.getD i 0) (shuffleable.getD j 0) else state.2)

/-- The seed of the shuffle: bytes 24 to 31, least significant first. -/
def shuffleSeed (random : Bytes) : UInt64 :=
  if random.length ≥ 32 then
    (List.range 8).foldl (fun v i =>
      v ||| (random.getD (24 + i) 0).toUInt64 <<< UInt64.ofNat (i * 8)) 0
  else 0

def shuffleChromeExtensions (exts : List Bytes) (random : Bytes) : List Bytes :=
  let shuffleable := (List.range exts.length).filter fun i => !isFixed (exts.getD i [])
  if shuffleable.length ≤ 1 then exts
  else
    ((List.range' 1 (shuffleable.length - 1)).reverse.foldl (shuffleRound shuffleable)
      (shuffleSeed random, exts)).2

-- ----
-- The fingerprints

structure FingerprintParts where
  cipherSuites : Bytes
  extensions : Bytes
  needsPadding : Bool

def concatenateArrays (arrays : List Bytes) : Bytes := arrays.flatten

def h2 : Text := ['h', '2']

def http11 : Text := ['h', 't', 't', 'p', '/', '1', '.', '1']

section Fingerprints

variable (platform : Platform) (random : Bytes) (serverName : Text) (publicKey : Bytes)
  (alpn : Option (List Text)) (omitPQKeyShares : Bool) (mlkemEncapsulationKey : Option Bytes)

def echPayloadLen : Nat := [144, 176, 208, 240].getD ((random.getD 30 0).toNat % 4) 0

def echAead : Nat := if (random.getD 30 0).toNat % 2 = 0 then 0x0001 else 0x0003

def hybridKeyShare : Option Bytes :=
  if omitPQKeyShares then none
  else mlkemEncapsulationKey.map fun key => mlkem768HybridKeyShare key publicKey

/-- The groups and the key shares of Chrome and Safari: GREASE, the hybrid where it is sent,
X25519, and the other curves. -/
def greasedShares (gGroup : Nat) (hybrid : Option Bytes) (curves : List Nat) :
    List Nat × List (Nat × Bytes) :=
  match hybrid with
  | some hybrid =>
    ([gGroup, 0x11EC, 0x001D] ++ curves,
      [(gGroup, [0x00]), (0x11EC, hybrid), (0x001D, publicKey)])
  | none => ([gGroup, 0x001D] ++ curves, [(gGroup, [0x00]), (0x001D, publicKey)])

/-- Those of Firefox, which has a share for P-256 instead of GREASE. -/
def firefoxShares (hybrid : Option Bytes) (p256PublicKey : Bytes) : List Nat × List (Nat × Bytes) :=
  match hybrid with
  | some hybrid =>
    ([0x11EC, 0x001D, 0x0017, 0x0018, 0x0019, 0x0100, 0x0101],
      [(0x11EC, hybrid), (0x001D, publicKey), (0x0017, p256PublicKey)])
  | none =>
    ([0x001D, 0x0017, 0x0018, 0x0019, 0x0100, 0x0101],
      [(0x001D, publicKey), (0x0017, p256PublicKey)])

def buildChrome133 : FingerprintParts :=
  let g := greaseValues random
  let suites := cipherSuitesData
    [g.gCipher, 0x1301, 0x1302, 0x1303, 0xC02B, 0xC02F, 0xC02C, 0xC030, 0xCCA9, 0xCCA8, 0xC013,
      0xC014, 0x009C, 0x009D, 0x002F, 0x0035]
  let protocols := alpn.getD [h2, http11]
  let offered := greasedShares publicKey g.gGroup
    (hybridKeyShare publicKey omitPQKeyShares mlkemEncapsulationKey) [0x0017, 0x0018]
  let exts :=
    [greaseExt g.gExt1, buildSNIExtension serverName, extendedMasterSecretExt,
      renegotiationInfoExt, supportedGroupsExt offered.1, ecPointFormatsExt, sessionTicketExt,
      alpnExt protocols, statusRequestExt,
      signatureAlgorithmsExt [0x0403, 0x0804, 0x0401, 0x0503, 0x0805, 0x0501, 0x0806, 0x0601],
      sctExt, keyShareExt offered.2, pskKeyExchangeModesExt,
      supportedVersionsExt [g.gVersion, 0x0304, 0x0303], compressCertExt [0x0002],
      applicationSettingsNewExt [h2],
      greaseECHExt platform random 0x0001 0x0001 (echPayloadLen random), greaseExt g.gExt2]
  ⟨suites, concatenateArrays (shuffleChromeExtensions exts random), true⟩

def buildFirefox148 : FingerprintParts :=
  let suites := cipherSuitesData
    [0x1301, 0x1303, 0x1302, 0xC02B, 0xC02F, 0xCCA9, 0xCCA8, 0xC02C, 0xC030, 0xC00A, 0xC009,
      0xC013, 0xC014, 0x009C, 0x009D, 0x002F, 0x0035]
  let protocols := alpn.getD [h2, http11]
  let p256PublicKey := deriveP256PublicKey platform random
  let offered := firefoxShares publicKey
    (hybridKeyShare publicKey omitPQKeyShares mlkemEncapsulationKey) p256PublicKey
  let exts :=
    [buildSNIExtension serverName, extendedMasterSecretExt, renegotiationInfoExt,
      supportedGroupsExt offered.1, ecPointFormatsExt, alpnExt protocols, statusRequestExt,
      delegatedCredentialsExt [0x0403, 0x0503, 0x0603, 0x0203], sctExt, keyShareExt offered.2,
      supportedVersionsExt [0x0304, 0x0303],
      signatureAlgorithmsExt
        [0x0403, 0x0503, 0x0603, 0x0804, 0x0805, 0x0806, 0x0401, 0x0501, 0x0601, 0x0203, 0x0201],
      pskKeyExchangeModesExt, recordSizeLimitExt 0x4001, compressCertExt [0x0001, 0x0002, 0x0003],
      greaseECHExt platform random 0x0001 (echAead random) 239]
  ⟨suites, concatenateArrays exts, false⟩

def buildSafari26 : FingerprintParts :=
  let g := greaseValues random
  let suites := cipherSuitesData
    [g.gCipher, 0x1302, 0x1303, 0x1301, 0xC02C, 0xC02B, 0xCCA9, 0xC030, 0xC02F, 0xCCA8, 0xC00A,
      0xC009, 0xC014, 0xC013, 0x009D, 0x009C, 0x0035, 0x002F, 0xC008, 0xC012, 0x000A]
  let protocols := alpn.getD [h2, http11]
  let offered := greasedShares publicKey g.gGroup
    (hybridKeyShare publicKey omitPQKeyShares mlkemEncapsulationKey) [0x0017, 0x0018, 0x0019]
  let exts :=
    [greaseExt g.gExt1, buildSNIExtension serverName, extendedMasterSecretExt,
      renegotiationInfoExt, supportedGroupsExt offered.1, ecPointFormatsExt, alpnExt protocols,
      statusRequestExt,
      signatureAlgorithmsExt
        [0x0403, 0x0804, 0x0401, 0x0503, 0x0805, 0x0805, 0x0501, 0x0806, 0x0601, 0x0201],
      sctExt, keyShareExt offered.2, pskKeyExchangeModesExt,
      supportedVersionsExt [g.gVersion, 0x0304, 0x0303], compressCertExt [0x0001],
      greaseExt g.gExt2]
  ⟨suites, concatenateArrays exts, true⟩

def buildEdge85 : FingerprintParts :=
  let g := greaseValues random
  let suites := cipherSuitesData
    [g.gCipher, 0x1301, 0x1302, 0x1303, 0xC02B, 0xC02F, 0xC02C, 0xC030, 0xCCA9, 0xCCA8, 0xC013,
      0xC014, 0x009C, 0x009D, 0x002F, 0x0035]
  let protocols := alpn.getD [h2, http11]
  let exts :=
    [greaseExt g.gExt1, buildSNIExtension serverName, extendedMasterSecretExt,
      renegotiationInfoExt, supportedGroupsExt [g.gGroup, 0x001D, 0x0017, 0x0018],
      ecPointFormatsExt, sessionTicketExt, alpnExt protocols, statusRequestExt,
      signatureAlgorithmsExt [0x0403, 0x0804, 0x0401, 0x0503, 0x0805, 0x0501, 0x0806, 0x0601],
      sctExt, keyShareExt [(g.gGroup, [0x00]), (0x001D, publicKey)], pskKeyExchangeModesExt,
      supportedVersionsExt [g.gVersion, 0x0304, 0x0303, 0x0302, 0x0301], compressCertExt [0x0002],
      greaseExt g.gExt2]
  ⟨suites, concatenateArrays exts, true⟩

def buildAndroid11 : FingerprintParts :=
  let suites := cipherSuitesData
    [0xC02B, 0xC02C, 0xCCA9, 0xC02F, 0xC030, 0xCCA8, 0xC013, 0xC014, 0x009C, 0x009D, 0x002F, 0x0035]
  let exts :=
    [buildSNIExtension serverName, extendedMasterSecretExt, renegotiationInfoExt,
      supportedGroupsExt [0x001D, 0x0017, 0x0018], ecPointFormatsExt, statusRequestExt,
      signatureAlgorithmsExt
        [0x0403, 0x0804, 0x0401, 0x0503, 0x0805, 0x0501, 0x0806, 0x0601, 0x0201]]
  ⟨suites, concatenateArrays exts, false⟩

def buildQQ11 : FingerprintParts :=
  let g := greaseValues random
  let suites := cipherSuitesData
    [g.gCipher, 0x1301, 0x1302, 0x1303, 0xC02B, 0xC02F, 0xC02C, 0xC030, 0xCCA9, 0xCCA8, 0xC013,
      0xC014, 0x009C, 0x009D, 0x002F, 0x0035]
  let protocols := alpn.getD [h2, http11]
  let exts :=
    [greaseExt g.gExt1, buildSNIExtension serverName, extendedMasterSecretExt,
      renegotiationInfoExt, supportedGroupsExt [g.gGroup, 0x001D, 0x0017, 0x0018],
      ecPointFormatsExt, sessionTicketExt, alpnExt protocols, statusRequestExt,
      signatureAlgorithmsExt [0x0403, 0x0804, 0x0401, 0x0503, 0x0805, 0x0501, 0x0806, 0x0601],
      sctExt, keyShareExt [(g.gGroup, [0x00]), (0x001D, publicKey)], pskKeyExchangeModesExt,
      supportedVersionsExt [g.gVersion, 0x0304, 0x0303, 0x0302, 0x0301], compressCertExt [0x0002],
      applicationSettingsExt [h2], greaseExt g.gExt2]
  ⟨suites, concatenateArrays exts, true⟩

def buildBrowser360 : FingerprintParts :=
  let suites := cipherSuitesData
    [0xC00A, 0xC014, 0x0039, 0x006B, 0x0035, 0x003D, 0xC007, 0xC009, 0xC023, 0xC011, 0xC013, 0xC027,
      0x0033, 0x0067, 0x0032, 0x0005, 0x0004, 0x002F, 0x003C, 0x000A]
  let exts :=
    [buildSNIExtension serverName, renegotiationInfoExt,
      supportedGroupsExt [0x0017, 0x0018, 0x0019], ecPointFormatsExt, sessionTicketExt, npnExt,
      alpnExt [['s', 'p', 'd', 'y', '/', '2'], ['s', 'p', 'd', 'y', '/', '3'],
        ['s', 'p', 'd', 'y', '/', '3', '.', '1'], http11],
      fakeChannelIDOldExt, statusRequestExt,
      signatureAlgorithmsExt [0x0401, 0x0501, 0x0201, 0x0403, 0x0503, 0x0203, 0x0402, 0x0202]]
  ⟨suites, concatenateArrays exts, false⟩

def buildChrome120 : FingerprintParts :=
  let g := greaseValues random
  let suites := cipherSuitesData
    [g.gCipher, 0x1301, 0x1302, 0x1303, 0xC02B, 0xC02F, 0xC02C, 0xC030, 0xCCA9, 0xCCA8, 0xC013,
      0xC014, 0x009C, 0x009D, 0x002F, 0x0035]
  let protocols := alpn.getD [h2, http11]
  let exts :=
    [greaseExt g.gExt1, buildSNIExtension serverName, extendedMasterSecretExt,
      renegotiationInfoExt, supportedGroupsExt [g.gGroup, 0x001D, 0x0017, 0x0018],
      ecPointFormatsExt, sessionTicketExt, alpnExt protocols, statusRequestExt,
      signatureAlgorithmsExt [0x0403, 0x0804, 0x0401, 0x0503, 0x0805, 0x0501, 0x0806, 0x0601],
      sctExt, keyShareExt [(g.gGroup, [0x00]), (0x001D, publicKey)], pskKeyExchangeModesExt,
      supportedVersionsExt [g.gVersion, 0x0304, 0x0303], compressCertExt [0x0002],
      applicationSettingsExt [h2],
      greaseECHExt platform random 0x0001 0x0001 (echPayloadLen random), greaseExt g.gExt2]
  ⟨suites, concatenateArrays (shuffleChromeExtensions exts random), true⟩

def buildFirefox120 : FingerprintParts :=
  let suites := cipherSuitesData
    [0x1301, 0x1303, 0x1302, 0xC02B, 0xC02F, 0xCCA9, 0xCCA8, 0xC02C, 0xC030, 0xC00A, 0xC009,
      0xC013, 0xC014, 0x009C, 0x009D, 0x002F, 0x0035]
  let protocols := alpn.getD [h2, http11]
  let p256PublicKey := deriveP256PublicKey platform random
  let exts :=
    [buildSNIExtension serverName, extendedMasterSecretExt, renegotiationInfoExt,
      supportedGroupsExt [0x001D, 0x0017, 0x0018, 0x0019, 0x0100, 0x0101], ecPointFormatsExt,
      sessionTicketExt, alpnExt protocols, statusRequestExt,
      delegatedCredentialsExt [0x0403, 0x0503, 0x0603, 0x0203],
      keyShareExt [(0x001D, publicKey), (0x0017, p256PublicKey)],
      supportedVersionsExt [0x0304, 0x0303],
      signatureAlgorithmsExt
        [0x0403, 0x0503, 0x0603, 0x0804, 0x0805, 0x0806, 0x0401, 0x0501, 0x0601, 0x0203, 0x0201],
      pskKeyExchangeModesExt, recordSizeLimitExt 0x4001,
      greaseECHExt platform random 0x0001 (echAead random) 239]
  ⟨suites, concatenateArrays exts, false⟩

def buildSafari16 : FingerprintParts :=
  let g := greaseValues random
  let suites := cipherSuitesData
    [g.gCipher, 0x1301, 0x1302, 0x1303, 0xC02C, 0xC02B, 0xCCA9, 0xC030, 0xC02F, 0xCCA8, 0xC00A,
      0xC009, 0xC014, 0xC013, 0x009D, 0x009C, 0x0035, 0x002F, 0xC008, 0xC012, 0x000A]
  let protocols := alpn.getD [h2, http11]
  let exts :=
    [greaseExt g.gExt1, buildSNIExtension serverName, extendedMasterSecretExt,
      renegotiationInfoExt, supportedGroupsExt [g.gGroup, 0x001D, 0x0017, 0x0018, 0x0019],
      ecPointFormatsExt, alpnExt protocols, statusRequestExt,
      signatureAlgorithmsExt
        [0x0403, 0x0804, 0x0401, 0x0503, 0x0203, 0x0805, 0x0805, 0x0501, 0x0806, 0x0601, 0x0201],
      sctExt, keyShareExt [(g.gGroup, [0x00]), (0x001D, publicKey)], pskKeyExchangeModesExt,
      supportedVersionsExt [g.gVersion, 0x0304, 0x0303, 0x0302, 0x0301], compressCertExt [0x0001],
      greaseExt g.gExt2]
  ⟨suites, concatenateArrays exts, true⟩

def buildIOS14 : FingerprintParts :=
  let g := greaseValues random
  let suites := cipherSuitesData
    [g.gCipher, 0x1301, 0x1302, 0x1303, 0xC02C, 0xC02B, 0xCCA9, 0xC030, 0xC02F, 0xCCA8, 0xC024,
      0xC023, 0xC00A, 0xC009, 0xC028, 0xC027, 0xC014, 0xC013, 0x009D, 0x009C, 0x003D, 0x003C,
      0x0035, 0x002F, 0xC008, 0xC012, 0x000A]
  let protocols := alpn.getD [h2, http11]
  let exts :=
    [greaseExt g.gExt1, buildSNIExtension serverName, extendedMasterSecretExt,
      renegotiationInfoExt, supportedGroupsExt [g.gGroup, 0x001D, 0x0017, 0x0018, 0x0019],
      ecPointFormatsExt, alpnExt protocols, statusRequestExt,
      signatureAlgorithmsExt
        [0x0403, 0x0804, 0x0401, 0x0503, 0x0203, 0x0805, 0x0805, 0x0501, 0x0806, 0x0601, 0x0201],
      sctExt, keyShareExt [(g.gGroup, [0x00]), (0x001D, publicKey)], pskKeyExchangeModesExt,
      supportedVersionsExt [g.gVersion, 0x0304, 0x0303, 0x0302, 0x0301], greaseExt g.gExt2]
  ⟨suites, concatenateArrays exts, true⟩

def buildEdge106 : FingerprintParts :=
  let g := greaseValues random
  let suites := cipherSuitesData
    [g.gCipher, 0x1301, 0x1302, 0x1303, 0xC02B, 0xC02F, 0xC02C, 0xC030, 0xCCA9, 0xCCA8, 0xC013,
      0xC014, 0x009C, 0x009D, 0x002F, 0x0035]
  let protocols := alpn.getD [h2, http11]
  let exts :=
    [greaseExt g.gExt1, buildSNIExtension serverName, extendedMasterSecretExt,
      renegotiationInfoExt, supportedGroupsExt [g.gGroup, 0x001D, 0x0017, 0x0018],
      ecPointFormatsExt, sessionTicketExt, alpnExt protocols, statusRequestExt,
      signatureAlgorithmsExt [0x0403, 0x0804, 0x0401, 0x0503, 0x0805, 0x0501, 0x0806, 0x0601],
      sctExt, keyShareExt [(g.gGroup, [0x00]), (0x001D, publicKey)], pskKeyExchangeModesExt,
      supportedVersionsExt [g.gVersion, 0x0304, 0x0303], compressCertExt [0x0002],
      applicationSettingsExt [h2], greaseExt g.gExt2]
  ⟨suites, concatenateArrays exts, true⟩

/-- A random fingerprint must be resolved before. -/
def buildFingerprintedParts : TlsFingerprint → Option FingerprintParts
  | .chrome133 => some
    (buildChrome133 platform random serverName publicKey alpn omitPQKeyShares mlkemEncapsulationKey)
  | .firefox148 => some
    (buildFirefox148 platform random serverName publicKey alpn omitPQKeyShares
      mlkemEncapsulationKey)
  | .safari26 => some
    (buildSafari26 random serverName publicKey alpn omitPQKeyShares mlkemEncapsulationKey)
  | .edge85 => some (buildEdge85 random serverName publicKey alpn)
  | .android11 => some (buildAndroid11 serverName)
  | .qq11 => some (buildQQ11 random serverName publicKey alpn)
  | .browser360 => some (buildBrowser360 serverName)
  | .chrome120 => some (buildChrome120 platform random serverName publicKey alpn)
  | .firefox120 => some (buildFirefox120 platform random serverName publicKey alpn)
  | .safari16 => some (buildSafari16 random serverName publicKey alpn)
  | .ios14 => some (buildIOS14 random serverName publicKey alpn)
  | .edge106 => some (buildEdge106 random serverName publicKey alpn)
  | .random => none

-- ----
-- The message

/-- `TlsFingerprint.concreteFingerprints`, in the order of the enumeration. -/
def concreteFingerprints : List TlsFingerprint :=
  [.chrome133, .firefox148, .safari26, .ios14, .edge85, .chrome120, .firefox120,
    .safari16, .edge106]

/-- The extensions with the padding for a message of such a length. -/
def padExtensions (applyBoringPadding : Bool) (clientHelloLen : Nat) (extensions : Bytes) : Bytes :=
  if applyBoringPadding then
    match boringPaddingDataLength clientHelloLen with
    | some padLen => extensions ++ paddingExt padLen
    | none => extensions
  else extensions

def assembleClientHello (random sessionId cipherSuites extensions : Bytes)
    (applyBoringPadding : Bool) : Bytes :=
  let lengthOffset := 1
  let ch := [0x01] ++ [0x00, 0x00, 0x00] ++ [0x03, 0x03] ++ random ++
    [UInt8.ofNat sessionId.length] ++ sessionId ++ u16 cipherSuites.length ++ cipherSuites ++
    [0x01] ++ [0x00]
  let exts := padExtensions applyBoringPadding (ch.length + 2 + extensions.length) extensions
  let ch := ch ++ u16 exts.length ++ exts
  let length := ch.length - 4
  ((ch.set lengthOffset (UInt8.ofNat (length / 65536))).set (lengthOffset + 1)
    (UInt8.ofNat (length / 256))).set (lengthOffset + 2) (UInt8.ofNat length)

/-- The fingerprint that is built: a random one is chosen by the first byte of the random. -/
def resolve (fingerprint : TlsFingerprint) : TlsFingerprint :=
  if fingerprint = .random then
    concreteFingerprints.getD ((random.getD 0 0).toNat % concreteFingerprints.length) .random
  else fingerprint

def buildRawClientHello (fingerprint : TlsFingerprint) (sessionId : Bytes) : Option Bytes :=
  (buildFingerprintedParts platform random serverName publicKey alpn omitPQKeyShares
    mlkemEncapsulationKey (resolve random fingerprint)).map fun parts =>
      assembleClientHello random sessionId parts.cipherSuites parts.extensions parts.needsPadding

end Fingerprints

def wrapInTLSRecord (clientHello : Bytes) : Bytes :=
  [0x16] ++ [0x03] ++ [0x01] ++ u16 clientHello.length ++ clientHello

end Anywhere.Tls.TlsClientHelloBuilder
