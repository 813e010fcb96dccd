import Anywhere.Tls.HelloRecord

/-!
# Anywhere — `RealityClient.buildRealityClientHello`

The ClientHello of Reality is built twice: once with a session id of zeros, which is the
associated data the session id is sealed with, and once with the sealed session id. The random,
the clock, the key agreement and the AEAD are its environment's, and so is what the P-256
generator returns: one key for each of the two.

* `associated_data_iff` — when the message that is sent is the associated data.
-/

namespace Anywhere.Reality

open Tls TlsClientHelloBuilder Lib Format List

/-- What a hello is built from, apart from the configuration. -/
structure HelloEnvironment where
  /-- SHA-256, and the P-256 generator while the associated data is built. -/
  platform : TlsClientHelloBuilder.Platform
  /-- The P-256 generator while the message is built. -/
  generateAgain : Bytes → Option (Bytes × Bytes)
  random : Bytes
  length_random : random.length = 32
  /-- `System.currentTimeMillis() / 1000`. -/
  timestamp : UInt32
  /-- `nativeX25519KeyAgreement(privateKey, publicKey)`. -/
  keyAgreement : Bytes → Bytes → Bytes
  /-- `deriveKeyHKDF(sharedSecret, salt, info, 32)`. -/
  deriveKey : Bytes → Bytes → Bytes → Bytes
  /-- `encryptAESGCM(plaintext, key, nonce, aad)`. -/
  encryptAESGCM : Bytes → Bytes → Bytes → Bytes → Bytes
  length_encryptAESGCM : ∀ plaintext key nonce aad,
    (encryptAESGCM plaintext key nonce aad).length = plaintext.length + 16

namespace HelloEnvironment

variable (env : HelloEnvironment)

/-- SHA-256, and the P-256 generator while the message is built. -/
def platformAgain : TlsClientHelloBuilder.Platform :=
  { env.platform with generateP256 := env.generateAgain }

end HelloEnvironment

/-- The version, the timestamp and the short id, filled up with zeros. -/
def realityMetadata (timestamp : UInt32) (shortId : Bytes) : Bytes :=
  let shortId := shortId.take 8
  let version : Bytes := [26, 4, 25, 0]
  version ++ [(timestamp >>> 24).toUInt8, (timestamp >>> 16).toUInt8, (timestamp >>> 8).toUInt8,
    timestamp.toUInt8] ++ shortId ++ List.replicate (8 - shortId.length) 0

def realityInfo : Text := ['R', 'E', 'A', 'L', 'I', 'T', 'Y']

section Building

variable (env : HelloEnvironment) (configuration : RealityConfiguration)
  (privateKey pubKeyBytes : Bytes) (mlkemEncapsulationKey : Option Bytes)

/-- A raw hello with this session id, built while the generator is in this state. -/
def rawClientHello (platform : TlsClientHelloBuilder.Platform) (sessionId : Bytes) : Option Bytes :=
  buildRawClientHello platform env.random configuration.serverName.toList pubKeyBytes none false
    mlkemEncapsulationKey configuration.fingerprint sessionId

def rawClientHelloForAAD : Option Bytes :=
  rawClientHello env configuration pubKeyBytes mlkemEncapsulationKey env.platform
    (List.replicate 32 0)

def encryptedSessionId (rawClientHelloForAAD : Bytes) : Bytes :=
  let sharedSecret := env.keyAgreement privateKey configuration.publicKey
  let authKey := env.deriveKey sharedSecret (env.random.take 20) (utf8 realityInfo)
  env.encryptAESGCM (realityMetadata env.timestamp configuration.shortId) authKey
    (env.random.drop 20) rawClientHelloForAAD

def buildRealityClientHello : Option Bytes := do
  let aad ← rawClientHelloForAAD env configuration pubKeyBytes mlkemEncapsulationKey
  let finalClientHello ← rawClientHello env configuration pubKeyBytes mlkemEncapsulationKey
    env.platformAgain (encryptedSessionId env configuration privateKey aad)
  return wrapInTLSRecord finalClientHello

end Building

def zeroSessionId (message : Bytes) : Bytes :=
  message.take 39 ++ List.replicate 32 0 ++ message.drop 71

-- ----
-- The session id in the message

section Message

variable (random cipherSuites : Bytes)

/-- What stands before the session id; the message is as long whatever 32 bytes that is. -/
def helloFront (extensions : Bytes) : Bytes :=
  [0x01] ++ lengthField 3
    (helloBody random (List.replicate 32 0) cipherSuites extensions).length ++
      [0x03, 0x03] ++ random ++ [0x20]

def helloBack (extensions : Bytes) : Bytes :=
  u16 cipherSuites.length ++ cipherSuites ++ ([0x01, 0x00] ++ (u16 extensions.length ++ extensions))

variable {random} {sessionId : Bytes}

theorem helloMessage_split (hsession : sessionId.length = 32) (extensions : Bytes) :
    helloMessage random sessionId cipherSuites extensions =
      helloFront random cipherSuites extensions ++ (sessionId ++
        helloBack cipherSuites extensions) := by
  have hlength : (helloBody random sessionId cipherSuites extensions).length =
      (helloBody random (List.replicate 32 0) cipherSuites extensions).length := by
    simp only [helloBody, length_append, length_cons, length_replicate, hsession]
  rw [helloMessage, hlength, helloFront, helloBack]
  generalize (helloBody random (List.replicate 32 0) cipherSuites extensions).length = n
  rw [helloBody, hsession]
  simp only [append_assoc, cons_append, nil_append]
  rfl

theorem length_helloFront (hrandom : random.length = 32) (extensions : Bytes) :
    (helloFront random cipherSuites extensions).length = 39 := by
  simp only [helloFront, length_append, length_lengthField, length_cons, length_nil,
    hrandom]

/-- The message, with its session id zeroed. -/
theorem zeroSessionId_message (hrandom : random.length = 32) (hsession : sessionId.length = 32)
    (extensions : Bytes) :
    zeroSessionId (helloMessage random sessionId cipherSuites extensions) =
      helloMessage random (List.replicate 32 0) cipherSuites extensions := by
  have hfront := length_helloFront cipherSuites hrandom extensions
  rw [helloMessage_split cipherSuites hsession, helloMessage_split cipherSuites length_replicate,
    zeroSessionId, ← hfront, take_left, show 71 = 39 + 32 from rfl, ← hfront, ← hsession,
    ← drop_drop, drop_left, drop_left, append_assoc]

theorem helloMessage_inj {extensions other : Bytes} (hlength : extensions.length = other.length)
    (hrandom : random.length = 32)
    (h : helloMessage random (List.replicate 32 0) cipherSuites extensions =
      helloMessage random (List.replicate 32 0) cipherSuites other) : extensions = other := by
  rw [helloMessage_split cipherSuites length_replicate,
    helloMessage_split cipherSuites length_replicate] at h
  have hfront := (length_helloFront cipherSuites hrandom extensions).trans
    (length_helloFront cipherSuites hrandom other).symm
  have hback := (append_inj h hfront).2
  rw [append_right_inj, helloBack, helloBack, hlength] at hback
  simpa using hback

theorem padExtensions_append (applyBoringPadding : Bool) (n : Nat) (extensions : Bytes) :
    padExtensions applyBoringPadding n extensions =
      extensions ++ padExtensions applyBoringPadding n [] := by
  cases applyBoringPadding with
  | false => exact (append_nil extensions).symm
  | true =>
    simp only [padExtensions, if_true]
    cases boringPaddingDataLength n with
    | none => exact (append_nil extensions).symm
    | some padLen => rfl

/-- The message with its session id set to zero, against one with other extensions. -/
theorem zeroSessionId_assemble_iff (hrandom : random.length = 32) (hsession : sessionId.length = 32)
    {extensions other : Bytes} (hlength : extensions.length = other.length)
    (applyBoringPadding : Bool) :
    zeroSessionId
    (assembleClientHello random sessionId cipherSuites extensions applyBoringPadding) =
        assembleClientHello random (List.replicate 32 0) cipherSuites other applyBoringPadding ↔
      extensions = other := by
  have hunpadded : unpaddedLength random sessionId cipherSuites extensions =
      unpaddedLength random (List.replicate 32 0) cipherSuites other := by
    rw [unpaddedLength, unpaddedLength, hsession, length_replicate, hlength]
  rw [assemble_eq, assemble_eq, hunpadded, zeroSessionId_message cipherSuites hrandom hsession,
    padExtensions_append, padExtensions_append _ _ other]
  constructor
  · intro h
    have happend := helloMessage_inj cipherSuites
      (by rw [length_append, length_append, hlength]) hrandom h
    exact (append_left_inj _).mp happend
  · rintro rfl
    rfl

end Message

-- ----
-- The key of the generator in the extensions

section Generator

variable (platform : TlsClientHelloBuilder.Platform) (random : Bytes)

theorem derivePRLoop_generate (generate : Bytes → Option (Bytes × Bytes)) (label : Bytes)
    (length : Nat) (result : Bytes) (counter : UInt8) :
    derivePRLoop { platform with generateP256 := generate } random label length result counter =
      derivePRLoop platform random label length result counter := by
  fun_induction derivePRLoop platform random label length result counter with
  | case1 result counter hless hash toCopy ih =>
    rw [derivePRLoop, dif_pos hless]
    exact ih
  | case2 result counter hdone => rw [derivePRLoop, dif_neg hdone]

theorem greaseECHExt_generate (generate : Bytes → Option (Bytes × Bytes)) (kdfId aeadId
    payloadLen : Nat) :
    greaseECHExt { platform with generateP256 := generate } random kdfId aeadId payloadLen =
      greaseECHExt platform random kdfId aeadId payloadLen := by
  simp only [greaseECHExt, derivePRBytes, derivePRLoop_generate]

theorem length_coordinate (bytes : Bytes) : (coordinate bytes).length = 32 := by
  rw [coordinate]
  split_ifs with heq hgt
  · exact heq
  · rw [length_drop]
    omega
  · rw [length_append, length_replicate]
    omega

theorem length_deriveP256PublicKey : (deriveP256PublicKey platform random).length = 65 := by
  rw [deriveP256PublicKey]
  split
  · simp only [length_append, length_singleton, length_coordinate]
  · exact length_replicate

/-- A key_share extension up to the bytes of its last key, which is one of 65 bytes for P-256. -/
def keyShareFront (shares : List (Nat × Bytes)) : Bytes :=
  let list := shares.flatMap fun entry => u16 entry.1 ++ u16 entry.2.length ++ entry.2
  u16 0x0033 ++ u16 (list.length + 71) ++ u16 (list.length + 69) ++ list ++ u16 0x0017 ++ u16 65

theorem keyShareExt_concat (shares : List (Nat × Bytes)) {key : Bytes} (hkey : key.length = 65) :
    keyShareExt (shares ++ [(0x0017, key)]) = keyShareFront shares ++ key := by
  simp only [keyShareExt, keyShareFront, ext, flatMap_append, flatMap_singleton,
    length_append, length_u16, hkey, append_assoc]
  generalize (shares.flatMap fun entry => u16 entry.1 ++ (u16 entry.2.length ++ entry.2)) = list
  have hlist : list.length + (2 + (2 + 65)) = list.length + 69 := by omega
  have hpayload : 2 + (list.length + (2 + (2 + 65))) = list.length + 71 := by omega
  rw [hlist, show 2 + (list.length + 69) = list.length + 71 by omega]

variable (serverName : Text) (publicKey : Bytes) (mlkemEncapsulationKey : Option Bytes)

def asksGenerator (fingerprint : TlsFingerprint) : Bool :=
  fingerprint = .firefox148 || fingerprint = .firefox120

theorem parts_of_other {fingerprint : TlsFingerprint} (h : asksGenerator fingerprint = false)
    (generate : Bytes → Option (Bytes × Bytes)) :
    buildFingerprintedParts { platform with generateP256 := generate } random serverName publicKey
        none false mlkemEncapsulationKey fingerprint =
      buildFingerprintedParts platform random serverName publicKey none false mlkemEncapsulationKey
        fingerprint := by
  cases fingerprint with
  | firefox148 => cases h
  | firefox120 => cases h
  | chrome133 =>
    simp only [buildFingerprintedParts, buildChrome133, greaseECHExt_generate]
  | chrome120 =>
    simp only [buildFingerprintedParts, buildChrome120, greaseECHExt_generate]
  | safari26 => rfl
  | ios14 => rfl
  | edge85 => rfl
  | android11 => rfl
  | qq11 => rfl
  | browser360 => rfl
  | safari16 => rfl
  | edge106 => rfl
  | random => rfl

/-- The shares before the one for P-256. -/
def firefoxOthers : List (Nat × Bytes) :=
  match hybridKeyShare publicKey false mlkemEncapsulationKey with
  | some hybrid => [(0x11EC, hybrid), (0x001D, publicKey)]
  | none => [(0x001D, publicKey)]

theorem firefoxShares_eq (p256PublicKey : Bytes) :
    (firefoxShares publicKey (hybridKeyShare publicKey false mlkemEncapsulationKey)
      p256PublicKey).2 = firefoxOthers publicKey mlkemEncapsulationKey ++
      [(0x0017, p256PublicKey)] := by
  rw [firefoxOthers]
  cases hybridKeyShare publicKey false mlkemEncapsulationKey with
  | none => rfl
  | some hybrid => rfl

/-- The key of the generator is the end of a key_share in the extensions of Firefox. -/
theorem parts_of_firefox {fingerprint : TlsFingerprint} (h : asksGenerator fingerprint = true) :
    ∃ suites before behind shares, ∀ generate : Bytes → Option (Bytes × Bytes),
      let asked := { platform with generateP256 := generate }
      buildFingerprintedParts asked random serverName publicKey none false mlkemEncapsulationKey
          fingerprint =
        some ⟨suites, concatenateArrays (before ++
          keyShareExt (shares ++ [(0x0017, deriveP256PublicKey asked random)]) :: behind),
          false⟩ := by
  rw [asksGenerator, Bool.or_eq_true, decide_eq_true_eq, decide_eq_true_eq] at h
  rcases h with rfl | rfl
  · let groups := (firefoxShares publicKey
      (hybridKeyShare publicKey false mlkemEncapsulationKey) []).1
    refine ⟨cipherSuitesData
        [0x1301, 0x1303, 0x1302, 0xC02B, 0xC02F, 0xCCA9, 0xCCA8, 0xC02C, 0xC030, 0xC00A, 0xC009,
          0xC013, 0xC014, 0x009C, 0x009D, 0x002F, 0x0035],
      [buildSNIExtension serverName, extendedMasterSecretExt, renegotiationInfoExt,
        supportedGroupsExt groups, ecPointFormatsExt, alpnExt [h2, http11], statusRequestExt,
        delegatedCredentialsExt [0x0403, 0x0503, 0x0603, 0x0203], sctExt],
      [supportedVersionsExt [0x0304, 0x0303],
        signatureAlgorithmsExt
          [0x0403, 0x0503, 0x0603, 0x0804, 0x0805, 0x0806, 0x0401, 0x0501, 0x0601, 0x0203, 0x0201],
        pskKeyExchangeModesExt, recordSizeLimitExt 0x4001, compressCertExt [0x0001, 0x0002, 0x0003],
        greaseECHExt platform random 0x0001 (echAead random) 239],
      firefoxOthers publicKey mlkemEncapsulationKey, fun generate => ?_⟩
    have hgroups : ∀ key, (firefoxShares publicKey
        (hybridKeyShare publicKey false mlkemEncapsulationKey) key).1 = groups := by
      intro key
      show _ = (firefoxShares publicKey
        (hybridKeyShare publicKey false mlkemEncapsulationKey) []).1
      cases hybridKeyShare publicKey false mlkemEncapsulationKey with
      | none => rfl
      | some hybrid => rfl
    simp only [buildFingerprintedParts, buildFirefox148, greaseECHExt_generate, firefoxShares_eq,
      hgroups]
    rfl
  · refine ⟨cipherSuitesData
        [0x1301, 0x1303, 0x1302, 0xC02B, 0xC02F, 0xCCA9, 0xCCA8, 0xC02C, 0xC030, 0xC00A, 0xC009,
          0xC013, 0xC014, 0x009C, 0x009D, 0x002F, 0x0035],
      [buildSNIExtension serverName, extendedMasterSecretExt, renegotiationInfoExt,
        supportedGroupsExt [0x001D, 0x0017, 0x0018, 0x0019, 0x0100, 0x0101], ecPointFormatsExt,
        sessionTicketExt, alpnExt [h2, http11], statusRequestExt,
        delegatedCredentialsExt [0x0403, 0x0503, 0x0603, 0x0203]],
      [supportedVersionsExt [0x0304, 0x0303],
        signatureAlgorithmsExt
          [0x0403, 0x0503, 0x0603, 0x0804, 0x0805, 0x0806, 0x0401, 0x0501, 0x0601, 0x0203, 0x0201],
        pskKeyExchangeModesExt, recordSizeLimitExt 0x4001,
        greaseECHExt platform random 0x0001 (echAead random) 239],
      [(0x001D, publicKey)], fun generate => ?_⟩
    simp only [buildFingerprintedParts, buildFirefox120, greaseECHExt_generate]
    rfl

/-- Both build the same extensions of Firefox just with the same P-256 key. -/
theorem firefox_extensions_iff (before behind : List Bytes) (shares : List (Nat × Bytes))
    {key other : Bytes} (hkey : key.length = 65) (hother : other.length = 65) :
    concatenateArrays (before ++ keyShareExt (shares ++ [(0x0017, key)]) :: behind) =
        concatenateArrays (before ++ keyShareExt (shares ++ [(0x0017, other)]) :: behind) ↔
      key = other := by
  simp only [concatenateArrays, flatten_append, flatten_cons, keyShareExt_concat _ hkey,
    keyShareExt_concat _ hother, append_right_inj, append_left_inj]

end Generator

-- ----
-- The associated data

section AssociatedData

variable (env : HelloEnvironment) (configuration : RealityConfiguration)
  (pubKeyBytes : Bytes) (mlkemEncapsulationKey : Option Bytes)

/-- The P-256 generator returns the same key for either hello. -/
def SameKey : Prop :=
  deriveP256PublicKey env.platform env.random = deriveP256PublicKey env.platformAgain env.random

/-- Two raw hellos, the second one with other 32 bytes for its session id: they are the same apart
from these bytes unless Firefox gets two keys. -/
theorem rawClientHello_iff {sessionId : Bytes} (hsession : sessionId.length = 32) :
    ∃ first second,
      rawClientHello env configuration pubKeyBytes mlkemEncapsulationKey env.platform
        (List.replicate 32 0) = some first ∧
      rawClientHello env configuration pubKeyBytes mlkemEncapsulationKey env.platformAgain
        sessionId = some second ∧
      (zeroSessionId second = first ↔
        (asksGenerator (resolve env.random configuration.fingerprint) = true → SameKey env)) := by
  cases hasks : asksGenerator (resolve env.random configuration.fingerprint) with
  | false =>
    have hparts : ∃ parts, buildFingerprintedParts env.platform env.random
        configuration.serverName.toList pubKeyBytes none false mlkemEncapsulationKey
          (resolve env.random configuration.fingerprint) = some parts ∧
        GoodParts pubKeyBytes configuration.serverName.toList parts :=
      good_parts (by decide) (resolve_ne_random env.random configuration.fingerprint)
    obtain ⟨parts, hparts, -⟩ := hparts
    have hagain := (parts_of_other env.platform env.random configuration.serverName.toList
      pubKeyBytes mlkemEncapsulationKey hasks env.generateAgain).trans hparts
    refine ⟨_, _, by rw [rawClientHello, buildRawClientHello, hparts, Option.map_some],
      by rw [rawClientHello, buildRawClientHello, HelloEnvironment.platformAgain, hagain,
        Option.map_some], ?_⟩
    rw [zeroSessionId_assemble_iff parts.cipherSuites env.length_random hsession rfl]
    exact ⟨fun _ => by simp, fun _ => rfl⟩
  | true =>
    obtain ⟨suites, before, behind, shares, hparts⟩ := parts_of_firefox env.platform env.random
      configuration.serverName.toList pubKeyBytes mlkemEncapsulationKey hasks
    have hfirst := hparts env.platform.generateP256
    have hagain := hparts env.generateAgain
    have hkey := length_deriveP256PublicKey env.platform env.random
    have hkeyAgain := length_deriveP256PublicKey env.platformAgain env.random
    have hlength : ∀ key other : Bytes, key.length = 65 → other.length = 65 →
        (concatenateArrays (before ++ keyShareExt (shares ++ [(0x0017, key)]) :: behind)).length =
          (concatenateArrays
            (before ++ keyShareExt (shares ++ [(0x0017, other)]) :: behind)).length := by
      intro key other hkey hother
      simp only [concatenateArrays, flatten_append, flatten_cons,
        keyShareExt_concat _ hkey, keyShareExt_concat _ hother, length_append, hkey, hother]
    refine ⟨_, _, by rw [rawClientHello, buildRawClientHello]; exact congrArg _ hfirst,
      by rw [rawClientHello, buildRawClientHello]; exact congrArg _ hagain, ?_⟩
    have hmessages := zeroSessionId_assemble_iff suites env.length_random hsession
      (hlength _ _ hkeyAgain hkey) false
    have hextensions := firefox_extensions_iff before behind shares hkeyAgain hkey
    refine (hmessages.trans hextensions).trans ?_
    exact ⟨fun h _ => h.symm, fun h => (h rfl).symm⟩

/-- The two hellos of `buildRealityClientHello`. -/
theorem buildRealityClientHello_spec (privateKey : Bytes) :
    ∃ aad finalClientHello,
      rawClientHelloForAAD env configuration pubKeyBytes mlkemEncapsulationKey = some aad ∧
      buildRealityClientHello env configuration privateKey pubKeyBytes mlkemEncapsulationKey =
        some (wrapInTLSRecord finalClientHello) ∧
      (zeroSessionId finalClientHello = aad ↔
        (asksGenerator (resolve env.random configuration.fingerprint) = true → SameKey env)) := by
  have hmetadata : ∀ timestamp shortId, (realityMetadata timestamp shortId).length = 16 := by
    intro timestamp shortId
    simp only [realityMetadata, length_append, length_cons, length_nil,
      length_replicate, length_take]
    omega
  have hsession : ∀ aad, (encryptedSessionId env configuration privateKey aad).length = 32 := by
    intro aad
    rw [encryptedSessionId, env.length_encryptAESGCM, hmetadata]
  -- the session id is sealed with the first hello; any 32 bytes give the same first one
  obtain ⟨aad, -, haad, -, -⟩ := rawClientHello_iff env configuration pubKeyBytes
    mlkemEncapsulationKey (hsession [])
  obtain ⟨first, second, hfirst, hsecond, hiff⟩ := rawClientHello_iff env configuration pubKeyBytes
    mlkemEncapsulationKey (hsession aad)
  obtain rfl : aad = first := Option.some.inj (haad.symm.trans hfirst)
  refine ⟨aad, second, haad, ?_, hiff⟩
  rw [buildRealityClientHello, rawClientHelloForAAD, haad]
  simp only [Option.bind_eq_bind, Option.bind_some, hsecond]
  rfl

/-- The message that is sent is, apart from its session id, the associated data of that session
id, unless Firefox gets two keys from the generator. -/
theorem associated_data_iff (privateKey : Bytes) :
    (∃ aad record, rawClientHelloForAAD env configuration pubKeyBytes mlkemEncapsulationKey =
        some aad ∧
      buildRealityClientHello env configuration privateKey pubKeyBytes mlkemEncapsulationKey =
        some record ∧
      zeroSessionId (record.drop 5) = aad) ↔
    (asksGenerator (resolve env.random configuration.fingerprint) = true → SameKey env) := by
  obtain ⟨aad, finalClientHello, haad, hbuilt, hiff⟩ := buildRealityClientHello_spec env
    configuration pubKeyBytes mlkemEncapsulationKey privateKey
  rw [← hiff]
  constructor
  · rintro ⟨aad', record, haad', hrecord, hzero⟩
    obtain rfl : aad = aad' := Option.some.inj (haad.symm.trans haad')
    obtain rfl : wrapInTLSRecord finalClientHello = record :=
      Option.some.inj (hbuilt.symm.trans hrecord)
    exact hzero
  · exact fun hzero => ⟨aad, wrapInTLSRecord finalClientHello, haad, hbuilt, hzero⟩

/-- A coordinate of a point, as 32 octets. -/
def coordinate (n : Nat) : Bytes := (List.range 32).map fun i => UInt8.ofNat (n / 256 ^ (31 - i))

/-- The base point of P-256. -/
def basePoint : Bytes × Bytes :=
  (coordinate 0x6B17D1F2E12C4247F8BCE6E563A440F277037D812DEB33A0F4A13945D898C296,
    coordinate 0x4FE342E2FE1A7F9B8EE7EB4A7C0F9E162BCE33576B315ECECBB6406837BF51F5)

/-- The base point doubled. -/
def doubledPoint : Bytes × Bytes :=
  (coordinate 0x7CF27B188D034F7E8A52380304B51AC3C08969E277F21B35A60B48FC47669978,
    coordinate 0x07775510DB8ED040293D9AC69F7430DBBA7DADE63CE982299E04B79D227873D1)

/-- A generator that returns another key each time makes a hello of Firefox whose session id is
sealed with something else. -/
theorem associated_data_of_firefox : ¬ ∀ (env : HelloEnvironment)
    (configuration : RealityConfiguration) (privateKey pubKeyBytes : Bytes)
    (mlkemEncapsulationKey : Option Bytes), ∃ aad record,
      rawClientHelloForAAD env configuration pubKeyBytes mlkemEncapsulationKey = some aad ∧
      buildRealityClientHello env configuration privateKey pubKeyBytes mlkemEncapsulationKey =
        some record ∧
      zeroSessionId (record.drop 5) = aad := by
  intro hall
  let env : HelloEnvironment :=
    { platform := ⟨fun _ => List.replicate 32 0, fun _ => length_replicate,
        fun _ => some basePoint⟩
      generateAgain := fun _ => some doubledPoint
      random := List.replicate 32 0
      length_random := length_replicate
      timestamp := 0
      keyAgreement := fun _ _ => List.replicate 32 0
      deriveKey := fun _ _ _ => List.replicate 32 0
      encryptAESGCM := fun plaintext _ _ _ => plaintext ++ List.replicate 16 0
      length_encryptAESGCM := fun plaintext _ _ _ => by rw [length_append]; rfl }
  let configuration : RealityConfiguration :=
    { serverName := "a.b", publicKey := List.replicate 32 0, shortId := [],
      fingerprint := .firefox148 }
  have hkeys : ¬ SameKey env := by
    unfold SameKey
    decide
  obtain ⟨aad, finalClientHello, haad, hbuilt, hiff⟩ := buildRealityClientHello_spec env
    configuration (List.replicate 32 0) none (List.replicate 32 0)
  obtain ⟨aad', record, haad', hrecord, hzero⟩ := hall env configuration (List.replicate 32 0)
    (List.replicate 32 0) none
  obtain rfl : aad = aad' := Option.some.inj (haad.symm.trans haad')
  obtain rfl : wrapInTLSRecord finalClientHello = record :=
    Option.some.inj (hbuilt.symm.trans hrecord)
  exact hkeys (hiff.mp hzero rfl)

end AssociatedData

end Anywhere.Reality
