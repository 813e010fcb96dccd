import Anywhere.Tls.Wire

/-!
# Anywhere — server certificates

How `TlsClient` reads the certificate messages of both TLS versions and decides
whether a chain is acceptable. Everything cryptographic, and the platform's
trust manager, is an ideal operation of `Crypto`: a function whose answers the
client takes at face value. An operation that can throw returns an `Option`.
-/

namespace Anywhere.Tls

/-- `TlsError`, with the text behind its class's prefix. `other` is an exception
of the platform that is not a `TlsError`. -/
inductive TlsError where
  | connectionFailed (msg : String)
  | handshakeFailed (msg : String)
  | certificateValidationFailed (msg : String)
  | other (msg : String)
  deriving DecidableEq

/-- The platform's cryptography, as ideal operations. -/
structure Crypto (Cert Key : Type) where
  /-- `nativeX25519KeyAgreement`. -/
  x25519 : Bytes → Bytes → Bytes
  /-- `Tls13KeyDerivation(cipherSuite).deriveHandshakeKeys(sharedSecret, transcript)`. -/
  deriveHandshakeKeys : Nat → Bytes → Bytes → Key
  /-- `deriveApplicationKeys`, from the same handshake secret. -/
  deriveApplicationKeys : Key → Bytes → Key
  /-- AEAD decryption of a record: key, sequence number, header, ciphertext. -/
  aeadOpen : Key → Nat → Bytes → Bytes → Option Bytes
  /-- `computeFinishedVerifyData(keys.serverTrafficSecret, transcript)`. -/
  computeFinishedVerifyData : Key → Bytes → Bytes
  /-- `transcriptHash` of a cipher suite. -/
  transcriptHash : Nat → Bytes → Bytes
  /-- `CertificateFactory.generateCertificate`. -/
  generateCertificate : Bytes → Option Cert
  /-- Decompression: algorithm, uncompressed length, data. -/
  decompress : Nat → Nat → Bytes → Option Bytes
  /-- `leafCert.checkValidity()` does not throw. -/
  checkValidity : Cert → Bool
  /-- `X509TrustManager.checkServerTrusted` does not throw. -/
  checkServerTrusted : List Cert → Bool
  /-- `verifyHostname` does not throw. -/
  verifyHostname : Cert → String → Bool
  isUserTrusted : Cert → Bool
  /-- `Signature.verify`: key of the certificate, TLS algorithm, content, signature. -/
  verifySignature : Cert → Nat → Bytes → Bytes → Bool
  /-- ECDHE on a named curve with the server's public key: the shared secret and
  the client's public key. -/
  ecdhe : Nat → Bytes → Option (Bytes × Bytes)
  /-- RSA key transport: the pre-master secret and its encryption. -/
  rsaKeyExchange : Cert → Option (Bytes × Bytes)
  /-- `Tls12KeyDerivation.transcriptHash`. -/
  transcriptHash12 : Bool → Bytes → Bytes
  masterSecret : Bool → Bytes → Bytes → Bytes → Bytes
  extendedMasterSecret : Bool → Bytes → Bytes → Bytes
  keysFromMasterSecret : Nat → Bytes → Bytes → Bytes → Key
  /-- `Tls12KeyDerivation.computeFinishedVerifyData`. -/
  computeFinishedVerifyData12 : Bool → Bytes → String → Bytes → Bytes
  /-- `decryptTls12HandshakeRecord`: keys, cipher suite, version, content type,
  sequence number, ciphertext. -/
  decryptTls12HandshakeRecord : Key → Nat → Nat → UInt8 → Nat → Bytes → Option Bytes

/-- What a `TlsClient` is given and draws at random before the first byte of the
server arrives. -/
structure Session where
  configuration : TlsConfiguration
  /-- `CertificatePolicy.allowInsecure`. -/
  policyAllowInsecure : Bool := false
  storedClientHello : Bytes
  clientRandom : Bytes
  ephemeralPrivateKey : Bytes

/-- `configuration.allowInsecure || CertificatePolicy.allowInsecure`. -/
def Session.skipValidation (c : Session) : Bool :=
  c.configuration.allowInsecure || c.policyAllowInsecure

variable {Cert Key : Type} (cr : Crypto Cert Key)

/-! ## Certificate messages -/

/-- The entries of a TLS 1.3 certificate list; an entry that does not parse is
skipped. -/
def parseCertificateEntries : Nat → Bytes → List Cert
  | 0, _ => []
  | fuel + 1, a :: b :: c :: rest =>
    let certLen := be24 a b c
    if certLen ≤ rest.length then
      let cert := (cr.generateCertificate (rest.take certLen)).toList
      match rest.drop certLen with
      | e1 :: e2 :: rest => cert ++ parseCertificateEntries fuel (rest.drop (be16 e1 e2))
      | _ => cert
    else []
  | _ + 1, _ => []

/-- `parseCertificateMessage`: what `serverCertificates` holds afterwards. -/
def parseCertificateMessage (body : Bytes) : List Cert :=
  if body.length < 4 then []
  else
    -- certificate request context
    match body.drop (1 + (body.headD 0).toNat) with
    | a :: b :: c :: rest =>
      if be24 a b c ≤ rest.length then
        parseCertificateEntries cr (be24 a b c) (rest.take (be24 a b c))
      else []
    | _ => []

def parseTls12CertificateEntries : Nat → Bytes → List Cert
  | 0, _ => []
  | fuel + 1, a :: b :: c :: rest =>
    let certLen := be24 a b c
    if certLen ≤ rest.length then
      (cr.generateCertificate (rest.take certLen)).toList ++
        parseTls12CertificateEntries fuel (rest.drop certLen)
    else []
  | _ + 1, _ => []

/-- `parseTls12CertificateMessage`: what `serverCertificates` holds afterwards. -/
def parseTls12CertificateMessage (body : Bytes) : List Cert :=
  match body with
  | a :: b :: c :: rest => parseTls12CertificateEntries cr rest.length (rest.take (be24 a b c))
  | _ => []

/-- `decompressCertificate`: algorithm(2), uncompressed length(3), compressed
length(3), data. -/
def decompressCertificate (body : Bytes) : Option Bytes :=
  match body with
  | a1 :: a2 :: u1 :: u2 :: u3 :: c1 :: c2 :: c3 :: rest =>
    if rest.length < be24 c1 c2 c3 then none
    else if be24 u1 u2 u3 = 0 ∨ be24 u1 u2 u3 > 2 ^ 24 then none
    else if be16 a1 a2 = 0x0001 ∨ be16 a1 a2 = 0x0002 then
      cr.decompress (be16 a1 a2) (be24 u1 u2 u3) (rest.take (be24 c1 c2 c3))
    else none
  | _ => none

/-! ## Validation -/

/-- `validateCertificate`: the system's chain trust and the host name first, the
user's fingerprints as the fallback. -/
def validateCertificate (serverName : String) (serverCertificates : List Cert) :
    Except TlsError Unit :=
  match serverCertificates with
  | [] => .error (.certificateValidationFailed "No server certificates")
  | leafCert :: _ =>
    if !cr.checkValidity leafCert then .error (.other "CertificateExpiredException")
    else if cr.checkServerTrusted serverCertificates && cr.verifyHostname leafCert serverName then
      .ok ()
    else if cr.isUserTrusted leafCert then .ok ()
    else .error (.certificateValidationFailed "Certificate not trusted by system or user")

/-- What `verifyCertificateVerify` checks a signature over. -/
def certificateVerifyContent (transcriptHash : Bytes) : Bytes :=
  List.replicate 64 0x20 ++ "TLS 1.3, server CertificateVerify".toUTF8.toList ++ [0x00] ++
    transcriptHash

/-- The signature of a CertificateVerify message, over a transcript. -/
def certificateVerifyOk (cipherSuite : Nat) (leaf : Cert) (algorithm : Nat)
    (transcript signature : Bytes) : Bool :=
  cr.verifySignature leaf algorithm
    (certificateVerifyContent (cr.transcriptHash cipherSuite transcript)) signature

def verifyCertificateVerify (cipherSuite : Nat) (serverCertificates : List Cert)
    (transcript : Bytes) (algorithm : Nat) (signature : Bytes) : Except TlsError Unit :=
  match serverCertificates with
  | [] => .error (.certificateValidationFailed "No server certificate for CertificateVerify")
  | leaf :: _ =>
    if certificateVerifyOk cr cipherSuite leaf algorithm transcript signature then .ok ()
    else .error
      (.certificateValidationFailed "CertificateVerify signature verification failed")

/-! ## The negotiated version -/

def displayName : TlsVersion → String
  | .tls12 => "TLS 1.2"
  | .tls13 => "TLS 1.3"

def enforceVersionConstraints (configuration : TlsConfiguration) (negotiatedVersion : Nat) :
    Except TlsError Unit :=
  let negotiated : Option TlsVersion :=
    if negotiatedVersion = 0x0303 then some .tls12
    else if negotiatedVersion = 0x0304 then some .tls13 else none
  match negotiated with
  | none =>
    if configuration.minVersion.isSome || configuration.maxVersion.isSome then
      .error (.handshakeFailed "Negotiated TLS version is not allowed")
    else .ok ()
  | some v =>
    if configuration.minVersion.any (fun min => v.value < min.value) then
      .error (.handshakeFailed ("Negotiated TLS version " ++ displayName v ++ " is below minimum"))
    else if configuration.maxVersion.any (fun max => max.value < v.value) then
      .error (.handshakeFailed ("Negotiated TLS version " ++ displayName v ++ " exceeds maximum"))
    else .ok ()

end Anywhere.Tls
