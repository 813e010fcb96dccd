import Anywhere.Tls.Client

/-!
# Anywhere — the version limits of `TlsClient`

The branch of a handshake is taken by whether a key share could be read. The version that is
checked in the branch for TLS 1.2, and handed to the record connection, is that of the
ServerHello or of its extension, which the server may set to TLS 1.3.

* `VersionsKept` — the executed handshake is within the limits, and the records are protected
  with its version.
* `version_limits` — when a returned connection keeps them.
-/

namespace Anywhere.Tls

variable {Cert Key : Type} {cr : Crypto Cert Key} {c : Session} {reads : Reads}

/-- The version of the handshake that was executed: `consumeRemainingHandshake` is TLS 1.3, and
`handleTls12Handshake` is TLS 1.2. -/
def Connected.executed : Connected Cert Key → TlsVersion
  | .tls13 _ => .tls13
  | .tls12 _ => .tls12

/-- `tlsVersion` of the record connection: its constructor for TLS 1.3 sets it, and the one for
TLS 1.2 is given `negotiatedVersion`. -/
def Connected.tlsVersion : Connected Cert Key → Nat
  | .tls13 _ => 0x0304
  | .tls12 e => e.protocolVersion

def Within (configuration : TlsConfiguration) (version : TlsVersion) : Prop :=
  (∀ min, configuration.minVersion = some min → min.value ≤ version.value) ∧
    ∀ max, configuration.maxVersion = some max → version.value ≤ max.value

/-- The handshake that was executed is within the limits, and protects its records with its own
version. -/
structure VersionsKept (configuration : TlsConfiguration) (connected : Connected Cert Key) :
    Prop where
  within : Within configuration connected.executed
  records : connected.tlsVersion = connected.executed.value

/-- A ServerHello without a key share that can be read, and with the version of TLS 1.3. -/
def NoShareButTls13 (reads : Reads) : Prop :=
  ∃ buf more hello, readServerHello reads = .returned (buf, more) ∧
    PacketUtil.parseServerHello buf = none ∧
    parseTls12ServerHello (extractServerHelloMessage buf) = .ok hello ∧
      hello.negotiatedVersion = 0x0304

-- ----
-- The check

section Check

variable {configuration : TlsConfiguration} {version : Nat}

/-- **What the check lets through**: the two versions, within the limits. -/
theorem enforceVersionConstraints_ok
    (hlimits : configuration.minVersion.isSome = true ∨ configuration.maxVersion.isSome = true)
    (h : enforceVersionConstraints configuration version = .ok ()) :
    ∃ v : TlsVersion, version = v.value ∧ Within configuration v := by
  have hwithin : ∀ v : TlsVersion, (configuration.minVersion.any fun min => v.value < min.value) =
      false →
      (configuration.maxVersion.any fun max => max.value < v.value) = false →
        Within configuration v := by
    intro v hmin hmax
    refine ⟨fun min hsome => ?_, fun max hsome => ?_⟩
    · rw [hsome, Option.any_some, decide_eq_false_iff_not] at hmin
      omega
    · rw [hsome, Option.any_some, decide_eq_false_iff_not] at hmax
      omega
  have hchecked : ∀ v : TlsVersion,
      (if configuration.minVersion.any (fun min => v.value < min.value) then
        .error (.handshakeFailed ("Negotiated TLS version " ++ displayName v ++
          " is below minimum"))
      else if configuration.maxVersion.any (fun max => max.value < v.value) then
        .error (.handshakeFailed ("Negotiated TLS version " ++ displayName v ++ " exceeds maximum"))
      else .ok () : Except TlsError Unit) = .ok () → Within configuration v := by
    intro v hv
    split at hv
    · cases hv
    · rename_i hmin
      split at hv
      · cases hv
      · rename_i hmax
        exact hwithin v (by simpa using hmin) (by simpa using hmax)
  unfold enforceVersionConstraints at h
  dsimp only at h
  by_cases h12 : version = 0x0303
  · rw [if_pos h12] at h
    exact ⟨.tls12, h12, hchecked _ h⟩
  · rw [if_neg h12] at h
    by_cases h13 : version = 0x0304
    · rw [if_pos h13] at h
      exact ⟨.tls13, h13, hchecked _ h⟩
    · rw [if_neg h13] at h
      have hsome : (configuration.minVersion.isSome || configuration.maxVersion.isSome) = true := by
        rw [Bool.or_eq_true]
        exact hlimits
      rw [if_pos hsome] at h
      cases h

end Check

-- ----
-- The branches

/-- The version that was checked in the branch for TLS 1.2 is that of the connection. -/
theorem handleTls12Handshake_version {buffer : Bytes} {e : Established12 Cert Key}
    (h : handleTls12Handshake cr c buffer reads = .returned e) :
    ∃ hello, parseTls12ServerHello (extractServerHelloMessage buffer) = .ok hello ∧
      enforceVersionConstraints c.configuration hello.negotiatedVersion = .ok () ∧
      e.protocolVersion = hello.negotiatedVersion := by
  unfold handleTls12Handshake at h
  dsimp only at h
  split at h
  · cases h
  · split at h
    · cases h
    · rename_i hello hparse
      split at h
      · cases h
      · rename_i hversion
        split at h
        · cases h
        · cases h
        · rename_i s rest more hcollect
          refine ⟨hello, hparse, hversion, ?_⟩
          unfold finishTls12Handshake at h
          split at h
          · cases h
          · split at h
            · cases h
            · split at h
              · cases h
              · split at h
                · cases h
                · cases h
                · cases h
                  rfl

theorem startTls13_version {buf : Bytes} {share : ServerKeyShare} {st : Start13 Key}
    (h : startTls13 cr c buf share = .ok st) :
    enforceVersionConstraints c.configuration 0x0304 = .ok () := by
  unfold startTls13 at h
  split at h
  · cases h
  · rename_i hversion
    exact hversion

/-- **The version limits.** A connection that `connect` returns keeps them if and only if the server
did not leave out the key share and say that it is TLS 1.3. -/
theorem version_limits {connected : Connected Cert Key}
    (hlimits : c.configuration.minVersion.isSome = true ∨ c.configuration.maxVersion.isSome = true)
    (h : connect cr c reads = .returned connected) :
    VersionsKept c.configuration connected ↔ ¬ NoShareButTls13 reads := by
  cases connected with
  | tls13 e =>
    obtain ⟨buf, more, share, st, hread, hshare, hst, -⟩ := connect_tls13 h
    obtain ⟨v, hv, hwithin⟩ := enforceVersionConstraints_ok hlimits (startTls13_version hst)
    have h13 : v = .tls13 := by
      cases v with
      | tls12 => exact absurd hv (by decide)
      | tls13 => rfl
    rw [h13] at hwithin
    refine ⟨fun _ => ?_, fun _ => ⟨hwithin, rfl⟩⟩
    -- a key share was read
    rintro ⟨buf', more', hello, hread', hnone, -⟩
    rw [hread, Result.returned.injEq, Prod.mk.injEq] at hread'
    rw [← hread'.1, hshare] at hnone
    exact absurd hnone nofun
  | tls12 e =>
    obtain ⟨buf, more, hread, hshare, hhandle⟩ := connect_tls12 h
    obtain ⟨hello, hparse, hcheck, hversion⟩ := handleTls12Handshake_version hhandle
    obtain ⟨v, hv, hwithin⟩ := enforceVersionConstraints_ok hlimits hcheck
    constructor
    · rintro ⟨-, hrecords⟩ ⟨buf', more', hello', hread', -, hparse', h13⟩
      rw [hread, Result.returned.injEq, Prod.mk.injEq] at hread'
      rw [← hread'.1, hparse, Except.ok.injEq] at hparse'
      have h12 : e.protocolVersion = 0x0303 := hrecords
      rw [hversion, hparse', h13] at h12
      exact absurd h12 (by decide)
    · intro hno
      cases v with
      | tls12 => exact ⟨hwithin, hversion.trans hv⟩
      | tls13 => exact absurd ⟨buf, more, hello, hread, hshare, hparse, hv⟩ hno

-- ----
-- A small server

/-- The small session with TLS 1.3 as its minimum. -/
def toySession13 : Session :=
  { toySession with configuration := { serverName := "example.com", minVersion := some .tls13 } }

/-- A small server of TLS 1.3, which keeps the limit. -/
theorem version_limits_tls13 :
    ∃ e, connect toyCrypto toySession13 (toyServer13 [toyCertificate, toyCertificateVerify]) =
      .returned (.tls13 e) ∧
      VersionsKept toySession13.configuration (.tls13 e) := by
  obtain ⟨e, he⟩ := Result.eq_of_tls13? (r := connect toyCrypto toySession13
    (toyServer13 [toyCertificate, toyCertificateVerify])) (by decide +kernel)
  refine ⟨e, he, (version_limits (.inl rfl) he).mpr ?_⟩
  rintro ⟨buf, more, hello, hread, hshare, -⟩
  have hfirst : readServerHello (toyServer13 [toyCertificate, toyCertificateVerify]) =
      .returned (toyRecord 0x16 toyHello13.bytes,
        [some (toyFlight13 [toyCertificate, toyCertificateVerify])]) := by
    decide
  rw [hfirst, Result.returned.injEq, Prod.mk.injEq] at hread
  rw [← hread.1] at hshare
  exact absurd hshare (by decide)

/-- A ServerHello without extensions that has the version of TLS 1.3. -/
def toyUpgradedHello : HandshakeMessage :=
  toyMessage 0x02 ([0x03, 0x04] ++ List.replicate 32 0x11 ++ [0x00, 0xC0, 0x2F, 0x00])

/-- The server with this hello, which goes on with TLS 1.2. -/
def toyUpgradedServer : Reads :=
  [some (toyRecord 0x16 toyUpgradedHello.bytes), some (toyRecord 0x16 (transcriptOf toyMessages12)),
    some (toyFinish12 toyMessages12)]

/-- TLS 1.2 is executed for a client that requires TLS 1.3. -/
theorem tls12_below_minimum :
    ∃ e, connect toyCrypto toySession13 toyUpgradedServer = .returned (.tls12 e) ∧
      ¬ VersionsKept toySession13.configuration (.tls12 e) := by
  obtain ⟨e, he⟩ := Result.eq_of_tls12? (r := connect toyCrypto toySession13 toyUpgradedServer)
    (by decide +kernel)
  refine ⟨e, he, fun hkept => ?_⟩
  exact absurd (hkept.within.1 .tls13 rfl) (Nat.not_succ_le_self 0x0303)

end Anywhere.Tls
