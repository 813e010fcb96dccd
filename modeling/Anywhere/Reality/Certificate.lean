import Anywhere.Tls.Handshake13

/-!
# Anywhere — the certificate of a Reality server

`RealityClient` trusts no chain: it looks for an ed25519 key in the first
certificate and compares the certificate's signature with an HMAC of that key
under the shared `authKey`. The key is found by a search for the bytes of its
algorithm identifier; the search runs up to the end the TBSCertificate announces
and throws where the certificate ends before that.

* `verifyRealityCertificate` — the verdict, or the exception.
* `AuthenticatedKey` — what a positive verdict says about the certificate.
-/

namespace Anywhere.Reality

open Tls List

-- ----
-- DER

/-- The big-endian number of `n` bytes from `offset` on. -/
def readLength (data : Bytes) (offset n : Nat) : Nat :=
  ((data.drop offset).take n).foldl (fun length b => length * 256 + b.toNat) 0

def parseDERLength (data : Bytes) (offset : Nat) : Option (Nat × Nat) :=
  match data[offset]? with
  | none => none
  | some first =>
    if first < 0x80 then some (first.toNat, offset + 1)
    else
      let numBytes := first.toNat % 128
      if numBytes = 0 ∨ numBytes > 3 then none
      else if offset + 1 + numBytes > data.length then none
      else some (readLength data (offset + 1) numBytes, offset + 1 + numBytes)

def parseDERSequence (data : Bytes) (offset : Nat) : Option (Nat × Nat) :=
  match data[offset]? with
  | none => none
  | some tag => if tag ≠ 0x30 then none else parseDERLength data (offset + 1)

-- ----
-- The ed25519 key

def ed25519OID : Bytes := [0x06, 0x03, 0x2b, 0x65, 0x70]

/-- The BIT STRING header of a key of 32 bytes. -/
def keyHeader : Bytes := [0x03, 0x21, 0x00]

/-- The bytes at an offset against a pattern, up to the first difference; `none`
when the comparison runs over the end. -/
def matchAt (data : Bytes) : Nat → Bytes → Option Bool
  | _, [] => some true
  | i, b :: pattern =>
    match data[i]? with
    | none => none
    | some x => if x ≠ b then some false else matchAt data (i + 1) pattern

/-- The exception of an access behind the end of an array. -/
def outOfBounds {α : Type} : Except String α := .error "IndexOutOfBoundsException"

/-- The search loop of `extractEd25519Components`. -/
def searchKey (certDER : Bytes) (tbsEnd : Nat) : Nat → Nat → Except String (Option Bytes)
  | 0, _ => .ok none
  | fuel + 1, i =>
    if i + 40 ≤ tbsEnd then
      match matchAt certDER i ed25519OID with
      | none => outOfBounds
      | some false => searchKey certDER tbsEnd fuel (i + 1)
      | some true =>
        match matchAt certDER (i + 5) keyHeader with
        | none => outOfBounds
        | some false => searchKey certDER tbsEnd fuel (i + 1)
        | some true =>
          if i + 40 ≤ certDER.length then .ok (some ((certDER.drop (i + 8)).take 32))
          else outOfBounds
    else .ok none

def signatureValue (certDER : Bytes) (tbsEnd : Nat) : Option Bytes :=
  match parseDERSequence certDER tbsEnd with
  | none => none
  | some (algorithmLen, offset) =>
    match certDER[offset + algorithmLen]? with
    | none => none
    | some tag =>
      if tag ≠ 0x03 then none
      else
        match parseDERLength certDER (offset + algorithmLen + 1) with
        | none => none
        | some (sigLen, offset) =>
          if offset + sigLen > certDER.length then none
          else if sigLen < 1 then none
          else some ((certDER.drop (offset + 1)).take (sigLen - 1))

/-- `extractEd25519Components`: the public key and the signature. -/
def extractEd25519Components (certDER : Bytes) : Except String (Option (Bytes × Bytes)) :=
  match parseDERSequence certDER 0 with
  | none => .ok none
  | some (_, tbsStart) =>
    match parseDERSequence certDER tbsStart with
    | none => .ok none
    | some (tbsContentLen, tbsContent) =>
      let tbsEnd := tbsContent + tbsContentLen
      match searchKey certDER tbsEnd tbsEnd tbsStart with
      | .error e => .error e
      | .ok none => .ok none
      | .ok (some publicKey) =>
        .ok ((signatureValue certDER tbsEnd).map fun signature => (publicKey, signature))

/-- `extractFirstCertificate`: the context, the length of the list, then the first
entry. -/
def extractFirstCertificate (certBody : Bytes) : Option Bytes :=
  if certBody.length < 4 then none
  else
    match certBody.drop (1 + (certBody.headD 0).toNat) with
    | _ :: _ :: _ :: a :: b :: c :: rest =>
      if be24 a b c ≤ rest.length then some (rest.take (be24 a b c)) else none
    | _ => none

-- ----
-- The verdict

/-- What Reality needs of the platform beyond TLS. -/
structure RealityCrypto (Cert Key : Type) extends Crypto Cert Key where
  /-- `Mac.getInstance("HmacSHA512")`: key, data. -/
  hmacSHA512 : Bytes → Bytes → Bytes
  mlkemDecapsulate : Bytes → Option Bytes

section Verdict

variable {Cert Key : Type} (cr : RealityCrypto Cert Key) (authKey : Bytes)

def verifyRealityCertificate (certBody : Bytes) : Except String Bool :=
  match extractFirstCertificate certBody with
  | none => .ok false
  | some certDER =>
    match extractEd25519Components certDER with
    | .error e => .error e
    | .ok none => .ok false
    | .ok (some (publicKey, signature)) =>
      .ok (constantTimeEqual (cr.hmacSHA512 authKey publicKey) signature)

def certificateBody (m : HandshakeMessage) : Option Bytes :=
  if m.hsType = 0x0B then some m.body
  else if m.hsType = 0x19 then decompressCertificate cr.toCrypto m.body
  else none

/-- What a message does to `serverCertVerified`: nothing when it is not a
certificate message, cannot be decompressed, or throws. -/
def verdict (m : HandshakeMessage) : Option Bool :=
  match certificateBody cr m with
  | none => none
  | some body =>
    match verifyRealityCertificate cr authKey body with
    | .error _ => none
    | .ok b => some b

def throws (m : HandshakeMessage) : Bool :=
  match certificateBody cr m with
  | none => false
  | some body =>
    match verifyRealityCertificate cr authKey body with
    | .error _ => true
    | .ok _ => false

/-- A certificate message with an ed25519 key of 32 bytes, and a signature that
is the HMAC of that key. -/
def AuthenticatedKey (m : HandshakeMessage) : Prop :=
  ∃ body certDER publicKey signature, certificateBody cr m = some body ∧
    extractFirstCertificate body = some certDER ∧
    extractEd25519Components certDER = .ok (some (publicKey, signature)) ∧
    ed25519OID ++ keyHeader ++ publicKey <:+: certDER ∧ publicKey.length = 32 ∧
    signature = cr.hmacSHA512 authKey publicKey

end Verdict

-- ----
-- What the search finds

theorem matchAt_true {data : Bytes} {i : Nat} {pattern : Bytes}
    (h : matchAt data i pattern = some true) :
    data.drop i = pattern ++ data.drop (i + pattern.length) := by
  induction pattern generalizing i with
  | nil => rfl
  | cons b pattern ih =>
    rw [matchAt] at h
    split at h
    · cases h
    · rename_i x hx
      split at h
      · cases h
      · rename_i hb
        obtain ⟨hlt, hget⟩ := List.getElem?_eq_some_iff.mp hx
        have hxb : x = b := by simpa using hb
        rw [drop_eq_getElem_cons hlt, hget, hxb, ih h, length_cons, cons_append,
          Nat.add_assoc, Nat.add_comm 1]

theorem searchKey_found {certDER : Bytes} {tbsEnd fuel i : Nat} {key : Bytes}
    (h : searchKey certDER tbsEnd fuel i = .ok (some key)) :
    ed25519OID ++ keyHeader ++ key <:+: certDER ∧ key.length = 32 := by
  induction fuel generalizing i with
  | zero => cases h
  | succ fuel ih =>
    rw [searchKey] at h
    split at h
    · split at h
      · cases h
      · exact ih h
      · rename_i hoid
        split at h
        · cases h
        · exact ih h
        · rename_i hheader
          split at h
          · rename_i hlen
            simp only [Except.ok.injEq, Option.some.injEq] at h
            subst h
            refine ⟨⟨certDER.take i, certDER.drop (i + 40), ?_⟩, by simp; omega⟩
            -- the certificate, cut at the identifier, the header and the key
            have h1 : certDER.drop i = ed25519OID ++ certDER.drop (i + 5) := matchAt_true hoid
            have h2 : certDER.drop (i + 5) = keyHeader ++ certDER.drop (i + 8) :=
              matchAt_true hheader
            have h3 : (certDER.drop (i + 8)).drop 32 = certDER.drop (i + 40) := by
              rw [drop_drop]
            calc certDER.take i ++ (ed25519OID ++ keyHeader ++ (certDER.drop (i + 8)).take 32) ++
                  certDER.drop (i + 40)
                = certDER.take i ++ (ed25519OID ++ (keyHeader ++ ((certDER.drop (i + 8)).take 32 ++
                    (certDER.drop (i + 8)).drop 32))) := by
                  rw [h3]
                  simp only [append_assoc]
              _ = certDER.take i ++ (ed25519OID ++ (keyHeader ++ certDER.drop (i + 8))) := by
                  rw [take_append_drop]
              _ = certDER.take i ++ certDER.drop i := by
                  rw [h1, h2]
              _ = certDER := take_append_drop i certDER
          · cases h
    · cases h

theorem extractEd25519Components_found {certDER key signature : Bytes}
    (h : extractEd25519Components certDER = .ok (some (key, signature))) :
    ed25519OID ++ keyHeader ++ key <:+: certDER ∧ key.length = 32 := by
  unfold extractEd25519Components at h
  split at h
  · cases h
  · split at h
    · cases h
    · dsimp only at h
      split at h
      · cases h
      · cases h
      · rename_i publicKey hsearch
        simp only [Except.ok.injEq, Option.map_eq_some_iff, Prod.mk.injEq] at h
        obtain ⟨_, -, rfl, -⟩ := h
        exact searchKey_found hsearch

section Verdict

variable {Cert Key : Type} {cr : RealityCrypto Cert Key} {authKey : Bytes}

theorem verdict_true_iff (m : HandshakeMessage) :
    verdict cr authKey m = some true ↔ AuthenticatedKey cr authKey m := by
  unfold verdict AuthenticatedKey
  cases hbody : certificateBody cr m with
  | none => simp
  | some body =>
    dsimp only
    unfold verifyRealityCertificate
    cases hder : extractFirstCertificate body with
    | none => simp [hder]
    | some certDER =>
      cases hcomp : extractEd25519Components certDER with
      | error e => simp [hder, hcomp]
      | ok o =>
        cases o with
        | none => simp [hder, hcomp]
        | some p =>
          obtain ⟨key, signature⟩ := p
          obtain ⟨hinside, hlen⟩ := extractEd25519Components_found hcomp
          simp only [hcomp, Option.some.injEq, constantTimeEqual_iff]
          constructor
          · intro hmac
            exact ⟨body, certDER, key, signature, rfl, hder, hcomp, hinside, hlen, hmac.symm⟩
          · rintro ⟨_, _, _, _, rfl, hder', hcomp', -, -, hmac⟩
            rw [hder, Option.some.injEq] at hder'
            rw [← hder', hcomp] at hcomp'
            simp only [Except.ok.injEq, Option.some.injEq, Prod.mk.injEq] at hcomp'
            rw [hcomp'.1, hcomp'.2, hmac]

theorem verdict_eq_none {m : HandshakeMessage} (h : ¬ (m.hsType = 0x0B ∨ m.hsType = 0x19)) :
    verdict cr authKey m = none := by
  rw [not_or] at h
  simp [verdict, certificateBody, h.1, h.2]

end Verdict

end Anywhere.Reality
