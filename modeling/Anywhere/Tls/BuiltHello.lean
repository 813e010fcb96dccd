import Mathlib.Data.List.GetD
import Mathlib.Data.List.Nodup
import Anywhere.Lib.Format
import Anywhere.Tls.ClientHelloBuilder
import Anywhere.Tls.ClientHelloSniffer

/-!
# Anywhere — the extensions of the built ClientHellos

What TLS says about a ClientHello is a `Format`: the record, the message and the vectors in
it, and the payload of each extension by its type. Every extension builder makes an extension
that is `Ok` whenever its payload fits, every fingerprint puts together extensions of different
types, and the shuffle only changes their order.
-/

namespace Anywhere.Tls.TlsClientHelloBuilder

open Lib Format List

-- ----
-- What TLS says

structure Extension where
  type : Nat
  payload : Bytes

def Extension.bytes (e : Extension) : Bytes := ext e.type e.payload

/-- The vectors in the payload of an extension of this type; no other type has any. -/
def payloadFormat (type : Nat) : Format :=
  if type = 0x0000 then Vec 2 (Many (Seq (Exactly 1) (Vec 2 Any)))
  else if type = 0x0005 then Seq (Exactly 1) (Seq (Vec 2 Any) (Vec 2 Any))
  else if type ∈ [0x000A, 0x000D, 0x0022] then Vec 2 (Many (Exactly 2))
  else if type ∈ [0x000B, 0x002D, 0xFF01] then Vec 1 Any
  else if type ∈ [0x0010, 0x4469, 0x44CD] then Vec 2 (Many (Vec 1 Any))
  else if type ∈ [0x001B, 0x002B] then Vec 1 (Many (Exactly 2))
  else if type = 0x001C then Exactly 2
  else if type = 0x0033 then Vec 2 (Many (Seq (Exactly 2) (Vec 2 Any)))
  else if type = 0xFE0D then Seq (Exactly 6) (Seq (Vec 2 Any) (Vec 2 Any))
  else Any

def extensionFormat (e : Extension) : Format :=
  Seq (Is (lengthField 2 e.type)) (Vec 2 fun payload =>
    payload = e.payload ∧ payloadFormat e.type payload)

/-- The record of a ClientHello with these contents. -/
def helloRecord (random sessionId cipherSuites : Bytes) (extensions : List Extension) : Format :=
  Seq (Is [0x16, 0x03, 0x01]) (Vec 2 (Seq (Is [0x01]) (Vec 3
    (Seq (Is ([0x03, 0x03] ++ random)) (Seq (Vec 1 (Is sessionId))
      (Seq (Vec 2 fun suites => suites = cipherSuites ∧ Many (Exactly 2) suites)
        (Seq (Vec 1 (Is [0x00])) (Vec 2 (Each extensions extensionFormat)))))))))

def keyShares (shares : List (Nat × Bytes)) : Format :=
  Vec 2 (Each shares fun share =>
    Seq (Is (lengthField 2 share.1)) (Vec 2 (Is share.2)))

def OneX25519 (publicKey : Bytes) (shares : List (Nat × Bytes)) : Prop :=
  (∀ share ∈ shares, share.1 < 65536) ∧ shares.filter (·.1 = 0x001D) = [(0x001D, publicKey)]

-- ----
-- GREASE

theorem grease_mem (seed : UInt8) : grease seed ∈ greaseTable := by
  have hlt : seed.toNat % greaseTable.length < greaseTable.length :=
    Nat.mod_lt _ (by decide)
  rw [grease, getD_eq_getElem _ _ hlt]
  exact getElem_mem hlt

theorem isGREASE_grease (seed : UInt8) : isGREASE (grease seed) = true := by
  have hall : ∀ value ∈ greaseTable, isGREASE value = true := by decide
  exact hall _ (grease_mem seed)

theorem grease_lt (seed : UInt8) : grease seed < 65536 := by
  have hall : ∀ value ∈ greaseTable, value < 65536 := by decide
  exact hall _ (grease_mem seed)

/-- The next seed gives another value. -/
theorem grease_succ_ne (seed : UInt8) : grease (seed + 1) ≠ grease seed := by
  have hne : ∀ i < 16, greaseTable.getD ((i + 1) % 16) 0 ≠ greaseTable.getD i 0 := by decide
  have hsucc : (seed + 1).toNat % 16 = (seed.toNat % 16 + 1) % 16 := by
    rw [UInt8.toNat_add]
    show (seed.toNat + 1) % 256 % 16 = _
    omega
  have hlength : greaseTable.length = 16 := rfl
  rw [grease, grease, hlength, hsucc]
  exact hne _ (Nat.mod_lt _ (by norm_num))

structure Greased (g : GreaseValues) : Prop where
  group : isGREASE g.gGroup = true ∧ g.gGroup < 65536
  ext1 : isGREASE g.gExt1 = true ∧ g.gExt1 < 65536
  ext2 : isGREASE g.gExt2 = true ∧ g.gExt2 < 65536
  ne : g.gExt1 ≠ g.gExt2

theorem greased (random : Bytes) : Greased (greaseValues random) where
  group := ⟨isGREASE_grease _, grease_lt _⟩
  ext1 := ⟨isGREASE_grease _, grease_lt _⟩
  ext2 := by
    simp only [greaseValues]
    split
    · exact ⟨isGREASE_grease _, grease_lt _⟩
    · exact ⟨isGREASE_grease _, grease_lt _⟩
  ne := by
    simp only [greaseValues]
    split
    · rename_i hsame
      rw [← hsame]
      exact (grease_succ_ne _).symm
    · rename_i hother
      exact Ne.symm hother

variable {g : GreaseValues}

theorem Greased.group_ne (h : Greased g) : g.gGroup ≠ 0x001D := by
  intro heq
  have hgrease := h.group.1
  rw [heq] at hgrease
  cases hgrease

theorem Greased.nodup (h : Greased g) {types : List Nat}
    (hfixed : ∀ type ∈ types, isGREASE type = false) (hnodup : types.Nodup) :
    (g.gExt1 :: (types ++ [g.gExt2])).Nodup := by
  have hnot : ∀ value, isGREASE value = true → value ∉ types := by
    intro value hvalue hmem
    rw [hfixed value hmem] at hvalue
    cases hvalue
  rw [nodup_cons, mem_append, mem_singleton, not_or]
  refine ⟨⟨hnot _ h.ext1.1, h.ne⟩, nodup_append.mpr ⟨hnodup, nodup_singleton _, ?_⟩⟩
  intro type htype value hvalue
  rw [mem_singleton.mp hvalue]
  rintro rfl
  exact hnot _ h.ext2.1 htype

-- ----
-- Extensions that are as TLS says

theorem u16_eq (value : Nat) : u16 value = lengthField 2 value := rfl

theorem length_u16 (value : Nat) : (u16 value).length = 2 := rfl

theorem length_ext (type : Nat) (payload : Bytes) :
    (ext type payload).length = 4 + payload.length := by
  simp only [ext, length_append, length_u16]

variable {type i j : Nat}

theorem typeOf_ext (h : type < 65536) (payload : Bytes) :
    typeOf (ext type payload) = type := bytes16_value h

theorem length_flatMap_u16 (values : List Nat) :
    (values.flatMap u16).length = values.length * 2 := by
  induction values with
  | nil => rfl
  | cons value values ih =>
    rw [flatMap_cons, length_append, ih, length_u16, length_cons]
    omega

section Extensions

variable (publicKey : Bytes) (serverName : Text)

/-- The payload of a server_name extension. -/
def sniPayload : Bytes :=
  u16 ((utf8 serverName).length + 3) ++ [0x00] ++ u16 (utf8 serverName).length ++ utf8 serverName

/-- An extension whose payload is as TLS says, if its length fits; a server_name names the
server, and a key_share has one share for X25519. -/
structure Extension.Ok (e : Extension) : Prop where
  type_lt : e.type < 65536
  payload : e.payload.length < 65536 → payloadFormat e.type e.payload
  name : e.type = 0x0000 → e.payload = sniPayload serverName
  share : e.type = 0x0033 → ∃ shares, OneX25519 publicKey shares ∧
    (e.payload.length < 65536 → keyShares shares e.payload)

def Ok (type : Nat) (bytes : Bytes) : Prop :=
  ∃ payload, bytes = ext type payload ∧ (Extension.mk type payload).Ok publicKey serverName

variable {publicKey serverName}

/-- An extension that is neither a server_name nor a key_share. -/
theorem ok_ext {payload : Bytes} (htype : type < 65536) (hname : type ≠ 0x0000)
    (hshare : type ≠ 0x0033) (h : payload.length < 65536 → payloadFormat type payload) :
    Ok publicKey serverName type (ext type payload) :=
  ⟨payload, rfl, htype, h, fun he => absurd he hname, fun he => absurd he hshare⟩

theorem ok_sni : Ok publicKey serverName 0x0000 (buildSNIExtension serverName) := by
  refine ⟨sniPayload serverName, rfl, by norm_num, fun hlen => ?_, fun _ => rfl, nofun⟩
  have hname : (utf8 serverName).length < 256 ^ 2 := by
    simp only [sniPayload, length_append, length_u16] at hlen
    omega
  have hlist : ([0x00] ++ (u16 (utf8 serverName).length ++ utf8 serverName)).length =
      (utf8 serverName).length + 3 := by
    simp only [length_append, length_u16, length_singleton]
    omega
  have hpayload : sniPayload serverName = lengthField 2
      ([0x00] ++ (u16 (utf8 serverName).length ++ utf8 serverName)).length ++
        ([0x00] ++ (u16 (utf8 serverName).length ++ utf8 serverName)) := by
    rw [hlist, ← u16_eq, sniPayload]
    simp only [append_assoc]
  rw [payloadFormat, if_pos rfl, hpayload]
  refine vec_intro ?_ (many_one (seq_intro rfl (vec_intro hname trivial)))
  simp only [sniPayload, length_append, length_u16] at hlen
  omega

theorem ok_statusRequest : Ok publicKey serverName 0x0005 statusRequestExt :=
  ok_ext (by decide) (by decide) (by decide) fun _ =>
    ⟨[0x01], [0x00, 0x00] ++ [0x00, 0x00], rfl, rfl, seq_intro
      (vec_intro (a := []) (by decide) trivial) (vec_intro (a := []) (by decide) trivial)⟩

/-- A list of numbers behind its length in two bytes. -/
theorem ok_u16List (htype : type ∈ [0x000A, 0x000D, 0x0022]) (values : List Nat) :
    Ok publicKey serverName type (u16ListExt type values) := by
  have hformat : ∀ type ∈ [0x000A, 0x000D, 0x0022], type < 65536 ∧ type ≠ 0x0000 ∧
      type ≠ 0x0033 ∧ type ≠ 0x0005 := by decide
  obtain ⟨hlt, hname, hshare, hstatus⟩ := hformat type htype
  refine ok_ext hlt hname hshare fun hlen => ?_
  rw [payloadFormat, if_neg hname, if_neg hstatus, if_pos htype, ← length_flatMap_u16, u16_eq]
  rw [length_append, length_u16] at hlen
  refine vec_intro (by omega) (many_flatMap fun value _ => length_u16 value)

theorem ok_shortList (htype : type ∈ [0x001B, 0x002B]) {values : List Nat}
    (hlen : values.length < 128) : Ok publicKey serverName type (shortListExt type values) := by
  have hformat : ∀ type ∈ [0x001B, 0x002B], type < 65536 ∧ type ≠ 0x0000 ∧
      type ≠ 0x0033 ∧ type ≠ 0x0005 ∧ type ∉ [0x000A, 0x000D, 0x0022] ∧
        type ∉ [0x000B, 0x002D, 0xFF01] ∧ type ∉ [0x0010, 0x4469, 0x44CD] := by decide
  obtain ⟨hlt, hname, hshare, hstatus, hlist, hshort, hprotocols⟩ := hformat type htype
  refine ok_ext hlt hname hshare fun _ => ?_
  rw [payloadFormat, if_neg hname, if_neg hstatus, if_neg hlist, if_neg hshort, if_neg hprotocols,
    if_pos htype, ← length_flatMap_u16]
  refine vec_intro (a := values.flatMap u16) ?_ (many_flatMap fun value _ => length_u16 value)
  rw [length_flatMap_u16]
  omega

theorem ok_protocols (htype : type ∈ [0x0010, 0x4469, 0x44CD]) {protocols : List Text}
    (hfits : ∀ proto ∈ protocols, (utf8 proto).length ≤ 255) :
    Ok publicKey serverName type (protocolsExt type protocols) := by
  have hformat : ∀ type ∈ [0x0010, 0x4469, 0x44CD], type < 65536 ∧ type ≠ 0x0000 ∧
      type ≠ 0x0033 ∧ type ≠ 0x0005 ∧ type ∉ [0x000A, 0x000D, 0x0022] ∧
        type ∉ [0x000B, 0x002D, 0xFF01] := by decide
  obtain ⟨hlt, hname, hshare, hstatus, hlist, hshort⟩ := hformat type htype
  refine ok_ext hlt hname hshare fun hlen => ?_
  rw [payloadFormat, if_neg hname, if_neg hstatus, if_neg hlist, if_neg hshort, if_pos htype]
  rw [length_append, length_u16] at hlen
  refine vec_intro (by omega) (many_flatMap fun proto hproto => ?_)
  have hone := hfits proto hproto
  exact vec_intro (a := utf8 proto) (by omega) trivial

theorem ok_short (htype : type ∈ [0x000B, 0x002D, 0xFF01]) (body : Bytes)
    (hlen : body.length < 256) :
    Ok publicKey serverName type (ext type (UInt8.ofNat body.length :: body)) := by
  have hformat : ∀ type ∈ [0x000B, 0x002D, 0xFF01], type < 65536 ∧ type ≠ 0x0000 ∧
      type ≠ 0x0033 ∧ type ≠ 0x0005 ∧ type ∉ [0x000A, 0x000D, 0x0022] := by decide
  obtain ⟨hlt, hname, hshare, hstatus, hlist⟩ := hformat type htype
  refine ok_ext hlt hname hshare fun _ => ?_
  rw [payloadFormat, if_neg hname, if_neg hstatus, if_neg hlist, if_pos htype]
  exact vec_intro (a := body) (by omega) trivial

theorem ok_supportedGroups (groups : List Nat) :
    Ok publicKey serverName 0x000A (supportedGroupsExt groups) := ok_u16List (by decide) groups

theorem ok_signatureAlgorithms (algs : List Nat) :
    Ok publicKey serverName 0x000D (signatureAlgorithmsExt algs) := ok_u16List (by decide) algs

theorem ok_delegatedCredentials (algs : List Nat) :
    Ok publicKey serverName 0x0022 (delegatedCredentialsExt algs) := ok_u16List (by decide) algs

theorem ok_ecPointFormats : Ok publicKey serverName 0x000B ecPointFormatsExt :=
  ok_short (by decide) [0x00] (by decide)

theorem ok_pskKeyExchangeModes : Ok publicKey serverName 0x002D pskKeyExchangeModesExt :=
  ok_short (by decide) [0x01] (by decide)

theorem ok_renegotiationInfo : Ok publicKey serverName 0xFF01 renegotiationInfoExt :=
  ok_short (by decide) [] (by decide)

theorem ok_recordSizeLimit (limit : Nat) :
    Ok publicKey serverName 0x001C (recordSizeLimitExt limit) :=
  ok_ext (by decide) (by decide) (by decide) fun _ => length_u16 limit

/-- An extension whose type TLS gives no vectors. -/
theorem ok_plain (htype : type < 65536)
    (hplain : type ∉ [0x0000, 0x0005, 0x000A, 0x000D, 0x0022, 0x000B, 0x002D, 0xFF01,
      0x0010, 0x4469, 0x44CD, 0x001B, 0x002B, 0x001C, 0x0033, 0xFE0D]) (payload : Bytes) :
    Ok publicKey serverName type (ext type payload) := by
  simp only [mem_cons, not_mem_nil, or_false, not_or] at hplain
  refine ok_ext htype hplain.1 (by tauto) fun _ => ?_
  rw [payloadFormat]
  simp [hplain, Any]

theorem ok_sct : Ok publicKey serverName 0x0012 sctExt := ok_plain (by norm_num) (by decide) []

theorem ok_padding (length : Nat) : Ok publicKey serverName 0x0015 (paddingExt length) :=
  ok_plain (by norm_num) (by decide) _

theorem ok_extendedMasterSecret : Ok publicKey serverName 0x0017 extendedMasterSecretExt :=
  ok_plain (by norm_num) (by decide) []

theorem ok_sessionTicket : Ok publicKey serverName 0x0023 sessionTicketExt :=
  ok_plain (by norm_num) (by decide) []

theorem ok_npn : Ok publicKey serverName 0x3374 npnExt := ok_plain (by norm_num) (by decide) []

theorem ok_fakeChannelIDOld : Ok publicKey serverName 0x754F fakeChannelIDOldExt :=
  ok_plain (by norm_num) (by decide) []

theorem ok_grease {value : Nat} (h : isGREASE value = true ∧ value < 65536) :
    Ok publicKey serverName value (greaseExt value) := by
  refine ok_plain h.2 (fun hmem => ?_) []
  have hfixed : ∀ type ∈ [0x0000, 0x0005, 0x000A, 0x000D, 0x0022, 0x000B, 0x002D, 0xFF01, 0x0010,
      0x4469, 0x44CD, 0x001B, 0x002B, 0x001C, 0x0033, 0xFE0D], isGREASE type = false := by decide
  rw [hfixed value hmem] at h
  cases h.1

theorem ok_keyShare {shares : List (Nat × Bytes)} (hshares : OneX25519 publicKey shares) :
    Ok publicKey serverName 0x0033 (keyShareExt shares) := by
  have hentry : ∀ (shares : List (Nat × Bytes)) share, share ∈ shares → share.2.length ≤
      (shares.flatMap fun entry => u16 entry.1 ++ u16 entry.2.length ++ entry.2).length := by
    intro shares share hshare
    obtain ⟨before, after, rfl⟩ := append_of_mem hshare
    simp only [flatMap_append, flatMap_cons, length_append]
    omega
  refine ⟨_, rfl, by norm_num, fun hlen => ?_, nofun, fun _ => ⟨shares, hshares, fun hlen => ?_⟩⟩
  · rw [length_append, length_u16] at hlen
    show Vec 2 (Many (Seq (Exactly 2) (Vec 2 Any))) _
    refine vec_intro (by omega) (many_flatMap fun share hshare => ?_)
    have hone := hentry shares share hshare
    rw [append_assoc]
    exact seq_intro (length_u16 _) (vec_intro (by omega) trivial)
  · rw [length_append, length_u16] at hlen
    refine vec_intro (by omega) (each_map fun share hshare => ?_)
    have hone := hentry shares share hshare
    rw [append_assoc]
    exact seq_intro rfl (vec_intro (by omega) rfl)

theorem length_derivePRLoop (platform : Platform) (random label : Bytes) (length : Nat)
    (result : Bytes) (counter : UInt8) (h : result.length ≤ length) :
    (derivePRLoop platform random label length result counter).length = length := by
  induction result, counter using derivePRLoop.induct platform random label length with
  | case1 result counter hlt hash toCopy ih =>
    rw [derivePRLoop, dif_pos hlt]
    refine ih ?_
    rw [length_append, length_take]
    omega
  | case2 result counter hlt =>
    rw [derivePRLoop, dif_neg hlt]
    omega

theorem length_derivePRBytes (platform : Platform) (random : Bytes) (label : Text) (length : Nat) :
    (derivePRBytes platform random label length).length = length :=
  length_derivePRLoop platform random _ length [] 0 (Nat.zero_le _)

theorem ok_greaseECH (platform : Platform) (random : Bytes) {kdfId aeadId payloadLen : Nat}
    (hlen : payloadLen < 65536) :
    Ok publicKey serverName 0xFE0D (greaseECHExt platform random kdfId aeadId payloadLen) := by
  refine ok_ext (by decide) (by decide) (by decide) fun _ => ?_
  show Seq (Exactly 6) (Seq (Vec 2 Any) (Vec 2 Any)) _
  have hsplit : ∀ a b c d e : Bytes, a ++ b ++ c ++ d ++ e = a ++ ((b ++ c) ++ (d ++ e)) := by simp
  rw [hsplit]
  refine seq_intro rfl (seq_intro (vec_intro ?_ trivial) (vec_intro ?_ trivial))
  · rw [length_derivePRBytes]
    norm_num
  · rw [length_derivePRBytes]
    exact hlen

end Extensions

-- ----
-- The shuffle

variable {exts : List Bytes}

section Shuffle

theorem swap_perm (hi : i < exts.length) (hj : j < exts.length) :
    (swap exts i j).Perm exts := by
  rw [swap, getD_eq_getElem _ _ hi, getD_eq_getElem _ _ hj]
  exact set_set_perm hi hj

theorem swap_getElem? {k : Nat} (hi : k ≠ i) (hj : k ≠ j) :
    (swap exts i j)[k]? = exts[k]? := by
  rw [swap, List.getElem?_set_ne hj.symm, List.getElem?_set_ne hi.symm]

/-- The same elements, and each index outside of these has its own. -/
def ShuffledAt (indices : List Nat) (exts shuffled : List Bytes) : Prop :=
  shuffled.Perm exts ∧ ∀ k, k ∉ indices → shuffled[k]? = exts[k]?

theorem shuffledAt_swap {indices : List Nat}
    (hindices : ∀ k ∈ indices, k < exts.length) (hi : i ∈ indices) (hj : j ∈ indices) :
    ShuffledAt indices exts (swap exts i j) :=
  ⟨swap_perm (hindices i hi) (hindices j hj), fun _ hk =>
    swap_getElem? (fun h => hk (h ▸ hi)) fun h => hk (h ▸ hj)⟩

theorem getD_mem_of_lt {l : List Nat} {n : Nat} (h : n < l.length) : l.getD n 0 ∈ l := by
  rw [getD_eq_getElem _ _ h]
  exact getElem_mem h

theorem shuffledAt_round {shuffleable : List Nat} {state : UInt64 × List Bytes}
    (hi : i < shuffleable.length) (hindices : ∀ k ∈ shuffleable, k < state.2.length) :
    ShuffledAt shuffleable state.2 (shuffleRound shuffleable state i).2 := by
  rw [shuffleRound]
  have hj : (nextSeed state.1 >>> 33).toNat % (i + 1) < i + 1 := Nat.mod_lt _ (Nat.succ_pos _)
  generalize (nextSeed state.1 >>> 33).toNat % (i + 1) = j at hj ⊢
  split_ifs with hother
  · exact shuffledAt_swap hindices (getD_mem_of_lt hi) (getD_mem_of_lt (by omega))
  · exact ⟨.refl _, fun _ _ => rfl⟩

theorem shuffledAt_rounds (shuffleable rounds : List Nat) (state : UInt64 × List Bytes)
    (hrounds : ∀ i ∈ rounds, i < shuffleable.length)
    (hindices : ∀ k ∈ shuffleable, k < state.2.length) :
    ShuffledAt shuffleable state.2 (rounds.foldl (shuffleRound shuffleable) state).2 := by
  induction rounds generalizing state with
  | nil => exact ⟨.refl _, fun _ _ => rfl⟩
  | cons i rounds ih =>
    have hround := shuffledAt_round (hrounds i (by simp)) hindices
    rw [foldl_cons]
    obtain ⟨hperm, hkept⟩ := ih (shuffleRound shuffleable state i)
      (fun k hk => hrounds k (by simp [hk])) fun k hk => by
        rw [hround.1.length_eq]
        exact hindices k hk
    exact ⟨hperm.trans hround.1, fun k hk => (hkept k hk).trans (hround.2 k hk)⟩

/-- The shuffle is a permutation that leaves GREASE and padding where they are. -/
theorem shuffle_spec (exts : List Bytes) (random : Bytes) :
    (shuffleChromeExtensions exts random).Perm exts ∧
      ∀ i, isFixed (exts.getD i []) = true →
        (shuffleChromeExtensions exts random)[i]? = exts[i]? := by
  rw [shuffleChromeExtensions]
  split_ifs with hfew
  · exact ⟨.refl _, fun _ _ => rfl⟩
  · generalize hshuffleable : (List.range exts.length).filter (fun i => !isFixed (exts.getD i [])) =
      shuffleable at hfew ⊢
    have hspec := shuffledAt_rounds shuffleable (List.range' 1 (shuffleable.length - 1)).reverse
      (shuffleSeed random, exts) ?_ ?_
    · refine ⟨hspec.1, fun i hi => hspec.2 i fun hmem => ?_⟩
      rw [← hshuffleable, mem_filter, hi] at hmem
      exact absurd hmem.2 nofun
    · intro i hi
      rw [mem_reverse, mem_range'_1] at hi
      omega
    · intro k hk
      rw [← hshuffleable] at hk
      exact mem_range.mp (mem_filter.mp hk).1

end Shuffle

-- ----
-- The extensions of a fingerprint

section Good

variable {publicKey : Bytes} {serverName : Text}

variable (publicKey serverName) in
/-- Extensions as TLS says, of different types, with a server_name. -/
structure Good (exts : List Bytes) : Prop where
  ok : ∀ e ∈ exts, Ok publicKey serverName (typeOf e) e
  nodup : (exts.map typeOf).Nodup
  name : 0x0000 ∈ exts.map typeOf

variable (publicKey serverName) in
/-- The parts of a hello: such extensions without padding, and a list of cipher suites. -/
def GoodParts (parts : FingerprintParts) : Prop :=
  ∃ exts suites, parts.extensions = concatenateArrays exts ∧
    parts.cipherSuites = cipherSuitesData suites ∧ Good publicKey serverName exts ∧
    0x0015 ∉ exts.map typeOf

theorem Ok.typeOf_eq {e : Bytes} (h : Ok publicKey serverName type e) :
    typeOf e = type := by
  obtain ⟨payload, rfl, hok⟩ := h
  exact typeOf_ext hok.type_lt payload

theorem Good.perm {shuffled : List Bytes} (h : Good publicKey serverName exts)
    (hperm : shuffled.Perm exts) : Good publicKey serverName shuffled where
  ok e he := h.ok e (hperm.mem_iff.mp he)
  nodup := (hperm.map typeOf).nodup_iff.mpr h.nodup
  name := (hperm.map typeOf).mem_iff.mpr h.name

/-- The extensions of a fingerprint without GREASE, by their types. -/
theorem good_of_types (types : List Nat)
    (hok : List.Forall₂ (Ok publicKey serverName) types exts) (hnodup : types.Nodup)
    (hname : 0x0000 ∈ types) (hpadding : 0x0015 ∉ types) :
    Good publicKey serverName exts ∧ 0x0015 ∉ exts.map typeOf := by
  have htypes : exts.map typeOf = types ∧ ∀ e ∈ exts, Ok publicKey serverName (typeOf e) e := by
    clear hnodup hname hpadding
    induction hok with
    | nil => simp
    | cons hone _ ih =>
      have heq := hone.typeOf_eq
      refine ⟨by rw [map_cons, heq, ih.1], forall_mem_cons.mpr ⟨?_, ih.2⟩⟩
      rw [heq]
      exact hone
  obtain ⟨rfl, hall⟩ := htypes
  exact ⟨⟨hall, hnodup, hname⟩, hpadding⟩

/-- The extensions of a fingerprint between its two GREASE extensions, by their types. -/
theorem good_of_greased (hg : Greased g) (types : List Nat)
    (hok : List.Forall₂ (Ok publicKey serverName) (g.gExt1 :: (types ++ [g.gExt2])) exts)
    (hfixed : ∀ type ∈ types, isGREASE type = false) (hnodup : types.Nodup)
    (hname : 0x0000 ∈ types) (hpadding : 0x0015 ∉ types) :
    Good publicKey serverName exts ∧ 0x0015 ∉ exts.map typeOf := by
  refine good_of_types _ hok (hg.nodup hfixed hnodup) (by simp [hname]) ?_
  have hnot : ∀ value, isGREASE value = true → 0x0015 ≠ value := by
    rintro value hvalue rfl
    cases hvalue
  simp [hpadding, hnot _ hg.ext1.1, hnot _ hg.ext2.1]

theorem oneX25519_greased (hg : Greased g) :
    OneX25519 publicKey [(g.gGroup, [0x00]), (0x001D, publicKey)] := by
  refine ⟨?_, ?_⟩
  · simp [hg.group.2]
  · simp [hg.group_ne]

theorem oneX25519_p256 (p256PublicKey : Bytes) :
    OneX25519 publicKey [(0x001D, publicKey), (0x0017, p256PublicKey)] := by
  simp [OneX25519]

theorem oneX25519_greasedShares (hg : Greased g) (hybrid : Option Bytes)
    (curves : List Nat) :
    OneX25519 publicKey (greasedShares publicKey g.gGroup hybrid curves).2 := by
  cases hybrid with
  | none => exact oneX25519_greased hg
  | some hybrid => simp [greasedShares, OneX25519, hg.group.2, hg.group_ne]

theorem oneX25519_firefoxShares (hybrid : Option Bytes) (p256PublicKey : Bytes) :
    OneX25519 publicKey (firefoxShares publicKey hybrid p256PublicKey).2 := by
  cases hybrid <;> simp [firefoxShares, OneX25519]

end Good

-- ----
-- The fingerprints

section Fingerprints

variable {platform : Platform} {random : Bytes} {serverName : Text} {publicKey : Bytes}
  {alpn : Option (List Text)} {omitPQKeyShares : Bool} {mlkemEncapsulationKey : Option Bytes}

theorem echPayloadLen_lt (random : Bytes) : echPayloadLen random < 65536 := by
  have hall : ∀ i < 4, [144, 176, 208, 240].getD i 0 < 65536 := by decide
  exact hall _ (Nat.mod_lt _ (by norm_num))

theorem fits_h2 : ∀ proto ∈ [h2], (utf8 proto).length ≤ 255 := by decide

theorem goodParts_shuffled {shuffled : List Bytes} {suites : List Nat} {needsPadding : Bool}
    (hperm : shuffled.Perm exts)
    (h : Good publicKey serverName exts ∧ 0x0015 ∉ exts.map typeOf) :
    GoodParts publicKey serverName
      ⟨cipherSuitesData suites, concatenateArrays shuffled, needsPadding⟩ :=
  ⟨shuffled, suites, rfl, rfl, h.1.perm hperm, fun hmem =>
    h.2 ((hperm.map typeOf).mem_iff.mp hmem)⟩

theorem good_android11 : GoodParts publicKey serverName (buildAndroid11 serverName) := by
  refine ⟨_, _, rfl, rfl, good_of_types
    [0x0000, 0x0017, 0xFF01, 0x000A, 0x000B, 0x0005, 0x000D] ?_ (by decide)
    (by decide) (by decide)⟩
  simp only [forall₂_cons]
  exact ⟨ok_sni, ok_extendedMasterSecret, ok_renegotiationInfo, ok_supportedGroups _,
    ok_ecPointFormats, ok_statusRequest, ok_signatureAlgorithms _, .nil⟩

theorem good_browser360 : GoodParts publicKey serverName (buildBrowser360 serverName) := by
  refine ⟨_, _, rfl, rfl, good_of_types
    [0x0000, 0xFF01, 0x000A, 0x000B, 0x0023, 0x3374, 0x0010, 0x754F, 0x0005, 0x000D] ?_ (by decide)
    (by decide) (by decide)⟩
  simp only [forall₂_cons]
  exact ⟨ok_sni, ok_renegotiationInfo, ok_supportedGroups _, ok_ecPointFormats, ok_sessionTicket,
    ok_npn, ok_protocols (by decide) (by decide), ok_fakeChannelIDOld, ok_statusRequest,
    ok_signatureAlgorithms _, .nil⟩

section Alpn

variable (halpn : ∀ proto ∈ alpn.getD [h2, http11], (utf8 proto).length ≤ 255)

include halpn

theorem good_chrome133 : GoodParts publicKey serverName
    (buildChrome133 platform random serverName publicKey alpn omitPQKeyShares
      mlkemEncapsulationKey) := by
  have hg := greased random
  obtain ⟨hperm, -⟩ := shuffle_spec _ random
  refine goodParts_shuffled hperm ?_
  refine good_of_greased hg
    [0x0000, 0x0017, 0xFF01, 0x000A, 0x000B, 0x0023, 0x0010, 0x0005, 0x000D, 0x0012, 0x0033, 0x002D,
      0x002B, 0x001B, 0x44CD, 0xFE0D] ?_ (by decide) (by decide)
    (by decide) (by decide)
  simp only [cons_append, nil_append, forall₂_cons]
  exact ⟨ok_grease hg.ext1, ok_sni, ok_extendedMasterSecret, ok_renegotiationInfo,
    ok_supportedGroups _, ok_ecPointFormats, ok_sessionTicket, ok_protocols (by decide) halpn,
    ok_statusRequest, ok_signatureAlgorithms _, ok_sct,
    ok_keyShare (oneX25519_greasedShares hg _ _), ok_pskKeyExchangeModes,
    ok_shortList (by decide) (by simp), ok_shortList (by decide) (by simp),
    ok_protocols (by decide) fits_h2, ok_greaseECH platform random (echPayloadLen_lt random),
    ok_grease hg.ext2, .nil⟩

theorem good_firefox148 : GoodParts publicKey serverName
    (buildFirefox148 platform random serverName publicKey alpn omitPQKeyShares
      mlkemEncapsulationKey) := by
  refine ⟨_, _, rfl, rfl, good_of_types
    [0x0000, 0x0017, 0xFF01, 0x000A, 0x000B, 0x0010, 0x0005, 0x0022, 0x0012, 0x0033,
      0x002B, 0x000D, 0x002D, 0x001C, 0x001B, 0xFE0D] ?_ (by decide)
    (by decide) (by decide)⟩
  simp only [forall₂_cons]
  exact ⟨ok_sni, ok_extendedMasterSecret, ok_renegotiationInfo, ok_supportedGroups _,
    ok_ecPointFormats, ok_protocols (by decide) halpn, ok_statusRequest, ok_delegatedCredentials _,
    ok_sct, ok_keyShare (oneX25519_firefoxShares _ _), ok_shortList (by decide) (by simp),
    ok_signatureAlgorithms _, ok_pskKeyExchangeModes, ok_recordSizeLimit _,
    ok_shortList (by decide) (by simp), ok_greaseECH platform random (by norm_num), .nil⟩

theorem good_safari26 : GoodParts publicKey serverName
    (buildSafari26 random serverName publicKey alpn omitPQKeyShares mlkemEncapsulationKey) := by
  have hg := greased random
  refine ⟨_, _, rfl, rfl, good_of_greased hg
    [0x0000, 0x0017, 0xFF01, 0x000A, 0x000B, 0x0010, 0x0005, 0x000D, 0x0012, 0x0033, 0x002D, 0x002B,
      0x001B] ?_ (by decide) (by decide)
    (by decide) (by decide)⟩
  simp only [cons_append, nil_append, forall₂_cons]
  exact ⟨ok_grease hg.ext1, ok_sni, ok_extendedMasterSecret, ok_renegotiationInfo,
    ok_supportedGroups _, ok_ecPointFormats, ok_protocols (by decide) halpn, ok_statusRequest,
    ok_signatureAlgorithms _, ok_sct, ok_keyShare (oneX25519_greasedShares hg _ _),
    ok_pskKeyExchangeModes, ok_shortList (by decide) (by simp), ok_shortList (by decide) (by simp),
    ok_grease hg.ext2, .nil⟩

theorem good_edge85 : GoodParts publicKey serverName
    (buildEdge85 random serverName publicKey alpn) := by
  have hg := greased random
  refine ⟨_, _, rfl, rfl, good_of_greased hg
    [0x0000, 0x0017, 0xFF01, 0x000A, 0x000B, 0x0023, 0x0010, 0x0005, 0x000D, 0x0012, 0x0033, 0x002D,
      0x002B, 0x001B] ?_ (by decide) (by decide)
    (by decide) (by decide)⟩
  simp only [cons_append, nil_append, forall₂_cons]
  exact ⟨ok_grease hg.ext1, ok_sni, ok_extendedMasterSecret, ok_renegotiationInfo,
    ok_supportedGroups _, ok_ecPointFormats, ok_sessionTicket, ok_protocols (by decide) halpn,
    ok_statusRequest, ok_signatureAlgorithms _, ok_sct, ok_keyShare (oneX25519_greased hg),
    ok_pskKeyExchangeModes, ok_shortList (by decide) (by simp), ok_shortList (by decide) (by simp),
    ok_grease hg.ext2, .nil⟩

theorem good_qq11 : GoodParts publicKey serverName
    (buildQQ11 random serverName publicKey alpn) := by
  have hg := greased random
  refine ⟨_, _, rfl, rfl, good_of_greased hg
    [0x0000, 0x0017, 0xFF01, 0x000A, 0x000B, 0x0023, 0x0010, 0x0005, 0x000D, 0x0012, 0x0033, 0x002D,
      0x002B, 0x001B, 0x4469] ?_ (by decide) (by decide)
    (by decide) (by decide)⟩
  simp only [cons_append, nil_append, forall₂_cons]
  exact ⟨ok_grease hg.ext1, ok_sni, ok_extendedMasterSecret, ok_renegotiationInfo,
    ok_supportedGroups _, ok_ecPointFormats, ok_sessionTicket, ok_protocols (by decide) halpn,
    ok_statusRequest, ok_signatureAlgorithms _, ok_sct, ok_keyShare (oneX25519_greased hg),
    ok_pskKeyExchangeModes, ok_shortList (by decide) (by simp), ok_shortList (by decide) (by simp),
    ok_protocols (by decide) fits_h2, ok_grease hg.ext2, .nil⟩

theorem good_chrome120 : GoodParts publicKey serverName
    (buildChrome120 platform random serverName publicKey alpn) := by
  have hg := greased random
  obtain ⟨hperm, -⟩ := shuffle_spec _ random
  refine goodParts_shuffled hperm ?_
  refine good_of_greased hg
    [0x0000, 0x0017, 0xFF01, 0x000A, 0x000B, 0x0023, 0x0010, 0x0005, 0x000D, 0x0012, 0x0033, 0x002D,
      0x002B, 0x001B, 0x4469, 0xFE0D] ?_ (by decide) (by decide)
    (by decide) (by decide)
  simp only [cons_append, nil_append, forall₂_cons]
  exact ⟨ok_grease hg.ext1, ok_sni, ok_extendedMasterSecret, ok_renegotiationInfo,
    ok_supportedGroups _, ok_ecPointFormats, ok_sessionTicket, ok_protocols (by decide) halpn,
    ok_statusRequest, ok_signatureAlgorithms _, ok_sct, ok_keyShare (oneX25519_greased hg),
    ok_pskKeyExchangeModes, ok_shortList (by decide) (by simp), ok_shortList (by decide) (by simp),
    ok_protocols (by decide) fits_h2, ok_greaseECH platform random (echPayloadLen_lt random),
    ok_grease hg.ext2, .nil⟩

theorem good_firefox120 : GoodParts publicKey serverName
    (buildFirefox120 platform random serverName publicKey alpn) := by
  refine ⟨_, _, rfl, rfl, good_of_types
    [0x0000, 0x0017, 0xFF01, 0x000A, 0x000B, 0x0023, 0x0010, 0x0005, 0x0022, 0x0033,
      0x002B, 0x000D, 0x002D, 0x001C, 0xFE0D] ?_ (by decide)
    (by decide) (by decide)⟩
  simp only [forall₂_cons]
  exact ⟨ok_sni, ok_extendedMasterSecret, ok_renegotiationInfo, ok_supportedGroups _,
    ok_ecPointFormats, ok_sessionTicket, ok_protocols (by decide) halpn, ok_statusRequest,
    ok_delegatedCredentials _, ok_keyShare (oneX25519_p256 _), ok_shortList (by decide) (by simp),
    ok_signatureAlgorithms _, ok_pskKeyExchangeModes, ok_recordSizeLimit _,
    ok_greaseECH platform random (by norm_num), .nil⟩

theorem good_safari16 : GoodParts publicKey serverName
    (buildSafari16 random serverName publicKey alpn) := by
  have hg := greased random
  refine ⟨_, _, rfl, rfl, good_of_greased hg
    [0x0000, 0x0017, 0xFF01, 0x000A, 0x000B, 0x0010, 0x0005, 0x000D, 0x0012, 0x0033, 0x002D, 0x002B,
      0x001B] ?_ (by decide) (by decide)
    (by decide) (by decide)⟩
  simp only [cons_append, nil_append, forall₂_cons]
  exact ⟨ok_grease hg.ext1, ok_sni, ok_extendedMasterSecret, ok_renegotiationInfo,
    ok_supportedGroups _, ok_ecPointFormats, ok_protocols (by decide) halpn, ok_statusRequest,
    ok_signatureAlgorithms _, ok_sct, ok_keyShare (oneX25519_greased hg), ok_pskKeyExchangeModes,
    ok_shortList (by decide) (by simp), ok_shortList (by decide) (by simp), ok_grease hg.ext2, .nil⟩

theorem good_ios14 : GoodParts publicKey serverName
    (buildIOS14 random serverName publicKey alpn) := by
  have hg := greased random
  refine ⟨_, _, rfl, rfl, good_of_greased hg
    [0x0000, 0x0017, 0xFF01, 0x000A, 0x000B, 0x0010, 0x0005, 0x000D, 0x0012, 0x0033, 0x002D,
      0x002B] ?_ (by decide) (by decide)
    (by decide) (by decide)⟩
  simp only [cons_append, nil_append, forall₂_cons]
  exact ⟨ok_grease hg.ext1, ok_sni, ok_extendedMasterSecret, ok_renegotiationInfo,
    ok_supportedGroups _, ok_ecPointFormats, ok_protocols (by decide) halpn, ok_statusRequest,
    ok_signatureAlgorithms _, ok_sct, ok_keyShare (oneX25519_greased hg), ok_pskKeyExchangeModes,
    ok_shortList (by decide) (by simp), ok_grease hg.ext2, .nil⟩

theorem good_edge106 : GoodParts publicKey serverName
    (buildEdge106 random serverName publicKey alpn) := by
  have hg := greased random
  refine ⟨_, _, rfl, rfl, good_of_greased hg
    [0x0000, 0x0017, 0xFF01, 0x000A, 0x000B, 0x0023, 0x0010, 0x0005, 0x000D, 0x0012, 0x0033, 0x002D,
      0x002B, 0x001B, 0x4469] ?_ (by decide) (by decide)
    (by decide) (by decide)⟩
  simp only [cons_append, nil_append, forall₂_cons]
  exact ⟨ok_grease hg.ext1, ok_sni, ok_extendedMasterSecret, ok_renegotiationInfo,
    ok_supportedGroups _, ok_ecPointFormats, ok_sessionTicket, ok_protocols (by decide) halpn,
    ok_statusRequest, ok_signatureAlgorithms _, ok_sct, ok_keyShare (oneX25519_greased hg),
    ok_pskKeyExchangeModes, ok_shortList (by decide) (by simp), ok_shortList (by decide) (by simp),
    ok_protocols (by decide) fits_h2, ok_grease hg.ext2, .nil⟩

/-- The extensions of every fingerprint. -/
theorem good_parts {fingerprint : TlsFingerprint} (h : fingerprint ≠ .random) :
    ∃ parts, buildFingerprintedParts platform random serverName publicKey alpn omitPQKeyShares
        mlkemEncapsulationKey fingerprint = some parts ∧ GoodParts publicKey serverName parts := by
  cases fingerprint with
  | chrome133 => exact ⟨_, rfl, good_chrome133 halpn⟩
  | firefox148 => exact ⟨_, rfl, good_firefox148 halpn⟩
  | safari26 => exact ⟨_, rfl, good_safari26 halpn⟩
  | ios14 => exact ⟨_, rfl, good_ios14 halpn⟩
  | edge85 => exact ⟨_, rfl, good_edge85 halpn⟩
  | android11 => exact ⟨_, rfl, good_android11⟩
  | qq11 => exact ⟨_, rfl, good_qq11 halpn⟩
  | browser360 => exact ⟨_, rfl, good_browser360⟩
  | chrome120 => exact ⟨_, rfl, good_chrome120 halpn⟩
  | firefox120 => exact ⟨_, rfl, good_firefox120 halpn⟩
  | safari16 => exact ⟨_, rfl, good_safari16 halpn⟩
  | edge106 => exact ⟨_, rfl, good_edge106 halpn⟩
  | random => exact absurd rfl h

end Alpn

end Fingerprints

end Anywhere.Tls.TlsClientHelloBuilder
