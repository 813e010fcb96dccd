import Anywhere.Reality.Client
import Anywhere.Tls.HelloCursor

/-!
# Anywhere — the two ServerHello parsers

`RealityClient.parseServerHello` asks `PacketUtil.parseServerHello` first, and looks for both
groups with a loop of its own where that finds nothing. Both loops stop at the first share that
they accept. They differ behind a key_share of another group: the loop of `RealityClient` goes on
behind the extension, the one of `PacketUtil` four bytes further on. Neither compares a share with
its extension, and both compare the block with the array only.

* `Agrees` — what is asked for: shares come from a key_share of the message, and are the ones of a
  well-formed ServerHello.
* `WellPlaced` — what has to be so for it.
* `serverHello_parsers_agree_iff` — the one is the other.
* `hello_misleads` — behind another group, and with a share longer than its extension, it need not.
-/

namespace Anywhere.Reality

open Lib Tls List
open Tls.PacketUtil.Indexed (x25519 findShare findX25519 HelloAt Visits ReadsAsShare SameTurns
  suiteBytes shareOf findShare_reads sameTurns_parseExtensions)

-- ----
-- The parser

/-- The shares that `parseServerHelloKotlin` accepts. -/
def supported (group keyLen : Nat) : Bool :=
  x25519 group keyLen || (group == 0x11EC && keyLen == 1120)

namespace Indexed

/-- The copy of a share that was found, with the cipher suite. -/
def copyShare (data : Bytes) : Option (HelloBlock × Nat × Nat) →
    Except OutOfBounds (Option (Bytes × Nat))
  | none => .ok none
  | some (hello, sh, keyLen) => do
    let keyShare ← readBytes data sh keyLen
    .ok (some (keyShare, hello.cipherSuite))

/-- The search of `parseServerHelloKotlin`: the next extension begins where `extDataStart` and the
length say. -/
def findKotlin (data : Bytes) : Except OutOfBounds (Option (HelloBlock × Nat × Nat)) :=
  findShare supported 0 data

def parseServerHelloKotlin (data : Bytes) : Except OutOfBounds (Option (Bytes × Nat)) := do
  let found ← findKotlin data
  copyShare data found

def parseServerHello (data : Bytes) : Except OutOfBounds (Option (Bytes × Nat)) := do
  let nativeResult ← PacketUtil.Indexed.parseServerHello data
  match nativeResult with
  | some result =>
    if result.length = 34 then .ok (some (result.take 32, wordAt result 32)) else
      parseServerHelloKotlin data
  | none => parseServerHelloKotlin data

/-- Where `parseServerHello` takes the share from. -/
def findKeyShare (data : Bytes) : Except OutOfBounds (Option (HelloBlock × Nat × Nat)) := do
  let native ← findX25519 data
  match native with
  | some found => .ok (some found)
  | none => findKotlin data

end Indexed

-- ----
-- Inside the array

theorem parseExtensionsKotlin_end {cipherSuite fuel left : Nat} {q : Bytes} (hleft : left < 4) :
    parseExtensionsKotlin cipherSuite fuel left q = none := by
  rcases fuel with _ | fuel
  · rfl
  · unfold parseExtensionsKotlin
    rw [if_neg (by omega)]

theorem sameTurns_parseExtensionsKotlin : SameTurns supported 0 parseExtensionsKotlin where
  turn := by
    intro data cipherSuite extEnd sh fuel hend hsh
    rw [drop_word (show sh + 2 ≤ data.length by omega),
      drop_word (show sh + 2 + 2 ≤ data.length by omega),
      parseExtensionsKotlin, if_pos (by omega)]
    dsimp only
    rw [be16_wordAt, be16_wordAt]
    by_cases htype : wordAt data sh = 0x0033
    · rw [if_pos htype, if_pos htype]
      by_cases hshort : data.length < sh + 4 + 4
      · rw [if_pos hshort]
        have hlen : (data.drop (sh + 2 + 2)).length < 4 := by
          rw [length_drop]
          omega
        rcases hq : data.drop (sh + 2 + 2) with _ | ⟨_, _ | ⟨_, _ | ⟨_, _ | ⟨_, q⟩⟩⟩⟩
        · rfl
        · rfl
        · rfl
        · rfl
        · rw [hq] at hlen
          simp only [length_cons] at hlen
          omega
      · have hnext : (data.drop (sh + 2 + 2)).drop (wordAt data (sh + 2)) =
            data.drop (sh + 4 + 0 + wordAt data (sh + 2)) := drop_drop
        rw [hnext, if_neg hshort, drop_word (show sh + 2 + 2 + 2 ≤ data.length by omega),
          drop_word (show sh + 2 + 2 + 2 + 2 ≤ data.length by omega)]
        dsimp only
        rw [be16_wordAt, be16_wordAt]
        by_cases hx : wordAt data (sh + 4) = 0x001d ∧ wordAt data (sh + 6) = 32
        · have haccepts : supported (wordAt data (sh + 4)) (wordAt data (sh + 6)) = true := by
            simp [supported, x25519, hx]
          rw [if_pos hx, if_pos haccepts, hx.2, length_drop]
          by_cases hkey : data.length < sh + 8 + 32
          · rw [if_pos hkey, if_neg (by omega)]
          · rw [if_neg hkey, if_pos (by omega)]
        rw [if_neg hx]
        by_cases hhybrid : wordAt data (sh + 4) = 0x11EC ∧ wordAt data (sh + 6) = 1120
        · have haccepts : supported (wordAt data (sh + 4)) (wordAt data (sh + 6)) = true := by
            simp [supported, hhybrid]
          rw [if_pos hhybrid, if_pos haccepts, hhybrid.2, length_drop]
          by_cases hkey : data.length < sh + 8 + 1120
          · rw [if_pos hkey, if_neg (by omega)]
          · rw [if_neg hkey, if_pos (by omega)]
        · have haccepts : ¬ supported (wordAt data (sh + 4)) (wordAt data (sh + 6)) = true := by
            simp only [supported, x25519, Bool.or_eq_true, Bool.and_eq_true, beq_iff_eq]
            exact not_or.2 ⟨hx, hhybrid⟩
          rw [if_neg hhybrid, if_neg haccepts]
          exact congrArg₂ _ (by omega) rfl
    · rw [if_neg htype, if_neg htype, drop_drop]
      exact congrArg₂ _ (by omega) rfl
  stop := parseExtensionsKotlin_end

namespace Indexed

theorem parseServerHello_eq (data : Bytes) :
    parseServerHello data = findKeyShare data >>= copyShare data := by
  obtain ⟨native, hnative, -, hcopy⟩ := findShare_reads sameTurns_parseExtensions data
  rw [parseServerHello, findKeyShare, PacketUtil.Indexed.parseServerHello, findX25519, hnative,
    bind_ok, bind_ok]
  cases native with
  | none => rfl
  | some found =>
    obtain ⟨hello, sh, keyLen⟩ := found
    obtain ⟨-, s, -, hshare, hs⟩ := (PacketUtil.Indexed.findShare_iff _ _ _).1 hnative
    obtain ⟨rfl, hlen⟩ := Prod.mk.inj hs
    have hkeyLen : keyLen = 32 := by
      have haccepted := hshare.accepted
      rw [← hlen] at haccepted
      exact (by simpa [x25519] using haccepted : _ ∧ keyLen = 32).2
    have hinside := hshare.inArray
    obtain ⟨hread, hhello⟩ := hcopy _ rfl
    dsimp only at hread hhello ⊢
    rw [hread, bind_ok]
    have hkey : (shareOf data (hello, s + 8, keyLen)).keyShare.length = 32 := by
      show ((data.drop (s + 8)).take keyLen).length = 32
      rw [length_take, length_drop]
      omega
    have hcopied : copyShare data (some (hello, s + 8, keyLen)) =
        .ok (some ((shareOf data (hello, s + 8, keyLen)).keyShare, hello.cipherSuite)) := by
      rw [copyShare, hread, bind_ok]
    rw [bind_ok, bind_ok, hcopied]
    dsimp only
    rw [if_pos (by rw [length_append, hkey]; rfl), take_left' hkey,
      wordAt_append _ [] _ _ hkey.symm, be16_ofNat hhello.cipherSuite_lt]

/-- **`RealityClient.parseServerHello`** reads nothing outside, and is the function of
`Client.lean`. -/
theorem parseServerHello_reads (data : Bytes) :
    parseServerHello data = .ok ((Reality.parseServerHello data).map fun share =>
      (share.keyShare, share.cipherSuite)) := by
  obtain ⟨native, hnative, hwire, hcopy⟩ := findShare_reads sameTurns_parseExtensions data
  obtain ⟨found, hfound, hkotlin, hcopy'⟩ := findShare_reads sameTurns_parseExtensionsKotlin data
  have hlist : PacketUtil.parseServerHello data = native.map (shareOf data) := hwire
  rw [parseServerHello_eq, findKeyShare, findX25519, hnative, bind_ok, Reality.parseServerHello,
    hlist, hkotlin]
  cases native with
  | some share =>
    rw [bind_ok, copyShare, (hcopy _ rfl).1]
    rfl
  | none =>
    rw [findKotlin, hfound, bind_ok]
    cases found with
    | none => rfl
    | some share =>
      rw [copyShare, (hcopy' _ rfl).1]
      rfl

end Indexed

-- ----
-- What is asked for, and when it is so

def FromKeyShare (data : Bytes) (hello : HelloBlock) (share : Nat × Nat) : Prop :=
  ∃ s, KeyShareAt data hello s ∧ share = (s + 8, wordAt data (s + 6))

/-- Both parsers read inside the array and take shares from key_share extensions only, and of
a well-formed ServerHello they return its key share and its cipher suite. -/
structure Agrees (data : Bytes) : Prop where
  native_reads : ∃ result, PacketUtil.Indexed.parseServerHello data = .ok result
  reads : ∃ result, Indexed.parseServerHello data = .ok result
  native_share : ∀ hello share, findX25519 data = .ok (some (hello, share)) →
      FromKeyShare data hello share
  share : ∀ hello share, Indexed.findKeyShare data = .ok (some (hello, share)) →
      FromKeyShare data hello share
  native_result : ∀ a : HelloArray, data = a.bytes →
    PacketUtil.Indexed.parseServerHello data =
      .ok (if x25519 a.group a.key.length then some (a.key ++ suiteBytes a.hello.cipherSuite)
        else none)
  result : ∀ a : HelloArray, data = a.bytes →
    Indexed.parseServerHello data =
      .ok (if supported a.group a.key.length then some (a.key, a.hello.cipherSuite) else none)

/-- The first share that each parser comes by is the entry of a key_share: no key_share is
shorter than its entry or longer than what it is in, and what stands four bytes off, behind the
key_share of another group, is not taken for one. -/
structure WellPlaced (data : Bytes) : Prop where
  native : ∀ {hello s}, HelloAt data 0 hello → Visits x25519 4 data hello.extEnd hello.start s →
    ReadsAsShare x25519 data s → KeyShareAt data hello s
  kotlin : ∀ {hello s}, HelloAt data 0 hello →
    (∀ s', Visits x25519 4 data hello.extEnd hello.start s' → ¬ ReadsAsShare x25519 data s') →
    Visits supported 0 data hello.extEnd hello.start s → ReadsAsShare supported data s →
    KeyShareAt data hello s

section Search

variable {data : Bytes} {hello : HelloBlock} {s : Nat} {share : Nat × Nat}

theorem findX25519_iff : findX25519 data = .ok (some (hello, share)) ↔
    HelloAt data 0 hello ∧ ∃ s, Visits x25519 4 data hello.extEnd hello.start s ∧
      ReadsAsShare x25519 data s ∧ share = (s + 8, wordAt data (s + 6)) := by
  rw [findX25519, PacketUtil.Indexed.findShare_iff, PacketUtil.Indexed.parseRecords_iff]

theorem findKotlin_iff : Indexed.findKotlin data = .ok (some (hello, share)) ↔
    HelloAt data 0 hello ∧ ∃ s, Visits supported 0 data hello.extEnd hello.start s ∧
      ReadsAsShare supported data s ∧ share = (s + 8, wordAt data (s + 6)) := by
  rw [Indexed.findKotlin, PacketUtil.Indexed.findShare_iff, PacketUtil.Indexed.parseRecords_iff]

theorem findKeyShare_some : Indexed.findKeyShare data = .ok (some (hello, share)) ↔
    findX25519 data = .ok (some (hello, share)) ∨
      findX25519 data = .ok none ∧ Indexed.findKotlin data = .ok (some (hello, share)) := by
  obtain ⟨native, hnative, -⟩ := findShare_reads sameTurns_parseExtensions data
  have hx : findX25519 data = .ok native := hnative
  rw [Indexed.findKeyShare, hx, bind_ok]
  cases native <;> simp

theorem FromKeyShare.keyShareAt (h : FromKeyShare data hello (s + 8, wordAt data (s + 6))) :
    KeyShareAt data hello s := by
  obtain ⟨s', hkeyShare, heq⟩ := h
  have hplace := congrArg Prod.fst heq
  dsimp only at hplace
  obtain rfl : s = s' := by omega
  exact hkeyShare

theorem Agrees.wellPlaced (h : Agrees data) : WellPlaced data where
  native hhello hvisits hshare :=
    (h.native_share _ _ (findX25519_iff.2 ⟨hhello, _, hvisits, hshare, rfl⟩)).keyShareAt
  kotlin hhello hnone hvisits hshare := by
    have hnative : findX25519 data = .ok none := by
      obtain ⟨native, hnative, -⟩ := findShare_reads sameTurns_parseExtensions data
      have hx : findX25519 data = .ok native := hnative
      rcases native with _ | ⟨hello', share⟩
      · exact hx
      · obtain ⟨hhello', s', hvisits', hshare', -⟩ := findX25519_iff.1 hx
        have hsame := (PacketUtil.Indexed.parseRecords_iff _ _ _).2 hhello
        rw [(PacketUtil.Indexed.parseRecords_iff _ _ _).2 hhello'] at hsame
        obtain rfl := Option.some.inj (Except.ok.inj hsame)
        exact absurd hshare' (hnone s' hvisits')
    have hfound := findKotlin_iff.2 ⟨hhello, _, hvisits, hshare, rfl⟩
    exact (h.share _ _ (findKeyShare_some.2 (.inr ⟨hnative, hfound⟩))).keyShareAt

theorem WellPlaced.native_share (h : WellPlaced data)
    (hfound : findX25519 data = .ok (some (hello, share))) :
    FromKeyShare data hello share := by
  obtain ⟨hhello, s, hvisits, hshare, rfl⟩ := findX25519_iff.1 hfound
  exact ⟨s, h.native hhello hvisits hshare, rfl⟩

theorem WellPlaced.kotlin_share (h : WellPlaced data) (hnative : findX25519 data = .ok none)
    (hfound : Indexed.findKotlin data = .ok (some (hello, share))) :
    FromKeyShare data hello share := by
  obtain ⟨hhello, s, hvisits, hshare, rfl⟩ := findKotlin_iff.1 hfound
  refine ⟨s, h.kotlin hhello (fun s' hvisits' hshare' => ?_) hvisits hshare, rfl⟩
  have hsome := findX25519_iff.2 ⟨hhello, s', hvisits', hshare', rfl⟩
  exact nomatch hnative.symm.trans hsome

end Search

-- ----
-- Of a well-formed ServerHello

section Array

variable (a : HelloArray)

theorem readBytes_key : readBytes a.bytes (a.place + 8) a.key.length = .ok a.key := by
  obtain ⟨-, -, -, -, hkey, hinside⟩ := a.share_words
  rw [readBytes_eq hinside, hkey]

variable {a}

theorem WellPlaced.native_result (h : WellPlaced a.bytes) :
    PacketUtil.Indexed.parseServerHello a.bytes =
      .ok (if x25519 a.group a.key.length then some (a.key ++ suiteBytes a.hello.cipherSuite)
        else none) := by
  by_cases haccepts : x25519 a.group a.key.length = true
  · rw [if_pos haccepts, PacketUtil.Indexed.parseServerHello, findX25519,
      a.findShare_accepted haccepts, bind_ok]
    dsimp only
    rw [readBytes_key]
    rfl
  · rw [if_neg haccepts, PacketUtil.Indexed.parseServerHello, findX25519,
      a.findShare_refused sameTurns_parseExtensions haccepts (fun share hfound => ?_)]
    · rfl
    · obtain ⟨s, hkeyShare, hs⟩ := h.native_share hfound
      exact ⟨s, hkeyShare, congrArg Prod.fst hs⟩

theorem WellPlaced.result (h : WellPlaced a.bytes) :
    Indexed.parseServerHello a.bytes =
      .ok (if supported a.group a.key.length then some (a.key, a.hello.cipherSuite) else none) := by
  rw [Indexed.parseServerHello_eq, Indexed.findKeyShare]
  by_cases hx : x25519 a.group a.key.length = true
  · have haccepts : supported a.group a.key.length = true := Bool.or_eq_true_iff.2 (.inl hx)
    rw [if_pos haccepts, findX25519, a.findShare_accepted hx, bind_ok]
    dsimp only
    rw [bind_ok, Indexed.copyShare, readBytes_key]
    rfl
  -- the loop of `PacketUtil` finds nothing, and the other one looks for both groups
  have hnative : findX25519 a.bytes = .ok none :=
    a.findShare_refused sameTurns_parseExtensions hx fun share hfound => by
      obtain ⟨s, hkeyShare, hs⟩ := h.native_share hfound
      exact ⟨s, hkeyShare, congrArg Prod.fst hs⟩
  rw [hnative, bind_ok]
  by_cases haccepts : supported a.group a.key.length = true
  · rw [if_pos haccepts, Indexed.findKotlin, a.findShare_accepted haccepts, bind_ok,
      Indexed.copyShare, readBytes_key]
    rfl
  · rw [if_neg haccepts, Indexed.findKotlin,
      a.findShare_refused sameTurns_parseExtensionsKotlin haccepts (fun share hfound => ?_)]
    · rfl
    · obtain ⟨s, hkeyShare, hs⟩ := h.kotlin_share hnative hfound
      exact ⟨s, hkeyShare, congrArg Prod.fst hs⟩

end Array

theorem WellPlaced.agrees {data : Bytes} (h : WellPlaced data) : Agrees data where
  native_reads := ⟨_, PacketUtil.Indexed.parseServerHello_reads data⟩
  reads := ⟨_, Indexed.parseServerHello_reads data⟩
  native_share _ _ := h.native_share
  share _ _ hfound := by
    rcases findKeyShare_some.1 hfound with hnative | ⟨hnative, hkotlin⟩
    · exact h.native_share hnative
    · exact h.kotlin_share hnative hkotlin
  native_result a hdata := by
    subst hdata
    exact h.native_result
  result a hdata := by
    subst hdata
    exact h.result

/-- **The two parsers agree with the format** for just the arrays where the shares are well
placed. -/
theorem serverHello_parsers_agree_iff (data : Bytes) : Agrees data ↔ WellPlaced data :=
  ⟨Agrees.wellPlaced, WellPlaced.agrees⟩

/-- Where the key share of a well-formed ServerHello is an X25519 one, nothing misleads. -/
theorem wellPlaced_of_x25519 (a : HelloArray) (hx : x25519 a.group a.key.length = true) :
    WellPlaced a.bytes := by
  have hat : ∀ {hello}, HelloAt a.bytes 0 hello → hello = a.block := fun hhello => by
    have hsame := (PacketUtil.Indexed.parseRecords_iff _ _ _).2 hhello
    rw [a.parseRecords_bytes] at hsame
    exact (Option.some.inj (Except.ok.inj hsame)).symm
  have hplace : ReadsAsShare x25519 a.bytes a.place := by
    obtain ⟨htype, -, hgroup, hlen, -, hinside⟩ := a.share_words
    exact ⟨htype, by rw [hgroup, hlen]; exact hx, by rw [hlen]; exact hinside⟩
  have hfound : findX25519 a.bytes = _ := a.findShare_accepted hx
  constructor
  · intro hello s hhello hvisits hshare
    have hs := findX25519_iff.2 ⟨hhello, _, hvisits, hshare, rfl⟩
    rw [hfound] at hs
    obtain ⟨-, hshare'⟩ := Prod.mk.inj (Option.some.inj (Except.ok.inj hs))
    have hfst := congrArg Prod.fst hshare'
    dsimp only at hfst
    obtain rfl : a.place = s := by omega
    obtain rfl := hat hhello
    exact a.keyShareAt_place
  · intro hello s hhello hnone
    obtain rfl := hat hhello
    exact absurd hplace (hnone _ (a.visits_place _ _))

-- ----
-- Where they are misled

/-- What an extension of no known type holds: a key_share extension with an X25519 share. -/
def lure : Bytes := [0x00, 0x33, 0x00, 0x24, 0x00, 0x1d, 0x00, 0x20] ++ List.replicate 32 0xAA

theorem luring_sessionId : ([] : Bytes).length < 256 := by decide

/-- A ServerHello with a secp256r1 share in front of that extension. -/
def luringHello : Hello where
  v1 := 0x03
  v2 := 0x03
  random := List.replicate 32 0
  sessionId := []
  c1 := 0x13
  c2 := 0x01
  extensions := [keyShareExtension 0x00 0x17 [0x04] (by decide), ⟨0xff, 0xff, lure, by decide⟩]
  random_length := rfl
  sessionId_length := luring_sessionId
  extensions_length := by decide

def luringArray : HelloArray where
  record := handshakeRecord luringHello.message.bytes
  hello := luringHello
  fragment := []
  zs := []
  before := []
  behind := [⟨0xff, 0xff, lure, by decide⟩]
  g1 := 0x00
  g2 := 0x17
  key := [0x04]
  key_length := by decide
  record_wellFormed := handshakeRecord_wellFormed (by decide)
  record_type := rfl
  payload_eq := rfl
  extensions_eq := rfl
  before_others := nofun
  behind_others := by
    intro e he
    rw [mem_singleton.1 he]
    exact show be16 0xff 0xff ≠ 0x0033 by decide

/-- A key_share extension that ends where the key of its entry begins. -/
def shortKeyShare : Bytes :=
  [0x16, 0x03, 0x03, 0x00, 0x54, 0x02, 0x00, 0x00, 0x50, 0x03, 0x03] ++ List.replicate 32 0 ++
    [0x00, 0x13, 0x01, 0x00, 0x00, 0x28] ++ [0x00, 0x33, 0x00, 0x04, 0x00, 0x1d, 0x00, 0x20] ++
    [0xff, 0xff, 0x00, 0x1c] ++ List.replicate 28 0xAA

/-- Behind another group `PacketUtil` takes its share out of the other extension, and a share that
its extension does not hold comes from the next one. -/
theorem hello_misleads : ¬ Agrees luringArray.bytes ∧ ¬ Agrees shortKeyShare := by
  constructor
  · intro h
    have hresult := h.native_result luringArray rfl
    rw [PacketUtil.Indexed.parseServerHello_reads] at hresult
    exact absurd hresult (by decide)
  · intro h
    have hhello : HelloAt shortKeyShare 0 ⟨5, 0x54, 0x1301, 49, 89⟩ :=
      .here ⟨by decide, by decide, by decide⟩ (by decide)
        ⟨rfl, by decide, by decide, by decide, by decide, by decide⟩
    have hkeyShare := h.wellPlaced.native hhello
        (.here (by decide)) ⟨by decide, by decide, by decide⟩
    exact absurd hkeyShare.entry (by decide)

end Anywhere.Reality
