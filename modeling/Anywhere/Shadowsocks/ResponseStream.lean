import Anywhere.Shadowsocks.Response2022

/-!
# Anywhere — the response stream of Shadowsocks 2022

A call of `processReceived` does with the bytes of its array what the reader without an array does
with the same bytes, so that the cuts between the calls do not show.

* `Response.feed_wire` — the reader reads a response.
* `response_read` — so it is read under every cutting.
-/

namespace Anywhere.Shadowsocks

open Lib List

variable {n : Nat} {now : Int} {payload : Bytes}

namespace ResponseState

variable {c : Ciphers2022} {account : Account} {requestSalt : Option Bytes}
  {s : ResponseState} {k : ResponseCore} {unread : Bytes}

-- ----
-- Chunks

structure Decrypting (s : ResponseState) (k : ResponseCore) : Prop where
  readSubkey : s.readSubkey = some k.key
  pendingVarHeaderLen : s.pendingVarHeaderLen = none
  responseHeaderParsed : s.responseHeaderParsed = true

theorem parseVariableHeader_short (h : Holds requestSalt s k unread)
    (hshort : unread.length < n + TAG_SIZE) :
    s.parseVariableHeader c account n = .ok ({ s with pendingVarHeaderLen := some n }, none) := by
  rw [parseVariableHeader, h.available]
  exact if_pos hshort

theorem parseVariableHeader_ok (h : Holds requestSalt s k unread) {data : Bytes}
    (hkey : s.readSubkey = some k.key) (hpayload : s.pendingPayloadLength = none)
    (hlong : n + TAG_SIZE ≤ unread.length)
    (hopen : c.aeadOpen account.cipher k.key (increment k.nonce) (unread.take (n + TAG_SIZE)) =
      some data) :
    ∃ s', s.parseVariableHeader c account n = .ok (s', some data) ∧
      Holds requestSalt s' (k.behind k.key (unread.take (n + TAG_SIZE)) .chunkLength)
        (unread.drop (n + TAG_SIZE)) ∧
      Located s' (k.behind k.key (unread.take (n + TAG_SIZE)) .chunkLength) := by
  obtain ⟨hopened, hheld⟩ := (h.advance hlong).openNext .chunkLength hopen
  dsimp only at hopened
  rw [hkey] at hopened
  refine ⟨{ s with
    readBufferOffset := s.readBufferOffset + (n + TAG_SIZE)
    readNonce := increment s.readNonce
    opened := s.opened ++ [(increment s.readNonce, unread.take (n + TAG_SIZE))]
    pendingVarHeaderLen := none
    responseHeaderParsed := true }, ?_, ⟨hheld.inside, hheld.fits, hheld.unread, hheld.nonce,
      hheld.opened, hheld.requestSalt⟩, hkey, rfl, rfl, hpayload⟩
  rw [parseVariableHeader, h.available]
  dsimp only
  rw [if_neg (Nat.not_lt_of_le hlong), h.read_first hlong, bind_ok, hkey]
  dsimp only
  rw [hopened]
  rfl

theorem payloadLength_short (h : Holds requestSalt s k unread)
    (hnone : s.pendingPayloadLength = none) (hshort : unread.length < 2 + TAG_SIZE) (key : Bytes) :
    s.payloadLength c account key = .ok (s, none) := by
  rw [payloadLength, hnone, h.available]
  exact if_pos hshort

theorem payloadLength_ok (h : Holds requestSalt s k unread) (hd : Decrypting s k)
    (hnone : s.pendingPayloadLength = none) {size : Bytes} (hlong : 2 + TAG_SIZE ≤ unread.length)
    (hopen : c.aeadOpen account.cipher k.key (increment k.nonce) (unread.take (2 + TAG_SIZE)) =
      some size)
    (hsize : size.length = 2) :
    ∃ s', s.payloadLength c account k.key = .ok (s', some (readSize size)) ∧
      Holds requestSalt s' (k.behind k.key (unread.take (2 + TAG_SIZE))
        (.chunkPayload (readSize size)))
        (unread.drop (2 + TAG_SIZE)) ∧
      Decrypting s' (k.behind k.key (unread.take (2 + TAG_SIZE))
        (.chunkPayload (readSize size))) := by
  obtain ⟨hopened, hheld⟩ := h.openNext (.chunkPayload (readSize size)) hopen
  refine ⟨_, ?_, hheld.advance hlong, hd.readSubkey, hd.pendingVarHeaderLen,
    hd.responseHeaderParsed⟩
  obtain ⟨hi, lo, rfl⟩ := length_eq_two.1 hsize
  rw [payloadLength, hnone, h.available]
  dsimp only
  rw [if_neg (Nat.not_lt_of_le hlong), h.read_first hlong, bind_ok, hopened, hnone]
  rfl

theorem takePayload_short (h : Holds requestSalt s k unread)
    (hshort : unread.length < n + TAG_SIZE) (key : Bytes) :
    s.takePayload c account key n = .ok ({ s with pendingPayloadLength := some n }, none) := by
  rw [takePayload, h.available]
  exact if_pos hshort

theorem takePayload_ok (h : Holds requestSalt s k unread) (hd : Decrypting s k)
    (hlong : n + TAG_SIZE ≤ unread.length)
      (hopen : c.aeadOpen account.cipher k.key (increment k.nonce) (unread.take (n + TAG_SIZE)) =
        some payload) :
    ∃ s', s.takePayload c account k.key n = .ok (s', some payload) ∧
      Holds requestSalt s' (k.behind k.key (unread.take (n + TAG_SIZE)) .chunkLength)
        (unread.drop (n + TAG_SIZE)) ∧
      Located s' (k.behind k.key (unread.take (n + TAG_SIZE)) .chunkLength) := by
  have hadvance := h.advance hlong
  have hcleared : Holds requestSalt { s with
      readBufferOffset := s.readBufferOffset + (n + TAG_SIZE), pendingPayloadLength := none } k
        (unread.drop (n + TAG_SIZE)) :=
    ⟨hadvance.inside, hadvance.fits, hadvance.unread, h.nonce, h.opened, h.requestSalt⟩
  obtain ⟨hopened, hheld⟩ := hcleared.openNext .chunkLength hopen
  refine ⟨_, ?_, hheld, hd.readSubkey, hd.pendingVarHeaderLen, hd.responseHeaderParsed, rfl⟩
  rw [takePayload, h.available]
  dsimp only
  rw [if_neg (Nat.not_lt_of_le hlong), h.read_first hlong, bind_ok, hopened]
  rfl

/-- A turn of the loop beside a feed: it ends where the feed does, or goes on before the rest of
it. -/
inductive Turn (R : ExactReader ResponseCore UInt8 UInt8) (requestSalt : Option Bytes)
    (key unread : Bytes) (k' : ResponseCore) (rest out : Bytes) :
    Except Failure (ResponseState × Option Bytes) → Prop
  | ends {s' : ResponseState} (hout : out = []) (hheld : Holds requestSalt s' k' rest)
      (hlocated : Located s' k') : Turn R requestSalt key unread k' rest out (.ok (s', none))
  | goesOn {s₁ : ResponseState} {k₁ : ResponseCore} {left payload out₁ : Bytes}
      (hheld : Holds requestSalt s₁ k₁ left) (hlocated : Located s₁ k₁)
      (hstage : k₁.stage = .chunkLength) (hkey : k₁.key = key) (hleft : left.length < unread.length)
      (hfeed : R.feed k₁ left = some (k', rest, out₁)) (hout : out = payload ++ out₁) :
      Turn R requestSalt key unread k' rest out (.ok (s₁, some payload))

theorem Turn.mono {R : ExactReader ResponseCore UInt8 UInt8} {key left k' rest out}
    {result : Except Failure (ResponseState × Option Bytes)}
    (h : Turn R requestSalt key left k' rest out result) (hle : left.length ≤ unread.length) :
    Turn R requestSalt key unread k' rest out result := by
  cases h with
  | ends hout hheld hlocated => exact .ends hout hheld hlocated
  | goesOn hheld hlocated hstage hkey hleft hfeed hout =>
    exact .goesOn hheld hlocated hstage hkey (Nat.lt_of_lt_of_le hleft hle) hfeed hout

variable {check : Bytes → Option Nat} {k' : ResponseCore} {rest out : Bytes}

theorem takePayload_feed (h : Holds requestSalt s k unread) (hd : Decrypting s k)
    (hstage : k.stage = .chunkPayload n)
    (hfeed : (responseReader c account check).feed k unread = some (k', rest, out)) :
    Turn (responseReader c account check) requestSalt k.key unread k' rest out
      (s.takePayload c account k.key n) := by
  have hneed : (responseReader c account check).need k = n + TAG_SIZE := by
    simp only [responseReader, hstage]
  by_cases hlong : n + TAG_SIZE ≤ unread.length
  · obtain ⟨k₁, payload, out₁, hon, hbehind, rfl⟩ :=
      ExactReader.feed_of_le_some _ (hneed.trans_le hlong) hfeed
    rw [hneed] at hon hbehind
    simp only [responseReader, hstage] at hon
    obtain ⟨payload', hopen, heq⟩ := Option.map_eq_some_iff.1 hon
    obtain ⟨rfl, rfl⟩ := by simpa using heq
    obtain ⟨s₁, htake, hheld, hlocated⟩ := takePayload_ok h hd hlong hopen
    rw [htake]
    refine .goesOn hheld hlocated rfl rfl ?_ hbehind rfl
    rw [length_drop]
    simp only [TAG_SIZE] at hlong ⊢
    omega
  · rw [ExactReader.feed_short _ (by omega)] at hfeed
    obtain ⟨rfl, rfl, rfl⟩ := by simpa using hfeed
    rw [takePayload_short h (by omega)]
    refine .ends rfl ⟨h.inside, h.fits, h.unread, h.nonce, h.opened, h.requestSalt⟩ ?_
    rw [Located, hstage]
    exact ⟨hd.readSubkey, hd.pendingVarHeaderLen, hd.responseHeaderParsed, rfl⟩

def AtChunk (k : ResponseCore) : Prop := k.stage = .chunkLength ∨ ∃ n, k.stage = .chunkPayload n

theorem Located.decrypting (h : Located s k) (hat : AtChunk k) : Decrypting s k := by
  rcases hat with hstage | ⟨n, hstage⟩ <;> rw [Located, hstage] at h <;>
    exact ⟨h.1, h.2.1, h.2.2.1⟩

theorem decryptChunk_feed (h : Holds requestSalt s k unread) (hlocated : Located s k)
    (hat : AtChunk k)
    (hfeed : (responseReader c account check).feed k unread = some (k', rest, out)) :
    Turn (responseReader c account check) requestSalt k.key unread k' rest out
      (s.decryptChunk c account k.key) := by
  have hd := hlocated.decrypting hat
  rcases hat with hstage | ⟨n, hstage⟩
  · have hneed : (responseReader c account check).need k = 2 + TAG_SIZE := by
      simp only [responseReader, hstage]
    have hnone : s.pendingPayloadLength = none := by
      rw [Located, hstage] at hlocated
      exact hlocated.2.2.2
    by_cases hlong : 2 + TAG_SIZE ≤ unread.length
    · obtain ⟨k₁, none₁, out₁, hon, hbehind, rfl⟩ :=
        ExactReader.feed_of_le_some _ (hneed.trans_le hlong) hfeed
      rw [hneed] at hon hbehind
      simp only [responseReader, hstage] at hon
      obtain ⟨size, hfilter, heq⟩ := Option.map_eq_some_iff.1 hon
      obtain ⟨hopen, hsize⟩ := Option.filter_eq_some_iff.1 hfilter
      obtain ⟨rfl, rfl⟩ := by simpa using heq
      obtain ⟨s₁, hlength, hheld, hd₁⟩ :=
        payloadLength_ok h hd hnone hlong hopen (by simpa using hsize)
      rw [decryptChunk, hlength, bind_ok]
      dsimp only
      exact (takePayload_feed hheld hd₁ rfl hbehind).mono (by rw [length_drop]; omega)
    · rw [ExactReader.feed_short _ (by omega)] at hfeed
      obtain ⟨rfl, rfl, rfl⟩ := by simpa using hfeed
      rw [decryptChunk, payloadLength_short h hnone (by omega), bind_ok]
      exact .ends rfl h hlocated
  · have hpending : s.pendingPayloadLength = some n := by
      rw [Located, hstage] at hlocated
      exact hlocated.2.2.2
    rw [decryptChunk, payloadLength, hpending]
    exact takePayload_feed h hd hstage hfeed

theorem decryptLoop_ends {s' : ResponseState} {key : Bytes}
    (h : s.decryptChunk c account key = .ok (s', none)) (output : Bytes) :
    s.decryptLoop c account key output = .ok (s', output) := by
  rw [decryptLoop]
  split <;> simp_all

theorem decryptLoop_goesOn {s₁ : ResponseState} {key : Bytes}
    (h : s.decryptChunk c account key = .ok (s₁, some payload)) (output : Bytes) :
    s.decryptLoop c account key output = s₁.decryptLoop c account key (output ++ payload) := by
  rw [decryptLoop]
  split <;> simp_all

/-- The loop feeds the reader. -/
theorem decryptLoop_feed (h : Holds requestSalt s k unread) (hlocated : Located s k)
    (hat : AtChunk k)
    (hfeed : (responseReader c account check).feed k unread = some (k', rest, out))
    (output : Bytes) :
    ∃ s', s.decryptLoop c account k.key output = .ok (s', output ++ out) ∧
      Holds requestSalt s' k' rest ∧ Located s' k' := by
  -- on what is unread: a turn that goes on has taken a payload
  induction hn : unread.length using Nat.strongRecOn generalizing s k unread out output with
  | ind n ih =>
    subst hn
    have hturn := decryptChunk_feed h hlocated hat hfeed
    generalize hresult : s.decryptChunk c account k.key = result at hturn
    cases hturn with
    | @ends s' hout hheld hlocated =>
      refine ⟨s', ?_, hheld, hlocated⟩
      rw [decryptLoop_ends hresult, hout, append_nil]
    | @goesOn s₁ k₁ left payload out₁ hheld hlocated hstage hkey hleft hfeed₁ hout =>
      obtain ⟨s', hloop, hheld', hlocated'⟩ :=
        ih left.length hleft hheld hlocated (.inl hstage) hfeed₁ (output ++ payload) rfl
      refine ⟨s', ?_, hheld', hlocated'⟩
      rw [decryptLoop_goesOn hresult, hout, ← append_assoc, ← hloop, hkey]

-- ----
-- A call

/-- Before the headers are parsed, the chunks are left alone. -/
theorem finish_waits (h : Holds requestSalt s k unread) (hlocated : Located s k)
    (hparsed : s.responseHeaderParsed = false) (output : Bytes) :
    ∃ s', s.finish c account output = .ok (s', output) ∧ Holds requestSalt s' k unread ∧
      Located s' k := by
  obtain ⟨buffer, offset, finish, hcompact, hheld⟩ := compact_spec h
  refine ⟨_, ?_, hheld, hlocated⟩
  rw [hparsed] at hcompact
  rw [ResponseState.finish, hparsed, if_neg Bool.false_ne_true, bind_ok]
  dsimp only
  rw [hcompact, bind_ok, append_nil]

theorem finish_feed (h : Holds requestSalt s k unread) (hlocated : Located s k) (hat : AtChunk k)
    (hfeed : (responseReader c account check).feed k unread = some (k', rest, out))
    (output : Bytes) :
    ∃ s', s.finish c account output = .ok (s', output ++ out) ∧
      Holds requestSalt s' k' rest ∧ Located s' k' := by
  have hd := hlocated.decrypting hat
  obtain ⟨s₁, hloop, hheld₁, hlocated₁⟩ := decryptLoop_feed h hlocated hat hfeed []
  obtain ⟨buffer, offset, finish, hcompact, hheld⟩ := compact_spec hheld₁
  refine ⟨_, ?_, hheld, hlocated₁⟩
  rw [ResponseState.finish, hd.responseHeaderParsed, if_pos rfl, decryptChunks, hd.readSubkey]
  dsimp only
  rw [hloop, bind_ok, hcompact]
  rfl

theorem parseVariableHeader_feed (h : Holds requestSalt s k unread)
    (hstage : k.stage = .variableHeader n) (hkey : s.readSubkey = some k.key)
    (hpayload : s.pendingPayloadLength = none)
    (hfeed : (responseReader c account check).feed k unread = some (k', rest, out)) :
    (k' = k ∧ rest = unread ∧ out = [] ∧
      s.parseVariableHeader c account n = .ok ({ s with pendingVarHeaderLen := some n }, none)) ∨
    ∃ s₁ k₁ left data out₁, s.parseVariableHeader c account n = .ok (s₁, some data) ∧
      Holds requestSalt s₁ k₁ left ∧ Located s₁ k₁ ∧ k₁.stage = .chunkLength ∧
      (responseReader c account check).feed k₁ left = some (k', rest, out₁) ∧
      out = data ++ out₁ := by
  have hneed : (responseReader c account check).need k = n + TAG_SIZE := by
    simp only [responseReader, hstage]
  by_cases hlong : n + TAG_SIZE ≤ unread.length
  · right
    obtain ⟨k₁, data, out₁, hon, hbehind, rfl⟩ :=
      ExactReader.feed_of_le_some _ (hneed.trans_le hlong) hfeed
    rw [hneed] at hon hbehind
    simp only [responseReader, hstage] at hon
    obtain ⟨data', hopen, heq⟩ := Option.map_eq_some_iff.1 hon
    obtain ⟨rfl, rfl⟩ := by simpa using heq
    obtain ⟨s₁, hparse, hheld, hlocated⟩ := parseVariableHeader_ok h hkey hpayload hlong hopen
    exact ⟨s₁, _, _, data', out₁, hparse, hheld, hlocated, rfl, hbehind, rfl⟩
  · left
    rw [ExactReader.feed_short _ (by omega)] at hfeed
    obtain ⟨rfl, rfl, rfl⟩ := by simpa using hfeed
    exact ⟨rfl, rfl, rfl, parseVariableHeader_short h (by omega)⟩

/-- What `check` takes is right at this time. -/
def Accepts (requestSalt : Option Bytes) (account : Account) (check : Bytes → Option Nat)
    (now : Int) : Prop :=
  ∀ fixedHeader n, check fixedHeader = some n →
    checkFixedHeader requestSalt account.cipher.keySize now fixedHeader = .ok n

theorem parseResponseHeader_short (h : Holds requestSalt s k unread)
    (hshort : unread.length < account.cipher.keySize + fixedLength account + TAG_SIZE) (now : Int) :
    s.parseResponseHeader c account now = .ok (s, none) := by
  rw [parseResponseHeader, h.available]
  exact if_pos hshort

theorem parseResponseHeader_long (h : Holds requestSalt s k unread) (hlocated : Located s k)
    (hstage : k.stage = .header) (haccepts : Accepts requestSalt account check now)
    (hlong : account.cipher.keySize + fixedLength account + TAG_SIZE ≤ unread.length)
    {k₁ : ResponseCore} {out₁ : Bytes}
    (hon : (responseReader c account check).on k
      (unread.take (account.cipher.keySize + fixedLength account + TAG_SIZE)) = some (k₁, out₁)) :
    ∃ s₁ n, k₁.stage = .variableHeader n ∧ out₁ = [] ∧
      Holds requestSalt s₁ k₁
        (unread.drop (account.cipher.keySize + fixedLength account + TAG_SIZE)) ∧
      s₁.readSubkey = some k₁.key ∧ s₁.responseHeaderParsed = false ∧
      s₁.pendingPayloadLength = none ∧
      s.parseResponseHeader c account now =
        (s₁.parseVariableHeader c account n >>= fun t => .ok (t.1, some (t.2.getD []))) := by
  rw [Located, hstage] at hlocated
  obtain ⟨hvariable, hparsed, hpayload⟩ := hlocated
  simp only [responseReader, hstage] at hon
  obtain ⟨n, hchecked, heq⟩ := Option.map_eq_some_iff.1 hon
  obtain ⟨fixedHeader, hopen, hcheck⟩ := Option.bind_eq_some_iff.1 hchecked
  obtain ⟨rfl, rfl⟩ := by simpa using heq
  have hsalt : (unread.take (account.cipher.keySize + fixedLength account + TAG_SIZE)).take
      account.cipher.keySize = unread.take account.cipher.keySize := by
    rw [take_take, Nat.min_eq_left (by omega)]
  have hchunk : (unread.take (account.cipher.keySize + fixedLength account + TAG_SIZE)).drop
      account.cipher.keySize =
        (unread.drop account.cipher.keySize).take (fixedLength account + TAG_SIZE) := by
    rw [drop_take, Nat.add_assoc, Nat.add_sub_cancel_left]
  rw [hsalt, hchunk] at hopen
  rw [hsalt, hchunk]
  have hadvance := h.advance hlong
  generalize hkey : c.deriveSessionKey account.psk (unread.take account.cipher.keySize)
    account.cipher.keySize = key at hopen ⊢
  have hkeyed : Holds requestSalt { s with
      readSubkey := some key
      readBufferOffset :=
        s.readBufferOffset + (account.cipher.keySize + fixedLength account + TAG_SIZE) } k
      (unread.drop (account.cipher.keySize + fixedLength account + TAG_SIZE)) :=
    ⟨hadvance.inside, hadvance.fits, hadvance.unread, h.nonce, h.opened, h.requestSalt⟩
  obtain ⟨hopened, hheld⟩ := hkeyed.openNext (.variableHeader n) hopen
  refine ⟨_, n, rfl, rfl, hheld, rfl, hparsed, hpayload, ?_⟩
  have hfirst := h.read_first (n := account.cipher.keySize) (by omega)
  have hfixed :=
    h.read (i := account.cipher.keySize) (n := fixedLength account + TAG_SIZE) (by omega)
  have haccepted := haccepts fixedHeader n hcheck
  rw [← h.requestSalt] at haccepted
  rw [parseResponseHeader, h.available]
  dsimp only
  rw [← fixedLength, if_neg (Nat.not_lt_of_le hlong), hfirst, bind_ok, hfixed, bind_ok, hkey,
    ← Nat.add_assoc account.cipher.keySize, hopened, bind_ok, haccepted, bind_ok]

theorem parseBuffered_header (h : Holds requestSalt s k unread) (hlocated : Located s k)
    (hstage : k.stage = .header)
    (haccepts : (responseReader c account check).need k ≤ unread.length →
      Accepts requestSalt account check now)
    (hfeed : (responseReader c account check).feed k unread = some (k', rest, out)) :
    ∃ s', s.parseBuffered c account now = .ok (s', out) ∧ Holds requestSalt s' k' rest ∧
      Located s' k' := by
  have hfields := hlocated
  rw [Located, hstage] at hfields
  have hneed : (responseReader c account check).need k =
      account.cipher.keySize + fixedLength account + TAG_SIZE := by
    simp only [responseReader, hstage]
  rw [parseBuffered, hfields.1]
  dsimp only
  rw [bind_ok]
  dsimp only
  rw [hfields.2.1, if_pos Bool.false_ne_true]
  by_cases hlong : account.cipher.keySize + fixedLength account + TAG_SIZE ≤ unread.length
  · obtain ⟨k₁, out₁, out₂, hon, hbehind, rfl⟩ :=
      ExactReader.feed_of_le_some _ (hneed.trans_le hlong) hfeed
    rw [hneed] at hon hbehind
    obtain ⟨s₁, n, hstage₁, rfl, hheld₁, hkey, hparsed, hpayload, hparse⟩ :=
      parseResponseHeader_long h hlocated hstage (haccepts (hneed.trans_le hlong)) hlong hon
    rw [hparse]
    rcases parseVariableHeader_feed hheld₁ hstage₁ hkey hpayload hbehind with
      ⟨rfl, rfl, rfl, hvariable⟩ |
        ⟨s₂, k₂, left, data, out₃, hvariable, hheld₂, hlocated₂, hstage₂, hfeed₂, rfl⟩
    · rw [hvariable, bind_ok, bind_ok]
      refine finish_waits (s := { s₁ with pendingVarHeaderLen := some n }) ⟨hheld₁.inside,
        hheld₁.fits, hheld₁.unread, hheld₁.nonce, hheld₁.opened, hheld₁.requestSalt⟩ ?_ hparsed _
      rw [Located, hstage₁]
      exact ⟨hkey, rfl, hparsed, hpayload⟩
    · rw [hvariable, bind_ok, bind_ok]
      exact finish_feed hheld₂ hlocated₂ (.inl hstage₂) hfeed₂ _
  · rw [ExactReader.feed_short _ (by omega)] at hfeed
    obtain ⟨rfl, rfl, rfl⟩ := by simpa using hfeed
    rw [parseResponseHeader_short h (by omega), bind_ok]
    exact ⟨s, rfl, h, hlocated⟩

theorem parseBuffered_variableHeader (h : Holds requestSalt s k unread) (hlocated : Located s k)
    (hstage : k.stage = .variableHeader n) (now : Int)
    (hfeed : (responseReader c account check).feed k unread = some (k', rest, out)) :
    ∃ s', s.parseBuffered c account now = .ok (s', out) ∧ Holds requestSalt s' k' rest ∧
      Located s' k' := by
  have hfields := hlocated
  rw [Located, hstage] at hfields
  obtain ⟨hkey, hpending, hparsed, hpayload⟩ := hfields
  rw [parseBuffered, hpending]
  dsimp only
  rcases parseVariableHeader_feed h hstage hkey hpayload hfeed with
    ⟨rfl, rfl, rfl, hvariable⟩ |
      ⟨s₁, k₁, left, data, out₁, hvariable, hheld, hlocated₁, hstage₁, hfeed₁, rfl⟩
  · rw [hvariable, bind_ok]
    refine ⟨_, rfl, ⟨h.inside, h.fits, h.unread, h.nonce, h.opened, h.requestSalt⟩, ?_⟩
    rw [Located, hstage]
    exact ⟨hkey, rfl, hparsed, hpayload⟩
  · have hd := hlocated₁.decrypting (.inl hstage₁)
    rw [hvariable, bind_ok]
    dsimp only
    rw [hd.responseHeaderParsed, if_neg (not_not_intro rfl), bind_ok]
    dsimp only
    rw [append_nil]
    exact finish_feed hheld hlocated₁ (.inl hstage₁) hfeed₁ _

theorem parseBuffered_chunk (h : Holds requestSalt s k unread) (hlocated : Located s k)
    (hat : AtChunk k) (now : Int)
    (hfeed : (responseReader c account check).feed k unread = some (k', rest, out)) :
    ∃ s', s.parseBuffered c account now = .ok (s', out) ∧ Holds requestSalt s' k' rest ∧
      Located s' k' := by
  have hd := hlocated.decrypting hat
  rw [parseBuffered, hd.pendingVarHeaderLen]
  dsimp only
  rw [bind_ok]
  dsimp only
  rw [hd.responseHeaderParsed, if_neg (not_not_intro rfl), bind_ok]
  exact finish_feed h hlocated hat hfeed _

/-- A call feeds the reader. -/
theorem processReceived_feed (h : Holds requestSalt s k unread) (hlocated : Located s k)
    {data : Bytes} (haccepts : k.stage = .header →
      (responseReader c account check).need k ≤ (unread ++ data).length →
      Accepts requestSalt account check now)
    (hfeed : (responseReader c account check).feed k (unread ++ data) = some (k', rest, out)) :
    ∃ s', s.processReceived c account now data = .ok (s', out) ∧
      Holds requestSalt s' k' rest ∧ Located s' k' := by
  obtain ⟨buffer, offset, finish, happend, hheld⟩ := append_spec h data
  rw [processReceived, happend, bind_ok]
  have hlocated₁ : Located { s with
      readBuffer := buffer, readBufferOffset := offset, readBufferEnd := finish } k := hlocated
  match hstage : k.stage with
  | .header => exact parseBuffered_header hheld hlocated₁ hstage (haccepts hstage) hfeed
  | .variableHeader n => exact parseBuffered_variableHeader hheld hlocated₁ hstage now hfeed
  | .chunkLength => exact parseBuffered_chunk hheld hlocated₁ (.inl hstage) now hfeed
  | .chunkPayload n => exact parseBuffered_chunk hheld hlocated₁ (.inr ⟨n, hstage⟩) now hfeed

theorem stage_of_on {piece : Bytes}
    (hon : (responseReader c account check).on k piece = some (k', out)) :
    k'.stage ≠ .header := by
  simp only [responseReader] at hon
  split at hon
  all_goals
    obtain ⟨_, -, heq⟩ := Option.map_eq_some_iff.1 hon
    obtain ⟨rfl, -⟩ := by simpa using heq
    exact nofun

/-- In the call in which the fixed header gets complete, it is accepted. -/
def AcceptsInTime (R : ExactReader ResponseCore UInt8 UInt8) (accepts : Int → Prop)
    (k : ResponseCore) (unread : Bytes) (calls : List (Int × Bytes)) : Prop :=
  ∀ before now data after, calls = before ++ (now, data) :: after → k.stage = .header →
    (unread ++ (before.map (·.2)).flatten).length < R.need k →
    R.need k ≤ (unread ++ (before.map (·.2)).flatten ++ data).length → accepts now

/-- The calls feed the reader. -/
theorem receiveAll_feedAll {calls : List (Int × Bytes)}
    (haccepts : AcceptsInTime (responseReader c account check) (Accepts requestSalt account check) k
      unread calls)
    (hshort : unread.length < (responseReader c account check).need k) {outs : List Bytes}
    (h : Holds requestSalt s k unread) (hlocated : Located s k)
    (hfeed : (responseReader c account check).feedAll k unread (calls.map (·.2)) =
      some (k', rest, outs)) :
    ∃ s', s.receiveAll c account calls = .ok (s', outs) ∧
      Holds requestSalt s' k' rest ∧ Located s' k' := by
  induction calls generalizing s k unread outs with
  | nil =>
    obtain ⟨rfl, rfl, rfl⟩ := by simpa [ExactReader.feedAll] using hfeed
    exact ⟨s, rfl, h, hlocated⟩
  | cons call calls ih =>
    rw [map_cons, ExactReader.feedAll] at hfeed
    obtain ⟨⟨k₁, rest₁, out₁⟩, hfeed₁, hfeed⟩ := Option.bind_eq_some_iff.1 hfeed
    obtain ⟨⟨k₂, rest₂, outs₂⟩, hfeed₂, heq⟩ := Option.map_eq_some_iff.1 hfeed
    obtain ⟨rfl, rfl, rfl⟩ := by simpa using heq
    have hfirst (hstage : k.stage = .header)
        (hlong : (responseReader c account check).need k ≤ (unread ++ call.2).length) :
        Accepts requestSalt account check call.1 :=
      haccepts [] call.1 call.2 calls rfl hstage (by simpa using hshort) (by simpa using hlong)
    obtain ⟨s₁, hcall, hheld₁, hlocated₁⟩ := processReceived_feed h hlocated hfirst hfeed₁
    have haccepts₁ : AcceptsInTime (responseReader c account check)
        (Accepts requestSalt account check) k₁ rest₁ calls := by
      intro before now data after hsplit hstage
      rcases ExactReader.feed_stays_or _ (fun _ _ _ _ => stage_of_on) hfeed₁ with ⟨rfl, rfl⟩ | hne
      · have := haccepts (call :: before) now data after (by rw [hsplit]; rfl) hstage
        simpa using this
      · exact absurd hstage hne
    obtain ⟨s₂, hcalls, hheld₂, hlocated₂⟩ :=
      ih haccepts₁ (ExactReader.feed_rest _ hfeed₁) hheld₁ hlocated₁ hfeed₂
    refine ⟨s₂, ?_, hheld₂, hlocated₂⟩
    rw [receiveAll, hcall, bind_ok, hcalls, bind_ok]

end ResponseState

-- ----
-- Responses

/-- A response: the fixed header says how many bytes of data are behind it, and chunks are behind
the data. Data without bytes is sealed too. -/
structure Response (account : Account) where
  salt : Bytes
  length_salt : salt.length = account.cipher.keySize
  timestamp : Bytes
  length_timestamp : timestamp.length = 8
  requestSalt : Bytes
  length_requestSalt : requestSalt.length = account.cipher.keySize
  varLen : Nat
  varLen_lt : varLen < 65536
  /-- Null where the stream ends behind the fixed header. -/
  data : Option Bytes
  length_data : ∀ bytes ∈ data, bytes.length = varLen
  payloads : List Bytes
  length_payloads : ∀ payload ∈ payloads, payload.length < 65536
  payloads_of_data : data = none → payloads = []

namespace Response

variable {account : Account} (r : Response account) (c : Ciphers2022)

def fixedHeader : Bytes :=
  HEADER_TYPE_SERVER :: (r.timestamp ++ r.requestSalt ++ sizeBytes r.varLen)

def key : Bytes := c.deriveSessionKey account.psk r.salt account.cipher.keySize

def chunkTexts (payloads : List Bytes) : List Bytes :=
  payloads.flatMap fun payload => [sizeBytes payload.length, payload]

/-- The ciphertexts of some texts with their nonces, one nonce after the other. -/
def sealedFrom (cipher : ShadowsocksCipher) (key : Bytes) :
    Bytes → List Bytes → List (Bytes × Bytes)
  | _, [] => []
  | nonce, text :: texts =>
    (increment nonce, c.aeadSeal cipher key (increment nonce) text) ::
      sealedFrom cipher key (increment nonce) texts

def sealedTexts : List (Bytes × Bytes) :=
  sealedFrom c account.cipher (r.key c) (newNonce account.cipher)
    (r.fixedHeader :: (r.data.toList ++ chunkTexts r.payloads))

def wire : Bytes := r.salt ++ ((r.sealedTexts c).map (·.2)).flatten

def check (fixedHeader : Bytes) : Option Nat :=
  if fixedHeader = r.fixedHeader then some r.varLen else none

theorem length_fixedHeader : r.fixedHeader.length = fixedLength account := by
  simp only [fixedHeader, fixedLength, length_cons, length_append, r.length_timestamp,
    r.length_requestSalt, sizeBytes, length_nil]
  omega

/-- The connection takes the fixed header in time. -/
theorem accepts {requestSalt : Option Bytes} (hsalt : ∀ salt ∈ requestSalt, salt = r.requestSalt)
    (hnow : mathAbs (toLong (now - readLongBE r.timestamp 0)) ≤ MAX_TIMESTAMP_DIFF) :
    ResponseState.Accepts requestSalt account r.check now := by
  intro fixedHeader n hcheck
  obtain ⟨rfl, rfl⟩ := by simpa [check] using hcheck
  have htype : readByte r.fixedHeader 0 = .ok HEADER_TYPE_SERVER := rfl
  have hepoch : readLongBE r.fixedHeader 1 = readLongBE r.timestamp 0 := by
    rw [readLongBE, readLongBE, fixedHeader, drop_succ_cons, drop_zero, append_assoc,
      take_left' r.length_timestamp, drop_zero, take_of_length_le r.length_timestamp.le]
  have hrequest : readBytes r.fixedHeader 9 account.cipher.keySize = .ok r.requestSalt := by
    rw [readBytes_eq (by rw [length_fixedHeader, fixedLength]; omega), fixedHeader, drop_succ_cons,
      append_assoc, drop_left' r.length_timestamp, take_left' r.length_requestSalt]
  have hfront : (HEADER_TYPE_SERVER :: (r.timestamp ++ r.requestSalt)).length =
      9 + account.cipher.keySize := by
    rw [length_cons, length_append, r.length_timestamp, r.length_requestSalt]
    omega
  have hlength : readWord r.fixedHeader (9 + account.cipher.keySize) = .ok r.varLen := by
    have h := readWord_append (HEADER_TYPE_SERVER :: (r.timestamp ++ r.requestSalt)) []
      (UInt8.ofNat (r.varLen / 256)) (UInt8.ofNat r.varLen)
    rw [hfront] at h
    refine h.trans (congrArg Except.ok ?_)
    exact readSize_sizeBytes r.varLen_lt
  have hequal : requestSalt.any (· ≠ r.requestSalt) = false := by
    cases requestSalt with
    | none => rfl
    | some salt => simpa using hsalt salt rfl
  rw [ResponseState.checkFixedHeader, length_fixedHeader, fixedLength, if_neg (not_not_intro rfl),
    htype,
    ResponseState.ofReads, bind_ok, if_neg (not_not_intro rfl), hepoch]
  dsimp only
  rw [if_neg (Int.not_lt.2 hnow), hrequest, ResponseState.ofReads, bind_ok, hequal,
    if_neg Bool.false_ne_true, hlength, ResponseState.ofReads]

variable {c} {checks : Bytes → Option Nat}

theorem length_piece {plaintext : Bytes} (key nonce : Bytes) :
    (c.aeadSeal account.cipher key nonce plaintext).length = plaintext.length + TAG_SIZE := by
  rw [Ciphers.length_aeadSeal, ShadowsocksCipher.tagSize_eq account.cipher_ne, TAG_SIZE]

def behindChunk (c : Ciphers2022) (account : Account) (k : ResponseCore) (payload : Bytes) :
    ResponseCore :=
  (k.behind k.key
    (c.aeadSeal account.cipher k.key (increment k.nonce) (sizeBytes payload.length))
    (.chunkPayload payload.length)).behind k.key
      (c.aeadSeal account.cipher k.key (increment (increment k.nonce)) payload) .chunkLength

theorem feed_chunk {k : ResponseCore} (hstage : k.stage = .chunkLength)
    (hlt : payload.length < 65536) (ys : Bytes) :
    (responseReader c account checks).feed k
        (c.aeadSeal account.cipher k.key (increment k.nonce) (sizeBytes payload.length) ++
          (c.aeadSeal account.cipher k.key (increment (increment k.nonce)) payload ++ ys)) =
      ((responseReader c account checks).feed (behindChunk c account k payload) ys).map
        fun t => (t.1, t.2.1, payload ++ t.2.2) := by
  have hlength : (responseReader c account checks).on k
      (c.aeadSeal account.cipher k.key (increment k.nonce) (sizeBytes payload.length)) =
        some (k.behind k.key
          (c.aeadSeal account.cipher k.key (increment k.nonce) (sizeBytes payload.length))
          (.chunkPayload payload.length), []) := by
    have hsize : (sizeBytes payload.length).length = 2 := rfl
    simp only [responseReader, hstage, Ciphers.aeadOpen_aeadSeal, Option.filter_some, hsize,
      decide_true, if_true, Option.map_some, readSize_sizeBytes hlt]
  have hpayload : (responseReader c account checks).on
      (k.behind k.key (c.aeadSeal account.cipher k.key (increment k.nonce)
        (sizeBytes payload.length)) (.chunkPayload payload.length))
      (c.aeadSeal account.cipher k.key (increment (increment k.nonce)) payload) =
        some (behindChunk c account k payload, payload) := by
    simp only [responseReader, ResponseCore.behind, Ciphers.aeadOpen_aeadSeal, Option.map_some,
      behindChunk]
  rw [ExactReader.feed_piece _ (by simp only [responseReader, hstage, length_piece]; rfl) hlength,
    ExactReader.feed_piece _ (by simp only [responseReader, ResponseCore.behind, length_piece])
      hpayload, Option.map_map]
  rfl

theorem feed_chunks {k : ResponseCore} (hstage : k.stage = .chunkLength) {payloads : List Bytes}
    (hlt : ∀ payload ∈ payloads, payload.length < 65536) :
    ∃ k', k'.opened = k.opened ++ sealedFrom c account.cipher k.key k.nonce (chunkTexts payloads) ∧
      (responseReader c account checks).feed k
          ((sealedFrom c account.cipher k.key k.nonce (chunkTexts payloads)).map (·.2)).flatten =
        some (k', [], payloads.flatten) := by
  induction payloads generalizing k with
  | nil =>
    refine ⟨k, (append_nil _).symm, ExactReader.feed_short _ ?_⟩
    simp only [responseReader, hstage]
    exact Nat.zero_lt_succ _
  | cons payload payloads ih =>
    obtain ⟨k', hopened, hfeed⟩ := ih (k := behindChunk c account k payload) rfl
      (fun payload hmem => hlt payload (mem_cons_of_mem _ hmem))
    refine ⟨k', ?_, ?_⟩
    · rw [hopened]
      exact (append_assoc _ _ _).trans (append_assoc _ _ _)
    · refine (feed_chunk hstage (hlt payload (mem_cons_self ..))
        ((sealedFrom c account.cipher k.key (increment (increment k.nonce))
          (chunkTexts payloads)).map (·.2)).flatten).trans ?_
      rw [show k.key = (behindChunk c account k payload).key from rfl,
        show increment (increment k.nonce) = (behindChunk c account k payload).nonce from rfl,
        hfeed]
      rfl

/-- A reader before the first byte. -/
def newCore (account : Account) : ResponseCore := ⟨[], newNonce account.cipher, .header, []⟩

theorem feed_data {k : ResponseCore} (hstage : k.stage = .variableHeader r.varLen) :
    ∃ k', k'.opened = k.opened ++
        sealedFrom c account.cipher k.key k.nonce (r.data.toList ++ chunkTexts r.payloads) ∧
      (responseReader c account checks).feed k ((sealedFrom c account.cipher k.key k.nonce
          (r.data.toList ++ chunkTexts r.payloads)).map (·.2)).flatten =
        some (k', [], r.data.getD [] ++ r.payloads.flatten) := by
  cases hdata : r.data with
  | none =>
    rw [r.payloads_of_data hdata]
    refine ⟨k, (append_nil _).symm, ExactReader.feed_short _ ?_⟩
    simp only [responseReader, hstage]
    exact Nat.zero_lt_succ _
  | some data =>
    have hlength : data.length = r.varLen := r.length_data data hdata
    obtain ⟨k', hopened, hfeed⟩ := feed_chunks (c := c)
      (k := k.behind k.key (c.aeadSeal account.cipher k.key (increment k.nonce) data) .chunkLength)
      rfl r.length_payloads
    refine ⟨k', ?_, ?_⟩
    · rw [hopened]
      exact append_assoc _ _ _
    · have hon : (responseReader c account checks).on k
          (c.aeadSeal account.cipher k.key (increment k.nonce) data) = some (k.behind k.key
            (c.aeadSeal account.cipher k.key (increment k.nonce) data) .chunkLength, data) := by
        simp only [responseReader, hstage, Ciphers.aeadOpen_aeadSeal, Option.map_some]
      refine (ExactReader.feed_piece _
        (by simp only [responseReader, hstage, length_piece, hlength]) hon
          ((sealedFrom c account.cipher k.key (increment k.nonce) (chunkTexts r.payloads)).map
            (·.2)).flatten).trans ?_
      exact congrArg (Option.map fun t => (t.1, t.2.1, data ++ t.2.2)) hfeed

theorem feed_wire : ∃ k', k'.opened = r.sealedTexts c ∧
    (responseReader c account r.check).feed (newCore account) (r.wire c) =
      some (k', [], r.data.getD [] ++ r.payloads.flatten) := by
  have hkey : c.deriveSessionKey account.psk r.salt account.cipher.keySize = r.key c := rfl
  obtain ⟨k', hopened, hfeed⟩ := @feed_data account r c r.check
    ((newCore account).behind (r.key c) (c.aeadSeal account.cipher (r.key c)
      (increment (newNonce account.cipher)) r.fixedHeader) (.variableHeader r.varLen)) rfl
  refine ⟨k', hopened, ?_⟩
  have hon : (responseReader c account r.check).on (newCore account)
      (r.salt ++ c.aeadSeal account.cipher (r.key c) (increment (newNonce account.cipher))
        r.fixedHeader) =
        some ((newCore account).behind (r.key c) (c.aeadSeal account.cipher (r.key c)
      (increment (newNonce account.cipher)) r.fixedHeader) (.variableHeader r.varLen), []) := by
    simp only [responseReader, newCore, take_left' r.length_salt, drop_left' r.length_salt,
      hkey, Ciphers.aeadOpen_aeadSeal, Option.bind_some, check, if_true, Option.map_some]
  rw [wire, sealedTexts, sealedFrom, map_cons, flatten_cons, ← append_assoc]
  refine (ExactReader.feed_piece _ ?_ hon _).trans ?_
  · rw [length_append, r.length_salt, length_piece, length_fixedHeader, ← Nat.add_assoc]
    rfl
  · exact congrArg (Option.map fun t => (t.1, t.2.1, [] ++ t.2.2)) hfeed

end Response

/-- A connection that nothing was received on. -/
def newResponseState (account : Account) (requestSalt : Option Bytes) : ResponseState where
  requestSalt := requestSalt
  readNonce := newNonce account.cipher

/-- A response is read under every cutting, in the order it was sealed in, with nothing lost: the
call in which the fixed header gets complete is in time, and its request salt is the one that was
sent. -/
theorem response_read (c : Ciphers2022) (account : Account) (r : Response account)
    (requestSalt : Option Bytes) (hsalt : ∀ salt ∈ requestSalt, salt = r.requestSalt)
    (calls : List (Int × Bytes)) (hcut : (calls.map (·.2)).flatten = r.wire c)
    (hnow : ∀ before now data after, calls = before ++ (now, data) :: after →
      (before.map (·.2)).flatten.length < account.cipher.keySize + fixedLength account + TAG_SIZE →
      account.cipher.keySize + fixedLength account + TAG_SIZE ≤
        ((before.map (·.2)).flatten ++ data).length →
      mathAbs (toLong (now - readLongBE r.timestamp 0)) ≤ MAX_TIMESTAMP_DIFF) :
    ∃ s outs, (newResponseState account requestSalt).receiveAll c account calls = .ok (s, outs) ∧
      outs.flatten = r.data.getD [] ++ r.payloads.flatten ∧
      s.opened = r.sealedTexts c ∧ s.readBufferAvailable = 0 := by
  obtain ⟨k', hopened, hfeed⟩ := r.feed_wire (c := c)
  have hnone : ([] : Bytes).length <
      (responseReader c account r.check).need (Response.newCore account) := by
    rw [length_nil]
    exact ExactReader.need_pos _ _
  rw [← hcut, ← nil_append (calls.map (·.2)).flatten, ExactReader.feedAll_eq _ hnone] at hfeed
  obtain ⟨⟨k₁, rest, outs⟩, hfeedAll, heq⟩ := Option.map_eq_some_iff.1 hfeed
  obtain ⟨rfl, rfl, houts⟩ := by simpa using heq
  have hheld₀ : ResponseState.Holds requestSalt (newResponseState account requestSalt)
      (Response.newCore account) [] := ⟨Nat.le_refl _, Nat.le_refl _, rfl, rfl, rfl, rfl⟩
  have haccepts : ResponseState.AcceptsInTime (responseReader c account r.check)
      (ResponseState.Accepts requestSalt account r.check) (Response.newCore account) [] calls := by
    intro before now data after hsplit _ hshort hlong
    exact r.accepts hsalt (hnow before now data after hsplit hshort hlong)
  obtain ⟨s, hcalls, hheld, -⟩ :=
    ResponseState.receiveAll_feedAll haccepts hnone hheld₀ ⟨rfl, rfl, rfl⟩ hfeedAll
  refine ⟨s, outs, hcalls, houts, hheld.opened.trans hopened, ?_⟩
  rw [hheld.available, length_nil]

open Shadowsocks2022Connection (oneUser length_zeros toy2022)

/-- One byte of data and a chunk of one byte. -/
def smallResponse : Response oneUser where
  salt := List.replicate 16 0
  length_salt := length_zeros
  timestamp := List.replicate 8 0
  length_timestamp := rfl
  requestSalt := List.replicate 16 0
  length_requestSalt := length_zeros
  varLen := 1
  varLen_lt := by decide
  data := some [5]
  length_data := by rintro bytes ⟨⟩; rfl
  payloads := [[7]]
  length_payloads := by simp
  payloads_of_data := nofun

/-- With a cut within the fixed header. -/
theorem response_read_cut :
    ∃ s outs, (newResponseState oneUser none).receiveAll toy2022 oneUser
        [(0, (smallResponse.wire toy2022).take 30), (30, (smallResponse.wire toy2022).drop 30)] =
          .ok (s, outs) ∧
      outs.flatten = [5, 7] ∧ s.opened = smallResponse.sealedTexts toy2022 ∧
      s.readBufferAvailable = 0 := by
  refine response_read toy2022 oneUser smallResponse none nofun _ ?_ ?_
  · simp
  · intro before now data after hsplit _ _
    have hmem : (now, data) ∈ before ++ (now, data) :: after := by simp
    have hnow : now = 0 ∨ now = 30 := by
      rw [← hsplit] at hmem
      simp at hmem
      exact hmem.imp And.left And.left
    rcases hnow with rfl | rfl <;> decide

end Anywhere.Shadowsocks
