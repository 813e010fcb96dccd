import Anywhere.Shadowsocks.Protocol
import Anywhere.Mux.Frame

/-!
# Anywhere — hosts that are addresses

The protocols are given a host as a text and put it on the wire as an IPv4 address,
an IPv6 address or a domain. VLESS takes the texts of addresses apart by hand;
the others ask `java.net.InetAddress`, of which the model knows what `getByName`
returns. An IPv6 address with an IPv4 address in it is printed with dots by
`inet_ntop`: VLESS has no case for that, and Java makes an `Inet4Address` of a mapped
one.
-/

namespace Anywhere.Net

open Lib Lib.Text FakeIp Shadowsocks List

-- ----
-- The platform

/-- `InetAddress.getByName`: an `Inet4Address` or an `Inet6Address`; none where it
throws. -/
structure Inet where
  getByName : Text → Option IpAddress

def inet4 : IpAddress → Option Bytes
  | .ipv4 bytes => some bytes.1
  | .ipv6 _ => none

def inet6 : IpAddress → Option Bytes
  | .ipv4 _ => none
  | .ipv6 bytes => some bytes.1

/-- What `MuxFrame` uses of the platform. -/
def Inet.mux (inet : Inet) (hostAddress : Bytes → Text) : Mux.InetAddress where
  getByName text := (inet.getByName text).bind inet6
  hostAddress := hostAddress
  length_getByName := by
    intro text bytes h
    obtain ⟨a, -, ha⟩ := Option.bind_eq_some_iff.1 h
    rcases a with a | a
    · cases ha
    · rw [← Option.some.inj ha]
      exact a.2

/-- `IPV4_REGEX`: four groups of one to three digits. -/
def ipv4Regex (address : Text) : Bool :=
  (address.splitOn '.').length == 4 &&
    (address.splitOn '.').all fun group =>
      1 ≤ group.length && group.length ≤ 3 && group.all fun c => (digitOf c 10).isSome

/-- `parseIPv4` of `ShadowsocksProtocol` and of `TrojanProtocol`. -/
def parseIPv4 (inet : Inet) (address : Text) : Option Bytes :=
  if ipv4Regex address then (inet.getByName address).bind inet4 else none

/-- `parseIPv6` of `ShadowsocksProtocol` and of `TrojanProtocol`. -/
def parseIPv6 (inet : Inet) (address : Text) : Option Bytes :=
  if (Mux.unbracket address).contains ':' then
    (inet.getByName (Mux.unbracket address)).bind inet6
  else none

/-- An address of SOCKS5, which Shadowsocks and Trojan share: IPv4, else IPv6, else
the domain. -/
def addressBytes (ipv4 ipv6 : Option Bytes) (domain : Bytes) : Bytes :=
  match ipv4, ipv6 with
  | some ipv4, _ => 0x01 :: ipv4
  | none, some ipv6 => 0x04 :: ipv6
  | none, none => 0x03 :: UInt8.ofNat domain.length :: domain

variable {address text : Text} {bytes : Bytes} {inet : Inet}

theorem length_parseIPv4
    (h : parseIPv4 inet address = some bytes) : bytes.length = 4 := by
  unfold parseIPv4 at h
  split at h
  · obtain ⟨a | a, -, ha⟩ := Option.bind_eq_some_iff.1 h
    · rw [← Option.some.inj ha]
      exact a.2
    · cases ha
  · cases h

theorem length_parseIPv6
    (h : parseIPv6 inet address = some bytes) : bytes.length = 16 := by
  unfold parseIPv6 at h
  split at h
  · obtain ⟨a | a, -, ha⟩ := Option.bind_eq_some_iff.1 h
    · cases ha
    · rw [← Option.some.inj ha]
      exact a.2
  · cases h

-- ----
-- Addresses in addresses

/-- The groups of `::ffff:0:0/96`. -/
def mappedGroups : List Nat → Bool
  | [0, 0, 0, 0, 0, 0xFFFF, _, _] => true
  | _ => false

/-- The groups of `::/96`, less those that have only their last one. -/
def compatibleGroups : List Nat → Bool
  | [0, 0, 0, 0, 0, 0, g, _] => g != 0
  | _ => false

/-- The address is an IPv6 address with an IPv4 address in it: IPv4-mapped or
IPv4-compatible. -/
def embeds : IpAddress → Bool
  | .ipv4 _ => false
  | .ipv6 bytes => mappedGroups (groupsOf bytes) || compatibleGroups (groupsOf bytes)

/-- What Java makes of the text of the address: there is no `Inet6Address` for an
IPv4-mapped one. -/
def javaAddress : IpAddress → IpAddress
  | .ipv4 bytes => .ipv4 bytes
  | .ipv6 bytes =>
    if mappedGroups (groupsOf bytes) then .ipv4 ⟨bytes.1.drop 12, by simp [bytes.2]⟩
    else .ipv6 bytes

-- ----
-- The forms of a printed address

theorem bestRun_mapped (g h : Nat) : bestRun [0, 0, 0, 0, 0, 0xFFFF, g, h] = some (0, 5) := by
  by_cases hg : g = 0 <;> by_cases hh : h = 0 <;> simp [bestRun, zeroRuns, hg, hh]

theorem bestRun_compatible {g : Nat} (hg : g ≠ 0) (h : Nat) :
    bestRun [0, 0, 0, 0, 0, 0, g, h] = some (0, 6) := by
  by_cases hh : h = 0 <;> simp [bestRun, zeroRuns, hg, hh]

theorem bestRun_last (h : Nat) :
    bestRun [0, 0, 0, 0, 0, 0, 0, h] = some (0, if h = 0 then 8 else 7) := by
  by_cases hh : h = 0 <;> simp [bestRun, zeroRuns, hh]

variable {ws : List Nat}

theorem mappedGroups_eq_true (h : mappedGroups ws = true) :
    ∃ g h, ws = [0, 0, 0, 0, 0, 0xFFFF, g, h] := by
  unfold mappedGroups at h
  split at h
  · exact ⟨_, _, rfl⟩
  · cases h

theorem compatibleGroups_eq_true (h : compatibleGroups ws = true) :
    ∃ g h, g ≠ 0 ∧ ws = [0, 0, 0, 0, 0, 0, g, h] := by
  unfold compatibleGroups at h
  split at h
  · exact ⟨_, _, by simpa using h, rfl⟩
  · cases h

/-- The run that makes `inet_ntop` print dots stands in front of an IPv4 address. -/
theorem embedded_of_encapsulated (hlen : ws.length = 8) {run : Nat × Nat}
    (hbest : bestRun ws = some run) (henc : encapsulated ws run = true) :
    (mappedGroups ws || compatibleGroups ws) = true := by
  match ws, hlen with
  | [a, b, c, d, e, f, g, h], _ =>
    obtain ⟨-, -, hzero⟩ := bestRun_isRun hbest
    obtain ⟨base, len⟩ := run
    simp only [encapsulated, Bool.and_eq_true, Bool.or_eq_true, beq_iff_eq] at henc
    obtain ⟨rfl, hlen'⟩ := henc
    rcases hlen' with rfl | ⟨rfl, hf⟩
    · simp [replicate_succ] at hzero
      obtain ⟨rfl, rfl, rfl, rfl, rfl, rfl⟩ := hzero
      by_cases hg : g = 0
      · subst hg
        rw [bestRun_last] at hbest
        split at hbest <;> simp at hbest
      · simp [compatibleGroups, hg]
    · simp [replicate_succ] at hzero hf
      obtain ⟨rfl, rfl, rfl, rfl, rfl⟩ := hzero
      subst hf
      rfl

/-- With an IPv4 address in it: the groups in front of the dots are none or `ffff`. -/
theorem inetNtop6_embedded
    (h : (mappedGroups (groupsOf bytes) || compatibleGroups (groupsOf bytes)) = true) :
    ∃ front : List Nat, front.length ≤ 1 ∧ inetNtop6 bytes = ':' :: ':' ::
      [':'].intercalate (front.map (Nat.toDigits 16) ++ [inetNtop4 (bytes.drop 12)]) := by
  rcases Bool.or_eq_true_iff.1 h with h | h
  · obtain ⟨g, h, hws⟩ := mappedGroups_eq_true h
    refine ⟨[0xFFFF], by simp, ?_⟩
    unfold inetNtop6
    dsimp only
    rw [hws, bestRun_mapped]
    rfl
  · obtain ⟨g, h, hg, hws⟩ := compatibleGroups_eq_true h
    refine ⟨[], by simp, ?_⟩
    unfold inetNtop6
    dsimp only
    rw [hws, bestRun_compatible hg]
    rfl

/-- Without one: eight groups, or groups around one gap of zeros. -/
theorem inetNtop6_plain (hlen : bytes.length = 16)
    (h : (mappedGroups (groupsOf bytes) || compatibleGroups (groupsOf bytes)) = false) :
    inetNtop6 bytes = [':'].intercalate ((groupsOf bytes).map (Nat.toDigits 16)) ∨
    ∃ (left : List Nat) (n : Nat) (right : List Nat), groupsOf bytes = left ++
      List.replicate n 0 ++ right ∧
      inetNtop6 bytes = [':'].intercalate (left.map (Nat.toDigits 16)) ++ ':' :: ':' ::
        [':'].intercalate (right.map (Nat.toDigits 16)) := by
  obtain ⟨-, hwlen, -⟩ := @groupsOf_bytes bytes (by omega)
  have hw8 : (groupsOf bytes).length = 8 := by omega
  unfold inetNtop6
  dsimp only
  rcases hbest : bestRun (groupsOf bytes) with _ | run
  · exact .inl rfl
  · right
    obtain ⟨-, -, hzero⟩ := bestRun_isRun hbest
    refine ⟨(groupsOf bytes).take run.1, run.2, (groupsOf bytes).drop (run.1 + run.2), ?_, ?_⟩
    · rw [← hzero, ← drop_drop, append_assoc, take_append_drop, take_append_drop]
    · have henc : ¬ encapsulated (groupsOf bytes) run = true := by
        intro henc
        rw [embedded_of_encapsulated hw8 hbest henc] at h
        cases h
      dsimp only
      rw [if_neg henc]

-- ----
-- The characters of a printed address

def isAddressChar (c : Char) : Prop := c = ':' ∨ c = '.' ∨ ∃ d < 16, c = d.digitChar

theorem isAddressChar_toDigits {radix n : Nat} (h1 : 1 < radix) (h16 : radix ≤ 16) {c : Char}
    (hc : c ∈ Nat.toDigits radix n) : isAddressChar c := by
  obtain ⟨d, hd, rfl⟩ := digitChar_of_mem_toDigits h1 hc
  exact .inr (.inr ⟨d, by omega, rfl⟩)

variable {groups : List Text}

theorem isAddressChar_intercalate {sep : Char} (hsep : isAddressChar sep)
    (h : ∀ g ∈ groups, ∀ c ∈ g, isAddressChar c) :
    ∀ c ∈ [sep].intercalate groups, isAddressChar c := by
  intro c hc
  induction groups with
  | nil => simp at hc
  | cons g groups ih =>
    rcases groups with _ | ⟨g', groups⟩
    · exact h g (by simp) c (by simpa using hc)
    · rw [intercalate_cons_cons, append_assoc, mem_append, singleton_append,
        mem_cons] at hc
      rcases hc with hc | rfl | hc
      · exact h g (by simp) c hc
      · exact hsep
      · exact ih (fun g hg => h g (by simp [hg])) hc

theorem isAddressChar_inetNtop4 (bytes : Bytes) : ∀ c ∈ inetNtop4 bytes, isAddressChar c := by
  refine isAddressChar_intercalate (.inr (.inl rfl)) fun g hg c hc => ?_
  obtain ⟨b, -, rfl⟩ := mem_map.1 hg
  exact isAddressChar_toDigits (by decide) (by decide) hc

theorem isAddressChar_groups (ws : List Nat) :
    ∀ c ∈ [':'].intercalate (ws.map (Nat.toDigits 16)), isAddressChar c := by
  refine isAddressChar_intercalate (.inl rfl) fun g hg c hc => ?_
  obtain ⟨w, -, rfl⟩ := mem_map.1 hg
  exact isAddressChar_toDigits (by decide) (by decide) hc

theorem isAddressChar_toText (a : IpAddress) : ∀ c ∈ a.toText, isAddressChar c := by
  rcases a with bytes | ⟨bytes, hlen⟩
  · exact isAddressChar_inetNtop4 bytes.1
  · intro c hc
    have hcolon : isAddressChar ':' := .inl rfl
    change c ∈ inetNtop6 bytes at hc
    rcases hemb : mappedGroups (groupsOf bytes) || compatibleGroups (groupsOf bytes)
    · rcases inetNtop6_plain hlen hemb with htext | ⟨left, n, right, -, htext⟩
      · rw [htext] at hc
        exact isAddressChar_groups _ c hc
      · rw [htext, mem_append, mem_cons, mem_cons] at hc
        rcases hc with hc | rfl | rfl | hc
        · exact isAddressChar_groups _ c hc
        · exact hcolon
        · exact hcolon
        · exact isAddressChar_groups _ c hc
    · obtain ⟨front, -, htext⟩ := inetNtop6_embedded hemb
      rw [htext, mem_cons, mem_cons] at hc
      rcases hc with rfl | rfl | hc
      · exact hcolon
      · exact hcolon
      · refine isAddressChar_intercalate hcolon (fun g hg c hc => ?_) c hc
        rcases mem_append.1 hg with hg | hg
        · obtain ⟨w, -, rfl⟩ := mem_map.1 hg
          exact isAddressChar_toDigits (by decide) (by decide) hc
        · rw [mem_singleton.1 hg] at hc
          exact isAddressChar_inetNtop4 _ c hc

theorem unbracket_toText (a : IpAddress) : Mux.unbracket a.toText = a.toText := by
  unfold Mux.unbracket
  rw [if_neg]
  rintro ⟨hhead, -⟩
  have hall : ∀ d : Nat, d < 16 → ¬ '[' = d.digitChar := by decide
  rcases isAddressChar_toText a '[' (List.mem_of_head? hhead) with h | h | ⟨d, hd, h⟩
  · exact absurd h (by decide)
  · exact absurd h (by decide)
  · exact hall d hd h

-- ----
-- The hand-written parsers

theorem splitOn_gap (left right : Text) :
    (left ++ ':' :: ':' :: right).splitOn ':' = left.splitOn ':' ++ [] :: right.splitOn ':' := by
  rw [splitOn_append_cons_self]
  exact congrArg (_ ++ ·) (splitOn_append_cons_self [] right)

/-- Joined groups split into what they were joined from; none of them give one empty
part. -/
theorem splitOn_groups (h : ∀ g ∈ groups, g ≠ [] ∧ ':' ∉ g) :
    ([':'].intercalate groups).splitOn ':' = if groups = [] then [[]] else groups := by
  split
  · rename_i hnil
    rw [hnil]
    rfl
  · rename_i hne
    exact splitOn_intercalate ':' (fun g hg => (h g hg).2) hne

theorem filter_groups (h : ∀ g ∈ groups, g ≠ [] ∧ ':' ∉ g) :
    (if groups = [] then [[]] else groups).filter (· ≠ []) = groups := by
  split
  · rename_i hnil
    rw [hnil]
    rfl
  · rw [filter_eq_self]
    intro g hg
    simpa using (h g hg).1

theorem idxOf_gap {rest : List Text} (h : ∀ g ∈ groups, g ≠ [] ∧ ':' ∉ g) :
    ((if groups = [] then [[]] else groups) ++ [] :: rest).idxOf? [] = some groups.length := by
  split
  · rename_i hnil
    rw [hnil]
    rfl
  · clear * - h
    induction groups with
    | nil => rfl
    | cons g groups ih =>
      have hg : (g == []) = false := by simpa using (h g (by simp)).1
      rw [cons_append, List.idxOf?_cons, hg, ih fun g hg => h g (by simp [hg])]
      rfl

/-- The end of `parseIPv6`: eight groups and their bytes. -/
def eightGroups (groups : List Text) : Option Bytes :=
  if groups.length ≠ 8 then none
  else
    (groups.mapM fun group =>
      match toNumberOrNull 32 16 group with
      | none => none
      | some value =>
        if value < 0 ∨ value > 0xFFFF then none
        else some [UInt8.ofNat (value.toNat / 256), UInt8.ofNat value.toNat]).map List.flatten

/-- `parseIPv6` when no part is empty. -/
theorem vless_parseIPv6_full (hun : Mux.unbracket address = address)
    (h : [] ∉ address.splitOn ':') :
    Vless.parseIPv6 address = eightGroups (address.splitOn ':') := by
  unfold Mux.unbracket at hun
  unfold Vless.parseIPv6
  dsimp only
  rw [hun, List.idxOf?_eq_none_iff.2 h]
  rfl

/-- `parseIPv6` on groups around a gap. -/
theorem vless_parseIPv6_gap {left right : List Text} (hl : ∀ g ∈ left, g ≠ [] ∧ ':' ∉ g)
    (hr : ∀ g ∈ right, g ≠ [] ∧ ':' ∉ g)
    (hun : Mux.unbracket ([':'].intercalate left ++ ':' :: ':' :: [':'].intercalate right) =
      [':'].intercalate left ++ ':' :: ':' :: [':'].intercalate right)
    (hlen : left.length + right.length ≤ 8) :
    Vless.parseIPv6 ([':'].intercalate left ++ ':' :: ':' :: [':'].intercalate right) =
      eightGroups (left ++ List.replicate (8 - left.length - right.length) ['0'] ++ right) := by
  have htake : ((if left = [] then [[]] else left) ++ [] :: if right = [] then [[]] else right).take
      left.length = left := by
    split
    · rename_i hnil
      rw [hnil]
      rfl
    · exact take_left
  have hdrop : (((if left = [] then [[]] else left) ++ [] :: if right = [] then [[]]
      else right).drop (left.length + 1)).filter (· ≠ []) = right := by
    split
    · rename_i hnil
      rw [hnil]
      show List.filter (· ≠ []) ([] :: if right = [] then [[]] else right) = right
      rw [filter_cons_of_neg (by simp), filter_groups hr]
    · rw [drop_append, drop_of_length_le (by omega), nil_append, Nat.add_sub_cancel_left]
      exact filter_groups hr
  unfold Mux.unbracket at hun
  unfold Vless.parseIPv6
  dsimp only
  rw [hun, splitOn_gap, splitOn_groups hl, splitOn_groups hr, idxOf_gap hl]
  dsimp only
  rw [htake, hdrop, if_neg (by omega)]
  rfl

theorem mapM_eq_none {α β : Type} {f : α → Option β} {as : List α} {a : α} (h : a ∈ as)
    (ha : f a = none) : as.mapM f = none := by
  induction as with
  | nil => cases h
  | cons b as ih =>
    rw [mapM_cons]
    rcases mem_cons.1 h with rfl | h
    · rw [ha]
      rfl
    · rw [ih h]
      rcases f b with _ | _ <;> rfl

theorem eightGroups_toDigits (hlen : ws.length = 8) (hlt : ∀ w ∈ ws, w < 65536) :
    eightGroups (ws.map (Nat.toDigits 16)) = some (ws.flatMap wordBytes) := by
  unfold eightGroups
  rw [if_neg (by simp [hlen])]
  clear hlen
  induction ws with
  | nil => rfl
  | cons w ws ih =>
    have hw : w < 65536 := hlt w (by simp)
    have ih := ih fun o ho => hlt o (by simp [ho])
    rw [Option.map_eq_some_iff] at ih
    obtain ⟨groups, hmap, hflat⟩ := ih
    have hrange : ¬ ((w : Int) < 0 ∨ (w : Int) > 0xFFFF) := by omega
    rw [map_cons, mapM_cons, toNumberOrNull_toDigits (by decide) (by decide) (by omega)]
    simp only [hrange, if_false, hmap]
    show some (List.flatten (wordBytes w :: groups)) = _
    rw [flatten_cons, hflat, flatMap_cons]

theorem eightGroups_dotted {groups : List Text} {a b : UInt8} {rest : Bytes}
    (h : inetNtop4 (a :: b :: rest) ∈ groups) : eightGroups groups = none := by
  unfold eightGroups
  split
  · rfl
  · rw [mapM_eq_none h (by rw [toNumberOrNull_inetNtop4])]
    rfl

theorem length_groups (hlen : bytes.length = 16) :
    (groupsOf bytes).length = 8 ∧ (∀ w ∈ groupsOf bytes, w < 65536) ∧
      (groupsOf bytes).flatMap wordBytes = bytes := by
  obtain ⟨hbytes, hwlen, hlt⟩ := @groupsOf_bytes bytes (by omega)
  exact ⟨by omega, hlt, hbytes⟩

/-- The hand-written parser reads a printed IPv6 address that has no IPv4 address in
it. -/
theorem vless_parseIPv6_plain (bytes : {bytes : Bytes // bytes.length = 16})
    (h : embeds (.ipv6 bytes) = false) : Vless.parseIPv6 (inetNtop6 bytes) = some bytes.1 := by
  have hun := unbracket_toText (.ipv6 bytes)
  obtain ⟨hw8, hlt, hbytes⟩ := length_groups bytes.2
  change Mux.unbracket (inetNtop6 bytes) = inetNtop6 bytes at hun
  rcases inetNtop6_plain bytes.2 h with htext | ⟨left, n, right, hws, htext⟩
  · have hne : (groupsOf bytes).map (Nat.toDigits 16) ≠ [] := by
      intro hnil
      rw [map_eq_nil_iff.1 hnil] at hw8
      cases hw8
    have hsplit : (inetNtop6 bytes.1).splitOn ':' = (groupsOf bytes).map (Nat.toDigits 16) := by
      rw [htext, splitOn_groups map_toDigits_isGroup, if_neg hne]
    rw [vless_parseIPv6_full hun, hsplit, eightGroups_toDigits hw8 hlt, hbytes]
    rw [hsplit]
    exact fun hmem => (map_toDigits_isGroup _ hmem).1 rfl
  · have hcount : left.length + n + right.length = 8 := by
      rw [← hw8, hws]
      simp [Nat.add_assoc]
    rw [htext] at hun ⊢
    rw [vless_parseIPv6_gap map_toDigits_isGroup map_toDigits_isGroup hun (by simp; omega)]
    have hgroups : left.map (Nat.toDigits 16) ++
        List.replicate (8 - (left.map (Nat.toDigits 16)).length -
          (right.map (Nat.toDigits 16)).length)
          ['0'] ++ right.map (Nat.toDigits 16) = (groupsOf bytes).map (Nat.toDigits 16) := by
      rw [hws, map_append, map_append, map_replicate, length_map, length_map,
        show 8 - left.length - right.length = n by omega]
      rfl
    rw [hgroups, eightGroups_toDigits hw8 hlt, hbytes]

/-- The hand-written parser does not read the dotted form. -/
theorem vless_parseIPv6_embedded (bytes : {bytes : Bytes // bytes.length = 16})
    (h : embeds (.ipv6 bytes) = true) : Vless.parseIPv6 (inetNtop6 bytes) = none := by
  have hun := unbracket_toText (.ipv6 bytes)
  change Mux.unbracket (inetNtop6 bytes) = inetNtop6 bytes at hun
  obtain ⟨a, b, rest, hdrop⟩ : ∃ a b rest, bytes.1.drop 12 = a :: b :: rest := by
    have hlen : (bytes.1.drop 12).length = 4 := by simp [bytes.2]
    match bytes.1.drop 12, hlen with
    | a :: b :: rest, _ => exact ⟨a, b, rest, rfl⟩
  obtain ⟨front, hfront, htext⟩ := inetNtop6_embedded h
  have hgroup : ∀ g ∈ front.map (Nat.toDigits 16) ++ [inetNtop4 (bytes.1.drop 12)], g ≠ [] ∧
      ':' ∉ g := by
    intro g hg
    rcases mem_append.1 hg with hg | hg
    · exact map_toDigits_isGroup g hg
    · rw [mem_singleton.1 hg]
      refine ⟨?_, colon_notMem_inetNtop4 _⟩
      rw [hdrop, inetNtop4, map_cons, map_cons, intercalate_cons_cons]
      simp
  rw [htext] at hun ⊢
  have hgap :=
    @vless_parseIPv6_gap [] (front.map (Nat.toDigits 16) ++ [inetNtop4 (bytes.1.drop 12)])
    (by simp) hgroup hun (by simp; omega)
  refine hgap.trans ?_
  rw [hdrop]
  exact @eightGroups_dotted _ a b rest (by simp)

/-- The parts of a printed IPv4 address. -/
theorem splitOn_inetNtop4 (hlen : bytes.length = 4) :
    (inetNtop4 bytes).splitOn '.' = bytes.map fun b => Nat.toDigits 10 b.toNat := by
  refine splitOn_intercalate '.' ?_ ?_
  · intro g hg
    obtain ⟨b, -, rfl⟩ := mem_map.1 hg
    exact sep_notMem_toDigits (by decide) (by decide) (.inr rfl) _
  · intro hnil
    rw [map_eq_nil_iff.1 hnil] at hlen
    cases hlen

theorem vless_parseIPv4_inetNtop4 (hlen : bytes.length = 4) :
    Vless.parseIPv4 (inetNtop4 bytes) = some bytes := by
  unfold Vless.parseIPv4
  dsimp only
  rw [splitOn_inetNtop4 hlen, if_neg (by simp [hlen])]
  clear hlen
  induction bytes with
  | nil => rfl
  | cons b bytes ih =>
    have hb := b.toNat_lt
    have hrange : ¬ ((b.toNat : Int) < 0 ∨ (b.toNat : Int) > 255) := by omega
    rw [map_cons, mapM_cons, toNumberOrNull_toDigits (by decide) (by decide) (by omega), ih]
    simp only [hrange, if_false, Int.toNat_natCast, UInt8.ofNat_toNat]
    rfl

-- ----
-- Colons

theorem toNumberOrNull_colon (h : ':' ∈ text) : toNumberOrNull 32 10 text = none := by
  obtain ⟨a, b, rfl⟩ := append_of_mem h
  by_cases ha : a = []
  · have hcolon : digitOf ':' 10 = none := by decide
    simp [ha, toNumberOrNull, parseDigits, hcolon]
  · exact toNumberOrNull_eq_none ha (by decide)

theorem colon_mem_part (h : ':' ∈ text) : ∃ part ∈ text.splitOn '.', ':' ∈ part := by
  rw [← @intercalate_splitOn _ text _ _ '.'] at h
  generalize text.splitOn '.' = parts at h
  induction parts with
  | nil => simp at h
  | cons part parts ih =>
    rcases parts with _ | ⟨part', parts⟩
    · exact ⟨part, by simp, by simpa using h⟩
    · rw [intercalate_cons_cons, append_assoc, mem_append, singleton_append,
        mem_cons] at h
      rcases h with h | h | h
      · exact ⟨part, by simp, h⟩
      · exact absurd h (by decide)
      · obtain ⟨p, hp, hcolon⟩ := ih h
        exact ⟨p, by simp [hp], hcolon⟩

theorem vless_parseIPv4_colon (h : ':' ∈ text) : Vless.parseIPv4 text = none := by
  obtain ⟨part, hpart, hcolon⟩ := colon_mem_part h
  unfold Vless.parseIPv4
  dsimp only
  split
  · rfl
  · exact mapM_eq_none hpart (by rw [toNumberOrNull_colon hcolon])

theorem ipv4Regex_colon (h : ':' ∈ text) : ipv4Regex text = false := by
  obtain ⟨part, hpart, hcolon⟩ := colon_mem_part h
  have hdigit : digitOf ':' 10 = none := by decide
  rw [Bool.eq_false_iff]
  intro hregex
  rw [ipv4Regex, Bool.and_eq_true, all_eq_true] at hregex
  have := hregex.2 part hpart
  rw [Bool.and_eq_true, all_eq_true] at this
  have := this.2 ':' hcolon
  rw [hdigit] at this
  cases this

theorem ipv4Regex_inetNtop4 (hlen : bytes.length = 4) :
    ipv4Regex (inetNtop4 bytes) = true := by
  have hdigits : ∀ n < 256, (1 ≤ (Nat.toDigits 10 n).length && (Nat.toDigits 10 n).length ≤ 3 &&
      (Nat.toDigits 10 n).all fun c => (digitOf c 10).isSome) = true := by
    decide +kernel
  rw [ipv4Regex, splitOn_inetNtop4 hlen, Bool.and_eq_true, all_eq_true]
  refine ⟨by simp [hlen], fun g hg => ?_⟩
  obtain ⟨b, -, rfl⟩ := mem_map.1 hg
  exact hdigits _ b.toNat_lt

theorem colon_mem_inetNtop6 (hlen : bytes.length = 16) : ':' ∈ inetNtop6 bytes := by
  rcases hemb : mappedGroups (groupsOf bytes) || compatibleGroups (groupsOf bytes)
  · rcases inetNtop6_plain hlen hemb with htext | ⟨left, n, right, -, htext⟩
    · -- one part only, were there no colon
      by_contra hno
      have hsplit := splitOn_groups (@map_toDigits_isGroup (groupsOf bytes))
      rw [← htext, splitOn_eq_singleton hno] at hsplit
      have hw8 := (length_groups hlen).1
      split at hsplit
      · rename_i hnil
        rw [map_eq_nil_iff.1 hnil] at hw8
        cases hw8
      · have := congrArg List.length hsplit
        simp [hw8] at this
    · simp [htext]
  · obtain ⟨front, -, htext⟩ := inetNtop6_embedded hemb
    simp [htext]

-- ----
-- The parsers of the platform

/-- What the platform makes of a printed IPv4 address. -/
theorem parseIPv4_toText {a : IpAddress} (h : inet.getByName a.toText = some (javaAddress a)) :
    parseIPv4 inet a.toText = inet4 a := by
  rcases a with bytes | bytes
  · unfold parseIPv4
    rw [if_pos, h]
    · rfl
    · exact ipv4Regex_inetNtop4 bytes.2
  · unfold parseIPv4
    rw [if_neg]
    · rfl
    · rw [Bool.not_eq_true]
      exact ipv4Regex_colon (colon_mem_inetNtop6 bytes.2)

/-- What the platform makes of a printed IPv6 address. -/
theorem parseIPv6_toText {a : IpAddress} (h : inet.getByName a.toText = some (javaAddress a)) :
    parseIPv6 inet a.toText = inet6 (javaAddress a) := by
  rcases a with bytes | bytes
  · unfold parseIPv6
    rw [unbracket_toText, if_neg]
    · rfl
    · rw [contains_iff_mem]
      exact colon_notMem_inetNtop4 bytes.1
  · unfold parseIPv6
    rw [unbracket_toText, if_pos, h]
    · rfl
    · rw [contains_iff_mem]
      exact colon_mem_inetNtop6 bytes.2

/-- The address of a printed address is its own, unless it is a mapped one: that goes
as a domain. -/
theorem addressBytes_toText (a : IpAddress) (domain : Bytes) :
    addressBytes (inet4 a) (inet6 (javaAddress a)) domain = a.header ∨
      embeds a = true ∧ ∃ rest, addressBytes (inet4 a) (inet6 (javaAddress a)) domain =
        0x03 :: rest := by
  rcases a with bytes | bytes
  · exact .inl rfl
  · rcases hm : mappedGroups (groupsOf bytes)
    · left
      rw [javaAddress, hm]
      rfl
    · right
      refine ⟨by simp [embeds, hm], ?_⟩
      rw [javaAddress, hm]
      exact ⟨_, rfl⟩

end Anywhere.Net
