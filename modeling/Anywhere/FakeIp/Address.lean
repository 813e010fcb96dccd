import Anywhere.Config
import Anywhere.Lib.Text

/-!
# Anywhere — fake addresses and their texts

The arithmetic of `FakeIpPool` between offsets and addresses, its two parsers of
address texts, and `inet_ntop`, which prints the texts they are given
(`lwip_ip_to_string`). `inet_ntop` is the C library's: it replaces the first
longest run of at least two zero groups by `::` and prints the last four bytes of
an encapsulated IPv4 address with dots.
-/

namespace Anywhere.FakeIp

open Lib Lib.Text List

/-- `TunnelConstants.fakeIPPoolBaseIPv4`: 198.18.0.0. -/
def baseIPv4 : Nat := 0xC6120000

/-- `TunnelConstants.fakeIPPoolSize`. -/
def poolSize : Nat := 16384

-- ----
-- Offsets and addresses

def ipv4Bytes (offset : Nat) : Bytes :=
  let ip32 := baseIPv4 + offset
  [UInt8.ofNat (ip32 / 2 ^ 24), UInt8.ofNat (ip32 / 2 ^ 16), UInt8.ofNat (ip32 / 2 ^ 8),
    UInt8.ofNat ip32]

def ipv6Bytes (offset : Nat) : Bytes :=
  [0xFC, 0x00, 0x00, 0x00, 0x00, 0x00, 0x00, 0x00, 0x00, 0x00, 0x00, 0x00,
    UInt8.ofNat (offset / 2 ^ 24), UInt8.ofNat (offset / 2 ^ 16), UInt8.ofNat (offset / 2 ^ 8),
    UInt8.ofNat offset]

/-- `offset < 1 || offset > POOL_SIZE`. -/
def inPool (offset : Int) : Option Nat :=
  if offset < 1 ∨ offset > poolSize then none else some offset.toNat

-- ----
-- The parsers

/-- `ipv4ToOffset`: the four numbers are shifted and joined as 64-bit numbers, and
the difference to the base is cut to 32 bits. -/
def ipv4ToOffset (ip : Text) : Option Nat :=
  match ip.splitOn '.' with
  | [pa, pb, pc, pd] =>
    match toNumberOrNull 64 10 pa, toNumberOrNull 64 10 pb, toNumberOrNull 64 10 pc,
        toNumberOrNull 64 10 pd with
    | some a, some b, some c, some d =>
      let ip32 := (BitVec.ofInt 64 a <<< 24) ||| (BitVec.ofInt 64 b <<< 16) |||
        (BitVec.ofInt 64 c <<< 8) ||| BitVec.ofInt 64 d
      inPool ((ip32 - BitVec.ofNat 64 baseIPv4).setWidth 32).toInt
    | _, _, _, _ => none
  | _ => none

def groupBytes (value : Int) : Bytes :=
  [UInt8.ofNat ((value / 256) % 256).toNat, UInt8.ofNat (value % 256).toNat]

/-- The bytes of some groups; null when one of them is no number. -/
def groupsBytes : List Text → Option Bytes
  | [] => some []
  | group :: groups =>
    match toNumberOrNull 32 16 group with
    | none => none
    | some value => (groupsBytes groups).map (groupBytes value ++ ·)

/-- `parseIpv6`: what stands left of `::` fills the address from the front, what
stands right of it from the back. -/
def parseIpv6 (ip : Text) : Option Bytes :=
  match indexOf [':', ':'] ip with
  | some doubleColonIndex =>
    let left := if doubleColonIndex = 0 then [] else (ip.take doubleColonIndex).splitOn ':'
    let right := if doubleColonIndex + 2 ≥ ip.length then []
      else (ip.drop (doubleColonIndex + 2)).splitOn ':'
    if left.length + right.length > 8 then none
    else
      match groupsBytes left, groupsBytes right with
      | some front, some back =>
        some (front ++ List.replicate (16 - front.length - back.length) 0 ++ back)
      | _, _ => none
  | none =>
    let groups := ip.splitOn ':'
    if groups.length ≠ 8 then none else groupsBytes groups

def ipv6ToOffset (ip : Text) : Option Nat :=
  match parseIpv6 ip with
  | some [b0, b1, b2, b3, b4, b5, b6, b7, b8, b9, b10, b11, b12, b13, b14, b15] =>
    if b0 ≠ 0xFC ∨ b1 ≠ 0x00 then none
    else if [b2, b3, b4, b5, b6, b7, b8, b9, b10, b11].any (· != 0) then none
    else
      inPool ((BitVec.ofNat 32 b12.toNat <<< 24) ||| (BitVec.ofNat 32 b13.toNat <<< 16) |||
        (BitVec.ofNat 32 b14.toNat <<< 8) ||| BitVec.ofNat 32 b15.toNat).toInt
  | _ => none

def ipToOffset (ip : Text) : Option Nat :=
  if ip.contains ':' then ipv6ToOffset ip else ipv4ToOffset ip

def isFakeIp (ip : Text) : Bool :=
  "198.18.".toList.isPrefixOf ip || "198.19.".toList.isPrefixOf ip || "fc00::".toList.isPrefixOf ip

-- ----
-- The printer

/-- `inet_ntop(AF_INET, …)`. -/
def inetNtop4 (bytes : Bytes) : Text :=
  ['.'].intercalate (bytes.map fun b => Nat.toDigits 10 b.toNat)

def groupsOf : Bytes → List Nat
  | a :: b :: rest => (a.toNat * 256 + b.toNat) :: groupsOf rest
  | _ => []

/-- The runs of zero groups, each with its start and its length, in order; `i` is
the index of the first group of `ws`. -/
def zeroRuns : Nat → List Nat → List (Nat × Nat)
  | _, [] => []
  | i, w :: ws =>
    if w = 0 then
      match zeroRuns (i + 1) ws with
      | (base, len) :: runs => if base = i + 1 then (i, len + 1) :: runs
          else (i, 1) :: (base, len) :: runs
      | [] => [(i, 1)]
    else zeroRuns (i + 1) ws

/-- The first longest run, when it has at least two groups. -/
def bestRun (ws : List Nat) : Option (Nat × Nat) :=
  (((zeroRuns 0 ws).foldl (fun best run =>
    match best with
    | none => some run
    | some b => if b.2 < run.2 then some run else best) none)).filter (2 ≤ ·.2)

/-- An IPv4 address in the last two groups: compatible or mapped. -/
def encapsulated (ws : List Nat) (run : Nat × Nat) : Bool :=
  run.1 == 0 && (run.2 == 6 || (run.2 == 5 && ws[5]? == some 0xFFFF))

/-- `inet_ntop(AF_INET6, …)`. -/
def inetNtop6 (bytes : Bytes) : Text :=
  let ws := groupsOf bytes
  match bestRun ws with
  | none => [':'].intercalate (ws.map (Nat.toDigits 16))
  | some run =>
    let left := (ws.take run.1).map (Nat.toDigits 16)
    let right :=
      if encapsulated ws run then
        ((ws.take 6).drop (run.1 + run.2)).map (Nat.toDigits 16) ++ [inetNtop4 (bytes.drop 12)]
      else (ws.drop (run.1 + run.2)).map (Nat.toDigits 16)
    [':'].intercalate left ++ ':' :: ':' :: [':'].intercalate right

-- ----
-- Bytes and groups

/-- The two bytes of a group below 65536. -/
def wordBytes (w : Nat) : Bytes := [UInt8.ofNat (w / 256), UInt8.ofNat w]

theorem groupBytes_natCast (w : Nat) : groupBytes (w : Int) = wordBytes w := by
  have h1 : ((w : Int) / 256 % 256).toNat = w / 256 % 256 := by omega
  have h2 : ((w : Int) % 256).toNat = w % 256 := by omega
  rw [groupBytes, h1, h2, wordBytes]
  simp [← UInt8.toNat_inj]

theorem groupsOf_bytes : ∀ {bytes : Bytes}, bytes.length % 2 = 0 →
    (groupsOf bytes).flatMap wordBytes = bytes ∧ 2 * (groupsOf bytes).length = bytes.length ∧
      ∀ w ∈ groupsOf bytes, w < 65536
  | [], _ => by simp [groupsOf]
  | [a], h => by simp at h
  | a :: b :: rest, h => by
    have hrest : rest.length % 2 = 0 := by
      rw [length_cons, length_cons] at h
      omega
    obtain ⟨hbytes, hlen, hlt⟩ := groupsOf_bytes hrest
    have ha := a.toNat_lt
    have hb := b.toNat_lt
    refine ⟨?_, ?_, ?_⟩
    · rw [groupsOf, flatMap_cons, hbytes, wordBytes]
      have h1 : (a.toNat * 256 + b.toNat) / 256 = a.toNat := by omega
      rw [h1]
      simp
    · simp [groupsOf]
      omega
    · intro w hw
      rcases mem_cons.mp hw with rfl | hw
      · omega
      · exact hlt w hw

variable {ws : List Nat}

theorem groupsBytes_toDigits (h : ∀ w ∈ ws, w < 65536) :
    groupsBytes (ws.map (Nat.toDigits 16)) = some (ws.flatMap wordBytes) := by
  induction ws with
  | nil => rfl
  | cons w ws ih =>
    have hw : w < 65536 := h w (by simp)
    rw [map_cons, groupsBytes, toNumberOrNull_toDigits (by decide) (by decide) (by omega),
      ih fun o ho => h o (by simp [ho]), flatMap_cons]
    dsimp only
    rw [groupBytes_natCast]
    rfl

theorem groupsBytes_append_none {a : List Text} {g : Text} (h : toNumberOrNull 32 16 g = none)
    (b : List Text) : groupsBytes (a ++ g :: b) = none := by
  induction a with
  | nil => simp [groupsBytes, h]
  | cons x a ih =>
    rw [cons_append, groupsBytes, ih]
    split <;> rfl

-- ----
-- Runs of zeros

/-- A run is there: `len` zeros from `base` on. -/
def IsRun (ws : List Nat) (run : Nat × Nat) : Prop :=
  run.1 + run.2 ≤ ws.length ∧ (ws.drop run.1).take run.2 = List.replicate run.2 0

theorem zeroRuns_isRun {i : Nat} {run : Nat × Nat} (h : run ∈ zeroRuns i ws) :
    i ≤ run.1 ∧ IsRun ws (run.1 - i, run.2) := by
  induction ws generalizing i run with
  | nil => simp [zeroRuns] at h
  | cons w ws ih =>
    -- a run of the tail, seen from one group before
    have hshift : ∀ run ∈ zeroRuns (i + 1) ws, i ≤ run.1 ∧ IsRun (w :: ws) (run.1 - i, run.2) := by
      intro run hrun
      obtain ⟨hle, hlen, hzero⟩ := ih hrun
      have hsucc : run.1 - i = (run.1 - (i + 1)) + 1 := by omega
      refine ⟨by omega, ?_, ?_⟩
      · rw [length_cons]
        show run.1 - i + run.2 ≤ _
        dsimp only at hlen
        omega
      · show ((w :: ws).drop (run.1 - i)).take run.2 = _
        rw [hsucc, drop_succ_cons]
        exact hzero
    rw [zeroRuns] at h
    split at h
    · rename_i hw
      subst hw
      split at h
      · rename_i base len runs hruns
        split at h
        · rename_i hbase
          rcases mem_cons.mp h with rfl | hmem
          · -- the run of the tail starts right behind this zero
            obtain ⟨-, hlen, hzero⟩ := @ih (i + 1) (base, len) (by rw [hruns]; simp)
            rw [hbase, Nat.sub_self] at hlen hzero
            refine ⟨le_refl i, ?_, ?_⟩
            · simp only [Nat.sub_self, length_cons] at hlen ⊢
              omega
            · simp only [Nat.sub_self, drop_zero, take_succ_cons, replicate_succ]
              simp only [drop_zero] at hzero
              rw [hzero]
          · exact hshift run (by rw [hruns]; simp [hmem])
        · rcases mem_cons.mp h with rfl | hmem
          · exact ⟨le_refl i, by simp, by simp⟩
          · exact hshift run (by rw [hruns]; exact hmem)
      · rw [mem_singleton.mp h]
        exact ⟨le_refl i, by simp, by simp⟩
    · exact hshift run h

theorem bestRun_isRun {run : Nat × Nat} (h : bestRun ws = some run) :
    2 ≤ run.2 ∧ IsRun ws run := by
  have hmem : ∀ (runs : List (Nat × Nat)) (best : Option (Nat × Nat)) (r : Nat × Nat),
      runs.foldl (fun best run =>
        match best with
        | none => some run
        | some b => if b.2 < run.2 then some run else best) best = some r →
      best = some r ∨ r ∈ runs := by
    intro runs
    induction runs with
    | nil => exact fun best r h => .inl h
    | cons x runs ih =>
      intro best r h
      rcases ih _ r h with h' | h'
      · cases best with
        | none => exact .inr (by simp at h'; simp [h'])
        | some b =>
          dsimp only at h'
          split at h'
          · exact .inr (by simp at h'; simp [h'])
          · exact .inl h'
      · exact .inr (by simp [h'])
  rw [bestRun, Option.filter_eq_some_iff] at h
  obtain ⟨hfold, hlen⟩ := h
  rcases hmem _ _ _ hfold with hnone | hrun
  · cases hnone
  · exact ⟨by simpa using hlen, by simpa using (zeroRuns_isRun hrun).2⟩

-- ----
-- Printing and parsing

theorem sep_notMem_toDigits {radix : Nat} (h1 : 1 < radix) (h16 : radix ≤ 16) {c : Char}
    (hc : c = ':' ∨ c = '.') (n : Nat) : c ∉ Nat.toDigits radix n := by
  intro hmem
  obtain ⟨d, hd, rfl⟩ := digitChar_of_mem_toDigits h1 hmem
  have hall : ∀ d : Nat, d < 16 → d.digitChar ≠ ':' ∧ d.digitChar ≠ '.' := by decide
  obtain ⟨hcolon, hdot⟩ := hall d (by omega)
  rcases hc with hc | hc
  · exact hcolon hc
  · exact hdot hc

theorem colon_notMem_inetNtop4 (bytes : Bytes) : ':' ∉ inetNtop4 bytes := by
  unfold inetNtop4
  induction bytes with
  | nil => simp
  | cons b bytes ih =>
    have hb : ':' ∉ Nat.toDigits 10 b.toNat :=
      sep_notMem_toDigits (by decide) (by decide) (.inl rfl) _
    cases bytes with
    | nil => simpa using hb
    | cons b' bytes =>
      rw [map_cons, map_cons, intercalate_cons_cons]
      rw [map_cons] at ih
      simp [hb, ih]

/-- The text of an encapsulated address is no group. -/
theorem toNumberOrNull_inetNtop4 {a b : UInt8} {rest : Bytes} :
    toNumberOrNull 32 16 (inetNtop4 (a :: b :: rest)) = none := by
  rw [inetNtop4, map_cons, map_cons, intercalate_cons_cons, append_assoc]
  exact toNumberOrNull_eq_none Nat.toDigits_ne_nil (by decide)

/-- `parseIpv6` finds the groups on both sides of `::`. -/
theorem parseIpv6_compressed {left right : List Text} (hl : ∀ g ∈ left, g ≠ [] ∧ ':' ∉ g)
    (hr : ∀ g ∈ right, g ≠ [] ∧ ':' ∉ g) :
    parseIpv6 ([':'].intercalate left ++ ':' :: ':' :: [':'].intercalate right) =
      if left.length + right.length > 8 then none
      else
        match groupsBytes left, groupsBytes right with
        | some front, some back =>
          some (front ++ List.replicate (16 - front.length - back.length) 0 ++ back)
        | _, _ => none := by
  have hnonempty : ∀ groups : List Text, (∀ g ∈ groups, g ≠ [] ∧ ':' ∉ g) → groups ≠ [] →
      [':'].intercalate groups ≠ [] := by
    intro groups hg hne
    cases groups with
    | nil => exact absurd rfl hne
    | cons g groups =>
      have hg' := (hg g (by simp)).1
      cases groups with
      | nil => simpa using hg'
      | cons x xs =>
        rw [intercalate_cons_cons]
        simp
  have hsplit : ∀ groups : List Text, (∀ g ∈ groups, g ≠ [] ∧ ':' ∉ g) → groups ≠ [] →
      ([':'].intercalate groups).splitOn ':' = groups := fun groups hg hne =>
    splitOn_intercalate ':' (fun g hmem => (hg g hmem).2) hne
  have hindex := @indexOf_append ':' _
    (sepInside_intercalate (fun g hg => (hl g hg).1) (fun g hg => (hl g hg).2))
    ([':'].intercalate right)
  have hleft : (if ([':'].intercalate left).length = 0 then []
      else (([':'].intercalate left ++ ':' :: ':' :: [':'].intercalate right).take
        ([':'].intercalate left).length).splitOn ':') = left := by
    by_cases hne : left = []
    · subst hne
      rfl
    · rw [if_neg (by simpa using hnonempty left hl hne), take_left, hsplit left hl hne]
  have hright : (if ([':'].intercalate left).length + 2 ≥
        ([':'].intercalate left ++ ':' :: ':' :: [':'].intercalate right).length then []
      else (([':'].intercalate left ++ ':' :: ':' :: [':'].intercalate right).drop
        (([':'].intercalate left).length + 2)).splitOn ':') = right := by
    have hdrop : ([':'].intercalate left ++ ':' :: ':' :: [':'].intercalate right).drop
        (([':'].intercalate left).length + 2) = [':'].intercalate right := by
      rw [drop_append, drop_of_length_le (by omega)]
      simp
    by_cases hne : right = []
    · subst hne
      simp
    · have hpos := length_pos_iff.mpr (hnonempty right hr hne)
      rw [if_neg, hdrop, hsplit right hr hne]
      simp only [length_append, length_cons]
      omega
  rw [parseIpv6, hindex]
  dsimp only
  rw [hleft, hright]

theorem toDigits_isGroup (n : Nat) : Nat.toDigits 16 n ≠ [] ∧ ':' ∉ Nat.toDigits 16 n :=
  ⟨Nat.toDigits_ne_nil, sep_notMem_toDigits (by decide) (by decide) (.inl rfl) n⟩

theorem map_toDigits_isGroup {ws : List Nat} :
    ∀ g ∈ ws.map (Nat.toDigits 16), g ≠ [] ∧ ':' ∉ g := by
  intro g hg
  obtain ⟨w, -, rfl⟩ := mem_map.mp hg
  exact toDigits_isGroup w

variable {bytes : Bytes}

/-- **`parseIpv6` on a printed address**: its bytes, unless an encapsulated IPv4
address was printed with dots. -/
theorem parseIpv6_inetNtop6 (hlen : bytes.length = 16) :
    parseIpv6 (inetNtop6 bytes) = some bytes ∨
      (parseIpv6 (inetNtop6 bytes) = none ∧ bytes.head? = some 0) := by
  obtain ⟨hbytes, hwlen, hlt⟩ := @groupsOf_bytes bytes (by omega)
  have hw8 : (groupsOf bytes).length = 8 := by omega
  unfold inetNtop6
  dsimp only
  cases hbest : bestRun (groupsOf bytes) with
  | none =>
    -- eight groups, no `::`
    left
    have hsep := @sepInside_intercalate ':' _
      (fun g hg => (@map_toDigits_isGroup (groupsOf bytes) g hg).1)
      (fun g hg => (map_toDigits_isGroup g hg).2)
    have hne : (groupsOf bytes).map (Nat.toDigits 16) ≠ [] := by
      intro h
      have := congrArg List.length h
      simp [hw8] at this
    simp only [parseIpv6, indexOf_eq_none hsep]
    rw [splitOn_intercalate ':' (fun g hg => (map_toDigits_isGroup g hg).2) hne,
      if_neg (by simp [hw8]), groupsBytes_toDigits hlt, hbytes]
  | some run =>
    obtain ⟨h2, hle, hzero⟩ := bestRun_isRun hbest
    dsimp only
    by_cases henc : encapsulated (groupsOf bytes) run = true
    · -- the last group is a dotted IPv4 address
      right
      rw [if_pos henc]
      have hbase : run.1 = 0 := by
        unfold encapsulated at henc
        simp only [Bool.and_eq_true, beq_iff_eq] at henc
        exact henc.1
      obtain ⟨a, b, rest, hrest⟩ : ∃ a b rest, bytes.drop 12 = a :: b :: rest := by
        match hd : bytes.drop 12 with
        | [] => simp [← length_eq_zero_iff, hlen] at hd
        | [x] =>
          have := congrArg List.length hd
          simp [hlen] at this
        | a :: b :: rest => exact ⟨a, b, rest, rfl⟩
      refine ⟨?_, ?_⟩
      · rw [parseIpv6_compressed map_toDigits_isGroup]
        · split
          · rfl
          · rw [hrest, groupsBytes_append_none toNumberOrNull_inetNtop4]
            split <;> simp_all
        · intro g hg
          rcases mem_append.mp hg with hg | hg
          · exact map_toDigits_isGroup g hg
          · rw [mem_singleton.mp hg]
            refine ⟨?_, colon_notMem_inetNtop4 _⟩
            rw [hrest, inetNtop4, map_cons, map_cons, intercalate_cons_cons]
            simp
      · -- a run from the first group on begins with a zero byte
        have hfirst : (groupsOf bytes).head? = some 0 := by
          rw [hbase] at hzero
          have hpos : 0 < run.2 := by omega
          have := congrArg List.head? hzero
          rw [drop_zero, List.head?_take, if_neg (by omega), List.head?_replicate,
            if_neg (by omega)] at this
          exact this
        match bytes, hlen, hfirst with
        | a :: b :: rest, _, hfirst =>
          have hzero' : a.toNat * 256 + b.toNat = 0 := by
            simpa [groupsOf] using hfirst
          have ha : a.toNat = 0 := by omega
          have : a = 0 := UInt8.toNat_inj.mp ha
          rw [this]
          rfl
    · left
      rw [if_neg henc]
      have hleft : ∀ w ∈ (groupsOf bytes).take run.1, w < 65536 :=
        fun w hw => hlt w (mem_of_mem_take hw)
      have hright : ∀ w ∈ (groupsOf bytes).drop (run.1 + run.2), w < 65536 :=
        fun w hw => hlt w (mem_of_mem_drop hw)
      have hwb : ∀ ws : List Nat, (ws.flatMap wordBytes).length = 2 * ws.length := by
        intro ws
        induction ws with
        | nil => rfl
        | cons w ws ih =>
          rw [flatMap_cons, length_append, ih, length_cons]
          simp [wordBytes]
          omega
      have hrep : ∀ n : Nat, (List.replicate n 0).flatMap wordBytes = List.replicate (2 * n) 0 := by
        intro n
        induction n with
        | zero => rfl
        | succ n ih =>
          rw [replicate_succ, flatMap_cons, ih, Nat.mul_succ, Nat.add_comm,
            replicate_add]
          rfl
      rw [parseIpv6_compressed map_toDigits_isGroup map_toDigits_isGroup, if_neg,
        groupsBytes_toDigits hleft, groupsBytes_toDigits hright]
      · dsimp only
        -- the bytes of the three parts of the groups
        have hparts : groupsOf bytes = (groupsOf bytes).take run.1 ++
            (List.replicate run.2 0 ++ (groupsOf bytes).drop (run.1 + run.2)) := by
          rw [← hzero, ← drop_drop, take_append_drop, take_append_drop]
        have hcount : 16 - 2 * min run.1 8 - 2 * (8 - (run.1 + run.2)) = 2 * run.2 := by omega
        rw [hwb, hwb, length_take, length_drop, hw8, hcount, ← hrep]
        refine congrArg some ?_
        conv_rhs => rw [← hbytes, hparts]
        simp only [flatMap_append, append_assoc]
      · simp only [length_map, length_take, length_drop, hw8]
        omega

-- ----
-- Offsets of printed addresses

theorem or_shifts {a b c d : Nat} (hb : b < 256) (hc : c < 256) (hd : d < 256) :
    a <<< 24 ||| b <<< 16 ||| c <<< 8 ||| d = a * 2 ^ 24 + b * 2 ^ 16 + c * 2 ^ 8 + d := by
  have h1 : a <<< 24 ||| b <<< 16 = (a * 256 + b) <<< 16 := by
    rw [← Nat.shiftLeft_add_eq_or_of_lt (by rw [Nat.shiftLeft_eq]; omega)]
    simp only [Nat.shiftLeft_eq]
    omega
  have h2 : (a * 256 + b) <<< 16 ||| c <<< 8 = ((a * 256 + b) * 256 + c) <<< 8 := by
    rw [← Nat.shiftLeft_add_eq_or_of_lt (by rw [Nat.shiftLeft_eq]; omega)]
    simp only [Nat.shiftLeft_eq]
    omega
  rw [h1, h2, ← Nat.shiftLeft_add_eq_or_of_lt (by omega)]
  simp only [Nat.shiftLeft_eq]
  omega

variable {o : Nat}

theorem inPool_eq_some {z : Int} :
    inPool z = some o ↔ z = o ∧ 1 ≤ o ∧ o ≤ poolSize := by
  unfold inPool
  split
  · rename_i h
    constructor
    · intro h'
      cases h'
    · rintro ⟨rfl, h1, h2⟩
      omega
  · rename_i h
    rw [Option.some.injEq]
    omega

theorem ofNat_bytes {a b c d : UInt8} {v : Nat}
    (hv : v = a.toNat * 2 ^ 24 + b.toNat * 2 ^ 16 + c.toNat * 2 ^ 8 + d.toNat) :
    UInt8.ofNat (v / 2 ^ 24) = a ∧ UInt8.ofNat (v / 2 ^ 16) = b ∧ UInt8.ofNat (v / 2 ^ 8) = c ∧
      UInt8.ofNat v = d := by
  have ha := a.toNat_lt
  have hb := b.toNat_lt
  have hc := c.toNat_lt
  have hd := d.toNat_lt
  simp only [← UInt8.toNat_inj, UInt8.toNat_ofNat']
  omega

theorem ipv6ToOffset_bytes {ip : Text} (h : parseIpv6 ip = some bytes)
    (hlen : bytes.length = 16) (o : Nat) :
    ipv6ToOffset ip = some o ↔ bytes = ipv6Bytes o ∧ 1 ≤ o ∧ o ≤ poolSize := by
  match bytes, hlen with
  | [b0, b1, b2, b3, b4, b5, b6, b7, b8, b9, b10, b11, b12, b13, b14, b15], _ =>
    have h12 := b12.toNat_lt
    have h13 := b13.toNat_lt
    have h14 := b14.toNat_lt
    have h15 := b15.toNat_lt
    -- the value of the last four bytes
    have hvalue : ((BitVec.ofNat 32 b12.toNat <<< 24) ||| (BitVec.ofNat 32 b13.toNat <<< 16) |||
        (BitVec.ofNat 32 b14.toNat <<< 8) ||| BitVec.ofNat 32 b15.toNat).toNat =
        b12.toNat * 2 ^ 24 + b13.toNat * 2 ^ 16 + b14.toNat * 2 ^ 8 + b15.toNat := by
      rw [← or_shifts (a := b12.toNat) (by omega) (by omega) (by omega)]
      simp only [BitVec.toNat_or, BitVec.toNat_shiftLeft, BitVec.toNat_ofNat]
      rw [Nat.mod_eq_of_lt (a := b12.toNat) (by omega),
        Nat.mod_eq_of_lt (a := b13.toNat) (by omega), Nat.mod_eq_of_lt (a := b14.toNat) (by omega),
        Nat.mod_eq_of_lt (a := b15.toNat) (by omega), Nat.mod_eq_of_lt (a := b12.toNat <<< 24)
        (by rw [Nat.shiftLeft_eq]; omega), Nat.mod_eq_of_lt (a := b13.toNat <<< 16)
        (by rw [Nat.shiftLeft_eq]; omega), Nat.mod_eq_of_lt (a := b14.toNat <<< 8)
        (by rw [Nat.shiftLeft_eq]; omega)]
    unfold ipv6ToOffset
    rw [h]
    dsimp only
    rw [ipv6Bytes]
    have hbytes : ∀ o, o ≤ poolSize →
        (b12.toNat * 2 ^ 24 + b13.toNat * 2 ^ 16 + b14.toNat * 2 ^ 8 + b15.toNat = o ↔
          b12 = UInt8.ofNat (o / 2 ^ 24) ∧ b13 = UInt8.ofNat (o / 2 ^ 16) ∧
            b14 = UInt8.ofNat (o / 2 ^ 8) ∧ b15 = UInt8.ofNat o) := by
      intro o ho
      have hsize : poolSize = 16384 := rfl
      constructor
      · intro hv
        obtain ⟨e1, e2, e3, e4⟩ := ofNat_bytes hv.symm
        exact ⟨e1.symm, e2.symm, e3.symm, e4.symm⟩
      · simp only [← UInt8.toNat_inj, UInt8.toNat_ofNat']
        omega
    split
    · rename_i hmapped
      constructor
      · intro h'
        cases h'
      · rintro ⟨heq, -⟩
        simp only [List.cons.injEq] at heq
        rcases hmapped with hp | hp
        · exact absurd heq.1 hp
        · exact absurd heq.2.1 hp
    · rename_i hmapped
      rw [not_or, not_not, not_not] at hmapped
      split
      · rename_i hany
        constructor
        · intro h'
          cases h'
        · rintro ⟨heq, -⟩
          simp only [List.cons.injEq] at heq
          obtain ⟨-, -, rfl, rfl, rfl, rfl, rfl, rfl, rfl, rfl, rfl, rfl, -⟩ := heq
          exact absurd hany (by decide)
      · rename_i hany
        simp only [any_cons, any_nil, Bool.or_false, Bool.or_eq_true, bne_iff_ne, ne_eq,
          not_or, not_not] at hany
        rw [inPool_eq_some, BitVec.toInt_eq_toNat_cond, hvalue]
        have hrange : (o ≤ poolSize ∧ ((if 2 * (b12.toNat * 2 ^ 24 + b13.toNat * 2 ^ 16 +
            b14.toNat * 2 ^ 8 + b15.toNat) < 2 ^ 32 then
              ((b12.toNat * 2 ^ 24 + b13.toNat * 2 ^ 16 + b14.toNat * 2 ^ 8 + b15.toNat : Nat) :
                Int)
            else ((b12.toNat * 2 ^ 24 + b13.toNat * 2 ^ 16 + b14.toNat * 2 ^ 8 + b15.toNat : Nat) :
              Int) - ((2 ^ 32 : Nat) : Int)) = (o : Int))) ↔ (o ≤ poolSize ∧
              b12.toNat * 2 ^ 24 + b13.toNat * 2 ^ 16 + b14.toNat * 2 ^ 8 + b15.toNat = o) := by
          have hsize : poolSize = 16384 := rfl
          split <;> omega
        constructor
        · rintro ⟨hz, h1, h2⟩
          have hv := (hrange.mp ⟨h2, hz⟩).2
          refine ⟨?_, h1, h2⟩
          obtain ⟨e1, e2, e3, e4⟩ := (hbytes o h2).mp hv
          rw [hmapped.1, hmapped.2, ← e1, ← e2, ← e3, ← e4]
          obtain ⟨rfl, rfl, rfl, rfl, rfl, rfl, rfl, rfl, rfl, rfl⟩ := hany
          rfl
        · rintro ⟨heq, h1, h2⟩
          simp only [List.cons.injEq, and_true] at heq
          obtain ⟨-, -, -, -, -, -, -, -, -, -, -, -, e1, e2, e3, e4⟩ := heq
          exact ⟨(hrange.mpr ⟨h2, (hbytes o h2).mpr ⟨e1, e2, e3, e4⟩⟩).2, h1, h2⟩

/-- **`lookup` of a printed IPv6 address** is the offset of that address. -/
theorem ipToOffset_inetNtop6 (hlen : bytes.length = 16) (o : Nat) :
    ipToOffset (inetNtop6 bytes) = some o ↔ bytes = ipv6Bytes o ∧ 1 ≤ o ∧ o ≤ poolSize := by
  have hcolon : (inetNtop6 bytes).contains ':' = true := by
    unfold inetNtop6
    dsimp only
    split
    · obtain ⟨-, hwlen, -⟩ := @groupsOf_bytes bytes (by omega)
      match hws : groupsOf bytes with
      | [] => simp [hws] at hwlen; omega
      | [w] => simp [hws] at hwlen; omega
      | w :: w' :: ws =>
        rw [map_cons, map_cons, intercalate_cons_cons]
        simp
    · simp
  rw [ipToOffset, if_pos hcolon]
  rcases parseIpv6_inetNtop6 hlen with h | ⟨h, hzero⟩
  · exact ipv6ToOffset_bytes h hlen o
  · constructor
    · intro h'
      simp [ipv6ToOffset, h] at h'
    · rintro ⟨rfl, -⟩
      exact absurd hzero (by simp [ipv6Bytes])

/-- **`lookup` of a printed IPv4 address** is its distance to the base. -/
theorem ipToOffset_inetNtop4 (hlen : bytes.length = 4) (o : Nat) :
    ipToOffset (inetNtop4 bytes) = some o ↔ bytes = ipv4Bytes o ∧ 1 ≤ o ∧ o ≤ poolSize := by
  have hcolon : (inetNtop4 bytes).contains ':' = false := by
    simpa using colon_notMem_inetNtop4 bytes
  rw [ipToOffset, if_neg (by rw [hcolon]; simp)]
  match bytes, hlen with
  | [a, b, c, d], _ =>
    have ha := a.toNat_lt
    have hb := b.toNat_lt
    have hc := c.toNat_lt
    have hd := d.toNat_lt
    have hsize : poolSize = 16384 := rfl
    have hbase : baseIPv4 = 3323068416 := rfl
    have hsplit : (inetNtop4 [a, b, c, d]).splitOn '.' =
        [Nat.toDigits 10 a.toNat, Nat.toDigits 10 b.toNat, Nat.toDigits 10 c.toNat,
          Nat.toDigits 10 d.toNat] := by
      refine splitOn_intercalate '.' ?_ (by simp)
      intro g hg
      obtain ⟨x, -, rfl⟩ := mem_map.mp hg
      exact sep_notMem_toDigits (by decide) (by decide) (.inr rfl) _
    have hparse : ∀ x : UInt8, toNumberOrNull 64 10 (Nat.toDigits 10 x.toNat) =
        some (x.toNat : Int) := by
      intro x
      have := x.toNat_lt
      exact toNumberOrNull_toDigits (by decide) (by decide) (by omega)
    -- the joined number, its distance to the base, and the cut to 32 bits
    have hvalue : ((BitVec.ofInt 64 (a.toNat : Int) <<< 24) |||
        (BitVec.ofInt 64 (b.toNat : Int) <<< 16) ||| (BitVec.ofInt 64 (c.toNat : Int) <<< 8) |||
        BitVec.ofInt 64 (d.toNat : Int)).toNat =
        a.toNat * 2 ^ 24 + b.toNat * 2 ^ 16 + c.toNat * 2 ^ 8 + d.toNat := by
      rw [← or_shifts (a := a.toNat) (by omega) (by omega) (by omega)]
      simp only [BitVec.ofInt_natCast, BitVec.toNat_or, BitVec.toNat_shiftLeft, BitVec.toNat_ofNat]
      rw [Nat.mod_eq_of_lt (a := a.toNat) (by omega), Nat.mod_eq_of_lt (a := b.toNat) (by omega),
        Nat.mod_eq_of_lt (a := c.toNat) (by omega), Nat.mod_eq_of_lt (a := d.toNat) (by omega),
        Nat.mod_eq_of_lt (a := a.toNat <<< 24) (by rw [Nat.shiftLeft_eq]; omega),
        Nat.mod_eq_of_lt (a := b.toNat <<< 16) (by rw [Nat.shiftLeft_eq]; omega),
        Nat.mod_eq_of_lt (a := c.toNat <<< 8) (by rw [Nat.shiftLeft_eq]; omega)]
    unfold ipv4ToOffset
    rw [hsplit]
    dsimp only
    rw [hparse a, hparse b, hparse c, hparse d]
    dsimp only
    rw [inPool_eq_some, BitVec.toInt_eq_toNat_cond, BitVec.toNat_setWidth, BitVec.toNat_sub,
      hvalue, BitVec.toNat_ofNat, ipv4Bytes]
    have hbytes : (1 ≤ o ∧ o ≤ poolSize) →
        (a.toNat * 2 ^ 24 + b.toNat * 2 ^ 16 + c.toNat * 2 ^ 8 + d.toNat = baseIPv4 + o ↔
          [a, b, c, d] = [UInt8.ofNat ((baseIPv4 + o) / 2 ^ 24),
            UInt8.ofNat ((baseIPv4 + o) / 2 ^ 16), UInt8.ofNat ((baseIPv4 + o) / 2 ^ 8),
            UInt8.ofNat (baseIPv4 + o)]) := by
      rintro ⟨h1, h2⟩
      constructor
      · intro hv
        obtain ⟨e1, e2, e3, e4⟩ := ofNat_bytes hv.symm
        rw [e1, e2, e3, e4]
      · simp only [List.cons.injEq, and_true, ← UInt8.toNat_inj, UInt8.toNat_ofNat']
        omega
    constructor
    · rintro ⟨hz, h1, h2⟩
      refine ⟨(hbytes ⟨h1, h2⟩).mp ?_, h1, h2⟩
      split at hz <;> omega
    · rintro ⟨heq, h1, h2⟩
      have hv := (hbytes ⟨h1, h2⟩).mpr heq
      refine ⟨?_, h1, h2⟩
      split <;> omega

-- ----
-- Fake addresses look fake

theorem length_ipv4Bytes (o : Nat) : (ipv4Bytes o).length = 4 := rfl

theorem length_ipv6Bytes (o : Nat) : (ipv6Bytes o).length = 16 := rfl

theorem isFakeIp_ipv4 (h2 : o ≤ poolSize) : isFakeIp (inetNtop4 (ipv4Bytes o)) = true := by
  have hsize : poolSize = 16384 := rfl
  have hbase : baseIPv4 = 3323068416 := rfl
  have e1 : UInt8.ofNat ((baseIPv4 + o) / 2 ^ 24) = 198 := by
    rw [← UInt8.toNat_inj, UInt8.toNat_ofNat']
    show _ = 198
    omega
  have e2 : UInt8.ofNat ((baseIPv4 + o) / 2 ^ 16) = 18 := by
    rw [← UInt8.toNat_inj, UInt8.toNat_ofNat']
    show _ = 18
    omega
  have htext : inetNtop4 (ipv4Bytes o) = "198.18.".toList ++ ['.'].intercalate
      [Nat.toDigits 10 (UInt8.ofNat ((baseIPv4 + o) / 2 ^ 8)).toNat,
        Nat.toDigits 10 (UInt8.ofNat (baseIPv4 + o)).toNat] := by
    rw [inetNtop4, ipv4Bytes, e1, e2]
    simp only [map_cons, map_nil, intercalate_cons_cons, append_assoc]
    rfl
  rw [isFakeIp, htext]
  simp

theorem isFakeIp_ipv6 (h1 : 1 ≤ o) (h2 : o ≤ poolSize) :
    isFakeIp (inetNtop6 (ipv6Bytes o)) = true := by
  have hsize : poolSize = 16384 := rfl
  have hgroups : groupsOf (ipv6Bytes o) = [0xFC00, 0, 0, 0, 0, 0, 0, o] := by
    simp only [groupsOf, ipv6Bytes, UInt8.toNat_ofNat', List.cons.injEq, and_true]
    refine ⟨rfl, rfl, rfl, rfl, rfl, rfl, ?_, ?_⟩
    · omega
    · omega
  have hbest : bestRun [0xFC00, 0, 0, 0, 0, 0, 0, o] = some (1, 6) := by
    have ho : o ≠ 0 := by omega
    simp [bestRun, zeroRuns, ho]
  have htext : inetNtop6 (ipv6Bytes o) = "fc00::".toList ++ Nat.toDigits 16 o := by
    rw [inetNtop6, hgroups, hbest]
    simp [encapsulated]
    rfl
  rw [isFakeIp, htext]
  simp

end Anywhere.FakeIp
