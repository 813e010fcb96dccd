import Anywhere.Config
import Anywhere.Lib.Utf8
import Anywhere.FakeIp.Address

/-!
# Anywhere — `ShadowsocksProtocol`

A datagram starts with the address it is for or comes from: a type, the address
and the port. Addresses of flows are texts made by `inet_ntop`, and the source of a
reply is made into a text by `decodeUDPPacket`.
-/

namespace Anywhere.Shadowsocks

open Lib Lib.Text FakeIp List

-- ----
-- The model

structure UdpPacket where
  host : Text
  port : Nat
  payload : Bytes

/-- The end of `decodeUDPPacket`: the port and the payload. -/
def decodePort (host : Text) : Bytes → Option UdpPacket
  | hi :: lo :: payload => some ⟨host, hi.toNat * 256 + lo.toNat, payload⟩
  | _ => none

/-- The groups of an IPv6 address in hexadecimal, none left out. -/
def ipv6Words (bytes : Bytes) : Text :=
  [':'].intercalate ((groupsOf bytes).map (Nat.toDigits 16))

/-- The domain case of `decodeUDPPacket`. -/
def decodeDomain : Bytes → Option UdpPacket
  | [] => none
  | domainLen :: data =>
    if data.length < domainLen.toNat + 2 then none
    else decodePort (decodeUtf8 (data.take domainLen.toNat)) (data.drop domainLen.toNat)

def decodeUDPPacket : Bytes → Option UdpPacket
  | [] => none
  | atyp :: data =>
    if atyp = 0x01 then
      if data.length < 4 + 2 then none
      else decodePort (['.'].intercalate ((data.take 4).map fun b => Nat.toDigits 10 b.toNat))
        (data.drop 4)
    else if atyp = 0x03 then decodeDomain data
    else if atyp = 0x04 then
      if data.length < 16 + 2 then none
      else decodePort (ipv6Words (data.take 16)) (data.drop 16)
    else none

-- ----
-- Addresses

inductive IpAddress
  | ipv4 (bytes : {bytes : Bytes // bytes.length = 4})
  | ipv6 (bytes : {bytes : Bytes // bytes.length = 16})
  deriving DecidableEq

namespace IpAddress

/-- `lwip_ip_to_string`. -/
def toText : IpAddress → Text
  | ipv4 bytes => inetNtop4 bytes
  | ipv6 bytes => inetNtop6 bytes

/-- The text `decodeUDPPacket` makes of the address. -/
def replyText : IpAddress → Text
  | ipv4 bytes => inetNtop4 bytes
  | ipv6 bytes => ipv6Words bytes

/-- The type and the address in front of the port. -/
def header : IpAddress → Bytes
  | ipv4 bytes => 0x01 :: bytes.1
  | ipv6 bytes => 0x04 :: bytes.1

/-- A datagram that names the address as its source. -/
def packet (a : IpAddress) (port : Nat) (payload : Bytes) : Bytes :=
  a.header ++ UInt8.ofNat (port / 256) :: UInt8.ofNat port :: payload

end IpAddress

/-- Two groups side by side are zero. -/
def adjacentZeros : List Nat → Bool
  | a :: b :: ws => (a == 0 && b == 0) || adjacentZeros (b :: ws)
  | _ => false

/-- The address has no run of zero groups that `inet_ntop` shortens. -/
def IpAddress.Plain : IpAddress → Prop
  | ipv4 _ => True
  | ipv6 bytes => adjacentZeros (groupsOf bytes) = false

instance (a : IpAddress) : Decidable a.Plain :=
  match a with
  | .ipv4 _ => isTrue trivial
  | .ipv6 bytes => inferInstanceAs (Decidable (adjacentZeros (groupsOf bytes) = false))

-- ----
-- Decoding a reply

theorem decodePort_bytes (host : Text) {port : Nat} (h : port < 65536) (payload : Bytes) :
    decodePort host (UInt8.ofNat (port / 256) :: UInt8.ofNat port :: payload) =
      some ⟨host, port, payload⟩ := by
  rw [decodePort, bytes16_value h]

/-- An encoded IP address is read back as `replyText`. -/
theorem decodeUDPPacket_packet (a : IpAddress) {port : Nat} (h : port < 65536) (payload : Bytes) :
    decodeUDPPacket (a.packet port payload) = some ⟨a.replyText, port, payload⟩ := by
  rcases a with ⟨bytes, hlen⟩ | ⟨bytes, hlen⟩
  · have hshort : ¬ (bytes ++ UInt8.ofNat (port / 256) :: UInt8.ofNat port :: payload).length < 4 +
        2 := by
      simp [hlen]
      omega
    show decodeUDPPacket (0x01 :: (bytes ++ _)) = _
    rw [decodeUDPPacket, if_pos rfl, if_neg hshort, take_left' hlen, drop_left' hlen]
    exact decodePort_bytes _ h payload
  · have hshort : ¬ (bytes ++ UInt8.ofNat (port / 256) :: UInt8.ofNat port :: payload).length < 16 +
        2 := by
      simp [hlen]
      omega
    show decodeUDPPacket (0x04 :: (bytes ++ _)) = _
    rw [decodeUDPPacket, if_neg (by decide), if_neg (by decide), if_pos rfl, if_neg hshort,
      take_left' hlen, drop_left' hlen]
    exact decodePort_bytes _ h payload

-- ----
-- Two texts of one address

theorem zeroRuns_zero (i : Nat) (ws : List Nat) :
    ∃ n runs, zeroRuns i (0 :: ws) = (i, n + 1) :: runs := by
  rw [zeroRuns, if_pos rfl]
  rcases zeroRuns (i + 1) ws with _ | ⟨⟨base, len⟩, runs⟩
  · exact ⟨0, [], rfl⟩
  · show ∃ n runs', (if base = i + 1 then (i, len + 1) :: runs else (i, 1) :: (base, len) :: runs) =
      _
    split
    · exact ⟨len, runs, rfl⟩
    · exact ⟨0, _, rfl⟩

theorem zeroRuns_of_adjacentZeros {ws : List Nat} (h : adjacentZeros ws = true) (i : Nat) :
    ∃ run ∈ zeroRuns i ws, 2 ≤ run.2 := by
  induction ws generalizing i with
  | nil => simp [adjacentZeros] at h
  | cons a ws ih =>
    rcases ws with _ | ⟨b, ws⟩
    · simp [adjacentZeros] at h
    · rw [adjacentZeros, Bool.or_eq_true, Bool.and_eq_true, beq_iff_eq, beq_iff_eq] at h
      rcases h with ⟨rfl, rfl⟩ | h
      · obtain ⟨n, runs, hruns⟩ := zeroRuns_zero (i + 1) ws
        refine ⟨(i, n + 1 + 1), ?_, by simp⟩
        rw [zeroRuns, if_pos rfl, hruns]
        simp
      · obtain ⟨run, hmem, hlen⟩ := ih h (i + 1)
        rw [zeroRuns]
        split
        · -- the run of the tail is kept, or grows by this group
          rcases hruns : zeroRuns (i + 1) (b :: ws) with _ | ⟨⟨base, len⟩, runs⟩
          · rw [hruns] at hmem
            cases hmem
          · rw [hruns] at hmem
            rcases mem_cons.1 hmem with rfl | hmem
            · show ∃ run ∈ if base = i + 1 then (i, len + 1) :: runs
                  else (i, 1) :: (base, len) :: runs, 2 ≤ run.2
              split
              · exact ⟨(i, len + 1), by simp, by simp at hlen ⊢; omega⟩
              · exact ⟨(base, len), by simp, hlen⟩
            · refine ⟨run, ?_, hlen⟩
              show run ∈ if base = i + 1 then (i, len + 1) :: runs
                else (i, 1) :: (base, len) :: runs
              split <;> simp [hmem]
        · exact ⟨run, hmem, hlen⟩

theorem adjacentZeros_of_isRun {ws : List Nat} {run : Nat × Nat} (hlen : 2 ≤ run.2)
    (hrun : IsRun ws run) : adjacentZeros ws = true := by
  obtain ⟨base, len⟩ := run
  obtain ⟨hle, hzero⟩ := hrun
  dsimp only at hlen hle hzero
  induction ws generalizing base with
  | nil => simp at hle; omega
  | cons a ws ih =>
    rcases base with _ | base
    · obtain ⟨n, rfl⟩ : ∃ n, len = n + 2 := ⟨len - 2, by omega⟩
      rcases ws with _ | ⟨b, ws⟩
      · simp at hle
      · simp [replicate_succ] at hzero
        simp [adjacentZeros, hzero]
    · have htail : adjacentZeros ws = true := by
        refine ih base ?_ ?_
        · simp at hle
          omega
        · simpa using hzero
      rcases ws with _ | ⟨b, ws⟩
      · simp [adjacentZeros] at htail
      · simp [adjacentZeros, htail]

/-- The fold of `bestRun` keeps a run that is as long as any. -/
theorem fold_ge {runs : List (Nat × Nat)} (best : Option (Nat × Nat)) {run : Nat × Nat}
    (h : run ∈ runs ∨ ∃ b, best = some b ∧ run.2 ≤ b.2) :
    ∃ b, runs.foldl (fun best run =>
        match best with
        | none => some run
        | some b => if b.2 < run.2 then some run else best) best = some b ∧ run.2 ≤ b.2 := by
  induction runs generalizing best with
  | nil =>
    rcases h with h | h
    · cases h
    · exact h
  | cons x runs ih =>
    rw [foldl_cons]
    refine ih _ ?_
    rcases h with h | ⟨b, rfl, hb⟩
    · rcases mem_cons.1 h with rfl | h
      · right
        rcases best with _ | b
        · exact ⟨run, rfl, Nat.le_refl _⟩
        · by_cases hlt : b.2 < run.2
          · exact ⟨run, by simp [hlt], Nat.le_refl _⟩
          · exact ⟨b, by simp [hlt], by omega⟩
      · exact .inl h
    · right
      by_cases hlt : b.2 < x.2
      · exact ⟨x, by simp [hlt], by omega⟩
      · exact ⟨b, by simp [hlt], hb⟩

theorem bestRun_eq_none_iff {ws : List Nat} : bestRun ws = none ↔ adjacentZeros ws = false := by
  constructor
  · intro hnone
    rw [Bool.eq_false_iff]
    intro hadj
    obtain ⟨run, hmem, hlen⟩ := zeroRuns_of_adjacentZeros hadj 0
    obtain ⟨b, hfold, hle⟩ := fold_ge none (.inl hmem)
    have hbest : bestRun ws = (some b).filter (fun run => decide (2 ≤ run.2)) :=
      congrArg (Option.filter fun run : Nat × Nat => decide (2 ≤ run.2)) hfold
    rw [hbest, Option.filter_some_eq_none] at hnone
    simp at hnone
    omega
  · intro hadj
    rcases h : bestRun ws with _ | run
    · rfl
    · obtain ⟨hlen, hrun⟩ := bestRun_isRun h
      rw [adjacentZeros_of_isRun hlen hrun] at hadj
      cases hadj

theorem sepInside_ipv6Words (bytes : Bytes) : SepInside ':' (ipv6Words bytes) := by
  apply sepInside_intercalate
  · intro g hg
    obtain ⟨w, -, rfl⟩ := mem_map.1 hg
    exact (toDigits_isGroup w).1
  · intro g hg
    obtain ⟨w, -, rfl⟩ := mem_map.1 hg
    exact (toDigits_isGroup w).2

theorem not_sepInside_double (a b : Text) : ¬ SepInside ':' (a ++ ':' :: ':' :: b) := by
  induction a with
  | nil =>
    rintro ⟨h, -⟩
    obtain ⟨d, ds, hd, hne⟩ := h rfl
    exact hne (List.cons.inj hd).1.symm
  | cons c a ih => exact fun h => ih h.2

/-- The two texts of an address agree unless `inet_ntop` shortens it. -/
theorem replyText_eq_iff (a : IpAddress) : a.replyText = a.toText ↔ a.Plain := by
  rcases a with bytes | bytes
  · exact ⟨fun _ => trivial, fun _ => rfl⟩
  · show ipv6Words bytes = inetNtop6 bytes ↔ adjacentZeros (groupsOf bytes) = false
    rw [← bestRun_eq_none_iff, inetNtop6]
    rcases h : bestRun (groupsOf bytes.1) with _ | run
    · exact ⟨fun _ => rfl, fun _ => rfl⟩
    · constructor
      · intro heq
        have hsep := sepInside_ipv6Words bytes.1
        rw [heq] at hsep
        exact absurd hsep (not_sepInside_double _ _)
      · intro hnone
        cases hnone

end Anywhere.Shadowsocks
