import Anywhere.Config
import Anywhere.Lib.ArrayReads
import Anywhere.Lib.Format
import Anywhere.Lib.OnesComplement
import Mathlib.Data.List.GetD

/-!
# Anywhere — the ICMP packets of `LwipStack`

The destination unreachable packets for a datagram that no flow takes, as they are written into
their arrays, with their checksums.

* `portUnreachable_valid` — their checksums are right, and they quote the datagram.
-/

namespace Anywhere.Stack

open Lib OnesComplement

-- ----
-- The packets

/-- `sum += …` for `i in start until stop step 2`. -/
def addWords (p : Bytes) (start stop sum : Nat) : Except OutOfBounds Nat :=
  (List.range' start ((stop - start + 1) / 2) 2).foldlM (fun sum i => do
    let word ← readWord p i
    .ok (sum + word)) sum

/-- The folded sum, complemented, in two bytes of the packet. -/
def putChecksum (p : Bytes) (i sum : Nat) : Bytes :=
  let cksum := complement (fold sum)
  let p := p.set i (UInt8.ofNat (cksum / 256))
  p.set (i + 1) (UInt8.ofNat (cksum % 256))

def putUdp (p : Bytes) (i srcPort dstPort udpTotalLen : Nat) : Bytes :=
  let p := p.set i (UInt8.ofNat (srcPort / 256))
  let p := p.set (i + 1) (UInt8.ofNat (srcPort % 256))
  let p := p.set (i + 2) (UInt8.ofNat (dstPort / 256))
  let p := p.set (i + 3) (UInt8.ofNat (dstPort % 256))
  let p := p.set (i + 4) (UInt8.ofNat (udpTotalLen / 256 % 256))
  p.set (i + 5) (UInt8.ofNat (udpTotalLen % 256))

section Packets

variable (srcIp : Bytes) (srcPort : Nat) (dstIp : Bytes) (dstPort udpPayloadLength : Nat)

/-- The outer IPv4 header, from the fake address to the sender. -/
def putOuter4 (packetLen : Nat) (p : Bytes) : Except OutOfBounds Bytes := do
  let p := p.set 0 0x45
  let p := p.set 1 0x00
  let p := p.set 2 (UInt8.ofNat (packetLen / 256))
  let p := p.set 3 (UInt8.ofNat (packetLen % 256))
  let p := p.set 8 64
  let p := p.set 9 1
  let p ← arraycopy dstIp 0 p 12 4
  arraycopy srcIp 0 p 16 4

/-- The ICMP header, and the headers of the datagram. -/
def putInner4 (p : Bytes) : Except OutOfBounds Bytes := do
  let p := p.set 20 3
  let p := p.set 21 3
  let udpTotalLen := 8 + udpPayloadLength
  let innerTotalLen := 20 + udpTotalLen
  let p := p.set 28 0x45
  let p := p.set 29 0x00
  let p := p.set 30 (UInt8.ofNat (innerTotalLen / 256 % 256))
  let p := p.set 31 (UInt8.ofNat (innerTotalLen % 256))
  let p := p.set 36 64
  let p := p.set 37 17
  let p ← arraycopy srcIp 0 p 40 4
  let p ← arraycopy dstIp 0 p 44 4
  .ok (putUdp p 48 srcPort dstPort udpTotalLen)

def buildIcmpv4PortUnreachable : Except OutOfBounds Bytes := do
  let packetLen := 56
  let p := List.replicate packetLen 0
  let p ← putOuter4 srcIp dstIp packetLen p
  let sum ← addWords p 0 20 0
  let p := putChecksum p 10 sum
  let p ← putInner4 srcIp srcPort dstIp dstPort udpPayloadLength p
  let sum ← addWords p 20 packetLen 0
  .ok (putChecksum p 22 sum)

/-- The outer IPv6 header, from the fake address to the sender. -/
def putOuter6 (icmpLen : Nat) (p : Bytes) : Except OutOfBounds Bytes := do
  let p := p.set 0 0x60
  let p := p.set 1 0
  let p := p.set 2 0
  let p := p.set 3 0
  let p := p.set 4 (UInt8.ofNat (icmpLen / 256))
  let p := p.set 5 (UInt8.ofNat (icmpLen % 256))
  let p := p.set 6 58
  let p := p.set 7 64
  let p ← arraycopy dstIp 0 p 8 16
  arraycopy srcIp 0 p 24 16

/-- The ICMPv6 header, and the headers of the datagram. -/
def putInner6 (p : Bytes) : Except OutOfBounds Bytes := do
  let p := p.set 40 1
  let p := p.set 41 4
  let udpTotalLen := 8 + udpPayloadLength
  let p := p.set 48 0x60
  let p := p.set 49 0
  let p := p.set 50 0
  let p := p.set 51 0
  let p := p.set 52 (UInt8.ofNat (udpTotalLen / 256))
  let p := p.set 53 (UInt8.ofNat (udpTotalLen % 256))
  let p := p.set 54 17
  let p := p.set 55 64
  let p ← arraycopy srcIp 0 p 56 16
  let p ← arraycopy dstIp 0 p 72 16
  .ok (putUdp p 88 srcPort dstPort udpTotalLen)

def buildIcmpv6PortUnreachable : Except OutOfBounds Bytes := do
  let icmpLen := 56
  let packetLen := 40 + icmpLen
  let p := List.replicate packetLen 0
  let p ← putOuter6 srcIp dstIp icmpLen p
  let p ← putInner6 srcIp srcPort dstIp dstPort udpPayloadLength p
  -- the pseudo-header: the addresses, the length and the next header
  let sum ← addWords p 8 24 0
  let sum ← addWords p 24 40 sum
  let sum := sum + icmpLen
  let sum := sum + 58
  let sum ← addWords p 40 packetLen sum
  .ok (putChecksum p 42 sum)

end Packets

-- ----
-- The loops over the words

variable {p checksum : Bytes} {n i : Nat}

theorem addWords_eq {start : Nat} (h : start + 2 * n ≤ p.length) (sum : Nat) :
    addWords p start (start + 2 * n) sum =
      .ok (sum + (words ((p.drop start).take (2 * n))).sum) := by
  have hrange : (start + 2 * n - start + 1) / 2 = n := by omega
  rw [addWords, hrange]
  clear hrange
  induction n generalizing start sum with
  | zero => rfl
  | succ n ih =>
    have hstart : start < p.length := by omega
    have hnext : start + 1 < p.length := by omega
    have htake : (p.drop start).take (2 * (n + 1)) =
        p[start] :: p[start + 1] :: (p.drop (start + 2)).take (2 * n) := by
      rw [List.drop_eq_getElem_cons hstart, List.drop_eq_getElem_cons hnext]
      rfl
    rw [List.range'_succ, List.foldlM_cons, readWord_eq hnext, htake, words, List.sum_cons, bind_ok,
      bind_ok, ih (by omega), Nat.add_assoc]

theorem addWords_part (front : Bytes) {part : Bytes} (behind : Bytes)
    (h : part.length = 2 * n) (sum : Nat) :
    addWords (front ++ (part ++ behind)) front.length (front.length + 2 * n) sum =
      .ok (sum + (words part).sum) := by
  rw [addWords_eq (by simp only [List.length_append]; omega), List.drop_left, List.take_left' h]

-- ----
-- The packets, part by part

def checksumBytes (sum : Nat) : Bytes :=
  [UInt8.ofNat (complement (fold sum) / 256), UInt8.ofNat (complement (fold sum))]

theorem putChecksum_eq (front behind : Bytes) (sum : Nat) :
    putChecksum (front ++ ([0, 0] ++ behind)) front.length sum =
      front ++ (checksumBytes sum ++ behind) := by
  have hlo : UInt8.ofNat (complement (fold sum) % 256) = UInt8.ofNat (complement (fold sum)) := by
    rw [← UInt8.toNat_inj, UInt8.toNat_ofNat', UInt8.toNat_ofNat', Nat.mod_mod]
  rw [putChecksum, hlo, List.set_append_right _ _ (Nat.le_refl _),
    List.set_append_right _ _ (by omega), Nat.sub_self,
    show front.length + 1 - front.length = 1 by omega]
  rfl

theorem putChecksum_message (outer behind : Bytes) (type code : UInt8) (sum : Nat) :
    putChecksum (outer ++ ([type, code] ++ ([0, 0] ++ behind))) (outer.length + 2) sum =
      outer ++ ([type, code] ++ (checksumBytes sum ++ behind)) := by
  have hput := putChecksum_eq (outer ++ [type, code]) behind sum
  rwa [List.length_append, List.append_assoc, List.append_assoc] at hput

/-- The UDP header of the datagram, of whose checksum nothing is known. -/
def udpHeader (srcPort dstPort udpPayloadLength : Nat) : Bytes :=
  [UInt8.ofNat (srcPort / 256), UInt8.ofNat (srcPort % 256), UInt8.ofNat (dstPort / 256),
    UInt8.ofNat (dstPort % 256), UInt8.ofNat ((8 + udpPayloadLength) / 256 % 256),
    UInt8.ofNat ((8 + udpPayloadLength) % 256), 0, 0]

section Parts

variable (srcIp : Bytes) (srcPort : Nat) (dstIp : Bytes) (dstPort udpPayloadLength : Nat)

def outer4 (checksum : Bytes) : Bytes :=
  [0x45, 0, 0, 56, 0, 0, 0, 0, 64, 1] ++ (checksum ++ (dstIp ++ srcIp))

/-- The headers of the datagram in the IPv4 packet. -/
def quoted4 : Bytes :=
  [0x45, 0, UInt8.ofNat ((20 + (8 + udpPayloadLength)) / 256 % 256),
    UInt8.ofNat ((20 + (8 + udpPayloadLength)) % 256), 0, 0, 0, 0, 64, 17, 0, 0] ++
      (srcIp ++ (dstIp ++ udpHeader srcPort dstPort udpPayloadLength))

def icmp4 (checksum : Bytes) : Bytes :=
  [3, 3] ++ (checksum ++ ([0, 0, 0, 0] ++ quoted4 srcIp srcPort dstIp dstPort udpPayloadLength))

def outer6 : Bytes := [0x60, 0, 0, 0, 0, 56, 58, 64] ++ (dstIp ++ srcIp)

/-- The headers of the datagram in the IPv6 packet. -/
def quoted6 : Bytes :=
  [0x60, 0, 0, 0, UInt8.ofNat ((8 + udpPayloadLength) / 256),
    UInt8.ofNat ((8 + udpPayloadLength) % 256), 17, 64] ++
    (srcIp ++ (dstIp ++ udpHeader srcPort dstPort udpPayloadLength))

def icmp6 (checksum : Bytes) : Bytes :=
  [1, 4] ++ (checksum ++ ([0, 0, 0, 0] ++ quoted6 srcIp srcPort dstIp dstPort udpPayloadLength))

end Parts

variable {srcIp dstIp : Bytes} {srcPort dstPort size : Nat}

theorem putOuter4_eq (hsrc : srcIp.length = 4) (hdst : dstIp.length = 4) :
    putOuter4 srcIp dstIp 56 (List.replicate 56 0) =
      .ok (outer4 srcIp dstIp [0, 0] ++ List.replicate 36 0) := by
  obtain ⟨s₀, s₁, s₂, s₃, rfl⟩ := List.length_eq_four.mp hsrc
  obtain ⟨d₀, d₁, d₂, d₃, rfl⟩ := List.length_eq_four.mp hdst
  rfl

theorem putInner4_eq (hi lo : UInt8) (hsrc : srcIp.length = 4) (hdst : dstIp.length = 4) :
    putInner4 srcIp srcPort dstIp dstPort size
        (outer4 srcIp dstIp [hi, lo] ++ List.replicate 36 0) =
      .ok (outer4 srcIp dstIp [hi, lo] ++
        icmp4 srcIp srcPort dstIp dstPort size [0, 0]) := by
  obtain ⟨s₀, s₁, s₂, s₃, rfl⟩ := List.length_eq_four.mp hsrc
  obtain ⟨d₀, d₁, d₂, d₃, rfl⟩ := List.length_eq_four.mp hdst
  simp only [putInner4, putUdp, arraycopy, outer4, icmp4, quoted4, udpHeader, List.replicate,
    List.cons_append, List.nil_append, List.set_cons_succ, List.set_cons_zero, List.length_cons,
    List.length_nil, List.take_succ_cons, List.take_zero, List.drop_succ_cons, List.drop_zero]
  rfl

theorem length_eq_sixteen {l : Bytes} (h : l.length = 16) : ∃ a b c d e f g h i j k m n o p q,
    l = [a, b, c, d, e, f, g, h, i, j, k, m, n, o, p, q] := by
  have hget : l = (List.range 16).map fun i => l.getD i 0 := by
    refine List.ext_getElem (by rw [List.length_map, List.length_range, h]) fun i hi _ => ?_
    rw [List.getElem_map, List.getElem_range, List.getD_eq_getElem _ _ hi]
  exact ⟨_, _, _, _, _, _, _, _, _, _, _, _, _, _, _, _, hget⟩

theorem putOuter6_eq (hsrc : srcIp.length = 16) (hdst : dstIp.length = 16) :
    putOuter6 srcIp dstIp 56 (List.replicate 96 0) =
      .ok (outer6 srcIp dstIp ++ List.replicate 56 0) := by
  obtain ⟨s₀, s₁, s₂, s₃, s₄, s₅, s₆, s₇, s₈, s₉, s₁₀, s₁₁, s₁₂, s₁₃, s₁₄, s₁₅, rfl⟩ :=
    length_eq_sixteen hsrc
  obtain ⟨d₀, d₁, d₂, d₃, d₄, d₅, d₆, d₇, d₈, d₉, d₁₀, d₁₁, d₁₂, d₁₃, d₁₄, d₁₅, rfl⟩ :=
    length_eq_sixteen hdst
  rfl

theorem putInner6_eq (hsrc : srcIp.length = 16) (hdst : dstIp.length = 16) :
    putInner6 srcIp srcPort dstIp dstPort size (outer6 srcIp dstIp ++ List.replicate 56 0) =
      .ok (outer6 srcIp dstIp ++ icmp6 srcIp srcPort dstIp dstPort size [0, 0]) := by
  obtain ⟨s₀, s₁, s₂, s₃, s₄, s₅, s₆, s₇, s₈, s₉, s₁₀, s₁₁, s₁₂, s₁₃, s₁₄, s₁₅, rfl⟩ :=
    length_eq_sixteen hsrc
  obtain ⟨d₀, d₁, d₂, d₃, d₄, d₅, d₆, d₇, d₈, d₉, d₁₀, d₁₁, d₁₂, d₁₃, d₁₄, d₁₅, rfl⟩ :=
    length_eq_sixteen hdst
  simp only [putInner6, putUdp, arraycopy, outer6, icmp6, quoted6, udpHeader, List.replicate,
    List.cons_append, List.nil_append, List.set_cons_succ, List.set_cons_zero, List.length_cons,
    List.length_nil, List.take_succ_cons, List.take_zero, List.drop_succ_cons, List.drop_zero]
  rfl

theorem length_outer4 (hsrc : srcIp.length = 4) (hdst : dstIp.length = 4)
    (hlen : checksum.length = 2) : (outer4 srcIp dstIp checksum).length = 20 := by
  simp only [outer4, List.length_append, List.length_cons, List.length_nil, hsrc, hdst, hlen]

theorem length_icmp4 (hsrc : srcIp.length = 4) (hdst : dstIp.length = 4)
    (hlen : checksum.length = 2) :
    (icmp4 srcIp srcPort dstIp dstPort size checksum).length = 36 := by
  simp only [icmp4, quoted4, udpHeader, List.length_append, List.length_cons, List.length_nil, hsrc,
    hdst, hlen]

theorem length_outer6 (hsrc : srcIp.length = 16) (hdst : dstIp.length = 16) :
    (outer6 srcIp dstIp).length = 40 := by
  simp only [outer6, List.length_append, List.length_cons, List.length_nil, hsrc, hdst]

theorem length_icmp6 (hsrc : srcIp.length = 16) (hdst : dstIp.length = 16)
    (hlen : checksum.length = 2) :
    (icmp6 srcIp srcPort dstIp dstPort size checksum).length = 56 := by
  simp only [icmp6, quoted6, udpHeader, List.length_append, List.length_cons, List.length_nil, hsrc,
    hdst, hlen]

/-- The IPv4 packet: each part with the checksum of what it is without one. -/
theorem build4_eq (hsrc : srcIp.length = 4) (hdst : dstIp.length = 4) :
    buildIcmpv4PortUnreachable srcIp srcPort dstIp dstPort size =
      .ok (outer4 srcIp dstIp (checksumBytes (words (outer4 srcIp dstIp [0, 0])).sum) ++
        icmp4 srcIp srcPort dstIp dstPort size (checksumBytes
          (words (icmp4 srcIp srcPort dstIp dstPort size [0, 0])).sum)) := by
  have hheader : addWords (outer4 srcIp dstIp [0, 0] ++ List.replicate 36 0) 0 20 0 =
      .ok (0 + (words (outer4 srcIp dstIp [0, 0])).sum) :=
    addWords_part [] (List.replicate 36 0) (n := 10) (length_outer4 hsrc hdst rfl) 0
  have hputHeader : ∀ sum tail, putChecksum (outer4 srcIp dstIp [0, 0] ++ tail) 10 sum =
      outer4 srcIp dstIp (checksumBytes sum) ++ tail := by
    intro sum tail
    have hput := putChecksum_eq [0x45, 0, 0, 56, 0, 0, 0, 0, 64, 1] (dstIp ++ srcIp ++ tail) sum
    simp only [outer4, List.append_assoc] at hput ⊢
    exact hput
  have hicmp : ∀ outer : Bytes, outer.length = 20 → addWords (outer ++
      icmp4 srcIp srcPort dstIp dstPort size [0, 0]) 20 56 0 =
        .ok (0 + (words (icmp4 srcIp srcPort dstIp dstPort size [0, 0])).sum) := by
    intro outer houter
    have hlen : (icmp4 srcIp srcPort dstIp dstPort size [0, 0]).length = 2 * 18 :=
      length_icmp4 hsrc hdst rfl
    have hpart := addWords_part outer [] hlen 0
    rwa [List.append_nil, houter] at hpart
  have hputIcmp : ∀ outer : Bytes, outer.length = 20 → ∀ sum, putChecksum (outer ++
      icmp4 srcIp srcPort dstIp dstPort size [0, 0]) 22 sum =
        outer ++ icmp4 srcIp srcPort dstIp dstPort size (checksumBytes sum) := by
    intro outer houter sum
    have hput := putChecksum_message outer
      ([0, 0, 0, 0] ++ quoted4 srcIp srcPort dstIp dstPort size) 3 3 sum
    rwa [houter] at hput
  rw [buildIcmpv4PortUnreachable]
  dsimp only
  rw [putOuter4_eq hsrc hdst, bind_ok, hheader, bind_ok, hputHeader, checksumBytes,
    putInner4_eq _ _ hsrc hdst, bind_ok, hicmp _ (length_outer4 hsrc hdst rfl), bind_ok,
    hputIcmp _ (length_outer4 hsrc hdst rfl), Nat.zero_add, Nat.zero_add]
  rfl

/-- The IPv6 packet: its message with the checksum of what it is without one, and of the addresses,
the length and the next header. -/
theorem build6_eq (hsrc : srcIp.length = 16) (hdst : dstIp.length = 16) :
    buildIcmpv6PortUnreachable srcIp srcPort dstIp dstPort size =
      .ok (outer6 srcIp dstIp ++ icmp6 srcIp srcPort dstIp dstPort size (checksumBytes
        ((words dstIp).sum + (words srcIp).sum + 56 + 58 +
          (words (icmp6 srcIp srcPort dstIp dstPort size [0, 0])).sum))) := by
  have hfirst : ∀ tail sum, addWords (outer6 srcIp dstIp ++ tail) 8 24 sum =
      .ok (sum + (words dstIp).sum) := by
    intro tail sum
    have hpart := addWords_part [0x60, 0, 0, 0, 0, 56, 58, 64] (srcIp ++ tail)
      (n := 8) (hdst : dstIp.length = 2 * 8) sum
    simp only [outer6, List.append_assoc] at hpart ⊢
    exact hpart
  have hsecond : ∀ tail sum, addWords (outer6 srcIp dstIp ++ tail) 24 40 sum =
      .ok (sum + (words srcIp).sum) := by
    intro tail sum
    have hpart := addWords_part ([0x60, 0, 0, 0, 0, 56, 58, 64] ++ dstIp) tail
      (n := 8) (hsrc : srcIp.length = 2 * 8) sum
    rw [List.length_append, hdst] at hpart
    simp only [outer6, List.append_assoc] at hpart ⊢
    exact hpart
  have hicmp : ∀ sum, addWords (outer6 srcIp dstIp ++
      icmp6 srcIp srcPort dstIp dstPort size [0, 0]) 40 (40 + 56) sum =
        .ok (sum + (words (icmp6 srcIp srcPort dstIp dstPort size [0, 0])).sum) := by
    intro sum
    have hlen : (icmp6 srcIp srcPort dstIp dstPort size [0, 0]).length = 2 * 28 :=
      length_icmp6 hsrc hdst rfl
    have hpart := addWords_part (outer6 srcIp dstIp) [] hlen sum
    rwa [List.append_nil, length_outer6 hsrc hdst] at hpart
  have hputIcmp : ∀ sum, putChecksum (outer6 srcIp dstIp ++
      icmp6 srcIp srcPort dstIp dstPort size [0, 0]) 42 sum =
        outer6 srcIp dstIp ++ icmp6 srcIp srcPort dstIp dstPort size (checksumBytes sum) := by
    intro sum
    have hput := putChecksum_message (outer6 srcIp dstIp)
      ([0, 0, 0, 0] ++ quoted6 srcIp srcPort dstIp dstPort size) 1 4 sum
    rwa [length_outer6 hsrc hdst] at hput
  rw [buildIcmpv6PortUnreachable]
  dsimp only
  rw [putOuter6_eq hsrc hdst, bind_ok, putInner6_eq hsrc hdst, bind_ok, hfirst, bind_ok,
    hsecond, bind_ok, hicmp, bind_ok, hputIcmp, Nat.zero_add]

-- ----
-- What a packet has to be

section Valid

variable (srcIp : Bytes) (srcPort : Nat) (dstIp : Bytes) (dstPort udpPayloadLength : Nat)

/-- A destination unreachable packet for a datagram over IPv4. -/
structure ValidIcmpv4 (p : Bytes) : Prop where
  length : p.length = 56
  addresses : (p.drop 12).take 8 = dstIp ++ srcIp
  headerSum : sum (words (p.take 20)) = 0xFFFF
  messageSum : sum (words (p.drop 20)) = 0xFFFF
  quotedLength : readWord p 30 = .ok (20 + (8 + udpPayloadLength))
  quotedAddresses : (p.drop 40).take 8 = srcIp ++ dstIp
  quotedSrcPort : readWord p 48 = .ok srcPort
  quotedDstPort : readWord p 50 = .ok dstPort
  quotedUdpLength : readWord p 52 = .ok (8 + udpPayloadLength)

/-- What an ICMPv6 checksum is about in front of the message: the addresses of the packet, the
length of the message and its protocol. -/
def pseudoHeader (p : Bytes) : Bytes :=
  (p.drop 8).take 32 ++ lengthField 4 (p.length - 40) ++ [0, 0, 0, 58]

/-- A destination unreachable packet for a datagram over IPv6. -/
structure ValidIcmpv6 (p : Bytes) : Prop where
  length : p.length = 96
  addresses : (p.drop 8).take 32 = dstIp ++ srcIp
  messageSum : sum (words (pseudoHeader p ++ p.drop 40)) = 0xFFFF
  quotedLength : readWord p 52 = .ok (8 + udpPayloadLength)
  quotedAddresses : (p.drop 56).take 32 = srcIp ++ dstIp
  quotedSrcPort : readWord p 88 = .ok srcPort
  quotedDstPort : readWord p 90 = .ok dstPort
  quotedUdpLength : readWord p 92 = .ok (8 + udpPayloadLength)

end Valid

theorem word_toNat (h : n < 65536) :
    (UInt8.ofNat (n / 256)).toNat * 256 + (UInt8.ofNat (n % 256)).toNat = n := by
  rw [UInt8.toNat_ofNat', UInt8.toNat_ofNat']
  omega

theorem masked_toNat (h : n < 65536) :
    (UInt8.ofNat (n / 256 % 256)).toNat * 256 + (UInt8.ofNat (n % 256)).toNat = n := by
  rw [UInt8.toNat_ofNat', UInt8.toNat_ofNat']
  omega

theorem readWord_part (front : Bytes) (hi lo : UInt8) (behind : Bytes)
    (hp : p = front ++ hi :: lo :: behind) (hfront : front.length = i) :
    readWord p i = .ok (hi.toNat * 256 + lo.toNat) := by
  rw [hp, ← hfront, readWord_append]

theorem udpHeader_read (front : Bytes)
    (hp : p = front ++ udpHeader srcPort dstPort size) (hfront : front.length = i)
    (hsrcPort : srcPort < 65536) (hdstPort : dstPort < 65536) (hpayload : size ≤ 65507) :
    readWord p i = .ok srcPort ∧ readWord p (i + 2) = .ok dstPort ∧
      readWord p (i + 4) = .ok (8 + size) := by
  refine ⟨?_, ?_, ?_⟩
  · rw [readWord_part front _ _ _ hp hfront, word_toNat hsrcPort]
  · rw [readWord_part (front ++ [UInt8.ofNat (srcPort / 256), UInt8.ofNat (srcPort % 256)])
      (UInt8.ofNat (dstPort / 256)) (UInt8.ofNat (dstPort % 256)) _
      (by rw [hp, List.append_assoc]; rfl) (by rw [List.length_append, hfront]; rfl),
      word_toNat hdstPort]
  · rw [readWord_part (front ++ [UInt8.ofNat (srcPort / 256), UInt8.ofNat (srcPort % 256),
        UInt8.ofNat (dstPort / 256), UInt8.ofNat (dstPort % 256)])
      (UInt8.ofNat ((8 + size) / 256 % 256)) (UInt8.ofNat ((8 + size) % 256)) _
      (by rw [hp, List.append_assoc]; rfl) (by rw [List.length_append, hfront]; rfl),
      masked_toNat (by omega)]

theorem take_drop_part (front part behind : Bytes) (hp : p = front ++ (part ++ behind))
    (hfront : front.length = i) (hpart : part.length = n) : (p.drop i).take n = part := by
  rw [hp, List.drop_left' hfront, List.take_left' hpart]

/-- The sum of a message with the checksum of what it is without one, and of some words before
it. -/
theorem sum_checksumBytes (front behind : Bytes) (pseudo : List Nat) {total : Nat}
    (heven : front.length % 2 = 0) (hpseudo : ∀ w ∈ pseudo, w ≤ 0xFFFF)
    (htotal : total = pseudo.sum + (words (front ++ ([0, 0] ++ behind))).sum) (hpos : 0 < total) :
    sum (pseudo ++ words (front ++ (checksumBytes total ++ behind))) = 0xFFFF :=
  sum_checksum heven hpseudo htotal hpos rfl

/-- The IPv4 packet, when its checksums are right. -/
theorem validIcmpv4_of_sums (hsrc : srcIp.length = 4) (hdst : dstIp.length = 4)
    (hsrcPort : srcPort < 65536) (hdstPort : dstPort < 65536) (hpayload : size ≤ 65507)
    {headerCksum cksum : Bytes} (hheaderLen : headerCksum.length = 2) (hcksumLen : cksum.length = 2)
    (hheader : sum (words (outer4 srcIp dstIp headerCksum)) = 0xFFFF)
    (hmessage : sum (words (icmp4 srcIp srcPort dstIp dstPort size cksum)) = 0xFFFF) :
    ValidIcmpv4 srcIp srcPort dstIp dstPort size (outer4 srcIp dstIp headerCksum ++
      icmp4 srcIp srcPort dstIp dstPort size cksum) := by
  have houter := length_outer4 hsrc hdst hheaderLen
  have hicmp : (icmp4 srcIp srcPort dstIp dstPort size cksum).length = 36 :=
    length_icmp4 hsrc hdst hcksumLen
  -- what stands before the length field and before the addresses of the quoted header
  obtain ⟨front, hfrontEq⟩ : ∃ front, front = outer4 srcIp dstIp headerCksum ++ ([3, 3] ++
    (cksum ++ ([0, 0, 0, 0] ++ [0x45, 0]))) := ⟨_, rfl⟩
  obtain ⟨header, hheaderEq⟩ : ∃ header, header =
    front ++ [UInt8.ofNat ((20 + (8 + size)) / 256 % 256),
      UInt8.ofNat ((20 + (8 + size)) % 256), 0, 0, 0, 0, 64, 17, 0, 0] := ⟨_, rfl⟩
  have hfront : front.length = 30 := by
    simp only [hfrontEq, List.length_append, houter, hcksumLen, List.length_cons, List.length_nil]
  have hheaderLength : header.length = 40 := by
    simp only [hheaderEq, List.length_append, hfront, List.length_cons, List.length_nil]
  have hpacket : outer4 srcIp dstIp headerCksum ++
      icmp4 srcIp srcPort dstIp dstPort size cksum =
        header ++ (srcIp ++ dstIp ++ udpHeader srcPort dstPort size) := by
    simp only [hheaderEq, hfrontEq, icmp4, quoted4, List.append_assoc, List.cons_append,
      List.nil_append]
  have hudp :=
    udpHeader_read (header ++ (srcIp ++ dstIp)) (hpacket.trans (List.append_assoc _ _ _).symm)
    (i := 48) (by rw [List.length_append, List.length_append, hheaderLength, hsrc, hdst])
    hsrcPort hdstPort hpayload
  refine ⟨?_, ?_, ?_, ?_, ?_, ?_, hudp.1, hudp.2.1, hudp.2.2⟩
  · rw [List.length_append, houter, hicmp]
  · refine take_drop_part ([0x45, 0, 0, 56, 0, 0, 0, 0, 64, 1] ++ headerCksum) _
      (icmp4 srcIp srcPort dstIp dstPort size cksum) ?_ ?_ ?_
    · rw [outer4]
      simp only [List.append_assoc]
    · rw [List.length_append, hheaderLen]
      rfl
    · rw [List.length_append, hsrc, hdst]
  · exact (congrArg (fun part => sum (words part)) (List.take_left' houter)).trans hheader
  · exact (congrArg (fun part => sum (words part)) (List.drop_left' houter)).trans hmessage
  · have hlength : outer4 srcIp dstIp headerCksum ++
        icmp4 srcIp srcPort dstIp dstPort size cksum =
          front ++ UInt8.ofNat ((20 + (8 + size)) / 256 % 256) ::
            UInt8.ofNat ((20 + (8 + size)) % 256) :: ([0, 0, 0, 0, 64, 17, 0, 0] ++
              (srcIp ++ dstIp ++ udpHeader srcPort dstPort size)) := by
      rw [hpacket, hheaderEq]
      simp only [List.append_assoc, List.cons_append, List.nil_append]
    rw [readWord_part front _ _ _ hlength hfront, masked_toNat (by omega)]
  · rw [hpacket]
    exact take_drop_part header _ _ rfl hheaderLength (by rw [List.length_append, hsrc, hdst])

theorem valid_icmpv4 (hsrc : srcIp.length = 4) (hdst : dstIp.length = 4)
    (hsrcPort : srcPort < 65536) (hdstPort : dstPort < 65536) (hpayload : size ≤ 65507) :
    ∃ p, buildIcmpv4PortUnreachable srcIp srcPort dstIp dstPort size = .ok p ∧
      ValidIcmpv4 srcIp srcPort dstIp dstPort size p := by
  have hheader := sum_checksumBytes [0x45, 0, 0, 56, 0, 0, 0, 0, 64, 1] (dstIp ++ srcIp) []
    (Nat.zero_mod 2) nofun (Nat.zero_add _).symm (by simp [words])
  have hmessage := sum_checksumBytes [3, 3]
    ([0, 0, 0, 0] ++ quoted4 srcIp srcPort dstIp dstPort size) []
    (Nat.zero_mod 2) nofun (Nat.zero_add _).symm (by simp [words])
  exact ⟨_, build4_eq hsrc hdst,
    validIcmpv4_of_sums hsrc hdst hsrcPort hdstPort hpayload rfl rfl hheader hmessage⟩

/-- The IPv6 packet, when its checksum is right. -/
theorem validIcmpv6_of_sum (hsrc : srcIp.length = 16) (hdst : dstIp.length = 16)
    (hsrcPort : srcPort < 65536) (hdstPort : dstPort < 65536) (hpayload : size ≤ 65507)
    {cksum : Bytes} (hcksumLen : cksum.length = 2)
    (hmessage : sum (words (dstIp ++ srcIp ++ [0, 0, 0, 56] ++ [0, 0, 0, 58]) ++
      words (icmp6 srcIp srcPort dstIp dstPort size cksum)) = 0xFFFF) :
    ValidIcmpv6 srcIp srcPort dstIp dstPort size (outer6 srcIp dstIp ++
      icmp6 srcIp srcPort dstIp dstPort size cksum) := by
  have houter := length_outer6 hsrc hdst
  have hicmp : (icmp6 srcIp srcPort dstIp dstPort size cksum).length = 56 :=
    length_icmp6 hsrc hdst hcksumLen
  -- what stands before the length field and before the addresses of the quoted header
  obtain ⟨front, hfrontEq⟩ : ∃ front, front = outer6 srcIp dstIp ++ ([1, 4] ++
    (cksum ++ ([0, 0, 0, 0] ++ [0x60, 0, 0, 0]))) := ⟨_, rfl⟩
  obtain ⟨header, hheaderEq⟩ : ∃ header, header =
    front ++ [UInt8.ofNat ((8 + size) / 256), UInt8.ofNat ((8 + size) % 256),
      17, 64] := ⟨_, rfl⟩
  have hfront : front.length = 52 := by
    simp only [hfrontEq, List.length_append, houter, hcksumLen, List.length_cons, List.length_nil]
  have hheaderLength : header.length = 56 := by
    simp only [hheaderEq, List.length_append, hfront, List.length_cons, List.length_nil]
  have hpacket : outer6 srcIp dstIp ++ icmp6 srcIp srcPort dstIp dstPort size cksum =
      header ++ (srcIp ++ dstIp ++ udpHeader srcPort dstPort size) := by
    simp only [hheaderEq, hfrontEq, icmp6, quoted6, List.append_assoc, List.cons_append,
      List.nil_append]
  have hlen : (outer6 srcIp dstIp ++
      icmp6 srcIp srcPort dstIp dstPort size cksum).length = 96 := by
    rw [List.length_append, houter, hicmp]
  have haddresses : ((outer6 srcIp dstIp ++
      icmp6 srcIp srcPort dstIp dstPort size cksum).drop 8).take 32 = dstIp ++ srcIp := by
    refine take_drop_part [0x60, 0, 0, 0, 0, 56, 58, 64] _
      (icmp6 srcIp srcPort dstIp dstPort size cksum) ?_ rfl ?_
    · rw [outer6, List.append_assoc]
    · rw [List.length_append, hsrc, hdst]
  have hudp :=
    udpHeader_read (header ++ (srcIp ++ dstIp)) (hpacket.trans (List.append_assoc _ _ _).symm)
    (i := 88) (by rw [List.length_append, List.length_append, hheaderLength, hsrc, hdst])
    hsrcPort hdstPort hpayload
  refine ⟨hlen, haddresses, ?_, ?_, ?_, hudp.1, hudp.2.1, hudp.2.2⟩
  · have hpseudo : pseudoHeader (outer6 srcIp dstIp ++
        icmp6 srcIp srcPort dstIp dstPort size cksum) =
          dstIp ++ srcIp ++ [0, 0, 0, 56] ++ [0, 0, 0, 58] := by
      rw [pseudoHeader, haddresses, hlen]
      rfl
    have heven : (dstIp ++ srcIp ++ [0, 0, 0, 56] ++ [0, 0, 0, 58]).length % 2 = 0 := by
      simp only [List.length_append, hsrc, hdst, List.length_cons, List.length_nil]
    have hparts := words_append heven (icmp6 srcIp srcPort dstIp dstPort size cksum)
    have hdrop : (outer6 srcIp dstIp ++
        icmp6 srcIp srcPort dstIp dstPort size cksum).drop 40 = _ := List.drop_left' houter
    rw [hpseudo, hdrop, hparts]
    exact hmessage
  · have hlength : outer6 srcIp dstIp ++ icmp6 srcIp srcPort dstIp dstPort size cksum =
        front ++ UInt8.ofNat ((8 + size) / 256) ::
          UInt8.ofNat ((8 + size) % 256) :: ([17, 64] ++
            (srcIp ++ dstIp ++ udpHeader srcPort dstPort size)) := by
      rw [hpacket, hheaderEq]
      simp only [List.append_assoc, List.cons_append, List.nil_append]
    rw [readWord_part front _ _ _ hlength hfront, word_toNat (by omega)]
  · rw [hpacket]
    exact take_drop_part header _ _ rfl hheaderLength (by rw [List.length_append, hsrc, hdst])

theorem valid_icmpv6 (hsrc : srcIp.length = 16) (hdst : dstIp.length = 16)
    (hsrcPort : srcPort < 65536) (hdstPort : dstPort < 65536) (hpayload : size ≤ 65507) :
    ∃ p, buildIcmpv6PortUnreachable srcIp srcPort dstIp dstPort size = .ok p ∧
      ValidIcmpv6 srcIp srcPort dstIp dstPort size p := by
  have hpseudo : (words (dstIp ++ srcIp ++ [0, 0, 0, 56] ++ [0, 0, 0, 58])).sum =
      (words dstIp).sum + (words srcIp).sum + 56 + 58 := by
    rw [words_append
      (by simp only [List.length_append, hsrc, hdst, List.length_cons, List.length_nil]),
      words_append (by simp only [List.length_append, hsrc, hdst]), words_append (by rw [hdst]),
      List.sum_append, List.sum_append, List.sum_append]
    rfl
  have hmessage := sum_checksumBytes [1, 4]
    ([0, 0, 0, 0] ++ quoted6 srcIp srcPort dstIp dstPort size)
    (words (dstIp ++ srcIp ++ [0, 0, 0, 56] ++ [0, 0, 0, 58])) (Nat.zero_mod 2) (words_le _)
    (congrArg (· + _) hpseudo.symm) (by omega)
  exact ⟨_, build6_eq hsrc hdst,
    validIcmpv6_of_sum hsrc hdst hsrcPort hdstPort hpayload rfl hmessage⟩

/-- The packets for a datagram that no flow takes, over IPv4 and over IPv6. -/
theorem portUnreachable_valid {srcPort dstPort udpPayloadLength : Nat} (hsrcPort : srcPort < 65536)
    (hdstPort : dstPort < 65536) (hpayload : udpPayloadLength ≤ 65507) :
    (∀ srcIp dstIp : Bytes, srcIp.length = 4 → dstIp.length = 4 →
      ∃ p, buildIcmpv4PortUnreachable srcIp srcPort dstIp dstPort udpPayloadLength = .ok p ∧
        ValidIcmpv4 srcIp srcPort dstIp dstPort udpPayloadLength p) ∧
    (∀ srcIp dstIp : Bytes, srcIp.length = 16 → dstIp.length = 16 →
      ∃ p, buildIcmpv6PortUnreachable srcIp srcPort dstIp dstPort udpPayloadLength = .ok p ∧
        ValidIcmpv6 srcIp srcPort dstIp dstPort udpPayloadLength p) :=
  ⟨fun _ _ hsrc hdst => valid_icmpv4 hsrc hdst hsrcPort hdstPort hpayload,
    fun _ _ hsrc hdst => valid_icmpv6 hsrc hdst hsrcPort hdstPort hpayload⟩

/-- The packets for the largest datagram. -/
theorem portUnreachable_largest :
    (∃ p, buildIcmpv4PortUnreachable [10, 8, 0, 2] 40000 [198, 18, 0, 1] 443 65507 = .ok p ∧
      ValidIcmpv4 [10, 8, 0, 2] 40000 [198, 18, 0, 1] 443 65507 p) ∧
    ∃ p, buildIcmpv6PortUnreachable (List.replicate 16 0xFD) 40000
    (List.replicate 16 0xFC) 443 65507 =
        .ok p ∧
      ValidIcmpv6 (List.replicate 16 0xFD) 40000 (List.replicate 16 0xFC) 443 65507 p :=
  have hvalid := portUnreachable_valid (by norm_num : 40000 < 65536) (by norm_num : 443 < 65536)
    (Nat.le_refl 65507)
  ⟨hvalid.1 _ _ rfl rfl, hvalid.2 _ _ (List.length_replicate) (List.length_replicate)⟩

end Anywhere.Stack
