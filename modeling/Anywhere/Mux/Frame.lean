import Anywhere.Vless.Client
import Anywhere.Lib.Utf8
import Anywhere.Lib.Framing
import Anywhere.FakeIp.Address

/-!
# Anywhere — `MuxFrame`

A frame is the length of its metadata, the metadata, and when the DATA option is
set a payload with its length. Only a NEW frame has an address in its metadata,
and only for UDP may a GlobalID follow it. The parser keeps what it was fed until
a frame is complete; at metadata it cannot decode it drops everything.

* `Carried` — the metadata whose fields all go on the wire, in the form they are
  read back in.
* `mux_round_trip` — so are lists of such frames, however their bytes are cut.
-/

namespace Anywhere.Mux

open Lib FakeIp List

-- ----
-- The model

inductive MuxSessionStatus
  | new | keep | ended | keepAlive
  deriving DecidableEq, Repr

namespace MuxSessionStatus

def value : MuxSessionStatus → UInt8
  | new => 0x01
  | keep => 0x02
  | ended => 0x03
  | keepAlive => 0x04

def fromByte (b : UInt8) : Option MuxSessionStatus :=
  [new, keep, ended, keepAlive].find? (·.value == b)

theorem fromByte_value (status : MuxSessionStatus) : fromByte status.value = some status := by
  rcases status with _ | _ | _ | _ <;> rfl

end MuxSessionStatus

inductive MuxNetwork
  | tcp | udp
  deriving DecidableEq, Repr

namespace MuxNetwork

def value : MuxNetwork → UInt8
  | tcp => 0x01
  | udp => 0x02

def fromByte (b : UInt8) : Option MuxNetwork := [tcp, udp].find? (·.value == b)

theorem fromByte_value (network : MuxNetwork) : fromByte network.value = some network := by
  rcases network with _ | _ <;> rfl

end MuxNetwork

structure MuxFrameMetadata where
  sessionID : Nat
  status : MuxSessionStatus
  option : Nat
  network : Option MuxNetwork := none
  targetHost : Option Text := none
  targetPort : Option Nat := none
  globalID : Option Bytes := none
  deriving DecidableEq

/-- `option and MuxOption.DATA`. -/
def MuxFrameMetadata.hasData (metadata : MuxFrameMetadata) : Bool := metadata.option.testBit 0

/-- What the code uses of `java.net.InetAddress`: the sixteen bytes of a text that
`getByName` makes an `Inet6Address` of, and the text of sixteen bytes. -/
structure InetAddress where
  getByName : Text → Option Bytes
  hostAddress : Bytes → Text
  length_getByName : ∀ {text bytes}, getByName text = some bytes → bytes.length = 16

def bytes16 (n : Nat) : Bytes := [UInt8.ofNat (n / 256), UInt8.ofNat n]

def parseIPv4 (address : Text) : Option Bytes := Vless.parseIPv4 address

/-- The text without the brackets around it. -/
def unbracket (address : Text) : Text :=
  if address.head? = some '[' ∧ address.getLast? = some ']' then (address.drop 1).dropLast
  else address

def parseIPv6 (inet : InetAddress) (address : Text) : Option Bytes :=
  if (unbracket address).contains ':' then inet.getByName (unbracket address) else none

def encodeAddress (inet : InetAddress) (host : Text) : Bytes :=
  match parseIPv4 host with
  | some ipv4 => 0x01 :: ipv4
  | none =>
    match parseIPv6 inet host with
    | some ipv6 => 0x03 :: ipv6
    | none => 0x02 :: UInt8.ofNat (Vless.utf8Bytes host).length :: Vless.utf8Bytes host

def encodeGlobalID (network : MuxNetwork) (globalID : Option Bytes) : Bytes :=
  match globalID with
  | some gid => if network = .udp ∧ gid.length = 8 then gid else []
  | none => []

def encodeTarget (inet : InetAddress) (metadata : MuxFrameMetadata) : Bytes :=
  match metadata.network, metadata.targetHost, metadata.targetPort with
  | some net, some host, some port =>
    net.value :: (bytes16 port ++ encodeAddress inet host ++ encodeGlobalID net metadata.globalID)
  | _, _, _ => []

/-- `MuxFrameMetadata.encode`. -/
def encode (inet : InetAddress) (metadata : MuxFrameMetadata) : Bytes :=
  bytes16 metadata.sessionID ++ [metadata.status.value, UInt8.ofNat metadata.option] ++
    if metadata.status = .new then encodeTarget inet metadata else []

/-- The domain case of `decodeAddress`. -/
def decodeDomain : Bytes → Option (Text × Bytes)
  | [] => none
  | domainLen :: data =>
    if data.length < domainLen.toNat then none
    else some (decodeUtf8 (data.take domainLen.toNat), data.drop domainLen.toNat)

/-- `decodeAddress` on the bytes from the offset on: the host and the bytes behind it. -/
def decodeAddress (inet : InetAddress) : Bytes → Option (Text × Bytes)
  | [] => none
  | addrType :: data =>
    if addrType = 0x01 then
      if data.length < 4 then none
      else some (['.'].intercalate ((data.take 4).map fun b => Nat.toDigits 10 b.toNat),
        data.drop 4)
    else if addrType = 0x02 then decodeDomain data
    else if addrType = 0x03 then
      if data.length < 16 then none else some (inet.hostAddress (data.take 16), data.drop 16)
    else none

/-- The part of `decode` for a NEW frame. -/
def decodeTarget (inet : InetAddress) (metadata : MuxFrameMetadata) : Bytes →
    Option MuxFrameMetadata
  | net :: hi :: lo :: data =>
    (MuxNetwork.fromByte net).bind fun network =>
      (decodeAddress inet data).map fun addr =>
        { metadata with
          network := some network
          targetPort := some (hi.toNat * 256 + lo.toNat)
          targetHost := some addr.1
          globalID := if network = .udp ∧ 8 ≤ addr.2.length then some (addr.2.take 8) else none }
  | _ => none

/-- `MuxFrameMetadata.decode`; the number of bytes it also returns is not used. -/
def decode (inet : InetAddress) : Bytes → Option MuxFrameMetadata
  | hi :: lo :: status :: option :: data =>
    (MuxSessionStatus.fromByte status).bind fun status =>
      let metadata : MuxFrameMetadata := ⟨hi.toNat * 256 + lo.toNat, status, option.toNat, none,
          none, none, none⟩
      if status = .new then decodeTarget inet metadata data else some metadata
  | _ => none

/-- A frame as the callers of `encodeMuxFrame` and `feed` see it. -/
abbrev MuxFrame := MuxFrameMetadata × Option Bytes

def encodeMuxFrame (inet : InetAddress) (frame : MuxFrame) : Bytes :=
  bytes16 (encode inet frame.1).length ++ encode inet frame.1 ++
    match frame.2 with
    | some payload => if frame.1.hasData then bytes16 payload.length ++ payload else []
    | none => []

/-- What a turn of the loop of `feed` finds at its offset. -/
inductive Found
  | incomplete
  | corrupt
  | frame (f : MuxFrame) (rest : Bytes)

/-- The payload of a frame whose metadata has been decoded. -/
def findPayload (metadata : MuxFrameMetadata) (data : Bytes) : Found :=
  if metadata.hasData then
    match data with
    | hi :: lo :: data =>
      let payloadLen := hi.toNat * 256 + lo.toNat
      if data.length < payloadLen then .incomplete
      else
        .frame (metadata, if payloadLen > 0 then some (data.take payloadLen) else none)
          (data.drop payloadLen)
    | _ => .incomplete
  else .frame (metadata, none) data

/-- A turn of the loop of `feed`, on the bytes from the offset on. -/
def find (inet : InetAddress) : Bytes → Found
  | hi :: lo :: data =>
    let metaLen := hi.toNat * 256 + lo.toNat
    if data.length < metaLen then .incomplete
    else
      match decode inet (data.take metaLen) with
      | none => .corrupt
      | some metadata => findPayload metadata (data.drop metaLen)
  | _ => .incomplete

/-- How the loop ends: at the bytes of an incomplete frame, or at a corrupt one. -/
inductive Ended
  | atRest (rest : Bytes)
  | atCorrupt

/-- The loop of `feed`: the results and how it ends. A frame has at least two bytes. -/
def feedLoop (inet : InetAddress) : Nat → Bytes → List MuxFrame × Ended
  | 0, data => ([], .atRest data)
  | n + 1, data =>
    match find inet data with
    | .incomplete => ([], .atRest data)
    | .corrupt => ([], .atCorrupt)
    | .frame f rest => (f :: (feedLoop inet n rest).1, (feedLoop inet n rest).2)

/-- `MuxFrameParser.feed`: the buffer behind it, and the results. At a corrupt frame
the buffer is emptied; when frames were found before it, copying the rest of the
emptied buffer throws and the results are lost. -/
def feed (inet : InetAddress) (buffer data : Bytes) : Bytes × Option (List MuxFrame) :=
  match feedLoop inet (buffer ++ data).length (buffer ++ data) with
  | (results, .atRest rest) => (rest, some results)
  | ([], .atCorrupt) => ([], some [])
  | (_ :: _, .atCorrupt) => ([], none)

/-- The results for one chunk of the stream after the other. -/
def feedAll (inet : InetAddress) : Bytes → List Bytes → Option (List (List MuxFrame))
  | _, [] => some []
  | buffer, data :: chunks =>
    (feed inet buffer data).2.bind fun results =>
      (feedAll inet (feed inet buffer data).1 chunks).map (results :: ·)

-- ----
-- Addresses

/-- The host is the text its bytes on the wire are read back as: a dotted quad
without signs and leading zeros, an IPv6 address in the text of `hostAddress`, or a
domain of at most 255 bytes. -/
def HostCarried (inet : InetAddress) (host : Text) : Prop :=
  match parseIPv4 host with
  | some bytes => inetNtop4 bytes = host
  | none =>
    match parseIPv6 inet host with
    | some bytes => inet.hostAddress bytes = host
    | none => (Vless.utf8Bytes host).length ≤ 255

theorem length_of_mapM {α β : Type} {f : α → Option β} {as : List α} {bs : List β}
    (h : as.mapM f = some bs) : bs.length = as.length := by
  induction as generalizing bs with
  | nil => simp_all
  | cons a as ih =>
    rw [mapM_cons] at h
    obtain ⟨b, -, h⟩ := Option.bind_eq_some_iff.1 h
    obtain ⟨bs', hbs', h⟩ := Option.bind_eq_some_iff.1 h
    obtain rfl : b :: bs' = bs := by simpa using h
    simp [ih hbs']

variable {host : Text}

theorem length_parseIPv4 {bytes : Bytes} (h : parseIPv4 host = some bytes) :
    bytes.length = 4 := by
  simp only [parseIPv4, Vless.parseIPv4] at h
  split at h
  · cases h
  · rename_i hparts
    rw [length_of_mapM h]
    omega

variable {inet : InetAddress}

theorem length_parseIPv6 {bytes : Bytes}
    (h : parseIPv6 inet host = some bytes) : bytes.length = 16 := by
  unfold parseIPv6 at h
  split at h
  · exact inet.length_getByName h
  · cases h

theorem decodeAddress_encodeAddress (h : HostCarried inet host)
    (rest : Bytes) : decodeAddress inet (encodeAddress inet host ++ rest) = some (host, rest) := by
  unfold HostCarried at h
  unfold encodeAddress
  rcases h4 : parseIPv4 host with _ | ipv4
  · rcases h6 : parseIPv6 inet host with _ | ipv6
    · simp only [h4, h6] at h ⊢
      have hlen : (UInt8.ofNat (Vless.utf8Bytes host).length).toNat =
          (Vless.utf8Bytes host).length := by
        rw [UInt8.toNat_ofNat']
        omega
      show decodeAddress inet (0x02 :: UInt8.ofNat _ :: (Vless.utf8Bytes host ++ rest)) = _
      rw [decodeAddress, if_neg (by decide), if_pos rfl, decodeDomain, hlen, if_neg (by simp),
        take_left' rfl, drop_left' rfl]
      simp only [Vless.utf8Bytes, decodeUtf8_encode]
    · simp only [h4, h6] at h ⊢
      have hlen := length_parseIPv6 h6
      show decodeAddress inet (0x03 :: (ipv6 ++ rest)) = _
      rw [decodeAddress, if_neg (by decide), if_neg (by decide), if_pos rfl,
        if_neg (by simp [hlen]), take_left' hlen, drop_left' hlen, h]
  · simp only [h4] at h ⊢
    have hlen := length_parseIPv4 h4
    show decodeAddress inet (0x01 :: (ipv4 ++ rest)) = _
    rw [decodeAddress, if_pos rfl, if_neg (by simp [hlen]), take_left' hlen,
      drop_left' hlen]
    rw [← h]
    rfl

theorem length_encodeAddress (h : HostCarried inet host) :
    (encodeAddress inet host).length ≤ 257 := by
  unfold HostCarried at h
  unfold encodeAddress
  rcases h4 : parseIPv4 host with _ | ipv4
  · rcases h6 : parseIPv6 inet host with _ | ipv6
    · simp only [h4, h6] at h ⊢
      rw [length_cons, length_cons]
      omega
    · simp [length_parseIPv6 h6]
  · simp [length_parseIPv4 h4]

-- ----
-- Metadata

/-- The address fields of the metadata all go on the wire: a NEW frame has them, with
a GlobalID of eight bytes only for UDP, and the other frames have none. -/
def TargetCarried (inet : InetAddress) (metadata : MuxFrameMetadata) : Prop :=
  if metadata.status = .new then
    ∃ net host port, metadata.network = some net ∧ metadata.targetHost = some host ∧
      metadata.targetPort = some port ∧ port < 65536 ∧ HostCarried inet host ∧
      ∀ gid, metadata.globalID = some gid → net = .udp ∧ gid.length = 8
  else
    metadata.network = none ∧ metadata.targetHost = none ∧ metadata.targetPort = none ∧
      metadata.globalID = none

structure Carried (inet : InetAddress) (metadata : MuxFrameMetadata) : Prop where
  sessionID_lt : metadata.sessionID < 65536
  option_lt : metadata.option < 256
  target : TargetCarried inet metadata

variable {metadata : MuxFrameMetadata}

theorem decodeTarget_encodeTarget
    {net : MuxNetwork} {port : Nat} (hnet : metadata.network = some net)
    (hhost : metadata.targetHost = some host) (hport : metadata.targetPort = some port)
    (hlt : port < 65536) (hcarried : HostCarried inet host)
    (hgid : ∀ gid, metadata.globalID = some gid → net = .udp ∧ gid.length = 8) :
    decodeTarget inet ⟨metadata.sessionID, metadata.status, metadata.option, none, none, none, none⟩
      (encodeTarget inet metadata) = some metadata := by
  obtain ⟨id, status, option, _, _, _, globalID⟩ := metadata
  obtain rfl : _ = some net := hnet
  obtain rfl : _ = some host := hhost
  obtain rfl : _ = some port := hport
  show decodeTarget inet _ (net.value :: UInt8.ofNat (port / 256) :: UInt8.ofNat port ::
    (encodeAddress inet host ++ encodeGlobalID net globalID)) = _
  rw [decodeTarget, MuxNetwork.fromByte_value, Option.bind_some,
    decodeAddress_encodeAddress hcarried, Option.map_some, bytes16_value hlt]
  rcases globalID with _ | gid
  · simp [encodeGlobalID]
  · obtain ⟨rfl, hlen⟩ := hgid gid rfl
    have htake : gid.take 8 = gid := take_of_length_le (by omega)
    simp [encodeGlobalID, hlen, htake]

/-- Metadata that goes on the wire as it is, is read back. -/
theorem decode_encode (h : Carried inet metadata) :
    decode inet (encode inet metadata) = some metadata := by
  have hoption : (UInt8.ofNat metadata.option).toNat = metadata.option := by
    rw [UInt8.toNat_ofNat']
    exact Nat.mod_eq_of_lt h.option_lt
  have htarget := h.target
  unfold TargetCarried at htarget
  show decode inet (UInt8.ofNat (metadata.sessionID / 256) :: UInt8.ofNat metadata.sessionID ::
    metadata.status.value :: UInt8.ofNat metadata.option ::
      (if metadata.status = .new then encodeTarget inet metadata else [])) = _
  rw [decode, MuxSessionStatus.fromByte_value, Option.bind_some]
  simp only [bytes16_value h.sessionID_lt, hoption]
  by_cases hnew : metadata.status = .new
  · rw [if_pos hnew] at htarget ⊢
    rw [if_pos hnew]
    obtain ⟨net, host, port, hnet, hhost, hport, hlt, hcarried, hgid⟩ := htarget
    exact decodeTarget_encodeTarget hnet hhost hport hlt hcarried hgid
  · rw [if_neg hnew] at htarget ⊢
    obtain ⟨hnet, hhost, hport, hgid⟩ := htarget
    rw [← hnet, ← hhost, ← hport, ← hgid]

theorem length_encode (h : Carried inet metadata) :
    (encode inet metadata).length < 65536 := by
  have htarget := h.target
  unfold TargetCarried at htarget
  unfold encode
  by_cases hnew : metadata.status = .new
  · rw [if_pos hnew] at htarget ⊢
    obtain ⟨net, host, port, hnet, hhost, hport, hlt, hcarried, hgid⟩ := htarget
    have haddr := length_encodeAddress hcarried
    have hid : (encodeGlobalID net metadata.globalID).length ≤ 8 := by
      unfold encodeGlobalID
      split
      · split <;> simp_all
      · simp
    simp only [encodeTarget, hnet, hhost, hport, bytes16, length_append, length_cons,
      length_nil]
    omega
  · rw [if_neg hnew]
    simp [bytes16]

-- ----
-- Frames

theorem findPayload_ne_corrupt (metadata : MuxFrameMetadata) (data : Bytes) :
    findPayload metadata data ≠ .corrupt := by
  unfold findPayload
  split
  · rcases data with _ | ⟨hi, _ | ⟨lo, data⟩⟩
    · simp
    · simp
    · simp only
      split <;> simp
  · simp

variable {data : Bytes}

theorem findPayload_extend {rest : Bytes} {f : MuxFrame}
    (zs : Bytes) (h : findPayload metadata data = .frame f rest) :
    rest.length ≤ data.length ∧ findPayload metadata (data ++ zs) = .frame f (rest ++ zs) := by
  unfold findPayload at h ⊢
  split at h
  · rename_i hdata
    rcases data with _ | ⟨hi, _ | ⟨lo, data⟩⟩
    · cases h
    · cases h
    · simp only [hdata, if_true, cons_append] at h ⊢
      split at h
      · cases h
      · rename_i hle
        obtain ⟨rfl, rfl⟩ := Found.frame.inj h
        have hlen : ¬ (data ++ zs).length < hi.toNat * 256 + lo.toNat := by
          simp only [length_append]
          omega
        rw [if_neg hlen, take_append_of_le_length (by omega),
          drop_append_of_le_length (by omega)]
        refine ⟨?_, rfl⟩
        simp only [length_drop, length_cons]
        omega
  · rename_i hdata
    obtain ⟨rfl, rfl⟩ := Found.frame.inj h
    simp [hdata]

/-- What `find` has found it finds again when more bytes stand behind it. -/
theorem find_extend (zs : Bytes) :
    (∀ {f rest}, find inet data = .frame f rest →
      rest.length < data.length ∧ find inet (data ++ zs) = .frame f (rest ++ zs)) ∧
    (find inet data = .corrupt → find inet (data ++ zs) = .corrupt) := by
  rcases data with _ | ⟨hi, _ | ⟨lo, data⟩⟩
  · exact ⟨fun h => (by cases h), fun h => (by cases h)⟩
  · exact ⟨fun h => (by cases h), fun h => (by cases h)⟩
  · simp only [find, cons_append]
    by_cases hlt : data.length < hi.toNat * 256 + lo.toNat
    · simp only [hlt, if_true]
      exact ⟨fun h => (by cases h), fun h => (by cases h)⟩
    · have hlt' : ¬ (data ++ zs).length < hi.toNat * 256 + lo.toNat := by
        simp only [length_append]
        omega
      simp only [hlt, hlt', if_false, take_append_of_le_length (Nat.le_of_not_lt hlt),
        drop_append_of_le_length (Nat.le_of_not_lt hlt)]
      rcases decode inet (data.take (hi.toNat * 256 + lo.toNat)) with _ | metadata
      · exact ⟨fun h => (by cases h), fun _ => rfl⟩
      · refine ⟨fun h => ?_, fun h => ?_⟩
        · obtain ⟨hle, hext⟩ := findPayload_extend zs h
          refine ⟨?_, hext⟩
          simp only [length_drop, length_cons] at hle ⊢
          omega
        · exact absurd h (findPayload_ne_corrupt metadata _)

/-- The frames of a stream; a corrupt one ends it. -/
def framing (inet : InetAddress) : Framing UInt8 MuxFrame where
  next data :=
    match find inet data with
    | .frame f rest => some (f, rest)
    | _ => none
  progress := by
    intro data f rest h
    rcases hf : find inet data with _ | _ | ⟨f', rest'⟩
    · simp [hf] at h
    · simp [hf] at h
    · obtain ⟨rfl, rfl⟩ : f' = f ∧ rest' = rest := by simpa [hf] using h
      exact ((find_extend []).1 hf).1
  extend := by
    intro data f rest zs h
    rcases hf : find inet data with _ | _ | ⟨f', rest'⟩
    · simp [hf] at h
    · simp [hf] at h
    · obtain ⟨rfl, rfl⟩ : f' = f ∧ rest' = rest := by simpa [hf] using h
      simp [((find_extend zs).1 hf).2]

theorem framing_next {rest : Bytes} {f : MuxFrame}
    (h : find inet data = .frame f rest) : (framing inet).next data = some (f, rest) := by
  simp [framing, h]

theorem framing_next_none
    (h : ∀ f rest, find inet data ≠ .frame f rest) : (framing inet).next data = none := by
  rcases hf : find inet data with _ | _ | ⟨f, rest⟩
  · simp [framing, hf]
  · simp [framing, hf]
  · exact absurd hf (h f rest)

theorem corrupt_stays {xs : Bytes}
    (h : find inet ((framing inet).rest xs) = .corrupt) (ys : Bytes) :
    find inet ((framing inet).rest (xs ++ ys)) = .corrupt := by
  have hcorrupt := (find_extend ys).2 h
  have hnone : (framing inet).next ((framing inet).rest xs ++ ys) = none :=
    framing_next_none fun f rest hf => by rw [hf] at hcorrupt; cases hcorrupt
  rw [(framing inet).rest_append, (framing inet).rest_none hnone]
  exact hcorrupt

theorem feedLoop_eq {n : Nat} (hn : data.length ≤ n)
    (hclean : find inet ((framing inet).rest data) ≠ .corrupt) :
    feedLoop inet n data = ((framing inet).frames data, .atRest ((framing inet).rest data)) := by
  induction n generalizing data with
  | zero =>
    obtain rfl : data = [] := length_eq_zero_iff.1 (by omega)
    rfl
  | succ n ih =>
    rcases hf : find inet data with _ | _ | ⟨f, rest⟩
    · have hnone : (framing inet).next data = none :=
        framing_next_none fun f rest hf' => by rw [hf] at hf'; cases hf'
      rw [feedLoop, hf, (framing inet).frames_none hnone, (framing inet).rest_none hnone]
    · have hnone : (framing inet).next data = none :=
        framing_next_none fun f rest hf' => by rw [hf] at hf'; cases hf'
      rw [(framing inet).rest_none hnone] at hclean
      exact absurd hf hclean
    · have hnext := framing_next hf
      have hlt := ((find_extend []).1 hf).1
      rw [(framing inet).rest_some hnext] at hclean
      rw [feedLoop, hf, (framing inet).frames_some hnext, (framing inet).rest_some hnext]
      simp only [ih (by omega) hclean]

/-- Fed in chunks, a stream without corrupt frames gives its frames. -/
theorem feedAll_eq {buffer : Bytes} {chunks : List Bytes}
    (hbuffer : (framing inet).next buffer = none)
    (hclean : find inet ((framing inet).rest (buffer ++ chunks.flatten)) ≠ .corrupt) :
    ∃ results, feedAll inet buffer chunks = some results ∧
      results.flatten = (framing inet).frames (buffer ++ chunks.flatten) := by
  induction chunks generalizing buffer with
  | nil => exact ⟨[], rfl, by simp [(framing inet).frames_none hbuffer]⟩
  | cons data chunks ih =>
    rw [flatten_cons, ← append_assoc] at hclean ⊢
    have hfirst : find inet ((framing inet).rest (buffer ++ data)) ≠ .corrupt :=
      fun h => hclean (corrupt_stays h _)
    have hfeed : feed inet buffer data =
        ((framing inet).rest (buffer ++ data), some ((framing inet).frames (buffer ++ data))) := by
      simp only [feed, feedLoop_eq (Nat.le_refl _) hfirst]
    rw [(framing inet).rest_append] at hclean
    obtain ⟨results, hall, hflat⟩ := ih ((framing inet).next_rest _) hclean
    refine ⟨(framing inet).frames (buffer ++ data) :: results, ?_, ?_⟩
    · simp [feedAll, hfeed, hall]
    · rw [flatten_cons, hflat, (framing inet).frames_append (buffer ++ data)]

-- ----
-- The round trip

/-- The frame goes on the wire as it is: it has a payload exactly when its option
says so, of a size that fits. -/
def FrameCarried (inet : InetAddress) (frame : MuxFrame) : Prop :=
  Carried inet frame.1 ∧
    match frame.2 with
    | some payload => frame.1.hasData = true ∧ 1 ≤ payload.length ∧ payload.length ≤ 65535
    | none => frame.1.hasData = false

theorem find_encodeMuxFrame {frame : MuxFrame} (h : FrameCarried inet frame)
    (zs : Bytes) : find inet (encodeMuxFrame inet frame ++ zs) = .frame frame zs := by
  obtain ⟨metadata, payload⟩ := frame
  obtain ⟨hcarried, hpayload⟩ := h
  have hmeta := bytes16_value (length_encode hcarried)
  rcases payload with _ | payload
  · have hdata : metadata.hasData = false := hpayload
    show find inet (UInt8.ofNat _ :: UInt8.ofNat _ :: (encode inet metadata ++ [] ++ zs)) = _
    rw [find]
    simp only [hmeta, append_nil]
    rw [if_neg (by simp), take_left' rfl, drop_left' rfl, decode_encode hcarried]
    simp [findPayload, hdata]
  · obtain ⟨hdata, hpos, hle⟩ : metadata.hasData = true ∧ 1 ≤ payload.length ∧
        payload.length ≤ 65535 :=
      hpayload
    have hlen := bytes16_value (show payload.length < 65536 by omega)
    have hbytes : encodeMuxFrame inet (metadata, some payload) ++ zs =
        UInt8.ofNat ((encode inet metadata).length / 256) :: UInt8.ofNat
          (encode inet metadata).length ::
          (encode inet metadata ++ UInt8.ofNat (payload.length / 256) ::
            UInt8.ofNat payload.length :: (payload ++ zs)) := by
      simp [encodeMuxFrame, hdata, bytes16]
    rw [hbytes, find]
    simp only [hmeta]
    rw [if_neg (by simp), take_left' rfl, drop_left' rfl, decode_encode hcarried]
    simp only [findPayload, hdata, if_true, hlen]
    rw [if_neg (by simp), if_pos (by omega), take_left' rfl, drop_left' rfl]

/-- However the bytes of a list of frames that go on the wire as they are are cut,
the parser yields the list. -/
theorem mux_round_trip (inet : InetAddress) (frames : List MuxFrame)
    (hframes : ∀ frame ∈ frames, FrameCarried inet frame) (chunks : List Bytes)
    (hchunks : chunks.flatten = frames.flatMap (encodeMuxFrame inet)) :
    ∃ results, feedAll inet [] chunks = some results ∧ results.flatten = frames := by
  have hencodes : ∀ frame ∈ frames, (framing inet).Encodes (encodeMuxFrame inet) frame :=
    fun frame hframe zs => framing_next (find_encodeMuxFrame (hframes frame hframe) zs)
  obtain ⟨hall, hrest⟩ := (framing inet).frames_encoded hencodes []
  rw [append_nil, ← hchunks] at hall hrest
  have hnil : (framing inet).rest [] = [] := (framing inet).rest_none (framing inet).next_nil
  have hclean : find inet ((framing inet).rest ([] ++ chunks.flatten)) ≠ .corrupt := by
    rw [nil_append, hrest, hnil]
    simp [find]
  obtain ⟨results, hfeed, hflat⟩ := feedAll_eq (framing inet).next_nil hclean
  refine ⟨results, hfeed, ?_⟩
  rw [hflat, nil_append, hall, (framing inet).frames_none (framing inet).next_nil, append_nil]

/-- A platform that takes no text for an IPv6 address. -/
def noInet : InetAddress := ⟨fun _ => none, fun _ => [], fun h => (by cases h)⟩

/-- An XUDP frame to 1.1.1.1, its first data and the end of the session. -/
def xudpFrames : List MuxFrame :=
  [(⟨0, .new, 1, some .udp, some "1.1.1.1".toList, some 53, some [1, 2, 3, 4, 5, 6, 7, 8]⟩,
    some [7]), (⟨0, .keep, 1, none, none, none, none⟩, some [8, 9]),
    (⟨0, .ended, 0, none, none, none, none⟩, none)]

theorem xudpFrames_carried : ∀ frame ∈ xudpFrames, FrameCarried noInet frame := by
  have hhost : HostCarried noInet "1.1.1.1".toList := by
    have h4 : parseIPv4 "1.1.1.1".toList = some [1, 1, 1, 1] := by decide
    rw [HostCarried, h4]
    decide
  intro frame hframe
  simp only [xudpFrames, mem_cons, not_mem_nil, or_false] at hframe
  rcases hframe with rfl | rfl | rfl
  · refine ⟨⟨by decide, by decide, ?_⟩, by decide⟩
    exact ⟨.udp, "1.1.1.1".toList, 53, rfl, rfl, rfl, by decide, hhost, by simp⟩
  · exact ⟨⟨by decide, by decide, by simp [TargetCarried]⟩, by decide⟩
  · exact ⟨⟨by decide, by decide, by simp [TargetCarried]⟩, by decide⟩

/-- The bytes of the frames, cut inside the metadata of the first, inside a payload and between two
frames. -/
def xudpChunks : List Bytes :=
  let bytes := xudpFrames.flatMap (encodeMuxFrame noInet)
  [bytes.take 7, (bytes.drop 7).take 25, (bytes.drop 32).take 4, bytes.drop 36]

theorem mux_round_trip_of_xudp :
    (∀ frame ∈ xudpFrames, FrameCarried noInet frame) ∧
    ∃ results, feedAll noInet [] xudpChunks = some results ∧ results.flatten = xudpFrames := by
  have hchunks : xudpChunks.flatten = xudpFrames.flatMap (encodeMuxFrame noInet) := by decide
  exact ⟨xudpFrames_carried, mux_round_trip noInet xudpFrames xudpFrames_carried _ hchunks⟩

/-- A NEW frame for TCP with a GlobalID and a host with a leading zero: the GlobalID
is not written, and the host comes back in the usual text. -/
theorem frame_read_back_differently :
    feedAll noInet [] [encodeMuxFrame noInet
      (⟨1, .new, 0, some .tcp, some "01.1.1.1".toList, some 443, some [1, 2, 3, 4, 5, 6, 7, 8]⟩,
        none)] =
      some [[(⟨1, .new, 0, some .tcp, some "1.1.1.1".toList, some 443, none⟩, none)]] := by
  decide

end Anywhere.Mux
