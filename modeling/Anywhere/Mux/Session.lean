import Anywhere.Mux.Client

/-!
# Anywhere — what a `MuxSession` sends

The first send of a session with a GlobalID is its NEW frame, and every other send is a KEEP
frame. `encodeKeepFrame` gives the metadata of a UDP session an address, which
`MuxFrameMetadata.encode` writes for a NEW frame only.

* `readFrame` — a frame that carries an address, by the layout of a NEW frame.
* `frames_name_target_iff` — the frames that name the target of their session.
-/

namespace Anywhere.Mux

open Lib FakeIp List

-- ----
-- The model

/-- The part of `MuxSession` that sends. -/
structure SendingSession extends MuxSession where
  firstFrameSent : Bool

namespace SendingSession

def new (session : MuxSession) : SendingSession :=
  { session with firstFrameSent := session.globalID.isNone }

def encodeNewFrameWithData (inet : InetAddress) (s : SendingSession) (data : Bytes) : Bytes :=
  encodeMuxFrame inet
    (⟨s.sessionID, .new, 1, some s.network, some s.targetHost, some s.targetPort, s.globalID⟩,
      some data)

def encodeKeepFrame (inet : InetAddress) (s : SendingSession) (data : Bytes) : Bytes :=
  let metadata : MuxFrameMetadata := ⟨s.sessionID, .keep, 1, none, none, none, none⟩
  -- UDP Keep frames carry the address.
  let metadata :=
    if s.network = .udp then
      { metadata with
        network := some s.network, targetHost := some s.targetHost, targetPort :=
          some s.targetPort }
    else metadata
  encodeMuxFrame inet (metadata, some data)

def encodeFrame (inet : InetAddress) (s : SendingSession) (data : Bytes) : Bytes :=
  if s.firstFrameSent then s.encodeKeepFrame inet data else s.encodeNewFrameWithData inet data

inductive Event where
  /-- `send`, and whether `writeFrame` returns. -/
  | send (data : Bytes) (written : Bool)
  | sendAsync (data : Bytes)
  /-- `close` or `deliverClose`. -/
  | close

/-- A frame, the datagram in it, and the session in front of the send. -/
structure Emission where
  session : SendingSession
  datagram : Bytes
  frame : Bytes

/-- The session behind an event, and the frame that is written. A send that fails takes
`firstFrameSent` back. -/
def step (inet : InetAddress) (s : SendingSession) : Event → SendingSession × Option Emission
  | .send data written =>
    if s.closed then (s, none)
    else if written then ({ s with firstFrameSent := true },
      some ⟨s, data, s.encodeFrame inet data⟩)
    else (s, none)
  | .sendAsync data =>
    if s.closed then (s, none)
    else ({ s with firstFrameSent := true }, some ⟨s, data, s.encodeFrame inet data⟩)
  | .close => ({ s with closed := true }, none)

def emissions (inet : InetAddress) (s : SendingSession) : List Event → List Emission
  | [] => []
  | event :: events => (s.step inet event).2.toList ++ emissions inet (s.step inet event).1 events

end SendingSession

def readTarget (inet : InetAddress) : Bytes → Option MuxFrameMetadata
  | hi :: lo :: status :: option :: target =>
    (MuxSessionStatus.fromByte status).bind fun status =>
      decodeTarget inet
        ⟨hi.toNat * 256 + lo.toNat, status, option.toNat, none, none, none, none⟩ target
  | _ => none

def readPayload : Bytes → Option Bytes
  | hi :: lo :: data =>
    let payloadLen := hi.toNat * 256 + lo.toNat
    if data.length < payloadLen then none else some (data.take payloadLen)
  | _ => none

def readFrame (inet : InetAddress) : Bytes → Option (MuxFrameMetadata × Bytes)
  | hi :: lo :: data =>
    let metaLen := hi.toNat * 256 + lo.toNat
    if data.length < metaLen then none
    else
      (readTarget inet (data.take metaLen)).bind fun metadata =>
        (readPayload (data.drop metaLen)).map (metadata, ·)
  | _ => none

/-- The frame says where the datagram goes. -/
def NamesTarget (inet : InetAddress) (e : SendingSession.Emission) : Prop :=
  ∃ metadata, readFrame inet e.frame = some (metadata, e.datagram) ∧
    metadata.network = some e.session.network ∧ metadata.targetHost = some e.session.targetHost ∧
    metadata.targetPort = some e.session.targetPort

-- ----
-- A text that is cut off

theorem length_nextChar_le (b : UInt8) (bytes : Bytes) :
    (nextChar b bytes).2.length ≤ bytes.length := by
  unfold nextChar
  repeat' split
  all_goals simp only [length_cons, length_nil]; omega

theorem length_decodeChars_le (n : Nat) (bytes : Bytes) :
    (decodeChars n bytes).length ≤ bytes.length := by
  induction n generalizing bytes with
  | zero => exact Nat.zero_le _
  | succ n ih =>
    cases bytes with
    | nil => exact Nat.le_refl _
    | cons b bytes =>
      have hnext := length_nextChar_le b bytes
      have htail := ih (nextChar b bytes).2
      rw [decodeChars, length_cons, length_cons]
      omega

theorem length_decodeChars_encode_le (text : Text) (n : Nat) (zs : Bytes) :
    (decodeChars n (text.flatMap String.utf8EncodeChar ++ zs)).length ≤
      text.length + zs.length := by
  induction text generalizing n with
  | nil =>
    rw [flatMap_nil, nil_append, length_nil, Nat.zero_add]
    exact length_decodeChars_le n zs
  | cons c text ih =>
    obtain ⟨b, bs, hc, hnext⟩ := nextChar_encode c (text.flatMap String.utf8EncodeChar ++ zs)
    cases n with
    | zero => exact Nat.zero_le _
    | succ n =>
      have hle := ih n
      rw [flatMap_cons, hc, append_assoc, cons_append, decodeChars, hnext]
      simp only [length_cons]
      omega

theorem length_utf8EncodeChar_le (c : Char) : (String.utf8EncodeChar c).length ≤ 4 := by
  rw [String.length_utf8EncodeChar]
  exact c.utf8Size_le_four

theorem length_encode_text_le (text : Text) :
    (text.flatMap String.utf8EncodeChar).length ≤ 4 * text.length := by
  induction text with
  | nil => exact Nat.le_refl _
  | cons c text ih =>
    have hc := length_utf8EncodeChar_le c
    rw [flatMap_cons, length_append, length_cons]
    omega

/-- A first part of an encoded text ends within a character. -/
theorem take_encode (text : Text) {n : Nat}
    (hn : n < (text.flatMap String.utf8EncodeChar).length) :
    ∃ front behind part, text = front ++ behind ∧ behind ≠ [] ∧ part.length < 4 ∧
      (text.flatMap String.utf8EncodeChar).take n = front.flatMap String.utf8EncodeChar ++
        part := by
  induction text generalizing n with
  | nil => simp at hn
  | cons c text ih =>
    have hc := length_utf8EncodeChar_le c
    rw [flatMap_cons, length_append] at hn
    rw [flatMap_cons]
    by_cases hlt : n < (String.utf8EncodeChar c).length
    · refine ⟨[], c :: text, (String.utf8EncodeChar c).take n, rfl, cons_ne_nil c text, ?_, ?_⟩
      · rw [length_take]
        omega
      · rw [take_append_of_le_length (Nat.le_of_lt hlt)]
        rfl
    · obtain ⟨front, behind, part, rfl, hbehind, hpart, htake⟩ :=
        ih (n := n - (String.utf8EncodeChar c).length) (by omega)
      refine ⟨c :: front, behind, part, rfl, hbehind, hpart, ?_⟩
      rw [take_append, take_of_length_le (by omega), htake, flatMap_cons,
        append_assoc]

/-- A text that is cut off more than fifteen bytes before its end is another one. -/
theorem decodeUtf8_take_ne (text : Text) {n : Nat}
    (hn : n + 16 ≤ (text.flatMap String.utf8EncodeChar).length) :
    decodeUtf8 ((text.flatMap String.utf8EncodeChar).take n) ≠ text := by
  intro hsame
  obtain ⟨front, behind, part, rfl, -, hpart, htake⟩ := take_encode text (n := n) (by omega)
  -- what is cut off has characters that are not made up for
  have hle : (decodeUtf8 (front.flatMap String.utf8EncodeChar ++ part)).length ≤
      front.length + part.length := length_decodeChars_encode_le front _ part
  have hbehind := length_encode_text_le behind
  have hlength := congrArg List.length hsame
  have hcut := congrArg List.length htake
  have htotal : (front ++ behind).length = front.length + behind.length := length_append
  rw [length_take, Nat.min_eq_left (by omega), length_append] at hcut
  rw [flatMap_append, length_append] at hn
  rw [htake, htotal] at hlength
  omega

-- ----
-- The target

variable {data rest : Bytes} {host : Text} {metadata : MuxFrameMetadata}

section

variable {inet : InetAddress}

theorem decodeDomain_append (zs : Bytes)
    (h : decodeDomain data = some (host, rest)) :
    decodeDomain (data ++ zs) = some (host, rest ++ zs) := by
  cases data with
  | nil => cases h
  | cons domainLen data =>
    rw [decodeDomain] at h
    split at h
    · cases h
    · rename_i hle
      obtain ⟨rfl, rfl⟩ := Prod.mk.inj (Option.some.inj h)
      rw [cons_append, decodeDomain, take_append_of_le_length (by omega),
        drop_append_of_le_length (by omega), if_neg]
      rw [length_append]
      omega

theorem decodeAddress_append (zs : Bytes)
    (h : decodeAddress inet data = some (host, rest)) :
    decodeAddress inet (data ++ zs) = some (host, rest ++ zs) := by
  cases data with
  | nil => cases h
  | cons addrType data =>
    rw [cons_append]
    rw [decodeAddress] at h ⊢
    split at h
    · split at h
      · cases h
      · rename_i htype hle
        obtain ⟨rfl, rfl⟩ := Prod.mk.inj (Option.some.inj h)
        rw [if_pos htype, take_append_of_le_length (by omega),
          drop_append_of_le_length (by omega), if_neg]
        rw [length_append]
        omega
    · rename_i h4
      rw [if_neg h4]
      split at h
      · rename_i hdomain
        rw [if_pos hdomain]
        exact decodeDomain_append zs h
      · rename_i hdomain
        rw [if_neg hdomain]
        split at h
        · split at h
          · cases h
          · rename_i htype hle
            obtain ⟨rfl, rfl⟩ := Prod.mk.inj (Option.some.inj h)
            rw [if_pos htype, take_append_of_le_length (by omega),
              drop_append_of_le_length (by omega), if_neg]
            rw [length_append]
            omega
        · cases h

theorem hostCarried_of_decodeAddress {behind : Bytes}
    (h : decodeAddress inet (encodeAddress inet host ++ behind) = some (host, rest)) :
    HostCarried inet host := by
  unfold encodeAddress at h
  unfold HostCarried
  cases h4 : parseIPv4 host with
  | some ipv4 =>
    simp only [h4] at h ⊢
    have hlen := length_parseIPv4 h4
    rw [cons_append, decodeAddress, if_pos rfl, if_neg (by simp [hlen]),
      take_left' hlen] at h
    exact (Prod.mk.inj (Option.some.inj h)).1
  | none =>
    cases h6 : parseIPv6 inet host with
    | some ipv6 =>
      simp only [h4, h6] at h ⊢
      have hlen := length_parseIPv6 h6
      rw [cons_append, decodeAddress, if_neg (by decide), if_neg (by decide), if_pos rfl,
        if_neg (by simp [hlen]), take_left' hlen] at h
      exact (Prod.mk.inj (Option.some.inj h)).1
    | none =>
      simp only [h4, h6] at h ⊢
      by_contra hlong
      have hlength : (UInt8.ofNat (Vless.utf8Bytes host).length).toNat =
          (Vless.utf8Bytes host).length % 256 := UInt8.toNat_ofNat'
      rw [cons_append, cons_append, decodeAddress, if_neg (by decide), if_pos rfl,
        decodeDomain, hlength] at h
      split at h
      · cases h
      · have htext := (Prod.mk.inj (Option.some.inj h)).1
        rw [take_append_of_le_length (Nat.mod_le _ _)] at htext
        exact decodeUtf8_take_ne host (n := (Vless.utf8Bytes host).length % 256)
          (by simp only [Vless.utf8Bytes] at hlong ⊢; omega) htext

theorem decodeTarget_append {target : MuxFrameMetadata} (zs : Bytes)
    (h : decodeTarget inet metadata data = some target) :
    ∃ globalID, decodeTarget inet metadata (data ++ zs) =
      some { target with globalID := globalID } := by
  rcases data with _ | ⟨net, _ | ⟨hi, _ | ⟨lo, data⟩⟩⟩
  · cases h
  · cases h
  · cases h
  · rw [decodeTarget] at h
    obtain ⟨network, hnetwork, h⟩ := Option.bind_eq_some_iff.mp h
    obtain ⟨⟨host, rest⟩, haddress, rfl⟩ := Option.map_eq_some_iff.mp h
    simp only [cons_append]
    rw [decodeTarget, hnetwork, Option.bind_some, decodeAddress_append zs haddress]
    exact ⟨_, rfl⟩

/-- A target is read back with more bytes behind it, but for the GlobalID. -/
theorem readTarget_append {target : MuxFrameMetadata} (zs : Bytes)
    (h : readTarget inet data = some target) :
    ∃ globalID, readTarget inet (data ++ zs) = some { target with globalID := globalID } := by
  rcases data with _ | ⟨hi, _ | ⟨lo, _ | ⟨status, _ | ⟨option, data⟩⟩⟩⟩
  · cases h
  · cases h
  · cases h
  · cases h
  · rw [readTarget] at h
    obtain ⟨known, hstatus, h⟩ := Option.bind_eq_some_iff.mp h
    obtain ⟨globalID, htarget⟩ := decodeTarget_append zs h
    simp only [cons_append]
    rw [readTarget, hstatus, Option.bind_some]
    exact ⟨globalID, htarget⟩

-- ----
-- NEW frames

/-- The metadata of `encodeNewFrameWithData`. -/
def newMetadata (s : SendingSession) : MuxFrameMetadata :=
  ⟨s.sessionID, .new, 1, some s.network, some s.targetHost, some s.targetPort, s.globalID⟩

def HasTarget (s : SendingSession) (metadata : MuxFrameMetadata) : Prop :=
  metadata.network = some s.network ∧ metadata.targetHost = some s.targetHost ∧
    metadata.targetPort = some s.targetPort

variable (s : SendingSession)

theorem encode_newMetadata : encode inet (newMetadata s) =
    UInt8.ofNat (s.sessionID / 256) :: UInt8.ofNat s.sessionID :: MuxSessionStatus.new.value :: 1 ::
      s.network.value :: UInt8.ofNat (s.targetPort / 256) :: UInt8.ofNat s.targetPort ::
      (encodeAddress inet s.targetHost ++ encodeGlobalID s.network s.globalID) := rfl

theorem readTarget_newMetadata (hhost : HostCarried inet s.targetHost)
    (hport : s.targetPort < 65536) :
    ∃ metadata, readTarget inet (encode inet (newMetadata s)) = some metadata ∧
      HasTarget s metadata := by
  rw [encode_newMetadata, readTarget, MuxSessionStatus.fromByte_value, Option.bind_some,
    decodeTarget, MuxNetwork.fromByte_value, Option.bind_some, decodeAddress_encodeAddress hhost,
    Option.map_some]
  exact ⟨_, rfl, rfl, rfl, congrArg some (bytes16_value hport)⟩

theorem carried_of_readTarget (htarget : HasTarget s metadata)
    (h : readTarget inet (encode inet (newMetadata s)) = some metadata) :
    HostCarried inet s.targetHost ∧ s.targetPort < 65536 := by
  rw [encode_newMetadata, readTarget, MuxSessionStatus.fromByte_value, Option.bind_some,
    decodeTarget, MuxNetwork.fromByte_value, Option.bind_some] at h
  obtain ⟨⟨host, rest⟩, haddress, rfl⟩ := Option.map_eq_some_iff.mp h
  obtain ⟨-, hhost, hport⟩ := htarget
  obtain rfl : host = s.targetHost := Option.some.inj hhost
  refine ⟨hostCarried_of_decodeAddress haddress, ?_⟩
  have hsame := Option.some.inj hport
  have hhi := UInt8.toNat_lt (UInt8.ofNat (s.targetPort / 256))
  have hlo := UInt8.toNat_lt (UInt8.ofNat s.targetPort)
  omega

theorem length_newMetadata (hhost : HostCarried inet s.targetHost) :
    (encode inet (newMetadata s)).length < 65536 := by
  have haddress := length_encodeAddress hhost
  have hid : (encodeGlobalID s.network s.globalID).length ≤ 8 := by
    unfold encodeGlobalID
    split
    · split
      · rename_i gid h
        rw [h.2]
      · exact Nat.zero_le _
    · exact Nat.zero_le _
  rw [encode_newMetadata]
  simp only [length_cons, length_append]
  omega

theorem readPayload_bytes16 {datagram : Bytes} :
    readPayload (bytes16 datagram.length ++ datagram) = some datagram ↔
      datagram.length < 65536 := by
  show readPayload (UInt8.ofNat (datagram.length / 256) :: UInt8.ofNat datagram.length ::
    datagram) = _ ↔ _
  rw [readPayload]
  constructor
  · intro h
    split at h
    · cases h
    · have hlength := congrArg List.length (Option.some.inj h)
      rw [length_take] at hlength
      have hhi := UInt8.toNat_lt (UInt8.ofNat (datagram.length / 256))
      have hlo := UInt8.toNat_lt (UInt8.ofNat datagram.length)
      omega
  · intro h
    rw [bytes16_value h, if_neg (Nat.lt_irrefl _), take_length]

theorem encodeMuxFrame_data (h : metadata.option = 1)
    (payload : Bytes) : encodeMuxFrame inet (metadata, some payload) =
      UInt8.ofNat ((encode inet metadata).length / 256) :: UInt8.ofNat
      (encode inet metadata).length ::
        (encode inet metadata ++ (bytes16 payload.length ++ payload)) := by
  have hdata : metadata.hasData = true := by
    rw [MuxFrameMetadata.hasData, h]
    decide
  simp [encodeMuxFrame, hdata, bytes16]

/-- A NEW frame names its target and has its datagram just when both fit. -/
theorem readFrame_new_iff (datagram : Bytes) :
    (∃ metadata, readFrame inet (s.encodeNewFrameWithData inet datagram) =
      some (metadata, datagram) ∧ HasTarget s metadata) ↔
    HostCarried inet s.targetHost ∧ s.targetPort < 65536 ∧ datagram.length < 65536 := by
  let encoded := encode inet (newMetadata s)
  have hframe : s.encodeNewFrameWithData inet datagram =
      UInt8.ofNat (encoded.length / 256) :: UInt8.ofNat encoded.length ::
        (encoded ++ (bytes16 datagram.length ++ datagram)) :=
    encodeMuxFrame_data rfl datagram
  rw [hframe, readFrame]
  constructor
  · rintro ⟨metadata, h, htarget⟩
    split at h
    · cases h
    · obtain ⟨metadata', hread, h⟩ := Option.bind_eq_some_iff.mp h
      obtain ⟨payload, hpayload, h⟩ := Option.map_eq_some_iff.mp h
      obtain ⟨rfl, rfl⟩ := Prod.mk.inj h
      -- a part of the metadata that is long enough to be read says what all of it says
      have hle : (UInt8.ofNat (encoded.length / 256)).toNat * 256 +
          (UInt8.ofNat encoded.length).toNat ≤ encoded.length := by
        rw [UInt8.toNat_ofNat', UInt8.toNat_ofNat']
        omega
      rw [take_append_of_le_length hle] at hread
      obtain ⟨globalID, hwhole⟩ := readTarget_append (encoded.drop _) hread
      rw [take_append_drop] at hwhole
      have htarget : HasTarget s { metadata' with globalID := globalID } := htarget
      obtain ⟨hhost, hport⟩ := carried_of_readTarget s htarget hwhole
      rw [bytes16_value (length_newMetadata s hhost), drop_left' rfl] at hpayload
      exact ⟨hhost, hport, readPayload_bytes16.1 hpayload⟩
  · rintro ⟨hhost, hport, hdatagram⟩
    obtain ⟨metadata, hread, htarget⟩ := readTarget_newMetadata s hhost hport
    refine ⟨metadata, ?_, htarget⟩
    have hlength : ¬ (encoded ++ (bytes16 datagram.length ++ datagram)).length <
        encoded.length := by
      rw [length_append]
      omega
    rw [bytes16_value (length_newMetadata s hhost), if_neg hlength, take_left' rfl, drop_left' rfl,
      hread, Option.bind_some, readPayload_bytes16.2 hdatagram]
    rfl

theorem readFrame_keep (datagram : Bytes) :
    readFrame inet (s.encodeKeepFrame inet datagram) = none := by
  -- the address does not get into the metadata
  obtain ⟨metadata, hoption, hencode, hframe⟩ : ∃ metadata : MuxFrameMetadata, metadata.option = 1 ∧
      encode inet metadata = [UInt8.ofNat (s.sessionID / 256), UInt8.ofNat s.sessionID,
        MuxSessionStatus.keep.value, 1] ∧
      s.encodeKeepFrame inet datagram = encodeMuxFrame inet (metadata, some datagram) := by
    rw [SendingSession.encodeKeepFrame]
    by_cases hudp : s.network = .udp
    · rw [if_pos hudp]
      exact ⟨_, rfl, rfl, rfl⟩
    · rw [if_neg hudp]
      exact ⟨_, rfl, rfl, rfl⟩
  have hread : readTarget inet (encode inet metadata) = none := by
    rw [hencode, readTarget, MuxSessionStatus.fromByte_value]
    rfl
  have hlength : (encode inet metadata).length < 65536 := by
    simp [hencode]
  rw [hframe, encodeMuxFrame_data hoption, readFrame, bytes16_value hlength, if_neg (by simp),
    take_left' rfl, hread]
  rfl

end

-- ----
-- Runs

theorem mem_emissions {inet : InetAddress} {s : SendingSession} {events : List SendingSession.Event}
    {e : SendingSession.Emission} (h : e ∈ s.emissions inet events) :
    e.frame = e.session.encodeFrame inet e.datagram := by
  induction events generalizing s with
  | nil => cases h
  | cons event events ih =>
    rw [SendingSession.emissions, mem_append] at h
    rcases h with h | h
    · rw [Option.mem_toList] at h
      cases event with
      | send data written =>
        rw [SendingSession.step] at h
        split at h
        · cases h
        · split at h
          · cases h
            rfl
          · cases h
      | sendAsync data =>
        rw [SendingSession.step] at h
        split at h
        · cases h
        · cases h
          rfl
      | close => cases h
    · exact ih h

/-- A session for datagrams to 1.1.1.1. -/
def dnsSession : MuxSession :=
  ⟨0, .udp, "1.1.1.1".toList, 53, some [1, 2, 3, 4, 5, 6, 7, 8], false, .returned⟩

/-- In a run of a session each frame names its target and has its datagram, if and only if each
is the first one, of an XUDP session, and the host, the port and the datagram fit. -/
theorem frames_name_target_iff (inet : InetAddress) (session : MuxSession)
    (events : List SendingSession.Event) :
    (∀ e ∈ (SendingSession.new session).emissions inet events, NamesTarget inet e) ↔
    ∀ e ∈ (SendingSession.new session).emissions inet events,
      e.session.firstFrameSent = false ∧ HostCarried inet e.session.targetHost ∧
        e.session.targetPort < 65536 ∧ e.datagram.length < 65536 := by
  refine forall₂_congr fun e he => ?_
  rw [NamesTarget, mem_emissions he, SendingSession.encodeFrame]
  cases hsent : e.session.firstFrameSent with
  | true =>
    rw [if_pos rfl, readFrame_keep]
    constructor
    · rintro ⟨metadata, h, -⟩
      cases h
    · rintro ⟨h, -⟩
      cases h
  | false =>
    rw [if_neg Bool.false_ne_true, ← readFrame_new_iff]
    exact ⟨fun h => ⟨rfl, h⟩, fun h => h.2⟩

/-- The second datagram of a session goes out without its target. -/
theorem second_frame_without_target : ¬ ∀ (inet : InetAddress) (session : MuxSession),
    session.network = .udp → ∀ events : List SendingSession.Event,
      ∀ e ∈ (SendingSession.new session).emissions inet events, NamesTarget inet e := by
  intro h
  have hnames := h noInet dnsSession rfl [.send [7] true, .send [8] true]
    ⟨{ SendingSession.new dnsSession with firstFrameSent := true }, [8],
      SendingSession.encodeKeepFrame noInet
        { SendingSession.new dnsSession with firstFrameSent := true } [8]⟩
    (mem_cons_of_mem _ mem_cons_self)
  obtain ⟨metadata, hread, -⟩ := hnames
  rw [readFrame_keep] at hread
  cases hread

end Anywhere.Mux
