import Anywhere.Shadowsocks.Isolation
import Anywhere.Shadowsocks.UdpRequest2022

/-!
# Anywhere — the packets a Shadowsocks-2022 session receives

A server seals its ids and a body: type, time, the session it answers, padding, its source and
the payload. The time is compared with `Math.abs`, which has no value for the least `Long`.

* `packets2022_iff` — the two directions of a session, and where they go wrong.
* `opposite_time_learned` — a packet whose time is 2^63 seconds away changes a flow.
-/

namespace Anywhere.Shadowsocks

open Lib List

-- ----
-- Packets of a server

/-- What a server seals behind the ids: type, time, the session it answers, padding, and the
rest. -/
def serverBody (timestamp clientSessionID : Int) (padding rest : Bytes) : Bytes :=
  [0x01] ++ (toBigEndianBytes timestamp ++ (toBigEndianBytes clientSessionID ++
    (sizeBytes padding.length ++ (padding ++ rest))))

/-- A well-formed packet of a server, to some session and at some time. The nonce is for the ChaCha
variant. -/
structure ServerPacket where
  nonce : {nonce : Bytes // nonce.length = 24}
  sessionID : {bytes : Bytes // bytes.length = 8}
  packetID : {bytes : Bytes // bytes.length = 8}
  timestamp : Long
  clientSessionID : Long
  padding : {padding : Bytes // padding.length < 65536}
  source : Destination
  port : {port : Nat // port < 65536}
  payload : Bytes

section Format

variable (c : UdpCiphers)

/-- `Mode`, with the ciphers applied to its keys. -/
def Mode2022.toMode : Mode2022 → Mode
  | .aes account => .ss2022AES
    { ecbDecrypt := c.aesEcbDecrypt account.psk
      deriveSessionKey := fun serverSession =>
        c.deriveSessionKey account.psk (toBigEndianBytes serverSession) account.cipher.keySize
      openBody := c.aeadOpen account.cipher }
  | .chaCha psk => .ss2022ChaCha (c.xOpen psk)

/-- The ids of the server and a body, as they are sent: the header is under the last key. -/
def serverSeal (mode : Mode2022) (nonce sessionID packetID body : Bytes) : Bytes :=
  match mode with
  | .aes account =>
    c.aesEcbEncrypt account.psk (sessionID ++ packetID) ++
      c.aeadSeal account.cipher (c.deriveSessionKey account.psk sessionID account.cipher.keySize)
        (((sessionID ++ packetID).drop 4).take 12) body
  | .chaCha psk => nonce ++ c.xSeal psk nonce (sessionID ++ (packetID ++ body))

namespace ServerPacket

def body (p : ServerPacket) : Bytes :=
  serverBody p.timestamp p.clientSessionID p.padding (p.source.header p.port ++ p.payload)

def bytes (mode : Mode2022) (p : ServerPacket) : Bytes :=
  serverSeal c mode p.nonce p.sessionID p.packetID p.body

/-- What the session is meant to make of it. -/
def udpPacket (p : ServerPacket) : UdpPacket := ⟨p.source.text, p.port, p.payload⟩

end ServerPacket

end Format

-- ----
-- Bodies

theorem readLongBE_lt (bytes : Bytes) (offset : Nat) :
    -2 ^ 63 ≤ readLongBE bytes offset ∧ readLongBE bytes offset < 2 ^ 63 := by
  rw [readLongBE_eq]
  have hlo := Int.le_bmod (x := (beNat ((bytes.drop offset).take 8) : Int)) (m :=
    2 ^ 64) (by decide)
  have hhi := Int.bmod_lt (x := (beNat ((bytes.drop offset).take 8) : Int)) (m :=
    2 ^ 64) (by decide)
  unfold toLong
  omega

section Body

variable (timestamp clientSessionID : Long) (padding rest : Bytes)

theorem length_serverBody : (serverBody timestamp clientSessionID padding rest).length =
    19 + padding.length + rest.length := by
  simp [serverBody, sizeBytes]
  omega

theorem serverBody_timestamp :
    readLongBE (serverBody timestamp clientSessionID padding rest) 1 = timestamp :=
  (readLongBE_append rfl _ _).trans (toLong_val timestamp)

theorem serverBody_clientSessionID :
    readLongBE (serverBody timestamp clientSessionID padding rest) 9 = clientSessionID := by
  rw [serverBody, ← append_assoc, readLongBE_append (by simp), toLong_val]

theorem drop_serverBody : (serverBody timestamp clientSessionID padding rest).drop 17 =
    sizeBytes padding.length ++ (padding ++ rest) := by
  rw [serverBody, ← append_assoc, ← append_assoc]
  exact drop_left' (by simp)

theorem serverBody_rest :
    (serverBody timestamp clientSessionID padding rest).drop (19 + padding.length) = rest := by
  rw [show 19 + padding.length = 17 + (2 + padding.length) by omega, ← drop_drop,
    drop_serverBody,
    ← append_assoc]
  exact drop_left' (by simp [sizeBytes]; omega)

theorem serverBody_paddingLen (h : padding.length < 65536) :
    ((serverBody timestamp clientSessionID padding rest).getD 17 0).toNat * 256 +
      ((serverBody timestamp clientSessionID padding rest).getD 18 0).toNat = padding.length := by
  have hget : ∀ i, (serverBody timestamp clientSessionID padding rest).getD (17 + i) 0 =
      (sizeBytes padding.length ++ (padding ++ rest)).getD i 0 := by
    intro i
    rw [← drop_serverBody timestamp clientSessionID padding rest, List.getD_eq_getElem?_getD,
      List.getD_eq_getElem?_getD, List.getElem?_drop]
  rw [hget 0, hget 1]
  exact bytes16_value h

end Body

theorem body_parts (body : Bytes) (n : Nat) :
    body = body.take 1 ++ ((body.drop 1).take 8 ++ ((body.drop 9).take 8 ++
      ((body.drop 17).take 2 ++ ((body.drop 19).take n ++ body.drop (19 + n))))) := by
  have hsplit : ∀ k m, (body.drop k).take m ++ body.drop (k + m) = body.drop k := by
    intro k m
    rw [← drop_drop, take_append_drop]
  rw [hsplit 19 n, hsplit 17 2, hsplit 9 8, hsplit 1 8]
  exact (take_append_drop 1 body).symm

namespace ShadowsocksUdpSession

/-- **`parseServerUDPBody`** takes the bodies to this session whose time it does not find too
far. -/
theorem parseServerUDPBody_iff (sessionID : Long) (now : Int) (body rest : Bytes) :
    parseServerUDPBody sessionID now body = some rest ↔
      ∃ (timestamp : Long) (padding : {padding : Bytes // padding.length < 65536}),
        body = serverBody timestamp sessionID padding rest ∧
        mathAbs (toLong (now - timestamp)) ≤ 30 := by
  constructor
  · intro h
    unfold parseServerUDPBody at h
    split at h
    · cases h
    rename_i hlong
    split at h
    · cases h
    rename_i htype
    split at h
    · cases h
    rename_i htime
    split at h
    · cases h
    rename_i hsession
    dsimp only at h
    obtain ⟨n, hn⟩ : ∃ n, (body.getD 17 0).toNat * 256 + (body.getD 18 0).toNat = n := ⟨_, rfl⟩
    rw [hn] at h
    split at h
    · cases h
    rename_i hpadding
    obtain rfl := Option.some.inj h
    have hpaddingLen : ((body.drop 19).take n).length = n := by
      rw [length_take, length_drop]
      omega
    have hhi := (body.getD 17 0).toNat_lt
    have hlo := (body.getD 18 0).toNat_lt
    have hone : body.take 1 = [0x01] := by
      rcases body with _ | ⟨b, body⟩
      · exact absurd (show ([] : Bytes).length < 1 + 8 + 8 + 2 by decide) hlong
      · rw [not_not] at htype
        rw [Option.some.inj htype]
        rfl
    have hsize : (body.drop 17).take 2 = sizeBytes n := by
      have hget : ∀ i, body.getD (17 + i) 0 = (body.drop 17).getD i 0 := by
        intro i
        rw [List.getD_eq_getElem?_getD, List.getD_eq_getElem?_getD, List.getElem?_drop]
      have hlen := @length_drop _ 17 body
      rw [← hn, hget 0, hget 1, sizeBytes_toNat]
      rcases hdrop : body.drop 17 with _ | ⟨hi, _ | ⟨lo, tail⟩⟩
      · rw [hdrop, length_nil] at hlen
        omega
      · rw [hdrop, length_singleton] at hlen
        omega
      · rfl
    have hbody : body = serverBody (readLongBE body 1) sessionID ((body.drop 19).take n)
        (body.drop (19 + n)) := by
      conv => lhs; rw [body_parts body n]
      rw [serverBody, hpaddingLen, hone, hsize, toBigEndianBytes_readLongBE (by omega),
        ← not_not.1 hsession,
        toBigEndianBytes_readLongBE (by omega)]
    exact ⟨⟨readLongBE body 1, readLongBE_lt body 1⟩, ⟨(body.drop 19).take n, by omega⟩, hbody,
      by simpa using htime⟩
  · rintro ⟨timestamp, padding, rfl, htime⟩
    have hlen := length_serverBody timestamp sessionID padding rest
    rw [parseServerUDPBody, if_neg (by omega), if_neg (by simp [serverBody]), serverBody_timestamp,
      if_neg (by omega),
      serverBody_clientSessionID, if_neg (not_not.2 rfl)]
    dsimp only
    rw [serverBody_paddingLen _ _ _ _ padding.2, if_neg (by omega), serverBody_rest]

section Decrypt

variable {η : Type} (c : UdpCiphers)

/-- What opens under the keys of the mode and is a body to the session. -/
theorem decryptPacket_aes (account : AesAccount) (sessionID : Long) (now : Int) (data : Bytes) :
    ((initial sessionID : ShadowsocksUdpSession η).decryptPacket
    ((Mode2022.aes account).toMode c) now data).2 =
      if data.length < 16 + 16 then none
      else
        (c.aeadOpen account.cipher
          (c.deriveSessionKey account.psk
            (toBigEndianBytes (readLongBE
            (c.aesEcbDecrypt account.psk (data.take 16)) 0)) account.cipher.keySize)
          (((c.aesEcbDecrypt account.psk (data.take 16)).drop 4).take 12) (data.drop 16)).bind
            (parseServerUDPBody sessionID now) := by
  show (decryptSS2022AES (initial sessionID) _ now data).2 = _
  unfold decryptSS2022AES
  split <;> rfl

/-- Nothing else is taken than what a server seals: the ids, and a body to the session. -/
theorem decryptPacket_iff (mode : Mode2022) (sessionID : Long) (now : Int) (data rest : Bytes) :
    ((initial sessionID : ShadowsocksUdpSession η).decryptPacket (mode.toMode c) now data).2 =
    some rest ↔
      ∃ (nonce : {nonce : Bytes // nonce.length = 24})
      (server packetID : {bytes : Bytes // bytes.length = 8})
        (body : Bytes), data = serverSeal c mode nonce server packetID body ∧
          parseServerUDPBody sessionID now body = some rest := by
  rcases mode with account | psk
  · have htag := ShadowsocksCipher.tagSize_eq account.cipher_ne
    rw [decryptPacket_aes]
    constructor
    · intro h
      split at h
      · cases h
      rename_i hlong
      obtain ⟨body, hopen, hparse⟩ := Option.bind_eq_some_iff.1 h
      obtain ⟨header, hheader⟩ : ∃ header, c.aesEcbDecrypt account.psk (data.take 16) = header :=
        ⟨_, rfl⟩
      have hlen : header.length = 16 := hheader ▸ c.length_aesEcbDecrypt _ _
      rw [hheader, c.aeadOpen_eq_some_iff account.cipher_ne, toBigEndianBytes_readLongBE (by omega),
        drop_zero] at hopen
      refine ⟨⟨List.replicate 24 0, length_replicate⟩,
        ⟨header.take 8, by rw [length_take]; omega⟩,
        ⟨header.drop 8, by rw [length_drop]; omega⟩, body, ?_, hparse⟩
      show data = c.aesEcbEncrypt account.psk (header.take 8 ++ header.drop 8) ++
        c.aeadSeal account.cipher
        (c.deriveSessionKey account.psk (header.take 8) account.cipher.keySize)
          (((header.take 8 ++ header.drop 8).drop 4).take 12) body
      rw [take_append_drop, ← hopen, ← hheader,
        c.aesEcbEncrypt_decrypt _ _ (by rw [length_take]; omega),
        take_append_drop]
    · rintro ⟨nonce, server, packetID, body, hdata, hparse⟩
      have hheader : (server.1 ++ packetID.1).length = 16 := by
        rw [length_append, server.2, packetID.2]
      have hblock := c.length_aesEcbEncrypt account.psk (server.1 ++ packetID.1)
      have hsession : toBigEndianBytes (readLongBE (server.1 ++ packetID.1) 0) = server.1 := by
        rw [toBigEndianBytes_readLongBE (by omega), drop_zero, take_left' server.2]
      have hlong : ¬ data.length < 16 + 16 := by
        rw [hdata, serverSeal, length_append, hblock, Ciphers.length_aeadSeal, htag]
        omega
      rw [if_neg hlong, hdata, serverSeal, take_left' hblock, drop_left' hblock,
        c.aesEcbDecrypt_encrypt _ _ hheader, hsession, Ciphers.aeadOpen_aeadSeal, Option.bind_some,
        hparse]
  · show decryptSS2022ChaCha (initial sessionID : ShadowsocksUdpSession η) (c.xOpen psk) now data =
      _ ↔ _
    unfold decryptSS2022ChaCha
    constructor
    · intro h
      split at h
      · cases h
      rename_i hlong
      obtain ⟨text, hopen, h⟩ := Option.bind_eq_some_iff.1 h
      split at h
      · cases h
      rename_i htext
      rw [UdpCiphers.xOpen, c.aeadOpen_eq_some_iff (by decide)] at hopen
      refine ⟨⟨data.take 24, by rw [length_take]; omega⟩,
        ⟨text.take 8, by rw [length_take]; omega⟩,
        ⟨(text.drop 8).take 8, by rw [length_take, length_drop]; omega⟩, text.drop 16, ?_,
        h⟩
      show data = data.take 24 ++ c.xSeal psk (data.take 24)
        (text.take 8 ++ ((text.drop 8).take 8 ++ text.drop 16))
      have htext' : text.take 8 ++ ((text.drop 8).take 8 ++ text.drop 16) = text := by
        have hdrop : text.drop 16 = (text.drop 8).drop 8 := by rw [drop_drop]
        rw [hdrop, take_append_drop, take_append_drop]
      rw [htext', UdpCiphers.xSeal, ← hopen, take_append_drop]
    · rintro ⟨nonce, server, packetID, body, hdata, hparse⟩
      have hids : (server.1 ++ packetID.1).length = 16 := by
        rw [length_append, server.2, packetID.2]
      have hlong : ¬ data.length < 24 + 16 := by
        rw [hdata, serverSeal, length_append, nonce.2, UdpCiphers.xSeal,
          Ciphers.length_aeadSeal,
          ShadowsocksCipher.tagSize_eq (by decide)]
        omega
      rw [if_neg hlong, hdata, serverSeal, take_left' nonce.2, drop_left' nonce.2,
        UdpCiphers.xOpen_xSeal,
        Option.bind_some, ← append_assoc, drop_left' hids,
        if_neg (by rw [length_append, hids]; omega)]
      exact hparse

/-- **What the session takes**: the packets to it whose time it does not find too far. -/
theorem accepted_iff (mode : Mode2022) (sessionID : Long) (now : Int) (data : Bytes)
    (packet : UdpPacket) :
    ((initial sessionID : ShadowsocksUdpSession η).decryptPacket
    (mode.toMode c) now data).2.bind decodeUDPPacket =
        some packet ↔
      ∃ p : ServerPacket, data = p.bytes c mode ∧ p.clientSessionID = sessionID ∧
        mathAbs (toLong (now - p.timestamp)) ≤ 30 ∧ packet = p.udpPacket := by
  rw [Option.bind_eq_some_iff]
  constructor
  · rintro ⟨rest, hdecrypt, hdecode⟩
    obtain ⟨nonce, server, packetID, body, rfl, hparse⟩ :=
      (decryptPacket_iff c mode sessionID now data rest).1 hdecrypt
    obtain ⟨timestamp, padding, rfl, htime⟩ :=
      (parseServerUDPBody_iff sessionID now body rest).1 hparse
    obtain ⟨source, port, payload, hport, rfl, rfl⟩ := decodeUDPPacket_iff.1 hdecode
    exact ⟨⟨nonce, server, packetID, timestamp, sessionID, padding, source, ⟨port, hport⟩, payload⟩,
      rfl, rfl, htime, rfl⟩
  · rintro ⟨p, rfl, hsession, htime, rfl⟩
    refine ⟨p.source.header p.port ++ p.payload, (decryptPacket_iff c mode sessionID now _ _).2
      ⟨p.nonce, p.sessionID, p.packetID, p.body, rfl, (parseServerUDPBody_iff sessionID now _ _).2
        ⟨p.timestamp, p.padding, by rw [ServerPacket.body, hsession], htime⟩⟩, ?_⟩
    exact decodeUDPPacket_iff.2 ⟨p.source, p.port, p.payload, p.port.2, rfl, rfl⟩

end Decrypt

end ShadowsocksUdpSession

-- ----
-- Times

/-- `System.currentTimeMillis() / 1000`. -/
abbrev Seconds := {now : Int // now.natAbs ≤ 2 ^ 63 / 1000}

theorem toLong_def (n : Int) :
    toLong n = if n % 18446744073709551616 < 9223372036854775808 then n % 18446744073709551616
      else n % 18446744073709551616 - 18446744073709551616 := by
  rw [toLong, Int.bmod_def]
  rfl

/-- `Math.abs` keeps the difference of 2^63 seconds, which is below every bound then. -/
theorem mathAbs_le_iff (now : Seconds) (timestamp : Long) :
    mathAbs (toLong (now - timestamp)) ≤ 30 ↔
      (now - timestamp : Int).natAbs ≤ 30 ∨ (now - timestamp : Int).natAbs = 2 ^ 63 := by
  obtain ⟨now, hnow⟩ := now
  obtain ⟨timestamp, hlo, hhi⟩ := timestamp
  dsimp only
  obtain ⟨d, hd⟩ : ∃ d, now - timestamp = d := ⟨_, rfl⟩
  rw [hd, mathAbs, toLong_def, toLong_def]
  split_ifs <;> omega

namespace ServerPacket

structure Bound (sessionID : Long) (now : Seconds) (p : ServerPacket) : Prop where
  session : p.clientSessionID = sessionID
  time : (now - p.timestamp : Int).natAbs ≤ 30

/-- A packet to the session whose time is 2^63 seconds away. -/
structure Opposite (sessionID : Long) (now : Seconds) (p : ServerPacket) : Prop where
  session : p.clientSessionID = sessionID
  time : (now - p.timestamp : Int).natAbs = 2 ^ 63

end ServerPacket

namespace ShadowsocksUdpSession

variable {η : Type}

-- ----
-- Registrations and indexes

structure SameFlows (s s' : ShadowsocksUdpSession η) : Prop where
  registrations : s'.registrations = s.registrations
  tokensByResponse : s'.tokensByResponse = s.tokensByResponse
  tokensByPort : s'.tokensByPort = s.tokensByPort

/-- Some flow counts the source among its hosts, or there is no flow on its port. -/
def Expected (s : ShadowsocksUdpSession η) (packet : UdpPacket) : Prop :=
  (∃ t, s.Answers (packet.host, packet.port) t) ∨ ∀ t, ¬ s.OnPort packet.port t

theorem target_answers {s : ShadowsocksUdpSession η} (h : s.Indexed) {host : Text} {port : Nat}
    {reg : Registration η} (htarget : s.target host port = some (reg, .exact)) :
    ∃ t, s.Answers (host, port) t := by
  unfold target at htarget
  split at htarget
  · rename_i reg' hfound
    obtain ⟨tokens, htokens, hfirst⟩ := Option.bind_eq_some_iff.1 hfound
    obtain ⟨t, ht, -⟩ := firstRegistration_mem hfirst
    have hlisted : t ∈ s.tokensByResponse.listed (host, port) := by rwa [Buckets.listed, htokens]
    exact ⟨t, (h.byResponse.mem_iff _ t).1 hlisted⟩
  · obtain ⟨reg', -, heq⟩ := Option.map_eq_some_iff.1 htarget
    cases heq

/-- Where there is a flow on the port, some flow is found. -/
theorem target_of_onPort {s : ShadowsocksUdpSession η} (h : s.Indexed) (host : Text) {port t : Nat}
    (ht : s.OnPort port t) : ∃ found, s.target host port = some found := by
  have hmem := (h.byPort.mem_iff port t).2 ht
  rcases hlist : s.tokensByPort port with _ | tokens
  · rw [Buckets.listed, hlist] at hmem
    cases hmem
  rw [Buckets.listed, hlist, Option.getD_some] at hmem
  unfold target
  split
  · exact ⟨_, rfl⟩
  · obtain ⟨reg, hreg, -⟩ := ht
    have hsome : (s.firstRegistration tokens).isSome := by
      rw [firstRegistration, List.findSome?_isSome_iff]
      exact ⟨t, hmem, by rw [hreg]; rfl⟩
    obtain ⟨first, hfirst⟩ := Option.isSome_iff_exists.1 hsome
    rw [hlist, Option.bind_some, hfirst]
    rcases s.firstRegistrationWhere tokens (fun reg => !reg.hasLearnedSource) with _ | reg'
    · exact ⟨_, rfl⟩
    · exact ⟨_, rfl⟩

/-- The fallback changes the flow that it finds. -/
theorem learn_ne {s : ShadowsocksUdpSession η} {reg : Registration η} {host : Text} {port : Nat}
    (hreg : s.registrations reg.token = some reg) (hhost : host ∉ reg.responseHosts) :
    (s.learn reg host port).registrations ≠ s.registrations := by
  intro heq
  have hsame := congrFun heq reg.token
  dsimp only [learn] at hsame
  rw [Function.update_self, hreg] at hsame
  have hhosts := congrArg Registration.responseHosts (Option.some.inj hsame)
  have hlen := congrArg List.length hhosts
  rw [insertHost, if_neg hhost, length_append, length_singleton] at hlen
  omega

/-- **`dispatch`** leaves the flows as they are just when the source of the packet is expected. -/
theorem dispatch_same_iff {s : ShadowsocksUdpSession η} (h : s.Indexed) (packet : UdpPacket) :
    s.SameFlows (s.dispatch packet).1 ↔ s.Expected packet := by
  unfold dispatch
  rcases htarget : s.target packet.host packet.port with _ | ⟨reg, _ | _⟩
  · refine ⟨fun _ => .inr fun t ht => ?_, fun _ => ⟨rfl, rfl, rfl⟩⟩
    obtain ⟨found, hfound⟩ := target_of_onPort h packet.host ht
    exact nomatch htarget.symm.trans hfound
  · exact ⟨fun _ => .inl (target_answers h htarget), fun _ => ⟨rfl, rfl, rfl⟩⟩
  · obtain ⟨hreg, hport⟩ := target_registered h htarget
    have hunexpected : ¬ s.Expected packet := by
      rintro (⟨t, ht⟩ | hnone)
      · obtain ⟨reg', hexact, -⟩ := target_exact h ht
        exact nomatch htarget.symm.trans hexact
      · exact hnone _ ⟨reg, hreg, hport⟩
    have hhost : packet.host ∉ reg.responseHosts := fun hmem =>
      hunexpected (.inl ⟨_, reg, hreg, hport, hmem⟩)
    exact ⟨fun hsame => absurd hsame.registrations (learn_ne hreg hhost),
      fun hexpected => absurd hexpected hunexpected⟩

-- ----
-- What arrives

variable (c : UdpCiphers) (mode : Mode2022) (sessionID : Long)

/-- In the session after a run, a bound packet of a server becomes its address and payload, and all
other datagrams leave the flows as they are. -/
structure Taken (es : List (Event η)) (now : Seconds) (data : Bytes) : Prop where
  bound : ∀ p : ServerPacket, p.Bound sessionID now → data = p.bytes c mode →
    ((after (mode.toMode c) sessionID es).decryptPacket
    (mode.toMode c) now data).2.bind decodeUDPPacket =
      some p.udpPacket
  others : (∀ p : ServerPacket, p.Bound sessionID now → data ≠ p.bytes c mode) →
    (after (mode.toMode c) sessionID es).SameFlows
      ((after (mode.toMode c) sessionID es).handleReceivedDatagram (mode.toMode c) now data).1

variable {c mode sessionID}

/-- After a run the session takes what it takes at its start. -/
theorem accepted_after_iff (es : List (Event η)) (now : Seconds) (data : Bytes)
    (packet : UdpPacket) :
    ((after (mode.toMode c) sessionID es).decryptPacket
    (mode.toMode c) now data).2.bind decodeUDPPacket =
        some packet ↔
      ∃ p : ServerPacket, data = p.bytes c mode ∧
      (p.Bound sessionID now ∨ p.Opposite sessionID now) ∧
        packet = p.udpPacket := by
  rw [decryptPacket_eq (after_cached (mode.toMode c) sessionID es), accepted_iff]
  refine exists_congr fun p => and_congr_right fun _ => ?_
  rw [mathAbs_le_iff]
  constructor
  · rintro ⟨hsession, htime | htime, hpacket⟩
    · exact ⟨.inl ⟨hsession, htime⟩, hpacket⟩
    · exact ⟨.inr ⟨hsession, htime⟩, hpacket⟩
  · rintro ⟨hbound | hopposite, hpacket⟩
    · exact ⟨hbound.session, .inl hbound.time, hpacket⟩
    · exact ⟨hopposite.session, .inr hopposite.time, hpacket⟩

theorem serverSeal_body {nonce nonce' : {nonce : Bytes // nonce.length = 24}}
    {server server' packetID packetID' : {bytes : Bytes // bytes.length = 8}} {body body' : Bytes}
    (h : serverSeal c mode nonce server packetID body =
        serverSeal c mode nonce' server' packetID' body') :
    body = body' := by
  have hlen : ∀ a b : {bytes : Bytes // bytes.length = 8}, (a.1 ++ b.1).length = 16 := fun a b => by
    rw [length_append, a.2, b.2]
  rcases mode with account | psk
  · obtain ⟨hheader, hsealed⟩ := append_inj h (by simp only [c.length_aesEcbEncrypt])
    have hids := congrArg (c.aesEcbDecrypt account.psk) hheader
    rw [c.aesEcbDecrypt_encrypt _ _ (hlen server packetID),
      c.aesEcbDecrypt_encrypt _ _ (hlen server' packetID')]
      at hids
    obtain ⟨hserver, -⟩ := append_inj hids (server.2.trans server'.2.symm)
    have hopen := congrArg (c.aeadOpen account.cipher
      (c.deriveSessionKey account.psk server account.cipher.keySize)
      (((server.1 ++ packetID.1).drop 4).take 12)) hsealed
    rw [Ciphers.aeadOpen_aeadSeal, hids, hserver, Ciphers.aeadOpen_aeadSeal] at hopen
    exact Option.some.inj hopen
  · obtain ⟨hnonce, hsealed⟩ := append_inj h (nonce.2.trans nonce'.2.symm)
    have hopen := congrArg (c.xOpen psk nonce) hsealed
    rw [UdpCiphers.xOpen_xSeal, hnonce, UdpCiphers.xOpen_xSeal, ← append_assoc,
      ← append_assoc] at hopen
    exact (append_inj (Option.some.inj hopen)
      ((hlen server packetID).trans (hlen server' packetID').symm)).2

theorem timestamp_eq {p p' : ServerPacket} (h : p.bytes c mode = p'.bytes c mode) :
    p.timestamp = p'.timestamp := by
  have htime := congrArg (fun body => readLongBE body 1) (serverSeal_body h)
  dsimp only [ServerPacket.body] at htime
  rw [serverBody_timestamp, serverBody_timestamp] at htime
  exact Subtype.ext htime

theorem handleReceivedDatagram_same_iff {s : ShadowsocksUdpSession η} (h : s.Indexed) {mode : Mode}
    {now : Int}
    {data : Bytes} {packet : UdpPacket}
    (hpacket : (s.decryptPacket mode now data).2.bind decodeUDPPacket = some packet) :
    s.SameFlows (s.handleReceivedDatagram mode now data).1 ↔ s.Expected packet := by
  obtain ⟨sid, key, hs⟩ := s.decryptPacket_frame mode now data
  have hdispatch := dispatch_same_iff (h.decryptPacket mode now data).1 packet
  unfold handleReceivedDatagram
  rw [hpacket]
  rw [hs] at hdispatch ⊢
  refine Iff.trans ⟨fun h => ⟨h.1, h.2, h.3⟩, fun h => ⟨h.1, h.2, h.3⟩⟩ hdispatch

/-- **What arrives** is treated as it should be, but for packets whose time is 2^63 seconds away and
whose source no flow on their port expects. -/
theorem taken_iff (es : List (Event η)) (now : Seconds) (data : Bytes) :
    Taken c mode sessionID es now data ↔
      ∀ p : ServerPacket, p.Opposite sessionID now → data = p.bytes c mode →
        (after (mode.toMode c) sessionID es).Expected p.udpPacket := by
  have hindexed := after_indexed (mode.toMode c) sessionID.1 es
  constructor
  · intro h p hopposite hdata
    have hpacket := (accepted_after_iff es now data p.udpPacket).2 ⟨p, hdata, .inr hopposite, rfl⟩
    refine (handleReceivedDatagram_same_iff hindexed hpacket).1
      (h.others fun p' hbound hdata' => ?_)
    have htime := hbound.time
    rw [← timestamp_eq (hdata.symm.trans hdata'), hopposite.time] at htime
    omega
  · intro h
    refine ⟨fun p hbound hdata =>
      (accepted_after_iff es now data p.udpPacket).2 ⟨p, hdata, .inl hbound, rfl⟩,
      fun hothers => ?_⟩
    rcases hpacket : ((after (mode.toMode c) sessionID es).decryptPacket
      (mode.toMode c) now data).2.bind
      decodeUDPPacket with _ | packet
    · obtain ⟨sid, key, hs⟩ :=
        (after (mode.toMode c) sessionID.1 es).decryptPacket_frame (mode.toMode c) now data
      unfold handleReceivedDatagram
      rw [hpacket, hs]
      exact ⟨rfl, rfl, rfl⟩
    · obtain ⟨p, hdata, hbound | hopposite, rfl⟩ :=
      (accepted_after_iff es now data packet).1 hpacket
      · exact absurd hdata (hothers p hbound)
      · exact (handleReceivedDatagram_same_iff hindexed hpacket).2 (h p hopposite hdata)

/-- **The packets of a session, both ways**, are as they should be just while fewer than 2^64 are
sent and no packet from 2^63 seconds away is taken from an unexpected source. -/
theorem packets2022_iff {inet : Net.Inet} (rs : List (UdpRequest inet)) (es : List (Event η))
    (now : Seconds)
    (data : Bytes) :
    Served c mode sessionID rs ∧ Taken c mode sessionID es now data ↔
      rs.length < 2 ^ 64 ∧ ∀ p : ServerPacket, p.Opposite sessionID now → data = p.bytes c mode →
        (after (mode.toMode c) sessionID es).Expected p.udpPacket :=
  and_congr (served_iff rs) (taken_iff es now data)

-- ----
-- The opposite time

/-- AES as no permutation of a block but itself, and tags of zeros. -/
def toyUdp : UdpCiphers where
  aesGcm := Aead.tagged
  chaCha20Poly1305 := Aead.tagged
  deriveSubkey _ salt _ := salt
  deriveSessionKey _ salt _ := salt
  deriveIdentitySubkey _ salt _ := salt
  blake3Hash16 _ := List.replicate 16 0
  aesEcbEncrypt _ block := if block.length = 16 then block else List.replicate 16 0
  aesEcbDecrypt _ block := if block.length = 16 then block else List.replicate 16 0
  length_aesEcbEncrypt _ block := by split <;> simp_all
  length_aesEcbDecrypt _ block := by split <;> simp_all
  aesEcbDecrypt_encrypt _ block h := by simp [h]
  aesEcbEncrypt_decrypt _ block h := by simp [h]
  length_blake3Hash16 _ := length_replicate
  aesGcm_tidy := Aead.tagged_tidy
  chaCha20Poly1305_tidy := Aead.tagged_tidy

theorem aes128_ne_none : ShadowsocksCipher.blake3Aes128Gcm ≠ .none := by decide

theorem nil_fits : ([] : Bytes).length < 65536 := by decide

def oneKey : AesAccount where
  cipher := .blake3Aes128Gcm
  cipher_ne := aes128_ne_none
  pskList := [List.replicate 16 0]
  cipher_aes := .inl rfl
  pskList_ne := by decide
  length_psk := by decide

def zeroSession : Long := ⟨0, by decide, by decide⟩

def newYear : Seconds := ⟨1767225600, by decide⟩

/-- A packet from 8.8.8.8:443, 2^63 seconds before. -/
def oppositePacket : ServerPacket where
  nonce := ⟨List.replicate 24 0, length_replicate⟩
  sessionID := ⟨List.replicate 8 0, length_replicate⟩
  packetID := ⟨List.replicate 8 0, length_replicate⟩
  timestamp := ⟨1767225600 - 2 ^ 63, by decide, by decide⟩
  clientSessionID := zeroSession
  padding := ⟨[], nil_fits⟩
  source := .ip (.ipv4 ⟨[8, 8, 8, 8], rfl⟩)
  port := ⟨443, by decide⟩
  payload := []

def oneFlow : List (Event Unit) := [.register ['1', '.', '1', '.', '1', '.', '1'] 443 [] ()]

/-- The packet is not fresh, and 8.8.8.8 becomes a host of the flow. -/
theorem opposite_time_learned :
    ¬ (Served toyUdp (.aes oneKey) zeroSession ([] : List (UdpRequest ⟨fun _ => none⟩)) ∧
    Taken toyUdp (.aes oneKey) zeroSession oneFlow newYear
    (oppositePacket.bytes toyUdp (.aes oneKey))) := by
  rintro ⟨-, htaken⟩
  have hexpected := (taken_iff _ _ _).1 htaken oppositePacket ⟨rfl, by decide⟩ rfl
  rcases hexpected with ⟨t, reg, hreg, -, hhost⟩ | hnone
  · change Function.update (fun _ => none) 1 (some _) t = some reg at hreg
    by_cases ht : t = 1
    · rw [ht, Function.update_self] at hreg
      rw [← Option.some.inj hreg] at hhost
      exact absurd hhost (by decide)
    · rw [Function.update_of_ne ht] at hreg
      cases hreg
  · exact hnone 1 ⟨_, rfl, rfl⟩

end ShadowsocksUdpSession

end Anywhere.Shadowsocks
