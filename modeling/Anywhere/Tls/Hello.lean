import Anywhere.Tls.Client

/-!
# Anywhere — the ServerHello and what the clients find of it

The clients look for the ServerHello in what they have read so far, which may end in any
place behind its record. A `Hello` is a ServerHello as RFC 8446 and RFC 5246 lay it out,
with its extensions block.
-/

namespace Anywhere.Tls

open List

-- ----
-- Records and reads

def handshakeRecord (fragment : Bytes) : Record where
  contentType := 0x16
  header := [0x16, 0x03, 0x03, UInt8.ofNat (fragment.length / 256), UInt8.ofNat fragment.length]
  payload := fragment

theorem handshakeRecord_wellFormed {fragment : Bytes} (h : fragment.length < 65536) :
    (handshakeRecord fragment).WellFormed :=
  ⟨0x03, 0x03, _, _, rfl, be16_ofNat h⟩

variable {r : Record}

theorem takeRecord_first {r' : Record} {xs ys zs stream : Bytes} (hr : r.WellFormed)
    (hstream : xs ++ ys = r.bytes ++ stream) (h : takeRecord xs = some (r', zs)) :
    r' = r ∧ zs ++ ys = stream := by
  have hext := records.extend ys h
  have hwhole : records.next (r.bytes ++ stream) = some (r, stream) := hr.encodes stream
  rw [← hstream, hext] at hwhole
  obtain ⟨hrecord, hrest⟩ := Prod.mk.inj (Option.some.inj hwhole)
  exact ⟨hrecord, hrest⟩

variable {chunks : List Bytes} {complete : Bytes → Bool}

section Reads

variable {ε : Type} (handshakeFailed : String → ε) (closed : String) (more : Reads)

/-- The loop returns at the first read with which the buffer is complete. -/
theorem receiveUntil_returns {buf : Bytes}
    (h : complete (buf ++ chunks.flatten) = true) :
    ∃ front back, chunks = front ++ back ∧ complete (buf ++ front.flatten) = true ∧
      receiveUntil handshakeFailed complete buf (chunks.map some ++ more) =
        .returned (buf ++ front.flatten, back.map some ++ more) := by
  induction chunks generalizing buf with
  | nil =>
    refine ⟨[], [], rfl, h, ?_⟩
    rw [flatten_nil, append_nil] at *
    unfold receiveUntil
    rw [if_pos h]
  | cons data chunks ih =>
    by_cases hnow : complete buf = true
    · refine ⟨[], data :: chunks, rfl, by simpa using hnow, ?_⟩
      unfold receiveUntil
      rw [if_pos hnow, flatten_nil, append_nil]
    · rw [flatten_cons, ← append_assoc] at h
      obtain ⟨front, back, hsplit, hcomplete, hreturned⟩ := ih h
      refine ⟨data :: front, back, by rw [hsplit]; rfl, ?_, ?_⟩
      · rw [flatten_cons, ← append_assoc]
        exact hcomplete
      · unfold receiveUntil
        rw [if_neg hnow, flatten_cons, ← append_assoc]
        exact hreturned

/-- At least a record header is read, of a handshake record. -/
theorem receiveResponse_returns {buf : Bytes} {chunks : List Bytes}
    (hne : ∀ data ∈ chunks, data ≠ []) (hlen : 5 ≤ (buf ++ chunks.flatten).length)
    (hhead : (buf ++ chunks.flatten).head? = some 0x16) :
    ∃ front back, chunks = front ++ back ∧
      receiveResponse handshakeFailed closed buf (chunks.map some ++ more) =
        .returned (buf ++ front.flatten, back.map some ++ more) := by
  have hreturn : ∀ {buf ys : Bytes} {reads : Reads}, 5 ≤ buf.length →
      (buf ++ ys).head? = some 0x16 →
      receiveResponse handshakeFailed closed buf reads = .returned (buf, reads) := by
    intro buf ys reads hbuf hfirst
    unfold receiveResponse
    rw [if_pos hbuf]
    rcases buf with _ | ⟨b, buf⟩
    · exact absurd hbuf (by decide)
    · have hb : b = 0x16 := Option.some.inj hfirst
      subst hb
      rfl
  induction chunks generalizing buf with
  | nil =>
    rw [flatten_nil, append_nil] at hlen
    exact ⟨[], [], rfl, by simpa using hreturn hlen hhead⟩
  | cons data chunks ih =>
    by_cases hnow : 5 ≤ buf.length
    · exact ⟨[], data :: chunks, rfl, by simpa using hreturn hnow hhead⟩
    · rw [flatten_cons, ← append_assoc] at hlen hhead
      obtain ⟨front, back, hsplit, hreturned⟩ :=
        ih (fun d hd => hne d (mem_cons_of_mem _ hd)) hlen hhead
      refine ⟨data :: front, back, by rw [hsplit]; rfl, ?_⟩
      have hdata : data.isEmpty = false := by
        have := hne data mem_cons_self
        simpa using this
      unfold receiveResponse
      rw [if_neg hnow, map_cons, cons_append]
      simp only [hdata, Bool.false_eq_true, if_false]
      rw [flatten_cons, ← append_assoc]
      exact hreturned

/-- Both loops before the ServerHello is parsed. -/
theorem read_returns
    (hne : ∀ data ∈ chunks, data ≠ []) (hlen : 5 ≤ chunks.flatten.length)
    (hhead : chunks.flatten.head? = some 0x16) (h : complete chunks.flatten = true) :
    ∃ front back buf reads, chunks = front ++ back ∧ complete front.flatten = true ∧
      receiveResponse handshakeFailed closed [] (chunks.map some ++ more) =
        .returned (buf, reads) ∧
      receiveUntil handshakeFailed complete buf reads =
        .returned (front.flatten, back.map some ++ more) := by
  obtain ⟨front, later, rfl, hresponse⟩ :=
    @receiveResponse_returns _ handshakeFailed closed more [] chunks hne hlen hhead
  rw [flatten_append] at h
  obtain ⟨next, back, rfl, hcomplete, huntil⟩ := receiveUntil_returns handshakeFailed more h
  refine ⟨front ++ next, back, _, _, by rw [append_assoc], ?_, hresponse, ?_⟩
  · rw [flatten_append]
    exact hcomplete
  · rw [flatten_append]
    exact huntil

/-- **Before the ServerHello is parsed** its record was read, whatever the cuts, when the
wait for it ends with a complete record. -/
theorem read_first
    (htaken : ∀ {buf : Bytes}, complete buf = true → ∃ r rest, takeRecord buf = some (r, rest))
    {fragment zs : Bytes} (hne : ∀ data ∈ chunks, data ≠ []) (hfits : fragment.length < 65536)
    (hstream : chunks.flatten = (handshakeRecord fragment).bytes ++ zs)
    (h : complete chunks.flatten = true) :
    ∃ front back ys buf reads, chunks = front ++ back ∧
      front.flatten = (handshakeRecord fragment).bytes ++ ys ∧
      receiveResponse handshakeFailed closed [] (chunks.map some ++ more) =
        .returned (buf, reads) ∧
      receiveUntil handshakeFailed complete buf reads =
        .returned (front.flatten, back.map some ++ more) := by
  have hlen : 5 ≤ chunks.flatten.length := by
    rw [hstream, Record.bytes, length_append, length_append]
    exact Nat.le_trans (Nat.le_add_right 5 _) (Nat.le_add_right _ _)
  obtain ⟨front, back, buf, reads, hsplit, hfront, hresponse, huntil⟩ :=
    read_returns handshakeFailed closed more hne hlen (by rw [hstream]; rfl) h
  obtain ⟨r, ys, htake⟩ := htaken hfront
  obtain ⟨rfl, -⟩ := takeRecord_first (handshakeRecord_wellFormed hfits)
    (by rw [← hstream, hsplit, flatten_append]) htake
  exact ⟨front, back, ys, buf, reads, hsplit, takeRecord_bytes htake, hresponse, huntil⟩

end Reads

-- ----
-- The ServerHello

structure Extension where
  t1 : UInt8
  t2 : UInt8
  data : Bytes
  length_lt : data.length < 65536

namespace Extension

def bytes (e : Extension) : Bytes :=
  [e.t1, e.t2, UInt8.ofNat (e.data.length / 256), UInt8.ofNat e.data.length] ++ e.data

theorem length_bytes (e : Extension) : e.bytes.length = 4 + e.data.length := by
  simp only [bytes, length_append, length_cons, length_nil]

def IsKeyShare (e : Extension) : Prop := be16 e.t1 e.t2 = 0x0033

end Extension

def keyShareExtension (g1 g2 : UInt8) (key : Bytes) (h : key.length < 65532) : Extension where
  t1 := 0x00
  t2 := 0x33
  data := [g1, g2, UInt8.ofNat (key.length / 256), UInt8.ofNat key.length] ++ key
  length_lt := by
    simp only [length_append, length_cons, length_nil]
    omega

/-- A ServerHello with an extensions block. -/
structure Hello where
  v1 : UInt8
  v2 : UInt8
  random : Bytes
  sessionId : Bytes
  c1 : UInt8
  c2 : UInt8
  extensions : List Extension
  random_length : random.length = 32
  sessionId_length : sessionId.length < 256
  extensions_length : (extensions.flatMap Extension.bytes).length < 65536

namespace Hello

def extensionsBytes (h : Hello) : Bytes := h.extensions.flatMap Extension.bytes

def cipherSuite (h : Hello) : Nat := be16 h.c1 h.c2

def body (h : Hello) : Bytes :=
  [h.v1, h.v2] ++ h.random ++ [UInt8.ofNat h.sessionId.length] ++ h.sessionId ++
    [h.c1, h.c2, 0x00, UInt8.ofNat (h.extensionsBytes.length / 256),
      UInt8.ofNat h.extensionsBytes.length] ++ h.extensionsBytes

def message (h : Hello) : HandshakeMessage where
  hsType := 0x02
  header := [0x02, UInt8.ofNat (h.body.length / 65536), UInt8.ofNat (h.body.length / 256),
    UInt8.ofNat h.body.length]
  body := h.body

theorem length_body (h : Hello) :
    h.body.length = 40 + h.sessionId.length + h.extensionsBytes.length := by
  simp only [body, length_append, length_cons, length_nil, h.random_length]
  omega

theorem message_wellFormed (h : Hello) : h.message.WellFormed := by
  refine ⟨_, _, _, rfl, ?_⟩
  have hbody := h.length_body
  have hsession := h.sessionId_length
  have hexts : h.extensionsBytes.length < 65536 := h.extensions_length
  show be24 _ _ _ = h.body.length
  rw [be24, UInt8.toNat_ofNat', UInt8.toNat_ofNat', UInt8.toNat_ofNat']
  omega

/-- `parseHello` finds the extensions. -/
theorem parseHello_message (h : Hello)
    (extensions : Nat → Nat → Nat → Bytes → Option ServerKeyShare) (zs : Bytes) :
    PacketUtil.parseHello extensions (h.message.bytes ++ zs) =
      extensions h.cipherSuite h.extensionsBytes.length h.extensionsBytes.length
        (h.extensionsBytes ++ zs) := by
  have hexts : be16 (UInt8.ofNat (h.extensionsBytes.length / 256))
      (UInt8.ofNat h.extensionsBytes.length) = h.extensionsBytes.length :=
    be16_ofNat h.extensions_length
  have hsession : (UInt8.ofNat h.sessionId.length).toNat = h.sessionId.length := by
    rw [UInt8.toNat_ofNat']
    exact Nat.mod_eq_of_lt h.sessionId_length
  have hdrop : (h.message.bytes ++ zs).drop 38 =
      UInt8.ofNat h.sessionId.length :: (h.sessionId ++ ([h.c1, h.c2, 0x00,
        UInt8.ofNat (h.extensionsBytes.length / 256), UInt8.ofNat h.extensionsBytes.length] ++
        (h.extensionsBytes ++ zs))) := by
    have hsplit : h.message.bytes ++ zs =
        (h.message.header ++ [h.v1, h.v2] ++ h.random) ++ (UInt8.ofNat h.sessionId.length ::
          (h.sessionId ++ ([h.c1, h.c2, 0x00, UInt8.ofNat (h.extensionsBytes.length / 256),
            UInt8.ofNat h.extensionsBytes.length] ++ (h.extensionsBytes ++ zs)))) := by
      simp [HandshakeMessage.bytes, message, body]
    rw [hsplit, drop_left']
    simp [message, h.random_length]
  rw [PacketUtil.parseHello, hdrop]
  simp only [hsession, drop_left]
  simp [hexts, cipherSuite]

end Hello

/-! ### The extension loop -/

def StepsOver (loop : Nat → Nat → Bytes → Option ServerKeyShare) : Prop :=
  ∀ (e : Extension) (fuel left : Nat) (q : Bytes), ¬ e.IsKeyShare → 4 ≤ left →
    loop (fuel + 1) left (e.bytes ++ q) = loop fuel (left - 4 - e.data.length) q

theorem StepsOver.before {loop : Nat → Nat → Bytes → Option ServerKeyShare} (h : StepsOver loop)
    {before : List Extension} (hbefore : ∀ e ∈ before, ¬ e.IsKeyShare) {fuel : Nat}
    (hfuel : before.length ≤ fuel) (left : Nat) (q : Bytes) :
    loop fuel ((before.flatMap Extension.bytes).length + left)
        (before.flatMap Extension.bytes ++ q) = loop (fuel - before.length) left q := by
  induction before generalizing fuel with
  | nil => simp
  | cons e before ih =>
    obtain ⟨fuel, rfl⟩ : ∃ n, fuel = n + 1 := ⟨fuel - 1, by simp at hfuel; omega⟩
    have hlength := e.length_bytes
    rw [flatMap_cons, append_assoc, length_append,
      h e fuel _ _ (hbefore e (by simp)) (by omega)]
    have hleft : e.bytes.length + (before.flatMap Extension.bytes).length + left - 4 -
        e.data.length = (before.flatMap Extension.bytes).length + left := by omega
    rw [hleft, ih (fun e' he' => hbefore e' (by simp [he'])) (by simpa using hfuel), length_cons,
      Nat.add_sub_add_right]

section Extensions

variable {cipherSuite fuel left : Nat} {q : Bytes}

theorem stepsOver_parseExtensions (cipherSuite : Nat) :
    StepsOver (PacketUtil.parseExtensions cipherSuite) := by
  intro e fuel left q he hleft
  have hlen := be16_ofNat e.length_lt
  show PacketUtil.parseExtensions cipherSuite (fuel + 1) left
    (e.t1 :: e.t2 :: UInt8.ofNat (e.data.length / 256) :: UInt8.ofNat e.data.length ::
      (e.data ++ q)) = _
  rw [PacketUtil.parseExtensions, if_pos hleft]
  simp only [hlen]
  rw [if_neg (show ¬ be16 e.t1 e.t2 = 0x0033 from he), drop_left]

/-- An X25519 share is taken, whatever follows it. -/
theorem parseExtensions_x25519 {key : Bytes} (hlength : key.length = 32) (hleft : 4 ≤ left) :
    PacketUtil.parseExtensions cipherSuite (fuel + 1) left
        ((keyShareExtension 0x00 0x1d key (by omega)).bytes ++ q) = some ⟨key, cipherSuite⟩ := by
  have hkey : be16 (UInt8.ofNat (key.length / 256)) (UInt8.ofNat key.length) = 32 := by
    rw [hlength]
    decide
  have htype : be16 0x00 0x33 = 0x0033 := by decide
  have hgroup : be16 0x00 0x1d = 0x001d := by decide
  show PacketUtil.parseExtensions cipherSuite (fuel + 1) left
    (0x00 :: 0x33 :: _ :: _ :: 0x00 :: 0x1d :: UInt8.ofNat (key.length / 256) ::
      UInt8.ofNat key.length :: (key ++ q)) = _
  rw [PacketUtil.parseExtensions, if_pos hleft]
  simp only [htype, if_true, hgroup, hkey, and_self]
  rw [if_pos (by rw [length_append]; omega), ← hlength, take_left]

theorem parseExtensions_end (hleft : left < 4) :
    PacketUtil.parseExtensions cipherSuite fuel left q = none := by
  rcases fuel with _ | fuel
  · rfl
  · unfold PacketUtil.parseExtensions
    rw [if_neg (by omega)]

end Extensions

theorem length_le_flatMap_bytes (es : List Extension) :
    es.length ≤ (es.flatMap Extension.bytes).length := by
  induction es with
  | nil => exact Nat.le_refl 0
  | cons e es ih =>
    have := e.length_bytes
    rw [flatMap_cons, length_append, length_cons]
    omega

/-! ### The scans -/

section Scans

variable {h : Hello} {fragment zs : Bytes}

/-- The record loop of the parsers comes to the ServerHello in the first record. -/
theorem parseRecords_hello (hfits : (h.message.bytes ++ fragment).length < 65536)
    (extensions : Nat → Nat → Nat → Bytes → Option ServerKeyShare) {fuel : Nat} (hfuel : 0 < fuel) :
    PacketUtil.parseRecords extensions fuel
        ((handshakeRecord (h.message.bytes ++ fragment)).bytes ++ zs) =
      extensions h.cipherSuite h.extensionsBytes.length h.extensionsBytes.length
        (h.extensionsBytes ++ (fragment ++ zs)) := by
  have htake : takeRecord ((handshakeRecord (h.message.bytes ++ fragment)).bytes ++ zs) =
      some (handshakeRecord (h.message.bytes ++ fragment), zs) :=
    (handshakeRecord_wellFormed hfits).encodes zs
  have hlong : 5 < ((handshakeRecord (h.message.bytes ++ fragment)).bytes ++ zs).length := by
    simp only [handshakeRecord, Record.bytes, HandshakeMessage.bytes, Hello.message,
      length_append, length_cons, length_nil]
    omega
  have hfirst : ((handshakeRecord (h.message.bytes ++ fragment)).bytes ++ zs).head? = some 0x16 :=
    rfl
  have hpayload : ((handshakeRecord (h.message.bytes ++ fragment)).payload ++ zs).head? =
      some 0x02 :=
    rfl
  obtain ⟨fuel, rfl⟩ : ∃ n, fuel = n + 1 := ⟨fuel - 1, by omega⟩
  rw [PacketUtil.parseRecords, if_pos hlong, if_neg (by simp [hfirst]), htake]
  dsimp only
  rw [if_neg (by simp [hpayload])]
  show PacketUtil.parseHello extensions (h.message.bytes ++ fragment ++ zs) = _
  rw [append_assoc]
  exact h.parseHello_message extensions (fragment ++ zs)

theorem length_record_pos (h : r.WellFormed) (zs : Bytes) :
    0 < (r.bytes ++ zs).length := by
  obtain ⟨v1, v2, l1, l2, hheader, -⟩ := h
  simp [Record.bytes, hheader]

/-- The parsers come to the key share, whatever follows the ServerHello. -/
theorem parseRecords_share {loop : Nat → Nat → Nat → Bytes → Option ServerKeyShare}
    (hloop : StepsOver (loop h.cipherSuite)) {share : Extension} {before behind : List Extension}
    (hfits : (h.message.bytes ++ fragment).length < 65536)
    (hexts : h.extensions = before ++ share :: behind) (hbefore : ∀ e ∈ before, ¬ e.IsKeyShare)
    {fuel : Nat} (hfuel : 0 < fuel) (zs : Bytes) :
    ∃ n, PacketUtil.parseRecords loop fuel
        ((handshakeRecord (h.message.bytes ++ fragment)).bytes ++ zs) =
      loop h.cipherSuite (n + 1) (share.bytes.length + (behind.flatMap Extension.bytes).length)
        (share.bytes ++ (behind.flatMap Extension.bytes ++ (fragment ++ zs))) := by
  have hsplit : h.extensionsBytes ++ (fragment ++ zs) = before.flatMap Extension.bytes ++
      (share.bytes ++ (behind.flatMap Extension.bytes ++ (fragment ++ zs))) := by
    simp [Hello.extensionsBytes, hexts]
  have hsize : h.extensionsBytes.length = (before.flatMap Extension.bytes).length +
      (share.bytes.length + (behind.flatMap Extension.bytes).length) := by
    rw [Hello.extensionsBytes, hexts, flatMap_append, flatMap_cons, length_append,
      length_append]
  have hcount := length_le_flatMap_bytes before
  have hthis := share.length_bytes
  obtain ⟨n, hn⟩ : ∃ n, h.extensionsBytes.length - before.length = n + 1 :=
    ⟨h.extensionsBytes.length - before.length - 1, by omega⟩
  refine ⟨n, ?_⟩
  rw [parseRecords_hello hfits _ hfuel, hsplit]
  nth_rewrite 2 [hsize]
  rw [hloop.before hbefore (by omega), hn]

/-- **A key share for X25519** is found. -/
theorem parseServerHello_x25519 {before behind : List Extension} {key : Bytes}
    (hlength : key.length = 32) (hfits : (h.message.bytes ++ fragment).length < 65536)
    (hexts : h.extensions = before ++ keyShareExtension 0x00 0x1d key (by omega) :: behind)
    (hbefore : ∀ e ∈ before, ¬ e.IsKeyShare) (zs : Bytes) :
    PacketUtil.parseServerHello ((handshakeRecord (h.message.bytes ++ fragment)).bytes ++ zs) =
      some ⟨key, h.cipherSuite⟩ := by
  obtain ⟨n, hparse⟩ := parseRecords_share (stepsOver_parseExtensions _) hfits hexts hbefore
    (length_record_pos (handshakeRecord_wellFormed hfits) zs) zs
  rw [PacketUtil.parseServerHello, hparse]
  refine parseExtensions_x25519 hlength ?_
  rw [Extension.length_bytes]
  omega

/-- A ServerHello at the start of the first record ends the wait for it. -/
theorem containsServerHello_first (hr : r.WellFormed) (htype : r.contentType = 0x16)
    (hpayload : r.payload.head? = some 0x02) (zs : Bytes) :
    bufferContainsCompleteServerHello (r.bytes ++ zs) = true := by
  have hpos := length_record_pos hr zs
  have htake : takeRecord (r.bytes ++ zs) = some (r, zs) := hr.encodes zs
  have hhead : (r.payload ++ zs).head? = some 0x02 := by
    rw [List.head?_append, hpayload]
    rfl
  rw [bufferContainsCompleteServerHello]
  obtain ⟨fuel, hfuel⟩ : ∃ n, (r.bytes ++ zs).length = n + 1 :=
    ⟨(r.bytes ++ zs).length - 1, by omega⟩
  rw [hfuel, containsServerHello, htake]
  exact if_pos ⟨htype, hhead⟩

theorem takeRecord_of_containsServerHello {buf : Bytes}
    (h : bufferContainsCompleteServerHello buf = true) :
    ∃ r rest, takeRecord buf = some (r, rest) := by
  rw [bufferContainsCompleteServerHello] at h
  generalize buf.length = fuel at h
  rcases fuel with _ | fuel
  · cases h
  · rw [containsServerHello] at h
    split at h
    · cases h
    · exact ⟨_, _, by assumption⟩

theorem extractServerHelloMessage_first (hr : r.WellFormed)
    (htype : r.contentType = 0x16) {m : HandshakeMessage} (hm : m.hsType = 0x02)
    {later : List HandshakeMessage} (hframes : messages.frames r.payload = m :: later)
    (zs : Bytes) :
    extractServerHelloMessage (r.bytes ++ zs) = m.bytes := by
  have hpos := length_record_pos hr zs
  have htake : takeRecord (r.bytes ++ zs) = some (r, zs) := hr.encodes zs
  obtain ⟨fuel, hfuel⟩ : ∃ n, (r.bytes ++ zs).length = n + 1 :=
    ⟨(r.bytes ++ zs).length - 1, by omega⟩
  rw [extractServerHelloMessage, hfuel, extractServerHello, htake]
  simp only [htype, if_true, hframes, List.find?_cons, hm, beq_self_eq_true]

theorem readServerHello_returns (hne : ∀ data ∈ chunks, data ≠ [])
    (hfits : fragment.length < 65536) (hhead : fragment.head? = some 0x02)
    (hstream : chunks.flatten = (handshakeRecord fragment).bytes ++ zs) (more : Reads) :
    ∃ front back ys, chunks = front ++ back ∧
      readServerHello (chunks.map some ++ more) =
        .returned (front.flatten, back.map some ++ more) ∧
      front.flatten = (handshakeRecord fragment).bytes ++ ys := by
  have hcomplete : bufferContainsCompleteServerHello chunks.flatten = true := by
    rw [hstream]
    exact containsServerHello_first (handshakeRecord_wellFormed hfits) rfl hhead zs
  obtain ⟨front, back, ys, buf, reads, hsplit, hfront, hresponse, huntil⟩ :=
    read_first TlsError.handshakeFailed "No server response" more takeRecord_of_containsServerHello
      hne hfits hstream hcomplete
  refine ⟨front, back, ys, hsplit, ?_, hfront⟩
  rw [readServerHello, receiveServerResponse, hresponse]
  exact huntil

end Scans

end Anywhere.Tls
