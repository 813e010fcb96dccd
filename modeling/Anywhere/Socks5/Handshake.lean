import Anywhere.Net.Inet

/-!
# Anywhere — the SOCKS5 handshake

`Socks5Buffer` reads the transport in the chunks it gives and serves exact counts of
bytes from what it has; what is left of the last chunk behind the handshake is handed
to a `BufferedPrefixTransport`, in front of the chunks that were not read.

* `receives_eq` — the chunks behind it come out as they are.
-/

namespace Anywhere.Socks5

open Lib FakeIp Shadowsocks List

-- ----
-- The model

/-- The buffer of the handshake, the chunks its transport has yet to give, and what was
sent on it. -/
structure Socks5Buffer where
  buffer : Bytes := []
  reads : List Bytes
  sent : List Bytes := []

def byteText (b : UInt8) : String := toString b.toInt8.toInt

/-- The loop of `readExact`. -/
def fill (count : Nat) : Bytes → List Bytes → Except String (Bytes × List Bytes)
  | buffer, reads =>
    if count ≤ buffer.length then .ok (buffer, reads)
    else
      match reads with
      | [] => .error "SOCKS5 server closed during handshake"
      | chunk :: reads =>
        if chunk = [] then .error "SOCKS5 server returned empty read"
        else fill count (buffer ++ chunk) reads

namespace Socks5Buffer

/-- `transport.send`. -/
def send (s : Socks5Buffer) (data : Bytes) : Socks5Buffer := { s with sent := s.sent ++ [data] }

def readExact (s : Socks5Buffer) (count : Nat) : Except String (Bytes × Socks5Buffer) := do
  let (buffer, reads) ← fill count s.buffer s.reads
  return (buffer.take count, { s with buffer := buffer.drop count, reads := reads })

def remaining (s : Socks5Buffer) : Option Bytes := if s.buffer = [] then none else some s.buffer

end Socks5Buffer

/-- `parseIPv4` of `SocksClient`, which is written as that of VLESS. -/
def parseIPv4 (s : Text) : Option Bytes := Vless.parseIPv4 s

/-- `parseIPv6` of `SocksClient`. -/
def parseIPv6 (inet : Net.Inet) (s : Text) : Option Bytes := Net.parseIPv6 inet s

def encodeAddress (inet : Net.Inet) (host : Text) : Bytes :=
  Net.addressBytes (parseIPv4 host) (parseIPv6 inet host) ((Vless.utf8Bytes host).take 255)

/-- The request of `sendCommand`. -/
def commandRequest (inet : Net.Inet) (command : UInt8) (host : Text) (port : Nat) : Bytes :=
  [0x05, command, 0x00] ++ encodeAddress inet host ++ Mux.bytes16 port

/-- `udpHeader` of `SocksUdpConnection`. -/
def udpHeader (inet : Net.Inet) (destinationHost : Text) (destinationPort : Nat) : Bytes :=
  [0x00, 0x00, 0x00] ++ encodeAddress inet destinationHost ++ Mux.bytes16 destinationPort

/-- The sub-negotiation of `sendAuth`. -/
def authRequest (username password : Text) : Bytes :=
  let userBytes := (Vless.utf8Bytes username).take 255
  let passBytes := (Vless.utf8Bytes password).take 255
  0x01 :: UInt8.ofNat userBytes.length :: userBytes ++ UInt8.ofNat passBytes.length :: passBytes

def sendAuth (s : Socks5Buffer) (username password : Text) : Except String Socks5Buffer := do
  let (resp, s) ← (s.send (authRequest username password)).readExact 2
  if resp.getD 1 0 ≠ 0x00 then
    .error ("SOCKS5 authentication failed (status " ++ byteText (resp.getD 1 0) ++ ")")
  else
    return s

/-- The user name and the password when both are configured. -/
def credentials (username password : Option Text) : Option (Text × Text) :=
  match username, password with
  | some user, some pass => some (user, pass)
  | _, _ => none

def authMethod (login : Option (Text × Text)) : UInt8 := if login.isSome then 0x02 else 0x00

def performAuth (s : Socks5Buffer) (username password : Option Text) :
    Except String Socks5Buffer := do
  let expected := authMethod (credentials username password)
  let (resp, s) ← (s.send [0x05, 0x01, expected]).readExact 2
  if resp.getD 0 0 ≠ 0x05 then
    .error ("SOCKS5 unexpected server version: " ++ byteText (resp.getD 0 0))
  else if resp.getD 1 0 ≠ expected then
    if resp.getD 1 0 = 0xFF then .error "SOCKS5 server: no matching auth method"
    else
      .error ("SOCKS5 auth method mismatch: expected " ++ byteText expected ++ ", got " ++
        byteText (resp.getD 1 0))
  else
    match credentials username password with
    | some (user, pass) => sendAuth s user pass
    | none => return s

structure UdpRelayInfo where
  host : Text
  port : Nat

/-- The port in the two bytes from `i` on. -/
def portAt (a : Bytes) (i : Nat) : Nat := (a.getD i 0).toNat * 256 + (a.getD (i + 1) 0).toNat

/-- The bound address of `readCommandResponse`, behind its type. -/
def readBound (atyp : UInt8) (s : Socks5Buffer) : Except String (UdpRelayInfo × Socks5Buffer) :=
  if atyp = 0x01 then do
    let (a, s) ← s.readExact (4 + 2)
    return (⟨inetNtop4 (a.take 4), portAt a 4⟩, s)
  else if atyp = 0x04 then do
    let (a, s) ← s.readExact (16 + 2)
    return (⟨ipv6Words (a.take 16), portAt a 16⟩, s)
  else if atyp = 0x03 then do
    let (len, s) ← s.readExact 1
    let (a, s) ← s.readExact ((len.getD 0 0).toNat + 2)
    return (⟨decodeUtf8 (a.take (len.getD 0 0).toNat), portAt a (len.getD 0 0).toNat⟩, s)
  else
    .error ("SOCKS5 unknown address type: " ++ byteText atyp)

def readCommandResponse (s : Socks5Buffer) : Except String (UdpRelayInfo × Socks5Buffer) := do
  let (head, s) ← s.readExact 4
  if head.getD 1 0 ≠ 0x00 then
    .error ("SOCKS5 command failed (reply " ++ byteText (head.getD 1 0) ++ ")")
  else
    readBound (head.getD 3 0) s

def sendCommand (inet : Net.Inet) (s : Socks5Buffer) (command : UInt8) (host : Text) (port : Nat) :
    Except String (UdpRelayInfo × Socks5Buffer) :=
  readCommandResponse (s.send (commandRequest inet command host port))

def performConnect (inet : Net.Inet) (s : Socks5Buffer) (destinationHost : Text)
    (destinationPort : Nat) (username password : Option Text) : Except String Socks5Buffer := do
  let s ← performAuth s username password
  let (_, s) ← sendCommand inet s 0x01 destinationHost destinationPort
  return s

def performUdpAssociate (inet : Net.Inet) (s : Socks5Buffer) (username password : Option Text)
    (serverAddress : Text) : Except String (UdpRelayInfo × Socks5Buffer) := do
  let s ← performAuth s username password
  let (info, s) ← sendCommand inet s 0x03 "0.0.0.0".toList 0
  return (⟨serverAddress, info.port⟩, s)

/-- `BufferedPrefixTransport` over the chunks its transport has yet to give. -/
structure BufferedPrefixTransport where
  initialData : Option Bytes
  reads : List Bytes

/-- `BufferedPrefixTransport.receive`; null is the end of the stream. -/
def BufferedPrefixTransport.receive (t : BufferedPrefixTransport) :
    Option Bytes × BufferedPrefixTransport :=
  match t.initialData, t.reads with
  | some pending, _ => (some pending, { t with initialData := none })
  | none, [] => (none, t)
  | none, chunk :: reads => (some chunk, { t with reads := reads })

/-- `SocksTcpConnection.receiveRaw`. -/
def receiveRaw (t : BufferedPrefixTransport) : Option Bytes × BufferedPrefixTransport :=
  (t.receive.1.bind fun data => if data = [] then none else some data, t.receive.2)

/-- The results of `n` calls of `receiveRaw`. -/
def receives : Nat → BufferedPrefixTransport → List (Option Bytes)
  | 0, _ => []
  | n + 1, t => (receiveRaw t).1 :: receives n (receiveRaw t).2

/-- The transport `connect` puts the connection on. -/
def streamTransport (s : Socks5Buffer) : BufferedPrefixTransport := ⟨s.remaining, s.reads⟩

-- ----
-- The server's side

inductive BoundAddress
  | ipv4 (bytes : {bytes : Bytes // bytes.length = 4})
  | ipv6 (bytes : {bytes : Bytes // bytes.length = 16})
  | domain (bytes : {bytes : Bytes // bytes.length ≤ 255})

namespace BoundAddress

def atyp : BoundAddress → UInt8
  | ipv4 _ => 0x01
  | ipv6 _ => 0x04
  | domain _ => 0x03

def wire : BoundAddress → Bytes
  | ipv4 bytes => bytes.1
  | ipv6 bytes => bytes.1
  | domain bytes => UInt8.ofNat bytes.1.length :: bytes.1

end BoundAddress

def authReplies (login : Option (Text × Text)) : Bytes :=
  [0x05, authMethod login] ++ if login.isSome then [0x01, 0x00] else []

def commandReply (bound : BoundAddress) (port : Nat) : Bytes :=
  [0x05, 0x00, 0x00, bound.atyp] ++ bound.wire ++ Mux.bytes16 port

-- ----
-- Reading the stream

namespace Socks5Buffer

/-- What the transport gives and has given and no read has taken. -/
def stream (s : Socks5Buffer) : Bytes := s.buffer ++ s.reads.flatten

/-- No chunk that the transport has yet to give is empty. -/
def Reads (s : Socks5Buffer) : Prop := ∀ chunk ∈ s.reads, chunk ≠ []

end Socks5Buffer

/-- `fill` moves the next bytes of the stream to the buffer. -/
theorem fill_stream {count : Nat} {buffer : Bytes} {reads : List Bytes}
    (hreads : ∀ chunk ∈ reads, chunk ≠ []) (hcount : count ≤ (buffer ++ reads.flatten).length) :
    ∃ buffer' reads', fill count buffer reads = .ok (buffer', reads') ∧ count ≤ buffer'.length ∧
      buffer' ++ reads'.flatten = buffer ++ reads.flatten ∧ ∀ chunk ∈ reads', chunk ≠ [] := by
  induction reads generalizing buffer with
  | nil =>
    have hle : count ≤ buffer.length := by simpa using hcount
    exact ⟨buffer, [], by rw [fill, if_pos hle], hle, rfl, hreads⟩
  | cons chunk reads ih =>
    rw [fill]
    split
    · rename_i hle
      exact ⟨buffer, chunk :: reads, rfl, hle, rfl, hreads⟩
    · rw [if_neg (hreads chunk (by simp))]
      have hstream : buffer ++ (chunk :: reads).flatten = buffer ++ chunk ++
          reads.flatten := by simp
      rw [hstream] at hcount ⊢
      exact ih (fun c hc => hreads c (by simp [hc])) hcount

/-- A read takes the next bytes of the stream, however it is cut. -/
theorem readExact_stream {s : Socks5Buffer} (hreads : s.Reads) {piece rest : Bytes} {count : Nat}
    (hlen : piece.length = count) (hstream : s.stream = piece ++ rest) :
    ∃ s', s.readExact count = .ok (piece, s') ∧ s'.Reads ∧ s'.stream = rest ∧ s'.sent = s.sent := by
  obtain ⟨buffer, reads, hfill, hle, hbytes, hne⟩ :=
    @fill_stream count s.buffer s.reads hreads (by
      rw [show s.buffer ++ s.reads.flatten = s.stream from rfl, hstream, length_append]
      omega)
  have hsplit : buffer ++ reads.flatten = piece ++ rest := hbytes.trans hstream
  have htake : buffer.take count = piece := by
    rw [← take_append_of_le_length hle, hsplit, take_left' hlen]
  refine ⟨{ s with buffer := buffer.drop count, reads := reads }, ?_, hne, ?_, rfl⟩
  · rw [Socks5Buffer.readExact, hfill, ← htake]
    rfl
  · show buffer.drop count ++ reads.flatten = rest
    rw [← drop_append_of_le_length hle, hsplit, drop_left' hlen]

-- ----
-- The handshake

variable {rest : Bytes} {s : Socks5Buffer}

theorem sendAuth_stream (hreads : s.Reads)
    (hstream : s.stream = [0x01, 0x00] ++ rest) (username password : Text) :
    ∃ s', sendAuth s username password = .ok s' ∧ s'.Reads ∧ s'.stream = rest ∧
      s'.sent = s.sent ++ [authRequest username password] := by
  obtain ⟨s', hread, hreads', hrest, hsent⟩ :=
    @readExact_stream (s.send (authRequest username password)) hreads
      [0x01, 0x00] rest 2 rfl hstream
  refine ⟨s', ?_, hreads', hrest, hsent⟩
  rw [sendAuth, hread]
  rfl

/-- What the client sends up to the command. -/
def authSent (login : Option (Text × Text)) : List Bytes :=
  [0x05, 0x01, authMethod login] :: (login.map fun l => authRequest l.1 l.2).toList

theorem performAuth_stream (hreads : s.Reads)
    {username password : Option Text}
    (hstream : s.stream = authReplies (credentials username password) ++ rest) :
    ∃ s', performAuth s username password = .ok s' ∧ s'.Reads ∧ s'.stream = rest ∧
      s'.sent = s.sent ++ authSent (credentials username password) := by
  unfold performAuth
  generalize credentials username password = login at *
  rw [authReplies, append_assoc] at hstream
  obtain ⟨s', hread, hreads', hrest, hsent⟩ :=
    @readExact_stream (s.send [0x05, 0x01, authMethod login]) hreads
      [0x05, authMethod login] _ 2 rfl
      hstream
  simp only [hread]
  rcases login with _ | ⟨user, pass⟩
  · exact ⟨s', rfl, hreads', hrest, hsent⟩
  · obtain ⟨s₂, hauth, hreads₂, hrest₂, hsent₂⟩ := sendAuth_stream hreads' hrest user pass
    refine ⟨s₂, hauth, hreads₂, hrest₂, ?_⟩
    rw [hsent₂, hsent]
    simp [Socks5Buffer.send, authSent]

theorem readBound_stream (hreads : s.Reads) {bound : BoundAddress} {port : Nat}
    (hstream : s.stream = bound.wire ++ Mux.bytes16 port ++ rest) :
    ∃ info s', readBound bound.atyp s = .ok (info, s') ∧ s'.Reads ∧ s'.stream = rest ∧
      s'.sent = s.sent := by
  rcases bound with bytes | bytes | bytes
  · obtain ⟨s₁, hread, hreads₁, hrest, hsent⟩ :=
      @readExact_stream s hreads (bytes.1 ++ Mux.bytes16 port) rest (4 + 2)
        (by simp [Mux.bytes16, bytes.2]) hstream
    refine ⟨⟨inetNtop4 ((bytes.1 ++ Mux.bytes16 port).take 4),
      portAt (bytes.1 ++ Mux.bytes16 port) 4⟩, s₁, ?_, hreads₁, hrest, hsent⟩
    rw [BoundAddress.atyp, readBound, if_pos rfl, hread]
    rfl
  · obtain ⟨s₁, hread, hreads₁, hrest, hsent⟩ :=
      @readExact_stream s hreads (bytes.1 ++ Mux.bytes16 port) rest (16 + 2)
        (by simp [Mux.bytes16, bytes.2]) hstream
    refine ⟨⟨ipv6Words ((bytes.1 ++ Mux.bytes16 port).take 16),
      portAt (bytes.1 ++ Mux.bytes16 port) 16⟩, s₁, ?_, hreads₁, hrest, hsent⟩
    rw [BoundAddress.atyp, readBound, if_neg (by decide), if_pos rfl, hread]
    rfl
  · have hbyte : (UInt8.ofNat bytes.1.length).toNat = bytes.1.length := by
      have := bytes.2
      rw [UInt8.toNat_ofNat']
      omega
    obtain ⟨s₁, hread₁, hreads₁, hrest₁, hsent₁⟩ :=
      @readExact_stream s hreads [UInt8.ofNat bytes.1.length]
        (bytes.1 ++ Mux.bytes16 port ++ rest) 1
        rfl (by rw [hstream]; simp [BoundAddress.wire])
    obtain ⟨s₂, hread₂, hreads₂, hrest₂, hsent₂⟩ :=
      @readExact_stream s₁ hreads₁ (bytes.1 ++ Mux.bytes16 port) rest
        ((UInt8.ofNat bytes.1.length).toNat + 2) (by rw [hbyte]; simp [Mux.bytes16]) hrest₁
    refine ⟨⟨decodeUtf8 ((bytes.1 ++ Mux.bytes16 port).take (UInt8.ofNat bytes.1.length).toNat),
      portAt (bytes.1 ++ Mux.bytes16 port) (UInt8.ofNat bytes.1.length).toNat⟩,
      s₂, ?_, hreads₂, hrest₂, hsent₂.trans hsent₁⟩
    rw [BoundAddress.atyp, readBound, if_neg (by decide), if_neg (by decide), if_pos rfl, hread₁]
    show (s₁.readExact ((UInt8.ofNat bytes.1.length).toNat + 2) >>= _) = _
    rw [hread₂]
    rfl

theorem readCommandResponse_stream {s : Socks5Buffer} (hreads : s.Reads) {bound : BoundAddress}
    {port : Nat} {rest : Bytes} (hstream : s.stream = commandReply bound port ++ rest) :
    ∃ info s', readCommandResponse s = .ok (info, s') ∧ s'.Reads ∧ s'.stream = rest ∧
      s'.sent = s.sent := by
  rw [commandReply, append_assoc, append_assoc] at hstream
  obtain ⟨s₁, hread, hreads₁, hrest, hsent⟩ :=
    @readExact_stream s hreads [0x05, 0x00, 0x00, bound.atyp] _ 4 rfl hstream
  rw [← append_assoc] at hrest
  obtain ⟨info, s₂, hbound, hreads₂, hrest₂, hsent₂⟩ := readBound_stream hreads₁ hrest
  refine ⟨info, s₂, ?_, hreads₂, hrest₂, hsent₂.trans hsent⟩
  rw [readCommandResponse, hread]
  exact hbound

/-- The handshake takes the replies of the server off the stream and nothing else. -/
theorem sendCommand_stream {s : Socks5Buffer} (hreads : s.Reads) (inet : Net.Inet) (command : UInt8)
    (host : Text) (hostPort : Nat) {username password : Option Text}
    {bound : BoundAddress} {port : Nat} {rest : Bytes} (hstream : s.stream =
      authReplies (credentials username password) ++ (commandReply bound port ++ rest)) :
    ∃ info s₁ s', performAuth s username password = .ok s₁ ∧
      sendCommand inet s₁ command host hostPort = .ok (info, s') ∧ s'.Reads ∧ s'.stream = rest ∧
      s'.sent = s.sent ++ authSent (credentials username password) ++
        [commandRequest inet command host hostPort] := by
  obtain ⟨s₁, hauth, hreads₁, hrest₁, hsent₁⟩ := performAuth_stream hreads hstream
  obtain ⟨info, s₂, hcommand, hreads₂, hrest₂, hsent₂⟩ :=
    @readCommandResponse_stream (s₁.send (commandRequest inet command host hostPort)) hreads₁ bound
      port rest hrest₁
  exact ⟨info, s₁, s₂, hauth, hcommand, hreads₂, hrest₂, by rw [hsent₂, Socks5Buffer.send, hsent₁]⟩

/-- The relay is at the address of the server, whatever host the reply names. -/
theorem performUdpAssociate_stream {s : Socks5Buffer} (hreads : s.Reads) (inet : Net.Inet)
    (serverAddress : Text) {username password : Option Text} {bound : BoundAddress} {port : Nat}
    {rest : Bytes} (hstream : s.stream =
      authReplies (credentials username password) ++ (commandReply bound port ++ rest)) :
    ∃ info s', performUdpAssociate inet s username password serverAddress = .ok (info, s') ∧
      info.host = serverAddress ∧ s'.Reads ∧ s'.stream = rest ∧
      s'.sent = s.sent ++ authSent (credentials username password) ++
        [commandRequest inet 0x03 "0.0.0.0".toList 0] := by
  obtain ⟨info, s₁, s', hauth, hcommand, hreads', hrest⟩ :=
    sendCommand_stream hreads inet 0x03 "0.0.0.0".toList 0 hstream
  refine ⟨⟨serverAddress, info.port⟩, s', ?_, rfl, hreads', hrest⟩
  rw [performUdpAssociate, hauth]
  show (sendCommand inet s₁ 0x03 "0.0.0.0".toList 0 >>= _) = _
  rw [hcommand]
  rfl

-- ----
-- The tunnel

theorem receives_chunk {t t' : BufferedPrefixTransport} {chunk : Bytes} (hne : chunk ≠ [])
    (h : t.receive = (some chunk, t')) (n : Nat) :
    receives (n + 1) t = some chunk :: receives n t' := by
  rw [receives, receiveRaw, h]
  simp [hne]

theorem receives_reads {reads : List Bytes} (hreads : ∀ chunk ∈ reads, chunk ≠ []) (n : Nat) :
    receives n ⟨none, reads⟩ = (reads.map some ++ List.replicate n none).take n := by
  induction n generalizing reads with
  | zero => simp [receives]
  | succ n ih =>
    rcases reads with _ | ⟨chunk, reads⟩
    · rw [receives]
      show none :: receives n ⟨none, []⟩ = _
      rw [ih hreads]
      simp [replicate_succ]
    · rw [receives_chunk (hreads chunk (by simp)) rfl, ih fun c hc => hreads c (by simp [hc])]
      simp [take_append, replicate_succ']

/-- What was left of the handshake comes first. -/
theorem receives_streamTransport (hreads : s.Reads) (n : Nat) :
    receives n (streamTransport s) =
      ((s.remaining.toList ++ s.reads).map some ++ List.replicate n none).take n := by
  unfold streamTransport Socks5Buffer.remaining
  split
  · exact receives_reads hreads n
  · rename_i hbuffer
    rcases n with _ | n
    · simp [receives]
    · rw [receives_chunk hbuffer rfl, receives_reads hreads]
      simp [take_append, replicate_succ']

/-- However the stream of the server is cut, the handshake succeeds, and what comes
out of the connection behind it is what the server sent behind its replies. -/
theorem handshake_consumes_replies (inet : Net.Inet) (destinationHost : Text)
    (destinationPort : Nat) (username password : Option Text) (bound : BoundAddress) (port : Nat)
    (tunnelled : Bytes) (chunks : List Bytes) (hne : ∀ chunk ∈ chunks, chunk ≠ [])
    (hchunks : chunks.flatten =
      authReplies (credentials username password) ++ (commandReply bound port ++ tunnelled)) :
    ∃ s, ∃ results : List Bytes,
      performConnect inet ⟨[], chunks, []⟩ destinationHost destinationPort username password =
        .ok s ∧
      results.flatten = tunnelled ∧ (∀ result ∈ results, result ≠ []) ∧
      ∀ n, receives n (streamTransport s) = (results.map some ++ List.replicate n none).take n := by
  obtain ⟨info, s₁, s, hauth, hcommand, hreads, hrest, -⟩ :=
    @sendCommand_stream ⟨[], chunks, []⟩ hne inet
    0x01 destinationHost destinationPort username password bound port tunnelled hchunks
  have hconnect : performConnect inet ⟨[], chunks, []⟩ destinationHost destinationPort
      username password =
      .ok s := by
    rw [performConnect, hauth]
    show (sendCommand inet s₁ 0x01 destinationHost destinationPort >>= _) = _
    rw [hcommand]
    rfl
  refine ⟨s, s.remaining.toList ++ s.reads, hconnect, ?_, ?_, receives_streamTransport hreads⟩
  · rw [← hrest, Socks5Buffer.stream, Socks5Buffer.remaining]
    by_cases hbuffer : s.buffer = []
    · simp [hbuffer]
    · simp [hbuffer]
  · intro result hmem
    rcases mem_append.1 hmem with hmem | hmem
    · unfold Socks5Buffer.remaining at hmem
      by_cases hbuffer : s.buffer = []
      · simp [hbuffer] at hmem
      · simp [hbuffer] at hmem
        rwa [hmem]
    · exact hreads result hmem

/-- A login, a bound domain and the first byte of the tunnel in three chunks. -/
theorem handshake_consumes_replies_cut :
    ([[5, 2, 1], [0, 5, 0, 0, 3, 2, 104], [105, 0, 80, 7]] : List Bytes).flatten =
      authReplies (credentials (some ['u']) (some ['p'])) ++
        (commandReply (.domain ⟨[104, 105], by decide⟩) 80 ++ [7]) ∧
    ∃ s, ∃ results : List Bytes,
      performConnect ⟨fun _ => none⟩ ⟨[], [[5, 2, 1], [0, 5, 0, 0, 3, 2, 104], [105, 0, 80, 7]], []⟩
        "example.com".toList 443 (some ['u']) (some ['p']) = .ok s ∧
      results.flatten = [7] ∧ (∀ result ∈ results, result ≠ []) ∧
      ∀ n, receives n (streamTransport s) = (results.map some ++ List.replicate n none).take n :=
  ⟨rfl, handshake_consumes_replies ⟨fun _ => none⟩ "example.com".toList 443
    (some ['u']) (some ['p']) (.domain ⟨[104, 105], by decide⟩) 80 [7] [[5, 2, 1],
    [0, 5, 0, 0, 3, 2, 104], [105, 0, 80, 7]] (by decide) rfl⟩

end Anywhere.Socks5
