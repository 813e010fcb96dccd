import Anywhere.HttpUpgrade.Connection

/-!
# Anywhere — the tunnel of a Naive proxy over HTTP/1.1

`openTunnel` asks for a CONNECT and reads until the header block of the response is complete. A
read that holds more than the block is refused; what is read afterwards is the tunnel.

* `openTunnel_iff` — the responses to which the tunnel opens, as they are cut into reads.
-/

namespace Anywhere.Naive.Http11

open Lib Text HttpUpgrade List

-- ----
-- The model

/-- What the transport has yet to return before null, and what it has been given. -/
structure Http11Connection where
  reads : List Bytes
  sent : List Bytes := []
  connected : Bool := false

def USER_AGENT : Text :=
  ("Mozilla/5.0 (Linux; Android 14; Pixel 8) AppleWebKit/537.36 (KHTML, like Gecko) " ++
    "Chrome/131.0.0.0 Mobile Safari/537.36").toList

/-- The request of `sendConnectRequest`. -/
def connectRequest (destination : Text) (basicAuth : Option Text) : Text :=
  let newline := "\r\n".toList
  "CONNECT ".toList ++ destination ++ " HTTP/1.1".toList ++ newline ++
    "Host: ".toList ++ destination ++ newline ++ "Proxy-Connection: keep-alive".toList ++ newline ++
    "User-Agent: ".toList ++ USER_AGENT ++ newline ++
    basicAuth.elim [] (fun auth => "Proxy-Authorization: Basic ".toList ++ auth ++ newline) ++
      newline

/-- `NaiveTlsError.ConnectionFailed`. -/
def connectionFailed (msg : Text) : Text := "Naive TLS connection failed: ".toList ++ msg

def statusLine (headerData : Bytes) : Text :=
  (decodeUtf8 headerData).takeWhile fun c => c ≠ '\r' ∧ c ≠ '\n'

/-- What `receiveConnectResponse` makes of the status line. -/
def checkStatus (statusLine : Text) : Except Text Unit :=
  match splitLimit ' ' 3 statusLine with
  | version :: statusCode :: _ =>
    if ¬ "HTTP/1.".toList <+: version then
      .error (connectionFailed "Invalid HTTP version in CONNECT response".toList)
    else if statusCode ≠ "200".toList then
      if statusCode = "407".toList then
        .error (connectionFailed "Proxy authentication required (407)".toList)
      else .error (connectionFailed ("CONNECT failed with status ".toList ++ statusCode))
    else .ok ()
  | _ => .error (connectionFailed "Malformed CONNECT status line".toList)

/-- `receiveConnectResponse` over the reads; what is left of them. -/
def receiveConnectResponse : List Bytes → Bytes → Except Text (List Bytes)
  | [], _ => .error (connectionFailed "Connection closed during CONNECT".toList)
  | data :: reads, accumulated =>
    if data = [] then .error (connectionFailed "Connection closed during CONNECT".toList)
    else
      match findHeaderEnd (accumulated ++ data) (accumulated ++ data).length with
      | none => receiveConnectResponse reads (accumulated ++ data)
      | some headerEnd => do
        checkStatus (statusLine ((accumulated ++ data).take headerEnd))
        if headerEnd + 4 < (accumulated ++ data).length then
          .error (connectionFailed "Proxy sent extraneous data after CONNECT response".toList)
        else .ok reads

/-- `openTunnel` behind `transport.connect`. -/
def openTunnel (destination : Text) (basicAuth : Option Text) (c : Http11Connection) :
    Except Text Http11Connection := do
  let reads ← receiveConnectResponse c.reads []
  .ok ⟨reads, c.sent ++ [(connectRequest destination basicAuth).flatMap String.utf8EncodeChar],
    true⟩

-- ----
-- The status line

/-- HTTP/1, the status 200, and a reason or none. -/
def Success (line : Text) : Prop :=
  ∃ minor, ' ' ∉ minor ∧
    (line = "HTTP/1.".toList ++ minor ++ ' ' :: "200".toList ∨
      ∃ reason, line = "HTTP/1.".toList ++ minor ++ ' ' :: ("200".toList ++ ' ' :: reason))

theorem splitLimit_three {version rest : Text} (h : ' ' ∉ version) :
    splitLimit ' ' 3 (version ++ ' ' :: rest) = version :: splitLimit ' ' 2 rest := by
  rw [splitLimit, cut_eq_some.2 ⟨rfl, h⟩]

theorem splitLimit_code {code reason : Text} (h : ' ' ∉ code) :
    splitLimit ' ' 2 code = [code] ∧ splitLimit ' ' 2 (code ++ ' ' :: reason) = [code, reason] := by
  constructor
  · rw [splitLimit, cut_notMem h]
  · exact splitLimit_two.2 ⟨rfl, h⟩

theorem checkStatus_version {version code : Text} {more : List Text} {line : Text}
    (h : splitLimit ' ' 3 line = version :: code :: more) :
    checkStatus line = .ok () ↔ "HTTP/1.".toList <+: version ∧ code = "200".toList := by
  rw [checkStatus, h]
  dsimp only
  by_cases hversion : "HTTP/1.".toList <+: version
  · rw [if_neg (not_not.mpr hversion)]
    by_cases hcode : code = "200".toList
    · rw [if_neg (not_not.mpr hcode)]
      exact ⟨fun _ => ⟨hversion, hcode⟩, fun _ => rfl⟩
    · rw [if_pos hcode]
      refine ⟨fun h => ?_, fun h => absurd h.2 hcode⟩
      split at h
      · cases h
      · cases h
  · rw [if_pos hversion]
    exact ⟨fun h => absurd h (by simp), fun h => absurd h.1 hversion⟩

/-- The status line is accepted if and only if it is that of a success. -/
theorem checkStatus_iff (line : Text) : checkStatus line = .ok () ↔ Success line := by
  have hnone : ' ' ∉ "HTTP/1.".toList ∧ ' ' ∉ "200".toList := by decide
  constructor
  · intro h
    by_cases hspace : ' ' ∈ line
    · obtain ⟨version, rest, rfl, hversion⟩ := eq_append_cons_of_mem hspace
      by_cases hmore : ' ' ∈ rest
      · obtain ⟨code, reason, rfl, hcode⟩ := eq_append_cons_of_mem hmore
        have hsplit := (splitLimit_three hversion).trans
          (congrArg (version :: ·) (@splitLimit_code code reason hcode).2)
        obtain ⟨⟨minor, rfl⟩, rfl⟩ := (checkStatus_version hsplit).mp h
        exact ⟨minor, fun hmem => hversion (mem_append_right _ hmem), .inr ⟨reason, by simp⟩⟩
      · have hsplit := (splitLimit_three hversion).trans
          (congrArg (version :: ·) (@splitLimit_code rest [] hmore).1)
        obtain ⟨⟨minor, rfl⟩, rfl⟩ := (checkStatus_version hsplit).mp h
        exact ⟨minor, fun hmem => hversion (mem_append_right _ hmem), .inl (by simp)⟩
    · rw [checkStatus, splitLimit, cut_notMem hspace] at h
      cases h
  · rintro ⟨minor, hminor, hline⟩
    have hversion : ' ' ∉ "HTTP/1.".toList ++ minor := by
      rw [mem_append, not_or]
      exact ⟨hnone.1, hminor⟩
    rcases hline with rfl | ⟨reason, rfl⟩
    · have hsplit := (@splitLimit_three _ "200".toList hversion).trans
        (congrArg (_ :: ·) (@splitLimit_code _ [] hnone.2).1)
      exact (checkStatus_version hsplit).mpr ⟨prefix_append _ _, rfl⟩
    · have hsplit := (@splitLimit_three _ ("200".toList ++ ' ' :: reason) hversion).trans
        (congrArg (_ :: ·) (@splitLimit_code _ reason hnone.2).2)
      exact (checkStatus_version hsplit).mpr ⟨prefix_append _ _, rfl⟩

-- ----
-- The header block

/-- The first empty line behind it is the one that ends it. -/
def Block (head : Bytes) : Prop :=
  ∀ i < head.length, ((head ++ (crlf ++ crlf)).drop i).take 4 ≠ crlf ++ crlf

/-- What is found in what has been read of a block. -/
theorem findHeaderEnd_part {head bytes rest : Bytes} (hblock : Block head)
    (h : bytes ++ rest = head ++ (crlf ++ crlf)) :
    findHeaderEnd bytes bytes.length = if head.length + 4 ≤ bytes.length then some head.length
      else none := by
  refine @findHeaderEnd_spec bytes (head ++ (crlf ++ crlf)) bytes.length head.length
    (Nat.le_refl _) ?_ ?_ hblock
  · rw [← h, take_left, take_length]
  · rw [drop_left]
    rfl

/-- What is found is a block. -/
theorem block_of_find {bytes : Bytes} {i : Nat} (h : findHeaderEnd bytes bytes.length = some i) :
    Block (bytes.take i) ∧ i ≤ bytes.length ∧ (bytes.drop i).take 4 = crlf ++ crlf := by
  obtain ⟨hfound, hi, hfirst⟩ := List.find?_range_eq_some.mp h
  rw [mem_range] at hi
  have hend := (headerEnd_iff (by omega)).mp hfound
  refine ⟨fun j hj => ?_, by omega, hend⟩
  rw [length_take_of_le (by omega)] at hj
  have hsame : bytes.take i ++ (crlf ++ crlf) = bytes.take (i + 4) := by
    rw [← hend, take_add]
  have hnot := hfirst j hj
  rw [Bool.not_eq_true', ← Bool.not_eq_true, headerEnd_iff (by omega)] at hnot
  rw [hsame, drop_take, take_take, Nat.min_eq_left (by omega)]
  exact hnot

-- ----
-- The reads

/-- Behind what is there, the reads complete the block of a success, and hold nothing else. -/
def Opening (accumulated : Bytes) (before : List Bytes) : Prop :=
  ∃ head, Block head ∧ Success (statusLine head) ∧ (∀ data ∈ before, data ≠ []) ∧
    accumulated ++ before.flatten = head ++ (crlf ++ crlf)

variable {accumulated data : Bytes} {before reads rest : List Bytes}

theorem opening_cons (h : data ≠ []) :
    Opening accumulated (data :: before) ↔ Opening (accumulated ++ data) before := by
  simp only [Opening, forall_mem_cons, flatten_cons, append_assoc, h, ne_eq,
    not_false_eq_true, true_and]

theorem not_opening (h : findHeaderEnd accumulated accumulated.length = none) :
    ¬ Opening accumulated [] := by
  rintro ⟨head, hblock, -, -, hbytes⟩
  rw [findHeaderEnd_part hblock hbytes, if_pos] at h
  · cases h
  · rw [flatten_nil, append_nil] at hbytes
    rw [hbytes, length_append]
    rfl

/-- Once there is a block nothing may follow it. -/
theorem opening_found {headerEnd : Nat}
    (h : findHeaderEnd accumulated accumulated.length = some headerEnd) :
    Opening accumulated before ↔
      before = [] ∧ accumulated.length ≤ headerEnd + 4 ∧
        Success (statusLine (accumulated.take headerEnd)) := by
  obtain ⟨hblock, hle, hend⟩ := block_of_find h
  constructor
  · rintro ⟨head, hblock', hsuccess, hnonempty, hbytes⟩
    rw [findHeaderEnd_part hblock' hbytes] at h
    split_ifs at h with hwhole
    obtain rfl := Option.some.inj h
    have hlen : (accumulated ++ before.flatten).length = head.length + 4 := by
      rw [hbytes, length_append]
      rfl
    rw [length_append] at hlen
    have hhead : accumulated.take head.length = head := by
      rw [← take_append_of_le_length hle, hbytes, take_left]
    refine ⟨eq_nil_iff_forall_not_mem.mpr fun data hmem =>
      hnonempty data hmem ?_, by omega, by rwa [hhead]⟩
    exact flatten_eq_nil_iff.mp (length_eq_zero_iff.mp (by omega)) data hmem
  · rintro ⟨rfl, hlen, hsuccess⟩
    refine ⟨accumulated.take headerEnd, hblock, hsuccess, fun data hmem => absurd hmem not_mem_nil,
      ?_⟩
    have hlast : accumulated.drop headerEnd = crlf ++ crlf := by
      rw [← hend, take_of_length_le (by rw [length_drop]; omega)]
    rw [flatten_nil, append_nil, ← hlast, take_append_drop]

theorem receiveConnectResponse_iff (h : findHeaderEnd accumulated accumulated.length = none) :
    receiveConnectResponse reads accumulated = .ok rest ↔
      ∃ before, Opening accumulated before ∧ reads = before ++ rest := by
  induction reads generalizing accumulated with
  | nil =>
    constructor
    · intro hok
      cases hok
    · rintro ⟨before, hopening, hreads⟩
      obtain ⟨rfl, -⟩ := append_eq_nil_iff.mp hreads.symm
      exact absurd hopening (not_opening h)
  | cons data reads ih =>
    -- the first read belongs to the block
    have hfirst : (∃ before, Opening accumulated before ∧ data :: reads = before ++ rest) ↔
        data ≠ [] ∧ ∃ before, Opening (accumulated ++ data) before ∧ reads = before ++ rest := by
      constructor
      · rintro ⟨_ | ⟨first, before⟩, hopening, hreads⟩
        · exact absurd hopening (not_opening h)
        · rw [cons_append] at hreads
          obtain ⟨rfl, htail⟩ := cons.inj hreads
          have hdata : data ≠ [] := by
            obtain ⟨_, -, -, hnonempty, -⟩ := hopening
            exact hnonempty data mem_cons_self
          exact ⟨hdata, before, (opening_cons hdata).mp hopening, htail⟩
      · rintro ⟨hdata, before, hopening, rfl⟩
        exact ⟨data :: before, (opening_cons hdata).mpr hopening, rfl⟩
    rw [receiveConnectResponse, hfirst]
    by_cases hdata : data = []
    · rw [if_pos hdata]
      exact ⟨fun hok => absurd hok (by simp), fun hright => absurd hdata hright.1⟩
    · rw [if_neg hdata]
      rcases hfind : findHeaderEnd (accumulated ++ data) (accumulated ++ data).length with _ |
        headerEnd
      · dsimp only
        rw [ih hfind]
        exact (and_iff_right hdata).symm
      · dsimp only
        rw [and_iff_right hdata]
        simp only [opening_found hfind]
        rcases hcheck : checkStatus (statusLine ((accumulated ++ data).take headerEnd))
          with message | u
        · constructor
          · intro hok
            cases (show (Except.error message : Except Text (List Bytes)) = .ok rest from hok)
          · rintro ⟨before, ⟨-, -, hsuccess⟩, -⟩
            rw [← checkStatus_iff, hcheck] at hsuccess
            cases hsuccess
        · have hsuccess := (checkStatus_iff _).mp hcheck
          rw [bind_ok]
          by_cases hlen : headerEnd + 4 < (accumulated ++ data).length
          · rw [if_pos hlen]
            constructor
            · intro hok
              cases hok
            · rintro ⟨before, ⟨-, hle, -⟩, -⟩
              exact absurd hle (Nat.not_le.mpr hlen)
          · rw [if_neg hlen]
            constructor
            · intro hok
              exact ⟨[], ⟨rfl, Nat.not_lt.mp hlen, hsuccess⟩, Except.ok.inj hok⟩
            · rintro ⟨before, ⟨rfl, -, -⟩, hreads⟩
              exact congrArg Except.ok hreads

/-- The tunnel opens if and only if the reads from the first on are the header block of a success,
and the last of them ends with it. It is told the proxy is connected, the request is all that was
sent, and every later read is left. -/
theorem openTunnel_iff (destination : Text) (basicAuth : Option Text) (c c' : Http11Connection) :
    openTunnel destination basicAuth c = .ok c' ↔
      ∃ before, Opening [] before ∧ c.reads = before ++ c'.reads ∧ c'.connected = true ∧
        c'.sent = c.sent ++
          [(connectRequest destination basicAuth).flatMap String.utf8EncodeChar] := by
  have hreceive := fun rest => @receiveConnectResponse_iff [] c.reads rest rfl
  rw [openTunnel]
  rcases hresult : receiveConnectResponse c.reads [] with message | rest
  · constructor
    · intro hok
      cases (show (Except.error message : Except Text Http11Connection) = .ok c' from hok)
    · rintro ⟨before, hopening, hreads, -, -⟩
      cases hresult.symm.trans ((hreceive _).mpr ⟨before, hopening, hreads⟩)
  · rw [bind_ok]
    constructor
    · intro hok
      obtain ⟨before, hopening, hreads⟩ := (hreceive rest).mp hresult
      cases hok
      exact ⟨before, hopening, hreads, rfl, rfl⟩
    · rintro ⟨before, hopening, hreads, hconnected, hsent⟩
      have hrest := hresult.symm.trans ((hreceive _).mpr ⟨before, hopening, hreads⟩)
      obtain ⟨reads, sent, connected⟩ := c'
      obtain rfl := Except.ok.inj hrest
      obtain rfl := hsent
      obtain rfl := hconnected
      rfl

end Anywhere.Naive.Http11
