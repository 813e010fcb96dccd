import Mathlib.Data.List.GetD
import Mathlib.Data.List.Infix
import Anywhere.Config
import Anywhere.Lib.ArrayReads
import Anywhere.Lib.Utf8

/-!
# Anywhere — the HTTP upgrade

`performUpgrade` reads until the header block of the response is complete; what stands
behind it in the same read is kept in the buffer for the first `receive`. Then the
connection passes bytes through.

* `upgrade_exact` — `receive` returns the bytes behind the block, however they are cut.
-/

namespace Anywhere.HttpUpgrade

open Lib Text List

-- ----
-- The model

/-- What the platform supplies: `String.lowercase`, which maps ASCII letters as one
expects, `String.equals` with `ignoreCase`, and the user agent of Chrome. -/
structure Platform where
  lowercase : Text → Text
  lowercase_ascii : ∀ text, (∀ c ∈ text, c.toNat < 128) → lowercase text = text.map Char.toLower
  equalsIgnoreCase : Text → Text → Bool
  chromeUserAgent : Text

/-- What `performUpgrade` throws: `HttpUpgradeError.UpgradeFailed`, or what an access
outside an array would. -/
inductive Failure
  | upgradeFailed (reason : Text)
  | outOfBounds

/-- The bytes of the buffer in use, what the transport has yet to return before null, and
what it has been given. -/
structure HttpUpgradeConnection where
  leftoverBuffer : Bytes := []
  leftoverLen : Nat := 0
  reads : List Bytes
  sent : List Bytes := []

def crlf : Bytes := [0x0D, 0x0A]

variable (platform : Platform)

/-- The request of `performUpgrade`. -/
def request (configuration : HttpUpgradeConfiguration) : Text :=
  let newline := "\r\n".toList
  "GET ".toList ++ configuration.path.toList ++ " HTTP/1.1".toList ++ newline ++
    "Host: ".toList ++ configuration.host.toList ++ newline ++
    "Connection: Upgrade".toList ++ newline ++ "Upgrade: websocket".toList ++ newline ++
    configuration.headers.flatMap (fun h => h.1.toList ++ ": ".toList ++ h.2.toList ++ newline) ++
    (if configuration.headers.any fun h =>
      platform.equalsIgnoreCase h.1.toList "User-Agent".toList then [] else "User-Agent: ".toList ++
      platform.chromeUserAgent ++ newline) ++ newline

/-- `System.arraycopy`. -/
def copied (src : Bytes) (dst : Bytes) (dstPos length : Nat) : Except Failure Bytes :=
  (arraycopy src 0 dst dstPos length).mapError fun _ => .outOfBounds

/-- The buffer with room for `size` more bytes. -/
def grown (c : HttpUpgradeConnection) (size : Nat) : Except Failure Bytes :=
  if c.leftoverLen + size > c.leftoverBuffer.length then
    let newSize := max (c.leftoverBuffer.length * 2) (c.leftoverLen + size)
    copied c.leftoverBuffer (List.replicate newSize 0) 0 c.leftoverLen
  else .ok c.leftoverBuffer

def appendToLeftover (c : HttpUpgradeConnection) (data : Bytes) :
    Except Failure HttpUpgradeConnection := do
  let buffer ← grown c data.length
  let buffer ← copied data buffer c.leftoverLen data.length
  .ok { c with leftoverBuffer := buffer, leftoverLen := c.leftoverLen + data.length }

/-- `findHeaderEnd`; null for -1. -/
def findHeaderEnd (buf : Bytes) (len : Nat) : Option Nat :=
  (List.range (len - 3)).find? fun i =>
    buf.getD i 0 == 0x0D && buf.getD (i + 1) 0 == 0x0A &&
      buf.getD (i + 2) 0 == 0x0D && buf.getD (i + 3) 0 == 0x0A

def hasField (key value line : Text) : Bool :=
  match splitLimit ':' 2 line with
  | [name, content] => platform.lowercase name.trim == key &&
      platform.lowercase content.trim == value
  | _ => false

/-- What `receiveUpgradeResponse` makes of the header block. -/
def checkHeader (headerData : Bytes) : Except Failure Unit :=
  let lines := splitLines (decodeUtf8 headerData)
  let statusLine := lines.headD []
  if ¬ "101".toList <:+: statusLine then
    .error (.upgradeFailed ("Expected HTTP 101, got: ".toList ++ statusLine))
  else if !(lines.drop 1).any (hasField platform "upgrade".toList "websocket".toList) ||
      !(lines.drop 1).any (hasField platform "connection".toList "upgrade".toList) then
    .error (.upgradeFailed "Missing Upgrade/Connection headers in 101 response".toList)
  else .ok ()

/-- `receiveUpgradeResponse` over the reads. -/
def receiveUpgradeResponse : List Bytes → HttpUpgradeConnection →
    Except Failure HttpUpgradeConnection
  | [], _ => .error (.upgradeFailed "Empty response from server".toList)
  | data :: reads, c =>
    if data = [] then .error (.upgradeFailed "Empty response from server".toList)
    else do
      let c ← appendToLeftover c data
      match findHeaderEnd c.leftoverBuffer c.leftoverLen with
      | none => receiveUpgradeResponse reads c
      | some headerEndIdx =>
        let bodyStart := headerEndIdx + 4
        let remainingLen := c.leftoverLen - bodyStart
        checkHeader platform (c.leftoverBuffer.take headerEndIdx)
        .ok { c with
          leftoverBuffer := if remainingLen > 0 then
            (c.leftoverBuffer.take c.leftoverLen).drop bodyStart else []
          leftoverLen := remainingLen
          reads := reads }

def performUpgrade (configuration : HttpUpgradeConfiguration) (c : HttpUpgradeConnection) :
    Except Failure HttpUpgradeConnection :=
  receiveUpgradeResponse platform c.reads
    { c with sent := c.sent ++ [(request platform configuration).flatMap String.utf8EncodeChar] }

/-- `receive`; null at the end of the stream. -/
def receive (c : HttpUpgradeConnection) : Option Bytes × HttpUpgradeConnection :=
  if c.leftoverLen > 0 then
    (some (c.leftoverBuffer.take c.leftoverLen), { c with leftoverBuffer := [], leftoverLen := 0 })
  else
    match c.reads with
    | [] => (none, c)
    | data :: reads => (if data = [] then none else some data, { c with reads := reads })

/-- The results of `n` calls of `receive`. -/
def receives : Nat → HttpUpgradeConnection → List (Option Bytes)
  | 0, _ => []
  | n + 1, c => (receive c).1 :: receives n (receive c).2

-- ----
-- The buffer

def held (c : HttpUpgradeConnection) : Bytes := c.leftoverBuffer.take c.leftoverLen

variable {c : HttpUpgradeConnection}

theorem grown_spec (h : c.leftoverLen ≤ c.leftoverBuffer.length)
    (size : Nat) :
    ∃ buffer, grown c size = .ok buffer ∧ buffer.take c.leftoverLen = held c ∧
      c.leftoverLen + size ≤ buffer.length := by
  unfold grown
  split
  · rename_i hfull
    unfold copied arraycopy
    dsimp only
    rw [if_pos ⟨by omega, by rw [length_replicate]; omega⟩]
    refine ⟨_, rfl, ?_, ?_⟩
    · rw [take_zero, nil_append, drop_zero]
      exact take_left' (length_take_of_le h)
    · simp only [length_append, length_take, length_drop, length_replicate]
      omega
  · exact ⟨_, rfl, rfl, by omega⟩

/-- `appendToLeftover` copies within its arrays, and what it is given stands behind what was
there. -/
theorem appendToLeftover_spec
    (h : c.leftoverLen ≤ c.leftoverBuffer.length)
    (data : Bytes) : ∃ c', appendToLeftover c data = .ok c' ∧ held c' = held c ++ data ∧
      c'.leftoverLen = c.leftoverLen + data.length ∧ c'.leftoverLen ≤ c'.leftoverBuffer.length := by
  obtain ⟨buffer, hgrown, hfront, hroom⟩ := grown_spec h data.length
  unfold appendToLeftover
  rw [hgrown, bind_ok, copied, arraycopy_all hroom]
  have hlength : (buffer.take c.leftoverLen ++ data).length = c.leftoverLen + data.length := by
    rw [length_append, length_take_of_le (by omega)]
  refine ⟨_, rfl, ?_, rfl, ?_⟩
  · rw [held, take_left' hlength, hfront]
  · rw [length_append, hlength]
    exact Nat.le_add_right _ _

-- ----
-- The end of the header block

theorem headerEnd_iff {buf : Bytes} {i : Nat} (h : i + 4 ≤ buf.length) :
    (buf.getD i 0 == 0x0D && buf.getD (i + 1) 0 == 0x0A &&
      buf.getD (i + 2) 0 == 0x0D && buf.getD (i + 3) 0 == 0x0A) = true ↔
    (buf.drop i).take 4 = crlf ++ crlf := by
  obtain ⟨a, b, c, d, rest, hdrop⟩ : ∃ a b c d rest, buf.drop i = a :: b :: c :: d :: rest := by
    have hlength : 4 ≤ (buf.drop i).length := by
      rw [length_drop]
      omega
    generalize buf.drop i = xs at hlength
    rcases xs with _ | ⟨a, _ | ⟨b, _ | ⟨c, _ | ⟨d, rest⟩⟩⟩⟩
    · exact absurd hlength (by decide)
    · exact absurd hlength (by simp)
    · exact absurd hlength (by simp)
    · exact absurd hlength (by simp)
    · exact ⟨a, b, c, d, rest, rfl⟩
  have hget : ∀ k, buf.getD (i + k) 0 = (a :: b :: c :: d :: rest).getD k 0 := fun k => by
    rw [← hdrop, List.getD_eq_getElem?_getD, List.getD_eq_getElem?_getD, List.getElem?_drop]
  rw [hdrop, hget 1, hget 2, hget 3, show buf.getD i 0 = a from hget 0]
  simp [crlf, and_assoc]

/-- The search in the part of a stream that has been read: it finds the first empty line
once it is there as a whole. -/
theorem findHeaderEnd_spec {buf stream : Bytes} {len headEnd : Nat} (hlen : len ≤ buf.length)
    (hread : buf.take len = stream.take len) (hend : (stream.drop headEnd).take 4 = crlf ++ crlf)
    (hfirst : ∀ i < headEnd, (stream.drop i).take 4 ≠ crlf ++ crlf) :
    findHeaderEnd buf len = if headEnd + 4 ≤ len then some headEnd else none := by
  have hat : ∀ i, i + 4 ≤ len → ((buf.drop i).take 4 = crlf ++ crlf ↔
      (stream.drop i).take 4 = crlf ++ crlf) := fun i hi => by
    have hsame : ∀ {xs : Bytes}, (xs.drop i).take 4 = ((xs.take len).drop i).take 4 := by
      intro xs
      rw [drop_take, take_take, Nat.min_eq_left (by omega)]
    rw [hsame, hread, ← hsame]
  unfold findHeaderEnd
  split
  · rename_i hwhole
    rw [List.find?_range_eq_some]
    refine ⟨(headerEnd_iff (by omega)).mpr ((hat _ hwhole).mpr hend), mem_range.mpr (by omega),
      ?_⟩
    intro j hj
    rw [Bool.not_eq_true', ← Bool.not_eq_true, headerEnd_iff (by omega), hat j (by omega)]
    exact hfirst j hj
  · rename_i hpart
    rw [List.find?_range_eq_none]
    intro i hi
    rw [Bool.not_eq_true', ← Bool.not_eq_true, headerEnd_iff (by omega), hat i (by omega)]
    exact hfirst i (by omega)

-- ----
-- Responses

/-- A text of characters below 0x80 as bytes. -/
def ascii (text : Text) : Bytes := text.map (UInt8.ofNat ·.toNat)

/-- A field line with this key and this value, in any case, with blanks around the value. -/
def IsField (key value : Text) (line : Bytes) : Prop :=
  ∃ name before content after : Text,
    line = ascii (name ++ ':' :: (before ++ content ++ after)) ∧
      name.map Char.toLower = key ∧ content.map Char.toLower = value ∧
      ∀ c ∈ before ++ after, c = ' ' ∨ c = '\t'

/-- A response with status 101 and the two fields that are asked for, and its header block
up to the empty line. -/
structure UpgradeResponse where
  version : Text
  reason : Bytes
  fields : List Bytes
  versionText : ∀ c ∈ version, ' ' < c ∧ c < '\x7F'
  upgrade : ∃ field ∈ fields, IsField "upgrade".toList "websocket".toList field
  connection : ∃ field ∈ fields, IsField "connection".toList "upgrade".toList field

namespace UpgradeResponse

def head (r : UpgradeResponse) : Bytes :=
  ascii (r.version ++ " 101".toList) ++ r.reason ++ r.fields.flatMap (crlf ++ ·)

/-- The block ends at its first empty line. -/
def Ends (r : UpgradeResponse) : Prop :=
  ∀ i < r.head.length, ((r.head ++ (crlf ++ crlf)).drop i).take 4 ≠ crlf ++ crlf

end UpgradeResponse

theorem decodeUtf8_asciiText {text : Text} (h : ∀ c ∈ text, c.toNat < 128) (more : Bytes) :
    decodeUtf8 (ascii text ++ more) = text ++ decodeUtf8 more := by
  have hbyte : ∀ c ∈ text, (UInt8.ofNat c.toNat).toNat = c.toNat := fun c hc => by
    rw [UInt8.toNat_ofNat']
    exact Nat.mod_eq_of_lt (Nat.lt_trans (h c hc) (by decide))
  rw [decodeUtf8_ascii, ascii, map_map]
  · congr 1
    conv_rhs => rw [← map_id text]
    refine map_congr_left fun c hc => ?_
    show Char.ofNat (UInt8.ofNat c.toNat).toNat = c
    rw [hbyte c hc, Char.ofNat_toNat]
  · intro b hb
    obtain ⟨c, hc, rfl⟩ := mem_map.mp hb
    rw [hbyte c hc]
    exact h c hc

theorem splitLines_crlf (front back : Bytes) :
    splitLines (decodeUtf8 (front ++ (crlf ++ back))) =
      splitLines (decodeUtf8 front) ++ splitLines (decodeUtf8 back) := by
  have hbreak : decodeUtf8 (front ++ (crlf ++ back)) =
      decodeUtf8 front ++ '\r' :: '\n' :: decodeUtf8 back := by
    rw [crlf, cons_append, decodeUtf8_append_ascii front (by decide), singleton_append,
      ← nil_append (0x0A :: back), decodeUtf8_append_ascii [] (by decide)]
    rfl
  rw [hbreak, splitLines_append]

/-- The lines of a header block: those of its first line, and those of its fields. -/
theorem splitLines_head (front : Bytes) (fields : List Bytes) :
    splitLines (decodeUtf8 (front ++ fields.flatMap (crlf ++ ·))) =
      splitLines (decodeUtf8 front) ++ fields.flatMap fun field =>
      splitLines (decodeUtf8 field) := by
  induction fields generalizing front with
  | nil => rw [flatMap_nil, flatMap_nil, append_nil, append_nil]
  | cons field fields ih =>
    rw [flatMap_cons, flatMap_cons, append_assoc, splitLines_crlf, ih]

/-- A character that becomes a small letter is no blank, no colon and no line break. -/
theorem letter_of_toLower {c : Char} (h : 'a' ≤ c.toLower ∧ c.toLower ≤ 'z') :
    c.toNat < 128 ∧ isWhitespace c = false ∧ c ≠ ':' ∧ c ≠ '\r' := by
  have hrange : 65 ≤ c.toNat ∧ c.toNat ≤ 122 ∧ c.toNat ≠ 58 := by
    unfold Char.toLower at h
    split at h
    · rename_i hupper
      have hlow : 65 ≤ c.toNat := UInt32.le_iff_toNat_le.mp hupper.1
      have hhigh : c.toNat ≤ 90 := UInt32.le_iff_toNat_le.mp hupper.2
      omega
    · have hlow : 97 ≤ c.toNat := UInt32.le_iff_toNat_le.mp h.1
      have hhigh : c.toNat ≤ 122 := UInt32.le_iff_toNat_le.mp h.2
      omega
  refine ⟨by omega, ?_, ?_, ?_⟩
  · simp [isWhitespace]
    omega
  · rintro rfl
    exact hrange.2.2 rfl
  · rintro rfl
    exact absurd hrange.1 (by decide)

def Small (text : Text) : Prop := text ≠ [] ∧ ∀ c ∈ text, 'a' ≤ c ∧ c ≤ 'z'

theorem forall_mem_of_all {P : Char → Prop} [DecidablePred P] {text : Text}
    (h : text.all (fun c => decide (P c)) = true) : ∀ c ∈ text, P c :=
  fun c hc => of_decide_eq_true (all_eq_true.mp h c hc)

theorem letter_of_small {text name : Text} (h : Small text) (hname : name.map Char.toLower = text) :
    name ≠ [] ∧ ∀ c ∈ name, c.toNat < 128 ∧ isWhitespace c = false ∧ c ≠ ':' ∧ c ≠ '\r' := by
  subst hname
  exact ⟨fun heq => h.1 (by rw [heq]; rfl),
    fun c hc => letter_of_toLower (h.2 _ (mem_map_of_mem hc))⟩

/-- A field line is one line, and `receiveUpgradeResponse` finds its key and its value. -/
theorem hasField_of_isField {key value : Text} {line : Bytes} (h : IsField key value line)
    (hkey : Small key) (hvalue : Small value) :
    ∃ text, splitLines (decodeUtf8 line) = [text] ∧ hasField platform key value text = true := by
  obtain ⟨name, before, content, after, rfl, hname, hcontent, hblank⟩ := h
  obtain ⟨hnameNe, hnameLetters⟩ := letter_of_small hkey hname
  obtain ⟨hcontentNe, hcontentLetters⟩ := letter_of_small hvalue hcontent
  have hblank' : ∀ c ∈ before ++ after, c.toNat < 128 ∧ isWhitespace c = true ∧ c ≠ '\r' := by
    intro c hc
    rcases hblank c hc with rfl | rfl <;> decide
  have hall : ∀ c ∈ name ++ ':' :: (before ++ content ++ after), c.toNat < 128 ∧ c ≠ '\r' := by
    simp only [mem_append, mem_cons]
    rintro c (hc | rfl | (hc | hc) | hc)
    · exact ⟨(hnameLetters c hc).1, (hnameLetters c hc).2.2.2⟩
    · decide
    · have := hblank' c (mem_append_left _ hc)
      exact ⟨this.1, this.2.2⟩
    · exact ⟨(hcontentLetters c hc).1, (hcontentLetters c hc).2.2.2⟩
    · have := hblank' c (mem_append_right _ hc)
      exact ⟨this.1, this.2.2⟩
  have hdecode := decodeUtf8_asciiText (fun c hc => (hall c hc).1) []
  rw [append_nil, show decodeUtf8 [] = [] from rfl, append_nil] at hdecode
  refine ⟨name ++ ':' :: (before ++ content ++ after), ?_, ?_⟩
  · rw [hdecode]
    have hline := splitLines_front (s := []) (fun hmem => (hall _ hmem).2 rfl) rfl
    rwa [append_nil] at hline
  · have hsplit : splitLimit ':' 2 (name ++ ':' :: (before ++ content ++ after)) =
        [name, before ++ content ++ after] :=
      splitLimit_two.2 ⟨rfl, fun hmem => (hnameLetters _ hmem).2.2.1 rfl⟩
    have hcontentTrim : trim (before ++ content ++ after) = content :=
      trim_padded (fun c hc => (hblank' c (mem_append_left _ hc)).2.1)
        (fun c hc => (hblank' c (mem_append_right _ hc)).2.1)
        (fun c hc => (hcontentLetters c hc).2.1) hcontentNe
    unfold hasField
    rw [hsplit]
    dsimp only
    rw [trim_of_none fun c hc => (hnameLetters c hc).2.1, hcontentTrim,
      platform.lowercase_ascii name fun c hc => (hnameLetters c hc).1,
      platform.lowercase_ascii content fun c hc => (hcontentLetters c hc).1, hname, hcontent]
    simp

theorem checkHeader_head (r : UpgradeResponse) : checkHeader platform r.head = .ok () := by
  have hversion : ∀ c ∈ r.version ++ " 101".toList, c.toNat < 128 ∧ c ≠ '\r' := by
    intro c hc
    rcases mem_append.mp hc with hc | hc
    · obtain ⟨hlow, hhigh⟩ := r.versionText c hc
      have hlow : 32 < c.toNat := UInt32.lt_iff_toNat_lt.mp hlow
      have hhigh : c.toNat < 127 := UInt32.lt_iff_toNat_lt.mp hhigh
      refine ⟨by omega, ?_⟩
      rintro rfl
      exact absurd hlow (by decide)
    · exact forall_mem_of_all (P := fun c => c.toNat < 128 ∧ c ≠ '\r') (by decide) c hc
  obtain ⟨line, lines, hreason⟩ :
    ∃ line lines, splitLines (decodeUtf8 r.reason) = line :: lines := by
    cases h : splitLines (decodeUtf8 r.reason) with
    | nil => exact absurd h (splitLines_ne_nil _)
    | cons line lines => exact ⟨line, lines, rfl⟩
  have hlines : splitLines (decodeUtf8 r.head) = (r.version ++ " 101".toList ++ line) :: (lines ++
      r.fields.flatMap fun field => splitLines (decodeUtf8 field)) := by
    rw [UpgradeResponse.head, splitLines_head, decodeUtf8_asciiText fun c hc => (hversion c hc).1,
      splitLines_front (fun hmem => (hversion _ hmem).2 rfl) hreason]
    rfl
  have hfield : ∀ {key value : Text}, (∃ field ∈ r.fields, IsField key value field) → Small key →
      Small value → (lines ++ r.fields.flatMap fun field => splitLines (decodeUtf8 field)).any
        (hasField platform key value) = true := by
    rintro key value ⟨field, hmem, hfield⟩ hkey hvalue
    obtain ⟨text, htext, hhas⟩ := hasField_of_isField platform hfield hkey hvalue
    refine any_eq_true.mpr ⟨text, mem_append_right _ ?_, hhas⟩
    exact mem_flatMap.mpr ⟨field, hmem, by rw [htext]; exact mem_singleton_self _⟩
  unfold checkHeader
  dsimp only
  rw [hlines, headD_cons, drop_one, tail_cons,
    hfield r.upgrade ⟨by decide, forall_mem_of_all (by decide)⟩
      ⟨by decide, forall_mem_of_all (by decide)⟩,
    hfield r.connection ⟨by decide, forall_mem_of_all (by decide)⟩
      ⟨by decide, forall_mem_of_all (by decide)⟩, if_neg, if_neg (by decide)]
  exact not_not.mpr ⟨r.version ++ [' '], line, by simp⟩

-- ----
-- The reads

/-- **The reads up to the end of the header block.** What has come of the bytes behind it is
in the buffer, and what has not is still to be read. -/
theorem receiveUpgradeResponse_spec {r : UpgradeResponse} (hr : r.Ends) {tunnel : Bytes}
    {reads : List Bytes} (hreads : ∀ data ∈ reads, data ≠ [])
    (hroom : c.leftoverLen ≤ c.leftoverBuffer.length)
    (hstream : held c ++ reads.flatten = r.head ++ (crlf ++ crlf) ++ tunnel)
    (hpart : c.leftoverLen < r.head.length + 4) :
    ∃ c', receiveUpgradeResponse platform reads c = .ok c' ∧ held c' ++ c'.reads.flatten = tunnel ∧
      ∀ data ∈ c'.reads, data ≠ [] := by
  have hend : ((r.head ++ (crlf ++ crlf) ++ tunnel).drop r.head.length).take 4 = crlf ++ crlf := by
    rw [append_assoc, drop_left]
    rfl
  have hfirst : ∀ i < r.head.length,
      ((r.head ++ (crlf ++ crlf) ++ tunnel).drop i).take 4 ≠ crlf ++ crlf := by
    intro i hi
    have hblock : (r.head ++ (crlf ++ crlf)).length = r.head.length + 4 := length_append
    rw [drop_append_of_le_length (by omega),
      take_append_of_le_length (by rw [length_drop]; omega)]
    exact hr i hi
  induction reads generalizing c with
  | nil =>
    have hlength := congrArg List.length hstream
    rw [flatten_nil, append_nil, held, length_take_of_le hroom, length_append,
      length_append] at hlength
    have : (crlf ++ crlf).length = 4 := rfl
    omega
  | cons data reads ih =>
    obtain ⟨c', happend, hheld, hlen, hroom'⟩ := appendToLeftover_spec hroom data
    have hstream' : held c' ++ reads.flatten = r.head ++ (crlf ++ crlf) ++ tunnel := by
      rw [hheld, append_assoc, ← flatten_cons]
      exact hstream
    have hread : c'.leftoverBuffer.take c'.leftoverLen =
        (r.head ++ (crlf ++ crlf) ++ tunnel).take c'.leftoverLen := by
      rw [← hstream']
      exact (take_left' (length_take_of_le hroom')).symm
    have hfind := findHeaderEnd_spec hroom' hread hend hfirst
    have hreads' : ∀ data ∈ reads, data ≠ [] := fun d hd => hreads d (mem_cons_of_mem _ hd)
    rw [receiveUpgradeResponse, if_neg (hreads data mem_cons_self), happend, bind_ok, hfind]
    by_cases hwhole : r.head.length + 4 ≤ c'.leftoverLen
    · -- the block is there: what is behind it stays in the buffer
      have hheadEnd : c'.leftoverBuffer.take r.head.length = r.head := by
        have := congrArg (List.take r.head.length) hread
        rwa [take_take, take_take, Nat.min_eq_left (by omega), append_assoc,
          take_left] at this
      have hbehind : (held c').drop (r.head.length + 4) ++ reads.flatten = tunnel := by
        have := congrArg (List.drop (r.head.length + 4)) hstream'
        rwa [drop_append_of_le_length
            (by rw [held, length_take_of_le hroom']; exact hwhole),
          drop_left' (by rw [length_append]; rfl)] at this
      rw [if_pos hwhole]
      dsimp only
      rw [hheadEnd, checkHeader_head, bind_ok]
      have hlength : ((held c').drop (r.head.length + 4)).length =
          c'.leftoverLen - (r.head.length + 4) := by
        rw [length_drop, held, length_take_of_le hroom']
      split
      · refine ⟨_, rfl, ?_, hreads'⟩
        show ((held c').drop (r.head.length + 4)).take _ ++ reads.flatten = tunnel
        rw [take_of_length_le (Nat.le_of_eq hlength)]
        exact hbehind
      · refine ⟨_, rfl, ?_, hreads'⟩
        rw [eq_nil_of_length_eq_zero (hlength.trans (by omega))] at hbehind
        rwa [held, take_nil]
    · rw [if_neg hwhole]
      exact ih hreads' hroom' hstream' (by omega)

/-- The calls of `receive` when nothing is kept: the reads, and null behind them. -/
theorem receives_reads (n : Nat) {c : HttpUpgradeConnection} (hnone : c.leftoverLen = 0)
    (hreads : ∀ data ∈ c.reads, data ≠ []) : receives n c = (List.range n).map (c.reads[·]?) := by
  induction n generalizing c with
  | zero => rfl
  | succ n ih =>
    rw [receives, range_succ_eq_map, map_cons, map_map, receive, if_neg (by omega)]
    rcases hcases : c.reads with _ | ⟨data, reads⟩ <;> dsimp only
    · rw [ih hnone hreads, hcases]
      rfl
    · rw [hcases] at hreads
      have hrest := @ih { c with reads :=
        reads } hnone fun d hd => hreads d (mem_cons_of_mem _ hd)
      rw [if_neg (hreads data mem_cons_self), hrest]
      rfl

/-- The calls of `receive`: what is kept, then the reads. -/
theorem receives_held (hreads : ∀ data ∈ c.reads, data ≠ []) :
    ∃ results : List Bytes, results.flatten = held c ++ c.reads.flatten ∧
      ∀ n, receives n c = (List.range n).map (results[·]?) := by
  by_cases hkept : c.leftoverLen > 0
  · refine ⟨held c :: c.reads, rfl, fun n => ?_⟩
    cases n with
    | zero => rfl
    | succ n =>
      rw [receives, range_succ_eq_map, map_cons, map_map, receive, if_pos hkept]
      have hrest := @receives_reads n { c with leftoverBuffer := [], leftoverLen := 0 } rfl hreads
      dsimp only
      rw [hrest]
      rfl
  · have hnone : c.leftoverLen = 0 := by omega
    refine ⟨c.reads, ?_, fun n => receives_reads n hnone hreads⟩
    rw [held, hnone, take_zero, nil_append]

/-- **The upgrade consumes exactly the response header.** The server answers with status 101
and the two fields, and the transport returns the answer and the bytes behind its header
block in reads that are not empty. `performUpgrade` succeeds, and the calls of `receive`
return the bytes behind the block in order and as a whole, and null behind them. -/
theorem upgrade_exact (r : UpgradeResponse) (hr : r.Ends) (configuration : HttpUpgradeConfiguration)
    {tunnel : Bytes} {reads : List Bytes} (hreads : ∀ data ∈ reads, data ≠ [])
    (hstream : reads.flatten = r.head ++ (crlf ++ crlf) ++ tunnel) :
    ∃ c, performUpgrade platform configuration { reads := reads } = .ok c ∧
      ∃ results : List Bytes, results.flatten = tunnel ∧
        ∀ n, receives n c = (List.range n).map (results[·]?) := by
  unfold performUpgrade
  obtain ⟨c, hc, hrest, hne⟩ := receiveUpgradeResponse_spec platform hr
    (c := { reads := reads, sent :=
      [] ++ [(request platform configuration).flatMap String.utf8EncodeChar] })
    hreads (Nat.le_refl 0) hstream (Nat.succ_pos _)
  obtain ⟨results, hflatten, hresults⟩ := receives_held hne
  exact ⟨c, hc, results, hflatten.trans hrest, hresults⟩

def asciiPlatform : Platform where
  lowercase := List.map Char.toLower
  lowercase_ascii _ _ := rfl
  equalsIgnoreCase a b := a.map Char.toLower == b.map Char.toLower
  chromeUserAgent := "Mozilla/5.0".toList

def switching : UpgradeResponse where
  version := "HTTP/1.1".toList
  reason := ascii " Switching Protocols".toList
  fields := [ascii "Server: x".toList, ascii "upgrade: WebSocket ".toList,
      ascii "Connection:Upgrade".toList]
  versionText := forall_mem_of_all (by decide)
  upgrade := ⟨_, by simp, "upgrade".toList, [' '], "WebSocket".toList, [' '], rfl, by decide,
      by decide, forall_mem_of_all (by decide)⟩
  connection := ⟨_, by simp, "Connection".toList, [], "Upgrade".toList, [], rfl, by decide,
      by decide, forall_mem_of_all (by decide)⟩

/-- The answer is cut in the empty line, and data comes in the read that completes it. -/
theorem upgrade_exact_switching :
    ∃ c, performUpgrade asciiPlatform { host := "h" }
        { reads := [switching.head ++ [0x0D, 0x0A, 0x0D], [0x0A, 7], [8, 9]] } = .ok c ∧
      ∃ results : List Bytes, results.flatten = [7, 8, 9] ∧
        ∀ n, receives n c = (List.range n).map (results[·]?) :=
  upgrade_exact asciiPlatform switching (by unfold UpgradeResponse.Ends; decide) { host :=
  "h" }
    (by decide) (by simp [crlf])

end Anywhere.HttpUpgrade
