import Mathlib.Logic.Function.Basic
import Anywhere.Link.Configuration
import Mathlib.Tactic.IntervalCases

/-!
# Anywhere — the parts of a share link

What the links of all protocols are put together from: percent-coded texts, a server with its
port, a query, and the name in the fragment. What throws is an `Except`.
-/

namespace Anywhere.Link

open Lib PercentCoding List

/-- `ProxyError.InvalidUrl`, and the `IllegalArgumentException` of a decoder. -/
inductive LinkError
  | invalidUrl (message : String)
  | illegalArgument
  deriving DecidableEq

-- ----
-- Schemes

def vlessScheme : Text := "vless://".toList

def trojanScheme : Text := "trojan://".toList

def ssScheme : Text := "ss://".toList

def socks5Scheme : Text := "socks5://".toList

def socksScheme : Text := "socks://".toList

def naiveScheme : Text := "https://".toList

-- ----
-- Texts

/-- `URLEncoder.encode(value, "UTF-8").replace("+", "%20")`. -/
def urlEncode (value : Text) : Text :=
  (formEncode value).flatMap fun c => if c = '+' then ['%', '2', '0'] else [c]

/-- `URLDecoder.decode(s.replace("+", "%2B"), "UTF-8")`. -/
def percentDecode (s : Text) : Except LinkError Text :=
  match formDecode (s.flatMap fun c => if c = '+' then ['%', '2', 'B'] else [c]) with
  | some text => .ok text
  | none => .error .illegalArgument

/-- The name behind the last `#`, and what stands before it. -/
def cutFragment (remaining : Text) : Except LinkError (Option Text × Text) :=
  match Text.cutLast '#' remaining with
  | some (before, fragment) => do
    let fragmentName ← percentDecode fragment
    return (some fragmentName, before)
  | none => .ok (none, remaining)

@[simp] theorem ok_bind {α β : Type} (a : α) (f : α → Except LinkError β) :
    (Except.ok a >>= f) = f a := rfl

/-- `removePrefix(prefix)`. -/
def removePrefix (front s : Text) : Text := if front.isPrefixOf s then s.drop front.length else s

theorem removePrefix_append (front s : Text) : removePrefix front (front ++ s) = s := by
  rw [removePrefix, if_pos ( isPrefixOf_iff_prefix.mpr (prefix_append front s)),
    drop_left]

/-- What stands before the first separator, or all of it. -/
def substringBefore (sep : Char) (s : Text) : Text := (Text.cut sep s).1

variable {s host query : Text} {sep : Char}

theorem substringBefore_of_notMem (h : sep ∉ s) :
    substringBefore sep s = s := by
  rw [substringBefore, Text.cut_notMem h]

theorem substringBefore_append {a : Text} (h : sep ∉ a) (b : Text) :
    substringBefore sep (a ++ sep :: b) = a := by
  rw [substringBefore, Text.cut_eq_some.mpr ⟨rfl, h⟩]

-- ----
-- Server and query

def bracketedServerAddress (serverAddress : Text) : Text :=
  if ':' ∈ serverAddress then '[' :: (serverAddress ++ [']']) else serverAddress

/-- `"$bracketedServerAddress:$serverPort"`. -/
def serverPart (serverAddress : Text) (serverPort : UInt16) : Text :=
  bracketedServerAddress serverAddress ++ ':' :: Nat.toDigits 10 serverPort.toNat

/-- The host and the port of `parseHostPort`, as texts. -/
def cutHostPort (hostPort : Text) : Except LinkError (Text × Text) :=
  if hostPort.head? = some '[' then
    match Text.cut ']' hostPort with
    | (_, none) => .error (.invalidUrl "Missing closing bracket for IPv6 address")
    | (front, some afterBracket) =>
      if afterBracket.head? ≠ some ':' then
        .error (.invalidUrl "Missing port after IPv6 address")
      else .ok (front.drop 1, afterBracket.drop 1)
  else
    match Text.cutLast ':' hostPort with
    | none => .error (.invalidUrl "Missing port in server address")
    | some parts => .ok parts

def parseHostPort (hostPort : Text) : Except LinkError (Text × UInt16) := do
  let (host, portString) ← cutHostPort hostPort
  match Text.toUnsignedOrNull 16 10 portString with
  | none => .error (.invalidUrl ("Invalid port: " ++ String.ofList portString))
  | some port => .ok (host, UInt16.ofNat port)

/-- `Map<String, String>`. -/
abbrev Params := Text → Option Text

/-- The loop of `parseQueryParams` over the parts of the query. -/
def addParam (params : Params) (param : Text) : Except LinkError Params :=
  match Text.splitLimit '=' 2 param with
  | [key, value] => do
    let value ← percentDecode value
    return Function.update params key (some value)
  | _ => .ok params

def parseQueryParams (queryString : Option Text) : Except LinkError Params :=
  match queryString with
  | none => .ok fun _ => none
  | some queryString => (queryString.splitOn '&').foldlM addParam fun _ => none

/-- `"$key=$value"`. -/
def param (key value : Text) : Text := key ++ '=' :: value

/-- `params.joinToString("&")` behind a question mark, if there are any. -/
def joinParams (params : List Text) : Text :=
  if params = [] then [] else '?' :: ['&'].intercalate params

-- ----
-- Reading back what was encoded

/-- A character of an encoded text. -/
def isCoded (c : Char) : Bool := c = '%' || isUnreserved c

theorem not_plus_of_coded {c : Char} (h : c = '%' ∨ isUnreserved c = true) : c ≠ '+' := by
  rintro rfl
  revert h
  decide

theorem urlEncode_eq (value : Text) : urlEncode value = value.flatMap fun c =>
    if isUnreserved c then [c] else (String.utf8EncodeChar c).flatMap escape := by
  have hsame : ∀ text : Text, (∀ c ∈ text, c = '%' ∨ isUnreserved c = true) →
      text.flatMap (fun c => if c = '+' then ['%', '2', '0'] else [c]) = text := by
    intro text h
    induction text with
    | nil => rfl
    | cons c text ih =>
      rw [flatMap_cons, if_neg (not_plus_of_coded (h c (by simp))),
        ih fun d hd => h d (by simp [hd])]
      rfl
  rw [urlEncode, formEncode, flatMap_assoc]
  congr 1
  funext c
  split_ifs with hunreserved hspace
  · exact hsame [c] (by simpa using .inr hunreserved)
  · rw [hspace]
    rfl
  · refine hsame _ fun d hd => ?_
    obtain ⟨b, -, hb⟩ := mem_flatMap.mp hd
    exact mem_escape hb

/-- A coded text has coded characters only. -/
theorem mem_urlEncode {value : Text} {c : Char} (h : c ∈ urlEncode value) : isCoded c = true := by
  rw [urlEncode_eq] at h
  obtain ⟨d, -, hd⟩ := mem_flatMap.mp h
  rw [isCoded, Bool.or_eq_true, decide_eq_true_eq]
  split_ifs at hd with hunreserved
  · rw [mem_singleton.mp hd]
    exact .inr hunreserved
  · obtain ⟨b, -, hb⟩ := mem_flatMap.mp hd
    exact mem_escape hb

theorem notMem_urlEncode (h : isCoded sep = false) (value : Text) :
    sep ∉ urlEncode value := by
  intro hmem
  rw [mem_urlEncode hmem] at h
  cases h

theorem formDecodeLoop_urlEncode (front value : Text) :
    formDecodeLoop (front.flatMap String.utf8EncodeChar) (urlEncode value) =
      some (front ++ value) := by
  rw [urlEncode_eq]
  induction value generalizing front with
  | nil =>
    rw [flatMap_nil, formDecodeLoop, decodeUtf8_encode, append_nil]
  | cons c value ih =>
    rw [flatMap_cons]
    split_ifs with hunreserved
    · have hescape : c ≠ '%' := by
        rintro rfl
        cases hunreserved
      rw [singleton_append, formDecodeLoop_char hescape, if_neg (not_plus_of_coded
        (.inr hunreserved)), decodeUtf8_encode]
      have hrest := ih []
      rw [flatMap_nil, nil_append] at hrest
      rw [hrest, Option.map_some]
    · have hrest := ih (front ++ [c])
      rw [flatMap_append, flatMap_singleton, append_assoc] at hrest
      rw [formDecodeLoop_escapes, hrest, singleton_append]

theorem percentDecode_urlEncode (value : Text) : percentDecode (urlEncode value) = .ok value := by
  have hplus : (urlEncode value).flatMap (fun c => if c = '+' then ['%', '2', 'B'] else [c]) =
      urlEncode value := by
    have hnot : '+' ∉ urlEncode value := notMem_urlEncode (by decide) value
    generalize urlEncode value = text at hnot
    induction text with
    | nil => rfl
    | cons c text ih =>
      rw [mem_cons, not_or] at hnot
      rw [flatMap_cons, if_neg (Ne.symm hnot.1), ih hnot.2]
      rfl
  have hdecode := formDecodeLoop_urlEncode [] value
  rw [flatMap_nil, nil_append] at hdecode
  rw [percentDecode, hplus, formDecode, hdecode]

theorem cutFragment_urlEncode (before name : Text) :
    cutFragment (before ++ '#' :: urlEncode name) = .ok (some name, before) := by
  rw [cutFragment, Text.cutLast_append (notMem_urlEncode (by decide) name)]
  simp only [percentDecode_urlEncode]
  rfl

-- ----
-- Reading back a server

/-- A host without the delimiters of a link, as every DNS name and every IP literal is. -/
def HostText (host : Text) : Prop := ∀ c ∈ host, c ∉ ['/', '?', '#', '@', '[', ']']

instance (host : Text) : Decidable (HostText host) :=
  List.decidableBAll (fun c => c ∉ ['/', '?', '#', '@', '[', ']']) host

theorem notMem_toDigits (h : sep ∈ ['/', '?', '#', '@', '[', ']', ':']) (n : Nat) :
    sep ∉ Nat.toDigits 10 n := by
  intro hmem
  obtain ⟨d, hd, heq⟩ := Text.digitChar_of_mem_toDigits (by norm_num) hmem
  simp only [mem_cons, not_mem_nil, or_false] at h
  rcases h with rfl | rfl | rfl | rfl | rfl | rfl | rfl <;> interval_cases d <;> cases heq

theorem notMem_serverPart (hhost : HostText host)
    (h : sep ∈ ['/', '?', '#', '@']) (port : UInt16) : sep ∉ serverPart host port := by
  have hdigits : sep ∈ ['/', '?', '#', '@', '[', ']', ':'] := mem_append_left ['[', ']', ':'] h
  have hdelimiter : sep ∈ ['/', '?', '#', '@', '[', ']'] := mem_append_left ['[', ']'] h
  have hopen : sep ≠ '[' := by rintro rfl; revert h; decide
  have hclose : sep ≠ ']' := by rintro rfl; revert h; decide
  have hcolon : sep ≠ ':' := by rintro rfl; revert h; decide
  have hnot : sep ∉ host := fun hmem => hhost sep hmem hdelimiter
  have hport := notMem_toDigits hdigits port.toNat
  rw [serverPart, bracketedServerAddress]
  split_ifs <;> simp [hnot, hport, hopen, hclose, hcolon]

theorem cutHostPort_serverPart (hhost : HostText host) (port : UInt16) :
    cutHostPort (serverPart host port) = .ok (host, Nat.toDigits 10 port.toNat) := by
  rw [serverPart, bracketedServerAddress]
  split_ifs with hcolon
  · have hclose : ']' ∉ '[' :: host := by
      rw [mem_cons, not_or]
      exact ⟨by decide, fun hmem => hhost _ hmem (by decide)⟩
    have hcut : Text.cut ']' ('[' :: (host ++ [']']) ++ ':' :: Nat.toDigits 10 port.toNat) =
        ('[' :: host, some (':' :: Nat.toDigits 10 port.toNat)) :=
      Text.cut_eq_some.mpr ⟨by simp, hclose⟩
    rw [cutHostPort, hcut]
    rfl
  · have hopen : (host ++ ':' :: Nat.toDigits 10 port.toNat).head? ≠ some '[' := by
      cases host with
      | nil => exact nofun
      | cons c host =>
        rintro ⟨⟩
        exact hhost '[' (by simp) (by decide)
    rw [cutHostPort, if_neg hopen, Text.cutLast_append (notMem_toDigits (by decide) _)]

theorem parseHostPort_serverPart (hhost : HostText host) (port : UInt16) :
    parseHostPort (serverPart host port) = .ok (host, port) := by
  have hport : Text.toUnsignedOrNull 16 10 (Nat.toDigits 10 port.toNat) = some port.toNat :=
    Text.toUnsignedOrNull_toDigits (by norm_num) (by norm_num) port.toNat_lt
  rw [parseHostPort, cutHostPort_serverPart hhost]
  show (match Text.toUnsignedOrNull 16 10 (Nat.toDigits 10 port.toNat) with
    | none => _
    | some port => _) = _
  rw [hport]
  simp only [UInt16.ofNat_toNat]

-- ----
-- Reading a query

theorem wellEscaped_hidePlus (h : wellEscaped s = true) :
    wellEscaped (s.flatMap fun c => if c = '+' then ['%', '2', 'B'] else [c]) = true := by
  fun_induction wellEscaped s with
  | case1 => rfl
  | case2 a b rest ih =>
    rw [Bool.and_eq_true, Bool.and_eq_true] at h
    have hplus : ∀ c, (hexValue c).isSome = true → c ≠ '+' := by
      rintro c hc rfl
      cases hc
    rw [flatMap_cons, if_neg (by decide), flatMap_cons, if_neg (hplus a h.1.1),
      flatMap_cons, if_neg (hplus b h.1.2), singleton_append, singleton_append,
      singleton_append, wellEscaped, h.1.1, h.1.2, ih h.2]
    rfl
  | case3 c rest hshort ih =>
    rw [Bool.and_eq_true, decide_eq_true_eq] at h
    rw [flatMap_cons]
    split_ifs
    · rw [cons_append, cons_append, singleton_append, wellEscaped, ih h.2]
      rfl
    · rw [singleton_append, wellEscaped_char h.1, ih h.2]

theorem percentDecode_isOk (h : wellEscaped s = true) :
    ∃ text, percentDecode s = .ok text := by
  have hsome :=
    formDecodeLoop_isSome [] (s.flatMap fun c => if c = '+' then ['%', '2', 'B'] else [c])
  rw [wellEscaped_hidePlus h, Option.isSome_iff_exists] at hsome
  obtain ⟨text, htext⟩ := hsome
  exact ⟨text, by rw [percentDecode, formDecode, htext]⟩

theorem wellEscaped_splitOn (h : wellEscaped query = true) :
    ∀ param ∈ query.splitOn '&', wellEscaped param = true := by
  induction hlen : query.length using Nat.strongRecOn generalizing query with
  | ind n ih =>
    by_cases hmem : '&' ∈ query
    · obtain ⟨a, b, rfl⟩ := append_of_mem hmem
      rw [wellEscaped_append (by decide) (by decide), Bool.and_eq_true] at h
      rw [splitOn_append_cons_self]
      rw [length_append, length_cons] at hlen
      intro param hparam
      rcases mem_append.mp hparam with hparam | hparam
      · exact ih a.length (by omega) h.1 rfl param hparam
      · exact ih b.length (by omega) h.2 rfl param hparam
    · rw [splitOn_eq_singleton hmem]
      simpa using h

/-- Every value of a query has well-formed escapes. -/
def Readable (query : Text) : Prop :=
  ∀ param ∈ query.splitOn '&', ∀ key value,
    Text.splitLimit '=' 2 param = [key, value] → wellEscaped value = true

/-- A query with well-formed escapes can be read. -/
theorem readable_of_wellEscaped (h : wellEscaped query = true) : Readable query := by
  intro param hparam key value hsplit
  obtain ⟨rfl, -⟩ := Text.splitLimit_two.mp hsplit
  have hboth := wellEscaped_splitOn h _ hparam
  rw [wellEscaped_append (by decide) (by decide), Bool.and_eq_true] at hboth
  exact hboth.2

theorem addParam_isOk {param : Text} (h : ∀ key value, Text.splitLimit '=' 2 param = [key, value] →
    wellEscaped value = true) (params : Params) :
    ∃ params', addParam params param = .ok params' := by
  rw [addParam]
  split
  · rename_i key value hsplit
    obtain ⟨text, htext⟩ := percentDecode_isOk (h key value hsplit)
    exact ⟨_, by rw [htext]; rfl⟩
  · exact ⟨_, rfl⟩

/-- A query can be read if its values have well-formed escapes. -/
theorem parseQueryParams_isOk (h : Readable query) :
    ∃ params, parseQueryParams (some query) = .ok params := by
  have hall : ∀ (parts : List Text) (params : Params), (∀ param ∈ parts, ∀ key value,
      Text.splitLimit '=' 2 param = [key, value] → wellEscaped value = true) →
      ∃ params', parts.foldlM addParam params = .ok params' := by
    intro parts
    induction parts with
    | nil => exact fun params _ => ⟨params, rfl⟩
    | cons param parts ih =>
      intro params hparts
      obtain ⟨first, hfirst⟩ := addParam_isOk (hparts param (by simp)) params
      obtain ⟨rest, hrest⟩ := ih first fun other hother => hparts other (by simp [hother])
      exact ⟨rest, by rw [foldlM_cons, hfirst]; exact hrest⟩
  exact hall _ _ h

-- ----
-- Writing a query

theorem wellEscaped_urlEncode (value : Text) : wellEscaped (urlEncode value) = true := by
  have hdecode : formDecodeLoop [] (urlEncode value) = some value :=
    formDecodeLoop_urlEncode [] value
  rw [← formDecodeLoop_isSome [], hdecode]
  rfl

theorem wellEscaped_param (key value : Text) :
    wellEscaped (param key value) = (wellEscaped key && wellEscaped value) :=
  wellEscaped_append (by decide) (by decide) key value

theorem readable_intercalate {params : List Text} (h : ∀ param ∈ params, Readable param) :
    Readable (['&'].intercalate params) := by
  induction params with
  | nil => exact readable_of_wellEscaped rfl
  | cons param params ih =>
    cases params with
    | nil => simpa using h
    | cons other params =>
      have hrest := ih fun param hparam => h param (by simp [hparam])
      rw [intercalate_cons_cons, append_assoc, singleton_append, Readable,
        splitOn_append_cons_self]
      intro part hpart
      rcases mem_append.mp hpart with hpart | hpart
      · exact h param (by simp) part hpart
      · exact hrest part hpart

/-- A query that is joined is cut off and read. -/
theorem cut_joinParams {before : Text} (hbefore : '?' ∉ before) {params : List Text}
    (h : ∀ param ∈ params, Readable param) :
    ∃ queryString read, Text.cut '?' (before ++ joinParams params) = (before, queryString) ∧
      parseQueryParams queryString = .ok read := by
  rw [joinParams]
  split_ifs with hnone
  · exact ⟨none, _, by rw [append_nil, Text.cut_notMem hbefore], rfl⟩
  · obtain ⟨read, hread⟩ := parseQueryParams_isOk (readable_intercalate h)
    exact ⟨some _, read, Text.cut_eq_some.mpr ⟨rfl, hbefore⟩, hread⟩

end Anywhere.Link
