import Mathlib.Algebra.Order.BigOperators.Group.List
import Mathlib.Data.List.Dedup
import Anywhere.Lib.Json
import Anywhere.Xhttp.PacketUp

/-!
# Anywhere — the extra JSON of XHTTP

`toExtraJson` puts the members that differ from their defaults into one JSON object, by
concatenation and without an escape, and `fromExtraJson` reads the object with org.json,
fills in defaults and turns any exception into a configuration of defaults.

org.json is a parameter, of which only what it makes of JSON texts is known: an object
without a repeated name is read as it is written, the text of an integer is that integer,
and a string and a boolean are themselves. What it makes of other texts, and of a value of
another type than the one asked for, is left open.

* `extra_round_trip` — it is the one written if and only if no text needs an escape and
  nothing that depends on `uplinkDataPlacement` was left empty.
* `extra_json_loses` — a quote resets everything, and an empty `uplinkDataKey` is filled in.
-/

namespace Anywhere.Link.Extra

open Lib List
open Xhttp (XHttpPlacement)

-- ----
-- The configuration

/-- `XHttpPlacement.raw`. -/
def rawPlacement : XHttpPlacement → Text
  | .path => "path".toList
  | .query => "query".toList
  | .header => "header".toList
  | .cookie => "cookie".toList
  | .queryInHeader => "queryInHeader".toList
  | .body => "body".toList

/-- `XHttpPlacement.fromRaw(value)`. -/
def placementFromRaw (value : Text) : XHttpPlacement :=
  ([XHttpPlacement.path, .query, .header, .cookie, .queryInHeader, .body].find? fun entry =>
    rawPlacement entry = value).getD .queryInHeader

inductive XHttpPaddingMethod
  | repeatX
  | tokenish
  deriving DecidableEq, Repr

/-- `XHttpPaddingMethod.raw`. -/
def rawMethod : XHttpPaddingMethod → Text
  | .repeatX => "repeat-x".toList
  | .tokenish => "tokenish".toList

/-- `XHttpPaddingMethod.fromRaw(value)`. -/
def methodFromRaw (value : Text) : XHttpPaddingMethod :=
  ([XHttpPaddingMethod.repeatX, .tokenish].find? fun entry => rawMethod entry = value).getD .repeatX

theorem placementFromRaw_raw (p : XHttpPlacement) : placementFromRaw (rawPlacement p) = p := by
  cases p <;> decide

theorem methodFromRaw_raw (m : XHttpPaddingMethod) : methodFromRaw (rawMethod m) = m := by
  cases m <;> decide

/-- A `Map<String, String>`, with the order in which its entries were put. -/
structure StringMap where
  entries : List (Text × Text)
  nodup : (entries.map Prod.fst).Nodup

/-- `emptyMap()`. -/
def StringMap.empty : StringMap := ⟨[], nodup_nil⟩

/-- `keys.associateWith(valueOf)`. -/
def StringMap.associateWith (keys : List Text) (valueOf : Text → Text) : StringMap where
  entries := keys.dedup.map fun key => (key, valueOf key)
  nodup := by
    rw [map_map]
    exact (map_id keys.dedup).symm ▸ nodup_dedup keys

/-- `"x_padding"`, `"X-Padding"` and `"POST"`. -/
def defaultPaddingKey : Text := "x_padding".toList
def defaultPaddingHeader : Text := "X-Padding".toList
def defaultMethod : Text := "POST".toList

@[ext]
structure XHttpConfiguration where
  host : Text
  path : Text := ['/']
  mode : XHttpMode := .auto
  headers : StringMap := .empty
  noGrpcHeader : Bool := false
  scMaxEachPostBytes : Int32 := 1000000
  scMinPostsIntervalMs : Int32 := 30
  xPaddingBytesFrom : Int32 := 100
  xPaddingBytesTo : Int32 := 1000
  xPaddingObfsMode : Bool := false
  xPaddingKey : Text := defaultPaddingKey
  xPaddingHeader : Text := defaultPaddingHeader
  xPaddingPlacement : XHttpPlacement := .queryInHeader
  xPaddingMethod : XHttpPaddingMethod := .repeatX
  uplinkHTTPMethod : Text := defaultMethod
  sessionPlacement : XHttpPlacement := .path
  sessionKey : Text := []
  seqPlacement : XHttpPlacement := .path
  seqKey : Text := []
  uplinkDataPlacement : XHttpPlacement := .body
  uplinkDataKey : Text := []
  uplinkChunkSize : Int32 := 0

/-- The equality of the data class: that of two maps does not depend on their order. -/
def XHttpConfiguration.equals (a b : XHttpConfiguration) : Prop :=
  { a with headers := b.headers } = b ∧ a.headers.entries.Perm b.headers.entries

-- ----
-- The emitter

/-- The names of the members. `xPaddingBytes` is only read. -/
inductive Name
  | noGRPCHeader | scMaxEachPostBytes | scMinPostsIntervalMs | xPaddingBytesFrom | xPaddingBytesTo
  | xPaddingObfsMode | xPaddingKey | xPaddingHeader | xPaddingPlacement | xPaddingMethod
  | uplinkHTTPMethod | sessionPlacement | sessionKey | seqPlacement | seqKey | uplinkDataPlacement
  | uplinkDataKey | uplinkChunkSize | headers | xPaddingBytes
  deriving DecidableEq, Repr

def Name.text : Name → Text
  | .noGRPCHeader => "noGRPCHeader".toList
  | .scMaxEachPostBytes => "scMaxEachPostBytes".toList
  | .scMinPostsIntervalMs => "scMinPostsIntervalMs".toList
  | .xPaddingBytesFrom => "xPaddingBytesFrom".toList
  | .xPaddingBytesTo => "xPaddingBytesTo".toList
  | .xPaddingObfsMode => "xPaddingObfsMode".toList
  | .xPaddingKey => "xPaddingKey".toList
  | .xPaddingHeader => "xPaddingHeader".toList
  | .xPaddingPlacement => "xPaddingPlacement".toList
  | .xPaddingMethod => "xPaddingMethod".toList
  | .uplinkHTTPMethod => "uplinkHTTPMethod".toList
  | .sessionPlacement => "sessionPlacement".toList
  | .sessionKey => "sessionKey".toList
  | .seqPlacement => "seqPlacement".toList
  | .seqKey => "seqKey".toList
  | .uplinkDataPlacement => "uplinkDataPlacement".toList
  | .uplinkDataKey => "uplinkDataKey".toList
  | .uplinkChunkSize => "uplinkChunkSize".toList
  | .headers => "headers".toList
  | .xPaddingBytes => "xPaddingBytes".toList

/-- What stands behind a name and its colon. -/
inductive Value
  | yes
  | int (n : Int32)
  | text (s : Text)
  | object (entries : List (Text × Text))

def quoted (s : Text) : Text := '"' :: (s ++ ['"'])

def Value.written : Value → Text
  | .yes => "true".toList
  | .int n => Json.intText n.toInt
  | .text s => quoted s
  | .object entries =>
    '{' :: ([','].intercalate ((entries.map fun e => (e.1, quoted e.2)).map Json.entry) ++ ['}'])

/-- The member that `toExtraJson` adds under a name, if it adds one. -/
def emitted (c : XHttpConfiguration) : Name → Option Value
  | .noGRPCHeader => if c.noGrpcHeader then some .yes else none
  | .scMaxEachPostBytes =>
    if c.scMaxEachPostBytes ≠ 1000000 then some (.int c.scMaxEachPostBytes) else none
  | .scMinPostsIntervalMs =>
    if c.scMinPostsIntervalMs ≠ 30 then some (.int c.scMinPostsIntervalMs) else none
  | .xPaddingBytesFrom => if c.xPaddingBytesFrom ≠ 100 then some (.int c.xPaddingBytesFrom)
      else none
  | .xPaddingBytesTo => if c.xPaddingBytesTo ≠ 1000 then some (.int c.xPaddingBytesTo) else none
  | .xPaddingObfsMode => if c.xPaddingObfsMode then some .yes else none
  | .xPaddingKey => if c.xPaddingKey ≠ defaultPaddingKey then some (.text c.xPaddingKey) else none
  | .xPaddingHeader =>
    if c.xPaddingHeader ≠ defaultPaddingHeader then some (.text c.xPaddingHeader) else none
  | .xPaddingPlacement =>
    if c.xPaddingPlacement ≠ .queryInHeader then some (.text (rawPlacement c.xPaddingPlacement))
    else none
  | .xPaddingMethod =>
    if c.xPaddingMethod ≠ .repeatX then some (.text (rawMethod c.xPaddingMethod)) else none
  | .uplinkHTTPMethod =>
    if c.uplinkHTTPMethod ≠ defaultMethod then some (.text c.uplinkHTTPMethod) else none
  | .sessionPlacement =>
    if c.sessionPlacement ≠ .path then some (.text (rawPlacement c.sessionPlacement)) else none
  | .sessionKey => if c.sessionKey ≠ [] then some (.text c.sessionKey) else none
  | .seqPlacement =>
    if c.seqPlacement ≠ .path then some (.text (rawPlacement c.seqPlacement)) else none
  | .seqKey => if c.seqKey ≠ [] then some (.text c.seqKey) else none
  | .uplinkDataPlacement =>
    if c.uplinkDataPlacement ≠ .body then some (.text (rawPlacement c.uplinkDataPlacement))
    else none
  | .uplinkDataKey => if c.uplinkDataKey ≠ [] then some (.text c.uplinkDataKey) else none
  | .uplinkChunkSize => if c.uplinkChunkSize ≠ 0 then some (.int c.uplinkChunkSize) else none
  | .headers => if c.headers.entries ≠ [] then some (.object c.headers.entries) else none
  | .xPaddingBytes => none

/-- The order of the lines of `toExtraJson`. -/
def names : List Name :=
  [.noGRPCHeader, .scMaxEachPostBytes, .scMinPostsIntervalMs, .xPaddingBytesFrom, .xPaddingBytesTo,
    .xPaddingObfsMode, .xPaddingKey, .xPaddingHeader, .xPaddingPlacement, .xPaddingMethod,
    .uplinkHTTPMethod, .sessionPlacement, .sessionKey, .seqPlacement, .seqKey, .uplinkDataPlacement,
    .uplinkDataKey, .uplinkChunkSize, .headers]

def members (c : XHttpConfiguration) : List (Name × Value) :=
  names.filterMap fun name => (emitted c name).map fun value => (name, value)

def toExtraJson (c : XHttpConfiguration) : Text :=
  let parts := (members c).map fun member => (member.1.text, member.2.written)
  if parts = [] then [] else '{' :: ([','].intercalate (parts.map Json.entry) ++ ['}'])

-- ----
-- The parser

structure OrgJson where
  /-- `JSONObject(text)`, with its entries; none where it throws. -/
  jsonObject : Text → Option (List (Text × Json))
  /-- `toInt()` of the `Number` that a number's text is made. -/
  numberToInt : Text → Int32
  /-- What `optInt`, `optBoolean` and `optString` make of a value, unless it is the fallback. -/
  asInt : Json → Option Int32
  asBoolean : Json → Option Bool
  asString : Json → Option Text
  jsonObject_parse : ∀ text entries, Json.parse text = some (.object entries) →
    (Json.object entries).Distinct → jsonObject text = some entries
  numberToInt_intText : ∀ n : Int32, numberToInt (Json.intText n.toInt) = n
  asInt_number : ∀ text, asInt (.number text) = some (numberToInt text)
  asBoolean_bool : ∀ b, asBoolean (.bool b) = some b
  asString_string : ∀ s, asString (.string s) = some s

/-- `opt(name)`. -/
def opt (json : List (Text × Json)) (name : Text) : Option Json :=
  (json.find? fun e => e.1 = name).map Prod.snd

namespace OrgJson

variable (J : OrgJson)

def optInt (json : List (Text × Json)) (name : Text) (fallback : Int32) : Int32 :=
  ((opt json name).bind J.asInt).getD fallback

def optBoolean (json : List (Text × Json)) (name : Text) (fallback : Bool) : Bool :=
  ((opt json name).bind J.asBoolean).getD fallback

def optString (json : List (Text × Json)) (name : Text) (fallback : Text) : Text :=
  ((opt json name).bind J.asString).getD fallback

def intOrTo (v : Option Json) (fallback : Int32) : Int32 :=
  match v with
  | some (.object v) => J.optInt v "to".toList fallback
  | some (.number v) => J.numberToInt v
  | _ => fallback

/-- `xPaddingFrom` and `xPaddingTo`. -/
def padding (json : List (Text × Json)) : Int32 × Int32 :=
  match opt json Name.xPaddingBytes.text with
  | some (.object v) => (J.optInt v "from".toList 100, J.optInt v "to".toList 1000)
  | some (.number v) => (J.numberToInt v, J.numberToInt v)
  | some _ => (100, 1000)
  | none =>
    (J.optInt json Name.xPaddingBytesFrom.text 100, J.optInt json Name.xPaddingBytesTo.text 1000)

def headersOf (v : Option Json) : StringMap :=
  match v with
  | some (.object h) => .associateWith (h.map Prod.fst) fun k => J.optString h k []
  | _ => .empty

end OrgJson

def defaultUplinkDataKey : XHttpPlacement → Text
  | .header => "X-Data".toList
  | .cookie => "x_data".toList
  | _ => []

def defaultUplinkChunkSize : XHttpPlacement → Int32
  | .header => 4096
  | .cookie => 3072
  | _ => 0

/-- The body of the `try`, behind the parser. -/
def configurationOf (J : OrgJson) (host path : Text) (mode : XHttpMode)
    (json : List (Text × Json)) :
    XHttpConfiguration :=
  let placement (name : Name) (fallback : XHttpPlacement) :=
    placementFromRaw (J.optString json name.text (rawPlacement fallback))
  let uplinkDataPlacement := placement .uplinkDataPlacement .body
  { host := host
    path := path
    mode := mode
    headers := J.headersOf (opt json Name.headers.text)
    noGrpcHeader := J.optBoolean json Name.noGRPCHeader.text false
    scMaxEachPostBytes := J.intOrTo (opt json Name.scMaxEachPostBytes.text) 1000000
    scMinPostsIntervalMs := J.intOrTo (opt json Name.scMinPostsIntervalMs.text) 30
    xPaddingBytesFrom := (J.padding json).1
    xPaddingBytesTo := (J.padding json).2
    xPaddingObfsMode := J.optBoolean json Name.xPaddingObfsMode.text false
    xPaddingKey := J.optString json Name.xPaddingKey.text defaultPaddingKey
    xPaddingHeader := J.optString json Name.xPaddingHeader.text defaultPaddingHeader
    xPaddingPlacement := placement .xPaddingPlacement .queryInHeader
    xPaddingMethod :=
      methodFromRaw (J.optString json Name.xPaddingMethod.text (rawMethod .repeatX))
    uplinkHTTPMethod := J.optString json Name.uplinkHTTPMethod.text defaultMethod
    sessionPlacement := placement .sessionPlacement .path
    sessionKey := J.optString json Name.sessionKey.text []
    seqPlacement := placement .seqPlacement .path
    seqKey := J.optString json Name.seqKey.text []
    uplinkDataPlacement := uplinkDataPlacement
    uplinkDataKey :=
      J.optString json Name.uplinkDataKey.text (defaultUplinkDataKey uplinkDataPlacement)
    uplinkChunkSize :=
      J.optInt json Name.uplinkChunkSize.text (defaultUplinkChunkSize uplinkDataPlacement) }

def fromExtraJson (J : OrgJson) (host path : Text) (mode : XHttpMode) (extraJson : Text) :
    XHttpConfiguration :=
  let defaults : XHttpConfiguration := { host := host, path := path, mode := mode }
  -- isBlank()
  if extraJson.all Text.isWhitespace then defaults
  else
    match J.jsonObject extraJson with
    | some json => configurationOf J host path mode json
    | none => defaults

-- ----
-- What is parsed

/-- The text that comes back for one that was written. -/
def read (s : Text) : Text := (Json.unescape s).getD s

theorem denotes_read {s : Text} (h : Json.unescape s ≠ none) : Json.Denotes s (read s) := by
  rw [← Json.unescape_eq_some_iff, read]
  cases hs : Json.unescape s with
  | none => exact absurd hs h
  | some value => rfl

theorem read_of_plain {s : Text} (h : Json.Plain s) : read s = s := by
  rw [read, Json.unescape_eq_some_iff.2 (Json.denotes_of_plain h), Option.getD_some]

def Value.texts : Value → List Text
  | .yes | .int _ => []
  | .text s => [s]
  | .object entries => entries.flatMap fun e => [e.1, e.2]

def Value.json : Value → Json
  | .yes => .bool true
  | .int n => .number (Json.intText n.toInt)
  | .text s => .string (read s)
  | .object entries => .object (entries.map fun e => (read e.1, .string (read e.2)))

theorem Value.reads {v : Value} (h : ∀ s ∈ v.texts, Json.unescape s ≠ none) :
    Json.Reads v.written v.json := by
  cases v with
  | yes => exact Json.reads_true
  | int n => exact Json.reads_int n.toInt
  | text s => exact Json.reads_string (denotes_read (h s mem_cons_self))
  | object entries =>
    refine Json.reads_object (forall₂_map_left_iff.2 (forall₂_map_right_iff.2 ?_))
    refine forall₂_same.2 fun e he => ?_
    have htexts : ∀ s ∈ [e.1, e.2], Json.unescape s ≠ none := fun s hs =>
      h s (mem_flatMap.2 ⟨e, he, hs⟩)
    exact ⟨denotes_read (htexts _ (by simp)), Json.reads_string (denotes_read (htexts _ (by simp)))⟩

theorem Name.plain (name : Name) : Json.Plain name.text := by
  cases name <;> decide

theorem Name.find_text (name : Name) :
    (.xPaddingBytes :: names).find? (fun n => n.text = name.text) = some name := by
  cases name <;> decide

theorem Name.text_inj {a b : Name} (h : a.text = b.text) : a = b := by
  have ha := a.find_text
  rw [h, b.find_text] at ha
  exact (Option.some.inj ha).symm

/-- The members that are found, in order. -/
def parsed (c : XHttpConfiguration) : List (Text × Json) :=
  (members c).map fun member => (member.1.text, member.2.json)

namespace XHttpConfiguration

def texts (c : XHttpConfiguration) : List Text :=
  [c.xPaddingKey, c.xPaddingHeader, c.uplinkHTTPMethod, c.sessionKey, c.seqKey, c.uplinkDataKey] ++
    c.headers.entries.flatMap fun e => [e.1, e.2]

/-- Each text could stand between the quotes of a JSON string, if perhaps for another one;
no two headers stand for the same name. -/
structure Quotable (c : XHttpConfiguration) : Prop where
  texts : ∀ s ∈ c.texts, Json.unescape s ≠ none
  names : (c.headers.entries.map fun e => read e.1).Nodup

/-- No text has a quote, a backslash or a control character. -/
def Plain (c : XHttpConfiguration) : Prop := ∀ s ∈ c.texts, Json.Plain s

/-- Where the placement has a default for them, key and size are set. -/
def UplinkSet (c : XHttpConfiguration) : Prop :=
  (c.uplinkDataPlacement = .header ∨ c.uplinkDataPlacement = .cookie) →
    c.uplinkDataKey ≠ [] ∧ c.uplinkChunkSize ≠ 0

end XHttpConfiguration

section

variable {c : XHttpConfiguration}

theorem value_of_ite {p : Prop} [Decidable p] {a v : Value}
    (h : (if p then some a else none) = some v) :
    v = a := by
  by_cases hp : p
  · rw [if_pos hp] at h
    exact (Option.some.inj h).symm
  · rw [if_neg hp] at h
    cases h

theorem emitted_texts (c : XHttpConfiguration) {name : Name} {v : Value}
    (h : emitted c name = some v) :
    ∀ s ∈ v.texts, s ∈ c.texts ∨ Json.Plain s := by
  have hplacement : ∀ p, Json.Plain (rawPlacement p) := by
    intro p
    cases p <;> decide
  have hmethod : ∀ m, Json.Plain (rawMethod m) := by
    intro m
    cases m <;> decide
  intro s hs
  cases name <;> first
    | cases h
    | obtain rfl := value_of_ite h
  all_goals first
    | cases hs; done
    | (obtain rfl := mem_singleton.1 hs
       first
         | exact Or.inr (hplacement _)
         | exact Or.inr (hmethod _)
         | exact Or.inl (by simp [XHttpConfiguration.texts]))
    | exact Or.inl (mem_append_right _ hs)

theorem reads_emitted (h : c.Quotable) {name : Name} {v : Value} (hv : emitted c name = some v) :
    Json.Reads v.written v.json := by
  refine Value.reads fun s hs => ?_
  rcases emitted_texts c hv s hs with hs | hs
  · exact h.texts s hs
  · rw [Json.unescape_eq_some_iff.2 (Json.denotes_of_plain hs)]
    exact Option.some_ne_none s

theorem mem_members {m : Name × Value} (h : m ∈ members c) : emitted c m.1 = some m.2 := by
  obtain ⟨name, -, h⟩ := mem_filterMap.1 h
  obtain ⟨v, hv, rfl⟩ := Option.map_eq_some_iff.1 h
  exact hv

/-- What a JSON parser finds, if every text is the contents of a JSON string. -/
theorem toExtraJson_parsed (h : c.Quotable) (hne : members c ≠ []) :
    Json.parse (toExtraJson c) = some (.object (parsed c)) := by
  rw [toExtraJson, if_neg (by simpa using hne)]
  refine Json.parse_of_reads (Json.reads_object ?_)
  refine forall₂_map_left_iff.2 (forall₂_map_right_iff.2 ?_)
  refine forall₂_same.2 fun m hm => ⟨?_, reads_emitted h (mem_members hm)⟩
  exact Json.denotes_of_plain m.1.plain

theorem json_distinct (h : c.Quotable) {name : Name} {v : Value} (hv : emitted c name = some v) :
    v.json.Distinct := by
  cases v with
  | yes => exact .bool true
  | int n => exact .number _
  | text s => exact .string _
  | object entries =>
    -- only the headers are an object
    have hentries : entries = c.headers.entries := by
      cases name <;> first
        | (cases value_of_ite hv; rfl)
        | cases value_of_ite hv
        | cases hv
    subst hentries
    refine .object ?_ fun e he => ?_
    · rw [map_map]
      exact h.names
    · obtain ⟨x, -, rfl⟩ := mem_map.1 he
      exact .string _

theorem members_names (c : XHttpConfiguration) :
    (members c).map Prod.fst = names.filter fun name => (emitted c name).isSome := by
  rw [members, map_filterMap, ← filterMap_eq_filter]
  refine filterMap_congr fun name _ => ?_
  cases h : emitted c name <;> simp [h, Option.guard]

theorem parsed_distinct (h : c.Quotable) : (Json.object (parsed c)).Distinct := by
  refine .object ?_ fun e he => ?_
  · have hnames : ((members c).map Prod.fst).Nodup := by
      rw [members_names]
      exact List.Nodup.filter _ (by decide)
    have htexts := hnames.map (f := Name.text) fun a b => Name.text_inj
    rw [map_map] at htexts
    rwa [parsed, map_map]
  · obtain ⟨m, hm, rfl⟩ := mem_map.1 he
    exact json_distinct h (mem_members hm)

-- ----
-- What comes back

theorem opt_parsed (c : XHttpConfiguration) (name : Name) :
    opt (parsed c) name.text = (emitted c name).map Value.json := by
  have hlookup : ∀ l : List Name, opt ((l.filterMap fun n => (emitted c n).map fun v => (n, v)).map
      fun m => (m.1.text, m.2.json)) name.text =
        if name ∈ l then (emitted c name).map Value.json else none := by
    intro l
    induction l with
    | nil => rfl
    | cons n l ih =>
      by_cases heq : n = name
      · subst heq
        rw [if_pos mem_cons_self]
        cases hv : emitted c n with
        | none =>
          rw [filterMap_cons_none (by rw [hv]; rfl), ih, hv]
          exact ite_self _
        | some v =>
          rw [filterMap_cons_some (by rw [hv]; rfl), map_cons, opt,
            List.find?_cons_of_pos (by simp)]
          rfl
      · have hmem : name ∈ n :: l ↔ name ∈ l := by
          rw [mem_cons, or_iff_right (Ne.symm heq)]
        rw [if_congr hmem rfl rfl, ← ih]
        cases hv : emitted c n with
        | none => rw [filterMap_cons_none (by rw [hv]; rfl)]
        | some v =>
          rw [filterMap_cons_some (by rw [hv]; rfl), map_cons, opt,
            List.find?_cons_of_neg (by simpa using fun h => heq (Name.text_inj h))]
          rfl
  rw [parsed, members, hlookup]
  by_cases hmem : name ∈ names
  · rw [if_pos hmem]
  · have hname : name = .xPaddingBytes := by
      cases name <;> first | rfl | exact absurd (by decide) hmem
    subst hname
    exact if_neg hmem

variable (J : OrgJson) {name : Name} {p : Prop} [Decidable p]

theorem optString_parsed {s fallback : Text}
    (h : emitted c name = if p then some (.text s) else none) :
    J.optString (parsed c) name.text fallback = if p then read s else fallback := by
  rw [OrgJson.optString, opt_parsed, h]
  by_cases hp : p
  · rw [if_pos hp, if_pos hp]
    show ((J.asString (.string (read s)))).getD fallback = _
    rw [J.asString_string]
    rfl
  · rw [if_neg hp, if_neg hp]
    rfl

theorem optBoolean_parsed {b : Bool} (h : emitted c name = if b then some .yes else none) :
    J.optBoolean (parsed c) name.text false = b := by
  rw [OrgJson.optBoolean, opt_parsed, h]
  cases b with
  | false => rfl
  | true =>
    show (J.asBoolean (.bool true)).getD false = _
    rw [J.asBoolean_bool]
    rfl

theorem optInt_parsed {n fallback : Int32}
    (h : emitted c name = if p then some (.int n) else none) :
    J.optInt (parsed c) name.text fallback = if p then n else fallback := by
  rw [OrgJson.optInt, opt_parsed, h]
  by_cases hp : p
  · rw [if_pos hp, if_pos hp]
    show (J.asInt (.number (Json.intText n.toInt))).getD fallback = _
    rw [J.asInt_number, J.numberToInt_intText]
    rfl
  · rw [if_neg hp, if_neg hp]
    rfl

theorem intOrTo_parsed {n fallback : Int32}
    (h : emitted c name = if p then some (.int n) else none) :
    J.intOrTo (opt (parsed c) name.text) fallback = if p then n else fallback := by
  rw [opt_parsed, h]
  by_cases hp : p
  · rw [if_pos hp, if_pos hp]
    exact J.numberToInt_intText n
  · rw [if_neg hp, if_neg hp]
    rfl

theorem ite_default {α : Type} [DecidableEq α] (a fallback : α) :
    (if a ≠ fallback then a else fallback) = a := by
  by_cases h : a = fallback
  · rw [if_neg (not_not_intro h), h]
  · rw [if_pos h]

/-- A member whose text is left out for a default of plain text. -/
theorem ite_read {s fallback : Text} (h : Json.Plain fallback) :
    (if s ≠ fallback then read s else fallback) = read s := by
  by_cases hs : s = fallback
  · rw [if_neg (not_not_intro hs), hs, read_of_plain h]
  · rw [if_pos hs]

theorem opt_of_mem {json : List (Text × Json)} (hnodup : (json.map Prod.fst).Nodup)
    {k : Text} {v : Json} (h : (k, v) ∈ json) : opt json k = some v := by
  induction json with
  | nil => cases h
  | cons e json ih =>
    rw [map_cons, nodup_cons] at hnodup
    rcases mem_cons.1 h with rfl | h
    · rw [opt, List.find?_cons_of_pos (by simp)]
      rfl
    · have hne : e.1 ≠ k := by
        rintro rfl
        exact hnodup.1 (mem_map.2 ⟨_, h, rfl⟩)
      rw [opt, List.find?_cons_of_neg (by simpa using hne)]
      exact ih hnodup.2 h

theorem headersOf_parsed (J : OrgJson) (h : c.Quotable) :
    (J.headersOf (opt (parsed c) Name.headers.text)).entries =
      c.headers.entries.map fun e => (read e.1, read e.2) := by
  have hemitted : emitted c .headers =
      if c.headers.entries ≠ [] then some (.object c.headers.entries) else none := rfl
  rw [opt_parsed, hemitted]
  by_cases hne : c.headers.entries = []
  · rw [if_neg (not_not_intro hne), hne]
    rfl
  · rw [if_pos hne]
    let json := c.headers.entries.map fun e => (read e.1, Json.string (read e.2))
    have hkeys : json.map Prod.fst = c.headers.entries.map fun e => read e.1 := map_map
    have hnodup : (json.map Prod.fst).Nodup := hkeys ▸ h.names
    show ((json.map Prod.fst).dedup.map fun key => (key, J.optString json key [])) = _
    rw [hnodup.dedup, hkeys, map_map]
    refine map_congr_left fun e he => ?_
    have hopt : opt json (read e.1) = some (.string (read e.2)) :=
      opt_of_mem hnodup (mem_map.2 ⟨e, he, rfl⟩)
    rw [Function.comp_apply, OrgJson.optString, hopt, Option.bind_some, J.asString_string,
      Option.getD_some]

/-- The configuration that comes back, its headers apart. -/
def readBack (c : XHttpConfiguration) : XHttpConfiguration :=
  { c with
    xPaddingKey := read c.xPaddingKey
    xPaddingHeader := read c.xPaddingHeader
    uplinkHTTPMethod := read c.uplinkHTTPMethod
    sessionKey := read c.sessionKey
    seqKey := read c.seqKey
    uplinkDataKey := if c.uplinkDataKey ≠ [] then read c.uplinkDataKey
      else defaultUplinkDataKey c.uplinkDataPlacement
    uplinkChunkSize := if c.uplinkChunkSize ≠ 0 then c.uplinkChunkSize
      else defaultUplinkChunkSize c.uplinkDataPlacement }

theorem placement_parsed {pl fallback : XHttpPlacement}
    (h : emitted c name = if pl ≠ fallback then some (.text (rawPlacement pl)) else none) :
    placementFromRaw (J.optString (parsed c) name.text (rawPlacement fallback)) = pl := by
  have hplain : Json.Plain (rawPlacement pl) := by
    cases pl <;> decide
  rw [optString_parsed J h, read_of_plain hplain]
  by_cases hpl : pl = fallback
  · rw [if_neg (not_not_intro hpl), hpl, placementFromRaw_raw]
  · rw [if_pos hpl, placementFromRaw_raw]

theorem configurationOf_parsed (c : XHttpConfiguration) :
    { configurationOf J c.host c.path c.mode (parsed c) with headers := c.headers } =
      readBack c := by
  have hplacement : placementFromRaw (J.optString (parsed c) Name.uplinkDataPlacement.text
      (rawPlacement .body)) = c.uplinkDataPlacement := placement_parsed J rfl
  have hpadding : J.padding (parsed c) = (c.xPaddingBytesFrom, c.xPaddingBytesTo) := by
    have hnone : opt (parsed c) Name.xPaddingBytes.text = none := opt_parsed c .xPaddingBytes
    have hfrom : J.optInt (parsed c) Name.xPaddingBytesFrom.text 100 = c.xPaddingBytesFrom :=
      (optInt_parsed J rfl).trans (ite_default _ _)
    have hto : J.optInt (parsed c) Name.xPaddingBytesTo.text 1000 = c.xPaddingBytesTo :=
      (optInt_parsed J rfl).trans (ite_default _ _)
    rw [OrgJson.padding, hnone]
    dsimp only
    rw [hfrom, hto]
  apply XHttpConfiguration.ext
  case host => rfl
  case path => rfl
  case mode => rfl
  case headers => rfl
  case noGrpcHeader => exact optBoolean_parsed J rfl
  case scMaxEachPostBytes => exact (intOrTo_parsed J rfl).trans (ite_default _ _)
  case scMinPostsIntervalMs => exact (intOrTo_parsed J rfl).trans (ite_default _ _)
  case xPaddingBytesFrom => exact congrArg Prod.fst hpadding
  case xPaddingBytesTo => exact congrArg Prod.snd hpadding
  case xPaddingObfsMode => exact optBoolean_parsed J rfl
  case xPaddingKey => exact (optString_parsed J rfl).trans (ite_read (by decide))
  case xPaddingHeader => exact (optString_parsed J rfl).trans (ite_read (by decide))
  case xPaddingPlacement => exact placement_parsed J rfl
  case xPaddingMethod =>
    have hplain : Json.Plain (rawMethod c.xPaddingMethod) := by
      cases c.xPaddingMethod <;> decide
    show methodFromRaw (J.optString (parsed c) Name.xPaddingMethod.text (rawMethod .repeatX)) = _
    rw [optString_parsed J rfl, read_of_plain hplain]
    by_cases hmethod : c.xPaddingMethod = .repeatX
    · rw [if_neg (not_not_intro hmethod)]
      exact hmethod.symm
    · rw [if_pos hmethod, methodFromRaw_raw]
      rfl
  case uplinkHTTPMethod => exact (optString_parsed J rfl).trans (ite_read (by decide))
  case sessionPlacement => exact placement_parsed J rfl
  case sessionKey => exact (optString_parsed J rfl).trans (ite_read (by decide))
  case seqPlacement => exact placement_parsed J rfl
  case seqKey => exact (optString_parsed J rfl).trans (ite_read (by decide))
  case uplinkDataPlacement => exact hplacement
  case uplinkDataKey =>
    exact (optString_parsed J rfl).trans (congrArg (fun placement => if c.uplinkDataKey ≠ [] then
      read c.uplinkDataKey else defaultUplinkDataKey placement) hplacement)
  case uplinkChunkSize =>
    exact (optInt_parsed J rfl).trans (congrArg (fun placement => if c.uplinkChunkSize ≠ 0 then
      c.uplinkChunkSize else defaultUplinkChunkSize placement) hplacement)

theorem configurationOf_nil (host path : Text) (mode : XHttpMode) :
    configurationOf J host path mode [] = { host := host, path := path, mode := mode } := by
  rfl

theorem fromExtraJson_parsed (h : c.Quotable) :
    fromExtraJson J c.host c.path c.mode (toExtraJson c) =
      configurationOf J c.host c.path c.mode (parsed c) := by
  by_cases hne : members c = []
  · have htext : toExtraJson c = [] := by
      rw [toExtraJson, hne]
      rfl
    rw [htext, parsed, hne, map_nil, configurationOf_nil]
    rfl
  · have hparse := J.jsonObject_parse _ _ (toExtraJson_parsed h hne) (parsed_distinct h)
    have hblank : (toExtraJson c).all Text.isWhitespace = false := by
      rw [toExtraJson, if_neg (by simpa using hne)]
      rfl
    rw [fromExtraJson, hblank, hparse]
    rfl

/-- **What comes back.** -/
theorem fromExtraJson_toExtraJson (h : c.Quotable) :
    { fromExtraJson J c.host c.path c.mode (toExtraJson c) with headers := c.headers } =
      readBack c ∧
      (fromExtraJson J c.host c.path c.mode (toExtraJson c)).headers.entries =
        c.headers.entries.map fun e => (read e.1, read e.2) := by
  rw [fromExtraJson_parsed J h]
  exact ⟨configurationOf_parsed J c, headersOf_parsed J h⟩

-- ----
-- The round trip

theorem plain_of_length {s : Text} (hs : Json.unescape s ≠ none)
    (hlen : (read s).length = s.length) :
    Json.Plain s :=
  ((denotes_read hs).plain hlen).2

theorem length_read_le {s : Text} (hs : Json.unescape s ≠ none) : (read s).length ≤ s.length :=
  (denotes_read hs).length_le

theorem headers_plain {entries : List (Text × Text)}
    (htexts : ∀ e ∈ entries, Json.unescape e.1 ≠ none ∧ Json.unescape e.2 ≠ none)
    (hperm : (entries.map fun e => (read e.1, read e.2)).Perm entries) :
    ∀ e ∈ entries, Json.Plain e.1 ∧ Json.Plain e.2 := by
  let size (e : Text × Text) : Nat := e.1.length + e.2.length
  have hle : ∀ e ∈ entries, size (read e.1, read e.2) ≤ size e := fun e he =>
    Nat.add_le_add (length_read_le (htexts e he).1) (length_read_le (htexts e he).2)
  have hsum : (entries.map fun e => size (read e.1, read e.2)).sum = (entries.map size).sum := by
    have hsizes := (hperm.map size).sum_eq
    rwa [map_map] at hsizes
  intro e he
  have heq : size (read e.1, read e.2) = size e := by
    by_contra hne
    have hlt := sum_lt_sum _ _ hle ⟨e, he, Nat.lt_of_le_of_ne (hle e he) hne⟩
    omega
  have hfst := length_read_le (htexts e he).1
  have hsnd := length_read_le (htexts e he).2
  exact ⟨plain_of_length (htexts e he).1 (by simp only [size] at heq; omega),
    plain_of_length (htexts e he).2 (by simp only [size] at heq; omega)⟩

theorem XHttpConfiguration.Plain.quotable (h : c.Plain) : c.Quotable := by
  have hread : ∀ e ∈ c.headers.entries, read e.1 = e.1 := fun e he =>
    read_of_plain (h _ (mem_append_right _ (mem_flatMap.2 ⟨e, he, by simp⟩)))
  refine ⟨fun s hs => ?_, ?_⟩
  · rw [Json.unescape_eq_some_iff.2 (Json.denotes_of_plain (h s hs))]
    exact Option.some_ne_none s
  · rw [map_congr_left hread]
    exact c.headers.nodup

theorem uplink_defaults (p : XHttpPlacement) :
    (p = .header ∨ p = .cookie) ∧ defaultUplinkDataKey p ≠ [] ∧ defaultUplinkChunkSize p ≠ 0 ∨
      ¬ (p = .header ∨ p = .cookie) ∧ defaultUplinkDataKey p = [] ∧
        defaultUplinkChunkSize p = 0 := by
  cases p <;> decide

/-- The members that depend on the placement come back if they were set, or have no
default there. -/
theorem uplink_iff (c : XHttpConfiguration) :
    (c.uplinkDataKey ≠ [] ∨ defaultUplinkDataKey c.uplinkDataPlacement = []) ∧
        (c.uplinkChunkSize ≠ 0 ∨ defaultUplinkChunkSize c.uplinkDataPlacement = 0) ↔
      c.UplinkSet := by
  unfold XHttpConfiguration.UplinkSet
  rcases uplink_defaults c.uplinkDataPlacement with ⟨hplacement, hkey, hsize⟩ |
    ⟨hplacement, hkey, hsize⟩
  · rw [or_iff_left hkey, or_iff_left hsize]
    exact ⟨fun h _ => h, fun h => h hplacement⟩
  · exact ⟨fun _ h => absurd h hplacement, fun _ => ⟨Or.inr hkey, Or.inr hsize⟩⟩

def XHttpConfiguration.keyTexts (c : XHttpConfiguration) : List Text :=
  [c.xPaddingKey, c.xPaddingHeader, c.uplinkHTTPMethod, c.sessionKey, c.seqKey, c.uplinkDataKey]

theorem readBack_eq_iff (h : ∀ s ∈ c.keyTexts, Json.unescape s ≠ none) :
    readBack c = c ↔ (∀ s ∈ c.keyTexts, Json.Plain s) ∧ c.UplinkSet := by
  rw [← uplink_iff]
  constructor
  · intro heq
    have hdata : (if c.uplinkDataKey ≠ [] then read c.uplinkDataKey
        else defaultUplinkDataKey c.uplinkDataPlacement) = c.uplinkDataKey :=
      congrArg XHttpConfiguration.uplinkDataKey heq
    have hsize : (if c.uplinkChunkSize ≠ 0 then c.uplinkChunkSize
        else defaultUplinkChunkSize c.uplinkDataPlacement) = c.uplinkChunkSize :=
      congrArg XHttpConfiguration.uplinkChunkSize heq
    have hread : ∀ s ∈ c.keyTexts, read s = s := by
      intro s hs
      simp only [XHttpConfiguration.keyTexts, mem_cons, not_mem_nil, or_false] at hs
      rcases hs with rfl | rfl | rfl | rfl | rfl | rfl
      · exact congrArg XHttpConfiguration.xPaddingKey heq
      · exact congrArg XHttpConfiguration.xPaddingHeader heq
      · exact congrArg XHttpConfiguration.uplinkHTTPMethod heq
      · exact congrArg XHttpConfiguration.sessionKey heq
      · exact congrArg XHttpConfiguration.seqKey heq
      · by_cases hempty : c.uplinkDataKey = []
        · rw [hempty]
          rfl
        · rwa [if_pos hempty] at hdata
    refine ⟨fun s hs => plain_of_length (h s hs) (congrArg List.length (hread s hs)), ?_, ?_⟩
    · by_cases hempty : c.uplinkDataKey = []
      · rw [if_neg (not_not_intro hempty), hempty] at hdata
        exact Or.inr hdata
      · exact Or.inl hempty
    · by_cases hzero : c.uplinkChunkSize = 0
      · rw [if_neg (not_not_intro hzero), hzero] at hsize
        exact Or.inr hsize
      · exact Or.inl hzero
  · rintro ⟨hplain, hkey, hsize⟩
    have hread : ∀ s ∈ c.keyTexts, read s = s := fun s hs => read_of_plain (hplain s hs)
    simp only [XHttpConfiguration.keyTexts, forall_mem_cons] at hread
    obtain ⟨hpaddingKey, hpaddingHeader, hmethod, hsession, hseq, hdata, -⟩ := hread
    apply XHttpConfiguration.ext
    case xPaddingKey => exact hpaddingKey
    case xPaddingHeader => exact hpaddingHeader
    case uplinkHTTPMethod => exact hmethod
    case sessionKey => exact hsession
    case seqKey => exact hseq
    case uplinkDataKey =>
      show (if c.uplinkDataKey ≠ [] then _ else _) = _
      by_cases hempty : c.uplinkDataKey = []
      · rw [if_neg (not_not_intro hempty), hkey.resolve_left (not_not_intro hempty), hempty]
      · rw [if_pos hempty, hdata]
    case uplinkChunkSize =>
      show (if c.uplinkChunkSize ≠ 0 then _ else _) = _
      by_cases hzero : c.uplinkChunkSize = 0
      · rw [if_neg (not_not_intro hzero), hsize.resolve_left (not_not_intro hzero), hzero]
      · rw [if_pos hzero]
    all_goals rfl

theorem forall_texts {P : Text → Prop} : (∀ s ∈ c.texts, P s) ↔
    (∀ s ∈ c.keyTexts, P s) ∧ ∀ e ∈ c.headers.entries, P e.1 ∧ P e.2 := by
  have htexts : c.texts = c.keyTexts ++ c.headers.entries.flatMap fun e => [e.1, e.2] := rfl
  rw [htexts, forall_mem_append]
  refine and_congr_right fun _ => ⟨fun h e he => ?_, fun h s hs => ?_⟩
  · have hmem : ∀ s ∈ [e.1, e.2], P s := fun s hs => h s (mem_flatMap.2 ⟨e, he, hs⟩)
    exact ⟨hmem _ (by simp), hmem _ (by simp)⟩
  · obtain ⟨e, he, hs⟩ := mem_flatMap.1 hs
    simp only [mem_cons, not_mem_nil, or_false] at hs
    rcases hs with rfl | rfl
    · exact (h e he).1
    · exact (h e he).2

theorem equals_iff (h : c.Quotable) :
    (fromExtraJson J c.host c.path c.mode (toExtraJson c)).equals c ↔ c.Plain ∧ c.UplinkSet := by
  obtain ⟨hkeys, hheaders⟩ := forall_texts.1 h.texts
  obtain ⟨hback, hentries⟩ := fromExtraJson_toExtraJson J h
  rw [XHttpConfiguration.equals, hback, hentries, readBack_eq_iff hkeys, XHttpConfiguration.Plain,
    forall_texts, and_right_comm]
  refine and_congr_left fun _ => and_congr_right fun _ => ⟨headers_plain hheaders, fun hplain => ?_⟩
  have hread : ∀ e ∈ c.headers.entries, (read e.1, read e.2) = e := fun e he =>
    Prod.ext (read_of_plain (hplain e he).1) (read_of_plain (hplain e he).2)
  rw [map_congr_left hread]
  exact List.Perm.of_eq (map_id _)

/-- **The round trip.** Whatever org.json makes of other texts: a configuration comes back
if its texts are plain and what depends on the placement is set; and among the
configurations whose texts can stand in a JSON string, no other one does. -/
theorem extra_round_trip (J : OrgJson) (c : XHttpConfiguration) :
    (c.Plain ∧ c.UplinkSet →
      (fromExtraJson J c.host c.path c.mode (toExtraJson c)).equals c) ∧
    (c.Quotable →
      ((fromExtraJson J c.host c.path c.mode (toExtraJson c)).equals c ↔ c.Plain ∧ c.UplinkSet)) :=
  ⟨fun h => (equals_iff J h.1.quotable).2 h, equals_iff J⟩

end

-- ----
-- A parser that throws at everything else

theorem toNumberOrNull_intText (n : Int32) :
    Text.toNumberOrNull 32 10 (Json.intText n.toInt) = some n.toInt := by
  have hlt := n.toInt_lt
  have hge := n.le_toInt
  rw [Json.intText]
  by_cases hneg : n.toInt < 0
  · rw [if_pos hneg, Text.toNumberOrNull, if_pos (by decide),
      if_neg Nat.toDigits_ne_nil, if_pos rfl, Text.parseDigits_toDigits (by decide) (by decide),
      Option.bind_some, if_pos (by omega)]
    exact congrArg some (by omega)
  · rw [if_neg hneg, Text.toNumberOrNull_toDigits (by decide) (by decide) (by omega)]
    exact congrArg some (by omega)

/-- The object of a JSON text, and an exception for every other text. -/
def OrgJson.strict : OrgJson where
  jsonObject text :=
    match Json.parse text with
    | some (.object entries) => some entries
    | _ => none
  numberToInt text := Int32.ofInt ((Text.toNumberOrNull 32 10 text).getD 0)
  asInt
    | .number text => some (Int32.ofInt ((Text.toNumberOrNull 32 10 text).getD 0))
    | _ => none
  asBoolean
    | .bool b => some b
    | _ => none
  asString
    | .string s => some s
    | _ => none
  jsonObject_parse text entries h _ := by rw [h]
  numberToInt_intText n := by
    rw [toNumberOrNull_intText, Option.getD_some]
    exact Int32.ofInt_toInt n
  asInt_number _ := rfl
  asBoolean_bool _ := rfl
  asString_string _ := rfl

/-- A key with a slash in it and two headers, and with the placement's key and size. -/
def shared : XHttpConfiguration where
  host := "a".toList
  headers := ⟨[("X-A".toList, "1".toList), ("X-B".toList, [])], by decide⟩
  scMaxEachPostBytes := -5
  xPaddingKey := "p/q".toList
  uplinkDataPlacement := .cookie
  uplinkDataKey := "d".toList
  uplinkChunkSize := 9

theorem extra_round_trip_shared :
    (fromExtraJson OrgJson.strict shared.host shared.path shared.mode (toExtraJson shared)).equals
      shared :=
  (extra_round_trip OrgJson.strict shared).1
    ⟨by unfold XHttpConfiguration.Plain; decide, fun _ => by decide⟩

def withoutKey : XHttpConfiguration := { host := [], uplinkDataPlacement := .header }
def withBackslash : XHttpConfiguration := { host := [], sessionKey := "a\\nb".toList }
def withQuote : XHttpConfiguration :=
  { host := [], sessionKey := "a\"b".toList, scMinPostsIntervalMs := 7 }

/-- Whatever else org.json does, the first two do not come back; and one that throws at
what is no JSON makes defaults of the third, interval included. -/
theorem extra_json_loses :
    (∀ J : OrgJson, ∀ c ∈ [withoutKey, withBackslash],
      ¬ (fromExtraJson J c.host c.path c.mode (toExtraJson c)).equals c) ∧
    fromExtraJson OrgJson.strict withQuote.host withQuote.path withQuote.mode
    (toExtraJson withQuote) =
      { host := [] } := by
  refine ⟨fun J c hc => ?_, ?_⟩
  · rcases mem_pair.1 hc with rfl | rfl
    · have hquotable : withoutKey.Quotable := ⟨by decide, by decide⟩
      rw [equals_iff J hquotable]
      exact fun h => (h.2 (Or.inl rfl)).1 rfl
    · have hquotable : withBackslash.Quotable := ⟨by decide, by decide⟩
      rw [equals_iff J hquotable]
      exact fun h => absurd h.1 (by unfold XHttpConfiguration.Plain; decide)
  · have hparse : Json.parse (toExtraJson withQuote) = none := rfl
    have hblank : (toExtraJson withQuote).all Text.isWhitespace = false := rfl
    have hthrows : OrgJson.strict.jsonObject (toExtraJson withQuote) = none := by
      show (match Json.parse (toExtraJson withQuote) with
        | some (.object entries) => some entries
        | _ => none) = _
      rw [hparse]
    rw [fromExtraJson, hblank, hthrows]
    rfl

end Anywhere.Link.Extra
