import Anywhere.Lib.Json
import Anywhere.Lib.Utf8
import Anywhere.Config

/-!
# From YAML to JSON

The native bridge walks the events of a YAML stream and writes JSON as it goes: a
stack of at most 128 frames says for each open mapping or sequence whether a comma
or a colon stands in front of the next node.
-/

namespace Anywhere.Yaml

open Lib List

-- ----
-- Strings

/-- A digit of `%04x`. -/
def hexDigit (n : Nat) : UInt8 := UInt8.ofNat n.digitChar.toNat

/-- What stands for a byte inside a JSON string. -/
def escapeByte (c : UInt8) : Bytes :=
  if c = 0x22 then [0x5C, 0x22]
  else if c = 0x5C then [0x5C, 0x5C]
  else if c = 0x08 then [0x5C, 0x62]
  else if c = 0x0C then [0x5C, 0x66]
  else if c = 0x0A then [0x5C, 0x6E]
  else if c = 0x0D then [0x5C, 0x72]
  else if c = 0x09 then [0x5C, 0x74]
  else if c < 0x20 then
    [0x5C, 0x75, hexDigit (c.toNat / 4096 % 16), hexDigit (c.toNat / 256 % 16),
      hexDigit (c.toNat / 16 % 16), hexDigit (c.toNat % 16)]
  else [c]

/-- `strbuf_append_json_string`. -/
def appendJsonString (sb str : Bytes) : Bytes :=
  sb ++ [0x22] ++ str.flatMap escapeByte ++ [0x22]

-- ----
-- The stack

def maxDepth : Nat := 128

inductive ContextType
  | none
  | mappingKey
  | mappingValue
  | sequence

/-- `count` is a C int. -/
structure ContextFrame where
  type : ContextType
  count : Int

/-- The open frames, the innermost first; their number is `depth`. -/
abbrev Context := List ContextFrame

def increment (count : Int) : Int := (count + 1).bmod (2 ^ 32)

def contextPush (ctx : Context) (type : ContextType) : Option Context :=
  if ctx.length ≥ maxDepth then none else some (⟨type, 0⟩ :: ctx)

def contextPop (ctx : Context) : Context := ctx.tail

/-- The comma in front of every item but the first. -/
def comma (count : Int) : Text := if 0 < count then [','] else []

def encoded (text : Text) : Bytes := text.flatMap String.utf8EncodeChar

def separator : Context → Text
  | [] => []
  | frame :: _ =>
    match frame.type with
    | .mappingKey => comma frame.count
    | .mappingValue => [':']
    | .sequence => comma frame.count
    | .none => []

def emitSeparator (sb : Bytes) (ctx : Context) : Bytes := sb ++ encoded (separator ctx)

def advanceContext : Context → Context
  | [] => []
  | frame :: ctx =>
    match frame.type with
    | .mappingKey => ⟨.mappingValue, frame.count⟩ :: ctx
    | .mappingValue => ⟨.mappingKey, increment frame.count⟩ :: ctx
    | .sequence => ⟨.sequence, increment frame.count⟩ :: ctx
    | .none => frame :: ctx

-- ----
-- The loop

/-- An event of libyaml, with what the bridge reads of it. -/
inductive Event
  | streamStart
  | streamEnd
  | documentStart
  | documentEnd
  | mappingStart
  | mappingEnd
  | sequenceStart
  | sequenceEnd
  | scalar (value : Bytes)
  | alias
  | noEvent

/-- One turn of the loop; `none` is its error. -/
def handle (sb : Bytes) (ctx : Context) : Event → Option (Bytes × Context)
  | .streamStart | .streamEnd | .documentStart | .documentEnd | .noEvent => some (sb, ctx)
  | .mappingStart =>
    (contextPush ctx .mappingKey).map fun ctx' => (emitSeparator sb ctx ++ encoded ['{'], ctx')
  | .mappingEnd => some (sb ++ encoded ['}'], advanceContext (contextPop ctx))
  | .sequenceStart =>
    (contextPush ctx .sequence).map fun ctx' => (emitSeparator sb ctx ++ encoded ['['], ctx')
  | .sequenceEnd => some (sb ++ encoded [']'], advanceContext (contextPop ctx))
  | .scalar value => some (appendJsonString (emitSeparator sb ctx) value, advanceContext ctx)
  | .alias => some (emitSeparator sb ctx ++ encoded "null".toList, advanceContext ctx)

def Event.done : Event → Bool
  | .streamEnd | .noEvent => true
  | _ => false

/-- Where the events stop, `yaml_parser_parse` has failed. -/
def parseLoop (sb : Bytes) (ctx : Context) : List Event → Option Bytes
  | [] => none
  | event :: events =>
    match handle sb ctx event with
    | none => none
    | some (sb, ctx) => if event.done then some sb else parseLoop sb ctx events

/-- `libyaml` gives the events of a stream. -/
def yamlToJson (libyaml : Bytes → List Event) (yaml : Bytes) : Option Bytes :=
  parseLoop [] [] (libyaml yaml)

-- ----
-- Trees

/-- A document's tree, with scalars for the keys of its mappings. -/
inductive Node
  | scalar (value : Text)
  | alias
  | sequence (items : List Node)
  | mapping (entries : List (Text × Node))

namespace Node

mutual

def events : Node → List Event
  | .scalar value => [.scalar (encoded value)]
  | .alias => [.alias]
  | .sequence items => .sequenceStart :: eventsOfItems items ++ [.sequenceEnd]
  | .mapping entries => .mappingStart :: eventsOfEntries entries ++ [.mappingEnd]

def eventsOfItems : List Node → List Event
  | [] => []
  | item :: items => item.events ++ eventsOfItems items

def eventsOfEntries : List (Text × Node) → List Event
  | [] => []
  | (key, value) :: entries =>
    .scalar (encoded key) :: (value.events ++ eventsOfEntries entries)

end

def stream (node : Node) : List Event :=
  .streamStart :: .documentStart :: (node.events ++ [.documentEnd, .streamEnd])

mutual

/-- The containers around the innermost node. -/
def depth : Node → Nat
  | .scalar _ => 0
  | .alias => 0
  | .sequence items => depthOfItems items + 1
  | .mapping entries => depthOfEntries entries + 1

def depthOfItems : List Node → Nat
  | [] => 0
  | item :: items => max item.depth (depthOfItems items)

def depthOfEntries : List (Text × Node) → Nat
  | [] => 0
  | (_, value) :: entries => max value.depth (depthOfEntries entries)

end

mutual

/-- The most items of one container. -/
def width : Node → Nat
  | .scalar _ => 0
  | .alias => 0
  | .sequence items => max items.length (widthOfItems items)
  | .mapping entries => max entries.length (widthOfEntries entries)

def widthOfItems : List Node → Nat
  | [] => 0
  | item :: items => max item.width (widthOfItems items)

def widthOfEntries : List (Text × Node) → Nat
  | [] => 0
  | (_, value) :: entries => max value.width (widthOfEntries entries)

end

mutual

/-- The same tree as a JSON value: scalars are strings, aliases null. -/
def json : Node → Json
  | .scalar value => .string value
  | .alias => .null
  | .sequence items => .array (jsonOfItems items)
  | .mapping entries => .object (jsonOfEntries entries)

def jsonOfItems : List Node → List Json
  | [] => []
  | item :: items => item.json :: jsonOfItems items

def jsonOfEntries : List (Text × Node) → List (Text × Json)
  | [] => []
  | (key, value) :: entries => (key, value.json) :: jsonOfEntries entries

end

end Node

/-- The characters that `escapeByte` puts for the bytes of a character. -/
def escapeChar (c : Char) : Text :=
  if c.toNat < 0x80 then (escapeByte (UInt8.ofNat c.toNat)).map fun b => Char.ofNat b.toNat
  else [c]

def quoted (s : Text) : Text := '"' :: (s.flatMap escapeChar ++ ['"'])

namespace Node

mutual

def written : Node → Text
  | .scalar value => quoted value
  | .alias => "null".toList
  | .sequence items => '[' :: (writtenOfItems 0 items ++ [']'])
  | .mapping entries => '{' :: (writtenOfEntries 0 entries ++ ['}'])

def writtenOfItems (count : Int) : List Node → Text
  | [] => []
  | item :: items => comma count ++ item.written ++ writtenOfItems (increment count) items

def writtenOfEntries (count : Int) : List (Text × Node) → Text
  | [] => []
  | (key, value) :: entries =>
    comma count ++ quoted key ++ ':' :: value.written ++ writtenOfEntries (increment count) entries

end

end Node

-- ----
-- Escapes

theorem encoded_append (a b : Text) : encoded (a ++ b) = encoded a ++ encoded b :=
  flatMap_append

theorem encoded_cons (c : Char) (s : Text) : encoded (c :: s) = encoded [c] ++ encoded s := by
  rw [← encoded_append]
  rfl

theorem utf8EncodeChar_ascii {c : Char} (hc : c.toNat < 0x80) :
    String.utf8EncodeChar c = [UInt8.ofNat c.toNat] := by
  have h : c.val.toNat ≤ 0x7F := by
    rw [Char.toNat] at hc
    omega
  rw [String.utf8EncodeChar]
  simp only [h, if_true]
  rfl

/-- Behind ASCII, every byte of a character has its high bit. -/
theorem high_of_mem_utf8EncodeChar {c : Char} (hc : ¬ c.toNat < 0x80) {b : UInt8}
    (hb : b ∈ String.utf8EncodeChar c) : 0x80 ≤ b.toNat := by
  have h : ¬ c.val.toNat ≤ 0x7F := by
    rw [Char.toNat] at hc
    omega
  have hadd : ∀ {n k : Nat}, n + k < 256 → 0x80 ≤ k → 0x80 ≤ (UInt8.ofNat (n + k)).toNat := by
    intro n k hlt hk
    rw [toNat_ofNat_add hlt]
    omega
  rw [String.utf8EncodeChar] at hb
  simp only [h, if_false] at hb
  split_ifs at hb <;> simp only [mem_cons, not_mem_nil, or_false] at hb
  · rcases hb with rfl | rfl <;> exact hadd (by omega) (by omega)
  · rcases hb with rfl | rfl | rfl <;> exact hadd (by omega) (by omega)
  · rcases hb with rfl | rfl | rfl | rfl <;> exact hadd (by omega) (by omega)

theorem escapeByte_plain {b : UInt8} (hlow : 0x20 ≤ b.toNat) (hquote : b ≠ 0x22)
    (hback : b ≠ 0x5C) : escapeByte b = [b] := by
  have hne : ∀ k : UInt8, k.toNat < 0x20 → b ≠ k := by
    rintro k hk rfl
    omega
  have hlt : ¬ b < 0x20 := by
    rw [UInt8.lt_iff_toNat_lt]
    simpa using hlow
  simp [escapeByte, hlt, hquote, hback, hne 0x08 (by decide), hne 0x0C (by decide),
    hne 0x0A (by decide), hne 0x0D (by decide), hne 0x09 (by decide)]

theorem escapeByte_high {b : UInt8} (hb : 0x80 ≤ b.toNat) : escapeByte b = [b] := by
  refine escapeByte_plain (by omega) ?_ ?_
  · rintro rfl
    exact absurd hb (by decide)
  · rintro rfl
    exact absurd hb (by decide)

theorem escapeByte_ascii : ∀ n < 0x80,
    encoded ((escapeByte (UInt8.ofNat n)).map fun b => Char.ofNat b.toNat) =
      escapeByte (UInt8.ofNat n) := by
  decide

theorem escapeByte_char (c : Char) :
    (String.utf8EncodeChar c).flatMap escapeByte = encoded (escapeChar c) := by
  rw [escapeChar]
  split_ifs with hc
  · rw [escapeByte_ascii _ hc, utf8EncodeChar_ascii hc]
    simp
  · have hid : ∀ b ∈ String.utf8EncodeChar c, escapeByte b = [b] := fun b hb =>
      escapeByte_high (high_of_mem_utf8EncodeChar hc hb)
    rw [flatMap_congr hid]
    simp [encoded]

theorem appendJsonString_encoded (sb : Bytes) (s : Text) :
    appendJsonString sb (encoded s) = sb ++ encoded (quoted s) := by
  have hflat : (encoded s).flatMap escapeByte = encoded (s.flatMap escapeChar) := by
    rw [encoded, encoded, flatMap_assoc, flatMap_assoc]
    exact flatMap_congr fun c _ => escapeByte_char c
  have hquote : encoded ['"'] = [0x22] := by decide
  rw [appendJsonString, hflat, quoted, encoded_cons, encoded_append, hquote]
  simp

/-- An ASCII character stands for itself, behind a backslash or as a number. -/
theorem escapeByte_cases : ∀ n < 0x80,
    (escapeByte (UInt8.ofNat n)).map (fun b => Char.ofNat b.toNat) = [Char.ofNat n] ∧
        0x20 ≤ n ∧ Char.ofNat n ≠ '\\' ∧ Char.ofNat n ≠ '"' ∨
      (∃ e ∈ ['"', '\\', 'b', 'f', 'n', 'r', 't'],
        (escapeByte (UInt8.ofNat n)).map (fun b => Char.ofNat b.toNat) = ['\\', e] ∧
          e ≠ 'u' ∧ Json.simpleEscape e = some (Char.ofNat n)) ∨
      (escapeByte (UInt8.ofNat n)).map (fun b => Char.ofNat b.toNat) =
        ['\\', 'u', '0', '0', (n / 16).digitChar, (n % 16).digitChar] := by
  -- the control characters without a letter of their own
  have hcontrol : ∀ n < 0x20, n ∉ [8, 9, 10, 12, 13] →
      (escapeByte (UInt8.ofNat n)).map (fun b => Char.ofNat b.toNat) =
        ['\\', 'u', '0', '0', (n / 16).digitChar, (n % 16).digitChar] := by
    decide
  intro n hn
  by_cases hquote : n = 0x22
  · subst hquote
    exact .inr (.inl ⟨'"', by simp, by decide, by decide, by decide⟩)
  by_cases hback : n = 0x5C
  · subst hback
    exact .inr (.inl ⟨'\\', by simp, by decide, by decide, by decide⟩)
  by_cases hlow : n < 0x20
  · by_cases h8 : n = 8
    · subst h8
      exact .inr (.inl ⟨'b', by simp, by decide, by decide, by decide⟩)
    by_cases h9 : n = 9
    · subst h9
      exact .inr (.inl ⟨'t', by simp, by decide, by decide, by decide⟩)
    by_cases h10 : n = 10
    · subst h10
      exact .inr (.inl ⟨'n', by simp, by decide, by decide, by decide⟩)
    by_cases h12 : n = 12
    · subst h12
      exact .inr (.inl ⟨'f', by simp, by decide, by decide, by decide⟩)
    by_cases h13 : n = 13
    · subst h13
      exact .inr (.inl ⟨'r', by simp, by decide, by decide, by decide⟩)
    exact .inr (.inr (hcontrol n hlow (by simp [h8, h9, h10, h12, h13])))
  have hvalue : (UInt8.ofNat n).toNat = n := by
    rw [UInt8.toNat_ofNat']
    omega
  have hchar : (Char.ofNat n).toNat = n := by
    rw [Char.ofNat, dif_pos (.inl (by omega))]
    rfl
  have hplain : escapeByte (UInt8.ofNat n) = [UInt8.ofNat n] := by
    refine escapeByte_plain (by omega) (fun h => hquote ?_) fun h => hback ?_
    · simpa [hvalue] using congrArg UInt8.toNat h
    · simpa [hvalue] using congrArg UInt8.toNat h
  refine .inl ⟨by rw [hplain, map_singleton, hvalue], by omega, fun h => hback ?_,
    fun h => hquote ?_⟩
  · simpa [hchar] using congrArg Char.toNat h
  · simpa [hchar] using congrArg Char.toNat h

theorem unicodeEscape_byte {n : Nat} (hn : n < 0x80) (rest : Text) :
    Json.unicodeEscape ('0' :: '0' :: (n / 16).digitChar :: (n % 16).digitChar :: rest) =
      some (Char.ofNat n, rest) := by
  have hzero : Text.digitOf '0' 16 = some 0 := by decide
  have hhigh : Text.digitOf (n / 16).digitChar 16 = some (n / 16) :=
    Text.digitOf_digitChar (by omega) (by omega)
  have hlow : Text.digitOf (n % 16).digitChar 16 = some (n % 16) :=
    Text.digitOf_digitChar (by omega) (by omega)
  have hsum : n / 16 * 16 + n % 16 = n := by omega
  have hunit : n < 0xD800 := by omega
  simp [Json.unicodeEscape, Json.hexQuad, hzero, hhigh, hlow, hsum, hunit]

theorem stringChar_plain {c : Char} (hb : c ≠ '\\') (hc : 0x20 ≤ c.toNat) (rest : Text) :
    Json.stringChar (c :: rest) = some (c, rest) := by
  have h : ¬ c.toNat < 0x20 := by omega
  simp only [Json.stringChar, hb, h, if_false]

theorem escaping_escapeChar : Json.Escaping escapeChar := by
  have hascii : ∀ {c : Char}, c.toNat < 0x80 →
      escapeChar c = (escapeByte (UInt8.ofNat c.toNat)).map fun b => Char.ofNat b.toNat := by
    intro c hc
    rw [escapeChar, if_pos hc]
  have hhigh : ∀ {c : Char}, ¬ c.toNat < 0x80 → escapeChar c = [c] ∧ c ≠ '\\' ∧ c ≠ '"' := by
    intro c hc
    refine ⟨by rw [escapeChar, if_neg hc], ?_, ?_⟩ <;> (rintro rfl; exact hc (by decide))
  refine ⟨fun c rest => ?_, fun c => ?_, fun c => ?_⟩
  · by_cases hc : c.toNat < 0x80
    · rw [hascii hc]
      obtain ⟨h, hlow, hback, -⟩ | ⟨e, -, h, hu, he⟩ | h := escapeByte_cases c.toNat hc <;> rw [h]
      · rw [Char.ofNat_toNat] at hback ⊢
        exact stringChar_plain hback hlow rest
      · rw [Char.ofNat_toNat] at he
        simp [Json.stringChar, hu, he]
      · have hunit := unicodeEscape_byte hc rest
        rw [Char.ofNat_toNat] at hunit
        simpa [Json.stringChar] using hunit
    · obtain ⟨h, hback, -⟩ := hhigh hc
      rw [h]
      exact stringChar_plain hback (by omega) rest
  · by_cases hc : c.toNat < 0x80
    · rw [hascii hc]
      obtain ⟨h, -, -, hquote⟩ | ⟨e, -, h, -⟩ | h := escapeByte_cases c.toNat hc <;> rw [h]
      · simpa using hquote
      · simp
      · simp
    · obtain ⟨h, -, hquote⟩ := hhigh hc
      rw [h]
      simpa using hquote
  · by_cases hc : c.toNat < 0x80
    · rw [hascii hc]
      obtain ⟨h, -⟩ | ⟨e, -, h, -⟩ | h := escapeByte_cases c.toNat hc <;> simp [h]
    · simp [(hhigh hc).1]

-- ----
-- Writing a tree

attribute [local grind =] parseLoop handle

/-- Every node begins with its separator and ends with its frame moved on. -/
theorem parseLoop_scalar (sb : Bytes) (ctx : Context) (s : Text) (rest : List Event) :
    parseLoop sb ctx (.scalar (encoded s) :: rest) =
      parseLoop (emitSeparator sb ctx ++ encoded (quoted s)) (advanceContext ctx) rest := by
  simp only [parseLoop, handle, Event.done, Bool.false_eq_true, if_false]
  rw [appendJsonString_encoded]

theorem parseLoop_alias (sb : Bytes) (ctx : Context) (rest : List Event) :
    parseLoop sb ctx (.alias :: rest) =
      parseLoop (emitSeparator sb ctx ++ encoded "null".toList) (advanceContext ctx) rest := by
  simp only [parseLoop, handle, Event.done, Bool.false_eq_true, if_false]

theorem contextPush_room {ctx : Context} (h : ctx.length < maxDepth) (type : ContextType) :
    contextPush ctx type = some (⟨type, 0⟩ :: ctx) := by
  rw [contextPush, if_neg (by omega)]

theorem parseLoop_sequence (items : List Node) (sb : Bytes) {ctx : Context} (rest : List Event)
    (hroom : ctx.length < maxDepth) :
    parseLoop sb ctx ((Node.sequence items).events ++ rest) =
      parseLoop (emitSeparator sb ctx ++ encoded ['[']) (⟨.sequence, 0⟩ :: ctx)
        (Node.eventsOfItems items ++ .sequenceEnd :: rest) := by
  rw [Node.events]
  simp only [cons_append, append_assoc, nil_append, parseLoop, handle,
    contextPush_room hroom, Option.map_some, Event.done, Bool.false_eq_true, if_false]

theorem parseLoop_mapping (entries : List (Text × Node)) (sb : Bytes) {ctx : Context}
    (rest : List Event) (hroom : ctx.length < maxDepth) :
    parseLoop sb ctx ((Node.mapping entries).events ++ rest) =
      parseLoop (emitSeparator sb ctx ++ encoded ['{']) (⟨.mappingKey, 0⟩ :: ctx)
        (Node.eventsOfEntries entries ++ .mappingEnd :: rest) := by
  rw [Node.events]
  simp only [cons_append, append_assoc, nil_append, parseLoop, handle,
    contextPush_room hroom, Option.map_some, Event.done, Bool.false_eq_true, if_false]

theorem parseLoop_sequenceEnd (sb : Bytes) (frame : ContextFrame) (ctx : Context)
    (rest : List Event) :
    parseLoop sb (frame :: ctx) (.sequenceEnd :: rest) =
      parseLoop (sb ++ encoded [']']) (advanceContext ctx) rest := by
  simp [parseLoop, handle, contextPop, Event.done]

theorem parseLoop_mappingEnd (sb : Bytes) (frame : ContextFrame) (ctx : Context)
    (rest : List Event) :
    parseLoop sb (frame :: ctx) (.mappingEnd :: rest) =
      parseLoop (sb ++ encoded ['}']) (advanceContext ctx) rest := by
  simp [parseLoop, handle, contextPop, Event.done]

theorem written_sequence (items : List Node) :
    encoded (Node.sequence items).written =
      encoded ['['] ++ encoded (Node.writtenOfItems 0 items) ++ encoded [']'] := by
  rw [Node.written, encoded_cons, encoded_append, append_assoc]

theorem written_mapping (entries : List (Text × Node)) :
    encoded (Node.mapping entries).written =
      encoded ['{'] ++ encoded (Node.writtenOfEntries 0 entries) ++ encoded ['}'] := by
  rw [Node.written, encoded_cons, encoded_append, append_assoc]

mutual

theorem parseLoop_node (sb : Bytes) (ctx : Context) (rest : List Event) : ∀ node : Node,
    ctx.length + node.depth ≤ maxDepth →
      parseLoop sb ctx (node.events ++ rest) =
        parseLoop (emitSeparator sb ctx ++ encoded node.written) (advanceContext ctx) rest
  | .scalar value, _ => parseLoop_scalar sb ctx value rest
  | .alias, _ => parseLoop_alias sb ctx rest
  | .sequence items, hroom => by
    rw [Node.depth] at hroom
    obtain ⟨count, hitems⟩ := parseLoop_items (emitSeparator sb ctx ++ encoded ['[']) ctx 0
      (.sequenceEnd :: rest) items (by omega)
    rw [parseLoop_sequence items sb rest (by omega), hitems, parseLoop_sequenceEnd,
      written_sequence]
    simp only [append_assoc]
  | .mapping entries, hroom => by
    rw [Node.depth] at hroom
    obtain ⟨count, hentries⟩ := parseLoop_entries (emitSeparator sb ctx ++ encoded ['{']) ctx 0
      (.mappingEnd :: rest) entries (by omega)
    rw [parseLoop_mapping entries sb rest (by omega), hentries, parseLoop_mappingEnd,
      written_mapping]
    simp only [append_assoc]

theorem parseLoop_items (sb : Bytes) (ctx : Context) (count : Int) (rest : List Event) :
    ∀ items : List Node, ctx.length + 1 + Node.depthOfItems items ≤ maxDepth →
      ∃ count', parseLoop sb (⟨.sequence, count⟩ :: ctx) (Node.eventsOfItems items ++ rest) =
        parseLoop (sb ++ encoded (Node.writtenOfItems count items)) (⟨.sequence, count'⟩ :: ctx)
          rest
  | [], _ => ⟨count, by simp [Node.eventsOfItems, Node.writtenOfItems, encoded]⟩
  | item :: items, hroom => by
    rw [Node.depthOfItems] at hroom
    obtain ⟨count', hitems⟩ := parseLoop_items (sb ++ encoded (comma count) ++ encoded item.written)
      ctx (increment count) rest items (by omega)
    refine ⟨count', ?_⟩
    rw [Node.eventsOfItems, append_assoc, parseLoop_node _ _ _ item (by simp; omega),
      Node.writtenOfItems, encoded_append, encoded_append]
    simp only [emitSeparator, separator, advanceContext, append_assoc] at hitems ⊢
    exact hitems

theorem parseLoop_entries (sb : Bytes) (ctx : Context) (count : Int) (rest : List Event) :
    ∀ entries : List (Text × Node), ctx.length + 1 + Node.depthOfEntries entries ≤ maxDepth →
      ∃ count', parseLoop sb (⟨.mappingKey, count⟩ :: ctx) (Node.eventsOfEntries entries ++ rest) =
        parseLoop (sb ++ encoded (Node.writtenOfEntries count entries))
          (⟨.mappingKey, count'⟩ :: ctx) rest
  | [], _ => ⟨count, by simp [Node.eventsOfEntries, Node.writtenOfEntries, encoded]⟩
  | (key, value) :: entries, hroom => by
    rw [Node.depthOfEntries] at hroom
    obtain ⟨count', hentries⟩ := parseLoop_entries
      (sb ++ encoded (comma count) ++ encoded (quoted key) ++ encoded [':'] ++
        encoded value.written) ctx (increment count) rest entries (by omega)
    refine ⟨count', ?_⟩
    -- the key turns the frame to its value, the value back to the next key
    rw [Node.eventsOfEntries, cons_append, append_assoc, parseLoop_scalar,
      parseLoop_node _ _ _ value (by simp [advanceContext]; omega), Node.writtenOfEntries,
      encoded_append, encoded_append, encoded_cons, encoded_append]
    simp only [emitSeparator, separator, advanceContext, append_assoc] at hentries ⊢
    exact hentries

end

mutual

/-- A node that nests too deep ends the conversion. -/
theorem parseLoop_deep (sb : Bytes) (ctx : Context) (rest : List Event) : ∀ node : Node,
    ctx.length ≤ maxDepth → maxDepth < ctx.length + node.depth →
      parseLoop sb ctx (node.events ++ rest) = none
  | .scalar _, hle, hdeep => by
    rw [Node.depth] at hdeep
    omega
  | .alias, hle, hdeep => by
    rw [Node.depth] at hdeep
    omega
  | .sequence items, hle, hdeep => by
    rw [Node.depth] at hdeep
    by_cases hroom : ctx.length < maxDepth
    · rw [parseLoop_sequence items sb rest hroom]
      exact parseLoop_deepItems _ ctx 0 _ items hroom (by omega)
    · simp [Node.events, parseLoop, handle, contextPush, Nat.le_of_not_lt hroom]
  | .mapping entries, hle, hdeep => by
    rw [Node.depth] at hdeep
    by_cases hroom : ctx.length < maxDepth
    · rw [parseLoop_mapping entries sb rest hroom]
      exact parseLoop_deepEntries _ ctx 0 _ entries hroom (by omega)
    · simp [Node.events, parseLoop, handle, contextPush, Nat.le_of_not_lt hroom]

theorem parseLoop_deepItems (sb : Bytes) (ctx : Context) (count : Int) (rest : List Event) :
    ∀ items : List Node, ctx.length < maxDepth →
      maxDepth < ctx.length + 1 + Node.depthOfItems items →
      parseLoop sb (⟨.sequence, count⟩ :: ctx) (Node.eventsOfItems items ++ rest) = none
  | [], hroom, hdeep => by
    rw [Node.depthOfItems] at hdeep
    omega
  | item :: items, hroom, hdeep => by
    rw [Node.depthOfItems] at hdeep
    rw [Node.eventsOfItems, append_assoc]
    by_cases hitem : maxDepth < ctx.length + 1 + item.depth
    · exact parseLoop_deep _ _ _ item hroom (by simpa using hitem)
    · rw [parseLoop_node _ _ _ item (by simp; omega)]
      exact parseLoop_deepItems _ ctx (increment count) rest items hroom (by omega)

theorem parseLoop_deepEntries (sb : Bytes) (ctx : Context) (count : Int) (rest : List Event) :
    ∀ entries : List (Text × Node), ctx.length < maxDepth →
      maxDepth < ctx.length + 1 + Node.depthOfEntries entries →
      parseLoop sb (⟨.mappingKey, count⟩ :: ctx) (Node.eventsOfEntries entries ++ rest) = none
  | [], hroom, hdeep => by
    rw [Node.depthOfEntries] at hdeep
    omega
  | (key, value) :: entries, hroom, hdeep => by
    rw [Node.depthOfEntries] at hdeep
    rw [Node.eventsOfEntries, cons_append, append_assoc, parseLoop_scalar]
    by_cases hvalue : maxDepth < ctx.length + 1 + value.depth
    · exact parseLoop_deep _ _ _ value hroom
        (by simpa [advanceContext] using hvalue)
    · rw [parseLoop_node _ _ _ value (by simp [advanceContext]; omega)]
      exact parseLoop_deepEntries _ ctx (increment count) rest entries hroom (by omega)

end

-- ----
-- Reading it back

theorem increment_of_lt {k : Nat} (hk : k + 1 < 2 ^ 31) : increment k = (k + 1 : Nat) := by
  rw [increment, Int.bmod_def]
  omega

theorem comma_succ (k : Nat) : comma (k + 1 : Nat) = [','] := by
  rw [comma, if_pos (by omega)]

theorem written_pos (node : Node) : 2 ≤ node.written.length := by
  rcases node with value | _ | items | entries <;> simp [Node.written, quoted]

mutual

/-- A JSON parser reads a node's text back. -/
theorem parseValue_node (n : Nat) (rest : Text) : ∀ node : Node,
    node.width < 2 ^ 31 → Json.callsFor node.written ≤ n →
      Json.parseValue n (node.written ++ rest) = some (node.json, rest)
  | .scalar value, _, hn => by
    have hpos := written_pos (.scalar value)
    rw [Json.callsFor] at hn
    obtain ⟨n, rfl⟩ : ∃ m, n = m + 1 := ⟨n - 1, by omega⟩
    rw [Node.written, Node.json, quoted, cons_append, append_assoc]
    exact Json.parseValue_string (escaping_escapeChar.denotes value) rest
  | .alias, _, hn => by
    have hpos := written_pos .alias
    rw [Json.callsFor] at hn
    obtain ⟨n, rfl⟩ : ∃ m, n = m + 1 := ⟨n - 1, by omega⟩
    exact Json.parseValue_null rest
  | .sequence items, hwidth, hn => by
    rw [Node.width] at hwidth
    rw [Json.callsFor, Node.written, length_cons, length_append] at hn
    obtain ⟨n, rfl⟩ : ∃ m, n = m + 1 := ⟨n - 1, by omega⟩
    rw [Node.written, Node.json, cons_append, append_assoc]
    by_cases hitems : items = []
    · subst hitems
      exact Json.parseValue_nil rest
    · exact Json.parseValue_array (parseItems_items n 0 rest items hitems (by omega) (by omega)
        (Node.writtenOfItems 0 items) rfl (by simp at hn; omega))
  | .mapping entries, hwidth, hn => by
    rw [Node.width] at hwidth
    rw [Json.callsFor, Node.written, length_cons, length_append] at hn
    obtain ⟨n, rfl⟩ : ∃ m, n = m + 1 := ⟨n - 1, by omega⟩
    rw [Node.written, Node.json, cons_append, append_assoc]
    by_cases hentries : entries = []
    · subst hentries
      exact Json.parseValue_empty rest
    · exact Json.parseValue_object (parseEntries_entries n 0 rest entries hentries (by omega)
        (by omega) (Node.writtenOfEntries 0 entries) rfl (by simp at hn; omega))

theorem parseItems_items (n k : Nat) (rest : Text) : ∀ items : List Node, items ≠ [] →
    k + items.length < 2 ^ 31 → Node.widthOfItems items < 2 ^ 31 →
      ∀ text, Node.writtenOfItems k items = comma k ++ text → 2 * (text.length + 1) ≤ n →
        Json.parseItems n (text ++ ']' :: rest) = some (Node.jsonOfItems items, rest)
  | [], hne, _, _, _, _, _ => absurd rfl hne
  | [item], _, hk, hwidth, text, htext, hn => by
    rw [Node.widthOfItems] at hwidth
    obtain ⟨n, rfl⟩ : ∃ m, n = m + 1 := ⟨n - 1, by omega⟩
    have heq : text = item.written := by
      simpa [Node.writtenOfItems] using htext.symm
    subst heq
    exact Json.parseItems_last (parseValue_node n (']' :: rest) item (by omega)
      (by rw [Json.callsFor]; omega))
  | item :: next :: items, _, hk, hwidth, text, htext, hn => by
    rw [Node.widthOfItems] at hwidth
    rw [length_cons] at hk
    obtain ⟨n, rfl⟩ : ∃ m, n = m + 1 := ⟨n - 1, by omega⟩
    obtain ⟨more, hmore⟩ : ∃ more, Node.writtenOfItems (k + 1 : Nat) (next :: items) =
        comma (k + 1 : Nat) ++ more := ⟨_, by rw [Node.writtenOfItems, append_assoc]⟩
    have heq : text = item.written ++ ',' :: more := by
      rw [Node.writtenOfItems, increment_of_lt (by simp at hk; omega), hmore, comma_succ,
        append_assoc] at htext
      simpa using htext.symm
    have hlen : text.length = item.written.length + more.length + 1 := by
      rw [heq]
      simp
      omega
    rw [heq, append_assoc]
    exact Json.parseItems_cons
      (parseValue_node n (',' :: (more ++ ']' :: rest)) item (by omega)
        (by rw [Json.callsFor]; omega))
      (parseItems_items n (k + 1) rest (next :: items) (by simp) (by simp at hk ⊢; omega)
        (by omega) more hmore (by omega))

theorem parseEntries_entries (n k : Nat) (rest : Text) : ∀ entries : List (Text × Node),
    entries ≠ [] → k + entries.length < 2 ^ 31 → Node.widthOfEntries entries < 2 ^ 31 →
      ∀ text, Node.writtenOfEntries k entries = comma k ++ text → 2 * (text.length + 1) ≤ n →
        Json.parseEntries n (text ++ '}' :: rest) = some (Node.jsonOfEntries entries, rest)
  | [], hne, _, _, _, _, _ => absurd rfl hne
  | [(key, value)], _, hk, hwidth, text, htext, hn => by
    rw [Node.widthOfEntries] at hwidth
    obtain ⟨n, rfl⟩ : ∃ m, n = m + 1 := ⟨n - 1, by omega⟩
    have heq : text = '"' :: (key.flatMap escapeChar ++ '"' :: ':' :: value.written) := by
      simpa [Node.writtenOfEntries, quoted] using htext.symm
    have hlen : value.written.length ≤ text.length := by
      rw [heq]
      simp [-length_flatMap]
      omega
    have hlast := Json.parseEntries_last (escaping_escapeChar.denotes key)
      (parseValue_node n ('}' :: rest) value (by omega) (by rw [Json.callsFor]; omega))
    rw [heq]
    simpa [Node.jsonOfEntries] using hlast
  | (key, value) :: next :: entries, _, hk, hwidth, text, htext, hn => by
    rw [Node.widthOfEntries] at hwidth
    rw [length_cons] at hk
    obtain ⟨n, rfl⟩ : ∃ m, n = m + 1 := ⟨n - 1, by omega⟩
    obtain ⟨more, hmore⟩ : ∃ more, Node.writtenOfEntries (k + 1 : Nat) (next :: entries) =
        comma (k + 1 : Nat) ++ more := by
      rcases next with ⟨key', value'⟩
      exact ⟨_, by rw [Node.writtenOfEntries, append_assoc, append_assoc]⟩
    have heq : text =
        '"' :: (key.flatMap escapeChar ++ '"' :: ':' :: (value.written ++ ',' :: more)) := by
      rw [Node.writtenOfEntries, increment_of_lt (by simp at hk; omega), hmore, comma_succ] at htext
      simpa [quoted] using htext.symm
    have hlen : value.written.length + more.length + 1 ≤ text.length := by
      rw [heq]
      simp [-length_flatMap]
      omega
    have hcons := Json.parseEntries_cons (escaping_escapeChar.denotes key)
      (parseValue_node n (',' :: (more ++ '}' :: rest)) value (by omega)
        (by rw [Json.callsFor]; omega))
      (parseEntries_entries n (k + 1) rest (next :: entries) (by simp) (by simp at hk ⊢; omega)
        (by omega) more hmore (by omega))
    rw [heq]
    simpa [Node.jsonOfEntries] using hcons

end

-- ----
-- The conversion

/-- What is taken for granted of libyaml on a stream with one document: the order of
its events, and that every item of a container takes a byte of the stream. -/
structure Presents (libyaml : Bytes → List Event) (yaml : Bytes) (node : Node) : Prop where
  order : libyaml yaml = node.stream
  bytes : node.width ≤ yaml.length

theorem yamlToJson_shallow {libyaml : Bytes → List Event} {yaml : Bytes} {node : Node}
    (horder : libyaml yaml = node.stream) (hdepth : node.depth ≤ maxDepth) :
    yamlToJson libyaml yaml = some (encoded node.written) := by
  have hnode := parseLoop_node [] [] [.documentEnd, .streamEnd] node (by simpa using hdepth)
  rw [yamlToJson, horder, Node.stream]
  simpa [parseLoop, handle, Event.done, emitSeparator, separator, encoded] using hnode

/-- The conversion keeps the structure of a document that nests at most 128 deep, and
fails on any other. The stream is a Java string's UTF-8, whose length is a `jsize`. -/
theorem yamlToJson_structure (libyaml : Bytes → List Event) (yaml : Bytes) (node : Node)
    (hyaml : Presents libyaml yaml node) (hjsize : yaml.length < 2 ^ 31) :
    (node.depth ≤ 128 → ∃ text, yamlToJson libyaml yaml = some (encoded text) ∧
      Json.parse text = some node.json) ∧
    (128 < node.depth → yamlToJson libyaml yaml = none) := by
  have hwidth := hyaml.bytes
  refine ⟨fun hdepth => ⟨node.written, yamlToJson_shallow hyaml.order hdepth, ?_⟩, fun hdeep => ?_⟩
  · have hparse := parseValue_node _ [] node (by omega) (Nat.le_refl _)
    rw [append_nil] at hparse
    exact Json.parse_of_parseValue hparse
  · have hnode := parseLoop_deep [] [] [.documentEnd, .streamEnd] node (by simp)
      (by simpa [maxDepth] using hdeep)
    rw [yamlToJson, hyaml.order, Node.stream]
    simpa [parseLoop, handle, Event.done] using hnode

/-- `a: [b, *a]`. -/
theorem yamlToJson_structure_alias :
    let node := Node.mapping [("a".toList, .sequence [.scalar "b".toList, .alias])]
    ∃ text, yamlToJson (fun _ => node.stream) (encoded "a: [b, *a]".toList) =
        some (encoded text) ∧
      Json.parse text = some node.json :=
  (yamlToJson_structure (fun _ => _) (encoded "a: [b, *a]".toList) _
    ⟨rfl, by decide⟩ (by decide)).1 (by decide)

end Anywhere.Yaml
