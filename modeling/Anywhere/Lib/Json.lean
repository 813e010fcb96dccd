import Anywhere.Lib.Text

/-!
# JSON

A parser of JSON texts (RFC 8259) into values that keep the order of an object's
entries, and what it takes for a writer to be read back.

* `Json.parse` — one value, with white space around it, and nothing behind.
* `Denotes` — what a writer puts between two quotes, and the string that is read; a
  plain text denotes itself.
* `Escaping` — a way to write characters inside a string that is read back.
* `Reads` — a text that is read as a value in front of a comma or a closing bracket;
  `reads_object` puts such texts together, `parse_of_reads` is the whole text.
-/

namespace Anywhere.Lib

open List

/-- A value; a number is kept as its text. -/
inductive Json
  | null
  | bool (value : Bool)
  | number (text : Text)
  | string (value : Text)
  | array (items : List Json)
  | object (entries : List (Text × Json))

namespace Json

/-- No object has a name twice. -/
inductive Distinct : Json → Prop
  | null : Distinct null
  | bool (value : Bool) : Distinct (bool value)
  | number (text : Text) : Distinct (number text)
  | string (value : Text) : Distinct (string value)
  | array {items : List Json} (h : ∀ v ∈ items, Distinct v) : Distinct (array items)
  | object {entries : List (Text × Json)} (names : (entries.map Prod.fst).Nodup)
      (h : ∀ e ∈ entries, Distinct e.2) : Distinct (object entries)

-- ----
-- Strings

/-- The number of the hexadecimal digits at the front. -/
def hexQuad : Text → Option (Nat × Text)
  | a :: b :: c :: d :: rest =>
    match Text.digitOf a 16, Text.digitOf b 16, Text.digitOf c 16, Text.digitOf d 16 with
    | some w, some x, some y, some z => some (w * 4096 + x * 256 + y * 16 + z, rest)
    | _, _, _, _ => none
  | _ => none

/-- Behind `\u`: a code unit, or a pair of surrogates. A surrogate alone denotes no
character. -/
def unicodeEscape (text : Text) : Option (Char × Text) :=
  (hexQuad text).bind fun (high, rest) =>
    if high < 0xD800 ∨ 0xDFFF < high then some (Char.ofNat high, rest)
    else if 0xDBFF < high then none
    else
      match rest with
      | '\\' :: 'u' :: rest =>
        (hexQuad rest).bind fun (low, rest) =>
          if low < 0xDC00 ∨ 0xDFFF < low then none
          else some (Char.ofNat (0x10000 + (high - 0xD800) * 0x400 + (low - 0xDC00)), rest)
      | _ => none

/-- The character that a letter behind a backslash stands for. -/
def simpleEscape (c : Char) : Option Char :=
  if c = '"' ∨ c = '\\' ∨ c = '/' then some c
  else if c = 'b' then some (Char.ofNat 8)
  else if c = 'f' then some (Char.ofNat 12)
  else if c = 'n' then some '\n'
  else if c = 'r' then some '\r'
  else if c = 't' then some '\t'
  else none

/-- The first character of a string's contents. -/
def stringChar : Text → Option (Char × Text)
  | [] => none
  | c :: rest =>
    if c = '\\' then
      match rest with
      | [] => none
      | e :: rest =>
        if e = 'u' then unicodeEscape rest
        else (simpleEscape e).map fun d => (d, rest)
    else if c.toNat < 0x20 then none
    else some (c, rest)

/-- The contents of a string, up to its closing quote. -/
def stringBody : Nat → Text → Option (Text × Text)
  | 0, _ => none
  | n + 1, text =>
    if text.head? = some '"' then some ([], text.tail)
    else
      (stringChar text).bind fun (c, rest) =>
        (stringBody n rest).map fun (cs, rest) => (c :: cs, rest)

-- ----
-- Numbers

def isDigit (c : Char) : Bool := '0' ≤ c && c ≤ '9'

def digits (text : Text) : Option (Text × Text) :=
  if (text.takeWhile isDigit).isEmpty then none
  else some (text.takeWhile isDigit, text.dropWhile isDigit)

/-- The integer part: a zero, or digits that do not begin with one. -/
def integerPart (text : Text) : Option (Text × Text) :=
  if text.head? = some '0' then some (['0'], text.tail) else digits text

def fraction (text : Text) : Option (Text × Text) :=
  if text.head? = some '.' then
    (digits text.tail).map fun (ds, rest) => ('.' :: ds, rest)
  else some ([], text)

def sign (allowed : List Char) (text : Text) : Text × Text :=
  match text with
  | c :: rest => if c ∈ allowed then ([c], rest) else ([], text)
  | [] => ([], text)

def exponent : Text → Option (Text × Text)
  | c :: rest =>
    if c = 'e' ∨ c = 'E' then
      (digits (sign ['+', '-'] rest).2).map fun (ds, rest') =>
        (c :: (sign ['+', '-'] rest).1 ++ ds, rest')
    else some ([], c :: rest)
  | [] => some ([], [])

def scanNumber (text : Text) : Option (Text × Text) :=
  (integerPart (sign ['-'] text).2).bind fun (whole, r1) =>
    (fraction r1).bind fun (part, r2) =>
      (exponent r2).map fun (power, r3) => ((sign ['-'] text).1 ++ whole ++ part ++ power, r3)

-- ----
-- Values

def isSpace (c : Char) : Bool := c = ' ' || c = '\t' || c = '\n' || c = '\r'

def skipSpace (text : Text) : Text := text.dropWhile isSpace

/-- One of the words `null`, `true` and `false`. -/
def word (w : Text) (v : Json) (text : Text) : Option (Json × Text) :=
  if w <+: text then some (v, text.drop w.length) else none

mutual

/-- The value at the front, behind white space; the number bounds the calls. -/
def parseValue : Nat → Text → Option (Json × Text)
  | 0, _ => none
  | n + 1, text =>
    match skipSpace text with
    | [] => none
    | c :: rest =>
      if c = '"' then (stringBody text.length rest).map fun (s, rest) => (string s, rest)
      else if c = '[' then
        if (skipSpace rest).head? = some ']' then some (array [], (skipSpace rest).tail)
        else (parseItems n rest).map fun (vs, rest) => (array vs, rest)
      else if c = '{' then
        if (skipSpace rest).head? = some '}' then some (object [], (skipSpace rest).tail)
        else (parseEntries n rest).map fun (es, rest) => (object es, rest)
      else if c = 'n' then word "null".toList null (c :: rest)
      else if c = 't' then word "true".toList (bool true) (c :: rest)
      else if c = 'f' then word "false".toList (bool false) (c :: rest)
      else (scanNumber (c :: rest)).map fun (t, rest) => (number t, rest)

/-- The items of an array, up to its closing bracket. -/
def parseItems : Nat → Text → Option (List Json × Text)
  | 0, _ => none
  | n + 1, text =>
    (parseValue n text).bind fun (v, rest) =>
      match skipSpace rest with
      | [] => none
      | c :: rest =>
        if c = ']' then some ([v], rest)
        else if c = ',' then (parseItems n rest).map fun (vs, rest) => (v :: vs, rest)
        else none

/-- The entries of an object, up to its closing brace. -/
def parseEntries : Nat → Text → Option (List (Text × Json) × Text)
  | 0, _ => none
  | n + 1, text =>
    if (skipSpace text).head? = some '"' then
      (stringBody text.length (skipSpace text).tail).bind fun (k, rest) =>
        if (skipSpace rest).head? = some ':' then
          (parseValue n (skipSpace rest).tail).bind fun (v, rest) =>
            match skipSpace rest with
            | [] => none
            | c :: rest =>
              if c = '}' then some ([(k, v)], rest)
              else if c = ',' then (parseEntries n rest).map fun (es, rest) => ((k, v) :: es, rest)
              else none
        else none
    else none

end

attribute [local grind =] parseValue parseItems parseEntries

/-- The calls that a text can take: two for each of its characters. -/
def callsFor (text : Text) : Nat := 2 * text.length

def parse (text : Text) : Option Json :=
  (parseValue (callsFor text) text).bind fun (v, rest) =>
    if skipSpace rest = [] then some v else none

-- ----
-- Reading a string back

/-- A way to write characters that the parser reads back, one by one. -/
structure Escaping (escape : Char → Text) : Prop where
  reads : ∀ c rest, stringChar (escape c ++ rest) = some (c, rest)
  opens : ∀ c, (escape c).head? ≠ some '"'
  nonempty : ∀ c, escape c ≠ []

variable {escape : Char → Text}

theorem Escaping.head_append (he : Escaping escape) (c : Char)
    (rest : Text) : (escape c ++ rest).head? ≠ some '"' := by
  have hne := he.nonempty c
  have hopen := he.opens c
  rcases h : escape c with _ | ⟨e, es⟩
  · exact absurd h hne
  · rw [h] at hopen
    simpa using hopen

theorem Escaping.length_le (he : Escaping escape) (s : Text) :
    s.length ≤ (s.flatMap escape).length := by
  induction s with
  | nil => simp
  | cons c s ih =>
    have hpos := length_pos_iff.mpr (he.nonempty c)
    rw [flatMap_cons, length_append, length_cons]
    omega

/-- Between two quotes, the first text stands for the second one. -/
def Denotes (s value : Text) : Prop := stringBody (s.length + 1) (s ++ ['"']) = some (value, [])

theorem stringBody_escaped (he : Escaping escape) (s rest : Text) {n : Nat}
    (hn : s.length < n) :
    stringBody n (s.flatMap escape ++ '"' :: rest) = some (s, rest) := by
  induction s generalizing n with
  | nil =>
    rcases n with _ | n
    · omega
    · simp [stringBody]
  | cons c s ih =>
    rcases n with _ | n
    · omega
    · rw [flatMap_cons, append_assoc, stringBody, if_neg (he.head_append c _), he.reads]
      simp [ih (n := n) (by simpa using hn)]

theorem Escaping.denotes (he : Escaping escape) (s : Text) :
    Denotes (s.flatMap escape) s :=
  stringBody_escaped he s [] (Nat.lt_succ_of_le (he.length_le s))

variable {rest text value : Text}

theorem hexQuad_append {v : Nat} (h : hexQuad text = some (v, rest)) (more : Text) :
    hexQuad (text ++ more) = some (v, rest ++ more) ∧ rest.length + 4 = text.length := by
  match text, h with
  | a :: b :: c :: d :: text, h =>
    rw [hexQuad] at h
    rw [cons_append, cons_append, cons_append, cons_append, hexQuad]
    cases ha : Text.digitOf a 16 <;> cases hb : Text.digitOf b 16 <;>
      cases hc : Text.digitOf c 16 <;> cases hd : Text.digitOf d 16 <;>
      simp_all

theorem unicodeEscape_append {v : Char} (h : unicodeEscape text = some (v, rest))
    (more : Text) :
    unicodeEscape (text ++ more) = some (v, rest ++ more) ∧ rest.length < text.length := by
  rw [unicodeEscape, Option.bind_eq_some_iff] at h
  obtain ⟨⟨high, r1⟩, hhigh, h⟩ := h
  obtain ⟨hhigh, hlen⟩ := hexQuad_append hhigh more
  rw [unicodeEscape, hhigh, Option.bind_some]
  dsimp only at h ⊢
  by_cases hunit : high < 0xD800 ∨ 0xDFFF < high
  · rw [if_pos hunit] at h ⊢
    obtain ⟨rfl, rfl⟩ := Prod.mk.inj (Option.some.inj h)
    exact ⟨rfl, by omega⟩
  rw [if_neg hunit] at h ⊢
  by_cases hlow : 0xDBFF < high
  · rw [if_pos hlow] at h
    cases h
  rw [if_neg hlow] at h ⊢
  split at h
  · rename_i r2
    rw [Option.bind_eq_some_iff] at h
    obtain ⟨⟨low, r3⟩, hr3, h⟩ := h
    obtain ⟨hr3, hlen3⟩ := hexQuad_append hr3 more
    rw [length_cons, length_cons] at hlen
    rw [cons_append, cons_append]
    simp only [hr3, Option.bind_some]
    dsimp only at h
    by_cases hpair : low < 0xDC00 ∨ 0xDFFF < low
    · rw [if_pos hpair] at h
      cases h
    · rw [if_neg hpair] at h
      obtain ⟨rfl, rfl⟩ := Prod.mk.inj (Option.some.inj h)
      exact ⟨if_neg hpair, by omega⟩
  · cases h

/-- A character is read the same whatever stands behind the text; only an escape takes more
than the character itself. -/
theorem stringChar_append {v : Char} (h : stringChar text = some (v, rest))
    (more : Text) :
    stringChar (text ++ more) = some (v, rest ++ more) ∧
      (rest.length + 2 ≤ text.length ∨ text = v :: rest ∧ v ≠ '\\' ∧ 0x20 ≤ v.toNat) := by
  match text, h with
  | c :: text, h =>
    rw [stringChar.eq_def] at h
    rw [cons_append, stringChar.eq_def]
    dsimp only at h ⊢
    by_cases hc : c = '\\'
    · rw [if_pos hc] at h ⊢
      match text, h with
      | e :: text, h =>
        rw [cons_append]
        dsimp only at h ⊢
        by_cases hu : e = 'u'
        · rw [if_pos hu] at h ⊢
          obtain ⟨happend, hlen⟩ := unicodeEscape_append h more
          exact ⟨happend, Or.inl (by rw [length_cons, length_cons]; omega)⟩
        · rw [if_neg hu, Option.map_eq_some_iff] at h
          obtain ⟨d, hd, h⟩ := h
          obtain ⟨rfl, rfl⟩ := Prod.mk.inj h
          rw [if_neg hu, hd]
          exact ⟨rfl, Or.inl (le_refl _)⟩
    · rw [if_neg hc] at h ⊢
      by_cases hcontrol : c.toNat < 0x20
      · rw [if_pos hcontrol] at h
        cases h
      · rw [if_neg hcontrol] at h ⊢
        obtain ⟨rfl, rfl⟩ := Prod.mk.inj (Option.some.inj h)
        exact ⟨rfl, Or.inr ⟨rfl, hc, by omega⟩⟩

/-- No quote, no backslash and no control character. -/
def Plain (s : Text) : Prop := ∀ c ∈ s, c ≠ '"' ∧ c ≠ '\\' ∧ 0x20 ≤ c.toNat

instance (s : Text) : Decidable (Plain s) :=
  List.decidableBAll (fun c => c ≠ '"' ∧ c ≠ '\\' ∧ 0x20 ≤ c.toNat) s

/-- The contents of a string are read the same whatever stands behind its quote, and are no
longer than their text. -/
theorem stringBody_append {n : Nat} (h : stringBody n text = some (value, rest))
    {m : Nat} (hm : n ≤ m) (more : Text) :
    stringBody m (text ++ more) = some (value, rest ++ more) ∧
      value.length + rest.length < text.length ∧
      (value.length + rest.length + 1 = text.length → text = value ++ '"' :: rest ∧
        Plain value) := by
  induction n generalizing text value m with
  | zero => cases h
  | succ n ih =>
    obtain ⟨m, rfl⟩ : ∃ k, m = k + 1 := ⟨m - 1, by omega⟩
    rw [stringBody] at h
    by_cases hquote : text.head? = some '"'
    · rw [if_pos hquote] at h
      obtain ⟨rfl, rfl⟩ := Prod.mk.inj (Option.some.inj h)
      obtain ⟨tail, rfl⟩ := List.head?_eq_some_iff.1 hquote
      exact ⟨rfl, by simp, fun _ => ⟨rfl, fun c hc => absurd hc not_mem_nil⟩⟩
    · rw [if_neg hquote, Option.bind_eq_some_iff] at h
      obtain ⟨⟨c, r⟩, hc, h⟩ := h
      rw [Option.map_eq_some_iff] at h
      obtain ⟨⟨cs, r'⟩, hcs, h⟩ := h
      obtain ⟨rfl, rfl⟩ := Prod.mk.inj h
      obtain ⟨happend, hchar⟩ := stringChar_append hc more
      obtain ⟨hbody, hlen, hplain⟩ := ih hcs (Nat.le_of_succ_le_succ hm)
      have hhead : (text ++ more).head? ≠ some '"' := by
        match text, hc with
        | d :: text, _ => exact hquote
      refine ⟨?_, ?_, ?_⟩
      · rw [stringBody, if_neg hhead, happend, Option.bind_some]
        dsimp only
        rw [hbody, Option.map_some]
      · rw [length_cons]
        rcases hchar with hlong | ⟨htext, -, -⟩
        · omega
        · rw [htext, length_cons]
          omega
      · intro heq
        rw [length_cons] at heq
        rcases hchar with hlong | ⟨htext, hbackslash, hcontrol⟩
        · omega
        · subst htext
          rw [length_cons] at heq
          obtain ⟨hr, hcs⟩ := hplain (by omega)
          refine ⟨by rw [hr, cons_append], ?_⟩
          refine forall_mem_cons.2 ⟨⟨?_, hbackslash, hcontrol⟩, hcs⟩
          rintro rfl
          exact hquote rfl

section Denotes

variable {s value : Text}

theorem Denotes.stringBody (h : Denotes s value) {n : Nat} (hn : s.length < n) (rest : Text) :
    Json.stringBody n (s ++ '"' :: rest) = some (value, rest) := by
  have happend := (stringBody_append h hn rest).1
  rwa [append_assoc] at happend

theorem Denotes.length_le (h : Denotes s value) : value.length ≤ s.length := by
  have hlen := (stringBody_append h (le_refl _) []).2.1
  rw [length_append] at hlen
  simp at hlen
  omega

theorem Denotes.plain (h : Denotes s value) (hlen : value.length = s.length) :
    value = s ∧ Plain s := by
  obtain ⟨htext, hplain⟩ := (stringBody_append h (le_refl _) []).2.2 (by simp [hlen])
  have heq : s = value := append_cancel_right htext
  exact ⟨heq.symm, heq ▸ hplain⟩

theorem denotes_of_plain (h : Plain s) : Denotes s s := by
  have hbody : ∀ n, s.length < n → Json.stringBody n (s ++ ['"']) = some (s, []) := by
    induction s with
    | nil =>
      intro n hn
      obtain ⟨n, rfl⟩ : ∃ k, n = k + 1 := ⟨n - 1, by omega⟩
      rfl
    | cons c s ih =>
      intro n hn
      obtain ⟨n, rfl⟩ : ∃ k, n = k + 1 := ⟨n - 1, by simp at hn; omega⟩
      obtain ⟨⟨hquote, hbackslash, hcontrol⟩, hs⟩ := forall_mem_cons.1 h
      have hchar : stringChar (c :: (s ++ ['"'])) = some (c, s ++ ['"']) := by
        rw [stringChar.eq_def]
        exact (if_neg hbackslash).trans (if_neg (by omega))
      rw [cons_append, Json.stringBody, if_neg (by simpa using hquote), hchar, Option.bind_some]
      dsimp only
      rw [ih hs n (by simpa using hn), Option.map_some]
  exact hbody _ (Nat.lt_succ_self _)

/-- What a text stands for between quotes, if it can stand there. -/
def unescape (s : Text) : Option Text :=
  (Json.stringBody (s.length + 1) (s ++ ['"'])).bind fun (value, rest) =>
    if rest = [] then some value else none

theorem unescape_eq_some_iff : unescape s = some value ↔ Denotes s value := by
  rw [unescape, Option.bind_eq_some_iff]
  constructor
  · rintro ⟨⟨v, rest⟩, hbody, h⟩
    dsimp only at h
    by_cases hrest : rest = []
    · rw [if_pos hrest] at h
      rw [Denotes, hbody, hrest, Option.some.inj h]
    · rw [if_neg hrest] at h
      cases h
  · intro h
    exact ⟨(value, []), h, if_pos rfl⟩

end Denotes

-- ----
-- Reading values back

variable {n : Nat}

theorem skipSpace_cons {c : Char} (hc : isSpace c = false) (rest : Text) :
    skipSpace (c :: rest) = c :: rest := by
  rw [skipSpace, dropWhile_cons_of_neg (by simp [hc])]

theorem parseValue_null (rest : Text) :
    parseValue (n + 1) ("null".toList ++ rest) = some (null, rest) := by
  show parseValue (n + 1) ('n' :: 'u' :: 'l' :: 'l' :: rest) = _
  rw [parseValue, skipSpace_cons (by decide)]
  simp [word]

/-- A string of a writer without white space. -/
theorem parseValue_string {s : Text} (h : Denotes s value) (rest : Text) :
    parseValue (n + 1) ('"' :: (s ++ '"' :: rest)) = some (string value, rest) := by
  rw [parseValue, skipSpace_cons (by decide)]
  simp only [if_true]
  rw [h.stringBody (by rw [length_cons, length_append]; omega)]
  rfl

theorem parseValue_nil (rest : Text) :
    parseValue (n + 1) ('[' :: ']' :: rest) = some (array [], rest) := by
  rw [parseValue, skipSpace_cons (by decide)]
  simp [skipSpace_cons (c := ']') (by decide)]

theorem parseValue_empty (rest : Text) :
    parseValue (n + 1) ('{' :: '}' :: rest) = some (object [], rest) := by
  rw [parseValue, skipSpace_cons (by decide)]
  simp [skipSpace_cons (c := '}') (by decide)]

/-- A value never begins with a closing bracket. -/
theorem head_of_parseValue {r : Json × Text} (h : parseValue n text = some r) :
    (skipSpace text).head? ≠ some ']' := by
  rcases n with _ | n
  · simp [parseValue] at h
  · intro hhead
    obtain ⟨rest, hrest⟩ : ∃ rest, skipSpace text = ']' :: rest := by
      rcases hs : skipSpace text with _ | ⟨c, rest⟩
      · simp [hs] at hhead
      · rw [hs] at hhead
        exact ⟨rest, by simpa using hhead⟩
    rw [parseValue, hrest] at h
    simp [scanNumber, sign, integerPart, digits, isDigit] at h

theorem parseValue_array {vs : List Json}
    (h : parseItems n text = some (vs, rest)) :
    parseValue (n + 1) ('[' :: text) = some (array vs, rest) := by
  have hhead : (skipSpace text).head? ≠ some ']' := by
    rcases n with _ | n
    · simp [parseItems] at h
    · rw [parseItems, Option.bind_eq_some_iff] at h
      obtain ⟨r, hr, -⟩ := h
      exact head_of_parseValue hr
  rw [parseValue, skipSpace_cons (by decide)]
  simp [hhead, h]

variable {v : Json}

theorem parseItems_last
    (h : parseValue n text = some (v, ']' :: rest)) :
    parseItems (n + 1) text = some ([v], rest) := by
  rw [parseItems, h]
  simp [skipSpace_cons (c := ']') (by decide)]

/-- One more item of an array. -/
theorem parseItems_cons {more : Text} {vs : List Json}
    (h : parseValue n text = some (v, ',' :: more)) (hs : parseItems n more = some (vs, rest)) :
    parseItems (n + 1) text = some (v :: vs, rest) := by
  rw [parseItems, h]
  simp [skipSpace_cons (c := ',') (by decide), hs]

theorem parseValue_object {es : List (Text × Json)}
    (h : parseEntries n text = some (es, rest)) :
    parseValue (n + 1) ('{' :: text) = some (object es, rest) := by
  have hhead : (skipSpace text).head? ≠ some '}' := by
    intro hhead
    rcases n with _ | n
    · simp [parseEntries] at h
    · rw [parseEntries, hhead] at h
      simp at h
  rw [parseValue, skipSpace_cons (by decide)]
  simp [hhead, h]

section Entries

variable {s key : Text} (hkey : Denotes s key)
include hkey

theorem parseEntries_key :
    parseEntries (n + 1) ('"' :: (s ++ '"' :: ':' :: text)) =
      (parseValue n text).bind fun (v, rest) =>
        match skipSpace rest with
        | [] => none
        | c :: rest =>
          if c = '}' then some ([(key, v)], rest)
          else if c = ',' then (parseEntries n rest).map fun (es, rest) => ((key, v) :: es, rest)
          else none := by
  rw [parseEntries, skipSpace_cons (by decide)]
  simp only [List.head?_cons, if_true, tail_cons]
  rw [hkey.stringBody (by rw [length_cons, length_append]; omega)]
  simp [skipSpace_cons (c := ':') (by decide)]

theorem parseEntries_last
    (h : parseValue n text = some (v, '}' :: rest)) :
    parseEntries (n + 1) ('"' :: (s ++ '"' :: ':' :: text)) = some ([(key, v)], rest) := by
  rw [parseEntries_key hkey, h]
  simp [skipSpace_cons (c := '}') (by decide)]

/-- One more member of an object. -/
theorem parseEntries_cons {more : Text} {es : List (Text × Json)}
    (h : parseValue n text = some (v, ',' :: more)) (hs : parseEntries n more = some (es, rest)) :
    parseEntries (n + 1) ('"' :: (s ++ '"' :: ':' :: text)) = some ((key, v) :: es, rest) := by
  rw [parseEntries_key hkey, h]
  simp [skipSpace_cons (c := ',') (by decide), hs]

end Entries

theorem parse_of_parseValue
    (h : parseValue (callsFor text) text = some (v, [])) : parse text = some v := by
  rw [parse, h]
  rfl

-- ----
-- Texts that are read as a value

/-- What may stand behind a value: nothing, a comma or a closing bracket. -/
def Follows (rest : Text) : Prop := ∀ c ∈ rest.head?, c = ',' ∨ c = ']' ∨ c = '}'

/-- The text is read as the value, whatever follows it. -/
def Reads (text : Text) (v : Json) : Prop :=
  ∀ n rest, callsFor text ≤ n → Follows rest → parseValue n (text ++ rest) = some (v, rest)

theorem parse_of_reads (h : Reads text v) : parse text = some v := by
  have hvalue := h (callsFor text) [] (le_refl _) (fun c hc => by cases hc)
  rw [append_nil] at hvalue
  exact parse_of_parseValue hvalue

theorem reads_true : Reads "true".toList (bool true) := by
  intro n rest hn _
  obtain ⟨n, rfl⟩ : ∃ k, n = k + 1 := ⟨n - 1, by simp [callsFor] at hn; omega⟩
  show parseValue (n + 1) ('t' :: 'r' :: 'u' :: 'e' :: rest) = _
  rw [parseValue, skipSpace_cons (by decide)]
  simp [word]

theorem reads_string {s : Text} (h : Denotes s value) :
    Reads ('"' :: (s ++ ['"'])) (string value) := by
  intro n rest hn _
  obtain ⟨n, rfl⟩ : ∃ k, n = k + 1 := ⟨n - 1, by simp [callsFor] at hn; omega⟩
  rw [cons_append, append_assoc]
  exact parseValue_string h rest

theorem reads_empty : Reads ['{', '}'] (object []) := by
  intro n rest hn _
  obtain ⟨n, rfl⟩ : ∃ k, n = k + 1 := ⟨n - 1, by simp [callsFor] at hn; omega⟩
  exact parseValue_empty rest

/-- A name and its value, as a writer without white space puts them. -/
def entry (e : Text × Text) : Text := '"' :: (e.1 ++ '"' :: ':' :: e.2)

def ReadsEntry (e : Text × Text) (j : Text × Json) : Prop := Denotes e.1 j.1 ∧ Reads e.2 j.2

theorem parseEntries_entries {es : List (Text × Text)} {js : List (Text × Json)}
    (h : List.Forall₂ ReadsEntry es js) (hne : es ≠ []) {n : Nat} (rest : Text)
    (hn : callsFor ([','].intercalate (es.map entry)) < n) :
    parseEntries n ([','].intercalate (es.map entry) ++ '}' :: rest) = some (js, rest) := by
  induction h generalizing n with
  | nil => exact absurd rfl hne
  | @cons e j es js he hes ih =>
    obtain ⟨n, rfl⟩ : ∃ k, n = k + 1 := ⟨n - 1, by omega⟩
    cases es with
    | nil =>
      cases hes
      rw [map_singleton, intercalate_singleton, entry] at hn ⊢
      have hvalue := he.2 n ('}' :: rest) (by simp [callsFor] at hn ⊢; omega) (by simp [Follows])
      rw [cons_append, append_assoc]
      exact parseEntries_last he.1 hvalue
    | cons e' es =>
      rw [map_cons, map_cons, intercalate_cons_cons, ← map_cons, entry] at hn ⊢
      have hmore := ih (by simp) (n := n) (by simp [callsFor] at hn ⊢; omega)
      have hvalue := he.2 n (',' :: ([','].intercalate ((e' :: es).map entry) ++ '}' :: rest))
        (by simp [callsFor] at hn ⊢; omega) (by simp [Follows])
      rw [cons_append, append_assoc, append_assoc, cons_append]
      have hentries := parseEntries_cons he.1 hvalue hmore
      simpa using hentries

theorem reads_object {es : List (Text × Text)} {js : List (Text × Json)}
    (h : List.Forall₂ ReadsEntry es js) :
    Reads ('{' :: ([','].intercalate (es.map entry) ++ ['}'])) (object js) := by
  by_cases hne : es = []
  · subst hne
    cases h
    exact reads_empty
  · intro n rest hn _
    obtain ⟨n, rfl⟩ : ∃ k, n = k + 1 := ⟨n - 1, by simp [callsFor] at hn; omega⟩
    rw [cons_append, append_assoc]
    refine parseValue_object (parseEntries_entries h hne rest ?_)
    rw [callsFor, length_cons, length_append] at hn
    rw [callsFor]
    omega

def intText (k : Int) : Text :=
  if k < 0 then '-' :: Nat.toDigits 10 k.natAbs else Nat.toDigits 10 k.natAbs

theorem isDigit_of_mem_toDigits {k : Nat} {c : Char} (h : c ∈ Nat.toDigits 10 k) :
    isDigit c = true := by
  obtain ⟨d, hd, rfl⟩ := Text.digitChar_of_mem_toDigits (by decide) h
  have hall : ∀ d : Nat, d < 10 → isDigit d.digitChar = true := by decide
  exact hall d hd

theorem head_toDigits {k : Nat} (h : (Nat.toDigits 10 k).head? = some '0') : k = 0 := by
  induction k using Nat.strongRecOn with
  | ind k ih =>
    rw [Nat.toDigits_eq_if (by decide)] at h
    by_cases hlt : k < 10
    · have hall : ∀ d : Nat, d < 10 → d.digitChar = '0' → d = 0 := by decide
      rw [if_pos hlt] at h
      exact hall k hlt (by simpa using h)
    · rw [if_neg hlt, List.head?_append_of_ne_nil _ Nat.toDigits_ne_nil] at h
      have hdiv := ih (k / 10) (by omega) h
      omega

theorem digits_append {ds : Text} (hne : ds ≠ []) (hds : ∀ c ∈ ds, isDigit c = true)
    (hrest : Follows rest) : digits (ds ++ rest) = some (ds, rest) := by
  have hend : ∀ c ∈ rest.head?, isDigit c = false := by
    intro c hc
    rcases hrest c hc with rfl | rfl | rfl <;> decide
  have htail : rest.takeWhile isDigit = [] ∧ rest.dropWhile isDigit = rest := by
    cases rest with
    | nil => exact ⟨rfl, rfl⟩
    | cons c rest =>
      have hc := hend c rfl
      exact ⟨takeWhile_cons_of_neg (by simp [hc]), dropWhile_cons_of_neg (by simp [hc])⟩
  rw [digits, takeWhile_append_of_pos hds, dropWhile_append_of_pos hds, htail.1, htail.2,
    append_nil, if_neg (by simpa using hne)]

theorem integerPart_toDigits (k : Nat) (hrest : Follows rest) :
    integerPart (Nat.toDigits 10 k ++ rest) = some (Nat.toDigits 10 k, rest) := by
  rw [integerPart, List.head?_append_of_ne_nil _ Nat.toDigits_ne_nil]
  by_cases hzero : (Nat.toDigits 10 k).head? = some '0'
  · rw [if_pos hzero, head_toDigits hzero]
    rfl
  · rw [if_neg hzero]
    exact digits_append Nat.toDigits_ne_nil (fun c hc => isDigit_of_mem_toDigits hc) hrest

theorem fraction_exponent (hrest : Follows rest) :
    fraction rest = some ([], rest) ∧ exponent rest = some ([], rest) := by
  cases rest with
  | nil => exact ⟨rfl, rfl⟩
  | cons c rest =>
    rcases hrest c rfl with rfl | rfl | rfl <;> exact ⟨rfl, rfl⟩

theorem scanNumber_intText (k : Int) (hrest : Follows rest) :
    scanNumber (intText k ++ rest) = some (intText k, rest) := by
  obtain ⟨hfraction, hexponent⟩ := fraction_exponent hrest
  have hint := integerPart_toDigits k.natAbs hrest
  by_cases hneg : k < 0
  · rw [intText, if_pos hneg, cons_append, scanNumber, sign, if_pos (by decide), hint]
    simp [hfraction, hexponent]
  · have hsign : sign ['-'] (Nat.toDigits 10 k.natAbs ++ rest) =
        ([], Nat.toDigits 10 k.natAbs ++ rest) := by
      cases hdigits : Nat.toDigits 10 k.natAbs with
      | nil => exact absurd hdigits Nat.toDigits_ne_nil
      | cons c ds =>
        have hc : isDigit c = true := isDigit_of_mem_toDigits (by rw [hdigits]; simp)
        rw [cons_append, sign, if_neg]
        rintro hminus
        rw [mem_singleton] at hminus
        subst hminus
        cases hc
    rw [intText, if_neg hneg, scanNumber, hsign, hint]
    simp [hfraction, hexponent]

theorem reads_int (k : Int) : Reads (intText k) (number (intText k)) := by
  intro n rest hn hrest
  have hscan := scanNumber_intText k hrest
  cases htext : intText k with
  | nil =>
    have hpos : intText k ≠ [] := by
      rw [intText]
      split
      · exact cons_ne_nil _ _
      · exact Nat.toDigits_ne_nil
    exact absurd htext hpos
  | cons c text =>
    rw [htext] at hn hscan
    obtain ⟨n, rfl⟩ : ∃ m, n = m + 1 := ⟨n - 1, by simp [callsFor] at hn; omega⟩
    have hc : c = '-' ∨ isDigit c = true := by
      rw [intText] at htext
      split at htext
      · exact Or.inl (List.cons.inj htext).1.symm
      · exact Or.inr (isDigit_of_mem_toDigits (by rw [htext]; simp))
    -- no other value begins like this
    have hne : ∀ x, isDigit x = false → x ≠ '-' → c ≠ x := by
      rintro x hdigit hminus rfl
      rcases hc with rfl | hc
      · exact hminus rfl
      · rw [hc] at hdigit
        cases hdigit
    have hspace : isSpace c = false := by
      simp [isSpace, hne ' ' (by decide) (by decide), hne '\t' (by decide) (by decide),
        hne '\n' (by decide) (by decide), hne '\r' (by decide) (by decide)]
    rw [cons_append, parseValue, skipSpace_cons hspace]
    dsimp only
    rw [if_neg (hne '"' (by decide) (by decide)), if_neg (hne '[' (by decide) (by decide)),
      if_neg (hne '{' (by decide) (by decide)), if_neg (hne 'n' (by decide) (by decide)),
      if_neg (hne 't' (by decide) (by decide)), if_neg (hne 'f' (by decide) (by decide)),
      ← cons_append, hscan, Option.map_some]

end Json

end Anywhere.Lib
