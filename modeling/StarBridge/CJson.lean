import Mathlib.Tactic.IntervalCases
import StarBridge.JsonUtils

/-!
# The JSON parser

The vendored cJSON 1.7.19 as the bridge uses it: `cJSON_Parse` on a C string,
case-insensitive look-up of the first member of a name, and the accessors of
`json_utils.c`.  The parser accepts more than JSON: it stops after the first
value, treats every byte up to 32 as white space, lets `strtod` decide what a
number is, and reads a `\u` escape with invalid digits as U+0000.

Numbers keep the text they were read from; what a `double` makes of it is left
to the caller.  `parseValue` recurses on fuel; `parseValue_fuel` shows that
`parse` gives it enough.
-/

namespace StarBridge

open CText

/-- A parsed value.  Strings and names are kept as decoded, terminators from
`\u0000` included. -/
inductive CJson
  | null
  | bool (b : Bool)
  | number (literal : Bytes)
  | string (value : Bytes)
  | array (items : List CJson)
  | object (members : List (Bytes × CJson))

namespace CJson

/-- `CJSON_NESTING_LIMIT`. -/
def nestingLimit : Nat := 1000

/-- `buffer_skip_whitespace`. -/
def skipWhitespace (s : Bytes) : Bytes := s.dropWhile (· ≤ 32)

/-! ## Strings -/

/-- The inside of a string literal and what follows its closing quote. -/
def stringSpan : Bytes → Option (Bytes × Bytes)
  | [] => none
  | c :: rest =>
      if c = 34 then some ([], rest)
      else if c = 92 then
        match rest with
        | [] => none
        | e :: rest' => (stringSpan rest').map fun (body, left) => (c :: e :: body, left)
      else (stringSpan rest).map fun (body, left) => (c :: body, left)

/-- The value of a hexadecimal digit. -/
def hexValue (c : UInt8) : Option Nat :=
  if 48 ≤ c ∧ c ≤ 57 then some (c.toNat - 48)
  else if 65 ≤ c ∧ c ≤ 70 then some (c.toNat - 55)
  else if 97 ≤ c ∧ c ≤ 102 then some (c.toNat - 87)
  else none

/-- `parse_hex4`: an invalid digit makes the whole value 0. -/
def parseHex4 (a b c d : UInt8) : Nat :=
  match hexValue a, hexValue b, hexValue c, hexValue d with
  | some w, some x, some y, some z => 4096 * w + 256 * x + 16 * y + z
  | _, _, _, _ => 0

/-- The UTF-8 encoding of a code point. -/
def utf8Encode (n : Nat) : Bytes :=
  if n < 0x80 then [UInt8.ofNat n]
  else if n < 0x800 then
    [UInt8.ofNat (0xC0 + n / 64), UInt8.ofNat (0x80 + n % 64)]
  else if n < 0x10000 then
    [UInt8.ofNat (0xE0 + n / 4096), UInt8.ofNat (0x80 + n / 64 % 64),
      UInt8.ofNat (0x80 + n % 64)]
  else
    [UInt8.ofNat (0xF0 + n / 262144), UInt8.ofNat (0x80 + n / 4096 % 64),
      UInt8.ofNat (0x80 + n / 64 % 64), UInt8.ofNat (0x80 + n % 64)]

/-- The character of a two-character escape. -/
def simpleEscape (c : UInt8) : Option UInt8 :=
  if c = 98 then some 8
  else if c = 102 then some 12
  else if c = 110 then some 10
  else if c = 114 then some 13
  else if c = 116 then some 9
  else if c = 34 ∨ c = 92 ∨ c = 47 then some c
  else none

/-- The decoding loop of `parse_string` over the inside of a literal. -/
def decodeBody : Bytes → Option Bytes
  | [] => some []
  | [c] =>
      -- a lone backslash pairs with the closing quote behind it
      if c = 92 then some [34] else some [c]
  | c :: e :: rest =>
      if c ≠ 92 then (decodeBody (e :: rest)).map (c :: ·)
      else if e ≠ 117 then
        match simpleEscape e with
        | none => none
        | some b => (decodeBody rest).map (b :: ·)
      else
        match rest with
        | h₁ :: h₂ :: h₃ :: h₄ :: rest' =>
            let first := parseHex4 h₁ h₂ h₃ h₄
            if 0xDC00 ≤ first ∧ first ≤ 0xDFFF then none
            else if 0xD800 ≤ first ∧ first ≤ 0xDBFF then
              match rest' with
              | b :: u :: l₁ :: l₂ :: l₃ :: l₄ :: rest'' =>
                  let second := parseHex4 l₁ l₂ l₃ l₄
                  if b ≠ 92 ∨ u ≠ 117 then none
                  else if second < 0xDC00 ∨ 0xDFFF < second then none
                  else
                    (decodeBody rest'').map
                      (utf8Encode (0x10000 + 1024 * (first - 0xD800) +
                        (second - 0xDC00)) ++ ·)
              | _ => none
            else (decodeBody rest').map (utf8Encode first ++ ·)
        | _ => none

/-- `parse_string`: the decoded string and what follows the literal. -/
def parseString : Bytes → Option (Bytes × Bytes)
  | [] => none
  | c :: rest =>
      if c ≠ 34 then none
      else
        match stringSpan rest with
        | none => none
        | some (body, left) => (decodeBody body).map fun text => (text, left)

/-! ## Numbers -/

def isDigit (c : UInt8) : Bool := 48 ≤ c && c ≤ 57

/-- A sign, if there is one. -/
def signSpan : Bytes → Bytes
  | c :: _ => if c = 43 ∨ c = 45 then [c] else []
  | [] => []

/-- The exponent `strtod` takes after a mantissa: none, when no digit
follows. -/
def exponentSpan : Bytes → Bytes
  | c :: rest =>
      let sign := signSpan rest
      let digits := (rest.drop sign.length).takeWhile isDigit
      if (c = 101 ∨ c = 69) ∧ digits ≠ [] then c :: (sign ++ digits) else []
  | [] => []

/-- The point and the digits behind it. -/
def fractionSpan : Bytes → Bytes
  | c :: rest => if c = 46 then c :: rest.takeWhile isDigit else []
  | [] => []

/-- The decimal number `strtod` takes off the front of a text. -/
def numberSpan (s : Bytes) : Option Bytes :=
  let sign := signSpan s
  let digits := (s.drop sign.length).takeWhile isDigit
  let fraction := fractionSpan (s.drop (sign ++ digits).length)
  -- a point needs a digit on one side
  if digits = [] ∧ fraction.length < 2 then none
  else
    let mantissa := sign ++ digits ++ fraction
    some (mantissa ++ exponentSpan (s.drop mantissa.length))

/-- `parse_number`. -/
def parseNumber (s : Bytes) : Option (CJson × Bytes) :=
  (numberSpan s).map fun literal => (.number literal, s.drop literal.length)

/-! ## Values -/

mutual

/-- `parse_value`, inside `depth` arrays and objects. -/
def parseValue : Nat → Nat → Bytes → Option (CJson × Bytes)
  | 0, _, _ => none
  | fuel + 1, depth, s =>
      if (lit "null").isPrefixOf s then some (.null, s.drop 4)
      else if (lit "false").isPrefixOf s then some (.bool false, s.drop 5)
      else if (lit "true").isPrefixOf s then some (.bool true, s.drop 4)
      else
        match s with
        | [] => none
        | c :: rest =>
            if c = 34 then
              (parseString (c :: rest)).map fun (text, left) => (.string text, left)
            else if c = 45 ∨ isDigit c then parseNumber (c :: rest)
            else if c = 91 then
              if nestingLimit ≤ depth then none
              else
                match skipWhitespace rest with
                | [] => none
                | d :: rest' =>
                    if d = 93 then some (.array [], rest')
                    else
                      (parseElements fuel (depth + 1) (d :: rest')).map
                        fun (items, left) => (.array items, left)
            else if c = 123 then
              if nestingLimit ≤ depth then none
              else
                match skipWhitespace rest with
                | [] => none
                | d :: rest' =>
                    if d = 125 then some (.object [], rest')
                    else
                      (parseMembers fuel (depth + 1) (d :: rest')).map
                        fun (members, left) => (.object members, left)
            else none

/-- The loop of `parse_array`, at the start of an element. -/
def parseElements : Nat → Nat → Bytes → Option (List CJson × Bytes)
  | 0, _, _ => none
  | fuel + 1, depth, s =>
      match parseValue fuel depth (skipWhitespace s) with
      | none => none
      | some (item, left) =>
          match skipWhitespace left with
          | [] => none
          | c :: rest =>
              if c = 44 then
                (parseElements fuel depth rest).map
                  fun (items, left') => (item :: items, left')
              else if c = 93 then some ([item], rest)
              else none

/-- The loop of `parse_object`, at the start of a member. -/
def parseMembers : Nat → Nat → Bytes → Option (List (Bytes × CJson) × Bytes)
  | 0, _, _ => none
  | fuel + 1, depth, s =>
      match parseString (skipWhitespace s) with
      | none => none
      | some (name, afterName) =>
          match skipWhitespace afterName with
          | [] => none
          | colon :: afterColon =>
              if colon ≠ 58 then none
              else
                match parseValue fuel depth (skipWhitespace afterColon) with
                | none => none
                | some (value, left) =>
                    match skipWhitespace left with
                    | [] => none
                    | c :: rest =>
                        if c = 44 then
                          (parseMembers fuel depth rest).map
                            fun (members, left') => ((name, value) :: members, left')
                        else if c = 125 then some ([(name, value)], rest)
                        else none

end

/-- `skip_utf8_bom`. -/
def skipBom (s : Bytes) : Bytes :=
  if 4 ≤ s.length ∧ s.take 3 = [0xEF, 0xBB, 0xBF] then s.drop 3 else s

/-- `cJSON_Parse`: the first value of a C string, whatever follows it. -/
def parse (text : Bytes) : Option CJson :=
  let s := skipWhitespace (skipBom (cstr text))
  (parseValue (2 * s.length + 1) 0 s).map (·.1)

/-! ## Access -/

/-- `tolower` in the C locale. -/
def toLower (c : UInt8) : UInt8 := if 65 ≤ c ∧ c ≤ 90 then c + 32 else c

/-- `case_insensitive_strcmp(a, b) == 0`. -/
def nameMatches (a b : Bytes) : Bool := (cstr a).map toLower == (cstr b).map toLower

/-- `cJSON_GetObjectItem`. -/
def getObjectItem : CJson → Bytes → Option CJson
  | .object members, name =>
      (members.find? fun m => nameMatches name m.1).map (·.2)
  | _, _ => none

/-- A name that some member has is found. -/
theorem getObjectItem_isSome {members : List (Bytes × CJson)} {name : Bytes}
    (h : ∃ m ∈ members, nameMatches name m.1 = true) :
    (getObjectItem (.object members) name).isSome = true := by
  simpa [getObjectItem, List.find?_isSome] using h

/-- The string a member holds, as C sees it. -/
def stringField (obj : CJson) (field : Bytes) : Option Bytes :=
  match getObjectItem obj field with
  | some (.string value) => some (cstr value)
  | _ => none

/-- `json_get_string`: `dest` keeps its content when the member is missing or is
no string. -/
def getString (obj : CJson) (field : Bytes) (dest : Bytes) (maxLen : Nat) : Bytes :=
  match stringField obj field with
  | some value => clip maxLen value
  | none => dest

/-- `json_get_int`, given what a number literal amounts to as an `int`. -/
def getInt (numberToInt : Bytes → Int) (obj : CJson) (field : Bytes) : Int :=
  match getObjectItem obj field with
  | some (.number literal) => numberToInt literal
  | _ => 0

/-- `json_get_object`. -/
def getObject (obj : CJson) (field : Bytes) : Option CJson :=
  match getObjectItem obj field with
  | some (.object members) => some (.object members)
  | _ => none

/-- `json_get_array` with `json_array_item`. -/
def getArray (obj : CJson) (field : Bytes) : Option (List CJson) :=
  match getObjectItem obj field with
  | some (.array items) => some items
  | _ => none

/-! ## Escaping and decoding -/

/-- A digit written in hexadecimal reads back. -/
theorem hexValue_hexDigit {n : Nat} (h : n < 16) : hexValue (hexDigit n) = some n := by
  interval_cases n <;> rfl

theorem decodeBody_plain {c : UInt8} (hc : c ≠ 92) (rest : Bytes) :
    decodeBody (c :: rest) = (decodeBody rest).map (c :: ·) := by
  cases rest with
  | nil => simp [decodeBody, hc]
  | cons e rest =>
      rw [decodeBody.eq_def]
      simp [hc]

theorem decodeBody_simple {e b : UInt8} (he : e ≠ 117) (hb : simpleEscape e = some b)
    (rest : Bytes) : decodeBody (92 :: e :: rest) = (decodeBody rest).map (b :: ·) := by
  rw [decodeBody.eq_def]
  simp [he, hb]

theorem decodeBody_unicode {h₁ h₂ h₃ h₄ : UInt8} {n : Nat}
    (hn : parseHex4 h₁ h₂ h₃ h₄ = n) (hlow : n < 0xD800) (rest : Bytes) :
    decodeBody (92 :: 117 :: h₁ :: h₂ :: h₃ :: h₄ :: rest) =
      (decodeBody rest).map (utf8Encode n ++ ·) := by
  rw [decodeBody.eq_def]
  simp [hn, show ¬ (0xDC00 ≤ n ∧ n ≤ 0xDFFF) by omega,
    show ¬ (0xD800 ≤ n ∧ n ≤ 0xDBFF) by omega]

/-- The three kinds of escaped bytes: a backslash with a letter or a mark, a
control character as four hexadecimal digits, and a byte as it is. -/
theorem escapeByte_cases (c : UInt8) :
    (∃ e, e ≠ 117 ∧ simpleEscape e = some c ∧ escapeByte c = [92, e]) ∨
      (c < 32 ∧
        escapeByte c = [92, 117, 48, 48, hexDigit (c.toNat / 16), hexDigit (c.toNat % 16)]) ∨
      (c ≠ 34 ∧ c ≠ 92 ∧ escapeByte c = [c]) := by
  by_cases hmarked : c ∈ [34, 92, 8, 12, 10, 13, 9]
  · left
    have hall : ∀ c ∈ [(34 : UInt8), 92, 8, 12, 10, 13, 9],
        ∃ e ∈ [(34 : UInt8), 92, 98, 102, 110, 114, 116],
          e ≠ 117 ∧ simpleEscape e = some c ∧ escapeByte c = [92, e] := by decide +kernel
    obtain ⟨e, -, he⟩ := hall c hmarked
    exact ⟨e, he⟩
  · right
    simp only [List.mem_cons, List.not_mem_nil, or_false, not_or] at hmarked
    obtain ⟨h₁, h₂, h₃, h₄, h₅, h₆, h₇⟩ := hmarked
    rw [escapeByte, if_neg h₁, if_neg h₂, if_neg h₃, if_neg h₄, if_neg h₅, if_neg h₆, if_neg h₇]
    by_cases hcontrol : c < 32
    · exact Or.inl ⟨hcontrol, if_pos hcontrol⟩
    · exact Or.inr ⟨h₁, h₂, if_neg hcontrol⟩

/-- An escaped byte in front of a literal decodes to the byte. -/
theorem decodeBody_escapeByte (c : UInt8) (rest : Bytes) :
    decodeBody (escapeByte c ++ rest) = (decodeBody rest).map (c :: ·) := by
  rcases escapeByte_cases c with ⟨e, hletter, hsimple, heq⟩ | ⟨hcontrol, heq⟩ | ⟨-, hplain, heq⟩
  · rw [heq]
    exact decodeBody_simple hletter hsimple rest
  · have hlt : c.toNat < 32 := by simpa using UInt8.lt_iff_toNat_lt.mp hcontrol
    have hhex : parseHex4 48 48 (hexDigit (c.toNat / 16)) (hexDigit (c.toNat % 16)) =
        c.toNat := by
      have hzero : hexValue 48 = some 0 := rfl
      simp only [parseHex4, hzero, hexValue_hexDigit (show c.toNat / 16 < 16 by omega),
        hexValue_hexDigit (show c.toNat % 16 < 16 by omega)]
      omega
    have hbyte : utf8Encode c.toNat = [c] := by
      simp [utf8Encode, show c.toNat < 0x80 by omega]
    have hdecode := decodeBody_unicode hhex (by omega) rest
    rw [hbyte] at hdecode
    rw [heq]
    exact hdecode
  · rw [heq]
    exact decodeBody_plain hplain rest

/-- **Decoding undoes escaping.** -/
theorem decodeBody_escapeAll (text : Bytes) : decodeBody (escapeAll text) = some text := by
  induction text with
  | nil => rfl
  | cons c rest ih => rw [escapeAll_cons, decodeBody_escapeByte, ih]; rfl

theorem hexDigit_ne {n : Nat} (h : n < 16) : hexDigit n ≠ 34 ∧ hexDigit n ≠ 92 := by
  interval_cases n <;> decide

theorem stringSpan_cons (c : UInt8) (rest : Bytes) :
    stringSpan (c :: rest) =
      if c = 34 then some ([], rest)
      else if c = 92 then
        match rest with
        | [] => none
        | e :: rest' => (stringSpan rest').map fun (body, left) => (c :: e :: body, left)
      else (stringSpan rest).map fun (body, left) => (c :: body, left) := by
  rw [stringSpan.eq_def]
  rfl

theorem stringSpan_quote (rest : Bytes) : stringSpan (34 :: rest) = some ([], rest) := by
  rw [stringSpan_cons]
  rfl

theorem stringSpan_plain {c : UInt8} (h : c ≠ 34) (h' : c ≠ 92) (rest : Bytes) :
    stringSpan (c :: rest) =
      (stringSpan rest).map fun (body, left) => (c :: body, left) := by
  rw [stringSpan_cons, if_neg h, if_neg h']

theorem stringSpan_pair (e : UInt8) (rest : Bytes) :
    stringSpan (92 :: e :: rest) =
      (stringSpan rest).map fun (body, left) => (92 :: e :: body, left) := by
  rw [stringSpan_cons]
  rfl

/-- An escaped byte does not end a literal. -/
theorem stringSpan_escapeByte (c : UInt8) (rest : Bytes) :
    stringSpan (escapeByte c ++ rest) =
      (stringSpan rest).map fun (body, left) => (escapeByte c ++ body, left) := by
  have hhigh := hexDigit_ne (show c.toNat / 16 < 16 by have := c.toNat_lt; omega)
  have hlow := hexDigit_ne (show c.toNat % 16 < 16 by omega)
  rcases escapeByte_cases c with ⟨e, -, -, heq⟩ | ⟨-, heq⟩ | ⟨hquote, hplain, heq⟩
  · rw [heq]
    exact stringSpan_pair e rest
  · rw [heq, List.cons_append, List.cons_append, List.cons_append, List.cons_append,
      List.cons_append, List.cons_append, List.nil_append, stringSpan_pair,
      stringSpan_plain (by decide) (by decide), stringSpan_plain (by decide) (by decide),
      stringSpan_plain hhigh.1 hhigh.2, stringSpan_plain hlow.1 hlow.2]
    simp [Function.comp_def]
  · rw [heq]
    exact stringSpan_plain hquote hplain rest

/-- The literal of an escaped text ends at the quote behind it. -/
theorem stringSpan_escapeAll (text rest : Bytes) :
    stringSpan (escapeAll text ++ 34 :: rest) = some (escapeAll text, rest) := by
  induction text with
  | nil => exact stringSpan_quote rest
  | cons c more ih =>
      rw [escapeAll_cons, List.append_assoc, stringSpan_escapeByte, ih]
      rfl

/-- A literal whose inside is an escaped text parses to the text. -/
theorem parseString_escapeAll (text rest : Bytes) :
    parseString (34 :: (escapeAll text ++ 34 :: rest)) = some (text, rest) := by
  simp [parseString, stringSpan_escapeAll, decodeBody_escapeAll]

/-! ## The fuel of the parser -/

theorem length_skipWhitespace_le (s : Bytes) : (skipWhitespace s).length ≤ s.length :=
  (List.dropWhile_sublist _).length_le

theorem length_drop_lt (pattern : Bytes) {s : Bytes} (hpre : pattern.isPrefixOf s = true)
    (hpos : pattern ≠ []) : (s.drop pattern.length).length < s.length := by
  have hle := (List.isPrefixOf_iff_prefix.mp hpre).length_le
  have hlen := List.length_pos_iff.mpr hpos
  rw [List.length_drop]
  omega

/-- A literal ends before its text does. -/
theorem stringSpan_length {s body left : Bytes} (h : stringSpan s = some (body, left)) :
    left.length < s.length := by
  fun_induction stringSpan s generalizing body with
  | case1 => cases h
  | case2 rest => simp_all
  | case3 => cases h
  | case4 e rest _ ih =>
      obtain ⟨body', hspan, -⟩ : ∃ body', stringSpan rest = some (body', left) ∧ _ := by
        simpa using h
      have := ih hspan
      simp only [List.length_cons]
      omega
  | case5 c rest _ _ ih =>
      obtain ⟨body', hspan, -⟩ : ∃ body', stringSpan rest = some (body', left) ∧ _ := by
        simpa using h
      have := ih hspan
      simp only [List.length_cons]
      omega

theorem parseString_length {s text left : Bytes} (h : parseString s = some (text, left)) :
    left.length < s.length := by
  unfold parseString at h
  split at h
  · cases h
  split at h
  · cases h
  split at h
  · cases h
  rename_i hspan
  have := stringSpan_length hspan
  obtain ⟨-, rfl⟩ : _ ∧ _ = left := by
    simpa [Option.map_eq_some_iff] using h
  simp only [List.length_cons]
  omega

/-- A number takes at least one byte. -/
theorem numberSpan_ne_nil {s literal : Bytes} (h : numberSpan s = some literal) :
    literal ≠ [] := by
  unfold numberSpan at h
  dsimp only at h
  split at h
  · cases h
  rename_i hdigits
  rintro rfl
  simp only [Option.some.injEq, List.append_eq_nil_iff] at h
  exact hdigits ⟨h.1.1.2, by rw [h.1.2]; decide⟩

theorem parseNumber_length {s left : Bytes} {v : CJson}
    (h : parseNumber s = some (v, left)) (hs : s ≠ []) : left.length < s.length := by
  obtain ⟨literal, hspan, heq⟩ := Option.map_eq_some_iff.mp h
  obtain ⟨-, rfl⟩ := Prod.mk.inj heq
  have hlit := List.length_pos_iff.mpr (numberSpan_ne_nil hspan)
  have hpos := List.length_pos_iff.mpr hs
  rw [List.length_drop]
  omega

/-- A parser that leaves less than it was given, whenever it parses anything. -/
def Shortens {β : Type} (parser : Bytes → Option (β × Bytes)) : Prop :=
  ∀ s v left, parser s = some (v, left) → left.length < s.length

/-- What a parsed value is put into does not matter. -/
theorem Shortens.map {β γ : Type} {parser : Bytes → Option (β × Bytes)} (h : Shortens parser)
    {s left : Bytes} {wrap : β → γ} {v : γ}
    (hmap : ((parser s).map fun (v, left) => (wrap v, left)) = some (v, left)) :
    left.length < s.length := by
  obtain ⟨⟨inner, left'⟩, hinner, heq⟩ := Option.map_eq_some_iff.mp hmap
  obtain ⟨-, hleft⟩ := Prod.mk.inj heq
  exact hleft ▸ h s inner left' hinner

theorem parseValue_shortens {fuel : Nat} (hElements : ∀ depth, Shortens (parseElements fuel depth))
    (hMembers : ∀ depth, Shortens (parseMembers fuel depth)) (depth : Nat) :
    Shortens (parseValue (fuel + 1) depth) := by
  intro s v left h
  have hword : ∀ (pattern : Bytes) (w : CJson), pattern.isPrefixOf s = true → pattern ≠ [] →
      some (w, s.drop pattern.length) = some (v, left) → left.length < s.length := by
    intro pattern w hpre hne heq
    obtain ⟨-, hleft⟩ := Prod.mk.inj (Option.some.inj heq)
    exact hleft ▸ length_drop_lt pattern hpre hne
  unfold parseValue at h
  by_cases hnull : (lit "null").isPrefixOf s = true
  · rw [if_pos hnull] at h
    exact hword (lit "null") _ hnull (by decide) h
  rw [if_neg hnull] at h
  by_cases hfalse : (lit "false").isPrefixOf s = true
  · rw [if_pos hfalse] at h
    exact hword (lit "false") _ hfalse (by decide) h
  rw [if_neg hfalse] at h
  by_cases htrue : (lit "true").isPrefixOf s = true
  · rw [if_pos htrue] at h
    exact hword (lit "true") _ htrue (by decide) h
  rw [if_neg htrue] at h
  cases s with
  | nil => cases h
  | cons c rest =>
      have hspace := length_skipWhitespace_le rest
      dsimp only at h
      by_cases hquote : c = 34
      · rw [if_pos hquote] at h
        exact Shortens.map (fun _ _ _ => parseString_length) h
      rw [if_neg hquote] at h
      by_cases hnumber : c = 45 ∨ isDigit c
      · rw [if_pos hnumber] at h
        exact parseNumber_length h (List.cons_ne_nil _ _)
      rw [if_neg hnumber] at h
      by_cases harray : c = 91
      · rw [if_pos harray] at h
        by_cases hdeep : nestingLimit ≤ depth
        · rw [if_pos hdeep] at h
          cases h
        rw [if_neg hdeep] at h
        cases hrest : skipWhitespace rest with
        | nil =>
            rw [hrest] at h
            cases h
        | cons d more =>
            rw [hrest] at h hspace
            dsimp only at h
            rw [List.length_cons] at hspace ⊢
            by_cases hclose : d = 93
            · rw [if_pos hclose] at h
              cases h
              omega
            · rw [if_neg hclose] at h
              have hitems := (hElements (depth + 1)).map h
              rw [List.length_cons] at hitems
              omega
      rw [if_neg harray] at h
      by_cases hobject : c = 123
      · rw [if_pos hobject] at h
        by_cases hdeep : nestingLimit ≤ depth
        · rw [if_pos hdeep] at h
          cases h
        rw [if_neg hdeep] at h
        cases hrest : skipWhitespace rest with
        | nil =>
            rw [hrest] at h
            cases h
        | cons d more =>
            rw [hrest] at h hspace
            dsimp only at h
            rw [List.length_cons] at hspace ⊢
            by_cases hclose : d = 125
            · rw [if_pos hclose] at h
              cases h
              omega
            · rw [if_neg hclose] at h
              have hmembers := (hMembers (depth + 1)).map h
              rw [List.length_cons] at hmembers
              omega
      rw [if_neg hobject] at h
      cases h

theorem parseElements_shortens {fuel depth : Nat} (hValue : Shortens (parseValue fuel depth))
    (hElements : Shortens (parseElements fuel depth)) :
    Shortens (parseElements (fuel + 1) depth) := by
  intro s vs left h
  unfold parseElements at h
  split at h
  · cases h
  rename_i item left₁ hitem
  have h₀ := length_skipWhitespace_le s
  have h₁ := hValue _ _ _ hitem
  have h₂ := length_skipWhitespace_le left₁
  split at h
  · cases h
  rename_i c rest hrest
  rw [hrest, List.length_cons] at h₂
  split at h
  · have hitems := hElements.map h
    omega
  split at h
  · cases h
    omega
  · cases h

theorem parseMembers_shortens {fuel depth : Nat} (hValue : Shortens (parseValue fuel depth))
    (hMembers : Shortens (parseMembers fuel depth)) :
    Shortens (parseMembers (fuel + 1) depth) := by
  intro s ms left h
  unfold parseMembers at h
  split at h
  · cases h
  rename_i name afterName hname
  have h₀ := length_skipWhitespace_le s
  have h₁ := parseString_length hname
  have h₂ := length_skipWhitespace_le afterName
  split at h
  · cases h
  rename_i colon afterColon hcolon
  rw [hcolon, List.length_cons] at h₂
  split at h
  · cases h
  have h₃ := length_skipWhitespace_le afterColon
  split at h
  · cases h
  rename_i value left₁ hvalue
  have h₄ := hValue _ _ _ hvalue
  have h₅ := length_skipWhitespace_le left₁
  split at h
  · cases h
  rename_i c rest hrest
  rw [hrest, List.length_cons] at h₅
  split at h
  · have hmembers := hMembers.map h
    omega
  split at h
  · cases h
    omega
  · cases h

/-- **The parser moves forward.**  Whatever it parses, it leaves less than it
was given. -/
theorem parse_shortens (fuel : Nat) :
    (∀ depth, Shortens (parseValue fuel depth)) ∧
      (∀ depth, Shortens (parseElements fuel depth)) ∧
      (∀ depth, Shortens (parseMembers fuel depth)) := by
  induction fuel with
  | zero => simp [Shortens, parseValue, parseElements, parseMembers]
  | succ fuel ih =>
      obtain ⟨ihValue, ihElements, ihMembers⟩ := ih
      refine ⟨?_, ?_, ?_⟩
      · exact parseValue_shortens ihElements ihMembers
      · intro depth
        exact parseElements_shortens (ihValue depth) (ihElements depth)
      · intro depth
        exact parseMembers_shortens (ihValue depth) (ihMembers depth)

/-- **Enough fuel is enough.**  Beyond two units for every byte left, more fuel
changes nothing. -/
theorem parse_fuel (fuel : Nat) :
    (∀ depth s, 2 * s.length + 1 ≤ fuel →
      parseValue (fuel + 1) depth s = parseValue fuel depth s) ∧
    (∀ depth s, 2 * s.length + 2 ≤ fuel →
      parseElements (fuel + 1) depth s = parseElements fuel depth s) ∧
    (∀ depth s, 2 * s.length + 2 ≤ fuel →
      parseMembers (fuel + 1) depth s = parseMembers fuel depth s) := by
  induction fuel with
  | zero => exact ⟨fun _ _ h => by omega, fun _ _ h => by omega, fun _ _ h => by omega⟩
  | succ fuel ih =>
      obtain ⟨ihValue, ihElements, ihMembers⟩ := ih
      refine ⟨fun depth s hfuel => ?_, fun depth s hfuel => ?_, fun depth s hfuel => ?_⟩
      · cases s with
        | nil => simp [parseValue]
        | cons c rest =>
            have h₀ := length_skipWhitespace_le rest
            rw [List.length_cons] at hfuel
            unfold parseValue
            match hrest : skipWhitespace rest with
            | [] => simp only [hrest]
            | d :: rest' =>
                rw [hrest] at h₀
                simp only [hrest, ihElements (depth + 1) (d :: rest') (by omega),
                  ihMembers (depth + 1) (d :: rest') (by omega)]
      · have h₀ := length_skipWhitespace_le s
        unfold parseElements
        rw [ihValue depth (skipWhitespace s) (by omega)]
        match hitem : parseValue fuel depth (skipWhitespace s) with
        | none => rfl
        | some (item, left) =>
            have h₁ := (parse_shortens fuel).1 _ _ _ _ hitem
            have h₂ := length_skipWhitespace_le left
            match hrest : skipWhitespace left with
            | [] => simp only [hrest]
            | c :: rest =>
                rw [hrest, List.length_cons] at h₂
                simp only [hrest, ihElements depth rest (by omega)]
      · have h₀ := length_skipWhitespace_le s
        unfold parseMembers
        match hname : parseString (skipWhitespace s) with
        | none => rfl
        | some (name, afterName) =>
            have h₁ := parseString_length hname
            have h₂ := length_skipWhitespace_le afterName
            match hcolon : skipWhitespace afterName with
            | [] => simp only [hcolon]
            | colon :: afterColon =>
                rw [hcolon, List.length_cons] at h₂
                have h₃ := length_skipWhitespace_le afterColon
                simp only [hcolon, ihValue depth (skipWhitespace afterColon) (by omega)]
                match hvalue : parseValue fuel depth (skipWhitespace afterColon) with
                | none => rfl
                | some (value, left) =>
                    have h₄ := (parse_shortens fuel).1 _ _ _ _ hvalue
                    have h₅ := length_skipWhitespace_le left
                    match hrest : skipWhitespace left with
                    | [] => simp only [hrest]
                    | c :: rest =>
                        rw [hrest, List.length_cons] at h₅
                        simp only [hrest, ihMembers depth rest (by omega)]

/-- The fuel `parse` uses gives what any larger amount would. -/
theorem parseValue_fuel {fuel : Nat} {s : Bytes} (h : 2 * s.length + 1 ≤ fuel)
    (depth : Nat) :
    parseValue fuel depth s = parseValue (2 * s.length + 1) depth s := by
  induction fuel, h using Nat.le_induction with
  | base => rfl
  | succ fuel hle ih => rw [(parse_fuel fuel).1 depth s hle, ih]

end CJson

end StarBridge
