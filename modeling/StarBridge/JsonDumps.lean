import StarBridge.JsonText

/-!
# JSON as Python writes it

`json.dumps` writes ASCII alone: what JSON has a letter for becomes a backslash and the letter,
and every other character outside the printable ones one `\u` escape, or two.

`Stands` says what a stretch of a string literal is read as, whatever follows it, and the rules
below put stretches together.  `parse_jsonDumps` is the outcome: the parser of the bridge reads
a dictionary of texts as the UTF-8 of the texts.
-/

namespace StarBridge

open CText

/-! ## The writer -/

/-- `\u` and a number in four hexadecimal digits. -/
def unitEscape (n : Nat) : Bytes :=
  [92, 117, hexDigit (n / 4096), hexDigit (n / 256 % 16), hexDigit (n / 16 % 16),
    hexDigit (n % 16)]

/-- `ESCAPE_DCT`: the letter behind the backslash. -/
def dumpsLetter (c : Char) : Option UInt8 :=
  if c = '"' then some 34
  else if c = '\\' then some 92
  else if c = '\n' then some 110
  else if c = '\r' then some 114
  else if c = '\t' then some 116
  else if c = '\x0c' then some 102
  else if c = '\x08' then some 98
  else none

/-- A character in `py_encode_basestring_ascii`. -/
def dumpsChar (c : Char) : Bytes :=
  match dumpsLetter c with
  | some letter => [92, letter]
  | none =>
      if 32 ≤ c.toNat ∧ c.toNat < 127 then [UInt8.ofNat c.toNat]
      else if c.toNat < 65536 then unitEscape c.toNat
      else
        -- a surrogate pair
        unitEscape (55296 + (c.toNat - 65536) / 1024) ++
          unitEscape (56320 + (c.toNat - 65536) % 1024)

/-- A text as a string literal. -/
def dumpsText (text : List Char) : Bytes := 34 :: (text.flatMap dumpsChar ++ [34])

/-- `text.encode("utf-8")`. -/
def utf8Text (text : List Char) : Bytes := text.flatMap String.utf8EncodeChar

/-- `json.dumps` with the separators of `write_frame`, of a dictionary of texts.  The names
are plain, and written as they are. -/
def jsonDumps (members : List (Bytes × List Char)) : Bytes :=
  123 :: CJson.printedMembers []
    (members.map fun m => (m.1, .string (utf8Text m.2), dumpsText m.2))

namespace CJson

/-! ## Stretches of a literal -/

/-- A stretch of a string literal that is read as this value, whatever follows. -/
structure Stands (stretch value : Bytes) : Prop where
  decoded : ∀ rest, decodeBody (stretch ++ rest) = (decodeBody rest).map (value ++ ·)
  spanned : ∀ rest, stringSpan (stretch ++ rest) =
    (stringSpan rest).map fun (body, left) => (stretch ++ body, left)

theorem Stands.nil : Stands [] [] := ⟨fun rest => by simp, fun rest => by simp⟩

theorem Stands.append {front behind v w : Bytes} (h : Stands front v) (h' : Stands behind w) :
    Stands (front ++ behind) (v ++ w) := by
  refine ⟨fun rest => ?_, fun rest => ?_⟩
  · rw [List.append_assoc, h.decoded, h'.decoded, Option.map_map]
    simp [Function.comp_def]
  · rw [List.append_assoc, h.spanned, h'.spanned, Option.map_map]
    simp [Function.comp_def]

theorem Stands.flatMap {α : Type*} {code value : α → Bytes}
    (h : ∀ a, Stands (code a) (value a)) (text : List α) :
    Stands (text.flatMap code) (text.flatMap value) := by
  induction text with
  | nil => exact Stands.nil
  | cons a rest ih => exact (h a).append ih

theorem stands_byte {c : UInt8} (hquote : c ≠ 34) (hplain : c ≠ 92) : Stands [c] [c] :=
  ⟨decodeBody_plain hplain, stringSpan_plain hquote hplain⟩

theorem stands_letter {e b : UInt8} (he : e ≠ 117) (hb : simpleEscape e = some b) :
    Stands [92, e] [b] :=
  ⟨decodeBody_simple he hb, stringSpan_pair e⟩

/-- **A literal** whose inside stands for a value. -/
theorem Stands.reads {stretch value : Bytes} (h : Stands stretch value) (depth : Nat) :
    Reads depth (.string value) (34 :: (stretch ++ [34])) := by
  refine ⟨by simp, by simp, fun rest fuel _ hfuel => ?_⟩
  obtain ⟨fuel, rfl⟩ : ∃ n, fuel = n + 1 := ⟨fuel - 1, by omega⟩
  have hspan := h.spanned (34 :: rest)
  rw [stringSpan_quote] at hspan
  have hbody := h.decoded []
  rw [List.append_nil] at hbody
  have hstring : parseString (34 :: (stretch ++ 34 :: rest)) = some (value, rest) := by
    simp [parseString, hspan, hbody, decodeBody]
  simp only [List.cons_append, List.append_assoc, List.nil_append]
  rw [parseValue]
  simp [lit, hstring]

/-! ## Escapes of code units -/

theorem parseHex4_unitEscape {n : Nat} (h : n < 65536) :
    parseHex4 (hexDigit (n / 4096)) (hexDigit (n / 256 % 16)) (hexDigit (n / 16 % 16))
      (hexDigit (n % 16)) = n := by
  simp only [parseHex4, hexValue_hexDigit (show n / 4096 < 16 by omega),
    hexValue_hexDigit (show n / 256 % 16 < 16 by omega),
    hexValue_hexDigit (show n / 16 % 16 < 16 by omega),
    hexValue_hexDigit (show n % 16 < 16 by omega)]
  omega

theorem stringSpan_unitEscape {n : Nat} (h : n < 65536) (rest : Bytes) :
    stringSpan (unitEscape n ++ rest) =
      (stringSpan rest).map fun (body, left) => (unitEscape n ++ body, left) := by
  have h₁ := hexDigit_ne (show n / 4096 < 16 by omega)
  have h₂ := hexDigit_ne (show n / 256 % 16 < 16 by omega)
  have h₃ := hexDigit_ne (show n / 16 % 16 < 16 by omega)
  have h₄ := hexDigit_ne (show n % 16 < 16 by omega)
  simp only [unitEscape, List.cons_append, List.nil_append]
  rw [stringSpan_pair, stringSpan_plain h₁.1 h₁.2, stringSpan_plain h₂.1 h₂.2,
    stringSpan_plain h₃.1 h₃.2, stringSpan_plain h₄.1 h₄.2]
  simp [Function.comp_def]

/-- A code unit that is no surrogate. -/
theorem stands_unit {n : Nat} (h : n < 55296 ∨ 57343 < n ∧ n < 65536) :
    Stands (unitEscape n) (utf8Encode n) := by
  refine ⟨fun rest => ?_, stringSpan_unitEscape (by omega)⟩
  simp only [unitEscape, List.cons_append, List.nil_append]
  rw [decodeBody.eq_def]
  simp [parseHex4_unitEscape (show n < 65536 by omega),
    show ¬ (0xDC00 ≤ n ∧ n ≤ 0xDFFF) by omega, show ¬ (0xD800 ≤ n ∧ n ≤ 0xDBFF) by omega]

/-- **A surrogate pair.** -/
theorem stands_pair {m n : Nat} (hm : m < 1024) (hn : n < 1024) :
    Stands (unitEscape (55296 + m) ++ unitEscape (56320 + n))
      (utf8Encode (65536 + 1024 * m + n)) := by
  constructor
  · intro rest
    simp only [unitEscape, List.cons_append, List.nil_append]
    rw [decodeBody.eq_def]
    simp [parseHex4_unitEscape (show 55296 + m < 65536 by omega),
      parseHex4_unitEscape (show 56320 + n < 65536 by omega),
      show ¬ (0xDC00 ≤ 55296 + m ∧ 55296 + m ≤ 0xDFFF) by omega,
      show 0xD800 ≤ 55296 + m ∧ 55296 + m ≤ 0xDBFF by omega]
    intro hbeyond
    omega
  · intro rest
    rw [List.append_assoc, stringSpan_unitEscape (by omega), stringSpan_unitEscape (by omega),
      Option.map_map]
    simp [Function.comp_def]

/-! ## Characters -/

theorem utf8Encode_toNat (c : Char) : utf8Encode c.toNat = String.utf8EncodeChar c := by
  have hval : c.val.toNat < 55296 ∨ 57343 < c.val.toNat ∧ c.val.toNat < 1114112 := c.valid
  have hnat : c.toNat = c.val.toNat := rfl
  rw [hnat]
  generalize hv : c.val.toNat = v at hval
  unfold utf8Encode String.utf8EncodeChar
  simp only [hv]
  by_cases h₁ : v < 0x80
  · rw [if_pos h₁, if_pos (by omega)]
  by_cases h₂ : v < 0x800
  · rw [if_neg h₁, if_pos h₂, if_neg (by omega), if_pos (by omega),
      show 0xC0 + v / 64 = v / 64 % 32 + 192 by omega, Nat.add_comm 0x80]
  by_cases h₃ : v < 0x10000
  · rw [if_neg h₁, if_neg h₂, if_pos h₃, if_neg (by omega), if_neg (by omega),
      if_pos (by omega), show 0xE0 + v / 4096 = v / 4096 % 16 + 224 by omega,
      Nat.add_comm 0x80, Nat.add_comm 0x80]
  · rw [if_neg h₁, if_neg h₂, if_neg h₃, if_neg (by omega), if_neg (by omega),
      if_neg (by omega), show 0xF0 + v / 262144 = v / 262144 % 8 + 240 by omega,
      Nat.add_comm 0x80, Nat.add_comm 0x80, Nat.add_comm 0x80]

/-- A character with a letter of its own. -/
theorem dumpsLetter_some {c : Char} {letter : UInt8} (h : dumpsLetter c = some letter) :
    ∃ b, letter ≠ 0 ∧ letter ≠ 117 ∧ simpleEscape letter = some b ∧
      String.utf8EncodeChar c = [b] := by
  unfold dumpsLetter at h
  split_ifs at h with h₁ h₂ h₃ h₄ h₅ h₆ h₇
  · cases h
    exact ⟨34, by decide, by decide, rfl, by rw [h₁]; decide⟩
  · cases h
    exact ⟨92, by decide, by decide, rfl, by rw [h₂]; decide⟩
  · cases h
    exact ⟨10, by decide, by decide, rfl, by rw [h₃]; decide⟩
  · cases h
    exact ⟨13, by decide, by decide, rfl, by rw [h₄]; decide⟩
  · cases h
    exact ⟨9, by decide, by decide, rfl, by rw [h₅]; decide⟩
  · cases h
    exact ⟨12, by decide, by decide, rfl, by rw [h₆]; decide⟩
  · cases h
    exact ⟨8, by decide, by decide, rfl, by rw [h₇]; decide⟩

/-- A character without one is neither a quotation mark nor a backslash. -/
theorem dumpsLetter_none {c : Char} (h : dumpsLetter c = none) : c ≠ '"' ∧ c ≠ '\\' := by
  constructor
  · rintro rfl
    exact absurd h (by decide)
  · rintro rfl
    exact absurd h (by decide)

/-- **A character** is read as its UTF-8. -/
theorem stands_dumpsChar (c : Char) : Stands (dumpsChar c) (String.utf8EncodeChar c) := by
  have hvalid : c.toNat < 55296 ∨ 57343 < c.toNat ∧ c.toNat < 1114112 := c.valid
  unfold dumpsChar
  cases hletter : dumpsLetter c with
  | some letter =>
      obtain ⟨b, -, hu, hb, hcode⟩ := dumpsLetter_some hletter
      rw [hcode]
      exact stands_letter hu hb
  | none =>
      obtain ⟨hquote, hback⟩ := dumpsLetter_none hletter
      have hbyte (n : Nat) (hn : c.toNat < 127) (heq : UInt8.ofNat c.toNat = UInt8.ofNat n)
          (hlow : n < 256) : c = Char.ofNat n := by
        have hnat := congrArg UInt8.toNat heq
        rw [UInt8.toNat_ofNat_of_lt' (show c.toNat < 256 by omega),
          UInt8.toNat_ofNat_of_lt' hlow] at hnat
        rw [← hnat, Char.ofNat_toNat]
      rw [← utf8Encode_toNat]
      dsimp only
      split_ifs with hprintable hunit
      · have hcode : utf8Encode c.toNat = [UInt8.ofNat c.toNat] := if_pos (by omega)
        rw [hcode]
        exact stands_byte (fun h => hquote (hbyte 34 hprintable.2 h (by decide)))
          fun h => hback (hbyte 92 hprintable.2 h (by decide))
      · exact stands_unit (by omega)
      · have hpair := stands_pair (show (c.toNat - 65536) / 1024 < 1024 by omega)
          (show (c.toNat - 65536) % 1024 < 1024 by omega)
        rwa [show 65536 + 1024 * ((c.toNat - 65536) / 1024) + (c.toNat - 65536) % 1024 =
          c.toNat by omega] at hpair

/-- **A text** is read as its UTF-8. -/
theorem reads_dumpsText (depth : Nat) (text : List Char) :
    Reads depth (.string (utf8Text text)) (dumpsText text) :=
  (Stands.flatMap stands_dumpsChar text).reads depth

/-! ## Frames of texts -/

theorem zero_not_mem_unitEscape (n : Nat) (h : n < 65536) : 0 ∉ unitEscape n := by
  have hdigit : ∀ n < 16, hexDigit n ≠ 0 := by decide
  have h₁ := hdigit (n / 4096) (by omega)
  have h₂ := hdigit (n / 256 % 16) (by omega)
  have h₃ := hdigit (n / 16 % 16) (by omega)
  have h₄ := hdigit (n % 16) (by omega)
  simp [unitEscape, h₁.symm, h₂.symm, h₃.symm, h₄.symm]

theorem zero_not_mem_dumpsChar (c : Char) : 0 ∉ dumpsChar c := by
  have hvalid : c.toNat < 55296 ∨ 57343 < c.toNat ∧ c.toNat < 1114112 := c.valid
  unfold dumpsChar
  cases hletter : dumpsLetter c with
  | some letter =>
      obtain ⟨b, hzero, -⟩ := dumpsLetter_some hletter
      simp [hzero.symm]
  | none =>
      dsimp only
      split_ifs with hprintable hunit
      · intro hmem
        have hnat := congrArg UInt8.toNat (List.mem_singleton.mp hmem)
        rw [UInt8.toNat_ofNat_of_lt' (show c.toNat < 256 by omega)] at hnat
        change 0 = c.toNat at hnat
        omega
      · exact zero_not_mem_unitEscape _ hunit
      · exact fun hmem => (List.mem_append.mp hmem).elim
          (zero_not_mem_unitEscape _ (by omega)) (zero_not_mem_unitEscape _ (by omega))

theorem zero_not_mem_dumpsText (text : List Char) : 0 ∉ dumpsText text := by
  have hinside : 0 ∉ text.flatMap dumpsChar := fun hmem =>
    (List.mem_flatMap.mp hmem).elim fun c hc => zero_not_mem_dumpsChar c hc.2
  simp [dumpsText, hinside]

/-- **A dictionary of texts** is read as the UTF-8 of its texts. -/
theorem parse_jsonDumps {members : List (Bytes × List Char)} (hne : members ≠ [])
    (hnames : ∀ m ∈ members, 0 ∉ m.1) :
    parse (jsonDumps members) =
      some (.object (members.map fun m => (m.1, .string (utf8Text m.2)))) := by
  let printed : List (Bytes × CJson × Bytes) :=
    members.map fun m => (m.1, .string (utf8Text m.2), dumpsText m.2)
  have hreads : ∀ m ∈ printed, Reads 1 m.2.1 m.2.2 := by
    intro m hm
    obtain ⟨m', -, rfl⟩ := List.mem_map.mp hm
    exact reads_dumpsText 1 m'.2
  have hplain : ∀ m ∈ printed, 0 ∉ m.1 ∧ 0 ∉ m.2.2 := by
    intro m hm
    obtain ⟨m', hm', rfl⟩ := List.mem_map.mp hm
    exact ⟨hnames m' hm', zero_not_mem_dumpsText m'.2⟩
  have hparse := parse_printedMembers (Or.inl (rfl : ([] : Bytes) = []))
    (fun h => hne (List.map_eq_nil_iff.mp h)) hreads hplain
  rw [List.nil_append, List.append_nil, List.map_map] at hparse
  exact hparse

theorem zero_not_mem_jsonDumps {members : List (Bytes × List Char)}
    (hnames : ∀ m ∈ members, 0 ∉ m.1) : 0 ∉ jsonDumps members := by
  have hprinted : 0 ∉ printedMembers []
      (members.map fun m => (m.1, CJson.string (utf8Text m.2), dumpsText m.2)) := by
    refine zero_not_mem_printed (Or.inl rfl) fun m hm => ?_
    obtain ⟨m', hm', rfl⟩ := List.mem_map.mp hm
    exact ⟨hnames m' hm', zero_not_mem_dumpsText m'.2⟩
  exact fun hmem => (List.mem_cons.mp hmem).elim (by decide) hprinted

end CJson

end StarBridge
