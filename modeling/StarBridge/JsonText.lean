import Mathlib.Data.List.DropRight
import StarBridge.SessionIndex

/-!
# Printed JSON reads back

The bridge prints its JSON piece by piece: literals of the source around
escaped texts and numbers.  `Reads` says of one such text that the parser takes
exactly this value off it, whatever follows; `ReadsMembers` says the same of the
inside of an object up to its closing brace.  The rules below put a text
together in the order it is printed, and `ReadsMembers.parse` is the answer of
`cJSON_Parse` to the whole.
-/

namespace StarBridge

open CText

namespace CJson

/-- A string literal. -/
def quoted (text : Bytes) : Bytes := 34 :: (escapeAll text ++ [34])

/-- What may follow a number without becoming part of it. -/
def Stops (rest : Bytes) : Prop :=
  ∀ c ∈ rest.head?, c = 44 ∨ c = 93 ∨ c = 125 ∨ c = 10

/-- The parser takes the value, and no more, off the text. -/
def Reads (depth : Nat) (v : CJson) (text : Bytes) : Prop :=
  (∀ c ∈ text.head?, 32 < c ∧ c ≠ 93) ∧ text ≠ [] ∧
    ∀ rest fuel, Stops rest → 2 * (text.length + rest.length) + 1 ≤ fuel →
      parseValue fuel depth (text ++ rest) = some (v, rest)

/-- The parser takes the members, and their closing brace, off the text. -/
def ReadsMembers (depth : Nat) (members : List (Bytes × CJson)) (text : Bytes) : Prop :=
  ∀ rest fuel, 2 * (text.length + rest.length) + 2 ≤ fuel →
    parseMembers fuel depth (text ++ rest) = some (members, rest)

/-- White space in front of something that has none is skipped. -/
theorem skipWhitespace_of_head {c : UInt8} (hc : 32 < c) (rest : Bytes) :
    skipWhitespace (c :: rest) = c :: rest := by
  have hnot : ¬ c ≤ 32 := UInt8.not_le.mpr hc
  simp [skipWhitespace, hnot]

theorem Reads.skipWhitespace {depth : Nat} {v : CJson} {text : Bytes}
    (h : Reads depth v text) (rest : Bytes) :
    skipWhitespace (text ++ rest) = text ++ rest := by
  obtain ⟨hhead, hne, -⟩ := h
  cases text with
  | nil => exact absurd rfl hne
  | cons c more => exact skipWhitespace_of_head (hhead c (by simp)).1 _

/-! ## Values -/

theorem parseValue_string (fuel depth : Nat) (text rest : Bytes) :
    parseValue (fuel + 1) depth (quoted text ++ rest) = some (.string text, rest) := by
  have hstring := parseString_escapeAll text rest
  simp only [quoted, List.cons_append, List.append_assoc, List.nil_append]
  rw [parseValue]
  simp [lit, hstring]

theorem reads_string (depth : Nat) (text : Bytes) :
    Reads depth (.string text) (quoted text) := by
  refine ⟨by simp [quoted], by simp [quoted], fun rest fuel _ hfuel => ?_⟩
  obtain ⟨fuel, rfl⟩ : ∃ n, fuel = n + 1 := ⟨fuel - 1, by omega⟩
  exact parseValue_string fuel depth text rest

theorem reads_null (depth : Nat) : Reads depth .null (lit "null") := by
  have hhead : ∀ c ∈ (lit "null").head?, 32 < c ∧ c ≠ 93 := by simp [lit]
  refine ⟨hhead, by decide, fun rest fuel _ hfuel => ?_⟩
  obtain ⟨fuel, rfl⟩ : ∃ n, fuel = n + 1 := ⟨fuel - 1, by omega⟩
  have hnull : (lit "null").isPrefixOf (lit "null" ++ rest) = true :=
    List.isPrefixOf_iff_prefix.mpr (List.prefix_append _ _)
  rw [parseValue.eq_def]
  simp only [hnull, if_true]
  rfl

/-- The digits of a decimal number are digits. -/
theorem isDigit_of_mem_decimal {n : Nat} {c : UInt8} (h : c ∈ decimal n) :
    isDigit c = true := by
  obtain ⟨d, hd, rfl⟩ := List.mem_map.mp h
  have hdigit := Nat.isDigit_of_mem_toDigits (by decide) (by decide) hd
  simp only [Char.isDigit, Bool.and_eq_true, decide_eq_true_eq] at hdigit
  obtain ⟨hlow, hhigh⟩ := hdigit
  have hlow' : 48 ≤ d.toNat := by simpa using UInt32.le_iff_toNat_le.mp hlow
  have hhigh' : d.toNat ≤ 57 := by simpa using UInt32.le_iff_toNat_le.mp hhigh
  simp only [isDigit, Bool.and_eq_true, decide_eq_true_eq, UInt8.le_iff_toNat_le,
    UInt8.toNat_ofNat']
  have hmod : d.toNat % 2 ^ 8 = d.toNat := Nat.mod_eq_of_lt (by omega)
  rw [hmod]
  exact ⟨hlow', hhigh'⟩

/-- The digits of a decimal number add up to it. -/
theorem foldl_decimal (n : Nat) :
    (decimal n).foldl (fun n c => 10 * n + (c.toNat - 48)) 0 = n := by
  rw [decimal, List.foldl_map]
  have hdigits : ∀ (value : Nat), ∀ c ∈ Nat.toDigits 10 n,
      10 * value + ((UInt8.ofNat c.toNat).toNat - 48) =
        10 * value + (c.toNat - '0'.toNat) := by
    intro value c hc
    have hdigit := Nat.isDigit_of_mem_toDigits (by decide) (by decide) hc
    simp only [Char.isDigit, Bool.and_eq_true, decide_eq_true_eq] at hdigit
    have hhigh : c.toNat ≤ 57 := by simpa using UInt32.le_iff_toNat_le.mp hdigit.2
    have hsmall : (UInt8.ofNat c.toNat).toNat = c.toNat := by
      rw [UInt8.toNat_ofNat']
      omega
    rw [hsmall]
    rfl
  rw [List.foldl_ext _ _ 0 hdigits, ← Nat.ofDigitChars_eq_foldl]
  exact Nat.ofDigitChars_ten_toDigits

theorem decimal_ne_nil (n : Nat) : decimal n ≠ [] := by
  simp [decimal, Nat.toDigits_ne_nil]

/-- A decimal number is the whole of the number in front of a comma or a
bracket. -/
theorem numberSpan_decimal (n : Nat) {rest : Bytes} (hstop : Stops rest) :
    numberSpan (decimal n ++ rest) = some (decimal n) := by
  have hdigits : ∀ c ∈ decimal n, isDigit c = true := fun c => isDigit_of_mem_decimal
  have hrest : rest.takeWhile isDigit = [] := by
    cases rest with
    | nil => rfl
    | cons c more =>
        have hc : isDigit c = false := by
          rcases hstop c rfl with rfl | rfl | rfl | rfl <;> decide
        simp [hc]
  have hsign : signSpan (decimal n ++ rest) = [] := by
    cases hd : decimal n with
    | nil => exact absurd hd (decimal_ne_nil n)
    | cons c more =>
        have hc : isDigit c = true := hdigits c (by simp [hd])
        have hplus : c ≠ 43 := by rintro rfl; exact absurd hc (by decide)
        have hminus : c ≠ 45 := by rintro rfl; exact absurd hc (by decide)
        simp [signSpan, hplus, hminus]
  have hfraction : fractionSpan rest = [] := by
    cases rest with
    | nil => rfl
    | cons c more =>
        have hc : c ≠ 46 := by rcases hstop c rfl with rfl | rfl | rfl | rfl <;> decide
        simp [fractionSpan, hc]
  have hexponent : exponentSpan rest = [] := by
    cases rest with
    | nil => rfl
    | cons c more =>
        have hc : ¬ (c = 101 ∨ c = 69) := by
          rcases hstop c rfl with rfl | rfl | rfl | rfl <;> decide
        simp [exponentSpan, hc]
  have htake : (decimal n ++ rest).takeWhile isDigit = decimal n := by
    rw [List.takeWhile_append_of_pos hdigits, hrest, List.append_nil]
  simp [numberSpan, hsign, htake, hfraction, hexponent, decimal_ne_nil]

theorem reads_decimal (depth n : Nat) : Reads depth (.number (decimal n)) (decimal n) := by
  obtain ⟨c, more, hd⟩ := List.exists_cons_of_ne_nil (decimal_ne_nil n)
  have hc : isDigit c = true := isDigit_of_mem_decimal (n := n) (by simp [hd])
  have hrange : 48 ≤ c ∧ c ≤ 57 := by simpa [isDigit] using hc
  have hlow : 48 ≤ c.toNat := UInt8.le_iff_toNat_le.mp hrange.1
  have hhigh : c.toNat ≤ 57 := UInt8.le_iff_toNat_le.mp hrange.2
  have hne : ∀ d : UInt8, d.toNat < 48 ∨ 57 < d.toNat → c ≠ d := by
    rintro d hd rfl
    omega
  refine ⟨?_, decimal_ne_nil n, fun rest fuel hstop hfuel => ?_⟩
  · intro d hd'
    obtain rfl : c = d := by simpa [hd] using hd'
    exact ⟨UInt8.lt_iff_toNat_lt.mpr (by simp; omega), hne 93 (by decide)⟩
  · obtain ⟨fuel, rfl⟩ : ∃ k, fuel = k + 1 := ⟨fuel - 1, by omega⟩
    have hnumber : parseNumber (decimal n ++ rest) = some (.number (decimal n), rest) := by
      simp [parseNumber, numberSpan_decimal n hstop]
    rw [hd, List.cons_append] at hnumber
    rw [hd, List.cons_append, parseValue]
    simp [lit, hnumber, hc, (hne 110 (by decide)).symm, (hne 102 (by decide)).symm,
      (hne 116 (by decide)).symm, hne 34 (by decide)]

/-- A minus sign in front of a number belongs to it. -/
theorem numberSpan_minus {digits rest : Bytes} (hdigits : ∀ c ∈ digits, isDigit c = true)
    (hne : digits ≠ []) (h : numberSpan (digits ++ rest) = some digits) :
    numberSpan (45 :: (digits ++ rest)) = some (45 :: digits) := by
  obtain ⟨c, more, hcons⟩ := List.exists_cons_of_ne_nil hne
  have hc : isDigit c = true := hdigits c (by simp [hcons])
  have hplus : c ≠ 43 := by
    intro heq
    rw [heq] at hc
    cases hc
  have hminus : c ≠ 45 := by
    intro heq
    rw [heq] at hc
    cases hc
  have hsign : signSpan (digits ++ rest) = [] := by
    simp [hcons, signSpan, hplus, hminus]
  have hsign' : signSpan (45 :: (digits ++ rest)) = [45] := rfl
  unfold numberSpan at h ⊢
  simp only [hsign, List.length_nil, List.drop_zero, List.nil_append] at h
  simp only [hsign', List.drop_succ_cons, List.drop_zero, List.cons_append, List.length_cons,
    List.length_nil, List.nil_append]
  split at h
  · cases h
  · rename_i hsome
    rw [if_neg hsome]
    simpa using h

theorem reads_signedDecimal (depth : Nat) (n : Int) :
    Reads depth (.number (signedDecimal n)) (signedDecimal n) := by
  unfold signedDecimal
  split
  · refine ⟨?_, List.cons_ne_nil _ _, fun rest fuel hstop hfuel => ?_⟩
    · intro c hc
      cases hc
      decide
    · obtain ⟨fuel, rfl⟩ : ∃ k, fuel = k + 1 := ⟨fuel - 1, by omega⟩
      have hspan := numberSpan_minus (fun c => isDigit_of_mem_decimal) (decimal_ne_nil n.natAbs)
        (numberSpan_decimal n.natAbs hstop)
      have hnumber : parseNumber (45 :: (decimal n.natAbs ++ rest)) =
          some (.number (45 :: decimal n.natAbs), rest) := by
        simp [parseNumber, hspan]
      rw [List.cons_append, parseValue]
      simp [lit, hnumber]
  · exact reads_decimal depth n.natAbs

/-- Text that goes into a string literal as it is. -/
def PlainText (text : Bytes) : Prop := ∀ c ∈ text, c ≠ 0 ∧ escapeByte c = [c]

instance (text : Bytes) : Decidable (PlainText text) :=
  List.decidableBAll _ text

theorem PlainText.zero_not_mem {text : Bytes} (h : PlainText text) : 0 ∉ text :=
  fun hmem => (h 0 hmem).1 rfl

theorem PlainText.escapeAll {text : Bytes} (h : PlainText text) :
    escapeAll text = text := by
  induction text with
  | nil => rfl
  | cons c rest ih =>
      have hrest : PlainText rest := fun d hd => h d (by simp [hd])
      rw [escapeAll_cons, (h c (by simp)).2, ih hrest]
      rfl

theorem PlainText.clip {text : Bytes} (h : PlainText text) (size : Nat) :
    PlainText (clip size text) := fun c hc => h c (List.mem_of_mem_take hc)

/-- A digit is not escaped. -/
theorem escapeByte_of_isDigit {c : UInt8} (h : isDigit c = true) :
    escapeByte c = [c] := by
  have hne : ∀ d : UInt8, isDigit d = false → c ≠ d := by
    rintro d hd rfl
    exact absurd h (by simp [hd])
  have hlow : ¬ c < 32 := by
    have hrange : 48 ≤ c ∧ c ≤ 57 := by simpa [isDigit] using h
    exact UInt8.not_lt.mpr (UInt8.le_trans (show (32 : UInt8) ≤ 48 by decide) hrange.1)
  simp [escapeByte, hlow, hne 34 rfl, hne 92 rfl, hne 8 rfl, hne 12 rfl, hne 10 rfl,
    hne 13 rfl, hne 9 rfl]

theorem plainText_decimal (n : Nat) : PlainText (decimal n) := by
  intro c hc
  have hdigit := isDigit_of_mem_decimal hc
  refine ⟨?_, escapeByte_of_isDigit hdigit⟩
  rintro rfl
  exact absurd hdigit (by decide)

theorem plainText_signedDecimal (n : Int) : PlainText (signedDecimal n) := by
  unfold signedDecimal
  split
  · intro c hc
    rcases List.mem_cons.mp hc with hc | hc
    · subst hc
      decide
    · exact plainText_decimal n.natAbs c hc
  · exact plainText_decimal n.natAbs

theorem length_decimal_le {n k : Nat} (hk : 0 < k) (h : n < 10 ^ k) :
    (decimal n).length ≤ k := by
  rw [decimal, List.length_map]
  exact (Nat.length_toDigits_le_iff (by decide) hk).mpr h

theorem length_signedDecimal_le {n : Int} {k : Nat} (hk : 0 < k) (h : n.natAbs < 10 ^ k) :
    (signedDecimal n).length ≤ k + 1 := by
  have hlen := length_decimal_le hk h
  unfold signedDecimal
  split
  · exact Nat.succ_le_succ hlen
  · omega

/-- An `int` takes eleven bytes at most. -/
theorem length_int32_le (n : Int32) : (signedDecimal n.toInt).length ≤ 11 := by
  have hlow := n.le_toInt
  have hhigh := n.toInt_lt
  exact length_signedDecimal_le (by decide) (by omega)

/-! ## Members and objects -/

/-- The part of `parseMembers` up to the value. -/
theorem parseMembers_value {depth : Nat} {v : CJson} {text : Bytes}
    (h : Reads depth v text) (name rest : Bytes) {fuel : Nat} (hstop : Stops rest)
    (hfuel : 2 * (text.length + rest.length) + 1 ≤ fuel) :
    parseMembers (fuel + 1) depth (quoted name ++ (58 :: (text ++ rest))) =
      match skipWhitespace rest with
      | [] => none
      | c :: left =>
          if c = 44 then
            (parseMembers fuel depth left).map
              fun (members, left') => ((name, v) :: members, left')
          else if c = 125 then some ([(name, v)], left)
          else none := by
  have hname : parseString (34 :: (escapeAll name ++ 34 :: 58 :: (text ++ rest))) =
      some (name, 58 :: (text ++ rest)) := parseString_escapeAll name _
  have hvalue := h.2.2 rest fuel hstop hfuel
  have hskip := h.skipWhitespace rest
  simp only [quoted, List.cons_append, List.append_assoc, List.nil_append]
  rw [parseMembers, skipWhitespace_of_head (by decide), hname]
  dsimp only
  rw [skipWhitespace_of_head (by decide)]
  cases hrest : skipWhitespace rest with
  | nil => simp only [hskip, hvalue, hrest, ne_eq, not_true_eq_false, if_false]
  | cons c left => simp only [hskip, hvalue, hrest, ne_eq, not_true_eq_false, if_false]

theorem ReadsMembers.cons {depth : Nat} {v : CJson} {text : Bytes}
    {members : List (Bytes × CJson)} {more : Bytes} (name : Bytes)
    (h : Reads depth v text) (hmore : ReadsMembers depth members more) :
    ReadsMembers depth ((name, v) :: members)
      (quoted name ++ (58 :: (text ++ (44 :: more)))) := by
  intro rest fuel hfuel
  simp only [quoted, List.cons_append, List.length_cons, List.length_append,
    List.length_nil] at hfuel
  obtain ⟨fuel, rfl⟩ : ∃ n, fuel = n + 1 := ⟨fuel - 1, by omega⟩
  have hshape : quoted name ++ (58 :: (text ++ (44 :: more))) ++ rest =
      quoted name ++ (58 :: (text ++ (44 :: (more ++ rest)))) := by simp
  rw [hshape, parseMembers_value h name (44 :: (more ++ rest)) (by simp [Stops])
    (by simp only [List.length_cons, List.length_append]; omega)]
  rw [skipWhitespace_of_head (by decide)]
  simp [hmore rest fuel (by omega)]

/-- The last member, with a line break before the closing brace or without. -/
theorem ReadsMembers.last {depth : Nat} {v : CJson} {text gap : Bytes} (name : Bytes)
    (h : Reads depth v text) (hgap : gap = [] ∨ gap = [10]) :
    ReadsMembers depth [(name, v)] (quoted name ++ (58 :: (text ++ (gap ++ [125])))) := by
  intro rest fuel hfuel
  simp only [quoted, List.cons_append, List.length_cons, List.length_append,
    List.length_nil] at hfuel
  obtain ⟨fuel, rfl⟩ : ∃ n, fuel = n + 1 := ⟨fuel - 1, by omega⟩
  have hshape : quoted name ++ (58 :: (text ++ (gap ++ [125]))) ++ rest =
      quoted name ++ (58 :: (text ++ (gap ++ 125 :: rest))) := by simp
  have hstop : Stops (gap ++ 125 :: rest) := by
    rcases hgap with rfl | rfl <;> simp [Stops]
  have hskip : skipWhitespace (gap ++ 125 :: rest) = 125 :: rest := by
    rcases hgap with rfl | rfl <;> simp [skipWhitespace]
  rw [hshape, parseMembers_value h name _ hstop
    (by simp only [List.length_cons, List.length_append]; omega), hskip]
  simp

theorem skipWhitespace_idem (s : Bytes) :
    skipWhitespace (skipWhitespace s) = skipWhitespace s :=
  List.dropWhile_idempotent _ _

/-- White space before the first member makes no difference. -/
theorem parseMembers_skipWhitespace (fuel depth : Nat) (s : Bytes) :
    parseMembers fuel depth (skipWhitespace s) = parseMembers fuel depth s := by
  cases fuel with
  | zero => rw [parseMembers, parseMembers]
  | succ fuel => rw [parseMembers, parseMembers, skipWhitespace_idem]

/-- A line break before a member is skipped. -/
theorem ReadsMembers.newline {depth : Nat} {members : List (Bytes × CJson)}
    {text : Bytes} (h : ReadsMembers depth members text) :
    ReadsMembers depth members (10 :: text) := by
  intro rest fuel hfuel
  rw [List.length_cons] at hfuel
  have hskip : skipWhitespace (10 :: (text ++ rest)) = skipWhitespace (text ++ rest) := by
    simp [skipWhitespace]
  rw [List.cons_append, ← parseMembers_skipWhitespace, hskip,
    parseMembers_skipWhitespace]
  exact h rest fuel (by omega)

/-- The text starts with the name of a member. -/
def OpensMember (text : Bytes) : Prop := ∃ more, skipWhitespace text = 34 :: more

theorem opensMember_quoted (name rest : Bytes) : OpensMember (quoted name ++ rest) :=
  ⟨escapeAll name ++ 34 :: rest, by
    simp only [quoted, List.cons_append, List.append_assoc, List.nil_append]
    exact skipWhitespace_of_head (by decide) _⟩

theorem OpensMember.newline {text : Bytes} (h : OpensMember text) :
    OpensMember (10 :: text) := by
  obtain ⟨more, hmore⟩ := h
  exact ⟨more, by rw [← hmore]; simp [skipWhitespace]⟩

theorem OpensMember.append {text : Bytes} (h : OpensMember text) (rest : Bytes) :
    OpensMember (text ++ rest) := by
  obtain ⟨more, hmore⟩ := h
  refine ⟨more ++ rest, ?_⟩
  simp only [skipWhitespace] at hmore ⊢
  rw [List.dropWhile_append, hmore]
  rfl

theorem reads_object {depth : Nat} {members : List (Bytes × CJson)} {text : Bytes}
    (h : ReadsMembers (depth + 1) members text) (hopen : OpensMember text)
    (hdepth : depth < nestingLimit) : Reads depth (.object members) (123 :: text) := by
  refine ⟨by simp, by simp, fun rest fuel _ hfuel => ?_⟩
  obtain ⟨fuel, rfl⟩ : ∃ n, fuel = n + 1 := ⟨fuel - 1, by omega⟩
  rw [List.length_cons] at hfuel
  obtain ⟨more, hmore⟩ := hopen.append rest
  have hmembers := h rest fuel (by omega)
  rw [← parseMembers_skipWhitespace, hmore] at hmembers
  rw [List.cons_append, parseValue]
  simp [lit, isDigit, hmore, hmembers, Nat.not_le.mpr hdepth]

/-- An array of one element, with a line break behind the bracket or without. -/
theorem reads_singleton {depth : Nat} {v : CJson} {text gap : Bytes}
    (h : Reads (depth + 1) v text) (hgap : gap = [] ∨ gap = [10])
    (hdepth : depth < nestingLimit) :
    Reads depth (.array [v]) (91 :: (gap ++ (text ++ [93]))) := by
  refine ⟨by simp, by simp, fun rest fuel _ hfuel => ?_⟩
  simp only [List.length_cons, List.length_append, List.length_nil] at hfuel
  obtain ⟨fuel, rfl⟩ : ∃ n, fuel = n + 2 := ⟨fuel - 2, by omega⟩
  have hvalue := h.2.2 (93 :: rest) fuel (by simp [Stops])
    (by simp only [List.length_cons]; omega)
  have hskip := h.skipWhitespace (93 :: rest)
  obtain ⟨hhead, hne, -⟩ := h
  obtain ⟨c, more, rfl⟩ := List.exists_cons_of_ne_nil hne
  have hc := hhead c rfl
  rw [List.cons_append] at hvalue hskip
  have hopen : skipWhitespace (gap ++ c :: (more ++ 93 :: rest)) =
      c :: (more ++ 93 :: rest) := by
    rcases hgap with rfl | rfl
    · simpa using hskip
    · simpa [skipWhitespace] using hskip
  have helements : parseElements (fuel + 1) (depth + 1) (c :: (more ++ 93 :: rest)) =
      some ([v], rest) := by
    rw [parseElements, hskip, hvalue]
    simp [skipWhitespace]
  rw [List.cons_append, parseValue]
  simp [lit, isDigit, hopen, helements, Nat.not_le.mpr hdepth, hc.2]

/-- The parser takes the elements, and their closing bracket, off the text. -/
def ReadsElements (depth : Nat) (items : List CJson) (text : Bytes) : Prop :=
  ∀ rest fuel, 2 * (text.length + rest.length) + 2 ≤ fuel →
    parseElements fuel depth (text ++ rest) = some (items, rest)

/-- White space before the first element makes no difference. -/
theorem parseElements_skipWhitespace (fuel depth : Nat) (s : Bytes) :
    parseElements fuel depth (skipWhitespace s) = parseElements fuel depth s := by
  cases fuel with
  | zero => rw [parseElements, parseElements]
  | succ fuel => rw [parseElements, parseElements, skipWhitespace_idem]

/-- A byte of white space before an element is skipped. -/
theorem ReadsElements.space {depth : Nat} {items : List CJson} {text : Bytes}
    (h : ReadsElements depth items text) {c : UInt8} (hc : c ≤ 32) :
    ReadsElements depth items (c :: text) := by
  intro rest fuel hfuel
  rw [List.length_cons] at hfuel
  have hskip : skipWhitespace (c :: (text ++ rest)) = skipWhitespace (text ++ rest) := by
    simp [skipWhitespace, hc]
  rw [List.cons_append, ← parseElements_skipWhitespace, hskip, parseElements_skipWhitespace]
  exact h rest fuel (by omega)

theorem ReadsElements.cons {depth : Nat} {v : CJson} {text : Bytes} {items : List CJson}
    {more : Bytes} (h : Reads depth v text) (hmore : ReadsElements depth items more) :
    ReadsElements depth (v :: items) (text ++ (44 :: more)) := by
  intro rest fuel hfuel
  simp only [List.length_append, List.length_cons] at hfuel
  obtain ⟨fuel, rfl⟩ : ∃ n, fuel = n + 1 := ⟨fuel - 1, by omega⟩
  have hshape : text ++ (44 :: more) ++ rest = text ++ (44 :: (more ++ rest)) := by simp
  have hvalue := h.2.2 (44 :: (more ++ rest)) fuel (by simp [Stops])
    (by simp only [List.length_cons, List.length_append]; omega)
  rw [hshape, parseElements, h.skipWhitespace, hvalue]
  dsimp only
  rw [skipWhitespace_of_head (by decide)]
  simp [hmore rest fuel (by omega)]

/-- The last element, with a line break before the closing bracket. -/
theorem ReadsElements.last {depth : Nat} {v : CJson} {text : Bytes} (h : Reads depth v text) :
    ReadsElements depth [v] (text ++ lit "\n]") := by
  intro rest fuel hfuel
  have hclose : lit "\n]" = [10, 93] := rfl
  simp only [hclose, List.length_append, List.length_cons, List.length_nil] at hfuel
  obtain ⟨fuel, rfl⟩ : ∃ n, fuel = n + 1 := ⟨fuel - 1, by omega⟩
  have hshape : text ++ lit "\n]" ++ rest = text ++ (10 :: 93 :: rest) := by
    rw [hclose, List.append_assoc]
    rfl
  have hvalue := h.2.2 (10 :: 93 :: rest) fuel (by simp [Stops])
    (by simp only [List.length_cons]; omega)
  rw [hshape, parseElements, h.skipWhitespace, hvalue]
  simp [skipWhitespace]

/-- The text starts with an element. -/
def OpensElement (text : Bytes) : Prop := ∃ c more, skipWhitespace text = c :: more ∧ c ≠ 93

theorem Reads.opensElement {depth : Nat} {v : CJson} {text : Bytes} (h : Reads depth v text)
    (rest : Bytes) : OpensElement (text ++ rest) := by
  obtain ⟨c, more, hcons⟩ := List.exists_cons_of_ne_nil h.2.1
  refine ⟨c, more ++ rest, ?_, ?_⟩
  · rw [h.skipWhitespace, hcons, List.cons_append]
  · exact (h.1 c (by simp [hcons])).2

theorem OpensElement.space {text : Bytes} (h : OpensElement text) {c : UInt8} (hc : c ≤ 32) :
    OpensElement (c :: text) := by
  obtain ⟨d, more, hskip, hd⟩ := h
  exact ⟨d, more, by rw [← hskip]; simp [skipWhitespace, hc], hd⟩

theorem OpensElement.append {text : Bytes} (h : OpensElement text) (rest : Bytes) :
    OpensElement (text ++ rest) := by
  obtain ⟨c, more, hskip, hc⟩ := h
  refine ⟨c, more ++ rest, ?_, hc⟩
  simp only [skipWhitespace] at hskip ⊢
  rw [List.dropWhile_append, hskip]
  rfl

theorem reads_array {depth : Nat} {items : List CJson} {text : Bytes}
    (h : ReadsElements (depth + 1) items text) (hopen : OpensElement text)
    (hdepth : depth < nestingLimit) : Reads depth (.array items) (91 :: text) := by
  refine ⟨by simp, by simp, fun rest fuel _ hfuel => ?_⟩
  obtain ⟨fuel, rfl⟩ : ∃ n, fuel = n + 1 := ⟨fuel - 1, by omega⟩
  rw [List.length_cons] at hfuel
  obtain ⟨c, more, hskip, hc⟩ := hopen.append rest
  have helements := h rest fuel (by omega)
  rw [← parseElements_skipWhitespace, hskip] at helements
  rw [List.cons_append, parseValue]
  simp [lit, isDigit, hskip, hc, helements, Nat.not_le.mpr hdepth]

/-- The members of an object as they are printed, up to the closing brace,
with `gap` behind every comma and before the brace. -/
def printedMembers (gap : Bytes) : List (Bytes × CJson × Bytes) → Bytes
  | [] => gap ++ [125]
  | [(name, _, text)] => quoted name ++ (58 :: (text ++ (gap ++ [125])))
  | (name, _, text) :: rest =>
      quoted name ++ (58 :: (text ++ (44 :: (gap ++ printedMembers gap rest))))

theorem ReadsMembers.gap {depth : Nat} {members : List (Bytes × CJson)}
    {gap text : Bytes} (hgap : gap = [] ∨ gap = [10])
    (h : ReadsMembers depth members text) : ReadsMembers depth members (gap ++ text) := by
  rcases hgap with rfl | rfl
  · exact h
  · exact h.newline

theorem readsMembers_printed {depth : Nat} {gap : Bytes} (hgap : gap = [] ∨ gap = [10])
    {ms : List (Bytes × CJson × Bytes)} (hne : ms ≠ [])
    (h : ∀ m ∈ ms, Reads depth m.2.1 m.2.2) :
    ReadsMembers depth (ms.map fun m => (m.1, m.2.1)) (printedMembers gap ms) := by
  induction ms with
  | nil => exact absurd rfl hne
  | cons m rest ih =>
      obtain ⟨name, v, text⟩ := m
      have hv : Reads depth v text := h (name, v, text) (by simp)
      cases rest with
      | nil => exact ReadsMembers.last name hv hgap
      | cons m' rest' =>
          have hrest := ih (by simp) fun m hm => h m (by simp [hm])
          exact ReadsMembers.cons name hv (hrest.gap hgap)

theorem opensMember_printed (gap : Bytes) {ms : List (Bytes × CJson × Bytes)}
    (hne : ms ≠ []) : OpensMember (printedMembers gap ms) := by
  cases ms with
  | nil => exact absurd rfl hne
  | cons m rest =>
      obtain ⟨name, v, text⟩ := m
      cases rest with
      | nil => exact opensMember_quoted name _
      | cons m' rest' => exact opensMember_quoted name _

theorem zero_not_mem_quoted {text : Bytes} (h : 0 ∉ text) : 0 ∉ quoted text := by
  have hesc := zero_not_mem_escapeAll h
  simp [quoted, hesc]

theorem zero_not_mem_printed {gap : Bytes} (hgap : gap = [] ∨ gap = [10])
    {ms : List (Bytes × CJson × Bytes)} (h : ∀ m ∈ ms, 0 ∉ m.1 ∧ 0 ∉ m.2.2) :
    0 ∉ printedMembers gap ms := by
  have hzero : 0 ∉ gap := by rcases hgap with rfl | rfl <;> simp
  induction ms with
  | nil => simp [printedMembers, hzero]
  | cons m rest ih =>
      obtain ⟨name, v, text⟩ := m
      obtain ⟨hname, htext⟩ := h _ (List.mem_cons_self ..)
      have hquoted := zero_not_mem_quoted hname
      cases rest with
      | nil => simp_all [printedMembers]
      | cons m' rest' =>
          have hrest := ih fun m hm => h m (by simp [hm])
          simp_all [printedMembers]

theorem reads_empty_array (depth : Nat) (hdepth : depth < nestingLimit) :
    Reads depth (.array []) (lit "[]") := by
  have hhead : ∀ c ∈ (lit "[]").head?, 32 < c ∧ c ≠ 93 := by simp [lit]
  refine ⟨hhead, by decide, fun rest fuel _ hfuel => ?_⟩
  obtain ⟨fuel, rfl⟩ : ∃ n, fuel = n + 1 := ⟨fuel - 1, by omega⟩
  rw [parseValue.eq_def]
  simp [lit, isDigit, skipWhitespace, Nat.not_le.mpr hdepth]

/-- **The whole text.**  What `cJSON_Parse` makes of a printed object. -/
theorem ReadsMembers.parse {members : List (Bytes × CJson)} {text : Bytes}
    (h : ReadsMembers 1 members text) (hopen : OpensMember text) (hzero : 0 ∉ text)
    (tail : Bytes) (htail : tail = [] ∨ tail = [10]) :
    parse (123 :: (text ++ tail)) = some (.object members) := by
  have hcstr : cstr (123 :: (text ++ tail)) = 123 :: (text ++ tail) := by
    refine upTo_eq_self ?_
    rcases htail with rfl | rfl <;> simpa using hzero
  have hbom : skipBom (123 :: (text ++ tail)) = 123 :: (text ++ tail) := by
    simp [skipBom]
  have hobject : Reads 0 (.object members) (123 :: text) :=
    reads_object h hopen (by decide)
  have hvalue := hobject.2.2 tail _
    (by rcases htail with rfl | rfl <;> simp [Stops]) (le_refl _)
  rw [List.cons_append] at hvalue
  simp only [CJson.parse, hcstr, hbom, skipWhitespace_of_head (show (32 : UInt8) < 123 by decide)]
  simp only [List.length_cons, List.length_append] at hvalue ⊢
  have hfuel : 2 * ((text.length + tail.length) + 1) + 1 =
      2 * (text.length + 1 + tail.length) + 1 := by omega
  rw [hfuel, hvalue]
  rfl

/-- What `cJSON_Parse` makes of printed members. -/
theorem parse_printedMembers {gap : Bytes} (hgap : gap = [] ∨ gap = [10])
    {ms : List (Bytes × CJson × Bytes)} (hne : ms ≠ [])
    (hreads : ∀ m ∈ ms, Reads 1 m.2.1 m.2.2)
    (hplain : ∀ m ∈ ms, 0 ∉ m.1 ∧ 0 ∉ m.2.2) :
    parse (123 :: (gap ++ printedMembers gap ms) ++ gap) =
      some (.object (ms.map fun m => (m.1, m.2.1))) := by
  have hmembers := (readsMembers_printed hgap hne hreads).gap hgap
  have hopen : OpensMember (gap ++ printedMembers gap ms) := by
    rcases hgap with rfl | rfl
    · exact opensMember_printed [] hne
    · exact (opensMember_printed [10] hne).newline
  have hzero : 0 ∉ gap ++ printedMembers gap ms := by
    have hprinted := zero_not_mem_printed hgap hplain
    rcases hgap with rfl | rfl <;> simpa using hprinted
  exact hmembers.parse hopen hzero gap hgap

end CJson

end StarBridge
