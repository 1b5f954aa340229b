import Mathlib.Data.List.DropRight
import Mathlib.Data.List.Infix
import Mathlib.Data.List.TakeWhile
import Mathlib.Tactic.Common

/-!
# The tokens of JSON

White space, numbers and strings over bytes: white space is blank, tab, line feed
and carriage return, numbers and escapes have exactly the forms of the standard,
and control characters do not stand in strings.  Bytes from 128 on are taken as
they are.

An escaper that spells every byte is undone by reading (`readString_flatMap`),
and a text that stands in a literal without one reads back as itself only if it
is plain (`plain_of_readString`).
-/

namespace JsonGrammar

abbrev Octets := List UInt8

/-! ## White space and numbers -/

def isBlank (c : UInt8) : Bool := c = 32 || c = 9 || c = 10 || c = 13

def skip (s : Octets) : Octets := s.dropWhile isBlank

@[simp] theorem skip_nil : skip [] = [] := rfl

theorem skip_cons {c : UInt8} (h : isBlank c = false) (s : Octets) : skip (c :: s) = c :: s := by
  rw [skip, List.dropWhile_cons, h]
  rfl

theorem skip_append {s : Octets} {c : UInt8} {rest : Octets} (h : skip s = c :: rest)
    (more : Octets) : skip (s ++ more) = c :: (rest ++ more) := by
  unfold skip at h ⊢
  rw [List.dropWhile_append, h]
  rfl

def isDigit (c : UInt8) : Bool := 48 ≤ c && c ≤ 57

/-- One digit or more. -/
def Digits (s : Octets) : Prop := s ≠ [] ∧ ∀ c ∈ s, isDigit c = true

/-- The literal of a number: a sign, an integer without leading zeros, a fraction
and an exponent. -/
structure IsNumber (literal : Octets) : Prop where
  parts : ∃ sign int fraction exponent, literal = sign ++ int ++ fraction ++ exponent ∧
    (sign = [] ∨ sign = [45]) ∧
    (Digits int ∧ (int.head? = some 48 → int = [48])) ∧
    (fraction = [] ∨ ∃ digits, fraction = 46 :: digits ∧ Digits digits) ∧
    (exponent = [] ∨ ∃ e ∈ [(101 : UInt8), 69], ∃ s ∈ [[], [(43 : UInt8)], [45]],
      ∃ digits, exponent = e :: (s ++ digits) ∧ Digits digits)

/-- What can stand in a number. -/
def isNumeric (c : UInt8) : Bool :=
  isDigit c || c = 43 || c = 45 || c = 46 || c = 101 || c = 69

theorem IsNumber.numeric {literal : Octets} (h : IsNumber literal) :
    ∀ c ∈ literal, isNumeric c = true := by
  have hdigits : ∀ {s : Octets}, Digits s → ∀ c ∈ s, isNumeric c = true := by
    intro s hs c hc
    rw [isNumeric, hs.2 c hc]
    rfl
  obtain ⟨sign, int, fraction, exponent, rfl, hsign, hint, hfraction, hexponent⟩ := h.parts
  intro c hc
  rcases List.mem_append.mp hc with hc | hc
  · rcases List.mem_append.mp hc with hc | hc
    · rcases List.mem_append.mp hc with hc | hc
      · rcases hsign with rfl | rfl
        · exact absurd hc List.not_mem_nil
        · rw [List.mem_singleton.mp hc]
          decide
      · exact hdigits hint.1 c hc
    · rcases hfraction with rfl | ⟨digits, rfl, hd⟩
      · exact absurd hc List.not_mem_nil
      · rcases List.mem_cons.mp hc with rfl | hc
        · decide
        · exact hdigits hd c hc
  · rcases hexponent with rfl | ⟨e, he, s, hs, digits, rfl, hd⟩
    · exact absurd hc List.not_mem_nil
    · have hmarks : ∀ e ∈ [(101 : UInt8), 69], isNumeric e = true :=
        List.all_eq_true.mp rfl
      have hsigns : ∀ s ∈ [[], [(43 : UInt8)], [45]], ∀ c ∈ s, isNumeric c = true := by
        simp [isNumeric]
      rcases List.mem_cons.mp hc with rfl | hc
      · exact hmarks _ he
      · rcases List.mem_append.mp hc with hc | hc
        · exact hsigns s hs c hc
        · exact hdigits hd c hc

/-- A number begins with a minus sign or a digit. -/
theorem IsNumber.head {literal : Octets} (h : IsNumber literal) :
    ∃ c more, literal = c :: more ∧ (c = 45 ∨ isDigit c = true) := by
  obtain ⟨sign, int, fraction, exponent, rfl, hsign, hint, -, -⟩ := h.parts
  rcases hsign with rfl | rfl
  · obtain ⟨c, more, rfl⟩ := List.exists_cons_of_ne_nil hint.1.1
    exact ⟨c, _, rfl, Or.inr (hint.1.2 c List.mem_cons_self)⟩
  · exact ⟨45, _, rfl, Or.inl rfl⟩

/-- What may follow a number: white space, a comma, a closing bracket or
nothing. -/
def Ends (rest : Octets) : Prop :=
  ∀ c ∈ rest.head?, isBlank c = true ∨ c = 44 ∨ c = 93 ∨ c = 125

theorem ends_nil : Ends [] := fun c hc => by cases hc

theorem ends_cons {c : UInt8} (h : isBlank c = true ∨ c = 44 ∨ c = 93 ∨ c = 125)
    (rest : Octets) : Ends (c :: rest) := by
  intro d hd
  cases hd
  exact h

theorem Ends.not_numeric {c : UInt8} {rest : Octets} (h : Ends (c :: rest)) :
    isNumeric c = false := by
  rcases h c rfl with hblank | rfl | rfl | rfl
  · simp only [isBlank, Bool.or_eq_true, decide_eq_true_eq] at hblank
    rcases hblank with ((rfl | rfl) | rfl) | rfl <;> decide
  · decide
  · decide
  · decide

/-- A number that is over is over at one place. -/
theorem IsNumber.unique {a b s t : Octets} (ha : IsNumber a) (hb : IsNumber b) (hs : Ends s)
    (ht : Ends t) (h : a ++ s = b ++ t) : a = b ∧ s = t := by
  have htake : ∀ {a s : Octets}, IsNumber a → Ends s → (a ++ s).takeWhile isNumeric = a := by
    intro a s ha hs
    rw [List.takeWhile_append_of_pos ha.numeric]
    cases s with
    | nil => exact List.append_nil a
    | cons c s => rw [List.takeWhile_cons, hs.not_numeric]; exact List.append_nil a
  have hab : a = b := by
    rw [← htake ha hs, h, htake hb ht]
  subst hab
  exact ⟨rfl, List.append_cancel_left h⟩

/-! ## Strings -/

def hexValue (c : UInt8) : Option Nat :=
  if 48 ≤ c ∧ c ≤ 57 then some (c.toNat - 48)
  else if 65 ≤ c ∧ c ≤ 70 then some (c.toNat - 55)
  else if 97 ≤ c ∧ c ≤ 102 then some (c.toNat - 87)
  else none

/-- The code unit of four hexadecimal digits. -/
def codeUnit (a b c d : UInt8) : Option Nat :=
  match hexValue a, hexValue b, hexValue c, hexValue d with
  | some w, some x, some y, some z => some (4096 * w + 256 * x + 16 * y + z)
  | _, _, _, _ => none

/-- The character of an escape of two characters. -/
def shortEscape (c : UInt8) : Option UInt8 :=
  if c = 34 ∨ c = 92 ∨ c = 47 then some c
  else if c = 98 then some 8
  else if c = 102 then some 12
  else if c = 110 then some 10
  else if c = 114 then some 13
  else if c = 116 then some 9
  else none

/-- What a string is made of: bytes, and code units of UTF-16. -/
inductive Symbol
  | byte (c : UInt8)
  | unit (n : Nat)

/-- The symbols of a string behind its opening quote, and what follows the closing
one. -/
def symbols : Octets → Option (List Symbol × Octets)
  | [] => none
  | c :: s =>
      if c = 34 then some ([], s)
      else if c < 32 then none
      else if c ≠ 92 then (symbols s).map fun (ys, rest) => (.byte c :: ys, rest)
      else
        match s with
        | [] => none
        | e :: s' =>
            if e ≠ 117 then
              match shortEscape e with
              | none => none
              | some b => (symbols s').map fun (ys, rest) => (.byte b :: ys, rest)
            else
              match s' with
              | h₁ :: h₂ :: h₃ :: h₄ :: s'' =>
                  match codeUnit h₁ h₂ h₃ h₄ with
                  | none => none
                  | some n => (symbols s'').map fun (ys, rest) => (.unit n :: ys, rest)
              | _ => none

/-- UTF-8. -/
def utf8 (n : Nat) : Octets :=
  if n < 0x80 then [UInt8.ofNat n]
  else if n < 0x800 then [UInt8.ofNat (0xC0 + n / 64), UInt8.ofNat (0x80 + n % 64)]
  else if n < 0x10000 then
    [UInt8.ofNat (0xE0 + n / 4096), UInt8.ofNat (0x80 + n / 64 % 64),
      UInt8.ofNat (0x80 + n % 64)]
  else
    [UInt8.ofNat (0xF0 + n / 262144), UInt8.ofNat (0x80 + n / 4096 % 64),
      UInt8.ofNat (0x80 + n / 64 % 64), UInt8.ofNat (0x80 + n % 64)]

/-- The text of the symbols: two code units that make up a surrogate pair are one
character. -/
def join : List Symbol → Octets
  | [] => []
  | .byte c :: ys => c :: join ys
  | .unit n :: .unit m :: ys =>
      if (0xD800 ≤ n ∧ n < 0xDC00) ∧ (0xDC00 ≤ m ∧ m < 0xE000) then
        utf8 (0x10000 + 1024 * (n - 0xD800) + (m - 0xDC00)) ++ join ys
      else utf8 n ++ join (.unit m :: ys)
  | .unit n :: ys => utf8 n ++ join ys

/-- The text of a string behind its opening quote, and what follows the closing
one. -/
def readString (s : Octets) : Option (Octets × Octets) :=
  (symbols s).map fun (ys, rest) => (join ys, rest)

/-- Text that stands in a string as it is. -/
def Plain (text : Octets) : Prop := ∀ c ∈ text, 32 ≤ c ∧ c ≠ 34 ∧ c ≠ 92

instance (text : Octets) : Decidable (Plain text) := List.decidableBAll _ text

/-- What a character leads to. -/
theorem symbols_cons (c : UInt8) (s : Octets) : symbols (c :: s) =
    if c = 34 then some ([], s)
    else if c < 32 then none
    else if c ≠ 92 then (symbols s).map fun (ys, rest) => (.byte c :: ys, rest)
    else
      match s with
      | [] => none
      | e :: s' =>
          if e ≠ 117 then
            match shortEscape e with
            | none => none
            | some b => (symbols s').map fun (ys, rest) => (.byte b :: ys, rest)
          else
            match s' with
            | h₁ :: h₂ :: h₃ :: h₄ :: s'' =>
                match codeUnit h₁ h₂ h₃ h₄ with
                | none => none
                | some n => (symbols s'').map fun (ys, rest) => (.unit n :: ys, rest)
            | _ => none := by
  rw [symbols.eq_def]
  rfl

theorem symbols_byte {c : UInt8} (h : 32 ≤ c ∧ c ≠ 34 ∧ c ≠ 92) (s : Octets) :
    symbols (c :: s) = (symbols s).map fun (ys, rest) => (.byte c :: ys, rest) := by
  rw [symbols_cons]
  simp [h.2.1, h.2.2, UInt8.not_lt.mpr h.1]

theorem symbols_short {e b : UInt8} (he : e ≠ 117) (hb : shortEscape e = some b) (s : Octets) :
    symbols (92 :: e :: s) = (symbols s).map fun (ys, rest) => (.byte b :: ys, rest) := by
  rw [symbols_cons]
  simp [he, hb]

theorem symbols_unit {a b c d : UInt8} {n : Nat} (hn : codeUnit a b c d = some n) (s : Octets) :
    symbols (92 :: 117 :: a :: b :: c :: d :: s) =
      (symbols s).map fun (ys, rest) => (.unit n :: ys, rest) := by
  rw [symbols_cons]
  simp [hn]

theorem symbols_quote (rest : Octets) : symbols (34 :: rest) = some ([], rest) := by
  rw [symbols_cons]
  rfl

theorem symbols_control {c : UInt8} (h : c < 32) (s : Octets) : symbols (c :: s) = none := by
  have hquote : c ≠ 34 := by
    intro heq
    rw [heq] at h
    exact absurd h (by decide)
  rw [symbols_cons]
  simp [h, hquote]

/-- How a string goes on: it is over, or it has one more symbol. -/
theorem symbols_cases {s : Octets} {ys : List Symbol} {left : Octets}
    (h : symbols s = some (ys, left)) :
    (s = 34 :: left ∧ ys = []) ∨
      ∃ front y s' ys', s = front ++ s' ∧ ys = y :: ys' ∧ symbols s' = some (ys', left) ∧
        (∀ more, symbols (front ++ more) =
          (symbols more).map fun (ys, rest) => (y :: ys, rest)) ∧
        ((∃ c, front = [c] ∧ y = .byte c ∧ (32 ≤ c ∧ c ≠ 34 ∧ c ≠ 92)) ∨
          (∃ e b, front = [92, e] ∧ y = .byte b) ∨
          ∃ a b c d n, front = [92, 117, a, b, c, d] ∧ y = .unit n ∧
            codeUnit a b c d = some n) := by
  cases s with
  | nil => cases h
  | cons c s =>
      by_cases hquote : c = 34
      · rw [hquote, symbols_quote] at h
        cases h
        exact Or.inl ⟨by rw [hquote], rfl⟩
      by_cases hcontrol : c < 32
      · rw [symbols_control hcontrol] at h
        cases h
      right
      by_cases hescape : c = 92
      · subst hescape
        cases s with
        | nil => cases h
        | cons e s =>
            by_cases hunit : e = 117
            · subst hunit
              rw [symbols_cons] at h
              dsimp only at h
              rw [if_neg (by decide), if_neg (by decide), if_neg (by decide),
                if_neg (by decide)] at h
              split at h
              · rename_i a b c d s'
                cases hcode : codeUnit a b c d with
                | none =>
                    rw [hcode] at h
                    cases h
                | some n =>
                    rw [hcode] at h
                    obtain ⟨⟨ys', left'⟩, hrest, heq⟩ := Option.map_eq_some_iff.mp h
                    cases heq
                    exact ⟨[92, 117, a, b, c, d], .unit n, s', ys', rfl, rfl, hrest,
                      fun more => symbols_unit hcode more,
                      Or.inr (Or.inr ⟨a, b, c, d, n, rfl, rfl, hcode⟩)⟩
              · cases h
            · cases hshort : shortEscape e with
              | none =>
                  rw [symbols_cons] at h
                  simp [hunit, hshort] at h
              | some b =>
                  rw [symbols_short hunit hshort] at h
                  obtain ⟨⟨ys', left'⟩, hrest, heq⟩ := Option.map_eq_some_iff.mp h
                  cases heq
                  exact ⟨[92, e], .byte b, s, ys', rfl, rfl, hrest,
                    fun more => symbols_short hunit hshort more, Or.inr (Or.inl ⟨e, b, rfl, rfl⟩)⟩
      · have hplain : 32 ≤ c ∧ c ≠ 34 ∧ c ≠ 92 := ⟨UInt8.not_lt.mp hcontrol, hquote, hescape⟩
        rw [symbols_byte hplain] at h
        obtain ⟨⟨ys', left'⟩, hrest, heq⟩ := Option.map_eq_some_iff.mp h
        cases heq
        exact ⟨[c], .byte c, s, ys', rfl, rfl, hrest, fun more => symbols_byte hplain more,
          Or.inl ⟨c, rfl, rfl, hplain⟩⟩

theorem symbols_append {s : Octets} {ys : List Symbol} {left : Octets}
    (h : symbols s = some (ys, left)) (more : Octets) :
    symbols (s ++ more) = some (ys, left ++ more) := by
  induction ys generalizing s with
  | nil =>
      rcases symbols_cases h with ⟨rfl, -⟩ | ⟨_, _, _, _, -, hcons, -⟩
      · exact symbols_quote _
      · cases hcons
  | cons y ys ih =>
      rcases symbols_cases h with ⟨-, hnil⟩ | ⟨front, y', s', ys', rfl, hcons, hrest, hfront, -⟩
      · cases hnil
      · cases hcons
        rw [List.append_assoc, hfront, ih hrest]
        rfl

theorem readString_append {s text left : Octets} (h : readString s = some (text, left))
    (more : Octets) : readString (s ++ more) = some (text, left ++ more) := by
  obtain ⟨⟨ys, left'⟩, hsymbols, heq⟩ := Option.map_eq_some_iff.mp h
  cases heq
  rw [readString, symbols_append hsymbols]
  rfl

/-! ## Escapers -/

/-- The symbol stands for the byte. -/
def Symbol.Is (c : UInt8) (y : Symbol) : Prop :=
  y = .byte c ∨ y = .unit c.toNat ∧ c.toNat < 128

/-- The escaper writes one symbol for the byte. -/
def Spells (escape : UInt8 → Octets) (c : UInt8) : Prop :=
  ∃ y : Symbol, y.Is c ∧
    ∀ s, symbols (escape c ++ s) = (symbols s).map fun (ys, rest) => (y :: ys, rest)

/-- Bytes that are written by themselves. -/
theorem spells_byte {escape : UInt8 → Octets} {c : UInt8} (h : 32 ≤ c ∧ c ≠ 34 ∧ c ≠ 92)
    (hescape : escape c = [c]) : Spells escape c := by
  refine ⟨.byte c, Or.inl rfl, fun s => ?_⟩
  rw [hescape]
  exact symbols_byte h s

theorem spells_short {escape : UInt8 → Octets} {c e : UInt8} (he : e ≠ 117)
    (hc : shortEscape e = some c) (hescape : escape c = [92, e]) : Spells escape c := by
  refine ⟨.byte c, Or.inl rfl, fun s => ?_⟩
  rw [hescape]
  exact symbols_short he hc s

theorem spells_unit {escape : UInt8 → Octets} {c h₁ h₂ h₃ h₄ : UInt8} (hc : c.toNat < 128)
    (hcode : codeUnit h₁ h₂ h₃ h₄ = some c.toNat)
    (hescape : escape c = [92, 117, h₁, h₂, h₃, h₄]) : Spells escape c := by
  refine ⟨.unit c.toNat, Or.inr ⟨rfl, hc⟩, fun s => ?_⟩
  rw [hescape]
  exact symbols_unit hcode s

/-- The symbol of a byte adds the byte to the text. -/
theorem join_cons {c : UInt8} {y : Symbol} (h : y.Is c) (ys : List Symbol) :
    join (y :: ys) = c :: join ys := by
  rcases h with rfl | ⟨rfl, hc⟩
  · rfl
  · have hutf8 : utf8 c.toNat = [c] := by
      rw [utf8, if_pos (by omega)]
      simp
    have hlow : ¬ (0xD800 ≤ c.toNat ∧ c.toNat < 0xDC00) := by omega
    cases ys with
    | nil =>
        show utf8 c.toNat ++ [] = [c]
        rw [hutf8]
        rfl
    | cons z ys =>
        cases z with
        | byte d =>
            show utf8 c.toNat ++ join (.byte d :: ys) = c :: join (.byte d :: ys)
            rw [hutf8]
            rfl
        | unit m =>
            rw [join, if_neg (fun h => hlow h.1), hutf8]
            rfl

/-- An escaped text in front of a text is read byte by byte. -/
theorem symbols_flatMap {escape : UInt8 → Octets} {text : Octets}
    (h : ∀ c ∈ text, Spells escape c) :
    ∃ ys, (∀ zs, join (ys ++ zs) = text ++ join zs) ∧
      ∀ s, symbols (text.flatMap escape ++ s) =
        (symbols s).map fun (zs, rest) => (ys ++ zs, rest) := by
  induction text with
  | nil => exact ⟨[], fun zs => rfl, fun s => by simp [Option.map_id']⟩
  | cons c text ih =>
      obtain ⟨y, hy, hread⟩ := h c List.mem_cons_self
      obtain ⟨ys, hjoin, hrest⟩ := ih fun d hd => h d (List.mem_cons_of_mem _ hd)
      refine ⟨y :: ys, fun zs => ?_, fun s => ?_⟩
      · rw [List.cons_append, join_cons hy, hjoin]
        rfl
      · rw [List.flatMap_cons, List.append_assoc, hread, hrest, Option.map_map]
        rfl

/-- **Reading undoes escaping.** -/
theorem readString_flatMap {escape : UInt8 → Octets} {text : Octets}
    (h : ∀ c ∈ text, Spells escape c) (rest : Octets) :
    readString (text.flatMap escape ++ 34 :: rest) = some (text, rest) := by
  obtain ⟨ys, hjoin, hread⟩ := symbols_flatMap h
  have hnil := hjoin []
  rw [List.append_nil, join, List.append_nil] at hnil
  rw [readString, hread, symbols_quote]
  simp [hnil]

/-- A control character behind an escaped text ends the reading. -/
theorem readString_control {escape : UInt8 → Octets} {text : Octets}
    (h : ∀ c ∈ text, Spells escape c) {c : UInt8} (hc : c < 32) (rest : Octets) :
    readString (text.flatMap escape ++ c :: rest) = none := by
  obtain ⟨ys, -, hread⟩ := symbols_flatMap h
  rw [readString, hread, symbols_control hc]
  rfl

theorem flatMap_singleton (text : Octets) : text.flatMap (fun c => [c]) = text := by
  induction text with
  | nil => rfl
  | cons c text ih => rw [List.flatMap_cons, ih]; rfl

theorem Plain.readString {text : Octets} (h : Plain text) (rest : Octets) :
    readString (text ++ 34 :: rest) = some (text, rest) := by
  have hspells : ∀ c ∈ text, Spells (fun c => [c]) c := fun c hc => spells_byte (h c hc) rfl
  have hread := readString_flatMap hspells rest
  rwa [flatMap_singleton] at hread

/-! ## Text that is not escaped -/

/-- How many bytes symbols can make at most. -/
def weight : List Symbol → Nat
  | [] => 0
  | .byte _ :: ys => 1 + weight ys
  | .unit _ :: ys => 4 + weight ys

theorem length_utf8_le (n : Nat) : (utf8 n).length ≤ 4 := by
  unfold utf8
  split_ifs <;> simp

theorem length_join_le (ys : List Symbol) : (join ys).length ≤ weight ys := by
  fun_induction join ys with
  | case1 => exact Nat.le_refl 0
  | case2 c ys ih =>
      rw [List.length_cons, weight]
      omega
  | case3 n m ys _ ih =>
      have hlen := length_utf8_le (0x10000 + 1024 * (n - 0xD800) + (m - 0xDC00))
      rw [List.length_append, weight, weight]
      omega
  | case4 n m ys _ ih =>
      have hlen := length_utf8_le n
      rw [List.length_append, weight]
      omega
  | case5 n ys _ ih =>
      have hlen := length_utf8_le n
      rw [List.length_append, weight]
      omega

/-- Every quote has a backslash in front of it. -/
def QuotesEscaped (body : Octets) : Prop :=
  ∀ front back, body = front ++ 34 :: back → ∃ front', front = front' ++ [92]

theorem QuotesEscaped.cons {body : Octets} (h : QuotesEscaped body) {c : UInt8} (hc : c ≠ 34) :
    QuotesEscaped (c :: body) := by
  intro front back hsplit
  cases front with
  | nil => exact absurd (List.cons.inj hsplit).1 hc
  | cons d front =>
      obtain ⟨front', hfront⟩ := h front back (List.cons.inj hsplit).2
      exact ⟨d :: front', by rw [hfront]; rfl⟩

theorem QuotesEscaped.pair {body : Octets} (h : QuotesEscaped body) (e : UInt8) :
    QuotesEscaped (92 :: e :: body) := by
  intro front back hsplit
  cases front with
  | nil => exact absurd (List.cons.inj hsplit).1 (by decide)
  | cons d front =>
      rw [List.cons_append, List.cons.injEq] at hsplit
      obtain ⟨rfl, hsplit⟩ := hsplit
      cases front with
      | nil => exact ⟨[], rfl⟩
      | cons e' front =>
          obtain ⟨front', hfront⟩ := h front back (List.cons.inj hsplit).2
          exact ⟨92 :: e' :: front', by rw [hfront]; rfl⟩

/-- The four digits of a code unit are no quotes. -/
theorem codeUnit_ne {a b c d : UInt8} {n : Nat} (h : codeUnit a b c d = some n) :
    a ≠ 34 ∧ b ≠ 34 ∧ c ≠ 34 ∧ d ≠ 34 := by
  have hquote : hexValue 34 = none := rfl
  unfold codeUnit at h
  refine ⟨?_, ?_, ?_, ?_⟩
  all_goals
    rintro rfl
    rw [hquote] at h
    split at h
    · simp_all
    · cases h

/-- **The inside of a string.**  It makes at most as many bytes as it has, as many
only if it is plain, and every quote in it is escaped. -/
theorem symbols_body {s left : Octets} {ys : List Symbol} (h : symbols s = some (ys, left)) :
    ∃ body, s = body ++ 34 :: left ∧ weight ys ≤ body.length ∧
      (weight ys = body.length → Plain body ∧ join ys = body) ∧ QuotesEscaped body := by
  induction ys generalizing s with
  | nil =>
      rcases symbols_cases h with ⟨rfl, -⟩ | ⟨_, _, _, _, -, hcons, -⟩
      · refine ⟨[], rfl, Nat.le_refl 0, fun _ => ⟨fun c hc => absurd hc List.not_mem_nil, rfl⟩, ?_⟩
        intro front back hnil
        simp at hnil
      · cases hcons
  | cons y ys ih =>
      rcases symbols_cases h with ⟨-, hnil⟩ | ⟨pre, y', s', ys', rfl, hcons, hrest, -, hkind⟩
      · cases hnil
      cases hcons
      obtain ⟨body, rfl, hle, heq, hquotes⟩ := ih hrest
      refine ⟨pre ++ body, (List.append_assoc _ _ _).symm, ?_⟩
      rcases hkind with ⟨c, rfl, rfl, hplain⟩ | ⟨e, b, rfl, rfl⟩ | ⟨a, b, c, d, n, rfl, rfl, hcode⟩
      · simp only [weight, List.length_append, List.length_singleton]
        refine ⟨by omega, fun hsame => ?_, hquotes.cons hplain.2.1⟩
        obtain ⟨hbody, hjoin⟩ := heq (by omega)
        refine ⟨fun d hd => ?_, by rw [join, hjoin]; rfl⟩
        rcases List.mem_cons.mp hd with rfl | hd
        · exact hplain
        · exact hbody d hd
      · simp only [weight, List.length_append, List.length_cons, List.length_nil]
        exact ⟨by omega, fun hsame => by omega, hquotes.pair e⟩
      · obtain ⟨ha, hb, hc, hd⟩ := codeUnit_ne hcode
        simp only [weight, List.length_append, List.length_cons, List.length_nil]
        refine ⟨by omega, fun hsame => by omega, ?_⟩
        exact ((((hquotes.cons hd).cons hc).cons hb).cons ha).pair 117

/-- **A text that stands in a string as it is**, with a comma and a quote behind the
closing quote, reads back as itself only if it is plain, unless the string goes on
up to that quote. -/
theorem plain_of_readString {text tail left : Octets}
    (h : readString (text ++ 34 :: 44 :: 34 :: tail) = some (text, left)) :
    Plain text ∨ left = tail := by
  obtain ⟨⟨ys, left'⟩, hsymbols, heq⟩ := Option.map_eq_some_iff.mp h
  obtain ⟨hjoin, rfl⟩ : join ys = text ∧ left' = left := by simpa using heq
  obtain ⟨body, hsplit, hle, hplain, hquotes⟩ := symbols_body hsymbols
  have hlen := length_join_le ys
  rw [hjoin] at hlen
  rcases List.append_eq_append_iff.mp hsplit with ⟨more, hbody, hmore⟩ | ⟨more, htext, -⟩
  · cases more with
    | nil =>
        rw [List.append_nil] at hbody
        rw [hbody] at hle hplain
        exact Or.inl (hplain (by omega)).1
    | cons c more =>
        -- the quote behind the text is a part of the string
        rw [List.cons_append, List.cons.injEq] at hmore
        obtain ⟨rfl, hmore⟩ := hmore
        cases more with
        | nil => exact absurd (List.cons.inj hmore).1 (by decide)
        | cons c more =>
            rw [List.cons_append, List.cons.injEq] at hmore
            obtain ⟨rfl, hmore⟩ := hmore
            cases more with
            | nil => exact Or.inr (List.cons.inj hmore).2.symm
            | cons c more =>
                rw [List.cons_append, List.cons.injEq] at hmore
                obtain ⟨rfl, -⟩ := hmore
                obtain ⟨front', hfront⟩ := hquotes (text ++ [34, 44]) more (by rw [hbody]; simp)
                have hlast := congrArg List.getLast? hfront
                rw [List.getLast?_concat] at hlast
                simp at hlast
  · rw [htext, List.length_append] at hlen
    have hnil : more = [] := List.length_eq_zero_iff.mp (by omega)
    rw [hnil, List.append_nil] at htext
    rw [htext]
    exact Or.inl (hplain (by omega)).1

end JsonGrammar
