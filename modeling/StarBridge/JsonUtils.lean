import StarBridge.CText
import StarBridge.NativeFrame

/-!
# JSON escaping

`json_escape` writes a C string as the inside of a JSON string literal, into a
buffer of fixed size: it stops, without a word, at the first character that
might not leave room for an escape.  The frames that carry session keys and
state ids are built with it, so `jsonEscape_eq_of_fits` and
`jsonEscape_prefix` say when a text comes through whole and what is left of it
otherwise.
-/

namespace StarBridge

open CText

/-- The bytes of an ASCII literal of the source. -/
def lit (s : String) : Bytes := s.toList.map fun c => UInt8.ofNat c.toNat

/-- A literal as its characters: rewriting with this spares the kernel decoding
the string. -/
theorem lit_ofList (cs : List Char) :
    lit (String.ofList cs) = cs.map fun c => UInt8.ofNat c.toNat := by
  rw [lit, String.toList_ofList]

theorem length_lit (cs : List Char) : (lit (String.ofList cs)).length = cs.length := by
  rw [lit_ofList, List.length_map]

/-- The C string in a buffer of bytes. -/
def cstr (buffer : Bytes) : Bytes := upTo 0 buffer

/-- A hexadecimal digit in lower case. -/
def hexDigit (n : Nat) : UInt8 :=
  if n < 10 then UInt8.ofNat (48 + n) else UInt8.ofNat (87 + n)

/-- The `switch` of `json_escape`. -/
def escapeByte (c : UInt8) : Bytes :=
  if c = 34 then [92, 34]            -- \"
  else if c = 92 then [92, 92]       -- \\
  else if c = 8 then [92, 98]        -- \b
  else if c = 12 then [92, 102]      -- \f
  else if c = 10 then [92, 110]      -- \n
  else if c = 13 then [92, 114]      -- \r
  else if c = 9 then [92, 116]       -- \t
  else if c < 32 then
    [92, 117, 48, 48, hexDigit (c.toNat / 16), hexDigit (c.toNat % 16)]
  else [c]

/-- The loop of `json_escape`, with `o` bytes already written. -/
def jsonEscapeFrom (maxLen : Nat) : Bytes → Nat → Bytes
  | [], _ => []
  | c :: rest, o =>
      if o + 8 < maxLen then
        let esc := escapeByte c
        if maxLen - 1 ≤ o + esc.length then []
        else esc ++ jsonEscapeFrom maxLen rest (o + esc.length)
      else []

/-- `json_escape`: what it leaves in a buffer of `max_len` bytes. -/
def jsonEscape (src : Bytes) (maxLen : Nat) : Bytes :=
  jsonEscapeFrom maxLen (cstr src) 0

/-- The escaped form of a text, had the buffer no end. -/
def escapeAll (text : Bytes) : Bytes := text.flatMap escapeByte

@[simp] theorem escapeAll_nil : escapeAll [] = [] := rfl

@[simp] theorem escapeAll_cons (c : UInt8) (rest : Bytes) :
    escapeAll (c :: rest) = escapeByte c ++ escapeAll rest := rfl

theorem escapeAll_append (a b : Bytes) :
    escapeAll (a ++ b) = escapeAll a ++ escapeAll b :=
  List.flatMap_append

theorem escapeByte_length_pos (c : UInt8) : 0 < (escapeByte c).length := by
  unfold escapeByte
  split_ifs <;> simp

theorem escapeByte_length_le (c : UInt8) : (escapeByte c).length ≤ 6 := by
  unfold escapeByte
  split_ifs <;> simp

theorem length_escapeAll_le (text : Bytes) : (escapeAll text).length ≤ 6 * text.length := by
  induction text with
  | nil => simp
  | cons c rest ih =>
      have := escapeByte_length_le c
      simp only [escapeAll_cons, List.length_append, List.length_cons]
      omega

theorem zero_not_mem_escapeByte {c : UInt8} (hc : c ≠ 0) : 0 ∉ escapeByte c := by
  have hdigit : ∀ n < 16, hexDigit n ≠ 0 := by decide
  have hhigh := hdigit (c.toNat / 16) (by have := c.toNat_lt; omega)
  have hlow := hdigit (c.toNat % 16) (by omega)
  unfold escapeByte
  split_ifs <;> simp_all [eq_comm]

theorem zero_not_mem_escapeAll {text : Bytes} (h : 0 ∉ text) : 0 ∉ escapeAll text := by
  intro hmem
  obtain ⟨c, hc, hin⟩ := List.mem_flatMap.mp hmem
  refine zero_not_mem_escapeByte ?_ hin
  rintro rfl
  exact h hc

/-- What the loop writes is the escaped form of a prefix of the text, and it
stops early only when the next character might not fit. -/
theorem jsonEscapeFrom_prefix (maxLen : Nat) (text : Bytes) (o : Nat) :
    ∃ kept cut, text = kept ++ cut ∧
      jsonEscapeFrom maxLen text o = escapeAll kept ∧
      (cut ≠ [] → maxLen ≤ o + (escapeAll kept).length + 8) := by
  induction text generalizing o with
  | nil => exact ⟨[], [], rfl, rfl, by simp⟩
  | cons c rest ih =>
      have hesc := escapeByte_length_le c
      by_cases hroom : o + 8 < maxLen
      · have hfits : ¬ maxLen - 1 ≤ o + (escapeByte c).length := by omega
        obtain ⟨kept, cut, rfl, hrun, hcut⟩ := ih (o + (escapeByte c).length)
        refine ⟨c :: kept, cut, rfl, ?_, fun h => ?_⟩
        · simp only [jsonEscapeFrom, if_pos hroom, if_neg hfits, hrun,
            escapeAll_cons]
        · have := hcut h
          simp only [escapeAll_cons, List.length_append]
          omega
      · refine ⟨[], c :: rest, rfl, ?_, fun _ => by simpa using hroom⟩
        simp only [jsonEscapeFrom, if_neg hroom, escapeAll_nil]

/-- What is escaped fits the buffer with its terminator. -/
theorem jsonEscapeFrom_length_lt {maxLen : Nat} (text : Bytes) {o : Nat}
    (ho : o < maxLen) : o + (jsonEscapeFrom maxLen text o).length < maxLen := by
  induction text generalizing o with
  | nil => simpa [jsonEscapeFrom] using ho
  | cons c rest ih =>
      unfold jsonEscapeFrom
      dsimp only
      split_ifs with hroom hfull
      · simpa using ho
      · have := ih (o := o + (escapeByte c).length) (by omega)
        rw [List.length_append]
        omega
      · simpa using ho

theorem jsonEscape_length_lt {maxLen : Nat} (hmax : 0 < maxLen) (src : Bytes) :
    (jsonEscape src maxLen).length < maxLen := by
  simpa [jsonEscape] using jsonEscapeFrom_length_lt (cstr src) hmax

/-- The escaped form of a prefix of the text is all that `json_escape` ever
writes. -/
theorem jsonEscape_prefix (src : Bytes) (maxLen : Nat) :
    ∃ kept cut, cstr src = kept ++ cut ∧
      jsonEscape src maxLen = escapeAll kept ∧
      (cut ≠ [] → maxLen ≤ (escapeAll kept).length + 8) := by
  simpa [jsonEscape] using jsonEscapeFrom_prefix maxLen (cstr src) 0

/-- A text whose escaped form leaves eight bytes is escaped whole. -/
theorem jsonEscape_eq_of_fits {src : Bytes} {maxLen : Nat}
    (h : (escapeAll (cstr src)).length + 8 < maxLen) :
    jsonEscape src maxLen = escapeAll (cstr src) := by
  obtain ⟨kept, cut, hsplit, hrun, hcut⟩ := jsonEscape_prefix src maxLen
  by_cases hnil : cut = []
  · rw [hrun, hsplit, hnil, List.append_nil]
  · have := hcut hnil
    rw [hsplit, escapeAll_append, List.length_append] at h
    omega

/-- The loop escapes a text whole iff it has eight bytes to spare in front of
the last character. -/
theorem jsonEscapeFrom_eq_iff (maxLen : Nat) (text : Bytes) (o : Nat) :
    jsonEscapeFrom maxLen text o = escapeAll text ↔
      text = [] ∨ o + (escapeAll text.dropLast).length + 8 < maxLen := by
  induction text generalizing o with
  | nil => simp [jsonEscapeFrom]
  | cons c rest ih =>
      have hpos := escapeByte_length_pos c
      have hle := escapeByte_length_le c
      by_cases hroom : o + 8 < maxLen
      · have hfits : ¬ maxLen - 1 ≤ o + (escapeByte c).length := by omega
        simp only [jsonEscapeFrom, if_pos hroom, if_neg hfits, escapeAll_cons,
          List.append_cancel_left_eq, ih, reduceCtorEq, false_or]
        cases rest with
        | nil => simpa using hroom
        | cons d more =>
            simp only [List.dropLast_cons_cons, escapeAll_cons, List.length_append,
              reduceCtorEq, false_or]
            omega
      · have hne : escapeByte c ++ escapeAll rest ≠ [] := by
          intro h
          have hnil := (List.append_eq_nil_iff.mp h).1
          rw [hnil] at hpos
          exact absurd hpos (by decide)
        simp only [jsonEscapeFrom, if_neg hroom, escapeAll_cons, reduceCtorEq, false_or]
        refine ⟨fun h => absurd h.symm hne, fun h => ?_⟩
        omega

/-- `json_escape` takes a text whole into a buffer of `max_len` bytes. -/
def Escapes (maxLen : Nat) (text : Bytes) : Prop :=
  text = [] ∨ (escapeAll text.dropLast).length + 8 < maxLen

instance (maxLen : Nat) (text : Bytes) : Decidable (Escapes maxLen text) :=
  inferInstanceAs (Decidable (_ ∨ _))

theorem jsonEscape_eq_iff {text : Bytes} (hzero : 0 ∉ text) (maxLen : Nat) :
    jsonEscape text maxLen = escapeAll text ↔ Escapes maxLen text := by
  rw [jsonEscape, show cstr text = text from upTo_eq_self hzero, jsonEscapeFrom_eq_iff,
    Nat.zero_add]
  rfl

end StarBridge
