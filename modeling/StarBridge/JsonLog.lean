import StarBridge.Drafts
import StarBridge.JsonSpelling

/-!
# Log lines

`json_log` puts a line together in 8192 bytes.  It escapes the event and the message
into what is left of them, and `json_escape_to_buf` closes each string inside its room.
But what it leaves behind the message need not hold the closing brace, the newline and a
terminator: a byte that is escaped to six stops up to two bytes too late.

`json_log_line_iff` says for which texts a log line is one line of JSON.
-/

namespace StarBridge

open CText

namespace JsonLog

/-! ## Escaping into a buffer -/

/-- What has been written into a buffer up to the offset, and how many bytes of the
buffer were touched. -/
structure Escape where
  text : Bytes
  touched : Nat

/-- `buf[off++] = c` for one byte after the other. -/
def Escape.put (e : Escape) (piece : Bytes) : Escape :=
  ⟨e.text ++ piece, e.touched.max (e.text.length + piece.length)⟩

/-- `buf[off] = '\0'`. -/
def Escape.terminate (e : Escape) : Escape :=
  { e with touched := e.touched.max (e.text.length + 1) }

/-- The letter of an escape of two bytes. -/
def escapeLetter (c : UInt8) : Option UInt8 :=
  if c = 34 then some 34            -- \"
  else if c = 92 then some 92       -- \\
  else if c = 10 then some 110      -- \n
  else if c = 13 then some 114      -- \r
  else if c = 9 then some 116       -- \t
  else none

/-- `\u%04x` of a byte. -/
def unitText (c : UInt8) : Bytes :=
  [92, 117, 48, 48, hexDigit (c.toNat / 16), hexDigit (c.toNat % 16)]

/-- The `switch` of `json_escape_to_buf`. -/
def escapeStep (max : Nat) (e : Escape) (c : UInt8) : Escape :=
  match escapeLetter c with
  | some letter => e.put [92, letter]
  | none =>
      if c < 32 ∨ 126 < c then
        -- `snprintf` writes a terminator behind the six bytes
        if e.text.length + 7 < max then (e.put (unitText c)).terminate else e.put [46]
      else e.put [c]

/-- The loop of `json_escape_to_buf`. -/
def escapeLoop (max : Nat) : Bytes → Escape → Escape
  | [], e => e
  | c :: rest, e =>
      if e.text.length + 6 < max then escapeLoop max rest (escapeStep max e c) else e

/-- `json_escape_to_buf`. -/
def jsonEscapeToBuf (max : Nat) (s : Bytes) : Escape :=
  if max = 0 then ⟨[], 0⟩
  else
    let opened := Escape.put ⟨[], 0⟩ [34]
    if max < 3 then opened.terminate
    else ((escapeLoop max (cstr s) opened).put [34]).terminate

/-! ## What an escape says -/

/-- The bytes of a byte that has room. -/
def spellByte (c : UInt8) : Bytes :=
  match escapeLetter c with
  | some letter => [92, letter]
  | none => if c < 32 ∨ 126 < c then unitText c else [c]

/-- A byte that takes six bytes. -/
def Wide (c : UInt8) : Prop := escapeLetter c = none ∧ (c < 32 ∨ 126 < c)

instance (c : UInt8) : Decidable (Wide c) := inferInstanceAs (Decidable (_ ∧ _))

/-- The bytes that a text takes. -/
def width (text : Bytes) : Nat := (text.flatMap spellByte).length

theorem width_append (text text' : Bytes) : width (text ++ text') = width text + width text' := by
  rw [width, List.flatMap_append, List.length_append]
  rfl

theorem width_cons (c : UInt8) (text : Bytes) :
    width (c :: text) = (spellByte c).length + width text := by
  rw [width, List.flatMap_cons, List.length_append]
  rfl

theorem spellByte_of_wide {c : UInt8} (h : Wide c) : spellByte c = unitText c := by
  rw [spellByte, h.1]
  exact if_pos h.2

/-- How a byte is escaped that takes no more than two bytes. -/
theorem spellByte_cases {c : UInt8} (h : ¬ Wide c) :
    (∃ letter, escapeLetter c = some letter ∧ spellByte c = [92, letter]) ∨
      (escapeLetter c = none ∧ ¬ (c < 32 ∨ 126 < c) ∧ spellByte c = [c]) := by
  unfold spellByte
  cases hletter : escapeLetter c with
  | some letter => exact Or.inl ⟨letter, rfl, rfl⟩
  | none =>
      have hplain : ¬ (c < 32 ∨ 126 < c) := fun hwide => h ⟨hletter, hwide⟩
      exact Or.inr ⟨rfl, hplain, if_neg hplain⟩

theorem length_spellByte {c : UInt8} (h : ¬ Wide c) :
    1 ≤ (spellByte c).length ∧ (spellByte c).length ≤ 2 := by
  rcases spellByte_cases h with ⟨letter, -, heq⟩ | ⟨-, -, heq⟩
  · rw [heq]
    exact ⟨Nat.le_succ 1, Nat.le_refl 2⟩
  · rw [heq]
    exact ⟨Nat.le_refl 1, Nat.le_succ 1⟩

theorem length_spellByte_of_wide {c : UInt8} (h : Wide c) : (spellByte c).length = 6 := by
  rw [spellByte_of_wide h]
  rfl

/-- What a turn of the loop does. -/
theorem escapeStep_cases (max : Nat) (e : Escape) (c : UInt8) :
    (¬ Wide c ∧ escapeStep max e c = e.put (spellByte c)) ∨
      (Wide c ∧ e.text.length + 7 < max ∧
        escapeStep max e c = (e.put (spellByte c)).terminate) ∨
      (Wide c ∧ max ≤ e.text.length + 7 ∧ escapeStep max e c = e.put [46]) := by
  by_cases hwide : Wide c
  · rw [spellByte_of_wide hwide]
    unfold escapeStep
    rw [hwide.1]
    by_cases hroom : e.text.length + 7 < max
    · simp [hwide, hroom, hwide.2]
    · simp [hwide, hroom, hwide.2, Nat.le_of_not_lt hroom]
  · refine Or.inl ⟨hwide, ?_⟩
    unfold escapeStep
    rcases spellByte_cases hwide with ⟨letter, hletter, heq⟩ | ⟨hletter, hplain, heq⟩
    · rw [hletter, heq]
    · rw [hletter, heq]
      exact if_neg hplain

/-- Each byte is a symbol to a reader of JSON. -/
theorem symbols_spellByte (c : UInt8) : ∃ y, ∀ s, JsonGrammar.symbols (spellByte c ++ s) =
    (JsonGrammar.symbols s).map fun (ys, rest) => (y :: ys, rest) := by
  by_cases hwide : Wide c
  · have hlt : c.toNat < 256 := c.toNat_lt
    have hunit := codeUnit_hexDigit (a := c.toNat / 16) (b := c.toNat % 16) (by omega) (by omega)
    rw [spellByte_of_wide hwide]
    exact ⟨_, fun s => JsonGrammar.symbols_unit hunit s⟩
  · rcases spellByte_cases hwide with ⟨letter, hletter, heq⟩ | ⟨hletter, hplain, heq⟩
    · have hshort : letter ≠ 117 ∧ ∃ b, JsonGrammar.shortEscape letter = some b := by
        unfold escapeLetter at hletter
        split_ifs at hletter
        all_goals
          cases hletter
          exact ⟨by decide, _, rfl⟩
      obtain ⟨hne, b, hb⟩ := hshort
      rw [heq]
      exact ⟨_, fun s => JsonGrammar.symbols_short hne hb s⟩
    · have hbyte : 32 ≤ c ∧ c ≠ 34 ∧ c ≠ 92 := by
        refine ⟨UInt8.not_lt.mp fun hlt => hplain (Or.inl hlt), ?_, ?_⟩
        · rintro rfl
          cases hletter
        · rintro rfl
          cases hletter
      rw [heq]
      exact ⟨_, fun s => JsonGrammar.symbols_byte hbyte s⟩

/-- **An escaped text is a string.** -/
theorem prints_spelled (kept : Bytes) :
    ∃ text, JsonGrammar.Prints (34 :: (kept.flatMap spellByte ++ [34])) (.string text) := by
  have hread : ∃ ys, ∀ rest, JsonGrammar.symbols (kept.flatMap spellByte ++ 34 :: rest) =
      some (ys, rest) := by
    induction kept with
    | nil => exact ⟨[], JsonGrammar.symbols_quote⟩
    | cons c kept ih =>
        obtain ⟨y, hy⟩ := symbols_spellByte c
        obtain ⟨ys, hys⟩ := ih
        refine ⟨y :: ys, fun rest => ?_⟩
        rw [List.flatMap_cons, List.append_assoc, hy, hys]
        rfl
  obtain ⟨ys, hys⟩ := hread
  refine ⟨JsonGrammar.join ys, JsonGrammar.prints_string fun rest => ?_⟩
  rw [JsonGrammar.readString, hys]
  rfl

/-- No escape has a line break. -/
theorem newline_not_mem_spellByte (c : UInt8) : (10 : UInt8) ∉ spellByte c := by
  have hdigit : ∀ n, n < 16 → hexDigit n ≠ 10 := by decide
  intro hmem
  by_cases hwide : Wide c
  · have hlt : c.toNat < 256 := c.toNat_lt
    rw [spellByte_of_wide hwide, unitText] at hmem
    have hhigh := hdigit (c.toNat / 16) (by omega)
    have hlow := hdigit (c.toNat % 16) (by omega)
    simp [hhigh.symm, hlow.symm] at hmem
  · rcases spellByte_cases hwide with ⟨letter, hletter, heq⟩ | ⟨hletter, -, heq⟩
    · rw [heq] at hmem
      rcases List.mem_cons.mp hmem with hmem | hmem
      · cases hmem
      · rw [← List.mem_singleton.mp hmem] at hletter
        unfold escapeLetter at hletter
        split_ifs at hletter
        all_goals cases hletter
    · rw [heq] at hmem
      rw [← List.mem_singleton.mp hmem] at hletter
      cases hletter

/-! ## The loop -/

variable {max : Nat}

@[simp] theorem Escape.put_text (e : Escape) (piece : Bytes) :
    (e.put piece).text = e.text ++ piece := rfl

@[simp] theorem Escape.terminate_text (e : Escape) : e.terminate.text = e.text := rfl

/-- The text, and what stands behind it, are inside. -/
structure Escape.Inside (max : Nat) (e : Escape) : Prop where
  touched : e.touched ≤ e.text.length + 1
  room : e.text.length + 2 ≤ max

theorem escapeLoop_of_full {e : Escape} (h : max ≤ e.text.length + 6) (s : Bytes) :
    escapeLoop max s e = e := by
  cases s with
  | nil => rfl
  | cons c rest => exact if_neg (Nat.not_lt.mpr h)

theorem escapeLoop_of_room {e : Escape} (h : e.text.length + 6 < max) (c : UInt8) (rest : Bytes) :
    escapeLoop max (c :: rest) e = escapeLoop max rest (escapeStep max e c) := if_pos h

theorem inside_escapeStep {e : Escape} (h : e.Inside max) (hroom : e.text.length + 6 < max)
    (c : UInt8) : (escapeStep max e c).Inside max := by
  have htouched := h.touched
  have hput : ∀ piece : Bytes, 1 ≤ piece.length → piece.length ≤ 2 → (e.put piece).Inside max := by
    intro piece hpos hshort
    have hlength : (e.put piece).text.length = e.text.length + piece.length := List.length_append
    refine ⟨?_, by omega⟩
    rw [hlength]
    exact Nat.max_le.mpr ⟨by omega, by omega⟩
  rcases escapeStep_cases max e c with ⟨hwide, heq⟩ | ⟨hwide, hunit, heq⟩ | ⟨-, -, heq⟩
  · rw [heq]
    exact hput _ (length_spellByte hwide).1 (length_spellByte hwide).2
  · have hlength : (e.put (spellByte c)).terminate.text.length = e.text.length + 6 := by
      rw [Escape.terminate_text, Escape.put_text, List.length_append, length_spellByte_of_wide hwide]
    have hput : (e.put (spellByte c)).touched ≤ e.text.length + 6 := by
      refine Nat.max_le.mpr ⟨by omega, ?_⟩
      rw [length_spellByte_of_wide hwide]
    have hend : (e.put (spellByte c)).text.length = e.text.length + 6 := hlength
    rw [heq]
    refine ⟨?_, by omega⟩
    rw [hlength]
    exact Nat.max_le.mpr ⟨by omega, by omega⟩
  · rw [heq]
    exact hput [46] (Nat.le_refl 1) (Nat.le_succ 1)

theorem inside_escapeLoop (s : Bytes) {e : Escape} (h : e.Inside max) :
    (escapeLoop max s e).Inside max := by
  induction s generalizing e with
  | nil => exact h
  | cons c rest ih =>
      by_cases hroom : e.text.length + 6 < max
      · rw [escapeLoop_of_room hroom]
        exact ih (inside_escapeStep h hroom c)
      · rw [escapeLoop_of_full (Nat.le_of_not_lt hroom)]
        exact h

/-- The loop writes whole escapes. -/
theorem escapeLoop_text (max : Nat) (s : Bytes) (e : Escape) :
    ∃ kept : Bytes, (escapeLoop max s e).text = e.text ++ kept.flatMap spellByte := by
  have hstep : ∀ (e : Escape) (c : UInt8),
      ∃ d, (escapeStep max e c).text = e.text ++ spellByte d := by
    intro e c
    rcases escapeStep_cases max e c with ⟨-, heq⟩ | ⟨-, -, heq⟩ | ⟨-, -, heq⟩
    · exact ⟨c, by rw [heq, Escape.put_text]⟩
    · exact ⟨c, by rw [heq, Escape.terminate_text, Escape.put_text]⟩
    · exact ⟨46, by rw [heq, Escape.put_text]; rfl⟩
  induction s generalizing e with
  | nil => exact ⟨[], (List.append_nil _).symm⟩
  | cons c rest ih =>
      by_cases hroom : e.text.length + 6 < max
      · obtain ⟨d, hd⟩ := hstep e c
        obtain ⟨kept, hkept⟩ := ih (escapeStep max e c)
        rw [escapeLoop_of_room hroom]
        exact ⟨d :: kept, by rw [hkept, hd, List.flatMap_cons, List.append_assoc]⟩
      · rw [escapeLoop_of_full (Nat.le_of_not_lt hroom)]
        exact ⟨[], (List.append_nil _).symm⟩

theorem length_le_escapeLoop (max : Nat) (s : Bytes) (e : Escape) :
    e.text.length ≤ (escapeLoop max s e).text.length := by
  obtain ⟨kept, hkept⟩ := escapeLoop_text max s e
  rw [hkept, List.length_append]
  exact Nat.le_add_right ..

theorem length_escapeStep {e : Escape} {c : UInt8} (h : ¬ Wide c ∨ e.text.length + 7 < max) :
    (escapeStep max e c).text.length = e.text.length + (spellByte c).length := by
  rcases escapeStep_cases max e c with ⟨-, heq⟩ | ⟨-, -, heq⟩ | ⟨hwide, hfull, -⟩
  · rw [heq, Escape.put_text, List.length_append]
  · rw [heq, Escape.terminate_text, Escape.put_text, List.length_append]
  · rcases h with hnarrow | hroom
    · exact absurd hwide hnarrow
    · omega

/-- In front of the last seven bytes, a byte of six gets a full stop. -/
theorem length_escapeStep_stop {e : Escape} {c : UInt8} (hwide : Wide c)
    (hfull : max ≤ e.text.length + 7) :
    (escapeStep max e c).text.length = e.text.length + 1 := by
  rcases escapeStep_cases max e c with ⟨hnarrow, -⟩ | ⟨-, hroom, -⟩ | ⟨-, -, heq⟩
  · exact absurd hwide hnarrow
  · omega
  · rw [heq, Escape.put_text, List.length_append]
    rfl

/-- What a turn adds: the bytes of its byte, or a full stop for them. -/
theorem length_escapeStep_cases (max : Nat) (e : Escape) (c : UInt8) :
    (escapeStep max e c).text.length = e.text.length + (spellByte c).length ∨
      (Wide c ∧ max ≤ e.text.length + 7 ∧
        (escapeStep max e c).text.length = e.text.length + 1) := by
  by_cases hstop : Wide c ∧ max ≤ e.text.length + 7
  · exact Or.inr ⟨hstop.1, hstop.2, length_escapeStep_stop hstop.1 hstop.2⟩
  · rw [not_and_or, Nat.not_le] at hstop
    exact Or.inl (length_escapeStep hstop)

/-- **How far the loop gets**: through the text, or to the last six bytes. -/
theorem length_escapeLoop (max : Nat) (s : Bytes) (e : Escape) :
    (escapeLoop max s e).text.length = e.text.length + width s ∨
      max ≤ (escapeLoop max s e).text.length + 6 := by
  induction s generalizing e with
  | nil => exact Or.inl rfl
  | cons c rest ih =>
      by_cases hroom : e.text.length + 6 < max
      · rw [escapeLoop_of_room hroom, width_cons]
        rcases length_escapeStep_cases max e c with hlength | ⟨-, hfull, hlength⟩
        · rcases ih (escapeStep max e c) with hall | hfull
          · exact Or.inl (by omega)
          · exact Or.inr hfull
        · have hle := length_le_escapeLoop max rest (escapeStep max e c)
          exact Or.inr (by omega)
      · rw [escapeLoop_of_full (Nat.le_of_not_lt hroom)]
        exact Or.inr (Nat.le_of_not_lt hroom)

theorem length_escapeLoop_le (max : Nat) (s : Bytes) (e : Escape) :
    (escapeLoop max s e).text.length ≤ e.text.length + width s := by
  induction s generalizing e with
  | nil => exact Nat.le_refl _
  | cons c rest ih =>
      by_cases hroom : e.text.length + 6 < max
      · have hrest := ih (escapeStep max e c)
        rw [escapeLoop_of_room hroom, width_cons]
        rcases length_escapeStep_cases max e c with hlength | ⟨hwide, -, hlength⟩
        · omega
        · have hsix := length_spellByte_of_wide hwide
          omega
      · rw [escapeLoop_of_full (Nat.le_of_not_lt hroom)]
        exact Nat.le_add_right ..

/-- No byte of six begins where eight or nine bytes are left, with `off` bytes in front
of the text. -/
def NoneLate (max off : Nat) (s : Bytes) : Prop :=
  ∀ front c rest, s = front ++ c :: rest → Wide c →
    off + width front + 8 ≠ max ∧ off + width front + 9 ≠ max

theorem noneLate_of_full {off : Nat} (h : max ≤ off + 7) (s : Bytes) : NoneLate max off s := by
  intro front c rest _ _
  omega

theorem noneLate_cons_iff {off : Nat} {c : UInt8} {rest : Bytes} :
    NoneLate max off (c :: rest) ↔
      (Wide c → off + 8 ≠ max ∧ off + 9 ≠ max) ∧
        NoneLate max (off + (spellByte c).length) rest := by
  constructor
  · intro h
    refine ⟨fun hwide => h [] c rest rfl hwide, ?_⟩
    intro front d more heq hwide
    have hlate := h (c :: front) d more (by rw [heq]; rfl) hwide
    rw [width_cons] at hlate
    omega
  · rintro ⟨hhead, htail⟩ front d more heq hwide
    cases front with
    | nil =>
        cases heq
        exact hhead hwide
    | cons b front =>
        cases heq
        have hlate := htail front d more rfl hwide
        rw [width_cons]
        omega

/-- **The loop leaves three bytes behind the closing quote** iff no byte of six begins
too late. -/
theorem escapeLoop_leaves_iff (s : Bytes) {e : Escape} (h : e.text.length + 4 ≤ max) :
    (escapeLoop max s e).text.length + 4 ≤ max ↔ NoneLate max e.text.length s := by
  induction s generalizing e with
  | nil => exact iff_of_true h fun front c rest heq => by cases front <;> cases heq
  | cons c rest ih =>
      by_cases hroom : e.text.length + 6 < max
      · rw [escapeLoop_of_room hroom, noneLate_cons_iff]
        by_cases hwide : Wide c
        · rw [length_spellByte_of_wide hwide]
          by_cases hstop : max ≤ e.text.length + 7
          · have hlength := length_escapeStep_stop hwide hstop
            rw [escapeLoop_of_full (by omega)]
            exact iff_of_true (by omega) ⟨fun _ => by omega, noneLate_of_full (by omega) rest⟩
          · have hlength := length_escapeStep (c := c) (Or.inr (Nat.lt_of_not_le hstop))
            rw [length_spellByte_of_wide hwide] at hlength
            by_cases hlate : e.text.length + 10 ≤ max
            · rw [ih (by omega), hlength]
              exact (and_iff_right fun _ => by omega).symm
            · have hle := length_le_escapeLoop max rest (escapeStep max e c)
              exact iff_of_false (by omega) fun hboth => by
                have hhead := hboth.1 hwide
                omega
        · have hlength : (escapeStep max e c).text.length =
              e.text.length + (spellByte c).length := length_escapeStep (Or.inl hwide)
          have hshort := (length_spellByte hwide).2
          rw [ih (by omega), hlength]
          exact (and_iff_right fun hwide' => absurd hwide' hwide).symm
      · rw [escapeLoop_of_full (Nat.le_of_not_lt hroom)]
        exact iff_of_true h (noneLate_of_full (by omega) _)

/-! ## The string -/

theorem jsonEscapeToBuf_eq (h : 3 ≤ max) (s : Bytes) :
    jsonEscapeToBuf max s =
      ((escapeLoop max (cstr s) (Escape.put ⟨[], 0⟩ [34])).put [34]).terminate := by
  unfold jsonEscapeToBuf
  rw [if_neg (by omega)]
  exact if_neg (Nat.not_lt.mpr h)

/-- **No write leaves the buffer**, unless it has one byte. -/
theorem touched_le_iff (max : Nat) (s : Bytes) :
    (jsonEscapeToBuf max s).touched ≤ max ↔ max ≠ 1 := by
  by_cases hlong : 3 ≤ max
  · refine iff_of_true ?_ (by omega)
    have hopened : (Escape.put ⟨[], 0⟩ [34]).Inside max := ⟨Nat.le_succ 1, hlong⟩
    have hinside := inside_escapeLoop (cstr s) hopened
    have htouched := hinside.touched
    have hroom := hinside.room
    rw [jsonEscapeToBuf_eq hlong]
    refine Nat.max_le.mpr ⟨Nat.max_le.mpr ⟨by omega, ?_⟩, ?_⟩
    · rw [List.length_singleton]
      omega
    · rw [Escape.put_text, List.length_append, List.length_singleton]
      exact hroom
  · interval_cases max
    · exact iff_of_true (Nat.le_refl 0) Nat.zero_ne_one
    · exact iff_of_false (show ¬ 2 ≤ 1 by decide) fun hne => hne rfl
    · exact iff_of_true (Nat.le_refl 2) (by decide)

/-- What is written is a string. -/
theorem prints_jsonEscapeToBuf (h : 3 ≤ max) (s : Bytes) :
    ∃ text, JsonGrammar.Prints (jsonEscapeToBuf max s).text (.string text) := by
  obtain ⟨kept, hkept⟩ := escapeLoop_text max (cstr s) (Escape.put ⟨[], 0⟩ [34])
  rw [jsonEscapeToBuf_eq h, Escape.terminate_text, Escape.put_text, hkept]
  exact prints_spelled kept

theorem newline_not_mem_jsonEscapeToBuf (max : Nat) (s : Bytes) :
    (10 : UInt8) ∉ (jsonEscapeToBuf max s).text := by
  by_cases hlong : 3 ≤ max
  · obtain ⟨kept, hkept⟩ := escapeLoop_text max (cstr s) (Escape.put ⟨[], 0⟩ [34])
    rw [jsonEscapeToBuf_eq hlong, Escape.terminate_text, Escape.put_text, hkept]
    intro hmem
    rcases List.mem_append.mp hmem with hmem | hmem
    · rcases List.mem_append.mp hmem with hmem | hmem
      · exact absurd hmem (by decide)
      · obtain ⟨c, -, hc⟩ := List.mem_flatMap.mp hmem
        exact newline_not_mem_spellByte c hc
    · exact absurd hmem (by decide)
  · interval_cases max
    · exact List.not_mem_nil
    · exact show (10 : UInt8) ∉ [34] by decide
    · exact show (10 : UInt8) ∉ [34] by decide


theorem length_jsonEscapeToBuf (h : 3 ≤ max) (s : Bytes) :
    (jsonEscapeToBuf max s).text.length =
      (escapeLoop max (cstr s) (Escape.put ⟨[], 0⟩ [34])).text.length + 1 := by
  rw [jsonEscapeToBuf_eq h, Escape.terminate_text, Escape.put_text, List.length_append]
  rfl

/-- A text is written whole, or up to the last five bytes. -/
theorem length_jsonEscapeToBuf_cases (h : 3 ≤ max) (s : Bytes) :
    (jsonEscapeToBuf max s).text.length = 2 + width (cstr s) ∨
      (max ≤ (jsonEscapeToBuf max s).text.length + 5 ∧ max ≤ width (cstr s) + 7) := by
  have hopened : (Escape.put ⟨[], 0⟩ [34]).text.length = 1 := rfl
  have hlength := length_jsonEscapeToBuf h s
  have hle := length_escapeLoop_le max (cstr s) (Escape.put ⟨[], 0⟩ [34])
  rcases length_escapeLoop max (cstr s) (Escape.put ⟨[], 0⟩ [34]) with hall | hfull
  · exact Or.inl (by omega)
  · exact Or.inr ⟨by omega, by omega⟩

/-- **Three bytes are left behind a string** iff it had five, and no byte of six begins too
late. -/
theorem jsonEscapeToBuf_leaves_iff (max : Nat) (s : Bytes) :
    (jsonEscapeToBuf max s).text.length + 3 ≤ max ↔ 5 ≤ max ∧ NoneLate max 1 (cstr s) := by
  by_cases hlong : 5 ≤ max
  · have hlength := length_jsonEscapeToBuf (Nat.le_of_add_left_le hlong) s
    rw [hlength, and_iff_right hlong]
    exact escapeLoop_leaves_iff (cstr s) hlong
  · refine iff_of_false ?_ fun hboth => hlong hboth.1
    by_cases hthree : 3 ≤ max
    · have hopened : (Escape.put ⟨[], 0⟩ [34]).text.length = 1 := rfl
      have hle := length_le_escapeLoop max (cstr s) (Escape.put ⟨[], 0⟩ [34])
      have hlength := length_jsonEscapeToBuf hthree s
      omega
    · omega

/-! ## The line -/

/-- What `format_timestamp` leaves in its 64 bytes: a date, or a number of seconds. -/
structure Timestamp where
  text : Bytes
  short : text.length < 64
  stamp : ∀ c ∈ text, c ∈ lit "0123456789-+:T"

inductive LogLevel
  | info
  | warn
  | error
  | debug

def LogLevel.text : LogLevel → Bytes
  | info => lit "info"
  | warn => lit "warn"
  | error => lit "error"
  | debug => lit "debug"

/-- What `vsnprintf` leaves of a formatted text in `msg`. -/
def message (formatted : Bytes) : Bytes := cstr (clip 4096 formatted)

/-- `off += json_escape_to_buf(buf + off, sizeof(buf) - off, s)`. -/
def escapeTo (d : Draft UInt8) (s : Bytes) : Draft UInt8 :=
  if d.off ≤ 8192 then
    let escape := jsonEscapeToBuf (8192 - d.off) s
    { text := d.text ++ escape.text
      off := d.off + escape.text.length
      inside := d.inside && decide (escape.touched ≤ 8192 - d.off) }
  else
    -- behind the buffer the room wraps around
    { d with inside := false }

/-- The object up to the event. -/
def lineHead (ts : Timestamp) (level : LogLevel) : Bytes :=
  lit "\x7b\"ts\":\"" ++ ts.text ++ lit "\",\"level\":\"" ++ level.text ++ lit "\",\"event\":"

/-- The line up to the message. -/
def beforeMessage (ts : Timestamp) (level : LogLevel) (event : Bytes) : Draft UInt8 :=
  let opened := Draft.start.print 8192 (lineHead ts level)
  let named := escapeTo opened event
  let request := named.print 8192 (lit ",\"request_id\":null")
  let duration := request.print 8192 (lit ",\"duration_ms\":null")
  duration.print 8192 (lit ",\"msg\":")

/-- `json_log`: what it puts on `stderr`, and into the debug log. -/
def jsonLog (ts : Timestamp) (level : LogLevel) (event formatted : Bytes) : Draft UInt8 :=
  (escapeTo (beforeMessage ts level event) (message formatted)).print 8192 (lit "\x7d\n")

/-- The settings of tracing. -/
structure TraceConfig where
  debugLogEnabled : Bool
  debugLogPath : Bytes
  jsonMode : Bool

/-- `debug_trace_append` hands its text on. -/
def TraceConfig.Forwards (config : TraceConfig) : Prop :=
  config.debugLogEnabled = true ∧ cstr config.debugLogPath ≠ [] ∧ config.jsonMode = true

instance (config : TraceConfig) : Decidable config.Forwards :=
  inferInstanceAs (Decidable (_ ∧ _ ∧ _))

/-- What `debug_trace_append` has `json_log` put out. -/
def debugTraceAppend (config : TraceConfig) (ts : Timestamp) (formatted : Bytes) :
    Option (Draft UInt8) :=
  if config.Forwards then some (jsonLog ts .debug (lit "trace") (message formatted)) else none

/-! ## Lines of JSON -/

/-- One line: an object and the only line break. -/
def OneLine (d : Draft UInt8) : Prop :=
  d.inside = true ∧ ∃ obj ms, d.text = obj ++ [10] ∧ (10 : UInt8) ∉ obj ∧
    JsonGrammar.IsJson obj (.object ms)

/-- Where the message begins when nothing is cut. -/
def messageOff (ts : Timestamp) (level : LogLevel) (event : Bytes) : Nat :=
  (lineHead ts level).length + (2 + width (cstr event)) + 44

/-- There are five bytes for the message, and none of its bytes that are escaped to six
begins where eight or nine bytes are left. -/
structure LineFits (ts : Timestamp) (level : LogLevel) (event formatted : Bytes) : Prop where
  room : messageOff ts level event + 5 ≤ 8192
  noneLate : NoneLate 8192 (messageOff ts level event + 1) (message formatted)

theorem Timestamp.plain (ts : Timestamp) : JsonGrammar.Plain ts.text := by
  have hstamp : JsonGrammar.Plain (lit "0123456789-+:T") := plain_lit (by decide)
  exact fun c hc => hstamp c (ts.stamp c hc)

theorem LogLevel.plain (level : LogLevel) : JsonGrammar.Plain level.text := by
  cases level
  all_goals exact plain_lit (by decide)

theorem LogLevel.length_text_le (level : LogLevel) : level.text.length ≤ 5 := by
  cases level
  all_goals
    unfold LogLevel.text
    rw [length_lit]
    decide

theorem length_lineHead_lt (ts : Timestamp) (level : LogLevel) :
    (lineHead ts level).length < 100 := by
  have hopen : (lit "\x7b\"ts\":\"").length = 7 := length_lit _
  have hlevel : (lit "\",\"level\":\"").length = 11 := length_lit _
  have hevent : (lit "\",\"event\":").length = 10 := length_lit _
  have hshort := ts.short
  have hname := level.length_text_le
  simp only [lineHead, List.length_append, hopen, hlevel, hevent]
  omega

theorem newline_not_mem_of_plain {text : Bytes} (h : JsonGrammar.Plain text) :
    (10 : UInt8) ∉ text := fun hmem => absurd (h 10 hmem).1 (by decide)

theorem newline_not_mem_lineHead (ts : Timestamp) (level : LogLevel) :
    (10 : UInt8) ∉ lineHead ts level := by
  have hlits : (10 : UInt8) ∉ lit "\x7b\"ts\":\"" ∧ (10 : UInt8) ∉ lit "\",\"level\":\"" ∧
      (10 : UInt8) ∉ lit "\",\"event\":" := by decide
  simp only [lineHead, List.mem_append, not_or]
  exact ⟨⟨⟨⟨hlits.1, newline_not_mem_of_plain ts.plain⟩, hlits.2.1⟩,
    newline_not_mem_of_plain level.plain⟩, hlits.2.2⟩

/-! ### The drafts -/

variable {d : Draft UInt8} {text : Bytes}

theorem newline_not_mem_print {piece : Bytes} (hd : (10 : UInt8) ∉ d.text)
    (hpiece : (10 : UInt8) ∉ piece) : (10 : UInt8) ∉ (d.print 8192 piece).text := by
  show (10 : UInt8) ∉ if d.off < 8192 then d.text ++ clip (8192 - d.off) piece else d.text
  split
  · intro hmem
    rcases List.mem_append.mp hmem with hmem | hmem
    · exact hd hmem
    · exact hpiece (List.mem_of_mem_take hmem)
  · exact hd

theorem newline_not_mem_escapeTo (hd : (10 : UInt8) ∉ d.text) (s : Bytes) :
    (10 : UInt8) ∉ (escapeTo d s).text := by
  unfold escapeTo
  split
  · intro hmem
    rcases List.mem_append.mp hmem with hmem | hmem
    · exact hd hmem
    · exact newline_not_mem_jsonEscapeToBuf _ s hmem
  · exact hd

theorem newline_not_mem_beforeMessage (ts : Timestamp) (level : LogLevel) (event : Bytes) :
    (10 : UInt8) ∉ (beforeMessage ts level event).text := by
  have hlits : (10 : UInt8) ∉ lit ",\"request_id\":null" ∧
      (10 : UInt8) ∉ lit ",\"duration_ms\":null" ∧ (10 : UInt8) ∉ lit ",\"msg\":" := by
    decide
  have hopened := newline_not_mem_print (d := Draft.start) List.not_mem_nil
    (newline_not_mem_lineHead ts level)
  have hnamed := newline_not_mem_escapeTo hopened event
  have hrequest := newline_not_mem_print hnamed hlits.1
  have hduration := newline_not_mem_print hrequest hlits.2.1
  exact newline_not_mem_print hduration hlits.2.2

theorem whole_escapeTo (h : d.Whole text) (hroom : text.length + 3 ≤ 8192) (s : Bytes) :
    (escapeTo d s).Whole (text ++ (jsonEscapeToBuf (8192 - text.length) s).text) := by
  have hoff : d.off ≤ 8192 := by
    rw [h.off_eq]
    omega
  have htouched : (jsonEscapeToBuf (8192 - d.off) s).touched ≤ 8192 - d.off :=
    (touched_le_iff _ s).mpr (by rw [h.off_eq]; omega)
  rw [escapeTo, if_pos hoff]
  refine ⟨?_, ?_, ?_⟩
  · show d.text ++ (jsonEscapeToBuf (8192 - d.off) s).text = _
    rw [h.text_eq, h.off_eq]
  · show d.off + (jsonEscapeToBuf (8192 - d.off) s).text.length = _
    rw [List.length_append, h.off_eq]
  · show (d.inside && decide _) = true
    rw [h.inside, decide_eq_true htouched]
    rfl

/-- The members behind the event, as they are printed. -/
def nulls : Bytes := lit ",\"request_id\":null" ++ lit ",\"duration_ms\":null" ++ lit ",\"msg\":"

theorem length_nulls : nulls.length = 44 := by decide

theorem beforeMessage_off (ts : Timestamp) (level : LogLevel) (event : Bytes) :
    (beforeMessage ts level event).off = (lineHead ts level).length +
      (jsonEscapeToBuf (8192 - (lineHead ts level).length) event).text.length + 44 := by
  have hhead := length_lineHead_lt ts level
  have hopened : (Draft.start.print 8192 (lineHead ts level)).off = (lineHead ts level).length :=
    Nat.zero_add _
  have hnamed : (escapeTo (Draft.start.print 8192 (lineHead ts level)) event).off =
      (lineHead ts level).length +
        (jsonEscapeToBuf (8192 - (lineHead ts level).length) event).text.length := by
    rw [escapeTo, if_pos (by omega), hopened]
  have hnulls := length_nulls
  rw [nulls, List.length_append, List.length_append] at hnulls
  show (escapeTo _ event).off + _ + _ + _ = _
  rw [hnamed]
  omega

theorem whole_beforeMessage {ts : Timestamp} {level : LogLevel} {event : Bytes}
    (h : (lineHead ts level).length +
      (jsonEscapeToBuf (8192 - (lineHead ts level).length) event).text.length + 44 < 8192) :
    (beforeMessage ts level event).Whole (lineHead ts level ++
      (jsonEscapeToBuf (8192 - (lineHead ts level).length) event).text ++ nulls) := by
  have hhead := length_lineHead_lt ts level
  have hnulls := length_nulls
  rw [nulls, List.length_append, List.length_append] at hnulls
  have hopened : (Draft.start.print 8192 (lineHead ts level)).Whole (lineHead ts level) :=
    Draft.whole_start.print _ (by rw [List.length_nil]; omega)
  have hnamed := whole_escapeTo hopened (by omega) event
  have hrequest : (Draft.print 8192 _ (lit ",\"request_id\":null")).Whole _ :=
    hnamed.print _ (by rw [List.length_append]; omega)
  have hduration : (Draft.print 8192 _ (lit ",\"duration_ms\":null")).Whole _ :=
    hrequest.print _ (by simp only [List.length_append]; omega)
  have hmsg : (Draft.print 8192 _ (lit ",\"msg\":")).Whole _ :=
    hduration.print _ (by simp only [List.length_append]; omega)
  rw [List.append_assoc, List.append_assoc, ← List.append_assoc (lit ",\"request_id\":null")] at hmsg
  exact hmsg

/-- The members of a line with a string for the event and one for the message. -/
def lineMembers (ts : Timestamp) (level : LogLevel) {event msg eventText msgText : Bytes}
    (hevent : JsonGrammar.Prints event (.string eventText))
    (hmsg : JsonGrammar.Prints msg (.string msgText)) : List JsonGrammar.Member :=
  [fixedMember (lit "ts") ts.text (plain_lit (by decide)) ts.plain,
    fixedMember (lit "level") level.text (plain_lit (by decide)) level.plain,
    ⟨lit "event", event, _, plain_lit (by decide), hevent⟩,
    ⟨lit "request_id", _, _, plain_lit (by decide), JsonGrammar.prints_null⟩,
    ⟨lit "duration_ms", _, _, plain_lit (by decide), JsonGrammar.prints_null⟩,
    ⟨lit "msg", msg, _, plain_lit (by decide), hmsg⟩]

theorem line_eq (ts : Timestamp) (level : LogLevel) {event msg eventText msgText : Bytes}
    (hevent : JsonGrammar.Prints event (.string eventText))
    (hmsg : JsonGrammar.Prints msg (.string msgText)) :
    lineHead ts level ++ event ++ nulls ++ msg ++ [125] =
      JsonGrammar.Member.object (lineMembers ts level hevent hmsg) := by
  have hopen : lit "\x7b\"ts\":\"" = 123 :: (JsonGrammar.quote (lit "ts") ++ [58, 34]) := by
    repeat rw [lit_ofList]
    rfl
  have hlevel : lit "\",\"level\":\"" = 34 :: 44 :: (JsonGrammar.quote (lit "level") ++ [58, 34]) := by
    repeat rw [lit_ofList]
    rfl
  have hname : lit "\",\"event\":" = 34 :: 44 :: (JsonGrammar.quote (lit "event") ++ [58]) := by
    repeat rw [lit_ofList]
    rfl
  have hrequest : lit ",\"request_id\":null" =
      44 :: (JsonGrammar.quote (lit "request_id") ++ 58 :: JsonGrammar.nullText) := by
    repeat rw [lit_ofList]
    rfl
  have hduration : lit ",\"duration_ms\":null" =
      44 :: (JsonGrammar.quote (lit "duration_ms") ++ 58 :: JsonGrammar.nullText) := by
    repeat rw [lit_ofList]
    rfl
  have hlast : lit ",\"msg\":" = 44 :: (JsonGrammar.quote (lit "msg") ++ [58]) := by
    repeat rw [lit_ofList]
    rfl
  rw [lineHead, nulls, hopen, hlevel, hname, hrequest, hduration, hlast]
  simp [lineMembers, fixedMember, JsonGrammar.Member.object, JsonGrammar.Member.led,
    JsonGrammar.quote]

theorem cstr_message (formatted : Bytes) : cstr (message formatted) = message formatted :=
  upTo_eq_self (stop_not_mem_upTo 0 _)

/-- A late byte is late in the line as it is in the room behind the offset. -/
theorem noneLate_add_iff {off : Nat} (h : off + 5 ≤ 8192) (s : Bytes) :
    NoneLate (8192 - off) 1 s ↔ NoneLate 8192 (off + 1) s := by
  unfold NoneLate
  constructor
  · intro hlate front c rest heq hwide
    have hhere := hlate front c rest heq hwide
    omega
  · intro hlate front c rest heq hwide
    have hhere := hlate front c rest heq hwide
    omega

variable {ts : Timestamp} {level : LogLevel} {event formatted : Bytes}

/-- The event of a line with room for its message is whole. -/
theorem beforeMessage_off_eq
    (h : (beforeMessage ts level event).off + 5 ≤ 8192 ∨ messageOff ts level event + 5 ≤ 8192) :
    (beforeMessage ts level event).off = messageOff ts level event := by
  have hhead := length_lineHead_lt ts level
  have hoff := beforeMessage_off ts level event
  have hlong : 3 ≤ 8192 - (lineHead ts level).length := by omega
  unfold messageOff at h ⊢
  rcases length_jsonEscapeToBuf_cases hlong event with hall | ⟨hfull, hwidth⟩
  · omega
  · omega

/-- A line break at the end was not cut off. -/
theorem room_of_newline {obj : Bytes} (hd : (10 : UInt8) ∉ d.text)
    (h : (d.print 8192 (lit "\x7d\n")).text = obj ++ [10]) : d.off + 3 ≤ 8192 := by
  have hclose : lit "\x7d\n" = [125, 10] := by
    rw [lit_ofList]
    rfl
  by_contra hlate
  have hshort : ∀ size, size ≤ 2 → (10 : UInt8) ∉ clip size [125, 10] := by decide
  have hmem : (10 : UInt8) ∈ (d.print 8192 (lit "\x7d\n")).text := by
    rw [h]
    exact List.mem_append_right _ (List.mem_singleton_self 10)
  have hcut : (10 : UInt8) ∈ if d.off < 8192 then d.text ++ clip (8192 - d.off) [125, 10]
      else d.text := by
    rw [← hclose]
    exact hmem
  split_ifs at hcut
  · rcases List.mem_append.mp hcut with hcut | hcut
    · exact hd hcut
    · exact hshort _ (by omega) hcut
  · exact hd hcut

/-- **A line that ends in a line break** had room for all of it. -/
theorem lineFits_of_newline {obj : Bytes}
    (hinside : (jsonLog ts level event formatted).inside = true)
    (h : (jsonLog ts level event formatted).text = obj ++ [10]) :
    LineFits ts level event formatted := by
  have hboth : (escapeTo (beforeMessage ts level event) (message formatted)).inside = true ∧
      (escapeTo (beforeMessage ts level event) (message formatted)).off ≤ 8192 := by
    rw [jsonLog, Draft.print_inside, Bool.and_eq_true, decide_eq_true_eq] at hinside
    exact hinside
  have hbefore : (beforeMessage ts level event).off ≤ 8192 := by
    by_contra hpast
    have hout := hboth.1
    rw [escapeTo, if_neg hpast] at hout
    cases hout
  have hoff : (escapeTo (beforeMessage ts level event) (message formatted)).off =
      (beforeMessage ts level event).off +
        (jsonEscapeToBuf (8192 - (beforeMessage ts level event).off)
          (message formatted)).text.length := by
    rw [escapeTo, if_pos hbefore]
  have hroom := room_of_newline
    (newline_not_mem_escapeTo (newline_not_mem_beforeMessage ts level event) _) h
  obtain ⟨hfive, hlate⟩ := (jsonEscapeToBuf_leaves_iff
    (8192 - (beforeMessage ts level event).off) (message formatted)).mp (by omega)
  have heq := beforeMessage_off_eq (Or.inl (show (beforeMessage ts level event).off + 5 ≤ 8192 by
    omega))
  rw [cstr_message, noneLate_add_iff (by omega), heq] at hlate
  exact ⟨by omega, hlate⟩

/-- A line that was written whole is an object and a line break. -/
theorem oneLine_of_whole {e m : Bytes} (he : ∃ t, JsonGrammar.Prints e (.string t))
    (hm : ∃ t, JsonGrammar.Prints m (.string t)) (hbreaks : (10 : UInt8) ∉ e ∧ (10 : UInt8) ∉ m)
    (h : d.Whole (lineHead ts level ++ e ++ nulls ++ m ++ lit "\x7d\n")) : OneLine d := by
  have hclose : lit "\x7d\n" = [125] ++ [10] := by
    rw [lit_ofList]
    rfl
  have hnulls : (10 : UInt8) ∉ nulls := by decide
  have hbrace : (10 : UInt8) ∉ [125] := by decide
  obtain ⟨eventText, hevent⟩ := he
  obtain ⟨msgText, hmsg⟩ := hm
  refine ⟨h.inside, lineHead ts level ++ e ++ nulls ++ m ++ [125],
    JsonGrammar.Member.values (lineMembers ts level hevent hmsg), ?_, ?_, ?_⟩
  · rw [h.text_eq, hclose, List.append_assoc _ [125]]
  · simp only [List.mem_append, not_or]
    exact ⟨⟨⟨⟨newline_not_mem_lineHead ts level, hbreaks.1⟩, hnulls⟩, hbreaks.2⟩, hbrace⟩
  · rw [line_eq ts level hevent hmsg]
    exact (JsonGrammar.Member.prints_object_of_members _).isJson

/-- **A line that fits** is written whole. -/
theorem oneLine_of_lineFits (h : LineFits ts level event formatted) :
    OneLine (jsonLog ts level event formatted) := by
  have hhead := length_lineHead_lt ts level
  have heq := beforeMessage_off_eq (Or.inr h.room)
  have hoff := beforeMessage_off ts level event
  have hroom := h.room
  rw [← heq] at hroom
  have hlate := h.noneLate
  rw [← heq, ← noneLate_add_iff hroom, ← cstr_message] at hlate
  have hleaves := (jsonEscapeToBuf_leaves_iff (8192 - (beforeMessage ts level event).off)
    (message formatted)).mpr ⟨by omega, hlate⟩
  have hbefore := whole_beforeMessage (show (lineHead ts level).length +
    (jsonEscapeToBuf (8192 - (lineHead ts level).length) event).text.length + 44 < 8192 by omega)
  have hlength := hbefore.off_eq
  have hescaped := whole_escapeTo hbefore (by omega) (message formatted)
  rw [← hlength] at hescaped
  have hline : (jsonLog ts level event formatted).Whole _ :=
    hescaped.print (lit "\x7d\n") (by
      rw [List.length_append, ← hlength, length_lit]
      show _ + 2 < 8192
      omega)
  exact oneLine_of_whole (prints_jsonEscapeToBuf (by omega) event)
    (prints_jsonEscapeToBuf (by omega) (message formatted))
    ⟨newline_not_mem_jsonEscapeToBuf _ event, newline_not_mem_jsonEscapeToBuf _ _⟩ hline

/-- **A log line is one line of JSON** iff it fits. -/
theorem oneLine_jsonLog_iff :
    OneLine (jsonLog ts level event formatted) ↔ LineFits ts level event formatted := by
  constructor
  · intro h
    obtain ⟨hinside, obj, ms, htext, -, -⟩ := h
    exact lineFits_of_newline hinside htext
  · exact oneLine_of_lineFits

theorem width_replicate (n : Nat) (c : UInt8) :
    width (List.replicate n c) = n * (spellByte c).length := by
  induction n with
  | zero => exact (Nat.zero_mul _).symm
  | succ n ih => rw [List.replicate_succ, width_cons, ih, Nat.succ_mul, Nat.add_comm]

/-- **The escapes stay in their buffer, and log lines and traces are lines of JSON**,
exactly in a buffer of another size than one and where the lines fit. -/
theorem json_log_line_iff (max : Nat) (s : Bytes) (config : TraceConfig) (ts : Timestamp)
    (level : LogLevel) (event formatted : Bytes) :
    ((jsonEscapeToBuf max s).touched ≤ max ∧ OneLine (jsonLog ts level event formatted) ∧
        ∀ d ∈ debugTraceAppend config ts formatted, OneLine d) ↔
      max ≠ 1 ∧ LineFits ts level event formatted ∧
        (config.Forwards → LineFits ts .debug (lit "trace") (message formatted)) := by
  have htrace : (∀ d ∈ debugTraceAppend config ts formatted, OneLine d) ↔
      (config.Forwards → LineFits ts .debug (lit "trace") (message formatted)) := by
    unfold debugTraceAppend
    split
    · rename_i hforwards
      rw [forall_prop_of_true hforwards, ← oneLine_jsonLog_iff]
      constructor
      · exact fun h => h _ rfl
      · intro h d hd
        exact Option.some.inj hd ▸ h
    · rename_i hforwards
      exact iff_of_true (fun d hd => by cases hd) fun h => absurd h hforwards
  rw [touched_le_iff, oneLine_jsonLog_iff, htrace]

/-- A time of day. -/
def newYear : Timestamp where
  text := lit "2026-01-01T00:00:00+0000"
  short := by decide +kernel
  stamp := by
    have hall : ((lit "2026-01-01T00:00:00+0000").all fun c =>
        (lit "0123456789-+:T").contains c) = true := by decide +kernel
    exact fun c hc => List.contains_iff_mem.mp (List.all_eq_true.mp hall c hc)

/-- A message of 1351 bytes, all but four of which are escaped to six, and a buffer of one
byte. -/
theorem line_break_cut_off :
    ¬ OneLine (jsonLog newYear .info (lit "e") (lit "aaaa" ++ List.replicate 1347 128)) ∧
      ¬ (jsonEscapeToBuf 1 []).touched ≤ 1 := by
  refine ⟨fun h => ?_, fun h => (touched_le_iff 1 []).mp h rfl⟩
  obtain ⟨hinside, obj, ms, htext, -, -⟩ := h
  have hlate := (lineFits_of_newline hinside htext).noneLate
  have hzero : (0 : UInt8) ∉ lit "aaaa" ++ List.replicate 1347 128 := by
    rw [List.mem_append, List.mem_replicate]
    decide +kernel
  have hlength : (lit "aaaa" ++ List.replicate 1347 (128 : UInt8)).length < 4096 := by
    rw [List.length_append, List.length_replicate, length_lit]
    decide
  have hmessage : message (lit "aaaa" ++ List.replicate 1347 128) =
      (lit "aaaa" ++ List.replicate 1346 128) ++ [128] := by
    rw [message, clip_eq_self hlength, List.append_assoc, ← List.replicate_succ']
    exact upTo_eq_self hzero
  have hoff : messageOff newYear .info (lit "e") = 103 := by decide +kernel
  have hwidth : width (lit "aaaa" ++ List.replicate 1346 128) = 8080 := by
    rw [width_append, width_replicate]
    decide +kernel
  have hhere := hlate _ 128 [] hmessage (by decide)
  rw [hoff, hwidth] at hhere
  exact hhere.1 rfl

end JsonLog

end StarBridge
