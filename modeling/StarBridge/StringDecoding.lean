import StarBridge.IndexRuns
import StarBridge.JsonSpelling

/-!
# The two string decoders

`json_decode_string` and `decode_json_string_local` read a string literal off the front
of a C string.  The first keeps a `\u` escape as the six bytes it is, so that it undoes
`json_escape` only where that wrote none (`decodeLoop_escapeAll`).  Both take the byte
behind a backslash as it comes, the terminator included, and go on behind it.

`decode_undoes_escape_iff` says which texts come back, and on which inputs neither
decoder leaves the text.
-/

namespace StarBridge

open CText

/-! ## The decoders -/

/-- How a decoder ends. -/
inductive DecodeEnd
  | closed (rest : Bytes)  -- behind the closing quote
  | unclosed
  | past                   -- it has gone on behind the terminator
  deriving DecidableEq, Repr

/-- What a decoder wrote in front of its last terminator, and how it ended. -/
structure Decoded where
  dest : Bytes
  stop : DecodeEnd
  deriving DecidableEq, Repr

def Decoded.behind (front : Bytes) (d : Decoded) : Decoded := ⟨front ++ d.dest, d.stop⟩

/-- The `switch` of both decoders, but for `\u`. -/
def unescapeByte (e : UInt8) : UInt8 :=
  if e = 98 then 8
  else if e = 102 then 12
  else if e = 110 then 10
  else if e = 114 then 13
  else if e = 116 then 9
  else e

/-- The loop of `json_decode_string`, with `o` bytes written. -/
def decodeLoop (maxLen : Nat) : Bytes → Nat → Decoded
  | [], _ => ⟨[], .unclosed⟩
  | c :: rest, o =>
      if o < maxLen - 1 then
        if c = 92 then
          match rest with
          | [] => ⟨[0], .past⟩  -- the terminator is copied like any other byte
          | e :: rest =>
              if e = 117 then
                match rest with
                | h₁ :: h₂ :: h₃ :: h₄ :: rest =>
                    if o + 6 < maxLen - 1 then
                      (decodeLoop maxLen rest (o + 6)).behind [92, 117, h₁, h₂, h₃, h₄]
                    else decodeLoop maxLen rest o
                | short =>
                    ⟨if o + (short.length + 2) < maxLen - 1 then 92 :: 117 :: short else [],
                      .unclosed⟩
              else (decodeLoop maxLen rest (o + 1)).behind [unescapeByte e]
        else if c = 34 then ⟨[], .closed rest⟩
        else (decodeLoop maxLen rest (o + 1)).behind [c]
      else ⟨[], .unclosed⟩

/-- `json_decode_string`, into a buffer of `maxLen` bytes. -/
def jsonDecodeString (maxLen : Nat) : Bytes → Option Decoded
  | 34 :: rest => some (decodeLoop maxLen rest 0)
  | _ => none

/-- The hexadecimal digits at the front, four at most. -/
def hexFront (s : Bytes) : Bytes := (s.take 4).takeWhile fun c => (CJson.hexValue c).isSome

/-- What the digits behind a `\u` come to. -/
def unicodeText (digits : Bytes) : Bytes :=
  match digits with
  | [h₁, h₂, h₃, h₄] => CJson.utf8Encode (CJson.parseHex4 h₁ h₂ h₃ h₄)
  | _ => [63]

/-- The loop of `decode_json_string_local`, with `out` bytes written. -/
def decodeLocalLoop (maxLen : Nat) (s : Bytes) (out : Nat) : Decoded :=
  match s with
  | [] => ⟨[], .unclosed⟩
  | c :: rest =>
      if out + 1 < maxLen then
        if c = 92 then
          match rest with
          | [] => ⟨[0], .past⟩
          | e :: rest =>
              if e = 117 then
                let digits := hexFront rest
                let text := unicodeText digits
                if out + text.length < maxLen then
                  (decodeLocalLoop maxLen (rest.drop digits.length) (out + text.length)).behind text
                else decodeLocalLoop maxLen (rest.drop digits.length) out
              else (decodeLocalLoop maxLen rest (out + 1)).behind [unescapeByte e]
        else if c = 34 then
          ⟨[], .closed (rest.dropWhile fun c => c = 32 || c = 9 || c = 44 || c = 58)⟩
        else (decodeLocalLoop maxLen rest (out + 1)).behind [c]
      else ⟨[], .unclosed⟩
termination_by s.length
decreasing_by all_goals simp only [List.length_cons, List.length_drop]; omega

/-- `decode_json_string_local`, into a buffer of `maxLen` bytes. -/
def decodeJsonStringLocal (maxLen : Nat) : Bytes → Option Decoded
  | 34 :: rest => some (decodeLocalLoop maxLen rest 0)
  | _ => none

/-! ## Where they end -/

/-- The text ends on a backslash that `json_decode_string` comes to: a quote ends the
search, an escape takes its second byte with it, and a `\u` escape four more. -/
def endsOnBackslash : Bytes → Bool
  | [] => false
  | c :: rest =>
      if c = 92 then
        match rest with
        | [] => true
        | e :: rest =>
            if e = 117 then
              match rest with
              | _ :: _ :: _ :: _ :: rest => endsOnBackslash rest
              | _ => false
            else endsOnBackslash rest
      else c ≠ 34 && endsOnBackslash rest

/-- The same for `decode_json_string_local`, which takes digits only behind `\u`. -/
def endsOnBackslashLocal : Bytes → Bool
  | [] => false
  | c :: rest =>
      if c = 92 then
        match rest with
        | [] => true
        | _ :: rest => endsOnBackslashLocal rest
      else c ≠ 34 && endsOnBackslashLocal rest

theorem endsOnBackslash_plain {c : UInt8} (hc : c ≠ 92) (hquote : c ≠ 34) (rest : Bytes) :
    endsOnBackslash (c :: rest) = endsOnBackslash rest := by
  rw [endsOnBackslash.eq_def]
  simp [hc, hquote]

theorem endsOnBackslash_pair {e : UInt8} (he : e ≠ 117) (rest : Bytes) :
    endsOnBackslash (92 :: e :: rest) = endsOnBackslash rest := by
  rw [endsOnBackslash.eq_def]
  simp [he]

theorem endsOnBackslash_quote (rest : Bytes) : endsOnBackslash (34 :: rest) = false := by
  rw [endsOnBackslash.eq_def]
  simp

theorem endsOnBackslashLocal_plain {c : UInt8} (hc : c ≠ 92) (hquote : c ≠ 34) (rest : Bytes) :
    endsOnBackslashLocal (c :: rest) = endsOnBackslashLocal rest := by
  rw [endsOnBackslashLocal.eq_def]
  simp [hc, hquote]

theorem endsOnBackslashLocal_quote (rest : Bytes) : endsOnBackslashLocal (34 :: rest) = false := by
  rw [endsOnBackslashLocal.eq_def]
  simp

/-- What an escape comes to is no longer than it. -/
theorem length_unicodeText_le (rest : Bytes) :
    (unicodeText (hexFront rest)).length ≤ (hexFront rest).length + 2 ∧
      (hexFront rest).length ≤ rest.length := by
  constructor
  · unfold unicodeText
    split
    · next hdigits =>
        rw [hdigits]
        unfold CJson.utf8Encode
        split_ifs
        all_goals simp
    · simp
  · exact ((List.takeWhile_prefix _).trans (List.take_prefix _ _)).length_le

/-- What a decoder writes stays in front of the last byte of its buffer. -/
theorem length_decodeLoop_lt {maxLen : Nat} (s : Bytes) {o : Nat} (ho : o < maxLen) :
    o + (decodeLoop maxLen s o).dest.length < maxLen := by
  fun_induction decodeLoop maxLen s o with
  | case1 o => exact ho
  | case2 o hroom => simp; omega
  | case3 o hroom h₁ h₂ h₃ h₄ rest hwide ih =>
      have hrest := ih (by omega)
      simp only [Decoded.behind, List.length_append, List.length_cons, List.length_nil]
      omega
  | case4 o hroom h₁ h₂ h₃ h₄ rest hwide ih => exact ih ho
  | case5 o hroom short hshort =>
      dsimp only
      split_ifs with hwide
      · simp only [List.length_cons]
        omega
      · exact ho
  | case6 o hroom e rest he ih =>
      have hrest := ih (by omega)
      simp only [Decoded.behind, List.length_append, List.length_singleton]
      omega
  | case7 o hroom rest hc => exact ho
  | case8 c rest o hroom hc hquote ih =>
      have hrest := ih (by omega)
      simp only [Decoded.behind, List.length_append, List.length_singleton]
      omega
  | case9 c rest o hroom => exact ho

theorem length_decodeLocalLoop_lt {maxLen : Nat} (s : Bytes) {out : Nat} (hout : out < maxLen) :
    out + (decodeLocalLoop maxLen s out).dest.length < maxLen := by
  fun_induction decodeLocalLoop maxLen s out with
  | case1 out => exact hout
  | case2 out hroom => exact hroom
  | case3 out hroom rest digits text hwide ih =>
      have hrest := ih hwide
      simp only [Decoded.behind, List.length_append]
      omega
  | case4 out hroom rest digits text hwide ih => exact ih hout
  | case5 out hroom e rest he ih =>
      have hrest := ih hroom
      simp only [Decoded.behind, List.length_append, List.length_singleton]
      omega
  | case6 out hroom rest hc => exact hout
  | case7 out c rest hroom hc hquote ih =>
      have hrest := ih hroom
      simp only [Decoded.behind, List.length_append, List.length_singleton]
      omega
  | case8 out c rest hroom => exact hout

/-- `json_decode_string` leaves the text only behind such a backslash. -/
theorem endsOnBackslash_of_past {maxLen o : Nat} {s : Bytes}
    (h : (decodeLoop maxLen s o).stop = .past) : endsOnBackslash s = true := by
  fun_induction decodeLoop maxLen s o with
  | case1 o => cases h
  | case2 o hroom => decide
  | case3 o hroom h₁ h₂ h₃ h₄ rest hwide ih => simpa [endsOnBackslash] using ih h
  | case4 o hroom h₁ h₂ h₃ h₄ rest hwide ih => simpa [endsOnBackslash] using ih h
  | case5 o hroom short hshort => cases h
  | case6 o hroom e rest he ih =>
      rw [endsOnBackslash_pair he]
      exact ih h
  | case7 o hroom rest hc => cases h
  | case8 c rest o hroom hc hquote ih =>
      rw [endsOnBackslash_plain hc hquote]
      exact ih h
  | case9 c rest o hroom => cases h

/-- With room for the text it does. -/
theorem decodeLoop_past {maxLen o : Nat} {s : Bytes} (h : endsOnBackslash s = true)
    (hroom : o + s.length < maxLen) : (decodeLoop maxLen s o).stop = .past := by
  fun_induction decodeLoop maxLen s o with
  | case1 o => cases h
  | case2 o hroom => rfl
  | case3 o _ h₁ h₂ h₃ h₄ rest hwide ih =>
      refine ih (by simpa [endsOnBackslash] using h) ?_
      simp only [List.length_cons] at hroom
      omega
  | case4 o _ h₁ h₂ h₃ h₄ rest hwide ih =>
      refine ih (by simpa [endsOnBackslash] using h) ?_
      simp only [List.length_cons] at hroom
      omega
  | case5 o _ short hshort =>
      unfold endsOnBackslash at h
      grind
  | case6 o _ e rest he ih =>
      rw [endsOnBackslash_pair he] at h
      refine ih h ?_
      simp only [List.length_cons] at hroom
      omega
  | case7 o _ rest hc =>
      rw [endsOnBackslash_quote] at h
      cases h
  | case8 c rest o _ hc hquote ih =>
      rw [endsOnBackslash_plain hc hquote] at h
      refine ih h ?_
      simp only [List.length_cons] at hroom
      omega
  | case9 c rest o hfull =>
      simp only [List.length_cons] at hroom
      omega

/-- Digits are no backslashes and no quotes. -/
theorem endsOnBackslashLocal_drop (s : Bytes) :
    endsOnBackslashLocal (s.drop (hexFront s).length) = endsOnBackslashLocal s := by
  have hdigit : ∀ c, (CJson.hexValue c).isSome = true → c ≠ 92 ∧ c ≠ 34 := by
    intro c hc
    constructor
    · rintro rfl
      exact absurd hc (by decide)
    · rintro rfl
      exact absurd hc (by decide)
  have hhex : ∀ c ∈ hexFront s, (CJson.hexValue c).isSome = true := by
    intro c hc
    have himp := List.all_takeWhile (p := fun c => (CJson.hexValue c).isSome) (l := s.take 4)
    exact List.all_eq_true.mp himp c hc
  have hall : ∀ digits ⊆ hexFront s, ∀ rest : Bytes,
      endsOnBackslashLocal (digits ++ rest) = endsOnBackslashLocal rest := by
    intro digits hsub rest
    induction digits with
    | nil => rfl
    | cons c digits ih =>
        obtain ⟨hin, hsub⟩ := List.cons_subset.mp hsub
        obtain ⟨hslash, hquote⟩ := hdigit c (hhex c hin)
        rw [List.cons_append, endsOnBackslashLocal_plain hslash hquote]
        exact ih hsub
  have hprefix : hexFront s <+: s := (List.takeWhile_prefix _).trans (List.take_prefix _ _)
  obtain ⟨rest, hrest⟩ := hprefix
  have hdrop : s.drop (hexFront s).length = rest := by
    conv => enter [1, 2]; rw [← hrest]
    exact List.drop_left
  rw [hdrop, ← hall _ (List.Subset.refl _) rest, hrest]

theorem endsOnBackslashLocal_of_past {maxLen out : Nat} {s : Bytes}
    (h : (decodeLocalLoop maxLen s out).stop = .past) : endsOnBackslashLocal s = true := by
  fun_induction decodeLocalLoop maxLen s out with
  | case1 out => cases h
  | case2 out hroom => decide
  | case3 out hroom rest digits text hwide ih =>
      have hrest := ih h
      rw [endsOnBackslashLocal_drop] at hrest
      simpa [endsOnBackslashLocal] using hrest
  | case4 out hroom rest digits text hwide ih =>
      have hrest := ih h
      rw [endsOnBackslashLocal_drop] at hrest
      simpa [endsOnBackslashLocal] using hrest
  | case5 out hroom e rest he ih => simpa [endsOnBackslashLocal] using ih h
  | case6 out hroom rest hc => cases h
  | case7 out c rest hroom hc hquote ih =>
      rw [endsOnBackslashLocal_plain hc hquote]
      exact ih h
  | case8 out c rest hroom => cases h

theorem decodeLocalLoop_past {maxLen out : Nat} {s : Bytes} (h : endsOnBackslashLocal s = true)
    (hroom : out + s.length < maxLen) : (decodeLocalLoop maxLen s out).stop = .past := by
  fun_induction decodeLocalLoop maxLen s out with
  | case1 out => cases h
  | case2 out _ => rfl
  | case3 out _ rest digits text hwide ih =>
      refine ih ?_ ?_
      · rw [endsOnBackslashLocal_drop]
        simpa [endsOnBackslashLocal] using h
      · have hshort : text.length ≤ digits.length + 2 ∧ digits.length ≤ rest.length :=
          length_unicodeText_le rest
        simp only [List.length_cons, List.length_drop] at hroom ⊢
        omega
  | case4 out _ rest digits text hwide ih =>
      refine ih ?_ ?_
      · rw [endsOnBackslashLocal_drop]
        simpa [endsOnBackslashLocal] using h
      · simp only [List.length_cons, List.length_drop] at hroom ⊢
        omega
  | case5 out _ e rest he ih =>
      refine ih (by simpa [endsOnBackslashLocal] using h) ?_
      simp only [List.length_cons] at hroom
      omega
  | case6 out _ rest hc =>
      rw [endsOnBackslashLocal_quote] at h
      cases h
  | case7 out c rest _ hc hquote ih =>
      rw [endsOnBackslashLocal_plain hc hquote] at h
      refine ih h ?_
      simp only [List.length_cons] at hroom
      omega
  | case8 out c rest hfull =>
      simp only [List.length_cons] at hroom
      omega

/-! ## Texts that were escaped -/

/-- The control characters that `json_escape` has a letter for. -/
def HasLetter (c : UInt8) : Prop := c = 8 ∨ c = 9 ∨ c = 10 ∨ c = 12 ∨ c = 13

instance (c : UInt8) : Decidable (HasLetter c) := inferInstanceAs (Decidable (_ ∨ _))

theorem unescapeByte_simple {e c : UInt8} (h : CJson.simpleEscape e = some c) :
    unescapeByte e = c := by
  unfold CJson.simpleEscape at h
  unfold unescapeByte
  grind

/-- A byte that is written in two or less is read back. -/
theorem decodeLoop_escapeByte {maxLen o : Nat} {c : UInt8} (hc : 32 ≤ c ∨ HasLetter c)
    (hroom : o + 1 < maxLen) (rest : Bytes) :
    decodeLoop maxLen (escapeByte c ++ rest) o = (decodeLoop maxLen rest (o + 1)).behind [c] := by
  have ho : o < maxLen - 1 := by omega
  rcases CJson.escapeByte_cases c with ⟨e, he, hsimple, heq⟩ | ⟨hcontrol, heq⟩ |
    ⟨hquote, hslash, heq⟩
  · rw [heq, List.cons_append, List.singleton_append, decodeLoop.eq_def]
    simp [ho, he, unescapeByte_simple hsimple]
  · have hletter : HasLetter c := hc.resolve_left (UInt8.not_le.mpr hcontrol)
    rcases hletter with rfl | rfl | rfl | rfl | rfl
    all_goals cases heq
  · rw [heq, List.singleton_append, decodeLoop.eq_def]
    simp [ho, hslash, hquote]

/-- **The round trip** of a text whose control characters all have a letter. -/
theorem decodeLoop_escapeAll {maxLen : Nat} {text : Bytes}
    (h : ∀ c ∈ text, 32 ≤ c ∨ HasLetter c) {o : Nat} (hroom : o + text.length + 1 < maxLen)
    (rest : Bytes) :
    decodeLoop maxLen (escapeAll text ++ 34 :: rest) o = ⟨text, .closed rest⟩ := by
  induction text generalizing o with
  | nil =>
      have ho : o < maxLen - 1 := by
        rw [List.length_nil] at hroom
        omega
      rw [escapeAll_nil, List.nil_append, decodeLoop.eq_def]
      simp [ho]
  | cons c text ih =>
      obtain ⟨hc, htext⟩ := List.forall_mem_cons.mp h
      rw [List.length_cons] at hroom
      rw [escapeAll_cons, List.append_assoc, decodeLoop_escapeByte hc (by omega),
        ih htext (by omega)]
      rfl

/-- `json_escape` writes no control characters. -/
theorem le_of_mem_escapeAll {text : Bytes} {d : UInt8} (h : d ∈ escapeAll text) : 32 ≤ d := by
  have hdigit : ∀ n < 16, 32 ≤ hexDigit n := by decide
  obtain ⟨c, -, hd⟩ := List.mem_flatMap.mp h
  rcases CJson.escapeByte_cases c with ⟨e, he, hsimple, heq⟩ | ⟨hcontrol, heq⟩ |
    ⟨hquote, hslash, heq⟩
  · have hletter : 32 ≤ e := by
      unfold CJson.simpleEscape at hsimple
      grind
    rw [heq] at hd
    grind
  · have hhigh := hdigit (c.toNat / 16) (by have := c.toNat_lt; omega)
    have hlow := hdigit (c.toNat % 16) (by omega)
    rw [heq] at hd
    grind
  · rw [heq, List.mem_singleton] at hd
    exact hd ▸ le_of_escapeByte heq

/-- What is written was in the text, or is one of a few bytes. -/
theorem mem_decodeLoop {maxLen o : Nat} {s : Bytes} {d : UInt8}
    (h : d ∈ (decodeLoop maxLen s o).dest) :
    d ∈ s ∨ d = 0 ∨ HasLetter d ∨ 32 ≤ d := by
  have hletter : ∀ e, unescapeByte e = e ∨ HasLetter (unescapeByte e) := by
    intro e
    unfold unescapeByte HasLetter
    split_ifs
    all_goals simp
  fun_induction decodeLoop maxLen s o with
  | case1 o => cases h
  | case2 o hroom => grind
  | case3 o hroom h₁ h₂ h₃ h₄ rest hwide ih =>
      rcases List.mem_append.mp h with h | h
      · grind
      · grind
  | case4 o hroom h₁ h₂ h₃ h₄ rest hwide ih => grind
  | case5 o hroom short hshort => grind
  | case6 o hroom e rest he ih =>
      rcases List.mem_append.mp h with h | h
      · grind
      · grind
  | case7 o hroom rest hc => cases h
  | case8 c rest o hroom hc hquote ih =>
      rcases List.mem_append.mp h with h | h
      · grind
      · grind
  | case9 c rest o hroom => cases h

/-! ## What is wanted of them -/

/-- `json_decode_string` gives a text back from what `json_escape` made of it, and ends
behind the closing quote.  The buffers are adequate: the one takes the escaped text, the
other the text, its terminator, and a byte to come to the quote with. -/
def Undoes (text : Bytes) : Prop :=
  ∀ size maxLen rest, 0 < size → Escapes size text → text.length + 1 < maxLen →
    jsonDecodeString maxLen (34 :: (jsonEscape text size ++ 34 :: rest)) =
      some ⟨text, .closed rest⟩

/-- A decoder stays inside its text and its buffer. -/
structure Decoded.Inside (maxLen : Nat) (d : Decoded) : Prop where
  reads : d.stop ≠ .past
  writes : d.dest.length < maxLen

/-- Both decoders do, whatever buffer they are given. -/
structure StaysInside (input : Bytes) : Prop where
  shared : ∀ maxLen, 0 < maxLen → ∀ d ∈ jsonDecodeString maxLen input, d.Inside maxLen
  server : ∀ maxLen, 0 < maxLen → ∀ d ∈ decodeJsonStringLocal maxLen input, d.Inside maxLen

/-- No backslash in front of the terminator is come to. -/
def EndsClean (input : Bytes) : Prop :=
  ∀ inner, input = 34 :: inner →
    endsOnBackslash inner = false ∧ endsOnBackslashLocal inner = false

theorem undoes_iff {text : Bytes} (hzero : 0 ∉ text) :
    Undoes text ↔ ∀ c ∈ text, 32 ≤ c ∨ HasLetter c := by
  constructor
  · intro h c hc
    have hescapes : Escapes ((escapeAll text).length + 9) text := by
      apply (jsonEscape_eq_iff hzero _).mp
      rw [jsonEscape_eq_of_fits]
      all_goals rw [show cstr text = text from upTo_eq_self hzero]
      omega
    have hback := h _ (text.length + 2) [] (by omega) hescapes (by omega)
    rw [(jsonEscape_eq_iff hzero _).mpr hescapes] at hback
    have hrun := Option.some.inj hback
    -- a control character without a letter is nowhere in what is written
    have hmem : c ∈ (decodeLoop (text.length + 2) (escapeAll text ++ [34]) 0).dest := by
      rw [hrun]
      exact hc
    have hne : c ≠ 0 := fun heq => hzero (heq ▸ hc)
    rcases mem_decodeLoop hmem with hin | hcases
    · refine Or.inl ?_
      rcases List.mem_append.mp hin with hin | hin
      · exact le_of_mem_escapeAll hin
      · rw [List.mem_singleton.mp hin]
        decide
    · grind
  · intro h size maxLen rest _ hescapes hroom
    rw [(jsonEscape_eq_iff hzero size).mpr hescapes]
    exact congrArg some (decodeLoop_escapeAll h (by omega) rest)

theorem staysInside_iff (input : Bytes) : StaysInside input ↔ EndsClean input := by
  constructor
  · intro h inner hinput
    subst hinput
    have hshared := (h.shared (inner.length + 1) (Nat.succ_pos _) _ rfl).reads
    have hserver := (h.server (inner.length + 1) (Nat.succ_pos _) _ rfl).reads
    constructor
    · by_contra hends
      exact hshared (decodeLoop_past (by simpa using hends) (by omega))
    · by_contra hends
      exact hserver (decodeLocalLoop_past (by simpa using hends) (by omega))
  · intro h
    constructor
    · intro maxLen hpos d hd
      unfold jsonDecodeString at hd
      split at hd
      · next inner =>
          cases hd
          refine ⟨fun hpast => ?_, by simpa using length_decodeLoop_lt inner hpos⟩
          have hclean := (h inner rfl).1
          rw [endsOnBackslash_of_past hpast] at hclean
          cases hclean
      · cases hd
    · intro maxLen hpos d hd
      unfold decodeJsonStringLocal at hd
      split at hd
      · next inner =>
          cases hd
          refine ⟨fun hpast => ?_, by simpa using length_decodeLocalLoop_lt inner hpos⟩
          have hclean := (h inner rfl).2
          rw [endsOnBackslashLocal_of_past hpast] at hclean
          cases hclean
      · cases hd

/-- **Decoding undoes escaping** on the texts whose control characters all have a letter,
and the decoders stay inside the inputs in which no backslash is the last byte that they
come to. -/
theorem decode_undoes_escape_iff (text input : CString) :
    Undoes text.val ∧ StaysInside input.val ↔
      (∀ c ∈ text.val, 32 ≤ c ∨ HasLetter c) ∧ EndsClean input.val :=
  and_congr (undoes_iff text.property) (staysInside_iff input.val)

/-- The text `\x01` comes back as the six bytes `\u0001`, and behind `"\` both decoders
read on. -/
theorem decode_undoes_escape_fails : ¬ Undoes [1] ∧ ¬ StaysInside [34, 92] := by
  constructor
  · intro h
    exact absurd (h 16 16 [] (by decide) (by decide) (by decide)) (by decide)
  · intro h
    exact (h.shared 16 (by decide) _ rfl).reads (by decide)

end StarBridge
