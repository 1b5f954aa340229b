import StarBridge.JsonFields
import StarBridge.JsonText

/-!
# What the code prints, as JSON

The escape of `json_escape` spells every byte, `%d` prints a number, and a text
that `json_escape` had to cut reads back as the part it took.
-/

namespace StarBridge

open CText

/-! ## Escaped texts -/

theorem shortEscape_of_simpleEscape {e c : UInt8} (h : CJson.simpleEscape e = some c) :
    JsonGrammar.shortEscape e = some c := by
  unfold CJson.simpleEscape at h
  unfold JsonGrammar.shortEscape
  by_cases hmark : e = 34 ∨ e = 92 ∨ e = 47
  · have hne : ∀ d : UInt8, d ≠ 34 ∧ d ≠ 92 ∧ d ≠ 47 → e ≠ d := by
      rintro d ⟨h₁, h₂, h₃⟩ rfl
      rcases hmark with h | h | h
      · exact h₁ h
      · exact h₂ h
      · exact h₃ h
    rw [if_neg (hne 98 (by decide)), if_neg (hne 102 (by decide)), if_neg (hne 110 (by decide)),
      if_neg (hne 114 (by decide)), if_neg (hne 116 (by decide)), if_pos hmark] at h
    rw [if_pos hmark, h]
  · rw [if_neg hmark] at h ⊢
    exact h

theorem codeUnit_hexDigit {a b : Nat} (ha : a < 16) (hb : b < 16) :
    JsonGrammar.codeUnit 48 48 (hexDigit a) (hexDigit b) = some (16 * a + b) := by
  have hdigit : ∀ {n : Nat}, n < 16 → JsonGrammar.hexValue (hexDigit n) = some n :=
    fun h => CJson.hexValue_hexDigit h
  have hzero : JsonGrammar.hexValue 48 = some 0 := rfl
  simp [JsonGrammar.codeUnit, hzero, hdigit ha, hdigit hb]

/-- Control characters are escaped. -/
theorem le_of_escapeByte {c : UInt8} (h : escapeByte c = [c]) : 32 ≤ c := by
  rw [← UInt8.not_lt]
  intro hcontrol
  have hlen := congrArg List.length h
  unfold escapeByte at hlen
  split_ifs at hlen
  all_goals simp at hlen

/-- `json_escape` spells every byte. -/
theorem spells_escapeByte (c : UInt8) : JsonGrammar.Spells escapeByte c := by
  rcases CJson.escapeByte_cases c with ⟨e, hletter, hsimple, heq⟩ | ⟨hcontrol, heq⟩ |
    ⟨hquote, hmark, heq⟩
  · exact JsonGrammar.spells_short hletter (shortEscape_of_simpleEscape hsimple) heq
  · have hlt : c.toNat < 32 := by simpa using UInt8.lt_iff_toNat_lt.mp hcontrol
    refine JsonGrammar.spells_unit (by omega) ?_ heq
    rw [codeUnit_hexDigit (by omega) (by omega)]
    exact congrArg some (by omega)
  · exact JsonGrammar.spells_byte ⟨le_of_escapeByte heq, hquote, hmark⟩ heq

theorem readString_escapeAll (text rest : Bytes) :
    JsonGrammar.readString (escapeAll text ++ 34 :: rest) = some (text, rest) :=
  JsonGrammar.readString_flatMap (fun c _ => spells_escapeByte c) rest

/-- What `json_escape` printed reads back as the part it took. -/
theorem readString_jsonEscape {text : Bytes} (hzero : 0 ∉ text) (maxLen : Nat) :
    ∃ kept, (∀ rest, JsonGrammar.readString (jsonEscape text maxLen ++ 34 :: rest) =
        some (kept, rest)) ∧
      (kept = text ↔ Escapes maxLen text) := by
  obtain ⟨kept, cut, hsplit, hescape, -⟩ := jsonEscape_prefix text maxLen
  refine ⟨kept, fun rest => ?_, ?_⟩
  · rw [hescape]
    exact readString_escapeAll kept rest
  · rw [← jsonEscape_eq_iff hzero, hescape]
    constructor
    · intro h
      rw [h]
    · intro h
      have hread := readString_escapeAll kept []
      rw [h, readString_escapeAll] at hread
      exact (Prod.mk.inj (Option.some.inj hread)).1.symm

/-! ## Numbers -/

theorem digits_decimal (n : Nat) : JsonGrammar.Digits (decimal n) :=
  ⟨CJson.decimal_ne_nil n, fun _ hc => CJson.isDigit_of_mem_decimal hc⟩

/-- No number but zero begins with a zero. -/
theorem head_decimal {n : Nat} (h : 0 < n) : (decimal n).head? ≠ some 48 := by
  induction n using Nat.strong_induction_on with
  | _ n ih =>
      by_cases hsmall : n < 10
      · have hdigit : decimal n = [UInt8.ofNat n.digitChar.toNat] := by
          rw [decimal, Nat.toDigits_of_lt_base hsmall]
          rfl
        rw [hdigit]
        interval_cases n <;> decide
      · have hle : 10 ≤ n := Nat.le_of_not_lt hsmall
        have hsplit : decimal n = decimal (n / 10) ++ [UInt8.ofNat (n % 10).digitChar.toNat] := by
          rw [decimal, Nat.toDigits_of_base_le (by decide) hle, List.map_append]
          rfl
        rw [hsplit, List.head?_append_of_ne_nil _ (CJson.decimal_ne_nil _)]
        exact ih (n / 10) (by omega) (by omega)

/-- `%d` prints a number. -/
theorem isNumber_signedDecimal (n : Int) : JsonGrammar.IsNumber (signedDecimal n) := by
  have hint : ∀ m : Nat, (decimal m).head? = some 48 → decimal m = [48] := by
    intro m hhead
    rcases Nat.eq_zero_or_pos m with rfl | hpos
    · rfl
    · exact absurd hhead (head_decimal hpos)
  unfold signedDecimal
  split
  · exact ⟨[45], decimal n.natAbs, [], [], by simp, Or.inr rfl,
      ⟨digits_decimal _, hint _⟩, Or.inl rfl, Or.inl rfl⟩
  · exact ⟨[], decimal n.natAbs, [], [], by simp, Or.inl rfl,
      ⟨digits_decimal _, hint _⟩, Or.inl rfl, Or.inl rfl⟩

/-- Text that needs no escape is plain. -/
theorem plain_of_plainText {text : Bytes} (h : CJson.PlainText text) :
    JsonGrammar.Plain text := by
  intro c hc
  have hsame := (h c hc).2
  have hquote : escapeByte 34 ≠ [34] := by decide
  have hbackslash : escapeByte 92 ≠ [92] := by decide
  refine ⟨le_of_escapeByte hsame, fun heq => ?_, fun heq => ?_⟩
  · exact hquote (heq ▸ hsame)
  · exact hbackslash (heq ▸ hsame)

/-- A literal is plain when its characters are. -/
theorem plain_lit {cs : List Char}
    (h : cs.all fun c => 32 ≤ UInt8.ofNat c.toNat && UInt8.ofNat c.toNat ≠ 34 &&
      UInt8.ofNat c.toNat ≠ 92) :
    JsonGrammar.Plain (lit (String.ofList cs)) := by
  intro c hc
  rw [lit_ofList] at hc
  obtain ⟨d, hd, rfl⟩ := List.mem_map.mp hc
  simpa [and_assoc] using List.all_eq_true.mp h d hd

theorem isName_lit {cs : List Char}
    (h : cs.all fun c => 32 ≤ UInt8.ofNat c.toNat && UInt8.ofNat c.toNat ≠ 34 &&
      UInt8.ofNat c.toNat ≠ 92)
    (hhead : (cs.head?.map fun c => UInt8.ofNat c.toNat).any JsonGrammar.isLetter) :
    JsonGrammar.IsName (lit (String.ofList cs)) := by
  refine ⟨plain_lit h, ?_⟩
  rw [lit_ofList, List.head?_map]
  exact hhead

/-! ## Names that several objects have -/

theorem plain_type : JsonGrammar.Plain (lit "type") := plain_lit (by decide)

theorem plain_id : JsonGrammar.Plain (lit "id") := plain_lit (by decide)

theorem plain_previousResponseId : JsonGrammar.Plain (lit "previous_response_id") :=
  plain_lit (by decide)

theorem plain_status : JsonGrammar.Plain (lit "status") := plain_lit (by decide)

theorem plain_error : JsonGrammar.Plain (lit "error") := plain_lit (by decide)

theorem plain_response : JsonGrammar.Plain (lit "response") := plain_lit (by decide)

theorem plain_role : JsonGrammar.Plain (lit "role") := plain_lit (by decide)

theorem plain_createdAt : JsonGrammar.Plain (lit "created_at") := plain_lit (by decide)

theorem plain_metadata : JsonGrammar.Plain (lit "metadata") := plain_lit (by decide)

/-! ## Members -/

/-- A fixed string member. -/
def fixedMember (name text : Bytes) (hname : JsonGrammar.Plain name)
    (htext : JsonGrammar.Plain text) : JsonGrammar.Member :=
  ⟨name, JsonGrammar.quote text, .string text, hname, htext.prints⟩

theorem isNumber_decimal (n : Nat) : JsonGrammar.IsNumber (decimal n) := by
  have hnumber := isNumber_signedDecimal n
  rwa [signedDecimal, if_neg (by omega), Int.natAbs_natCast] at hnumber

end StarBridge
