import StarBridge.ToolRunner

/-!
# The strict arguments

Three tools take an object with one field, and the policy lets a call through
when its arguments are spelled so: white space, braces, the field, a string
without `\u` escapes and raw control characters.  `strict_args_exact` says that
up to 2046 bytes this is all there is to it; `decodeStringFrom_room` is why
nothing longer than 2047 bytes gets through, and `PlainString.decode` why the
runner, whose buffer is larger, takes the same value.
-/

namespace StarBridge

open CText

/-! ## The grammar -/

def Blank (w : Bytes) : Prop := ∀ c ∈ w, JsonGrammar.isBlank c = true

/-- The inside of a string without `\u` escapes and raw control characters, and
the value it spells. -/
inductive PlainString : Bytes → Bytes → Prop
  | done : PlainString [] []
  | byte {c : UInt8} {inside value : Bytes} (control : 32 ≤ c) (quote : c ≠ 34) (mark : c ≠ 92)
      (more : PlainString inside value) : PlainString (c :: inside) (c :: value)
  | escape {e b : UInt8} {inside value : Bytes} (short : JsonGrammar.shortEscape e = some b)
      (more : PlainString inside value) : PlainString (92 :: e :: inside) (b :: value)

/-- `ws { ws "field" ws : ws S ws } ws`, where `S` spells the value. -/
structure StrictArgs (field text value : Bytes) : Prop where
  spelled : ∃ w₁ w₂ w₃ w₄ w₅ w₆ inside, Blank w₁ ∧ Blank w₂ ∧ Blank w₃ ∧ Blank w₄ ∧ Blank w₅ ∧
    Blank w₆ ∧ PlainString inside value ∧
    text = w₁ ++ 123 :: (w₂ ++ 34 :: (field ++ 34 :: (w₃ ++ 58 :: (w₄ ++ 34 :: (inside ++
      34 :: (w₅ ++ 125 :: w₆))))))
  nonempty : value ≠ []

/-- The tools whose arguments the policy reads. -/
inductive StrictTool
  | googleSearch
  | browseUrl
  | shellCommand
  deriving DecidableEq, Repr

def StrictTool.name : StrictTool → Bytes
  | .googleSearch => lit "google_search"
  | .browseUrl => lit "browse_url"
  | .shellCommand => lit "shell_command"

def StrictTool.field : StrictTool → Bytes
  | .googleSearch => lit "query"
  | .browseUrl => lit "url"
  | .shellCommand => lit "command"

/-! ## White space -/

theorem skipWs_append {w : Bytes} (hw : Blank w) (s : Bytes) : skipWs (w ++ s) = skipWs s := by
  rw [skipWs_eq_skip, skipWs_eq_skip]
  exact List.dropWhile_append_of_pos hw

theorem skipWs_cons {c : UInt8} (hc : JsonGrammar.isBlank c = false) (s : Bytes) :
    skipWs (c :: s) = c :: s := by
  rw [skipWs_eq_skip]
  exact JsonGrammar.skip_cons hc s

theorem Blank.skipWs_to {w : Bytes} (hw : Blank w) {c : UInt8}
    (hc : JsonGrammar.isBlank c = false) (s : Bytes) : skipWs (w ++ c :: s) = c :: s := by
  rw [skipWs_append hw, skipWs_cons hc]

theorem Blank.skipWs_all {w : Bytes} (hw : Blank w) : skipWs w = [] := by
  have hall := skipWs_append hw []
  rwa [List.append_nil] at hall

/-- What the scanner skipped. -/
theorem exists_blank (s : Bytes) : ∃ w, Blank w ∧ s = w ++ skipWs s := by
  refine ⟨s.takeWhile JsonGrammar.isBlank, fun c hc => List.mem_takeWhile_imp hc, ?_⟩
  rw [skipWs_eq_skip]
  exact List.takeWhile_append_dropWhile.symm

/-! ## The value -/

theorem simpleEscape_eq_shortEscape (e : UInt8) :
    CJson.simpleEscape e = JsonGrammar.shortEscape e := by
  cases hshort : JsonGrammar.shortEscape e with
  | some b =>
      unfold JsonGrammar.shortEscape at hshort
      unfold CJson.simpleEscape
      split_ifs at hshort with h₁ h₂ h₃ h₄ h₅ h₆
      all_goals cases hshort
      · rcases h₁ with rfl | rfl | rfl
        all_goals rfl
      all_goals
        subst e
        rfl
  | none =>
      cases hsimple : CJson.simpleEscape e with
      | none => rfl
      | some b =>
          rw [shortEscape_of_simpleEscape hsimple] at hshort
          cases hshort

/-- The scanner reads a plain string. -/
theorem decodeStringFrom_spelled {maxLen : Nat} {s : Bytes} {i : Nat} {value left : Bytes}
    (h : decodeStringFrom maxLen s i = some (value, left)) :
    ∃ inside, PlainString inside value ∧ s = inside ++ 34 :: left := by
  induction value generalizing s i with
  | nil =>
      rcases decodeStringFrom_cases h with ⟨rfl, -⟩ | ⟨e, b, rest, value', -, -, -, -, hnil⟩ |
        ⟨c, rest, value', -, -, -, -, -, hnil⟩
      · exact ⟨[], .done, rfl⟩
      · cases hnil
      · cases hnil
  | cons b value ih =>
      rcases decodeStringFrom_cases h with ⟨-, hnil⟩ |
        ⟨e, b', rest, value', rfl, hescape, -, hrest, heq⟩ |
        ⟨c, rest, value', rfl, hquote, hmark, hroom, hrest, heq⟩
      · cases hnil
      · cases heq
        obtain ⟨inside, hinside, rfl⟩ := ih hrest
        exact ⟨92 :: e :: inside, .escape (shortEscape_of_simpleEscape hescape) hinside, rfl⟩
      · cases heq
        obtain ⟨inside, hinside, rfl⟩ := ih hrest
        have hcontrol : 32 ≤ b := UInt8.not_lt.mp fun hlt => hroom (Or.inl hlt)
        exact ⟨b :: inside, .byte hcontrol hquote hmark hinside, rfl⟩

/-- What the scanner took leaves room for the end of the text. -/
theorem decodeStringFrom_room {maxLen : Nat} {s : Bytes} {i : Nat} {value left : Bytes}
    (h : decodeStringFrom maxLen s i = some (value, left)) :
    value = [] ∨ i + value.length < maxLen := by
  induction value generalizing s i with
  | nil => exact Or.inl rfl
  | cons b value ih =>
      right
      rw [List.length_cons]
      rcases decodeStringFrom_cases h with ⟨-, hnil⟩ |
        ⟨e, b', rest, value', -, -, hroom, hrest, heq⟩ |
        ⟨c, rest, value', -, -, -, hroom, hrest, heq⟩
      · cases hnil
      · cases heq
        rcases ih hrest with rfl | hlt
        · rw [List.length_nil]
          omega
        · omega
      · cases heq
        have hfits : ¬ maxLen ≤ i + 1 := fun hfull => hroom (Or.inr hfull)
        rcases ih hrest with rfl | hlt
        · rw [List.length_nil]
          omega
        · omega

/-- A plain string is read, where one byte more than its value has room. -/
theorem PlainString.decode {inside value : Bytes} (h : PlainString inside value) {maxLen i : Nat}
    (hroom : i + value.length + 2 ≤ maxLen) (left : Bytes) :
    decodeStringFrom maxLen (inside ++ 34 :: left) i = some (value, left) := by
  induction h generalizing i with
  | done =>
      rw [List.nil_append, decodeStringFrom.eq_def]
      dsimp only
      rw [if_pos rfl]
  | @byte c inside value control quote mark more ih =>
      rw [List.length_cons] at hroom
      have hfits : ¬ (c < 32 ∨ maxLen ≤ i + 1) := by
        rintro (hlt | hfull)
        · exact UInt8.not_lt.mpr control hlt
        · omega
      rw [List.cons_append, decodeStringFrom.eq_def]
      dsimp only
      rw [if_neg quote, if_neg mark, if_neg hfits, ih (by omega)]
      rfl
  | @escape e b inside value short more ih =>
      rw [List.length_cons] at hroom
      rw [List.cons_append, List.cons_append, decodeStringFrom.eq_def]
      dsimp only
      rw [if_neg (by decide), if_pos rfl, simpleEscape_eq_shortEscape, short]
      dsimp only
      rw [if_neg (by omega), ih (by omega)]
      rfl

/-- No escape stands for a letter, so that a key of letters is there as it is. -/
theorem PlainString.eq_of_letters {inside value : Bytes} (h : PlainString inside value)
    (hletters : ∀ c ∈ value, 97 ≤ c) : inside = value := by
  induction h with
  | done => rfl
  | byte _ _ _ _ ih => rw [ih fun c hc => hletters c (List.mem_cons_of_mem _ hc)]
  | @escape e b inside value short _ ih =>
      have hletter : 97 ≤ b := hletters b List.mem_cons_self
      unfold JsonGrammar.shortEscape at short
      split_ifs at short with h₁ h₂ h₃ h₄ h₅ h₆
      all_goals cases short
      · rcases h₁ with rfl | rfl | rfl
        all_goals exact absurd hletter (by decide)
      all_goals exact absurd hletter (by decide)

theorem plainString_letters {value : Bytes} (hletters : ∀ c ∈ value, 97 ≤ c) :
    PlainString value value := by
  induction value with
  | nil => exact .done
  | cons c value ih =>
      have hletter : 97 ≤ c := hletters c List.mem_cons_self
      refine .byte (UInt8.le_trans (by decide) hletter) ?_ ?_
        (ih fun d hd => hletters d (List.mem_cons_of_mem _ hd))
      · rintro rfl
        exact absurd hletter (by decide)
      · rintro rfl
        exact absurd hletter (by decide)

/-! ## The object -/

/-- A field the key buffer takes and no escape spells. -/
structure IsKey (field : Bytes) : Prop where
  letters : ∀ c ∈ field, 97 ≤ c
  fits : field.length + 2 ≤ 64

theorem StrictTool.isKey (tool : StrictTool) : IsKey tool.field := by
  cases tool with
  | googleSearch => exact ⟨by decide +kernel, by decide +kernel⟩
  | browseUrl => exact ⟨by decide +kernel, by decide +kernel⟩
  | shellCommand => exact ⟨by decide +kernel, by decide +kernel⟩

/-- What is extracted was spelled strictly. -/
theorem strictArgs_of_extract {maxLen : Nat} {field text value : Bytes} (hkey : IsKey field)
    (h : extractObjectStringField maxLen text field = some value) :
    StrictArgs field text value ∧ value.length < maxLen := by
  obtain ⟨p₁, p₂, p₃, p₄, p₅, hfield⟩ := extract_eq_some h
  obtain ⟨k, hk, hdecodeKey⟩ := decodeJsonStringValue_eq_some hfield.reads_key
  obtain ⟨v, hv, hdecode⟩ := decodeJsonStringValue_eq_some hfield.reads_value
  obtain ⟨name, hname, rfl⟩ := decodeStringFrom_spelled hdecodeKey
  obtain ⟨inside, hinside, rfl⟩ := decodeStringFrom_spelled hdecode
  obtain ⟨w₁, hw₁, htext⟩ := exists_blank text
  obtain ⟨w₂, hw₂, hp₁⟩ := exists_blank p₁
  obtain ⟨w₃, hw₃, hp₂⟩ := exists_blank p₂
  obtain ⟨w₄, hw₄, hp₃⟩ := exists_blank p₃
  obtain ⟨w₅, hw₅, hp₄⟩ := exists_blank p₄
  obtain ⟨w₆, hw₆, hp₅⟩ := exists_blank p₅
  rw [hname.eq_of_letters hkey.letters] at hk
  rw [hfield.opens] at htext
  rw [hk] at hp₁
  rw [hfield.colon] at hp₂
  rw [hv] at hp₃
  rw [hfield.closes] at hp₄
  rw [hfield.ends, List.append_nil] at hp₅
  have hspelled : text = w₁ ++ 123 :: (w₂ ++ 34 :: (field ++ 34 :: (w₃ ++ 58 :: (w₄ ++ 34 ::
      (inside ++ 34 :: (w₅ ++ 125 :: w₆)))))) := by
    rw [htext, hp₁, hp₂, hp₃, hp₄, hp₅]
  refine ⟨⟨⟨w₁, w₂, w₃, w₄, w₅, w₆, inside, hw₁, hw₂, hw₃, hw₄, hw₅, hw₆, hinside, hspelled⟩,
    hfield.nonempty⟩, ?_⟩
  rcases decodeStringFrom_room hdecode with hnil | hlt
  · exact absurd hnil hfield.nonempty
  · omega

/-- What is spelled strictly is extracted, where the value has room. -/
theorem StrictArgs.extract {field text value : Bytes} (h : StrictArgs field text value)
    (hkey : IsKey field) {maxLen : Nat} (hroom : value.length + 2 ≤ maxLen) :
    extractObjectStringField maxLen text field = some value := by
  obtain ⟨w₁, w₂, w₃, w₄, w₅, w₆, inside, hw₁, hw₂, hw₃, hw₄, hw₅, hw₆, hinside, rfl⟩ :=
    h.spelled
  have hfits : 0 + field.length + 2 ≤ 64 := by
    have := hkey.fits
    omega
  have hfield : HasField maxLen _ field value _ _ _ _ _ :=
    { opens := hw₁.skipWs_to (by decide) _
      reads_key := by
        rw [hw₂.skipWs_to (c := 34) (by decide), decodeJsonStringValue, if_pos rfl]
        exact (plainString_letters hkey.letters).decode hfits _
      colon := hw₃.skipWs_to (by decide) _
      reads_value := by
        rw [hw₄.skipWs_to (c := 34) (by decide), decodeJsonStringValue, if_pos rfl]
        exact hinside.decode (by omega) _
      closes := hw₅.skipWs_to (by decide) _
      ends := hw₆.skipWs_all
      nonempty := h.nonempty }
  exact hfield.extract

/-- More room, the same value. -/
theorem extract_mono {small large : Nat} (hle : small ≤ large) {field text value : Bytes}
    (h : extractObjectStringField small text field = some value) :
    extractObjectStringField large text field = some value := by
  obtain ⟨p₁, p₂, p₃, p₄, p₅, hfield⟩ := extract_eq_some h
  exact (hfield.mono hle).extract

/-- A text spells one value. -/
theorem StrictArgs.value_eq {field text value value' : Bytes} (h : StrictArgs field text value)
    (hkey : IsKey field) {maxLen : Nat}
    (hextract : extractObjectStringField maxLen text field = some value') : value = value' := by
  have hlarge := h.extract hkey (le_max_right maxLen (value.length + 2))
  rw [extract_mono (le_max_left maxLen (value.length + 2)) hextract] at hlarge
  exact (Option.some.inj hlarge).symm

/-! ## The policy -/

theorem StrictTool.name_ne_nil (tool : StrictTool) : tool.name ≠ [] := by
  cases tool with
  | googleSearch => decide +kernel
  | browseUrl => decide +kernel
  | shellCommand => decide +kernel

theorem toolPolicyArgsValid_name (tool : StrictTool) {text : Bytes} (htext : text ≠ []) :
    toolPolicyArgsValid tool.name text = toolArgsExactObjectField text tool.field := by
  have hsome : ¬ (tool.name = [] ∨ text = []) := not_or.mpr ⟨tool.name_ne_nil, htext⟩
  rw [toolPolicyArgsValid, if_neg hsome]
  cases tool with
  | googleSearch => exact if_pos rfl
  | browseUrl =>
      have hne : StrictTool.browseUrl.name ≠ lit "google_search" := by decide +kernel
      rw [if_neg hne]
      exact if_pos rfl
  | shellCommand =>
      have hne : StrictTool.shellCommand.name ≠ lit "google_search" ∧
          StrictTool.shellCommand.name ≠ lit "browse_url" := by decide +kernel
      rw [if_neg hne.1, if_neg hne.2]
      exact if_pos rfl

/-- What the policy asks of the arguments of a strict tool. -/
theorem toolPolicyArgsValid_strict (tool : StrictTool) (text : Bytes) :
    toolPolicyArgsValid tool.name text = true ↔
      ∃ value, extractObjectStringField 2048 text tool.field = some value := by
  by_cases htext : text = []
  · subst htext
    have hrefused : toolPolicyArgsValid tool.name [] = false := if_pos (Or.inr rfl)
    rw [hrefused]
    constructor
    · intro h
      cases h
    · rintro ⟨value, hvalue⟩
      cases hvalue
  · rw [toolPolicyArgsValid_name tool htext, toolArgsExactObjectField_eq]
    exact Option.isSome_iff_exists

/-- What it means that the arguments of a tool are recognised. -/
structure Recognised (tool : StrictTool) (text : Bytes) : Prop where
  exact_form : (∀ value, StrictArgs tool.field text value → value.length ≤ 2046) →
    (toolPolicyArgsValid tool.name text = true ↔ ∃ value, StrictArgs tool.field text value)
  bounded : toolPolicyArgsValid tool.name text = true →
    ∀ value, StrictArgs tool.field text value → value.length ≤ 2047
  agrees : toolPolicyArgsValid tool.name text = true →
    ∃ value, StrictArgs tool.field text value ∧
      extractObjectStringField 4096 text tool.field = some value

/-- **Strict arguments are recognised exactly**, whatever the text. -/
theorem strict_args_exact (tool : StrictTool) (text : Bytes) : Recognised tool text := by
  constructor
  · intro hshort
    rw [toolPolicyArgsValid_strict]
    constructor
    · rintro ⟨value, hvalue⟩
      exact ⟨value, (strictArgs_of_extract tool.isKey hvalue).1⟩
    · rintro ⟨value, hvalue⟩
      have hlen := hshort value hvalue
      exact ⟨value, hvalue.extract tool.isKey (by omega)⟩
  · intro hvalid value hvalue
    obtain ⟨value', hextract⟩ := (toolPolicyArgsValid_strict tool text).mp hvalid
    have hlt := (strictArgs_of_extract tool.isKey hextract).2
    rw [hvalue.value_eq tool.isKey hextract]
    omega
  · intro hvalid
    obtain ⟨value, hextract⟩ := (toolPolicyArgsValid_strict tool text).mp hvalid
    exact ⟨value, (strictArgs_of_extract tool.isKey hextract).1,
      extract_mono (by decide) hextract⟩

end StarBridge
