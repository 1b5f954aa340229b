import StarBridge.RequestTexts

/-!
# Which requests are accepted

A body passes two functions.  `codex_validate_request_schema` looks at the members,
`codex_parse_request` at the text that comes of them, and refuses a text that is empty.
In front of the input that text has the instructions, the previous response id and the
metadata; so an input without any text is refused only where these are missing as well,
which is what `request_accepted_iff` says.
-/

namespace StarBridge

open CText Loops

namespace RequestParser

/-! ## The text without a limit -/

/-- What is in front of the input. -/
def headText (cfg : RequestConfig) (obj : CJson) : Bytes :=
  (requestFields cfg obj).headPieces.flatten

/-- What the items of an array add behind `dest`. -/
def itemsText (printNumber : Bytes → Bytes) : Bytes → List CJson → Bytes
  | _, [] => []
  | dest, obj :: rest =>
      let added := ((parseInputItem printNumber obj).pieces dest).flatten
      added ++ itemsText printNumber (dest ++ added) rest

/-- What the input adds. -/
def inputText (cfg : RequestConfig) (obj : CJson) : Bytes :=
  match CJson.getObjectItem obj (lit "input") with
  | some (.string value) => cstr value
  | some (.array items) => itemsText cfg.printNumber (headText cfg obj) items
  | _ => []

/-- The normalised text of a body. -/
def bodyText (cfg : RequestConfig) (obj : CJson) : Bytes := headText cfg obj ++ inputText cfg obj

/-- The error of a text beyond the limit. -/
def tooLarge : HarnessError :=
  setError (lit "request_input_too_large")
    (lit "request input too large: exceeds max_request_input_bytes")

variable {cfg : RequestConfig}

theorem appendAll_eq (pieces : List Bytes) {dest : Bytes} (h : dest.length ≤ cfg.inputLimit) :
    appendAll cfg dest pieces =
      if (dest ++ pieces.flatten).length ≤ cfg.inputLimit then .running (dest ++ pieces.flatten)
      else .ended tooLarge := by
  induction pieces generalizing dest with
  | nil =>
      rw [List.flatten_nil, List.append_nil, if_pos h]
      rfl
  | cons piece rest ih =>
      rw [appendAll, run_cons, appendOwned, List.flatten_cons, ← List.append_assoc]
      by_cases hfits : cfg.inputLimit < dest.length + piece.length
      · rw [if_pos hfits, if_neg]
        · rfl
        · simp only [List.length_append]
          omega
      · rw [if_neg hfits]
        refine ih ?_
        rw [List.length_append]
        omega

/-- The loop over the items comes to their text, if that is within the limit. -/
theorem parseInputArray_eq (items : List CJson) (stored : List InputItem) {dest : Bytes}
    (h : dest.length ≤ cfg.inputLimit) :
    run (parseArrayItem cfg) (stored, dest) items =
      if (dest ++ itemsText cfg.printNumber dest items).length ≤ cfg.inputLimit then
        .running (stored ++ items.map (parseInputItem cfg.printNumber),
          dest ++ itemsText cfg.printNumber dest items)
      else .ended tooLarge := by
  induction items generalizing stored dest with
  | nil =>
      rw [itemsText, List.append_nil, if_pos h, List.map_nil, List.append_nil]
      rfl
  | cons obj rest ih =>
      rw [run_cons, parseArrayItem, normalizeTextItem, appendAll_eq _ h, itemsText]
      dsimp only
      rw [← List.append_assoc]
      generalize dest ++ ((parseInputItem cfg.printNumber obj).pieces dest).flatten = more
      by_cases hfits : more.length ≤ cfg.inputLimit
      · rw [if_pos hfits]
        simp only [Progress.bind_running]
        rw [ih _ hfits, List.map_cons, List.append_assoc, List.singleton_append]
      · rw [if_neg hfits, if_neg]
        · rfl
        · rw [List.length_append]
          omega

/-- Behind the head, the input. -/
theorem readInput_eq {obj : CJson} (h : (headText cfg obj).length ≤ cfg.inputLimit) :
    readInput cfg obj (headText cfg obj) =
      if (bodyText cfg obj).length ≤ cfg.inputLimit then
        .running (((obj.getArray (lit "input")).getD []).map (parseInputItem cfg.printNumber),
          bodyText cfg obj)
      else .ended tooLarge := by
  have hnothing : inputText cfg obj = [] → bodyText cfg obj = headText cfg obj := by
    intro hnil
    rw [bodyText, hnil, List.append_nil]
  unfold readInput CJson.getArray
  cases hinput : CJson.getObjectItem obj (lit "input") with
  | none =>
      rw [hnothing (by rw [inputText, hinput]), if_pos h]
      rfl
  | some value =>
      cases value with
      | string value =>
          have htext : bodyText cfg obj = headText cfg obj ++ cstr value := by
            rw [bodyText, inputText, hinput]
          rw [htext]
          dsimp only
          unfold appendOwned
          by_cases hfits : cfg.inputLimit < (headText cfg obj).length + (cstr value).length
          · rw [if_pos hfits, if_neg (by rw [List.length_append]; omega)]
            rfl
          · rw [if_neg hfits, if_pos (by rw [List.length_append]; omega)]
            rfl
      | array items =>
          have htext : bodyText cfg obj =
              headText cfg obj ++ itemsText cfg.printNumber (headText cfg obj) items := by
            rw [bodyText, inputText, hinput]
          rw [htext]
          exact parseInputArray_eq items [] h
      | null | bool | number | object =>
          rw [hnothing (by rw [inputText, hinput]), if_pos h]
          rfl

/-- A body is accepted by the parser iff its text is within the limit and not empty. -/
theorem parseObject_isOk_iff {obj : CJson}
    (h : (CJson.getObjectItem obj (lit "input")).isSome = true) :
    (∃ req, parseObject cfg obj = .ok req) ↔
      (bodyText cfg obj).length ≤ cfg.inputLimit ∧ bodyText cfg obj ≠ [] := by
  have hgiven : ¬ ((requestFields cfg obj).explicitToolCall = true ∧
      (CJson.getObjectItem obj (lit "input")).isNone = true) := by
    intro hexplicit
    have hnone := Option.isNone_iff_eq_none.mp hexplicit.2
    rw [hnone] at h
    cases h
  have hread := appendAll_eq (requestFields cfg obj).headPieces
    (show ([] : Bytes).length ≤ cfg.inputLimit from Nat.zero_le _)
  rw [List.nil_append] at hread
  change _ = if (headText cfg obj).length ≤ cfg.inputLimit then
    Progress.running (headText cfg obj) else _ at hread
  have hle : (headText cfg obj).length ≤ (bodyText cfg obj).length := by
    rw [bodyText, List.length_append]
    exact Nat.le_add_right _ _
  unfold parseObject
  dsimp only
  rw [if_neg hgiven, normalizeRequestText, hread]
  by_cases hfits : (bodyText cfg obj).length ≤ cfg.inputLimit
  · have hhead := hle.trans hfits
    rw [if_pos hhead, Progress.bind_running, readInput_eq hhead, if_pos hfits]
    dsimp only
    unfold acceptNonempty
    by_cases hempty : bodyText cfg obj = []
    · simp [hempty]
    · simp [hempty, hfits]
  · have hended : (if (headText cfg obj).length ≤ cfg.inputLimit then
        Progress.running (headText cfg obj) else .ended tooLarge).bind (readInput cfg obj) =
          .ended tooLarge := by
      by_cases hhead : (headText cfg obj).length ≤ cfg.inputLimit
      · rw [if_pos hhead, Progress.bind_running, readInput_eq hhead, if_neg hfits]
      · rw [if_neg hhead]
        rfl
    rw [hended]
    simp [hfits]

/-! ## Acceptance -/

/-- A body that both functions take. -/
def Accepted (cfg : RequestConfig) (body : Bytes) : Prop :=
  codexValidateRequestSchema body = none ∧ ∃ req, codexParseRequest cfg body = .ok req

/-- A member that is a boolean, if it is there. -/
def BoolIfPresent (obj : CJson) (field : Bytes) : Prop :=
  ∀ value, CJson.getObjectItem obj field = some value → ∃ b, value = .bool b

/-- What the schema asks of an object, and that its text is within the limit. -/
structure WellShaped (cfg : RequestConfig) (obj : CJson) : Prop where
  input : ∃ value, CJson.getObjectItem obj (lit "input") = some value ∧
    ((∃ text, value = .string text) ∨ ∃ items, value = .array items)
  stream : BoolIfPresent obj (lit "stream")
  reset : BoolIfPresent obj (lit "reset_session")
  within : (bodyText cfg obj).length ≤ cfg.inputLimit

/-- A body whose input says something. -/
def Acceptable (cfg : RequestConfig) (body : Bytes) : Prop :=
  ∃ members, CJson.parse body = some (.object members) ∧
    WellShaped cfg (.object members) ∧ inputText cfg (.object members) ≠ []

/-- A body whose input says nothing, with something in front of it. -/
def HeadAlone (cfg : RequestConfig) (body : Bytes) : Prop :=
  ∃ members, CJson.parse body = some (.object members) ∧
    WellShaped cfg (.object members) ∧ inputText cfg (.object members) = [] ∧
      headText cfg (.object members) ≠ []

theorem notBool_eq_false_iff {obj : CJson} {field : Bytes} :
    notBool obj field = false ↔ BoolIfPresent obj field := by
  unfold notBool BoolIfPresent
  cases CJson.getObjectItem obj field with
  | none => simp
  | some value => cases value <;> simp

theorem cstr_ne_nil_of_parse {body : Bytes} {value : CJson} (h : CJson.parse body = some value) :
    cstr body ≠ [] := by
  intro hnil
  have hempty : (CJson.parse []).isNone = true := by decide
  have hsame : CJson.parse body = CJson.parse [] := by
    rw [CJson.parse, hnil]
    rfl
  rw [← hsame, h] at hempty
  cases hempty

/-- The schema, member by member. -/
theorem validate_eq_none_iff {body : Bytes} {members : List (Bytes × CJson)}
    (h : CJson.parse body = some (.object members)) :
    codexValidateRequestSchema body = none ↔
      (∃ value, CJson.getObjectItem (.object members) (lit "input") = some value ∧
          ((∃ text, value = .string text) ∨ ∃ items, value = .array items)) ∧
        BoolIfPresent (.object members) (lit "stream") ∧
        BoolIfPresent (.object members) (lit "reset_session") := by
  rw [← notBool_eq_false_iff, ← notBool_eq_false_iff, codexValidateRequestSchema,
    if_neg (cstr_ne_nil_of_parse h), h]
  dsimp only
  cases CJson.getObjectItem (.object members) (lit "input") with
  | none => simp
  | some value => cases value <;> simp <;> grind

/-- **What is accepted**: a body of the right shape whose text is not empty. -/
theorem accepted_iff {body : Bytes} {members : List (Bytes × CJson)}
    (h : CJson.parse body = some (.object members)) :
    Accepted cfg body ↔
      WellShaped cfg (.object members) ∧ bodyText cfg (.object members) ≠ [] := by
  have hparse : codexParseRequest cfg body = parseObject cfg (.object members) := by
    rw [codexParseRequest, h]
  unfold Accepted
  rw [validate_eq_none_iff h, hparse]
  constructor
  · intro haccepted
    obtain ⟨⟨hinput, hstream, hreset⟩, hok⟩ := haccepted
    have hsome : (CJson.getObjectItem (.object members) (lit "input")).isSome = true := by
      obtain ⟨value, hvalue, _⟩ := hinput
      exact Option.isSome_of_eq_some hvalue
    obtain ⟨hwithin, hne⟩ := (parseObject_isOk_iff hsome).mp hok
    exact ⟨⟨hinput, hstream, hreset, hwithin⟩, hne⟩
  · intro hshaped
    obtain ⟨hshaped, hne⟩ := hshaped
    have hsome : (CJson.getObjectItem (.object members) (lit "input")).isSome = true := by
      obtain ⟨value, hvalue, _⟩ := hshaped.input
      exact Option.isSome_of_eq_some hvalue
    exact ⟨⟨hshaped.input, hshaped.stream, hshaped.reset⟩,
      (parseObject_isOk_iff hsome).mpr ⟨hshaped.within, hne⟩⟩

/-- **Acceptance**: the two functions take exactly the bodies whose input says something,
unless an input without text stands behind a head that has one. -/
theorem request_accepted_iff (cfg : RequestConfig) (body : Bytes) :
    (Accepted cfg body ↔ Acceptable cfg body) ↔ ¬ HeadAlone cfg body := by
  by_cases hobject : ∃ members, CJson.parse body = some (.object members)
  · obtain ⟨members, hparse⟩ := hobject
    have hthis : ∀ P : List (Bytes × CJson) → Prop,
        (∃ members, CJson.parse body = some (.object members) ∧ P members) ↔ P members := by
      intro P
      rw [hparse]
      grind
    rw [accepted_iff hparse, Acceptable, HeadAlone, hthis, hthis, bodyText]
    simp only [ne_eq, List.append_eq_nil_iff]
    grind
  · have hrefused : ¬ Accepted cfg body := by
      intro haccepted
      obtain ⟨req, hreq⟩ := haccepted.2
      unfold codexParseRequest at hreq
      split at hreq
      · next members hparse => exact hobject ⟨members, hparse⟩
      · cases hreq
    have hnone : ∀ P : List (Bytes × CJson) → Prop,
        ¬ ∃ members, CJson.parse body = some (.object members) ∧ P members := by
      intro P h
      obtain ⟨members, hparse, _⟩ := h
      exact hobject ⟨members, hparse⟩
    exact iff_of_true (iff_of_false hrefused (hnone _)) (hnone _)

/-- Instructions, and an empty input. -/
def headAloneBody : Bytes := lit "\x7b\"instructions\":\"Be brief.\",\"input\":\"\"\x7d"

theorem request_accepted_fails :
    ¬ ∀ cfg body, Accepted cfg body ↔ Acceptable cfg body := by
  intro h
  have hschema : codexValidateRequestSchema headAloneBody = none := by decide +kernel
  have htaken : (codexParseRequest shippedConfig headAloneBody).toOption.isSome = true := by
    decide +kernel
  have hnothing : (CJson.parse headAloneBody).map (inputText shippedConfig) = some [] := by
    decide +kernel
  have haccepted : Accepted shippedConfig headAloneBody := by
    refine ⟨hschema, ?_⟩
    cases hparse : codexParseRequest shippedConfig headAloneBody with
    | error error =>
        rw [hparse] at htaken
        cases htaken
    | ok req => exact ⟨req, rfl⟩
  obtain ⟨members, hparse, _, htext⟩ := (h _ _).mp haccepted
  rw [hparse] at hnothing
  exact htext (Option.some.inj hnothing)

end RequestParser

end StarBridge
