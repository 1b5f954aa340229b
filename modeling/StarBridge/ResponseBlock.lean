import StarBridge.JsonText

/-!
# The answer to a non-streaming request

`handle_response_block` turns the output buffer of a turn into a response
object, prints it as JSON, and checks its own print before it sends it.  On the
way the text goes through a content buffer, an optional limit on its length, a
text item of 65535 bytes and an escape buffer of 65536: the first two report
what they cut in `incomplete_details`, the other two do not.
-/

namespace StarBridge

open CText

/-- The settings the writer reads. -/
structure BlockConfig where
  maxOutputBuffer : Nat
  maxOutputChars : Int
  codexModel : Bytes
  codexModelAlias : Bytes

/-- The model name in the answer. -/
def BlockConfig.model (cfg : BlockConfig) : Bytes :=
  if cfg.codexModelAlias = [] then cfg.codexModel else cfg.codexModelAlias

/-- `ResponseObject`, of a completed response with text items. -/
structure ResponseObject where
  id : Bytes
  object : Bytes
  createdAt : Nat
  status : Bytes
  model : Bytes
  output : List Bytes
  finishReason : Bytes
  incompleteDetails : Bytes
  deriving DecidableEq, Repr

/-- `resp_init`. -/
def respInit (model : Bytes) (now : Nat) : ResponseObject where
  id := []
  object := lit "response"
  createdAt := now
  status := lit "completed"
  model := clip 128 model
  output := []
  finishReason := lit "stop"
  incompleteDetails := []

/-- `resp_set_id`. -/
def ResponseObject.setId (r : ResponseObject) (id : Bytes) : ResponseObject :=
  { r with id := clip 64 id }

/-- `resp_add_text`: an item holds 65535 bytes, a response 64 items. -/
def ResponseObject.addText (r : ResponseObject) (text : Bytes) : ResponseObject :=
  if 64 ≤ r.output.length then r
  else { r with output := r.output ++ [clip 65536 text] }

/-- The response object of `codex_serialize_text_response_with_details`. -/
def textResponse (id model text incompleteDetails : Bytes) (now : Nat) :
    ResponseObject :=
  let r := (respInit model now).setId (if id = [] then lit "resp-block" else id)
  { r.addText text with incompleteDetails := clip 128 incompleteDetails }

/-! ## Printing -/

/-- What `json_escape_into` writes of a text. -/
def escapedItem (text : Bytes) : Bytes := jsonEscape text 65536

/-- One text item. -/
def textItemJson (text : Bytes) : Bytes :=
  lit "\x7b\"type\":\"text\",\"text\":\"" ++ escapedItem text ++
    lit "\",\"annotations\":[]\x7d"

/-- The items, with a comma and a line break between them. -/
def outputJson : List Bytes → Bytes
  | [] => []
  | [text] => textItemJson text
  | text :: rest => textItemJson text ++ lit ",\n" ++ outputJson rest

/-- `resp_to_json`, of a response without an error and without usage. -/
def respToJson (r : ResponseObject) : Bytes :=
  lit "\x7b\n\"id\":\"" ++ (if r.id = [] then lit "resp-unknown" else r.id) ++
    lit "\",\n\"object\":\"" ++ r.object ++
    lit "\",\n\"created_at\":" ++ decimal r.createdAt ++
    lit ",\n\"status\":\"" ++ r.status ++
    lit "\",\n\"model\":\"" ++ r.model ++
    lit "\",\n\"output\":[\n" ++ outputJson r.output ++
    lit "],\n\"error\":null,\n\"finish_reason\":\"" ++ r.finishReason ++ lit "\"" ++
    (if r.incompleteDetails = [] then []
     else lit ",\n\"incomplete_details\":\"" ++ jsonEscape r.incompleteDetails 256 ++
       lit "\"") ++
    lit "\n\x7d\n"

/-- The fields a response must have, in the order they are looked for. -/
def requiredFields : List Bytes :=
  [lit "id", lit "object", lit "created_at", lit "status", lit "model", lit "output"]

/-- The error for a missing field. -/
def missingField (field : Bytes) : Bytes :=
  lit "missing required field '" ++ field ++ lit "'"

/-- `codex_validate_response_json`: the error, if there is one. -/
def codexValidateResponseJson (json : Bytes) : Option Bytes :=
  if cstr json = [] then some (lit "empty response body")
  else
    match CJson.parse json with
    | some (.object members) =>
        match requiredFields.find? fun field =>
            (CJson.getObjectItem (.object members) field).isNone with
        | some field => some (missingField field)
        | none =>
            if (CJson.getArray (.object members) (lit "output")).isNone then
              some (lit "field 'output' must be an array")
            else none
    | _ => some (lit "response must be a JSON object")

/-- `codex_serialize_error`. -/
def codexSerializeError (message : Bytes) : Bytes :=
  clip 8192
    (lit "\x7b\"id\":\"resp-error\",\"object\":\"response\",\"status\":\"failed\",\"error\":\x7b\"message\":\"" ++
      jsonEscape message 512 ++ lit "\"\x7d\x7d\n")

/-! ## The writer -/

/-- What goes out: the response with status 200, or an error with status
500. -/
inductive BlockReply
  | response (object : ResponseObject) (body : Bytes)
  | error (body : Bytes)
  deriving DecidableEq, Repr

/-- The content of the answer and the reason it is incomplete, if it is. -/
def blockContent (cfg : BlockConfig) (outBuf : Bytes) (eventLimited : Bool) :
    Bytes × Bytes :=
  let truncatedBuffer : Bool := decide (cfg.maxOutputBuffer - 1 ≤ outBuf.length)
  let content := clip cfg.maxOutputBuffer outBuf
  let truncatedChars : Bool :=
    decide (0 < cfg.maxOutputChars ∧ cfg.maxOutputChars.toNat < content.length)
  let content := if truncatedChars then content.take cfg.maxOutputChars.toNat else content
  (content,
    if truncatedBuffer then lit "max_output_buffer"
    else if truncatedChars then lit "max_output_chars"
    else if eventLimited then lit "max_turn_events"
    else [])

/-- `handle_response_block` for a framed turn. -/
def handleResponseBlock (cfg : BlockConfig) (now : Nat) (outBuf : Bytes)
    (eventLimited : Bool) : BlockReply :=
  let content := blockContent cfg outBuf eventLimited
  let object := textResponse (lit "resp-block") cfg.model content.1 content.2 now
  let body := respToJson object
  match codexValidateResponseJson body with
  | some error => .error (codexSerializeError (clip 256 error))
  | none => .response object body

/-- The text a JSON reader decodes from the items of a response. -/
def ResponseObject.text (r : ResponseObject) : Bytes :=
  (r.output.map fun text => (CJson.decodeBody (escapedItem text)).getD []).flatten

/-! ## What a reader finds -/

/-- A reader decodes the part of a text that was escaped, and finds all of it
iff it was escaped whole. -/
theorem decodeBody_escapedItem {text : Bytes} (hzero : 0 ∉ text) :
    ∃ kept cut, text = kept ++ cut ∧ escapedItem text = escapeAll kept ∧
      CJson.decodeBody (escapedItem text) = some kept ∧
      (kept = text ↔ Escapes 65536 text) := by
  have hcstr : cstr text = text := upTo_eq_self hzero
  obtain ⟨kept, cut, hsplit, hrun, -⟩ := jsonEscape_prefix text 65536
  rw [hcstr] at hsplit
  have hdecode : CJson.decodeBody (escapedItem text) = some kept := by
    rw [escapedItem, hrun, CJson.decodeBody_escapeAll]
  refine ⟨kept, cut, hsplit, hrun, hdecode, ?_⟩
  rw [← jsonEscape_eq_iff hzero, hrun]
  refine ⟨fun h => by rw [h], fun h => ?_⟩
  -- escaping can be undone, so equal escapes are of equal texts
  have hboth := congrArg CJson.decodeBody h
  rw [CJson.decodeBody_escapeAll, CJson.decodeBody_escapeAll] at hboth
  exact Option.some.inj hboth

theorem textResponse_output (id model text details : Bytes) (now : Nat) :
    (textResponse id model text details now).output = [clip 65536 text] := rfl

/-- What a reader finds in a response of one text. -/
theorem text_textResponse {text : Bytes} (hzero : 0 ∉ text) (hlen : text.length < 65536)
    (id model details : Bytes) (now : Nat) :
    ∃ cut, text = (textResponse id model text details now).text ++ cut ∧
      ((textResponse id model text details now).text = text ↔ Escapes 65536 text) := by
  obtain ⟨kept, cut, hsplit, -, hdecode, hwhole⟩ := decodeBody_escapedItem hzero
  have htext : (textResponse id model text details now).text = kept := by
    simp [ResponseObject.text, textResponse_output, clip_eq_self hlen, hdecode]
  exact ⟨cut, by rw [htext, ← hsplit], by rw [htext, hwhole]⟩

/-! ## The JSON is accepted -/

/-- The members of a text item, as printed. -/
def textItemMembers (text : Bytes) : List (Bytes × CJson × Bytes) :=
  [(lit "type", .string (lit "text"), CJson.quoted (lit "text")),
    (lit "text", .string text, CJson.quoted text),
    (lit "annotations", .array [], lit "[]")]

/-- The members of a response of one text, as printed. -/
def responseMembers (r : ResponseObject) (text : Bytes) : List (Bytes × CJson × Bytes) :=
  [(lit "id", .string r.id, CJson.quoted r.id),
    (lit "object", .string r.object, CJson.quoted r.object),
    (lit "created_at", .number (decimal r.createdAt), decimal r.createdAt),
    (lit "status", .string r.status, CJson.quoted r.status),
    (lit "model", .string r.model, CJson.quoted r.model),
    (lit "output",
      .array [.object ((textItemMembers text).map fun m => (m.1, m.2.1))],
      91 :: ([10] ++ (123 :: CJson.printedMembers [] (textItemMembers text) ++ [93]))),
    (lit "error", .null, lit "null"),
    (lit "finish_reason", .string r.finishReason, CJson.quoted r.finishReason)] ++
  if r.incompleteDetails = [] then []
  else [(lit "incomplete_details", .string r.incompleteDetails,
    CJson.quoted r.incompleteDetails)]

/-- The fields of a response that `resp_to_json` prints without escaping them. -/
structure PlainFields (r : ResponseObject) : Prop where
  id : CJson.PlainText r.id
  id_ne : r.id ≠ []
  object : CJson.PlainText r.object
  status : CJson.PlainText r.status
  model : CJson.PlainText r.model
  finishReason : CJson.PlainText r.finishReason
  details : CJson.PlainText r.incompleteDetails
  details_fit : jsonEscape r.incompleteDetails 256 = r.incompleteDetails

theorem textItemJson_eq {text kept : Bytes} (h : escapedItem text = escapeAll kept) :
    textItemJson text = 123 :: CJson.printedMembers [] (textItemMembers kept) := by
  rw [textItemJson, h]
  simp [textItemMembers, CJson.printedMembers, CJson.quoted, lit, escapeByte]

theorem respToJson_eq {r : ResponseObject} (hr : PlainFields r) {text kept : Bytes}
    (hout : r.output = [text]) (h : escapedItem text = escapeAll kept) :
    respToJson r =
      123 :: ([10] ++ CJson.printedMembers [10] (responseMembers r kept)) ++ [10] := by
  rw [respToJson, hout, outputJson, textItemJson_eq h, hr.details_fit, if_neg hr.id_ne]
  by_cases hdetails : r.incompleteDetails = []
  · simp [responseMembers, hdetails, CJson.printedMembers, CJson.quoted, hr.id.escapeAll,
      hr.object.escapeAll, hr.status.escapeAll, hr.model.escapeAll,
      hr.finishReason.escapeAll, lit, escapeByte]
  · simp [responseMembers, hdetails, CJson.printedMembers, CJson.quoted, hr.id.escapeAll,
      hr.object.escapeAll, hr.status.escapeAll, hr.model.escapeAll,
      hr.finishReason.escapeAll, hr.details.escapeAll, lit, escapeByte]

theorem reads_textItem (text : Bytes) :
    CJson.Reads 2 (.object ((textItemMembers text).map fun m => (m.1, m.2.1)))
      (123 :: CJson.printedMembers [] (textItemMembers text)) := by
  have hreads : ∀ m ∈ textItemMembers text, CJson.Reads 3 m.2.1 m.2.2 := by
    simp only [textItemMembers, List.forall_mem_cons, List.not_mem_nil, false_implies,
      implies_true, and_true]
    exact ⟨CJson.reads_string _ _, CJson.reads_string _ _,
      CJson.reads_empty_array _ (by decide)⟩
  have hne : textItemMembers text ≠ [] := by simp [textItemMembers]
  exact CJson.reads_object (CJson.readsMembers_printed (Or.inl rfl) hne hreads)
    (CJson.opensMember_printed [] hne) (by decide)

theorem zero_not_mem_textItem {text : Bytes} (h : 0 ∉ text) :
    0 ∉ CJson.printedMembers [] (textItemMembers text) := by
  refine CJson.zero_not_mem_printed (Or.inl rfl) ?_
  simp only [textItemMembers, List.forall_mem_cons, List.not_mem_nil, false_implies,
    implies_true, and_true]
  exact ⟨⟨by decide, by decide⟩, ⟨by decide, CJson.zero_not_mem_quoted h⟩,
    ⟨by decide, by decide⟩⟩

/-- **A reader's view of the response.**  A response with plain fields parses to
its members, its one item with the text that was escaped. -/
theorem parse_respToJson {r : ResponseObject} (hr : PlainFields r) {text kept : Bytes}
    (hout : r.output = [text]) (h : escapedItem text = escapeAll kept)
    (hzero : 0 ∉ kept) :
    CJson.parse (respToJson r) =
      some (.object ((responseMembers r kept).map fun m => (m.1, m.2.1))) := by
  have hitem := reads_textItem kept
  have hquoted := fun {s : Bytes} (hs : CJson.PlainText s) =>
    CJson.zero_not_mem_quoted hs.zero_not_mem
  have hreads : ∀ m ∈ responseMembers r kept, CJson.Reads 1 m.2.1 m.2.2 := by
    have hdetails : ∀ m ∈ (if r.incompleteDetails = [] then []
        else [(lit "incomplete_details", CJson.string r.incompleteDetails,
          CJson.quoted r.incompleteDetails)] : List (Bytes × CJson × Bytes)),
        CJson.Reads 1 m.2.1 m.2.2 := by
      split
      · simp
      · simpa using CJson.reads_string 1 r.incompleteDetails
    simp only [responseMembers, List.forall_mem_append, List.forall_mem_cons,
      List.not_mem_nil, false_implies, implies_true, and_true]
    exact ⟨⟨CJson.reads_string _ _, CJson.reads_string _ _, CJson.reads_decimal _ _,
      CJson.reads_string _ _, CJson.reads_string _ _,
      CJson.reads_singleton hitem (Or.inr rfl) (by decide), CJson.reads_null _,
      CJson.reads_string _ _⟩, hdetails⟩
  have hplain : ∀ m ∈ responseMembers r kept, 0 ∉ m.1 ∧ 0 ∉ m.2.2 := by
    have hdetails : ∀ m ∈ (if r.incompleteDetails = [] then []
        else [(lit "incomplete_details", CJson.string r.incompleteDetails,
          CJson.quoted r.incompleteDetails)] : List (Bytes × CJson × Bytes)),
        0 ∉ m.1 ∧ 0 ∉ m.2.2 := by
      split
      · simp
      · simpa using ⟨by decide, hquoted hr.details⟩
    have houtput : 0 ∉ (91 :: ([10] ++
        (123 :: CJson.printedMembers [] (textItemMembers kept) ++ [93])) : Bytes) := by
      simpa using zero_not_mem_textItem hzero
    simp only [responseMembers, List.forall_mem_append, List.forall_mem_cons,
      List.not_mem_nil, false_implies, implies_true, and_true]
    exact ⟨⟨⟨by decide, hquoted hr.id⟩, ⟨by decide, hquoted hr.object⟩,
      ⟨by decide, (CJson.plainText_decimal _).zero_not_mem⟩,
      ⟨by decide, hquoted hr.status⟩, ⟨by decide, hquoted hr.model⟩,
      ⟨by decide, houtput⟩, ⟨by decide, by decide⟩,
      ⟨by decide, hquoted hr.finishReason⟩⟩, hdetails⟩
  rw [respToJson_eq hr hout h]
  exact CJson.parse_printedMembers (Or.inr rfl) (by simp [responseMembers]) hreads hplain

/-- The bridge accepts what it printed. -/
theorem codexValidate_respToJson {r : ResponseObject} (hr : PlainFields r)
    {text kept : Bytes} (hout : r.output = [text]) (h : escapedItem text = escapeAll kept)
    (hzero : 0 ∉ kept) : codexValidateResponseJson (respToJson r) = none := by
  have hne : cstr (respToJson r) ≠ [] := by
    rw [respToJson_eq hr hout h]
    simp [cstr, upTo]
  have hfields : requiredFields.find? (fun field =>
      (CJson.getObjectItem (.object ((responseMembers r kept).map fun m => (m.1, m.2.1)))
        field).isNone) = none := by
    have hnames : ∀ field ∈ requiredFields, ∃ m ∈ responseMembers r kept,
        CJson.nameMatches field m.1 = true := by
      have hmem : ∀ field ∈ requiredFields,
          field ∈ (responseMembers r kept).map fun m => m.1 := by
        simp [requiredFields, responseMembers]
      intro field hfield
      obtain ⟨m, hm, rfl⟩ := List.mem_map.mp (hmem field hfield)
      exact ⟨m, hm, by simp [CJson.nameMatches]⟩
    rw [List.find?_eq_none]
    intro field hfield
    obtain ⟨m, hm, hname⟩ := hnames field hfield
    have hmember : (m.1, m.2.1) ∈ (responseMembers r kept).map fun m => (m.1, m.2.1) :=
      List.mem_map.mpr ⟨m, hm, rfl⟩
    have hfound := CJson.getObjectItem_isSome ⟨(m.1, m.2.1), hmember, hname⟩
    simpa using Option.isSome_iff_ne_none.mp hfound
  have harray : (CJson.getArray
      (.object ((responseMembers r kept).map fun m => (m.1, m.2.1)))
      (lit "output")).isNone = false := by
    have h₁ : CJson.nameMatches (lit "output") (lit "id") = false := by decide
    have h₂ : CJson.nameMatches (lit "output") (lit "object") = false := by decide
    have h₃ : CJson.nameMatches (lit "output") (lit "created_at") = false := by decide
    have h₄ : CJson.nameMatches (lit "output") (lit "status") = false := by decide
    have h₅ : CJson.nameMatches (lit "output") (lit "model") = false := by decide
    have h₆ : CJson.nameMatches (lit "output") (lit "output") = true := by decide
    simp [CJson.getArray, CJson.getObjectItem, responseMembers, h₁, h₂, h₃, h₄, h₅, h₆]
  rw [codexValidateResponseJson, if_neg hne, parse_respToJson hr hout h hzero]
  simp only [hfields, harray, Bool.false_eq_true, if_false]

/-- The reason for incompleteness is one of three, or none. -/
theorem blockContent_details (cfg : BlockConfig) (outBuf : Bytes) (eventLimited : Bool) :
    (blockContent cfg outBuf eventLimited).2 ∈
      [lit "max_output_buffer", lit "max_output_chars", lit "max_turn_events", []] := by
  unfold blockContent
  dsimp only
  split_ifs <;> simp

/-- **A response is sent.**  With a model name that needs no escaping, the
writer sends the response it made and not an error. -/
theorem response_sent {cfg : BlockConfig} (hmodel : CJson.PlainText cfg.model) (now : Nat)
    {outBuf : Bytes} (hzero : 0 ∉ outBuf) (eventLimited : Bool) :
    ∃ body, handleResponseBlock cfg now outBuf eventLimited =
      .response (textResponse (lit "resp-block") cfg.model
        (blockContent cfg outBuf eventLimited).1
        (blockContent cfg outBuf eventLimited).2 now) body := by
  have hcontent : 0 ∉ (blockContent cfg outBuf eventLimited).1 := by
    unfold blockContent
    dsimp only
    split
    · exact fun h => hzero (List.mem_of_mem_take (List.mem_of_mem_take h))
    · exact fun h => hzero (List.mem_of_mem_take h)
  have hdetails := blockContent_details cfg outBuf eventLimited
  unfold handleResponseBlock
  dsimp only
  generalize blockContent cfg outBuf eventLimited = content at hcontent hdetails ⊢
  have hitem : 0 ∉ clip 65536 content.1 := fun h => hcontent (List.mem_of_mem_take h)
  obtain ⟨kept, cut, hsplit, hescaped, -⟩ := decodeBody_escapedItem hitem
  have hkept : 0 ∉ kept := fun h => hitem (by rw [hsplit]; simp [h])
  have hfields : PlainFields
      (textResponse (lit "resp-block") cfg.model content.1 content.2 now) := by
    have hid : CJson.PlainText (clip 64 (lit "resp-block")) := by decide
    have hidne : clip 64 (lit "resp-block") ≠ [] := by decide
    have hobject : CJson.PlainText (lit "response") := by decide
    have hstatus : CJson.PlainText (lit "completed") := by decide
    have hfinish : CJson.PlainText (lit "stop") := by decide
    refine ⟨hid, hidne, hobject, hstatus, hmodel.clip 128, hfinish, ?_, ?_⟩
    · have hall : ∀ d ∈ [lit "max_output_buffer", lit "max_output_chars",
          lit "max_turn_events", []], CJson.PlainText (clip 128 d) := by decide
      exact hall _ hdetails
    · have hall : ∀ d ∈ [lit "max_output_buffer", lit "max_output_chars",
          lit "max_turn_events", []], jsonEscape (clip 128 d) 256 = clip 128 d := by decide
      exact hall _ hdetails
  have haccepted := codexValidate_respToJson hfields
    (textResponse_output _ _ _ _ _) hescaped hkept
  exact ⟨_, by rw [haccepted]⟩

theorem blockContent_leads (cfg : BlockConfig) (outBuf : Bytes) (eventLimited : Bool) :
    (blockContent cfg outBuf eventLimited).1 <+: outBuf := by
  have hclip : clip cfg.maxOutputBuffer outBuf <+: outBuf := List.take_prefix _ _
  unfold blockContent
  dsimp only
  split
  · exact (List.take_prefix _ _).trans hclip
  · exact hclip

/-- **What a reader of the response finds.**  It is the content, or the first
part of it where the escape buffer was too small, and the reason given is that
of the content. -/
theorem response_text {cfg : BlockConfig} {now : Nat} {outBuf body : Bytes}
    {eventLimited : Bool} {object : ResponseObject} (hzero : 0 ∉ outBuf)
    (hlen : outBuf.length < 65536)
    (hsent : handleResponseBlock cfg now outBuf eventLimited = .response object body) :
    object.text <+: (blockContent cfg outBuf eventLimited).1 ∧
      (object.text = (blockContent cfg outBuf eventLimited).1 ↔
        Escapes 65536 (blockContent cfg outBuf eventLimited).1) ∧
      object.incompleteDetails = (blockContent cfg outBuf eventLimited).2 := by
  have hleads := blockContent_leads cfg outBuf eventLimited
  have hdetails := blockContent_details cfg outBuf eventLimited
  have hcontent : 0 ∉ (blockContent cfg outBuf eventLimited).1 :=
    fun h => hzero (hleads.subset h)
  have hfits := lt_of_le_of_lt hleads.length_le hlen
  have hobject : object = textResponse (lit "resp-block") cfg.model
      (blockContent cfg outBuf eventLimited).1
      (blockContent cfg outBuf eventLimited).2 now := by
    unfold handleResponseBlock at hsent
    dsimp only at hsent
    split at hsent
    · cases hsent
    · cases hsent
      rfl
  obtain ⟨cut, hsplit, hwhole⟩ := text_textResponse hcontent hfits (lit "resp-block")
    cfg.model (blockContent cfg outBuf eventLimited).2 now
  subst hobject
  have hall : ∀ d ∈ [lit "max_output_buffer", lit "max_output_chars",
      lit "max_turn_events", []], clip 128 d = d := by decide
  exact ⟨⟨cut, hsplit.symm⟩, hwhole, hall _ hdetails⟩

end StarBridge
