import StarBridge.FrameReading
import StarBridge.JsonLines
import StarBridge.ResponseBlock
import StarBridge.UsageReports

/-!
# The serializer of responses

`resp_to_json` writes a response into a buffer of the caller's, with an offset that runs
on where the buffer ends.  Texts, arguments and errors are escaped; the identifiers, the
model and the finish reason stand in the JSON as they are.  An item closes its braces in
the branch of its type, and once more behind the branch.

`resp_to_json_iff` says for which responses and buffers every write is inside, and the
text is a JSON object with the items that `resp_item_to_json` prints.
-/

namespace StarBridge

namespace ResponsesApi

open CText JsonGrammar

/-! ## Responses -/

/-- `ResponseStatus`. -/
inductive ResponseStatus
  | completed
  | failed
  | inProgress
  | incomplete
  deriving DecidableEq, Repr

/-- The status as it is printed. -/
def ResponseStatus.text : ResponseStatus → Bytes
  | .completed => lit "completed"
  | .failed => lit "failed"
  | .inProgress => lit "in_progress"
  | .incomplete => lit "incomplete"

/-- `OutputItem`. -/
inductive OutputItem
  | text (text : Bytes)
  | toolCall (callId type name arguments : Bytes)
  | refusal
  | error
  deriving DecidableEq, Repr

/-- `ResponseObject`. -/
structure ResponseObject where
  id : Bytes
  object : Bytes
  createdAt : Int64
  status : ResponseStatus
  model : Bytes
  output : List OutputItem
  errorMsg : Bytes
  usage : ResponseUsage
  finishReason : Bytes
  incompleteDetails : Bytes
  deriving DecidableEq, Repr

/-- `resp_init`, at the time `now`. -/
def respInit (model : Bytes) (now : Int64) : ResponseObject where
  id := []
  object := lit "response"
  createdAt := now
  status := .completed
  model := clip 128 model
  output := []
  errorMsg := []
  usage := ⟨0, 0, 0, 0, 0, 0, 0, 0⟩
  finishReason := lit "stop"
  incompleteDetails := []

namespace ResponseObject

variable (r : ResponseObject)

/-- `resp_set_id`. -/
def setId (id : Bytes) : ResponseObject := { r with id := clip 64 id }

/-- The next of the 64 items. -/
def addItem (item : OutputItem) : ResponseObject :=
  if 64 ≤ r.output.length then r else { r with output := r.output ++ [item] }

/-- `resp_add_text`. -/
def addText (text : Bytes) : ResponseObject := r.addItem (.text (clip 65536 text))

/-- `resp_add_tool_call`. -/
def addToolCall (callId name arguments : Bytes) : ResponseObject :=
  r.addItem (.toolCall (clip 64 callId) (clip 32 (lit "function")) (clip 128 name)
    (clip 4096 arguments))

end ResponseObject

/-- The response of `codex_serialize_tool_response`. -/
def toolResponse (id model toolName toolArgumentJson displayText : Bytes) (now : Int64) :
    ResponseObject :=
  (((respInit model now).setId (if id = [] then lit "resp-tool" else id)).addText
    displayText).addToolCall (lit "call_tool") toolName toolArgumentJson

/-! ## Printing -/

/-- `json_escape_into`, and the print behind it. -/
def escapeInto (src behind : Bytes) : Draft.Write UInt8 := .field (jsonEscape src 65536) behind

/-- What `resp_to_json` writes of an item behind its type. -/
def OutputItem.writes : OutputItem → List (Draft.Write UInt8)
  | .text t =>
      [.print (lit "\"text\",\"text\":\""), escapeInto t (lit "\",\"annotations\":[]")]
  | .toolCall callId type name arguments =>
      [.print (lit "\"tool_call\",\"tool_call\":\x7b\"id\":\"" ++ callId ++
          lit "\",\"type\":\"" ++ type ++ lit "\",\"function\":\x7b\"name\":\"" ++ name ++
          lit "\",\"arguments\":\""),
        escapeInto arguments (lit "\"\x7d\x7d\x7d")]
  | .refusal | .error => [.print (lit "\"error\",\"error\":\"unknown_output_type\"")]

/-- The loop over the items, from the item `i`. -/
def outputWrites : Nat → List OutputItem → List (Draft.Write UInt8)
  | _, [] => []
  | i, item :: rest =>
      (if 0 < i then [.print (lit ",\n")] else []) ++ [.print (lit "\x7b\"type\":")] ++
        item.writes ++ [.print (lit "\x7d")] ++ outputWrites (i + 1) rest

namespace ResponseObject

variable (r : ResponseObject)

/-- The identifier as it is printed. -/
def printedId : Bytes := if r.id = [] then lit "resp-unknown" else r.id

/-- The usage is printed. -/
def HasUsage : Prop :=
  0 < r.usage.totalTokens ∨ 0 < r.usage.promptTokens ∨ 0 < r.usage.completionTokens

instance : Decidable r.HasUsage := inferInstanceAs (Decidable (_ ∨ _ ∨ _))

/-- What `resp_to_json` writes in front of the usage. -/
def writes : List (Draft.Write UInt8) :=
  [.print (lit "\x7b\n"),
    .print (lit "\"id\":\"" ++ r.printedId ++ lit "\",\n"),
    .print (lit "\"object\":\"" ++ r.object ++ lit "\",\n"),
    .print (lit "\"created_at\":" ++ signedDecimal r.createdAt.toInt ++ lit ",\n"),
    .print (lit "\"status\":\"" ++ r.status.text ++ lit "\",\n"),
    .print (lit "\"model\":\"" ++ r.model ++ lit "\",\n"),
    .print (lit "\"output\":[\n")] ++
  outputWrites 0 r.output ++
  [.print (lit "],\n")] ++
  (if r.errorMsg = [] then [.print (lit "\"error\":null,\n")]
    else [.print (lit "\"error\":\x7b\"message\":\""), escapeInto r.errorMsg (lit "\"\x7d,\n")]) ++
  [.print (lit "\"finish_reason\":\"" ++ r.finishReason ++ lit "\"")] ++
  (if r.incompleteDetails = [] then []
    else [.print (lit ",\n\"incomplete_details\":\"" ++ jsonEscape r.incompleteDetails 256 ++
      lit "\"")]) ++
  (if r.HasUsage then [.print (lit ",\n")] else [])

/-- `usage_buf`. -/
def usageBuf : Bytes := (respUsageToJson r.usage 2048).text

end ResponseObject

/-- `resp_to_json`, into a buffer of `maxLen` bytes. -/
def respToJson (r : ResponseObject) (maxLen : Nat) : Draft UInt8 :=
  if maxLen = 0 then .start
  else
    let d := Draft.writeAll maxLen r.writes
    let d := if r.HasUsage then d.copy maxLen r.usageBuf else d
    d.print maxLen (lit "\n\x7d\n")

/-- What `resp_item_to_json` writes. -/
def OutputItem.itemWrites : OutputItem → List (Draft.Write UInt8)
  | .text t =>
      [.print (lit "\x7b\"type\":"), .print (lit "\"text\",\"text\":\""),
        escapeInto t (lit "\",\"annotations\":[]\x7d")]
  | .toolCall callId _ name arguments =>
      [.print (lit "\x7b\"type\":"),
        .print (lit "\"tool_call\",\"tool_call\":\x7b\"id\":\"" ++ callId ++
          lit "\",\"type\":\"function\",\"function\":\x7b\"name\":\"" ++ name ++
          lit "\",\"arguments\":\""),
        escapeInto arguments (lit "\"\x7d\x7d\x7d")]
  | .refusal | .error =>
      [.print (lit "\x7b\"type\":"), .print (lit "\"error\",\"error\":\"unknown\"\x7d")]

/-- `resp_item_to_json`, into a buffer of `maxLen` bytes. -/
def respItemToJson (item : OutputItem) (maxLen : Nat) : Draft UInt8 :=
  if maxLen = 0 then .start else Draft.writeAll maxLen item.itemWrites

/-! ## What is to be written -/

/-- The text of an item in a response. -/
def OutputItem.element (item : OutputItem) : Bytes :=
  lit "\x7b\"type\":" ++ Draft.written item.writes ++ lit "\x7d"

/-- The text of an item by itself. -/
def OutputItem.itemText (item : OutputItem) : Bytes := Draft.written item.itemWrites

/-- The text of a response. -/
def ResponseObject.whole (r : ResponseObject) : Bytes :=
  Draft.written r.writes ++ (if r.HasUsage then r.usageBuf else []) ++ lit "\n\x7d\n"

/-- The items behind the first. -/
theorem written_outputWrites_succ (i : Nat) (items : List OutputItem) :
    Draft.written (outputWrites (i + 1) items) = elementLines (items.map OutputItem.element) := by
  induction items generalizing i with
  | nil => rfl
  | cons item rest ih =>
      rw [outputWrites, if_pos (Nat.succ_pos i)]
      simp only [Draft.written_append, ih]
      simp only [Draft.written, List.flatMap_cons, List.flatMap_nil, Draft.Write.text,
        OutputItem.element, elementLines, List.map_cons, List.append_nil, List.append_assoc,
        List.cons_append]
      repeat rw [lit_ofList]
      rfl

theorem written_outputWrites (items : List OutputItem) :
    lit "\"output\":[\n" ++ Draft.written (outputWrites 0 items) ++ lit "],\n" =
      quote (lit "output") ++ 58 :: (arrayLines (items.map OutputItem.element) ++ [44, 10]) := by
  cases items with
  | nil =>
      repeat rw [lit_ofList]
      rfl
  | cons item rest =>
      rw [outputWrites, if_neg (Nat.lt_irrefl 0)]
      simp only [Draft.written_append, written_outputWrites_succ]
      simp only [Draft.written, List.flatMap_cons, List.flatMap_nil, Draft.Write.text,
        OutputItem.element, arrayLines, List.map_cons, List.append_nil, List.append_assoc,
        List.cons_append, List.nil_append, quote]
      repeat rw [lit_ofList]
      rfl

/-! ## What stays inside -/

theorem ended_escapeInto {src behind : Bytes} (h : 2 ≤ behind.length) :
    (escapeInto src behind).Ended := h

theorem ended_item (item : OutputItem) : ∀ w ∈ item.writes, w.Ended := by
  intro w hw
  cases item with
  | text t =>
      rcases List.mem_pair.mp hw with rfl | rfl
      · trivial
      · exact ended_escapeInto (by decide)
  | toolCall callId type name arguments =>
      rcases List.mem_pair.mp hw with rfl | rfl
      · trivial
      · exact ended_escapeInto (by decide)
  | refusal =>
      rw [List.mem_singleton.mp hw]
      trivial
  | error =>
      rw [List.mem_singleton.mp hw]
      trivial

theorem ended_outputWrites (i : Nat) (items : List OutputItem) :
    ∀ w ∈ outputWrites i items, w.Ended := by
  induction items generalizing i with
  | nil => exact List.forall_mem_nil _
  | cons item rest ih =>
      have hcomma : ∀ w ∈ (if 0 < i then [Draft.Write.print (lit ",\n")] else []), w.Ended := by
        split
        · exact List.forall_mem_singleton.mpr trivial
        · exact List.forall_mem_nil _
      simp only [outputWrites, List.forall_mem_append, List.forall_mem_singleton]
      exact ⟨⟨⟨⟨hcomma, trivial⟩, ended_item item⟩, trivial⟩, ih (i + 1)⟩

namespace ResponseObject

variable (r : ResponseObject)

theorem ended_writes : ∀ w ∈ r.writes, w.Ended := by
  have herror : ∀ w ∈ (if r.errorMsg = [] then [Draft.Write.print (lit "\"error\":null,\n")]
      else [Draft.Write.print (lit "\"error\":\x7b\"message\":\""),
        escapeInto r.errorMsg (lit "\"\x7d,\n")]), w.Ended := by
    split
    · exact List.forall_mem_singleton.mpr trivial
    · intro w hw
      rcases List.mem_pair.mp hw with rfl | rfl
      · trivial
      · exact ended_escapeInto (by decide)
  have hdetails : ∀ w ∈ (if r.incompleteDetails = [] then []
      else [Draft.Write.print (lit ",\n\"incomplete_details\":\"" ++
        jsonEscape r.incompleteDetails 256 ++ lit "\"")]), w.Ended := by
    split
    · exact List.forall_mem_nil _
    · exact List.forall_mem_singleton.mpr trivial
  have husage : ∀ w ∈ (if r.HasUsage then [Draft.Write.print (lit ",\n")] else []),
      w.Ended := by
    split
    · exact List.forall_mem_singleton.mpr trivial
    · exact List.forall_mem_nil _
  simp only [writes, List.forall_mem_append, List.forall_mem_cons, List.not_mem_nil,
    false_implies, implies_true, and_true]
  exact ⟨⟨⟨⟨⟨⟨⟨trivial, trivial, trivial, trivial, trivial, trivial, trivial⟩,
    ended_outputWrites 0 r.output⟩, trivial⟩, herror⟩, trivial⟩, hdetails⟩, husage⟩

/-- **Every write is inside** iff the text in front of the usage ends inside. -/
theorem inside_respToJson_iff {maxLen : Nat} (hpos : 0 < maxLen) :
    (respToJson r maxLen).inside = true ↔ (Draft.written r.writes).length ≤ maxLen := by
  have htracks := Draft.tracks_writeAll hpos r.ended_writes
  rw [respToJson, if_neg hpos.ne']
  dsimp only
  split
  · exact htracks.copy_print_inside_iff _ _
  · exact htracks.print_inside_iff _

/-- A buffer with room for the text has all of it. -/
theorem respToJson_text {maxLen : Nat} (h : r.whole.length < maxLen) :
    (respToJson r maxLen).text = r.whole := by
  have hpos : 0 < maxLen := by omega
  have htracks := Draft.tracks_writeAll hpos r.ended_writes
  unfold whole at h
  rw [List.length_append, List.length_append] at h
  have hwhole := htracks.whole_of_lt (by omega)
  rw [respToJson, if_neg hpos.ne', whole]
  dsimp only
  split
  next husage =>
    rw [if_pos husage] at h
    have hcopied : ((Draft.writeAll maxLen r.writes).copy maxLen r.usageBuf).Whole
        (Draft.written r.writes ++ r.usageBuf) := hwhole.copy _ (by omega)
    refine (hcopied.print _ ?_).text_eq
    rw [List.length_append]
    omega
  next hnone =>
    rw [if_neg hnone, List.length_nil] at h
    rw [List.append_nil]
    exact (hwhole.print _ (by omega)).text_eq

end ResponseObject

theorem ended_itemWrites (item : OutputItem) : ∀ w ∈ item.itemWrites, w.Ended := by
  cases item with
  | text t =>
      exact List.forall_mem_cons.mpr ⟨trivial, List.forall_mem_cons.mpr
        ⟨trivial, List.forall_mem_singleton.mpr (ended_escapeInto (by decide))⟩⟩
  | toolCall callId type name arguments =>
      exact List.forall_mem_cons.mpr ⟨trivial, List.forall_mem_cons.mpr
        ⟨trivial, List.forall_mem_singleton.mpr (ended_escapeInto (by decide))⟩⟩
  | refusal => exact List.forall_mem_cons.mpr ⟨trivial, List.forall_mem_singleton.mpr trivial⟩
  | error => exact List.forall_mem_cons.mpr ⟨trivial, List.forall_mem_singleton.mpr trivial⟩

theorem respItemToJson_text {item : OutputItem} {maxLen : Nat}
    (h : item.itemText.length < maxLen) : (respItemToJson item maxLen).text = item.itemText := by
  have hpos : 0 < maxLen := by omega
  rw [respItemToJson, if_neg hpos.ne']
  exact ((Draft.tracks_writeAll hpos (ended_itemWrites item)).whole_of_lt h).text_eq

/-! ## The names of the members -/

theorem plain_object : Plain (lit "object") := plain_lit (by decide)

theorem plain_model : Plain (lit "model") := plain_lit (by decide)

theorem plain_message : Plain (lit "message") := plain_lit (by decide)

theorem plain_finishReason : Plain (lit "finish_reason") := plain_lit (by decide)

theorem plain_incompleteDetails : Plain (lit "incomplete_details") := plain_lit (by decide)

theorem plain_usage : Plain (lit "usage") := plain_lit (by decide)

theorem plain_textName : Plain (lit "text") := plain_lit (by decide)

theorem plain_annotations : Plain (lit "annotations") := plain_lit (by decide)

theorem plain_toolCall : Plain (lit "tool_call") := plain_lit (by decide)

theorem plain_function : Plain (lit "function") := plain_lit (by decide)

theorem plain_name : Plain (lit "name") := plain_lit (by decide)

theorem plain_arguments : Plain (lit "arguments") := plain_lit (by decide)

/-! ## The members of a response -/

section

variable {r : ResponseObject} {idText objectText modelText finishText : Bytes}
  (hid : ∀ rest, readString (r.printedId ++ 34 :: rest) = some (idText, rest))
  (hobject : ∀ rest, readString (r.object ++ 34 :: rest) = some (objectText, rest))
  (hmodel : ∀ rest, readString (r.model ++ 34 :: rest) = some (modelText, rest))
  (hfinish : ∀ rest, readString (r.finishReason ++ 34 :: rest) = some (finishText, rest))

theorem plain_statusText (status : ResponseStatus) : Plain status.text := by
  cases status <;> decide

/-- The members in front of the output. -/
def headMembers : List Member :=
  [.ofInside (lit "id") plain_id hid,
    .ofInside (lit "object") plain_object hobject,
    .ofNumber (lit "created_at") plain_createdAt (isNumber_signedDecimal r.createdAt.toInt),
    responseStatus r.status.text (plain_statusText r.status),
    .ofInside (lit "model") plain_model hmodel]

/-- The members behind the output. -/
def tailMembers : List Member :=
  [if r.errorMsg = [] then .ofNull (lit "error") plain_error
    else .ofObject (lit "error") plain_error
      [textMember (lit "message") plain_message (escapedPart 65536 r.errorMsg)],
    .ofInside (lit "finish_reason") plain_finishReason hfinish] ++
  (if r.incompleteDetails = [] then []
    else [textMember (lit "incomplete_details") plain_incompleteDetails
      (escapedPart 256 r.incompleteDetails)]) ++
  if r.HasUsage then [.ofObject (lit "usage") plain_usage r.usage.members] else []

/-- What stands in front of the output. -/
theorem written_head (tail : Bytes) :
    lit "\x7b\n" ++ (lit "\"id\":\"" ++ r.printedId ++ lit "\",\n") ++
      (lit "\"object\":\"" ++ r.object ++ lit "\",\n") ++
      (lit "\"created_at\":" ++ signedDecimal r.createdAt.toInt ++ lit ",\n") ++
      (lit "\"status\":\"" ++ r.status.text ++ lit "\",\n") ++
      (lit "\"model\":\"" ++ r.model ++ lit "\",\n") ++ tail =
      123 :: 10 :: Member.lines (headMembers hid hobject hmodel) tail := by
  simp only [Member.lines, headMembers, responseStatus, fixedMember, Member.ofInside,
    Member.ofNumber, quote, List.append_assoc, List.cons_append, List.nil_append]
  repeat rw [lit_ofList]
  rfl

/-- The text behind the output. -/
def tailText (r : ResponseObject) : Bytes :=
  (if r.errorMsg = [] then lit "\"error\":null,\n"
    else lit "\"error\":\x7b\"message\":\"" ++ jsonEscape r.errorMsg 65536 ++ lit "\"\x7d,\n") ++
  (lit "\"finish_reason\":\"" ++ r.finishReason ++ lit "\"") ++
  (if r.incompleteDetails = [] then []
    else lit ",\n\"incomplete_details\":\"" ++ jsonEscape r.incompleteDetails 256 ++ lit "\"") ++
  (if r.HasUsage then lit ",\n" ++ r.usageBuf else []) ++ lit "\n\x7d\n"

/-- **The text of a response**, from its output on. -/
theorem whole_eq :
    r.whole = 123 :: 10 :: Member.lines (headMembers hid hobject hmodel)
      (quote (lit "output") ++ 58 :: (arrayLines (r.output.map OutputItem.element) ++
        44 :: 10 :: tailText r)) := by
  have houtput := written_outputWrites r.output
  have htail : Draft.written (if r.errorMsg = [] then
        [Draft.Write.print (lit "\"error\":null,\n")]
        else [Draft.Write.print (lit "\"error\":\x7b\"message\":\""),
          escapeInto r.errorMsg (lit "\"\x7d,\n")]) ++
      (lit "\"finish_reason\":\"" ++ r.finishReason ++ lit "\"") ++
      Draft.written (if r.incompleteDetails = [] then []
        else [Draft.Write.print (lit ",\n\"incomplete_details\":\"" ++
          jsonEscape r.incompleteDetails 256 ++ lit "\"")]) ++
      Draft.written (if r.HasUsage then [Draft.Write.print (lit ",\n")] else []) ++
      (if r.HasUsage then r.usageBuf else []) ++ lit "\n\x7d\n" = tailText r := by
    unfold tailText
    split_ifs <;> simp [Draft.written, Draft.Write.text, escapeInto]
  have hcomma : quote (lit "output") ++ 58 :: (arrayLines (r.output.map OutputItem.element) ++
      44 :: 10 :: tailText r) = quote (lit "output") ++ 58 ::
        (arrayLines (r.output.map OutputItem.element) ++ [44, 10]) ++ tailText r := by
    simp
  rw [← written_head hid hobject hmodel, hcomma, ← houtput, ← htail, ResponseObject.whole,
    ResponseObject.writes]
  simp only [Draft.written_append]
  simp only [Draft.written, List.flatMap_cons, List.flatMap_nil, Draft.Write.text,
    List.append_assoc, List.append_nil]

theorem usageBuf_eq (h : r.HasUsage) : r.usageBuf = usageField r.usage.members := by
  have hlength := r.usage.length_members_lt
  have hsome : ¬ (r.usage.totalTokens = 0 ∧ r.usage.promptTokens = 0 ∧
      r.usage.completionTokens = 0) := by
    intro hzero
    unfold ResponseObject.HasUsage at h
    rw [hzero.1, hzero.2.1, hzero.2.2] at h
    revert h
    decide
  rw [ResponseObject.usageBuf, ResponseUsage.respUsageToJson_text, if_neg hsome,
    clip_eq_self (by omega)]

/-- The text behind the output is the members behind it. -/
theorem tailText_eq :
    44 :: 10 :: tailText r = Member.ledLines (tailMembers hfinish) ++ [10, 125, 10] := by
  have husage : (if r.HasUsage then lit ",\n" ++ r.usageBuf else []) =
      Member.ledLines (if r.HasUsage then
        [.ofObject (lit "usage") plain_usage r.usage.members] else []) := by
    split
    next h =>
      rw [usageBuf_eq h, usageField]
      simp only [Member.ledLines, Member.ofObject, quote, List.flatMap_cons, List.flatMap_nil,
        List.append_assoc, List.cons_append, List.nil_append, List.append_nil]
      repeat rw [lit_ofList]
      rfl
    next => rfl
  have hdetails : (if r.incompleteDetails = [] then []
      else lit ",\n\"incomplete_details\":\"" ++ jsonEscape r.incompleteDetails 256 ++ lit "\"") =
      Member.ledLines (if r.incompleteDetails = [] then []
        else [textMember (lit "incomplete_details") plain_incompleteDetails
          (escapedPart 256 r.incompleteDetails)]) := by
    split
    next => rfl
    next =>
      rw [jsonEscape_eq_escapedPart]
      simp only [Member.ledLines, textMember, Member.ofInside, quote, List.flatMap_cons,
        List.flatMap_nil, List.append_assoc, List.cons_append, List.nil_append, List.append_nil]
      repeat rw [lit_ofList]
      rfl
  rw [tailText, tailMembers, Member.ledLines_append, Member.ledLines_append, husage, hdetails,
    jsonEscape_eq_escapedPart]
  split <;>
  · simp only [Member.ledLines, textMember, Member.ofInside, Member.ofObject, Member.ofNull,
      Member.object, Member.led, nullText, quote, List.flatMap_cons, List.flatMap_nil,
      List.append_assoc, List.cons_append, List.nil_append, List.append_nil]
    repeat rw [lit_ofList]
    rfl

end

/-! ## Items -/

/-- An item of text. -/
def OutputItem.IsText : OutputItem → Prop
  | .text _ => True
  | _ => False

/-- The members of an item of text. -/
def textMembers (t : Bytes) : List Member :=
  [eventType (lit "text") plain_textName,
    textMember (lit "text") plain_textName (escapedPart 65536 t),
    .ofEmpty (lit "annotations") plain_annotations]

theorem element_text (t : Bytes) :
    (OutputItem.text t).element = Member.object (textMembers t) := by
  rw [OutputItem.element, OutputItem.writes, escapeInto, jsonEscape_eq_escapedPart]
  simp only [Draft.written, Draft.Write.text, textMembers, eventType, fixedMember, textMember,
    Member.ofInside, Member.ofEmpty, Member.object, Member.led, quote, List.flatMap_cons,
    List.flatMap_nil, List.append_assoc, List.cons_append, List.nil_append, List.append_nil]
  repeat rw [lit_ofList]
  rfl

/-- An item of text is the same by itself. -/
theorem itemText_text (t : Bytes) : (OutputItem.text t).itemText = (OutputItem.text t).element := by
  rw [OutputItem.itemText, OutputItem.itemWrites, OutputItem.element, OutputItem.writes, escapeInto,
    escapeInto]
  simp only [Draft.written, Draft.Write.text, List.flatMap_cons, List.flatMap_nil,
    List.append_assoc, List.append_nil]
  repeat rw [lit_ofList]
  rfl

/-- A tool call has a brace more in a response than by itself. -/
theorem element_toolCall (callId name arguments : Bytes) :
    (OutputItem.toolCall callId (lit "function") name arguments).element =
      (OutputItem.toolCall callId (lit "function") name arguments).itemText ++ [125] := by
  rw [OutputItem.itemText, OutputItem.itemWrites, OutputItem.element, OutputItem.writes, escapeInto]
  simp only [Draft.written, Draft.Write.text, List.flatMap_cons, List.flatMap_nil,
    List.append_assoc, List.append_nil]
  repeat rw [lit_ofList]
  rfl

/-- An item of a type that is not printed. -/
def errorMembers (message : Bytes) (h : Plain message) : List Member :=
  [eventType (lit "error") plain_error,
    fixedMember (lit "error") message plain_error h]

theorem element_error :
    OutputItem.error.element =
      Member.object (errorMembers (lit "unknown_output_type") (by decide)) := by
  decide

theorem itemText_error :
    OutputItem.error.itemText =
      Member.object (errorMembers (lit "unknown") (by decide)) := by
  decide

section

variable {callId type name callText typeText nameText : Bytes}
  (hcall : ∀ rest, readString (callId ++ 34 :: rest) = some (callText, rest))
  (htype : ∀ rest, readString (type ++ 34 :: rest) = some (typeText, rest))
  (hname : ∀ rest, readString (name ++ 34 :: rest) = some (nameText, rest))

/-- The members of a tool call. -/
def toolMembers (arguments : Bytes) : List Member :=
  [eventType (lit "tool_call") plain_toolCall,
    .ofObject (lit "tool_call") plain_toolCall
      [.ofInside (lit "id") plain_id hcall, .ofInside (lit "type") plain_type htype,
        .ofObject (lit "function") plain_function
          [.ofInside (lit "name") plain_name hname,
            textMember (lit "arguments") plain_arguments (escapedPart 65536 arguments)]]]

theorem element_quoted (arguments : Bytes) :
    (OutputItem.toolCall callId type name arguments).element =
      Member.object (toolMembers hcall htype hname arguments) ++ [125] := by
  rw [OutputItem.element, OutputItem.writes, escapeInto, jsonEscape_eq_escapedPart]
  simp only [Draft.written, Draft.Write.text, toolMembers, eventType, fixedMember, textMember,
    Member.ofInside, Member.ofObject, Member.object, Member.led, quote, List.flatMap_cons,
    List.flatMap_nil, List.append_assoc, List.cons_append, List.nil_append, List.append_nil]
  repeat rw [lit_ofList]
  rfl

end

/-- A tool call of the type that `resp_add_tool_call` gives it, or with fields that can
stand between quotes. -/
def OutputItem.Regular : OutputItem → Prop
  | .toolCall callId type name _ =>
      type = lit "function" ∨ StringBody callId ∧ StringBody type ∧ StringBody name
  | _ => True

/-- **What is no text is no element** of a value that is JSON by itself. -/
theorem not_reads_element {item : OutputItem} (hregular : item.Regular) (htext : ¬ item.IsText)
    {maxLen : Nat} (hlength : item.element.length < maxLen) {v : Value}
    (hitem : IsJson (respItemToJson item maxLen).text v) {more : Bytes} (hends : Ends more)
    {vs : List Value} {rest : Bytes} :
    ¬ Reads (item.element ++ more) (.elements (v :: vs)) rest := by
  have herror : ∀ i : OutputItem, i.element = OutputItem.error.element →
      i.itemText = OutputItem.error.itemText → i.element.length < maxLen →
      IsJson (respItemToJson i maxLen).text v →
        ¬ Reads (i.element ++ more) (.elements (v :: vs)) rest := by
    intro i helement htext hlength hitem hreads
    rw [helement, element_error] at hreads hlength
    have hshort : OutputItem.error.itemText.length ≤
        (Member.object (errorMembers (lit "unknown_output_type") (by decide))).length := by
      decide
    rw [respItemToJson_text (by rw [htext]; omega), htext, itemText_error] at hitem
    obtain ⟨v', vs', left, heq, hvalue, -⟩ := hreads.elements_first
    cases heq
    have hprints := Member.prints_object_of_members
      (errorMembers (lit "unknown_output_type") (by decide))
    rw [hprints.skip_eq] at hvalue
    have hsame := (hprints.unique hends hvalue).1.symm.trans
      (((Member.prints_object_of_members _).isJson_iff).mp hitem)
    have hmessages : lit "unknown_output_type" = lit "unknown" := by
      simpa [Member.values, errorMembers, eventType, fixedMember, Value.object.injEq] using hsame
    revert hmessages
    decide
  cases item with
  | text t => exact absurd trivial htext
  | toolCall callId type name arguments =>
      rcases hregular with rfl | ⟨hcall, htype, hname⟩
      · rw [element_toolCall, List.length_append] at hlength
        rw [respItemToJson_text (by omega)] at hitem
        rw [element_toolCall, List.append_assoc]
        exact hitem.not_reads_elements more
      · obtain ⟨_, hcall⟩ := hcall.reads
        obtain ⟨_, htype⟩ := htype.reads
        obtain ⟨_, hname⟩ := hname.reads
        rw [element_quoted hcall htype hname, List.append_assoc]
        exact (Member.prints_object_of_members _).isJson.not_reads_elements more
  | refusal => exact herror _ rfl rfl hlength hitem
  | error => exact herror _ rfl rfl hlength hitem

/-- The items of an array that is read item by item are texts. -/
theorem isText_of_reads {maxLen : Nat} {items : List OutputItem} {item : OutputItem}
    (hregular : ∀ i ∈ item :: items, i.Regular)
    (hlength : ∀ i ∈ item :: items, i.element.length < maxLen) {behind rest : Bytes}
    {vs : List Value}
    (hreads : Reads (item.element ++ (elementLines (items.map OutputItem.element) ++
      93 :: behind)) (.elements vs) rest)
    (hitems : List.Forall₂ (fun i v => IsJson (respItemToJson i maxLen).text v)
      (item :: items) vs) : ∀ i ∈ item :: items, i.IsText := by
  induction items generalizing item vs with
  | nil =>
      cases hitems with
      | cons hfirst hrest =>
          intro i hi
          rw [List.mem_singleton.mp hi]
          by_contra htext
          exact not_reads_element (hregular item List.mem_cons_self) htext
            (hlength item List.mem_cons_self) hfirst (ends_cons (by decide) _) hreads
  | cons next items ih =>
      have hends : Ends (elementLines ((next :: items).map OutputItem.element) ++ 93 :: behind) :=
        ends_cons (by decide) _
      cases hitems with
      | cons hfirst hrest =>
          have htext : item.IsText := by
            by_contra htext
            exact not_reads_element (hregular item List.mem_cons_self) htext
              (hlength item List.mem_cons_self) hfirst hends hreads
          refine List.forall_mem_cons.mpr ⟨htext, ?_⟩
          cases item with
          | text t =>
              have hshape : elementLines ((next :: items).map OutputItem.element) ++ 93 :: behind =
                  44 :: 10 :: (next.element ++ (elementLines (items.map OutputItem.element) ++
                    93 :: behind)) := by
                simp [elementLines]
              rw [hshape, element_text,
                reads_element_line_iff (Member.prints_object_of_members _)] at hreads
              obtain ⟨vs', heq, hmore⟩ := hreads
              cases heq
              exact ih (fun i hi => hregular i (List.mem_cons_of_mem _ hi))
                (fun i hi => hlength i (List.mem_cons_of_mem _ hi)) hmore hrest
          | toolCall _ _ _ _ | refusal | error => exact htext.elim

/-! ## When the text is JSON -/

namespace ResponseObject

variable (r : ResponseObject)

/-- The fields that are not escaped can stand between quotes. -/
structure QuotesFields : Prop where
  id : StringBody r.printedId
  object : StringBody r.object
  model : StringBody r.model
  finishReason : StringBody r.finishReason

/-- What a reader of JSON finds in a buffer of `maxLen` bytes: an object with an output,
and in the output item by item what an item is by itself. -/
def ReadsItems (maxLen : Nat) : Prop :=
  ∃ ms items, IsJson (respToJson r maxLen).text (.object ms) ∧
    lookup (lit "output") ms = some (.array items) ∧
    List.Forall₂ (fun item v => IsJson (respItemToJson item maxLen).text v) r.output items

theorem length_element_le {item : OutputItem} (h : item ∈ r.output) :
    item.element.length ≤ r.whole.length := by
  have helements : ∀ (i : Nat) (items : List OutputItem), item ∈ items →
      item.element.length ≤ (Draft.written (outputWrites i items)).length := by
    intro i items hmem
    induction items generalizing i with
    | nil => cases hmem
    | cons first rest ih =>
        rw [outputWrites]
        simp only [Draft.written_append, List.length_append]
        rcases List.mem_cons.mp hmem with rfl | hmem
        · simp only [OutputItem.element, Draft.written, List.flatMap_cons, List.flatMap_nil,
            Draft.Write.text, List.length_append, List.append_nil]
          omega
        · have hrest := ih (i + 1) hmem
          omega
  have houtput := helements 0 r.output h
  rw [whole, writes]
  simp only [Draft.written_append, List.length_append]
  omega

theorem exists_texts {items : List OutputItem} (h : ∀ item ∈ items, item.IsText) :
    ∃ ts : List Bytes, items = ts.map OutputItem.text := by
  induction items with
  | nil => exact ⟨[], rfl⟩
  | cons item rest ih =>
      obtain ⟨hfirst, hrest⟩ := List.forall_mem_cons.mp h
      obtain ⟨ts, rfl⟩ := ih hrest
      cases item with
      | text t => exact ⟨t :: ts, rfl⟩
      | toolCall _ _ _ _ | refusal | error => exact hfirst.elim

theorem readsItems_of_texts (hquotes : r.QuotesFields) (htexts : ∀ item ∈ r.output, item.IsText)
    {maxLen : Nat} (hroom : r.whole.length < maxLen) : r.ReadsItems maxLen := by
  obtain ⟨_, hid⟩ := hquotes.id.reads
  obtain ⟨_, hobject⟩ := hquotes.object.reads
  obtain ⟨_, hmodel⟩ := hquotes.model.reads
  obtain ⟨_, hfinish⟩ := hquotes.finishReason.reads
  obtain ⟨ts, houtput⟩ := exists_texts htexts
  have hprinted : ∀ i ∈ ts.map fun t =>
      (Member.object (textMembers t), Value.object (Member.values (textMembers t))),
      Prints i.1 i.2 := by
    intro i hi
    obtain ⟨t, -, rfl⟩ := List.mem_map.mp hi
    exact Member.prints_object_of_members (textMembers t)
  have helements : r.output.map OutputItem.element =
      ts.map fun t => Member.object (textMembers t) := by
    rw [houtput, List.map_map]
    exact List.map_congr_left fun t _ => element_text t
  have hprints : Prints (arrayLines (r.output.map OutputItem.element))
      (.array (ts.map fun t => Value.object (Member.values (textMembers t)))) := by
    have harray := prints_arrayLines hprinted
    rw [List.map_map, List.map_map] at harray
    rw [helements]
    exact harray
  let output : Member := ⟨lit "output", _, _, by decide, hprints⟩
  have hwhole : r.whole = Member.objectLines (headMembers hid hobject hmodel ++
      output :: tailMembers hfinish) ++ [10] := by
    rw [whole_eq hid hobject hmodel, tailText_eq hfinish, Member.objectLines_eq, List.cons_append,
      List.cons_append, Member.lines_append]
    simp [output]
  have hobjectLines := Member.prints_objectLines (headMembers hid hobject hmodel ++
    output :: tailMembers hfinish)
  refine ⟨Member.values (headMembers hid hobject hmodel ++ output :: tailMembers hfinish),
    ts.map fun t => .object (Member.values (textMembers t)), ?_, ?_, ?_⟩
  · rw [r.respToJson_text hroom, hwhole]
    refine ⟨[10], ?_, rfl⟩
    rw [hobjectLines.skip_eq]
    exact hobjectLines [10] (ends_cons (by decide) _)
  · have hnames : lit "output" ∉ (headMembers hid hobject hmodel).map (·.name) := by
      show lit "output" ∉ [lit "id", lit "object", lit "created_at", lit "status", lit "model"]
      decide
    have hvalues : Member.values (headMembers hid hobject hmodel ++
        output :: tailMembers hfinish) = Member.values (headMembers hid hobject hmodel) ++
          Member.values (output :: tailMembers hfinish) := List.map_append
    rw [hvalues, Member.lookup_behind hnames]
    exact lookup_cons_self _ _ _
  · rw [houtput, List.forall₂_map_left_iff, List.forall₂_map_right_iff, List.forall₂_same]
    intro t ht
    have hmem : OutputItem.text t ∈ r.output := houtput ▸ List.mem_map_of_mem ht
    have hlength := r.length_element_le hmem
    rw [respItemToJson_text (by rw [itemText_text]; omega), itemText_text, element_text]
    exact (Member.prints_object_of_members _).isJson

theorem texts_of_readsItems (hquotes : r.QuotesFields)
    (hregular : ∀ item ∈ r.output, item.Regular) {maxLen : Nat}
    (hroom : r.whole.length < maxLen) (h : r.ReadsItems maxLen) :
    ∀ item ∈ r.output, item.IsText := by
  obtain ⟨_, hid⟩ := hquotes.id.reads
  obtain ⟨_, hobject⟩ := hquotes.object.reads
  obtain ⟨_, hmodel⟩ := hquotes.model.reads
  obtain ⟨ms, items, hjson, hlookup, hitems⟩ := h
  have hlength : ∀ i ∈ r.output, i.element.length < maxLen := fun i hi =>
    Nat.lt_of_le_of_lt (r.length_element_le hi) hroom
  rw [r.respToJson_text hroom, whole_eq hid hobject hmodel] at hjson
  -- the members in front of the output are read as they are printed
  obtain ⟨left, hread, -⟩ := hjson
  rw [skip_cons (by decide)] at hread
  rcases reads_brace_iff.mp hread with ⟨-, hclose⟩ | ⟨ms, heq, hmembers⟩
  · exact (cons_ne (by decide) hclose).elim
  cases heq
  obtain ⟨ms', rfl, hbehind⟩ := Member.reads_lines_iff.mp (reads_members_line.mp hmembers)
  obtain ⟨v, left', ms'', hvalue, rfl, -⟩ := reads_members_value (by decide) hbehind
  have hnames : lit "output" ∉ (headMembers hid hobject hmodel).map (·.name) := by
    show lit "output" ∉ [lit "id", lit "object", lit "created_at", lit "status", lit "model"]
    decide
  rw [Member.lookup_behind hnames, lookup_cons_self] at hlookup
  cases hlookup
  generalize r.output = output at *
  cases output with
  | nil => exact List.forall_mem_nil _
  | cons item rest =>
      have hopens : skip (arrayLines ((item :: rest).map OutputItem.element) ++
          44 :: 10 :: tailText r) = 91 :: 10 :: (item.element ++
            (elementLines (rest.map OutputItem.element) ++ 93 :: 44 :: 10 :: tailText r)) := by
        rw [List.map_cons, arrayLines, List.cons_append, skip_cons (by decide)]
        simp
      rw [hopens] at hvalue
      rcases reads_bracket_iff.mp hvalue with ⟨-, hclose⟩ | ⟨items, heq, helements⟩
      · rw [skip_line, OutputItem.element, lit_ofList] at hclose
        exact (cons_ne (by decide) hclose).elim
      · cases heq
        exact isText_of_reads hregular hlength (reads_elements_line.mp helements) hitems

/-- **A response with a tool call** is not read as its items, whatever its texts are. -/
theorem not_readsItems_toolResponse (id model toolName toolArgumentJson displayText : Bytes)
    (now : Int64)
    (hquotes : (toolResponse id model toolName toolArgumentJson displayText now).QuotesFields)
    {maxLen : Nat}
    (hroom : (toolResponse id model toolName toolArgumentJson displayText now).whole.length <
      maxLen) :
    ¬ (toolResponse id model toolName toolArgumentJson displayText now).ReadsItems maxLen := by
  intro h
  have houtput : (toolResponse id model toolName toolArgumentJson displayText now).output =
      [.text (clip 65536 displayText), .toolCall (clip 64 (lit "call_tool"))
        (clip 32 (lit "function")) (clip 128 toolName) (clip 4096 toolArgumentJson)] := rfl
  have htexts := texts_of_readsItems _ hquotes (by
    rw [houtput]
    refine List.forall_mem_cons.mpr ⟨trivial, List.forall_mem_cons.mpr ⟨Or.inl ?_, ?_⟩⟩
    · decide
    · exact List.forall_mem_nil _) hroom h
  rw [houtput] at htexts
  exact htexts _ (List.mem_cons_of_mem _ (List.mem_singleton_self _))

/-- The response of a turn that is not streamed. -/
def ofBlock (b : StarBridge.ResponseObject) : ResponseObject where
  id := b.id
  object := b.object
  createdAt := Int64.ofNat b.createdAt
  status := .completed
  model := b.model
  output := b.output.map .text
  errorMsg := []
  usage := ⟨0, 0, 0, 0, 0, 0, 0, 0⟩
  finishReason := b.finishReason
  incompleteDetails := b.incompleteDetails

theorem elementLines_block (items : List Bytes) (text : Bytes) :
    (OutputItem.text text).element ++
        elementLines ((items.map OutputItem.text).map OutputItem.element) =
      outputJson (text :: items) := by
  have helement : ∀ t : Bytes, (OutputItem.text t).element = textItemJson t := by
    intro t
    rw [OutputItem.element, OutputItem.writes, escapeInto, textItemJson, escapedItem]
    simp only [Draft.written, Draft.Write.text, List.flatMap_cons, List.flatMap_nil,
      List.append_assoc, List.append_nil]
    repeat rw [lit_ofList]
    rfl
  induction items generalizing text with
  | nil => simp [elementLines, outputJson, helement]
  | cons next items ih =>
      rw [outputJson, ← ih next, ← helement]
      · simp only [List.map_cons, elementLines, List.flatMap_cons, List.append_assoc]
        rw [lit_ofList]
        rfl
      · intro h
        cases h

/-- Its text is the one that the writer of the turn sends. -/
theorem whole_ofBlock {b : StarBridge.ResponseObject} (hstatus : b.status = lit "completed")
    (hnow : b.createdAt < 2 ^ 63) : (ofBlock b).whole = StarBridge.respToJson b := by
  have hcreated : signedDecimal (Int64.ofNat b.createdAt).toInt = decimal b.createdAt := by
    rw [Int64.toInt_ofNat_of_lt hnow, signedDecimal, if_neg (by omega), Int.natAbs_natCast]
  have houtput : Draft.written (outputWrites 0 (b.output.map OutputItem.text)) =
      outputJson b.output := by
    cases b.output with
    | nil => rfl
    | cons text items =>
        rw [← elementLines_block, List.map_cons, outputWrites, if_neg (Nat.lt_irrefl 0)]
        simp only [Draft.written_append, written_outputWrites_succ]
        simp only [Draft.written, OutputItem.element, List.flatMap_cons, List.flatMap_nil,
          Draft.Write.text, List.append_assoc, List.append_nil, List.nil_append]
  have husage : ¬ (ofBlock b).HasUsage := by
    show ¬ ((0 : Int32) < 0 ∨ (0 : Int32) < 0 ∨ (0 : Int32) < 0)
    decide
  have hid : (ofBlock b).printedId = if b.id = [] then lit "resp-unknown" else b.id := rfl
  have hcompleted : ResponseStatus.completed.text = lit "completed" := rfl
  rw [whole, writes, if_neg husage, if_neg husage, hid]
  simp only [Draft.written_append]
  simp only [ofBlock, houtput, hcreated, hcompleted, if_true]
  rw [StarBridge.respToJson, hstatus]
  by_cases hdetails : b.incompleteDetails = [] <;>
  · simp only [hdetails, if_true, if_false, Draft.written, List.flatMap_cons, List.flatMap_nil,
      Draft.Write.text, List.append_assoc, List.append_nil]
    split <;>
    · repeat rw [lit_ofList]
      rfl

/-- What is asked of the serializer, for a buffer of `maxLen` bytes: every write is inside,
and a buffer that is large enough has JSON with the items. -/
structure Serializes (maxLen : Nat) : Prop where
  inside : (respToJson r maxLen).inside = true
  readsItems : r.whole.length < maxLen → r.ReadsItems maxLen

/-- The buffer has room for the text in front of the usage; and where it has room for all,
the fields stand between quotes, and the items are texts. -/
def FitsTexts (maxLen : Nat) : Prop :=
  maxLen = 0 ∨ (Draft.written r.writes).length ≤ maxLen ∧
    (r.whole.length < maxLen → r.QuotesFields ∧ ∀ item ∈ r.output, item.IsText)

/-- No field ends the string it is printed into. -/
structure Regular : Prop where
  fields : r.QuotesFields
  items : ∀ item ∈ r.output, item.Regular

end ResponseObject

/-- **The serializer of responses**: what is enough for it, for every response and every
buffer, and what it takes where no field ends its string. -/
theorem resp_to_json_iff (r : ResponseObject) (maxLen : Nat) :
    (r.FitsTexts maxLen → r.Serializes maxLen) ∧
      (r.Regular → r.Serializes maxLen → r.FitsTexts maxLen) := by
  constructor
  · intro h
    rcases h with rfl | ⟨hlength, htexts⟩
    · exact ⟨rfl, fun hroom => absurd hroom (Nat.not_lt_zero _)⟩
    · by_cases hzero : maxLen = 0
      · subst hzero
        exact ⟨rfl, fun hroom => absurd hroom (Nat.not_lt_zero _)⟩
      · have hinside := r.inside_respToJson_iff (Nat.pos_of_ne_zero hzero)
        refine ⟨hinside.mpr hlength, fun hroom => ?_⟩
        obtain ⟨hquotes, hall⟩ := htexts hroom
        exact r.readsItems_of_texts hquotes hall hroom
  · intro hregular h
    by_cases hzero : maxLen = 0
    · exact Or.inl hzero
    · refine Or.inr ⟨?_, fun hroom => ⟨hregular.fields, ?_⟩⟩
      · exact (r.inside_respToJson_iff (Nat.pos_of_ne_zero hzero)).mp h.inside
      · exact r.texts_of_readsItems hregular.fields hregular.items hroom (h.readsItems hroom)

/-- A response with a tool call. -/
def readFileResponse : ResponseObject :=
  toolResponse (lit "resp-1") (lit "star-bridge-ds4") (lit "read_file") (lit "\x7b\x7d")
    (lit "Reading") 0

/-- The brace too many behind a tool call is in the text, however large the buffer is. -/
theorem resp_to_json_fails :
    ¬ ∀ (r : ResponseObject) (maxLen : Nat),
      (∀ item ∈ r.output, item ≠ .refusal ∧ item ≠ .error) → r.Serializes maxLen := by
  intro h
  have hitems : ∀ item ∈ readFileResponse.output, item ≠ .refusal ∧ item ≠ .error := by
    decide +kernel
  have hplain : Plain readFileResponse.printedId ∧ Plain readFileResponse.object ∧
      Plain readFileResponse.model ∧ Plain readFileResponse.finishReason := by
    decide +kernel
  have hregular : readFileResponse.Regular := by
    refine ⟨⟨hplain.1.stringBody, hplain.2.1.stringBody, hplain.2.2.1.stringBody,
      hplain.2.2.2.stringBody⟩, ?_⟩
    intro item hitem
    have hmem : item = .text (lit "Reading") ∨ item = .toolCall (lit "call_tool")
        (lit "function") (lit "read_file") (lit "\x7b\x7d") := by
      revert item
      decide +kernel
    rcases hmem with rfl | rfl
    · trivial
    · exact Or.inl rfl
  have hroom : readFileResponse.whole.length < 65536 := by decide +kernel
  have hserializes := h readFileResponse 65536 hitems
  rcases (resp_to_json_iff _ _).2 hregular hserializes with hzero | ⟨-, htexts⟩
  · cases hzero
  · have hcall : OutputItem.toolCall (lit "call_tool") (lit "function") (lit "read_file")
        (lit "\x7b\x7d") ∈ readFileResponse.output := by
      decide +kernel
    exact (htexts hroom).2 _ hcall

end ResponsesApi

end StarBridge
