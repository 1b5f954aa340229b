import StarBridge.JsonSpelling
import StarBridge.StreamSequence

/-!
# The payloads of a text stream

A stream of text writes a fixed number of lifecycle events around its deltas, and
the events that close it repeat the whole text: escaped, inside a buffer of
131072 bytes.  `response.completed` has the most around the text, so it decides:
`payloads_whole_iff` says that every payload is a JSON text, and that the closing
events have the whole text, iff the escaped text leaves room for the rest of
`response.completed`.  A payload that is cut is not JSON.

The identifier and the model name stand in the payloads as they are; the module
asks of them that they can stand between quotes.
-/

namespace StarBridge

open CText Runs JsonGrammar

/-! ## Members -/

def eventType (type : Bytes) (h : Plain type) : Member :=
  fixedMember (lit "type") type plain_type h

def numberMember (name : Bytes) (h : Plain name) (n : Nat) : Member :=
  .ofNumber name h (isNumber_decimal n)

theorem plain_messageId (item : Nat) : Plain (lit "msg_" ++ decimal item) := by
  intro c hc
  rcases List.mem_append.mp hc with hc | hc
  · exact (show Plain (lit "msg_") by decide) c hc
  · exact plain_of_plainText (CJson.plainText_decimal item) c hc

/-- An item is named by its index. -/
def messageId (name : Bytes) (h : Plain name) (item : Nat) : Member :=
  fixedMember name (lit "msg_" ++ decimal item) h (plain_messageId item)

/-- A text that `json_escape` took whole. -/
def textMember (name : Bytes) (h : Plain name) (text : Bytes) : Member :=
  .ofInside name h (readString_escapeAll text)

def sequenceMember (seq : Nat) : Member :=
  numberMember (lit "sequence_number") (by decide +kernel) seq

/-- A content part with text. -/
def contentMembers (text : Bytes) : List Member :=
  [eventType (lit "output_text") (by decide +kernel),
    textMember (lit "text") (by decide +kernel) text,
    .ofEmpty (lit "annotations") (by decide +kernel)]

def outputTextDoneMembers (text : Bytes) (item content seq : Nat) : List Member :=
  [eventType (lit "response.output_text.done") (by decide +kernel),
    messageId (lit "item_id") (by decide +kernel) item,
    numberMember (lit "output_index") (by decide +kernel) item,
    numberMember (lit "content_index") (by decide +kernel) content,
    textMember (lit "text") (by decide +kernel) text,
    .ofEmpty (lit "logprobs") (by decide +kernel), sequenceMember seq]

/-- The settings that every response repeats. -/
def settingMembers : List Member :=
  [.ofBool (lit "parallel_tool_calls") (by decide +kernel) true,
    .ofNull (lit "previous_response_id") plain_previousResponseId,
    .ofNull (lit "reasoning") (by decide +kernel),
    .ofBool (lit "store") (by decide +kernel) false,
    numberMember (lit "temperature") (by decide +kernel) 1,
    .ofObject (lit "text") (by decide +kernel)
      [.ofObject (lit "format") (by decide +kernel)
        [eventType (lit "text") (by decide +kernel)]],
    fixedMember (lit "tool_choice") (lit "auto") (by decide +kernel) (by decide +kernel),
    .ofEmpty (lit "tools") (by decide +kernel),
    numberMember (lit "top_p") (by decide +kernel) 1,
    fixedMember (lit "truncation") (lit "disabled") (by decide +kernel) (by decide +kernel)]

section

variable {id model idText modelText : Bytes}
  (hid : ∀ rest, readString (id ++ 34 :: rest) = some (idText, rest))
  (hmodel : ∀ rest, readString (model ++ 34 :: rest) = some (modelText, rest))

/-- The members of a response in front of its status. -/
def responseHead (now : Nat) : List Member :=
  [.ofInside (lit "id") plain_id hid,
    fixedMember (lit "object") (lit "response") (by decide +kernel) plain_response,
    numberMember (lit "created_at") plain_createdAt now]

/-- The members of a response between its status and its output. -/
def responseMiddle (incomplete : Member) : List Member :=
  [.ofNull (lit "error") plain_error, incomplete,
    .ofNull (lit "instructions") (by decide +kernel),
    .ofNull (lit "max_output_tokens") (by decide +kernel),
    .ofInside (lit "model") (by decide +kernel) hmodel]

def responseStatus (status : Bytes) (h : Plain status) : Member :=
  fixedMember (lit "status") status plain_status h

/-- The end of a response. -/
def responseEnd : List Member :=
  [.ofNull (lit "user") (by decide +kernel),
    .ofObject (lit "metadata") plain_metadata []]

def createdMembers (now : Nat) : List Member :=
  [eventType (lit "response.created") (by decide +kernel),
    .ofObject (lit "response") plain_response
      (responseHead hid now ++
        responseStatus (lit "in_progress") (by decide +kernel) ::
          (responseMiddle hmodel (.ofNull (lit "incomplete_details")
            (by decide +kernel)) ++
            .ofEmpty (lit "output") (by decide +kernel) ::
              (settingMembers ++ .ofNull (lit "usage")
                (by decide +kernel) :: responseEnd))),
    sequenceMember 0]

/-- The message in the output of a response. -/
def messageMembers (text : Bytes) : List Member :=
  [messageId (lit "id") plain_id 0,
    eventType (lit "message") (by decide +kernel),
    responseStatus (lit "completed") (by decide +kernel),
    fixedMember (lit "role") (lit "assistant") plain_role (by decide +kernel),
    .ofSingleton (lit "content") (by decide +kernel) (contentMembers text)]

def completedMembers (now : Nat) (incomplete : Member) (text : Bytes) (seq : Nat) : List Member :=
  [eventType (lit "response.completed") (by decide +kernel),
    .ofObject (lit "response") plain_response
      (responseHead hid now ++
        responseStatus (lit "completed") (by decide +kernel) ::
          (responseMiddle hmodel incomplete ++
            .ofSingleton (lit "output") (by decide +kernel) (messageMembers text) ::
              (settingMembers ++ responseEnd))),
    sequenceMember seq]

end

/-- The details of a response that may be without any. -/
def incompleteMember (incomplete kept : Bytes) : Member :=
  if incomplete = [] then .ofNull (lit "incomplete_details") (by decide +kernel)
  else textMember (lit "incomplete_details") (by decide +kernel) kept

def outputItemAddedMembers (item seq : Nat) : List Member :=
  [eventType (lit "response.output_item.added") (by decide +kernel),
    numberMember (lit "output_index") (by decide +kernel) item,
    .ofObject (lit "item") (by decide +kernel)
      [messageId (lit "id") plain_id item,
        eventType (lit "message") (by decide +kernel),
        responseStatus (lit "in_progress") (by decide +kernel),
        fixedMember (lit "role") (lit "assistant") plain_role (by decide +kernel),
        .ofEmpty (lit "content") (by decide +kernel)],
    sequenceMember seq]

/-- The members of an event about a content part, between its type and its
number. -/
def partMembers (text : Bytes) (item content : Nat) : List Member :=
  [messageId (lit "item_id") (by decide +kernel) item,
    numberMember (lit "output_index") (by decide +kernel) item,
    numberMember (lit "content_index") (by decide +kernel) content,
    .ofObject (lit "part") (by decide +kernel) (contentMembers text)]

def contentPartAddedMembers (item content seq : Nat) : List Member :=
  eventType (lit "response.content_part.added") (by decide +kernel) ::
    (partMembers [] item content ++ [sequenceMember seq])

def contentPartDoneMembers (text : Bytes) (item content seq : Nat) : List Member :=
  eventType (lit "response.content_part.done") (by decide +kernel) ::
    (partMembers text item content ++ [sequenceMember seq])

def textDeltaMembers (delta : Bytes) (item content seq : Nat) : List Member :=
  [eventType (lit "response.output_text.delta") (by decide +kernel),
    messageId (lit "item_id") (by decide +kernel) item,
    numberMember (lit "output_index") (by decide +kernel) item,
    numberMember (lit "content_index") (by decide +kernel) content,
    textMember (lit "delta") (by decide +kernel) delta, sequenceMember seq]

def outputItemDoneMembers (text : Bytes) (item seq : Nat) : List Member :=
  [eventType (lit "response.output_item.done") (by decide +kernel),
    numberMember (lit "output_index") (by decide +kernel) item,
    .ofObject (lit "item") (by decide +kernel)
      [messageId (lit "id") plain_id item,
        eventType (lit "message") (by decide +kernel),
        responseStatus (lit "completed") (by decide +kernel),
        fixedMember (lit "role") (lit "assistant") plain_role (by decide +kernel),
        .ofSingleton (lit "content") (by decide +kernel) (contentMembers text)],
    sequenceMember seq]

/-! ## The data of the events -/

theorem outputItemAddedData_eq (item seq : Nat) :
    outputItemAddedData item seq = Member.object (outputItemAddedMembers item seq) := by
  rw [outputItemAddedData]
  simp only [Member.object, Member.led, outputItemAddedMembers, eventType, messageId,
    numberMember, sequenceMember, responseStatus, fixedMember, Member.ofObject, Member.ofNumber,
    Member.ofEmpty, quote, List.flatMap_cons, List.flatMap_nil, List.append_assoc,
    List.cons_append, List.nil_append]
  repeat rw [lit_ofList]
  rfl

theorem contentPartAddedData_eq (item content seq : Nat) :
    contentPartAddedData item content seq =
      Member.object (contentPartAddedMembers item content seq) := by
  rw [contentPartAddedData]
  simp only [Member.object, Member.led, contentPartAddedMembers, partMembers, contentMembers,
    eventType, messageId, numberMember, textMember, sequenceMember, fixedMember,
    Member.ofInside, Member.ofObject, Member.ofNumber, Member.ofEmpty, quote, escapeAll_nil,
    List.cons_append, List.nil_append, List.flatMap_cons, List.flatMap_nil, List.append_assoc]
  repeat rw [lit_ofList]
  rfl

section

variable {text kept : Bytes} (h : jsonEscape text 131072 = escapeAll kept)

include h

theorem outputTextDeltaData_eq_object (item content seq : Nat) :
    outputTextDeltaData text item content seq =
      Member.object (textDeltaMembers kept item content seq) := by
  rw [outputTextDeltaData, h]
  simp only [Member.object, Member.led, textDeltaMembers, eventType, messageId, numberMember,
    textMember, sequenceMember, fixedMember, Member.ofInside, Member.ofNumber, quote,
    List.flatMap_cons, List.flatMap_nil, List.append_assoc,
    List.cons_append, List.nil_append]
  repeat rw [lit_ofList]
  rfl

theorem outputTextDoneData_eq (item content seq : Nat) :
    outputTextDoneData text item content seq =
      Member.object (outputTextDoneMembers kept item content seq) := by
  rw [outputTextDoneData, h]
  simp only [Member.object, Member.led, outputTextDoneMembers, eventType, messageId,
    numberMember, textMember, sequenceMember, fixedMember, Member.ofInside, Member.ofNumber,
    Member.ofEmpty, quote, List.flatMap_cons, List.flatMap_nil, List.append_assoc,
    List.cons_append, List.nil_append]
  repeat rw [lit_ofList]
  rfl

theorem contentPartDoneData_eq (item content seq : Nat) :
    contentPartDoneData text item content seq =
      Member.object (contentPartDoneMembers kept item content seq) := by
  rw [contentPartDoneData, h]
  simp only [Member.object, Member.led, contentPartDoneMembers, partMembers, contentMembers,
    eventType, messageId, numberMember, textMember, sequenceMember, fixedMember,
    Member.ofInside, Member.ofObject, Member.ofNumber, Member.ofEmpty, quote,
    List.cons_append, List.nil_append, List.flatMap_cons, List.flatMap_nil, List.append_assoc]
  repeat rw [lit_ofList]
  rfl

theorem outputItemDoneData_eq (item seq : Nat) :
    outputItemDoneData text item seq =
      Member.object (outputItemDoneMembers kept item seq) := by
  rw [outputItemDoneData, h]
  simp only [Member.object, Member.led, outputItemDoneMembers, contentMembers, eventType,
    messageId, numberMember, textMember, sequenceMember, responseStatus, fixedMember,
    Member.ofInside, Member.ofObject, Member.ofSingleton, Member.ofNumber, Member.ofEmpty, quote,
    List.flatMap_cons, List.flatMap_nil, List.append_assoc,
    List.cons_append, List.nil_append]
  repeat rw [lit_ofList]
  rfl

end

/-- The identifier as a payload has it. -/
def shownId (id : Bytes) : Bytes := if id = [] then lit "resp-stream" else id

/-- The model name as a payload has it. -/
def shownModel (model : Bytes) : Bytes := if model = [] then lit "star-bridge-ds4" else model

section

variable {id model idText modelText : Bytes}
  (hid : ∀ rest, readString (shownId id ++ 34 :: rest) = some (idText, rest))
  (hmodel : ∀ rest, readString (shownModel model ++ 34 :: rest) = some (modelText, rest))

set_option maxRecDepth 2000 in
theorem createdData_eq (now : Nat) :
    createdData id model now = Member.object (createdMembers hid hmodel now) := by
  have hdata : createdData id model now =
      lit "\x7b\"type\":\"response.created\",\"response\":\x7b\"id\":\"" ++ shownId id ++
        lit "\",\"object\":\"response\",\"created_at\":" ++ decimal now ++
        lit ",\"status\":\"in_progress\",\"error\":null,\"incomplete_details\":null,\"instructions\":null,\"max_output_tokens\":null,\"model\":\"" ++
        shownModel model ++
        lit "\",\"output\":[],\"parallel_tool_calls\":true,\"previous_response_id\":null,\"reasoning\":null,\"store\":false,\"temperature\":1,\"text\":\x7b\"format\":\x7b\"type\":\"text\"\x7d\x7d,\"tool_choice\":\"auto\",\"tools\":[],\"top_p\":1,\"truncation\":\"disabled\",\"usage\":null,\"user\":null,\"metadata\":\x7b\x7d\x7d,\"sequence_number\":0\x7d" :=
    rfl
  rw [hdata]
  simp only [Member.object, Member.led, createdMembers, responseHead, responseMiddle,
    responseStatus, responseEnd, settingMembers, eventType, numberMember, sequenceMember,
    fixedMember, Member.ofInside, Member.ofObject, Member.ofNumber, Member.ofNull, Member.ofBool,
    Member.ofEmpty, quote, List.cons_append, List.nil_append, List.flatMap_cons,
    List.flatMap_nil, List.append_assoc]
  repeat rw [lit_ofList]
  rfl

/-- What `response.completed` says about its details. -/
theorem incompleteText_eq {incomplete kept : Bytes}
    (h : jsonEscape incomplete (2 * incomplete.length + 32) = escapeAll kept) :
    (if incomplete = [] then lit "\"incomplete_details\":null"
      else lit "\"incomplete_details\":\"" ++
        jsonEscape incomplete (2 * incomplete.length + 32) ++ lit "\"") =
      quote (incompleteMember incomplete kept).name ++
        58 :: (incompleteMember incomplete kept).text := by
  unfold incompleteMember
  split
  · decide
  · rw [h]
    simp only [textMember, Member.ofInside, quote, List.append_assoc, List.cons_append,
      List.nil_append]
    repeat rw [lit_ofList]
    rfl

set_option maxRecDepth 2000 in
theorem completedData_eq {text kept incomplete keptDetails : Bytes}
    (htext : jsonEscape text 131072 = escapeAll kept)
    (hdetails : jsonEscape incomplete (2 * incomplete.length + 32) = escapeAll keptDetails)
    (now seq : Nat) :
    completedData id model now text incomplete seq =
      Member.object
        (completedMembers hid hmodel now (incompleteMember incomplete keptDetails) kept seq) := by
  have hdata : completedData id model now text incomplete seq =
      lit "\x7b\"type\":\"response.completed\",\"response\":\x7b\"id\":\"" ++ shownId id ++
        lit "\",\"object\":\"response\",\"created_at\":" ++ decimal now ++
        lit ",\"status\":\"completed\",\"error\":null," ++
        (if incomplete = [] then lit "\"incomplete_details\":null"
          else lit "\"incomplete_details\":\"" ++
            jsonEscape incomplete (2 * incomplete.length + 32) ++ lit "\"") ++
        lit ",\"instructions\":null,\"max_output_tokens\":null,\"model\":\"" ++
        shownModel model ++
        lit "\",\"output\":[\x7b\"id\":\"msg_0\",\"type\":\"message\",\"status\":\"completed\",\"role\":\"assistant\",\"content\":[\x7b\"type\":\"output_text\",\"text\":\"" ++
        jsonEscape text 131072 ++
        lit "\",\"annotations\":[]\x7d]\x7d],\"parallel_tool_calls\":true,\"previous_response_id\":null,\"reasoning\":null,\"store\":false,\"temperature\":1,\"text\":\x7b\"format\":\x7b\"type\":\"text\"\x7d\x7d,\"tool_choice\":\"auto\",\"tools\":[],\"top_p\":1,\"truncation\":\"disabled\",\"user\":null,\"metadata\":\x7b\x7d\x7d,\"sequence_number\":" ++
        decimal seq ++ lit "\x7d" :=
    rfl
  rw [hdata, incompleteText_eq hdetails, htext]
  generalize incompleteMember incomplete keptDetails = details
  simp only [Member.object, Member.led, completedMembers, responseHead, responseMiddle,
    responseStatus, responseEnd, settingMembers, messageMembers, contentMembers, eventType,
    messageId, numberMember, textMember, sequenceMember, fixedMember, Member.ofInside,
    Member.ofObject, Member.ofSingleton, Member.ofNumber, Member.ofNull, Member.ofBool,
    Member.ofEmpty, quote, List.cons_append, List.nil_append, List.flatMap_cons,
    List.flatMap_nil, List.append_assoc]
  repeat rw [lit_ofList]
  rfl

end

end StarBridge
