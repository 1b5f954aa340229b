import StarBridge.IndexFile
import StarBridge.Loops
import StarBridge.ResponseHeads

/-!
# The request parser

`codex_request_parser.c` turns a request body into a `HarnessRequest`: fields in
buffers of fixed sizes, the items of the input array in structured form, and
`normalized_input`, the text the agent is given.  The text grows on the heap up
to `max_request_input_bytes`; a request beyond that is an error.

`parse_input_item` decides by the type of an item what it reads of it, and
`normalize_text_item` what the agent sees of what has been read.  Memory is
taken to suffice.
-/

namespace StarBridge

open CText Loops

namespace RequestParser

/-- What the parser is configured with, and what `print_number` makes of a
number literal. -/
structure RequestConfig where
  maxRequestInputBytes : Int
  modelReasoningEffort : Bytes
  printNumber : Bytes → Bytes

/-- The ceiling of `append_owned`. -/
def RequestConfig.inputLimit (cfg : RequestConfig) : Nat :=
  if 0 < cfg.maxRequestInputBytes then cfg.maxRequestInputBytes.toNat else 8 * 1024 * 1024

/-- `HarnessError`. -/
structure HarnessError where
  code : Bytes
  message : Bytes
  deriving DecidableEq, Repr

/-- `set_error`. -/
def setError (code message : Bytes) : HarnessError := ⟨clip 64 code, clip 512 message⟩

/-- `HarnessError` as `memset` leaves it. -/
def HarnessError.blank : HarnessError := ⟨[], []⟩

/-! ## The text of a request -/

/-- `append_owned`. -/
def appendOwned (cfg : RequestConfig) (dest text : Bytes) : Progress Bytes HarnessError :=
  if cfg.inputLimit < dest.length + text.length then
    .ended (setError (lit "request_input_too_large")
      (lit "request input too large: exceeds max_request_input_bytes"))
  else .running (dest ++ text)

/-- One `append_owned` after another, up to the first that fails. -/
def appendAll (cfg : RequestConfig) : Bytes → List Bytes → Progress Bytes HarnessError :=
  run (appendOwned cfg)

/-- Pieces that were all taken stand one behind the other. -/
theorem appendAll_running {cfg : RequestConfig} {dest dest' : Bytes} {pieces : List Bytes}
    (h : appendAll cfg dest pieces = .running dest') : dest' = dest ++ pieces.flatten := by
  have hstep : ∀ read s piece s', s = dest ++ List.flatten read →
      appendOwned cfg s piece = .running s' → s' = dest ++ (read ++ [piece]).flatten := by
    intro read s piece s' hs hpiece
    unfold appendOwned at hpiece
    split at hpiece
    · cases hpiece
    · cases hpiece
      rw [hs, List.flatten_append, List.flatten_singleton, List.append_assoc]
  have hall := run_processed hstep (show dest = dest ++ List.flatten [] by simp) h
  rw [List.nil_append] at hall
  exact hall

/-- The newline between two parts of a text, unless one is there. -/
def lineBreak (text : Bytes) : Bytes :=
  if text = [] ∨ text.getLast? = some 10 then [] else [10]

/-! ## The items -/

/-- `InputItemType`. -/
inductive InputItemType
  | text
  | message
  | toolCall
  | toolOutput
  | image
  | computer
  | reasoning
  deriving DecidableEq, Repr

/-- `InputItem`. -/
structure InputItem where
  type : InputItemType
  role : Bytes
  name : Bytes
  callId : Bytes
  arguments : Option Bytes
  output : Option Bytes
  text : Option Bytes
  imageUrl : Bytes
  imageData : Option Bytes
  deriving DecidableEq, Repr

/-- `InputItem` as `memset` leaves it. -/
def InputItem.blank (type : InputItemType) : InputItem :=
  ⟨type, [], [], [], none, none, none, [], none⟩

/-- `json_get_string_ptr(block, "type")` is one of two names. -/
def isType (type : Option Bytes) (name other : Bytes) : Prop :=
  type = some name ∨ type = some other

instance (type : Option Bytes) (name other : Bytes) : Decidable (isType type name other) :=
  inferInstanceAs (Decidable (_ ∨ _))

/-- The arguments of a tool call: a string as it is, an object as text. -/
def toolArguments (printNumber : Bytes → Bytes) (obj : CJson) (old : Option Bytes) :
    Option Bytes :=
  match CJson.getObjectItem obj (lit "arguments") with
  | some (.string value) => some (cstr value)
  | some (.object members) => some (CJson.print printNumber (.object members))
  | _ => old

/-- `parse_content_block`. -/
def parseContentBlock (printNumber : Bytes → Bytes) (item : InputItem) (block : CJson) :
    InputItem :=
  let type := CJson.stringField block (lit "type")
  let text := item.text.getD []
  if isType type (lit "text") (lit "input_text") then
    match CJson.stringField block (lit "text") with
    | some value => { item with text := some (text ++ (lineBreak text ++ value)) }
    | none => item
  else if isType type (lit "tool_call") (lit "function_call") then
    { item with
      name := CJson.getString block (lit "name") item.name 64
      callId := CJson.getString block (lit "call_id") item.callId 128
      arguments := toolArguments printNumber block item.arguments
      type := .toolCall }
  else if isType type (lit "reasoning_summary") (lit "reasoning") then
    match CJson.stringField block (lit "text") with
    | some value => { item with text := some (text ++ value), type := .reasoning }
    | none => { item with type := .reasoning }
  else item

/-- The type `parse_input_item` takes an item for. -/
def itemType (obj : CJson) : Bytes :=
  match CJson.stringField obj (lit "type") with
  | some type => type
  | none =>
      if (CJson.getObjectItem obj (lit "role")).isSome ∨
          (CJson.getObjectItem obj (lit "content")).isSome then lit "message"
      else lit "text"

/-- The content blocks of a message. -/
def contentBlocks (obj : CJson) : List CJson := (CJson.getArray obj (lit "content")).getD []

/-- What `parse_input_item` makes of a message. -/
def parseMessage (printNumber : Bytes → Bytes) (obj : CJson) : InputItem :=
  (contentBlocks obj).foldl (parseContentBlock printNumber)
    { InputItem.blank .message with role := CJson.getString obj (lit "role") [] 16 }

/-- What the bridge takes an item of an input array for. -/
inductive ItemKind
  | message
  | text
  | image
  | toolCall
  | toolOutput
  | computer
  | reasoning
  | unknown
  deriving DecidableEq, Repr

/-- The comparisons of `parse_input_item`. -/
def itemKind (obj : CJson) : ItemKind :=
  let type := some (itemType obj)
  if type = some (lit "message") then .message
  else if isType type (lit "input_text") (lit "text") then .text
  else if isType type (lit "input_image") (lit "image") then .image
  else if isType type (lit "tool_call") (lit "function_call") then .toolCall
  else if isType type (lit "tool_call_output") (lit "function_call_output") then .toolOutput
  else if type = some (lit "computer_call") then .computer
  else if isType type (lit "reasoning") (lit "reasoning_summary") then .reasoning
  else .unknown

/-- `parse_input_item`. -/
def parseInputItem (printNumber : Bytes → Bytes) (obj : CJson) : InputItem :=
  match itemKind obj with
  | .message => parseMessage printNumber obj
  | .text => { InputItem.blank .text with text := CJson.stringField obj (lit "text") }
  | .image =>
      { InputItem.blank .image with
        imageUrl := CJson.getString obj (lit "image_url") [] 2048
        imageData := CJson.stringField obj (lit "data") }
  | .toolCall =>
      { InputItem.blank .toolCall with
        name := CJson.getString obj (lit "name") [] 64
        callId := CJson.getString obj (lit "call_id") [] 128
        arguments := toolArguments printNumber obj none }
  | .toolOutput =>
      { InputItem.blank .toolOutput with
        callId := CJson.getString obj (lit "call_id") [] 128
        output := CJson.stringField obj (lit "output") }
  | .computer =>
      { InputItem.blank .computer with
        text := (CJson.getObjectItem obj (lit "action")).map fun action =>
          lit "[computer_call: " ++ CJson.print printNumber action ++ lit "]" }
  | .reasoning => { InputItem.blank .reasoning with text := CJson.stringField obj (lit "text") }
  | .unknown => { InputItem.blank .text with text := some (CJson.print printNumber obj) }

/-- What stands behind a tool call or its output. -/
def InputItem.callIdPieces (item : InputItem) : List Bytes :=
  if item.callId = [] then [] else [lit " [call_id: ", item.callId, lit "]"]

/-- What `normalize_text_item` appends to the text so far. -/
def InputItem.pieces (item : InputItem) (dest : Bytes) : List Bytes :=
  match item.type with
  | .text =>
      let text := item.text.getD []
      if text = [] then [] else [lineBreak dest, text]
  | .message =>
      [lineBreak dest, if item.role = [] then lit "user" else item.role, lit ": ",
        item.text.getD []]
  | .toolCall =>
      [lineBreak dest, lit "tool_call: "] ++
        (if item.name = [] then []
          else [item.name, lit "(", item.arguments.getD [], lit ")"]) ++
        item.callIdPieces
  | .toolOutput =>
      [lineBreak dest, lit "tool_output: ", item.output.getD []] ++ item.callIdPieces
  | .image =>
      [lineBreak dest, lit "[image: "] ++
        (if item.imageUrl ≠ [] then [item.imageUrl]
          else if item.imageData.getD [] ≠ [] then
            [lit "base64_data ", item.imageData.getD [], lit "..."]
          else [lit "unknown"]) ++
        [lit "]"]
  | .computer => [lineBreak dest, lit "computer_call: ", item.text.getD []]
  | .reasoning => [lineBreak dest, lit "reasoning: ", item.text.getD []]

/-- `normalize_text_item`. -/
def normalizeTextItem (cfg : RequestConfig) (item : InputItem) (dest : Bytes) :
    Progress Bytes HarnessError :=
  appendAll cfg dest (item.pieces dest)

/-- One round of the loop of `parse_input_array`. -/
def parseArrayItem (cfg : RequestConfig) (out : List InputItem × Bytes) (obj : CJson) :
    Progress (List InputItem × Bytes) HarnessError :=
  let stored := parseInputItem cfg.printNumber obj
  (normalizeTextItem cfg stored out.2).bind fun dest => .running (out.1 ++ [stored], dest)

/-- `parse_input_array`: the items, and the text behind `dest`. -/
def parseInputArray (cfg : RequestConfig) (items : List CJson) (dest : Bytes) :
    Progress (List InputItem × Bytes) HarnessError :=
  run (parseArrayItem cfg) ([], dest) items

/-! ## The request -/

/-- `HarnessRequest`. -/
structure HarnessRequest where
  harness : Bytes
  model : Bytes
  normalizedInput : Bytes
  instructions : Option Bytes
  metadataJson : Bytes
  previousResponseId : Bytes
  reasoningEffort : Bytes
  stream : Bool
  resetSession : Bool
  hasTools : Bool
  explicitToolCall : Bool
  toolName : Bytes
  toolArgument : Bytes
  inputItems : List InputItem
  toolCount : Nat
  toolDefsJson : Bytes
  toolChoiceJson : Bytes
  deriving DecidableEq, Repr

/-- The effort a request asks for, else the nested one, else the configured
one. -/
def reasoningEffort (cfg : RequestConfig) (obj : CJson) : Bytes :=
  let effort := CJson.getString obj (lit "reasoning_effort") [] 32
  let nested :=
    match CJson.getObject obj (lit "reasoning") with
    | some reasoning => CJson.getString reasoning (lit "effort") [] 32
    | none => []
  if effort ≠ [] then effort
  else if nested ≠ [] then nested
  else if cfg.modelReasoningEffort = lit "extra high" then lit "high"
  else clip 32 cfg.modelReasoningEffort

/-- A member that must be a boolean to count. -/
def boolField (obj : CJson) (field : Bytes) : Bool :=
  match CJson.getObjectItem obj field with
  | some (.bool b) => b
  | _ => false

/-- A member that must be an object to count, printed into a buffer. -/
def objectText (cfg : RequestConfig) (obj : CJson) (field : Bytes) (size : Nat) : Bytes :=
  match CJson.getObject obj field with
  | some value => clip size (value.print cfg.printNumber)
  | none => []

/-- The tool that a request without `tools` names, if it is one the bridge
runs itself. -/
def explicitTool (obj : CJson) : Option Bytes :=
  let name := CJson.getString obj (lit "name") [] 128
  if (CJson.getObjectItem obj (lit "tools")).isSome then none
  else if name = lit "google_search" ∨ name = lit "browse_url" then some name
  else none

/-- The fields of a request, before its text is put together. -/
def requestFields (cfg : RequestConfig) (obj : CJson) : HarnessRequest where
  harness := lit "codex.responses"
  model := CJson.getString obj (lit "model") (lit "star-bridge-ds4") 128
  normalizedInput := []
  instructions := CJson.stringField obj (lit "instructions")
  metadataJson := objectText cfg obj (lit "metadata") 8192
  previousResponseId := CJson.getString obj (lit "previous_response_id") [] 256
  reasoningEffort := reasoningEffort cfg obj
  stream := boolField obj (lit "stream")
  resetSession := boolField obj (lit "reset_session")
  hasTools := (CJson.getObjectItem obj (lit "tools")).isSome
  explicitToolCall := (explicitTool obj).isSome
  toolName := (explicitTool obj).getD []
  toolArgument :=
    if (explicitTool obj).isSome then objectText cfg obj (lit "arguments") 2048 else []
  inputItems := []
  toolCount := ((CJson.getArray obj (lit "tools")).getD []).length
  toolDefsJson :=
    match CJson.getArray obj (lit "tools") with
    | some tools => clip 65536 (CJson.print cfg.printNumber (.array tools))
    | none => []
  toolChoiceJson :=
    match CJson.getObjectItem obj (lit "tool_choice") with
    | some choice => clip 2048 (choice.print cfg.printNumber)
    | none => []

/-- What `normalize_request_text` puts in front of the input. -/
def HarnessRequest.headPieces (req : HarnessRequest) : List Bytes :=
  (if req.instructions.getD [] = [] then [] else [req.instructions.getD [], [10]]) ++
  (if req.previousResponseId = [] then []
    else [lit "previous_response_id: ", req.previousResponseId, [10]]) ++
  (if req.metadataJson = [] then [] else [lit "metadata: ", req.metadataJson, [10]])

/-- A request without any text is refused, with a blank error. -/
def acceptNonempty (req : HarnessRequest) : Except HarnessError HarnessRequest :=
  if req.normalizedInput = [] then .error .blank else .ok req

/-- The items and the text of the input, behind `dest`. -/
def readInput (cfg : RequestConfig) (obj : CJson) (dest : Bytes) :
    Progress (List InputItem × Bytes) HarnessError :=
  match CJson.getObjectItem obj (lit "input") with
  | some (.string value) =>
      (appendOwned cfg dest (cstr value)).bind fun dest => .running ([], dest)
  | some (.array items) => parseInputArray cfg items dest
  | _ => .running ([], dest)

/-- `normalize_request_text`. -/
def normalizeRequestText (cfg : RequestConfig) (obj : CJson) (req : HarnessRequest) :
    Except HarnessError HarnessRequest :=
  match (appendAll cfg [] req.headPieces).bind (readInput cfg obj) with
  | .running (items, dest) =>
      acceptNonempty { req with inputItems := items, normalizedInput := dest }
  | .ended error => .error error

/-- `codex_parse_request` on a body that is an object. -/
def parseObject (cfg : RequestConfig) (obj : CJson) : Except HarnessError HarnessRequest :=
  let req := requestFields cfg obj
  if req.explicitToolCall = true ∧ (CJson.getObjectItem obj (lit "input")).isNone then .ok req
  else normalizeRequestText cfg obj req

/-- `codex_parse_request`. -/
def codexParseRequest (cfg : RequestConfig) (body : Bytes) :
    Except HarnessError HarnessRequest :=
  match CJson.parse body with
  | some (.object members) => parseObject cfg (.object members)
  | _ =>
      .error (setError (lit "invalid_json") (lit "Request body must be a JSON object"))

/-! ## What an accepted request holds -/

theorem normalizeTextItem_running {cfg : RequestConfig} {item : InputItem} {dest dest' : Bytes}
    (h : normalizeTextItem cfg item dest = .running dest') :
    dest' = dest ++ (item.pieces dest).flatten :=
  appendAll_running h

/-- A round of the array loop stores an item and appends what the agent sees of
it. -/
theorem parseArrayItem_running {cfg : RequestConfig} {out out' : List InputItem × Bytes}
    {obj : CJson} (h : parseArrayItem cfg out obj = .running out') :
    out'.1 = out.1 ++ [parseInputItem cfg.printNumber obj] ∧
      out'.2 = out.2 ++ ((parseInputItem cfg.printNumber obj).pieces out.2).flatten := by
  obtain ⟨dest, hdest, hout⟩ := Progress.bind_eq_running h
  cases hout
  exact ⟨rfl, normalizeTextItem_running hdest⟩

/-- The items of an array are stored in their order. -/
theorem parseInputArray_items {cfg : RequestConfig} {items : List CJson} {dest : Bytes}
    {out : List InputItem × Bytes} (h : parseInputArray cfg items dest = .running out) :
    out.1 = items.map (parseInputItem cfg.printNumber) := by
  have hstep : ∀ (read : List CJson) (s : List InputItem × Bytes) (obj : CJson)
      (s' : List InputItem × Bytes), s.1 = read.map (parseInputItem cfg.printNumber) →
      parseArrayItem cfg s obj = .running s' →
        s'.1 = (read ++ [obj]).map (parseInputItem cfg.printNumber) := by
    intro read s obj s' hs hround
    rw [(parseArrayItem_running hround).1, hs, List.map_append]
    rfl
  have hstart : (([], dest) : List InputItem × Bytes).1 =
      ([] : List CJson).map (parseInputItem cfg.printNumber) := rfl
  exact run_processed hstep hstart h

/-- An accepted body is an object. -/
theorem codexParseRequest_object {cfg : RequestConfig} {body : Bytes} {obj : CJson}
    {req : HarnessRequest} (hparse : CJson.parse body = some obj)
    (h : codexParseRequest cfg body = .ok req) : parseObject cfg obj = .ok req := by
  unfold codexParseRequest at h
  rw [hparse] at h
  split at h
  · next members hobj =>
      cases hobj
      exact h
  · cases h

/-- Besides the input, an accepted request holds the fields of its body. -/
theorem parseObject_fields {cfg : RequestConfig} {obj : CJson} {req : HarnessRequest}
    (h : parseObject cfg obj = .ok req) :
    req = { requestFields cfg obj with
      inputItems := req.inputItems, normalizedInput := req.normalizedInput } := by
  simp only [parseObject, normalizeRequestText, acceptNonempty] at h
  split at h
  · cases h
    rfl
  · split at h
    · split at h
      · cases h
      · cases h
        rfl
    · cases h

/-- The input array of an accepted request has been read to its end. -/
theorem parseObject_array {cfg : RequestConfig} {obj : CJson} {req : HarnessRequest}
    {items : List CJson} (h : parseObject cfg obj = .ok req)
    (hinput : CJson.getObjectItem obj (lit "input") = some (.array items)) :
    ∃ dest, parseInputArray cfg items dest = .running (req.inputItems, req.normalizedInput) := by
  simp only [parseObject, normalizeRequestText, acceptNonempty] at h
  rw [if_neg (by rw [hinput]; rintro ⟨-, hnone⟩; cases hnone)] at h
  split at h
  · next stored dest hrun =>
      obtain ⟨start, -, hread⟩ := Progress.bind_eq_running hrun
      unfold readInput at hread
      rw [hinput] at hread
      refine ⟨start, ?_⟩
      split at h
      · cases h
      · cases h
        exact hread
  · cases h

/-- An accepted request holds the items of its input array. -/
theorem parseObject_items {cfg : RequestConfig} {obj : CJson} {req : HarnessRequest}
    (h : parseObject cfg obj = .ok req) :
    req.inputItems =
      ((obj.getArray (lit "input")).getD []).map (parseInputItem cfg.printNumber) := by
  unfold CJson.getArray
  split
  · next items hinput =>
      obtain ⟨dest, hrun⟩ := parseObject_array h hinput
      exact parseInputArray_items hrun
  · next hother =>
      simp only [parseObject, normalizeRequestText, acceptNonempty] at h
      split at h
      · cases h
        rfl
      · split at h
        · next stored dest hrun =>
            obtain ⟨start, -, hread⟩ := Progress.bind_eq_running hrun
            unfold readInput at hread
            have hstored : stored = [] := by
              split at hread
              · obtain ⟨more, -, hmore⟩ := Progress.bind_eq_running hread
                cases hmore
                rfl
              · next items hinput => exact absurd hinput (hother items)
              · cases hread
                rfl
            split at h
            · cases h
            · cases h
              exact hstored
        · cases h

/-! ## The parser of the service

`ResponseHeads` leaves the text for the agent to a parameter; the parser here is
that parser with the parameter filled in. -/

/-- `normalize_request_text` as the service takes it. -/
def normalizeFor (cfg : RequestConfig) (obj : CJson) : Except Bytes Bytes :=
  match parseObject cfg obj with
  | .ok req => .ok req.normalizedInput
  | .error error => .error error.message

/-- The parser accepts the requests that the service's accepts, with the same
messages, and agrees with it on what the handlers keep. -/
theorem codexParseRequest_service (cfg : RequestConfig) (body : Bytes) :
    StarBridge.codexParseRequest (normalizeFor cfg) body =
      match codexParseRequest cfg body with
      | .ok req => .ok ⟨req.stream⟩
      | .error error => .error error.message := by
  unfold StarBridge.codexParseRequest
  split
  · next members hparse =>
      have hobject : codexParseRequest cfg body = parseObject cfg (.object members) := by
        rw [codexParseRequest, hparse]
      rw [hobject, normalizeFor]
      cases h : parseObject cfg (.object members) with
      | error error => rfl
      | ok req =>
          have hstream := congrArg HarnessRequest.stream (parseObject_fields h)
          simp only [requestFields, boolField] at hstream
          dsimp only
          rw [hstream]
          rcases CJson.getObjectItem (.object members) (lit "stream") with
            _ | _ | _ | _ | _ | _ | _ <;> rfl
  · next hother =>
      have hrefused : codexParseRequest cfg body =
          .error (setError (lit "invalid_json") (lit "Request body must be a JSON object")) := by
        unfold codexParseRequest
        split
        · next members hparse => exact absurd hparse (hother members)
        · rfl
      rw [hrefused]
      rfl

end RequestParser

end StarBridge
