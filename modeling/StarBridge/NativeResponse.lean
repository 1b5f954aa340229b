import StarBridge.CJson

/-!
# Frames of the native agent as events

`native_parse_frame` reads a frame into a typed event whose strings sit in
fixed buffers: 63 bytes for the type, the id and the status, 4095 for a text
and for tool arguments, 511 for a message.  Whatever does not fit is dropped
without a word.  A frame that is no JSON, or has no type, leaves the event
zeroed, and so of unknown type and without an id.

Two reads go through memory the function did not write.  A `response` frame
with a `tool_intent` member reads the intent into the same union as the
response, so that a missing name shows the status and missing arguments the
text from its 65th byte; and a `tool_intent` frame reads `args` into an
uninitialised buffer, whose content is the parameter `uninit` here.
-/

namespace StarBridge

open CText

namespace CJson

/-! ## Printing -/

/-- `print_string_ptr`. -/
def printString (value : Bytes) : Bytes := 34 :: (escapeAll (cstr value) ++ [34])

mutual

/-- `cJSON_PrintUnformatted`, given what `print_number` makes of a number
literal. -/
def print (printNumber : Bytes → Bytes) : CJson → Bytes
  | .null => lit "null"
  | .bool true => lit "true"
  | .bool false => lit "false"
  | .number literal => printNumber literal
  | .string value => printString value
  | .array items => lit "[" ++ printItems printNumber items ++ lit "]"
  | .object members => lit "\x7b" ++ printMembers printNumber members ++ lit "\x7d"

/-- The elements of an array, with commas between them. -/
def printItems (printNumber : Bytes → Bytes) : List CJson → Bytes
  | [] => []
  | [item] => print printNumber item
  | item :: rest => print printNumber item ++ lit "," ++ printItems printNumber rest

/-- The members of an object, with commas between them. -/
def printMembers (printNumber : Bytes → Bytes) : List (Bytes × CJson) → Bytes
  | [] => []
  | [(name, value)] => printString name ++ lit ":" ++ print printNumber value
  | (name, value) :: rest =>
      printString name ++ lit ":" ++ print printNumber value ++ lit "," ++
        printMembers printNumber rest

end

end CJson

/-! ## Events -/

/-- `NativeEventType`. -/
inductive NativeEventType
  | unknown
  | ack
  | response
  | textDelta
  | toolIntent
  | error
  | compaction
  | health
  | ping
  | pong
  | ready
  | shutdown
  | cancelled
  | shutdownAck
  deriving DecidableEq, Repr

/-- `native_event_type_from_string`. -/
def nativeEventTypeFromString (typeStr : Bytes) : NativeEventType :=
  if typeStr = lit "ack" then .ack
  else if typeStr = lit "response" then .response
  else if typeStr = lit "text_delta" then .textDelta
  else if typeStr = lit "tool_intent" then .toolIntent
  else if typeStr = lit "error" then .error
  else if typeStr = lit "health" then .health
  else if typeStr = lit "ping" then .ping
  else if typeStr = lit "pong" then .pong
  else if typeStr = lit "ready" then .ready
  else if typeStr = lit "shutdown" then .shutdown
  else if typeStr = lit "cancelled" then .cancelled
  else if typeStr = lit "shutdown_ack" then .shutdownAck
  else if typeStr = lit "compaction.started" then .compaction
  else if typeStr = lit "compaction.summary" then .compaction
  else if typeStr = lit "compaction.completed" then .compaction
  else .unknown

/-- `native_event_is_lifecycle`, of the event's type. -/
def NativeEventType.isLifecycle : NativeEventType → Bool
  | .health | .ping | .pong | .ready | .shutdown | .shutdownAck => true
  | _ => false

/-- `NativeEventData`: the member of the union that the event's type selects,
as the C strings in its buffers. -/
inductive NativeEventData
  | none
  | ack (status : Bytes)
  | response (id status text : Bytes) (promptTokens completionTokens : Int)
  | toolIntent (id toolName toolArgs : Bytes)
  | error (id status message : Bytes)
  | compaction (type message : Bytes)
  deriving DecidableEq, Repr

/-- `NativeEvent`. -/
structure NativeEvent where
  type : NativeEventType
  typeStr : Bytes
  id : Bytes
  data : NativeEventData
  deriving DecidableEq, Repr

/-- The event after `memset`. -/
def NativeEvent.zero : NativeEvent := ⟨.unknown, [], [], .none⟩

/-- `ev.data.response.status`, where the event has one. -/
def NativeEvent.status (ev : NativeEvent) : Bytes :=
  match ev.data with
  | .ack status => status
  | .response _ status .. => status
  | .error _ status _ => status
  | _ => []

/-- `ev.data.response.text`, of a response or a text delta. -/
def NativeEvent.text (ev : NativeEvent) : Bytes :=
  match ev.data with
  | .response _ _ text .. => text
  | _ => []

/-- What the parser takes from outside its frame: how numbers are printed, what
they are as an `int`, and what the uninitialised buffer of
`extract_tool_from_obj` holds when a frame is read. -/
structure ParserEnv where
  printNumber : Bytes → Bytes
  numberToInt : Bytes → Int
  uninit : Bytes → Bytes

/-- The first of the fields that holds a non-empty string, in a buffer of
`maxLen` bytes. -/
def firstString (obj : CJson) (maxLen : Nat) : List Bytes → Bytes
  | [] => []
  | field :: rest =>
      let value := CJson.getString obj field [] maxLen
      if value = [] then firstString obj maxLen rest else value

/-- `extract_tool_from_obj`: the tool's name and arguments.  Arguments that are
an object come out empty. -/
def extractToolFromObj (uninit : Bytes) (obj : CJson) : Bytes × Bytes :=
  match CJson.getObject obj (lit "tool") with
  | none => ([], [])
  | some tool =>
      let name := CJson.getString tool (lit "name") [] 128
      let args := CJson.getString tool (lit "args") uninit 4096
      if args ≠ [] then (name, clip 4096 args)
      else (name, CJson.getString tool (lit "input") [] 4096)

/-- The arguments in a response's `tool_intent` member: a string as it is,
anything else printed. -/
def intentArguments (env : ParserEnv) (intent : CJson) (overlaid : Bytes) : Bytes :=
  match CJson.getObjectItem intent (lit "arguments") with
  | none => overlaid
  | some (.string value) => clip 4096 (cstr value)
  | some item => clip 4096 (item.print env.printNumber)

/-- The `NATIVE_EVENT_RESPONSE` case of `native_parse_frame`. -/
def parseResponse (env : ParserEnv) (obj : CJson) (typeStr id : Bytes) : NativeEvent :=
  let status := CJson.getString obj (lit "status") [] 64
  let text := firstString obj 4096 [lit "text", lit "output"]
  match CJson.getObjectItem obj (lit "tool_intent") with
  | some intent =>
      -- the intent overlays the response: id, then name on status, then
      -- arguments on the text from byte 64
      ⟨.toolIntent, typeStr, id,
        .toolIntent id (CJson.getString intent (lit "name") status 128)
          (intentArguments env intent (text.drop 64))⟩
  | none =>
      ⟨.response, typeStr, id,
        .response id status text
          (CJson.getInt env.numberToInt obj (lit "prompt_tokens"))
          (CJson.getInt env.numberToInt obj (lit "completion_tokens"))⟩

/-- The event of a JSON value with the given type string. -/
def eventOf (env : ParserEnv) (uninit : Bytes) (obj : CJson) (typeStr : Bytes) :
    NativeEvent :=
  let type := nativeEventTypeFromString typeStr
  let id := CJson.getString obj (lit "id") [] 64
  match type with
  | .response => parseResponse env obj typeStr id
  | .textDelta =>
      ⟨type, typeStr, id,
        .response id [] (firstString obj 4096 [lit "text", lit "delta"]) 0 0⟩
  | .toolIntent =>
      let tool := extractToolFromObj uninit obj
      ⟨type, typeStr, id, .toolIntent id tool.1 tool.2⟩
  | .error =>
      ⟨type, typeStr, id,
        .error id (CJson.getString obj (lit "status") [] 64)
          (CJson.getString obj (lit "message") [] 512)⟩
  | .compaction =>
      ⟨type, typeStr, id,
        .compaction typeStr
          (firstString obj 512 [lit "message", lit "text", lit "summary"])⟩
  | .ack => ⟨type, typeStr, id, .ack (CJson.getString obj (lit "status") [] 64)⟩
  | _ => ⟨type, typeStr, id, .none⟩

/-- `native_parse_frame`: the event it leaves, also where it returns false. -/
def nativeParseFrame (env : ParserEnv) (frame : Bytes) : NativeEvent :=
  match CJson.parse frame with
  | none => .zero
  | some obj =>
      let typeStr := CJson.getString obj (lit "type") [] 64
      if typeStr = [] then .zero else eventOf env (env.uninit frame) obj typeStr

/-! ## What the events hold -/

/-- A frame that leaves data has been read as a JSON value. -/
theorem nativeParseFrame_data {env : ParserEnv} {frame : Bytes}
    (h : (nativeParseFrame env frame).data ≠ NativeEvent.zero.data) :
    ∃ obj typeStr, nativeParseFrame env frame = eventOf env (env.uninit frame) obj typeStr := by
  unfold nativeParseFrame at h ⊢
  cases hparse : CJson.parse frame with
  | none =>
      rw [hparse] at h
      exact absurd rfl h
  | some obj =>
      rw [hparse] at h
      dsimp only at h ⊢
      by_cases htype : CJson.getString obj (lit "type") [] 64 = []
      · rw [if_pos htype] at h
        exact absurd rfl h
      · exact ⟨obj, _, if_neg htype⟩

/-- A string read into an empty buffer fits it. -/
theorem CJson.getString_length_lt {maxLen : Nat} (hmax : 0 < maxLen) (obj : CJson)
    (field : Bytes) : (getString obj field [] maxLen).length < maxLen := by
  unfold getString
  cases stringField obj field with
  | none => simpa using hmax
  | some value => exact length_clip_lt hmax value

/-- A string read into an empty buffer has no terminator inside. -/
theorem CJson.zero_not_mem_getString (obj : CJson) (field : Bytes) (maxLen : Nat) :
    0 ∉ getString obj field [] maxLen := by
  unfold getString stringField
  intro h
  split at h
  · rename_i value hvalue
    split at hvalue
    · cases hvalue
      exact stop_not_mem_upTo 0 _ (List.mem_of_mem_take h)
    · cases hvalue
  · cases h

theorem firstString_length_lt {maxLen : Nat} (hmax : 0 < maxLen) (obj : CJson)
    (fields : List Bytes) : (firstString obj maxLen fields).length < maxLen := by
  induction fields with
  | nil => simpa [firstString] using hmax
  | cons field rest ih =>
      unfold firstString
      dsimp only
      split
      · exact ih
      · exact CJson.getString_length_lt hmax obj field

theorem zero_not_mem_firstString (obj : CJson) (maxLen : Nat) (fields : List Bytes) :
    0 ∉ firstString obj maxLen fields := by
  induction fields with
  | nil => simp [firstString]
  | cons field rest ih =>
      unfold firstString
      dsimp only
      split
      · exact ih
      · exact CJson.zero_not_mem_getString obj field maxLen

end StarBridge
