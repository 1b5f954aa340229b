import Mathlib.Data.List.Forall2
import StarBridge.RequestTexts

/-!
# The fields of a request

The parsed request keeps identifiers, names and JSON texts in buffers of fixed
sizes, filled by `snprintf` and `json_get_string`.  A value is kept as it stands
in the body iff it fits its buffer and has no terminator in it; nothing refuses
one that does not.  An item has one slot for a name, one for a call id and one
for an image, which the content blocks of a message share.
-/

namespace StarBridge

open CText Loops

namespace RequestParser

/-! ## What a body says -/

/-- A content block is a tool call. -/
def isToolBlock (block : CJson) : Prop :=
  isType (block.stringField (lit "type")) (lit "tool_call") (lit "function_call")

instance (block : CJson) : Decidable (isToolBlock block) :=
  inferInstanceAs (Decidable (isType _ _ _))

/-- The strings that the content blocks of a message hold under a name. -/
def blockValues (obj : CJson) (field : Bytes) : List Bytes :=
  (contentBlocks obj).flatMap fun block => (block.stringValue field).toList

/-- The string that a tool call in a message holds under a name. -/
def toolBlockValue (field : Bytes) (block : CJson) : List Bytes :=
  if isToolBlock block then (block.stringValue field).toList else []

/-- The strings that the tool calls of a message hold under a name. -/
def toolBlockValues (obj : CJson) (field : Bytes) : List Bytes :=
  (contentBlocks obj).flatMap (toolBlockValue field)

/-- The tool names of an item. -/
def toolNames (obj : CJson) : List Bytes :=
  match itemKind obj with
  | .message => toolBlockValues obj (lit "name")
  | .toolCall => (obj.stringValue (lit "name")).toList
  | _ => []

/-- The call ids of an item: its own, and those of the blocks of a message.  An
item of an unknown type is kept as JSON. -/
def callIds (obj : CJson) : List Bytes :=
  match itemKind obj with
  | .message => blockValues obj (lit "call_id") ++ (obj.stringValue (lit "call_id")).toList
  | .unknown => []
  | _ => (obj.stringValue (lit "call_id")).toList

/-- The image URLs of an item. -/
def imageUrls (obj : CJson) : List Bytes :=
  match itemKind obj with
  | .message => blockValues obj (lit "image_url") ++ (obj.stringValue (lit "image_url")).toList
  | .unknown => []
  | _ => (obj.stringValue (lit "image_url")).toList

/-! ## What the parser reads -/

/-- The values that go into the call id of an item, one over the other. -/
def readCallIds (obj : CJson) : List Bytes :=
  match itemKind obj with
  | .message => toolBlockValues obj (lit "call_id")
  | .toolCall | .toolOutput => (obj.stringValue (lit "call_id")).toList
  | _ => []

/-- The values that go into the image URL of an item. -/
def readImageUrls (obj : CJson) : List Bytes :=
  match itemKind obj with
  | .image => (obj.stringValue (lit "image_url")).toList
  | _ => []

/-- What a slot holds once the values have been read into it. -/
def slotValue (size : Nat) (read : List Bytes) : Bytes :=
  clip size (cstr (read.getLast?.getD []))

/-- A slot keeps every one of the values: each fits, and is what is read last. -/
def SlotFits (size : Nat) (values read : List Bytes) : Prop :=
  ∀ v ∈ values, HoldsText size v ∧ read.getLast?.getD [] = v

theorem slotFits_iff {size : Nat} (hsize : 0 < size) {values read : List Bytes}
    (hread : ∀ v ∈ read, v ∈ values) :
    (∀ v ∈ values, slotValue size read = v) ↔ SlotFits size values read := by
  unfold slotValue
  constructor
  · intro h v hv
    have hvalue := h v hv
    have hlast : read.getLast?.getD [] = v := by
      cases hread' : read.getLast? with
      | none =>
          rw [hread', Option.getD_none] at hvalue
          rw [← hvalue]
          exact (clip_nil size).symm
      | some last =>
          rw [hread', Option.getD_some] at hvalue
          have hmem : last ∈ values := hread last (List.mem_of_getLast? hread')
          have hself := h last hmem
          rw [hread', Option.getD_some, hvalue] at hself
          exact hself.symm
    rw [hlast] at hvalue
    exact ⟨(clip_cstr_iff hsize v).mp hvalue, hlast⟩
  · intro h v hv
    obtain ⟨hfits, hlast⟩ := h v hv
    rw [hlast]
    exact hfits.clip_cstr

instance (size : Nat) (values read : List Bytes) : Decidable (SlotFits size values read) :=
  inferInstanceAs (Decidable (∀ v ∈ values, _))

/-! ## The slots of an item -/

/-- A block that is no tool call leaves the slots of a message alone. -/
theorem parseContentBlock_slots (printNumber : Bytes → Bytes) (item : InputItem)
    (block : CJson) :
    (parseContentBlock printNumber item block).name =
        (if isToolBlock block then block.getString (lit "name") item.name 64 else item.name) ∧
      (parseContentBlock printNumber item block).callId =
        (if isToolBlock block then block.getString (lit "call_id") item.callId 128
          else item.callId) ∧
      (parseContentBlock printNumber item block).imageUrl = item.imageUrl := by
  by_cases htext : isType (block.stringField (lit "type")) (lit "text") (lit "input_text")
  · have htool : ¬ isToolBlock block := by
      unfold isToolBlock
      rcases htext with h | h <;> rw [h] <;> decide
    simp only [parseContentBlock, if_pos htext, if_neg htool]
    split <;> exact ⟨rfl, rfl, rfl⟩
  · by_cases htool : isToolBlock block
    · have htype : isType (block.stringField (lit "type")) (lit "tool_call")
          (lit "function_call") := htool
      simp only [parseContentBlock, if_neg htext, if_pos htype, if_pos htool, and_self]
    · have htype : ¬ isType (block.stringField (lit "type")) (lit "tool_call")
          (lit "function_call") := htool
      simp only [parseContentBlock, if_neg htext, if_neg htype, if_neg htool]
      split
      · split <;> exact ⟨rfl, rfl, rfl⟩
      · exact ⟨rfl, rfl, rfl⟩

/-- A slot that the tool calls of a message write holds the last value, or what
it held before. -/
theorem foldl_slot {printNumber : Bytes → Bytes} {slot : InputItem → Bytes} {field : Bytes}
    {size : Nat} (hstep : ∀ item block, slot (parseContentBlock printNumber item block) =
      if isToolBlock block then block.getString field (slot item) size else slot item)
    (blocks : List CJson) (item : InputItem) :
    slot (blocks.foldl (parseContentBlock printNumber) item) =
      ((blocks.flatMap (toolBlockValue field)).getLast?.map fun v => clip size (cstr v)).getD
        (slot item) := by
  induction blocks generalizing item with
  | nil => rfl
  | cons block rest ih =>
      rw [List.foldl_cons, ih, hstep, List.flatMap_cons, List.getLast?_append, toolBlockValue]
      by_cases htool : isToolBlock block
      · rw [if_pos htool, if_pos htool, CJson.getString, CJson.stringField_eq]
        cases (rest.flatMap (toolBlockValue field)).getLast? with
        | some last => rfl
        | none => cases block.stringValue field <;> rfl
      · rw [if_neg htool, if_neg htool, List.getLast?_nil, Option.or_none]

/-- No block writes the image URL of a message. -/
theorem foldl_imageUrl (printNumber : Bytes → Bytes) (blocks : List CJson) (item : InputItem) :
    (blocks.foldl (parseContentBlock printNumber) item).imageUrl = item.imageUrl := by
  induction blocks generalizing item with
  | nil => rfl
  | cons block rest ih =>
      rw [List.foldl_cons, ih, (parseContentBlock_slots printNumber item block).2.2]

/-- A slot that starts empty. -/
theorem slotValue_eq (size : Nat) (read : List Bytes) :
    (read.getLast?.map fun v => clip size (cstr v)).getD [] = slotValue size read := by
  unfold slotValue
  cases read.getLast? with
  | none => exact (clip_nil size).symm
  | some v => rfl

/-- The slots of a message hold what its tool calls write last. -/
theorem parseMessage_slots (printNumber : Bytes → Bytes) (obj : CJson) :
    (parseMessage printNumber obj).name = slotValue 64 (toolBlockValues obj (lit "name")) ∧
      (parseMessage printNumber obj).callId =
        slotValue 128 (toolBlockValues obj (lit "call_id")) ∧
      (parseMessage printNumber obj).imageUrl = [] := by
  refine ⟨?_, ?_, ?_⟩
  · unfold parseMessage
    rw [foldl_slot fun item block => (parseContentBlock_slots printNumber item block).1]
    exact slotValue_eq 64 _
  · unfold parseMessage
    rw [foldl_slot fun item block => (parseContentBlock_slots printNumber item block).2.1]
    exact slotValue_eq 128 _
  · exact foldl_imageUrl printNumber (contentBlocks obj) _

/-- A slot read from one member. -/
theorem slotValue_member (obj : CJson) (field : Bytes) (size : Nat) :
    obj.getString field [] size = slotValue size (obj.stringValue field).toList := by
  rw [CJson.getString_nil, slotValue]
  cases obj.stringValue field <;> rfl

/-- The slots of a parsed item hold what is read into them last. -/
theorem parseInputItem_slots (printNumber : Bytes → Bytes) (obj : CJson) :
    (parseInputItem printNumber obj).name = slotValue 64 (toolNames obj) ∧
      (parseInputItem printNumber obj).callId = slotValue 128 (readCallIds obj) ∧
      (parseInputItem printNumber obj).imageUrl = slotValue 2048 (readImageUrls obj) := by
  have hmessage := parseMessage_slots printNumber obj
  have hname := slotValue_member obj (lit "name") 64
  have hcallId := slotValue_member obj (lit "call_id") 128
  have himage := slotValue_member obj (lit "image_url") 2048
  unfold parseInputItem toolNames readCallIds readImageUrls
  cases itemKind obj with
  | message => exact hmessage
  | image => exact ⟨rfl, rfl, himage⟩
  | toolCall => exact ⟨hname, hcallId, rfl⟩
  | toolOutput => exact ⟨rfl, hcallId, rfl⟩
  | text | computer | reasoning | unknown => exact ⟨rfl, rfl, rfl⟩

/-! ## Items -/

/-- A stored item holds the name, the call id and the image URL of its item. -/
structure ItemRepresented (obj : CJson) (item : InputItem) : Prop where
  name : ∀ v ∈ toolNames obj, item.name = v
  callId : ∀ v ∈ callIds obj, item.callId = v
  imageUrl : ∀ v ∈ imageUrls obj, item.imageUrl = v

/-- The slots of an item have room for what it says. -/
structure ItemFits (obj : CJson) : Prop where
  name : SlotFits 64 (toolNames obj) (toolNames obj)
  callId : SlotFits 128 (callIds obj) (readCallIds obj)
  imageUrl : SlotFits 2048 (imageUrls obj) (readImageUrls obj)

instance (obj : CJson) : Decidable (ItemFits obj) :=
  decidable_of_iff (SlotFits 64 (toolNames obj) (toolNames obj) ∧
      SlotFits 128 (callIds obj) (readCallIds obj) ∧
      SlotFits 2048 (imageUrls obj) (readImageUrls obj))
    ⟨fun h => ⟨h.1, h.2.1, h.2.2⟩, fun h => ⟨h.name, h.callId, h.imageUrl⟩⟩

theorem mem_blockValues {obj : CJson} {field v : Bytes} (h : v ∈ toolBlockValues obj field) :
    v ∈ blockValues obj field := by
  obtain ⟨block, hblock, hv⟩ := List.mem_flatMap.mp h
  refine List.mem_flatMap.mpr ⟨block, hblock, ?_⟩
  unfold toolBlockValue at hv
  split at hv
  · exact hv
  · cases hv

/-- What is read into the call id is a call id of the item. -/
theorem mem_callIds {obj : CJson} {v : Bytes} (h : v ∈ readCallIds obj) : v ∈ callIds obj := by
  unfold readCallIds at h
  unfold callIds
  cases hkind : itemKind obj <;> rw [hkind] at h
  case message => exact List.mem_append_left _ (mem_blockValues h)
  case toolCall => exact h
  case toolOutput => exact h
  all_goals cases h

/-- What is read into the image URL is an image URL of the item. -/
theorem mem_imageUrls {obj : CJson} {v : Bytes} (h : v ∈ readImageUrls obj) :
    v ∈ imageUrls obj := by
  unfold readImageUrls at h
  unfold imageUrls
  cases hkind : itemKind obj <;> rw [hkind] at h
  case image => exact h
  all_goals cases h

/-- A parsed item represents its item iff its slots have room. -/
theorem itemRepresented_iff (printNumber : Bytes → Bytes) (obj : CJson) :
    ItemRepresented obj (parseInputItem printNumber obj) ↔ ItemFits obj := by
  obtain ⟨hname, hcallId, himageUrl⟩ := parseInputItem_slots printNumber obj
  have hnames := slotFits_iff (show 0 < 64 by decide) fun v (h : v ∈ toolNames obj) => h
  have hcallIds := slotFits_iff (show 0 < 128 by decide)
    fun v (h : v ∈ readCallIds obj) => mem_callIds h
  have himages := slotFits_iff (show 0 < 2048 by decide)
    fun v (h : v ∈ readImageUrls obj) => mem_imageUrls h
  rw [← hname] at hnames
  rw [← hcallId] at hcallIds
  rw [← himageUrl] at himages
  exact ⟨fun h => ⟨hnames.mp h.name, hcallIds.mp h.callId, himages.mp h.imageUrl⟩,
    fun h => ⟨hnames.mpr h.name, hcallIds.mpr h.callId, himages.mpr h.imageUrl⟩⟩

/-! ## Requests -/

/-- The object a body is. -/
def bodyObject (body : Bytes) : CJson := (CJson.parse body).getD .null

/-- A request represents its body: the values it keeps of it are those in the
body. -/
structure Represents (printNumber : Bytes → Bytes) (obj : CJson) (req : HarnessRequest) :
    Prop where
  previousResponseId : ∀ v, obj.stringValue (lit "previous_response_id") = some v →
    req.previousResponseId = v
  metadata : ∀ v, obj.getObject (lit "metadata") = some v →
    req.metadataJson = v.jsonText printNumber
  tools : ∀ tools, obj.getArray (lit "tools") = some tools →
    req.toolDefsJson = CJson.jsonText printNumber (.array tools)
  toolChoice : ∀ v, obj.getObjectItem (lit "tool_choice") = some v →
    req.toolChoiceJson = v.jsonText printNumber
  toolName : req.explicitToolCall = true → ∀ v, obj.stringValue (lit "name") = some v →
    req.toolName = v
  items : List.Forall₂ ItemRepresented ((obj.getArray (lit "input")).getD []) req.inputItems

/-- The buffers of a request have room for what its body says. -/
structure Fits (printNumber : Bytes → Bytes) (obj : CJson) : Prop where
  previousResponseId : ∀ v, obj.stringValue (lit "previous_response_id") = some v →
    HoldsText 256 v
  metadata : ∀ v, obj.getObject (lit "metadata") = some v → PrintFits printNumber 8192 v
  tools : ∀ tools, obj.getArray (lit "tools") = some tools →
    PrintFits printNumber 65536 (.array tools)
  toolChoice : ∀ v, obj.getObjectItem (lit "tool_choice") = some v →
    PrintFits printNumber 2048 v
  toolName : (explicitTool obj).isSome = true → ∀ v, obj.stringValue (lit "name") = some v →
    HoldsText 128 v
  items : ∀ item ∈ (obj.getArray (lit "input")).getD [], ItemFits item

/-- A field of a request keeps its value iff the buffer has room. -/
theorem stringField_represented_iff {obj : CJson} {field dest : Bytes} {size : Nat}
    (hsize : 0 < size) :
    (∀ v, obj.stringValue field = some v → obj.getString field dest size = v) ↔
      ∀ v, obj.stringValue field = some v → HoldsText size v := by
  refine forall_congr' fun v => forall_congr' fun hv => ?_
  rw [CJson.getString, CJson.stringField_eq, hv]
  exact clip_cstr_iff hsize v

theorem objectText_represented_iff {cfg : RequestConfig} {obj : CJson} {field : Bytes}
    {size : Nat} (hsize : 0 < size) :
    (∀ v, obj.getObject field = some v →
        objectText cfg obj field size = v.jsonText cfg.printNumber) ↔
      ∀ v, obj.getObject field = some v → PrintFits cfg.printNumber size v := by
  refine forall_congr' fun v => forall_congr' fun hv => ?_
  rw [objectText, hv]
  exact printFits_iff hsize v

/-- The tool a request names itself. -/
theorem explicitTool_represented_iff {obj : CJson} :
    ((explicitTool obj).isSome = true → ∀ v, obj.stringValue (lit "name") = some v →
        (explicitTool obj).getD [] = v) ↔
      ((explicitTool obj).isSome = true → ∀ v, obj.stringValue (lit "name") = some v →
        HoldsText 128 v) := by
  refine forall_congr' fun hsome => ?_
  have hname : (explicitTool obj).getD [] = obj.getString (lit "name") [] 128 := by
    obtain ⟨tool, htool⟩ := Option.isSome_iff_exists.mp hsome
    rw [htool, Option.getD_some]
    simp only [explicitTool] at htool
    split at htool
    · cases htool
    · split at htool
      · exact (Option.some.inj htool).symm
      · cases htool
  rw [hname]
  exact stringField_represented_iff (by decide)

/-- An accepted body has been read as the object it is. -/
theorem parseObject_bodyObject {cfg : RequestConfig} {body : Bytes} {req : HarnessRequest}
    (haccept : codexParseRequest cfg body = .ok req) :
    parseObject cfg (bodyObject body) = .ok req := by
  unfold bodyObject
  cases hparse : CJson.parse body with
  | none =>
      rw [codexParseRequest, hparse] at haccept
      cases haccept
  | some obj => exact codexParseRequest_object hparse haccept

/-- A tool call in a conversation. -/
def toolCallBody : Bytes :=
  lit "\x7b\"previous_response_id\":\"resp_1\",\"input\":[\x7b\"type\":\"tool_call\"," ++
  lit "\"name\":\"shell_command\",\"call_id\":\"call_1\"\x7d]\x7d"

/-- A `previous_response_id` of 256 bytes. -/
def longIdBody : Bytes :=
  lit "\x7b\"previous_response_id\":\"" ++ List.replicate 256 97 ++
    lit "\",\"input\":\"hi\"\x7d"

end RequestParser

end StarBridge
