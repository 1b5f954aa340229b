import StarBridge.PrintedJson

/-!
# What becomes of a tool intent

A frame names a tool in a `tool_intent` member of a response, or in the `tool`
member of a frame of type `tool_intent`.  The event has one union for the
response and the intent: where the intent says nothing, the bytes of the
response that lie in its place are read for it.  In the other frames the
arguments are read through a buffer that nothing initialises.  So the event
depends on more than the intent, and `intentsIsolated_iff` says on what.
-/

namespace StarBridge

open CText

/-- The tool name and the arguments of an event. -/
def NativeEvent.tool (ev : NativeEvent) : Bytes × Bytes :=
  match ev.data with
  | .toolIntent _ toolName toolArgs => (toolName, toolArgs)
  | _ => ([], [])

namespace ToolIntents

/-- Where a frame names a tool. -/
inductive ToolSource
  | intent (obj : CJson)
  | tool (obj : CJson)

/-- The value of a frame. -/
def frameValue (frame : Bytes) : CJson := (CJson.parse frame).getD .null

/-- The tool object a frame carries. -/
def toolSource (frame : Bytes) : Option ToolSource :=
  match nativeEventTypeFromString ((frameValue frame).getString (lit "type") [] 64) with
  | .response => ((frameValue frame).getObjectItem (lit "tool_intent")).map .intent
  | .toolIntent => ((frameValue frame).getObject (lit "tool")).map .tool
  | _ => none

/-- A member as the arguments of a tool: a string as it is, anything else as
JSON, and nothing where there is none. -/
def memberText (printNumber : Bytes → Bytes) : Option CJson → Bytes
  | none => []
  | some (.string value) => value
  | some item => item.jsonText printNumber

/-- The name a tool object gives. -/
def ToolSource.name : ToolSource → Bytes
  | .intent obj | .tool obj => (obj.stringValue (lit "name")).getD []

/-- The arguments it gives: `arguments`, or the first of `args` and `input` that
is there and no empty string. -/
def ToolSource.arguments (printNumber : Bytes → Bytes) : ToolSource → Bytes
  | .intent obj => memberText printNumber (obj.getObjectItem (lit "arguments"))
  | .tool obj =>
      match obj.getObjectItem (lit "args") with
      | none | some (.string []) => memberText printNumber (obj.getObjectItem (lit "input"))
      | some item => memberText printNumber (some item)

/-- The tool of the event that `native_parse_frame` makes of a frame, with
`garbage` in the uninitialised buffer. -/
def parsedTool (printNumber : Bytes → Bytes) (numberToInt : Bytes → Int)
    (garbage frame : Bytes) : Bytes × Bytes :=
  (nativeParseFrame ⟨printNumber, numberToInt, fun _ => garbage⟩ frame).tool

/-- Two frames with the same tool object give the same tool, and the one their
object says. -/
structure Isolated (printNumber : Bytes → Bytes) (numberToInt : Bytes → Int)
    (frame frame' : Bytes) (source : ToolSource) : Prop where
  alike : ∀ garbage garbage', parsedTool printNumber numberToInt garbage frame =
    parsedTool printNumber numberToInt garbage' frame'
  first : ∀ garbage, parsedTool printNumber numberToInt garbage frame =
    (source.name, source.arguments printNumber)
  second : ∀ garbage, parsedTool printNumber numberToInt garbage frame' =
    (source.name, source.arguments printNumber)

/-- Tool intents are isolated in two frames. -/
def IntentsIsolated (printNumber : Bytes → Bytes) (numberToInt : Bytes → Int)
    (frame frame' : Bytes) : Prop :=
  ∀ source, toolSource frame = some source → toolSource frame' = some source →
    Isolated printNumber numberToInt frame frame' source

/-! ## What it takes -/

/-- A member fits the buffer of the arguments. -/
def MemberFits (printNumber : Bytes → Bytes) : Option CJson → Prop
  | none => True
  | some (.string value) => HoldsText 4096 value
  | some item => PrintFits printNumber 4096 item

/-- The status of a response lies where the intent has its name. -/
def statusOf (obj : CJson) : Bytes := obj.getString (lit "status") [] 64

/-- The text of a response, which reaches from the name of the intent into its
arguments. -/
def textOf (obj : CJson) : Bytes := firstString obj 4096 [lit "text", lit "output"]

/-- Nothing but the intent shows: its name fits, or is missing in a response
without a status; its arguments fit, or are missing in a response whose text
ends in front of them. -/
structure IntentKept (printNumber : Bytes → Bytes) (obj intent : CJson) : Prop where
  name : ∀ v, intent.stringValue (lit "name") = some v → HoldsText 128 v
  no_name : intent.stringValue (lit "name") = none → statusOf obj = []
  arguments : MemberFits printNumber (intent.getObjectItem (lit "arguments"))
  no_arguments : (intent.getObjectItem (lit "arguments")).isNone → (textOf obj).length ≤ 64

/-- A second choice for the arguments is a string that fits, or prints as
nothing. -/
def InputFits (printNumber : Bytes → Bytes) : Option CJson → Prop
  | none => True
  | some (.string value) => HoldsText 4096 value
  | some item => item.jsonText printNumber = []

/-- The name of a tool fits, and its `args` are a string: one that fits, or an
empty one in front of an `input` that does. -/
structure ToolKept (printNumber : Bytes → Bytes) (tool : CJson) : Prop where
  name : ∀ v, tool.stringValue (lit "name") = some v → HoldsText 128 v
  args : ∃ v, tool.stringValue (lit "args") = some v ∧ (v ≠ [] → HoldsText 4096 v) ∧
    (v = [] → InputFits printNumber (tool.getObjectItem (lit "input")))

/-- What a frame must be for its tool object to be all that shows. -/
def ToolSource.Kept (printNumber : Bytes → Bytes) (obj : CJson) : ToolSource → Prop
  | .intent named => IntentKept printNumber obj named
  | .tool named => ToolKept printNumber named

/-! ## Intents of responses -/

/-- The parser reads the arguments of an intent whole iff they fit. -/
theorem intentArguments_iff (env : ParserEnv) (intent : CJson) (overlaid : Bytes) :
    intentArguments env intent overlaid =
        memberText env.printNumber (intent.getObjectItem (lit "arguments")) ↔
      MemberFits env.printNumber (intent.getObjectItem (lit "arguments")) ∧
        ((intent.getObjectItem (lit "arguments")).isNone → overlaid = []) := by
  unfold intentArguments
  cases hitem : intent.getObjectItem (lit "arguments") with
  | none => simp [memberText, MemberFits]
  | some item =>
      have hprint : clip 4096 (item.print env.printNumber) = item.jsonText env.printNumber ↔
          PrintFits env.printNumber 4096 item := printFits_iff (by decide) item
      cases item with
      | string value =>
          have hstring := clip_cstr_iff (show 0 < 4096 by decide) value
          simpa [memberText, MemberFits] using hstring
      | _ => simpa [memberText, MemberFits] using hprint

/-- A name is read whole iff it fits, and a missing one is what lay there. -/
theorem getString_name_iff {obj : CJson} {field dest : Bytes} {size : Nat} (hsize : 0 < size) :
    obj.getString field dest size = (obj.stringValue field).getD [] ↔
      (∀ v, obj.stringValue field = some v → HoldsText size v) ∧
        (obj.stringValue field = none → dest = []) := by
  rw [CJson.getString, CJson.stringField_eq]
  cases hvalue : obj.stringValue field with
  | none => simp
  | some value =>
      have hstring := clip_cstr_iff hsize value
      simpa using hstring

/-- The event of an intent is what the intent says iff nothing else shows. -/
theorem parseResponse_tool_iff (env : ParserEnv) {obj intent : CJson} (typeStr id : Bytes)
    (hintent : obj.getObjectItem (lit "tool_intent") = some intent) :
    (parseResponse env obj typeStr id).tool =
        ((ToolSource.intent intent).name, (ToolSource.intent intent).arguments env.printNumber) ↔
      IntentKept env.printNumber obj intent := by
  have htool : (parseResponse env obj typeStr id).tool =
      (intent.getString (lit "name") (statusOf obj) 128,
        intentArguments env intent ((textOf obj).drop 64)) := by
    unfold parseResponse
    rw [hintent]
    rfl
  rw [htool, Prod.mk.injEq]
  have hname : intent.getString (lit "name") (statusOf obj) 128 =
      (intent.stringValue (lit "name")).getD [] ↔
        (∀ v, intent.stringValue (lit "name") = some v → HoldsText 128 v) ∧
          (intent.stringValue (lit "name") = none → statusOf obj = []) :=
    getString_name_iff (by decide)
  have hargs := intentArguments_iff env intent ((textOf obj).drop 64)
  rw [List.drop_eq_nil_iff] at hargs
  constructor
  · rintro ⟨h, h'⟩
    obtain ⟨h₁, h₂⟩ := hname.mp h
    obtain ⟨h₃, h₄⟩ := hargs.mp h'
    exact ⟨h₁, h₂, h₃, h₄⟩
  · rintro ⟨h₁, h₂, h₃, h₄⟩
    exact ⟨hname.mpr ⟨h₁, h₂⟩, hargs.mpr ⟨h₃, h₄⟩⟩

/-! ## Frames of type `tool_intent` -/

/-- The arguments `extract_tool_from_obj` takes from a tool object. -/
def extractArgs (garbage : Bytes) (tool : CJson) : Bytes :=
  let args := tool.getString (lit "args") garbage 4096
  if args ≠ [] then clip 4096 args else tool.getString (lit "input") [] 4096

theorem extractToolFromObj_eq {obj tool : CJson} (garbage : Bytes)
    (htool : obj.getObject (lit "tool") = some tool) :
    extractToolFromObj garbage obj =
      (tool.getString (lit "name") [] 128, extractArgs garbage tool) := by
  unfold extractToolFromObj extractArgs
  rw [htool]
  dsimp only
  split <;> rfl

/-- The second choice is read whole iff it fits. -/
theorem getString_input_iff (printNumber : Bytes → Bytes) (tool : CJson) :
    tool.getString (lit "input") [] 4096 =
        memberText printNumber (tool.getObjectItem (lit "input")) ↔
      InputFits printNumber (tool.getObjectItem (lit "input")) := by
  rw [CJson.getString, CJson.stringField]
  cases tool.getObjectItem (lit "input") with
  | none => simp [memberText, InputFits]
  | some item =>
      cases item with
      | string value => exact clip_cstr_iff (show 0 < 4096 by decide) value
      | _ => exact eq_comm

theorem stringValue_eq_some {obj : CJson} {field v : Bytes} (h : obj.stringValue field = some v) :
    obj.getObjectItem field = some (.string v) := by
  unfold CJson.stringValue at h
  split at h
  · next value hvalue =>
      cases h
      exact hvalue
  · cases h

/-- Arguments that are a string are read whole iff they, or the second choice
behind empty ones, fit. -/
theorem extractArgs_iff (printNumber : Bytes → Bytes) {tool : CJson} {v : Bytes}
    (hargs : tool.stringValue (lit "args") = some v) (garbage : Bytes) :
    extractArgs garbage tool = (ToolSource.tool tool).arguments printNumber ↔
      (v ≠ [] → HoldsText 4096 v) ∧
        (v = [] → InputFits printNumber (tool.getObjectItem (lit "input"))) := by
  have hread : tool.getString (lit "args") garbage 4096 = clip 4096 (cstr v) := by
    rw [CJson.getString, CJson.stringField_eq, hargs]
    rfl
  unfold extractArgs ToolSource.arguments
  dsimp only
  rw [hread, stringValue_eq_some hargs]
  cases v with
  | nil =>
      have hinput := getString_input_iff printNumber tool
      rw [show clip 4096 (cstr []) = [] from rfl, if_neg (not_not_intro rfl)]
      simpa using hinput
  | cons c rest =>
      have hself := clip_cstr_iff (show 0 < 4096 by decide) (c :: rest)
      have htwice : clip 4096 (clip 4096 (cstr (c :: rest))) = clip 4096 (cstr (c :: rest)) :=
        List.take_take.trans (by rw [Nat.min_self]; rfl)
      by_cases hempty : clip 4096 (cstr (c :: rest)) = []
      · rw [if_neg (not_not_intro hempty)]
        -- the string starts with a terminator, and what is read has none
        have hnot : ¬ HoldsText 4096 (c :: rest) := fun h => by
          rw [h.clip_cstr] at hempty
          cases hempty
        have hc : c = 0 := by
          by_contra hne
          rw [cstr, upTo_cons hne] at hempty
          cases hempty
        have hzero := CJson.zero_not_mem_getString tool (lit "input") 4096
        constructor
        · intro h
          rw [h] at hzero
          exact absurd (List.mem_cons_self ..) (hc ▸ hzero)
        · rintro ⟨h, -⟩
          exact absurd (h (List.cons_ne_nil c rest)) hnot
      · rw [if_pos hempty, htwice]
        refine hself.trans ⟨fun h => ⟨fun _ => h, fun hnil => ?_⟩, fun h => ?_⟩
        · cases hnil
        · exact h.1 (List.cons_ne_nil c rest)

/-- Without a string for the arguments the buffer shows what it held. -/
theorem extractArgs_garbage {tool : CJson} (hargs : tool.stringValue (lit "args") = none)
    (c : UInt8) : extractArgs [c] tool = [c] := by
  have hread : tool.getString (lit "args") [c] 4096 = [c] := by
    rw [CJson.getString, CJson.stringField_eq, hargs]
    rfl
  unfold extractArgs
  rw [hread]
  rfl

/-- A tool object is all that shows, whatever the buffer held, iff it is kept. -/
theorem extractToolFromObj_iff (printNumber : Bytes → Bytes) {obj tool : CJson}
    (htool : obj.getObject (lit "tool") = some tool) :
    (∀ garbage, extractToolFromObj garbage obj =
        ((ToolSource.tool tool).name, (ToolSource.tool tool).arguments printNumber)) ↔
      ToolKept printNumber tool := by
  have hname : tool.getString (lit "name") [] 128 = (tool.stringValue (lit "name")).getD [] ↔
      (∀ v, tool.stringValue (lit "name") = some v → HoldsText 128 v) ∧
        (tool.stringValue (lit "name") = none → ([] : Bytes) = []) :=
    getString_name_iff (by decide)
  constructor
  · intro h
    have hparts : ∀ garbage, tool.getString (lit "name") [] 128 = (ToolSource.tool tool).name ∧
        extractArgs garbage tool = (ToolSource.tool tool).arguments printNumber := by
      intro garbage
      have hboth := h garbage
      rw [extractToolFromObj_eq garbage htool, Prod.mk.injEq] at hboth
      exact hboth
    refine ⟨(hname.mp (hparts []).1).1, ?_⟩
    cases hargs : tool.stringValue (lit "args") with
    | none =>
        have hdiffer : ([97] : Bytes) = [98] := by
          rw [← extractArgs_garbage hargs 97, ← extractArgs_garbage hargs 98, (hparts [97]).2,
            (hparts [98]).2]
        cases hdiffer
    | some v => exact ⟨v, rfl, (extractArgs_iff printNumber hargs []).mp (hparts []).2⟩
  · rintro ⟨hfits, v, hargs, hwhole⟩ garbage
    rw [extractToolFromObj_eq garbage htool, Prod.mk.injEq]
    exact ⟨hname.mpr ⟨hfits, fun _ => rfl⟩, (extractArgs_iff printNumber hargs garbage).mpr hwhole⟩

/-! ## Frames -/

/-- The type of a frame's event, before the intent of a response changes it. -/
def frameType (frame : Bytes) : NativeEventType :=
  nativeEventTypeFromString ((frameValue frame).getString (lit "type") [] 64)

/-- The two kinds of frames that carry a tool object. -/
theorem toolSource_cases {frame : Bytes} {source : ToolSource}
    (h : toolSource frame = some source) :
    (frameType frame = .response ∧ ∃ intent, source = .intent intent ∧
        (frameValue frame).getObjectItem (lit "tool_intent") = some intent) ∨
      (frameType frame = .toolIntent ∧ ∃ tool, source = .tool tool ∧
        (frameValue frame).getObject (lit "tool") = some tool) := by
  unfold toolSource at h
  split at h
  · next htype =>
      obtain ⟨intent, hintent, rfl⟩ := Option.map_eq_some_iff.mp h
      exact Or.inl ⟨htype, intent, rfl, hintent⟩
  · next htype =>
      obtain ⟨tool, htool, rfl⟩ := Option.map_eq_some_iff.mp h
      exact Or.inr ⟨htype, tool, rfl, htool⟩
  · cases h

/-- A frame of a known type is read by its type. -/
theorem nativeParseFrame_known {frame : Bytes} (h : frameType frame ≠ .unknown)
    (env : ParserEnv) :
    nativeParseFrame env frame = eventOf env (env.uninit frame) (frameValue frame)
      ((frameValue frame).getString (lit "type") [] 64) := by
  have htype : (frameValue frame).getString (lit "type") [] 64 ≠ [] := by
    intro hnil
    rw [frameType, hnil] at h
    exact absurd rfl h
  unfold nativeParseFrame frameValue at *
  cases hparse : CJson.parse frame with
  | none =>
      rw [hparse] at htype
      exact absurd rfl htype
  | some obj =>
      rw [hparse, Option.getD_some] at htype
      dsimp only
      rw [if_neg htype]
      rfl

/-- The tool of a frame is what its tool object says, whatever the buffer held,
iff nothing else shows. -/
theorem parsedTool_iff (printNumber : Bytes → Bytes) (numberToInt : Bytes → Int)
    {frame : Bytes} {source : ToolSource} (hsource : toolSource frame = some source) :
    (∀ garbage, parsedTool printNumber numberToInt garbage frame =
        (source.name, source.arguments printNumber)) ↔
      source.Kept printNumber (frameValue frame) := by
  rcases toolSource_cases hsource with ⟨htype, intent, rfl, hintent⟩ | ⟨htype, tool, rfl, htool⟩
  · have hparsed : ∀ garbage, parsedTool printNumber numberToInt garbage frame =
        (parseResponse ⟨printNumber, numberToInt, fun _ => garbage⟩ (frameValue frame)
          ((frameValue frame).getString (lit "type") [] 64)
          ((frameValue frame).getString (lit "id") [] 64)).tool := by
      intro garbage
      rw [parsedTool, nativeParseFrame_known (by rw [htype]; decide), eventOf]
      rw [frameType] at htype
      rw [htype]
    have hiff := fun garbage => parseResponse_tool_iff
      ⟨printNumber, numberToInt, fun _ => garbage⟩
      ((frameValue frame).getString (lit "type") [] 64)
      ((frameValue frame).getString (lit "id") [] 64) hintent
    constructor
    · intro h
      exact (hiff []).mp ((hparsed []).symm.trans (h []))
    · intro h garbage
      exact (hparsed garbage).trans ((hiff garbage).mpr h)
  · have hparsed : ∀ garbage, parsedTool printNumber numberToInt garbage frame =
        extractToolFromObj garbage (frameValue frame) := by
      intro garbage
      rw [parsedTool, nativeParseFrame_known (by rw [htype]; decide), eventOf]
      rw [frameType] at htype
      rw [htype]
      rfl
    simp only [hparsed]
    exact extractToolFromObj_iff printNumber htool

/-- **Tool intents are isolated in two frames iff nothing but the tool object
shows in either.** -/
theorem intentsIsolated_iff (printNumber : Bytes → Bytes) (numberToInt : Bytes → Int)
    (frame frame' : Bytes) :
    IntentsIsolated printNumber numberToInt frame frame' ↔
      ∀ source, toolSource frame = some source → toolSource frame' = some source →
        source.Kept printNumber (frameValue frame) ∧
          source.Kept printNumber (frameValue frame') := by
  refine forall_congr' fun source => forall_congr' fun h => forall_congr' fun h' => ?_
  have hfirst := parsedTool_iff printNumber numberToInt h
  have hsecond := parsedTool_iff printNumber numberToInt h'
  constructor
  · intro hisolated
    exact ⟨hfirst.mp hisolated.first, hsecond.mp hisolated.second⟩
  · rintro ⟨hkept, hkept'⟩
    have hall := hfirst.mpr hkept
    have hall' := hsecond.mpr hkept'
    exact ⟨fun garbage garbage' => (hall garbage).trans (hall' garbage').symm, hall, hall'⟩

/-! ## A tool that is named by a status -/

/-- An intent without a name. -/
def namelessIntent : CJson := .object [(lit "arguments", .string (lit "ls"))]

/-- The members of a response with that intent. -/
def namelessMembers (status : Bytes) : List (Bytes × CJson × Bytes) :=
  [(lit "type", .string (lit "response"), CJson.quoted (lit "response")),
    (lit "status", .string status, CJson.quoted status),
    (lit "tool_intent", namelessIntent, lit "\x7b\"arguments\":\"ls\"\x7d")]

/-- The response. -/
def namelessFrame (status : Bytes) : Bytes := 123 :: CJson.printedMembers [] (namelessMembers status)

theorem reads_namelessIntent :
    CJson.Reads 1 namelessIntent (lit "\x7b\"arguments\":\"ls\"\x7d") := by
  have htext : lit "\x7b\"arguments\":\"ls\"\x7d" = 123 :: CJson.printedMembers []
      [(lit "arguments", .string (lit "ls"), CJson.quoted (lit "ls"))] := by decide
  rw [htext]
  have hmembers : CJson.ReadsMembers 2 [(lit "arguments", .string (lit "ls"))]
      (CJson.printedMembers [] [(lit "arguments", .string (lit "ls"), CJson.quoted (lit "ls"))]) :=
    CJson.readsMembers_printed (Or.inl rfl) (List.cons_ne_nil _ _) (by
      intro m hm
      rw [List.mem_singleton.mp hm]
      exact CJson.reads_string 2 (lit "ls"))
  exact CJson.reads_object hmembers
    (CJson.opensMember_printed [] (List.cons_ne_nil _ _)) (by decide)

theorem toolSource_namelessFrame {status : Bytes} (hzero : 0 ∉ status) :
    toolSource (namelessFrame status) = some (.intent namelessIntent) := by
  have hreads : ∀ m ∈ namelessMembers status, CJson.Reads 1 m.2.1 m.2.2 := by
    simp only [namelessMembers, List.forall_mem_cons, List.not_mem_nil, false_implies,
      implies_true, and_true]
    exact ⟨CJson.reads_string _ _, CJson.reads_string _ _, reads_namelessIntent⟩
  have hplain : ∀ m ∈ namelessMembers status, 0 ∉ m.1 ∧ 0 ∉ m.2.2 := by
    simp only [namelessMembers, List.forall_mem_cons, List.not_mem_nil, false_implies,
      implies_true, and_true]
    exact ⟨⟨by decide, by decide⟩,
      ⟨by decide, CJson.zero_not_mem_quoted hzero⟩, by decide, by decide⟩
  have hne : namelessMembers status ≠ [] := List.cons_ne_nil _ _
  have hparse := CJson.parse_printedMembers (Or.inl (rfl : ([] : Bytes) = [])) hne hreads hplain
  rw [List.nil_append, List.append_nil] at hparse
  have hvalue : frameValue (namelessFrame status) =
      .object ((namelessMembers status).map fun m => (m.1, m.2.1)) := by
    rw [frameValue, namelessFrame, hparse]
    rfl
  rw [toolSource, hvalue]
  rfl

/-- Two responses with the same intent, which has no name, name two tools. -/
theorem intentsIsolated_fails :
    ¬ IntentsIsolated id (fun _ => 0) (namelessFrame (lit "completed"))
      (namelessFrame (lit "incomplete")) := by
  intro h
  have hisolated := h _ (toolSource_namelessFrame (by decide +kernel))
    (toolSource_namelessFrame (by decide +kernel))
  have hfirst : parsedTool id (fun _ => 0) [] (namelessFrame (lit "completed")) =
      (lit "completed", lit "ls") := by decide +kernel
  have hsecond : parsedTool id (fun _ => 0) [] (namelessFrame (lit "incomplete")) =
      (lit "incomplete", lit "ls") := by decide +kernel
  have hsame := hisolated.alike [] []
  rw [hfirst, hsecond] at hsame
  exact absurd hsame (by decide +kernel)

end ToolIntents

end StarBridge
