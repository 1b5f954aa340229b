import StarBridge.JsonReprint
import StarBridge.RequestFields
import StarBridge.TurnAck
import StarBridge.TurnEvents

/-!
# The tools a request offers

`codex_parse_request` prints the `tools` array into a buffer of 65536 bytes,
`handle_response_native` parses it again, normalises at most 64 tools and lists them in a
prompt of 8192 bytes.  A list that does not fit loses its end, and a text that does not fit
loses every tool.  `tools_listed_iff` says when each tool is listed.
-/

namespace StarBridge

open CText CJson

/-! ## Normalized tools -/

/-- `s_tool_name_map`: type, name and normalized name. -/
def toolNameMap : List (Bytes × Bytes × Bytes) :=
  [(lit "function", lit "web_search", lit "google_search"),
    (lit "web_search", lit "web_search", lit "google_search"),
    (lit "function", lit "google_search", lit "google_search"),
    (lit "computer", lit "computer", lit "computer_call"),
    (lit "function", lit "computer_call", lit "computer_call"),
    (lit "computer", lit "computer_call", lit "computer_call"),
    (lit "function", lit "apply_patch", lit "apply_patch"),
    (lit "function", lit "patch", lit "apply_patch"),
    (lit "function", lit "edit_file", lit "apply_patch"),
    (lit "function", lit "shell", lit "execute_shell"),
    (lit "function", lit "local_shell", lit "execute_shell"),
    (lit "function", lit "run_shell", lit "execute_shell"),
    (lit "function", lit "execute_shell", lit "execute_shell"),
    (lit "function", lit "bash", lit "execute_shell"),
    (lit "function", lit "sh", lit "execute_shell"),
    (lit "function", lit "browse_url", lit "browse_url"),
    (lit "function", lit "browse", lit "browse_url"),
    (lit "function", lit "text_editor", lit "text_editor"),
    (lit "function", lit "list_tools", lit "list_tools"),
    (lit "function", lit "mcp_list_tools", lit "list_tools"),
    (lit "function", lit "mcp_call", lit "mcp_call")]

/-- `codex_normalize_tool_name`. -/
def codexNormalizeToolName (type name : Bytes) : Bytes :=
  match toolNameMap.find? fun m => m.1 = type ∧ m.2.1 = name with
  | some m => m.2.2
  | none => name

/-- `NormalizedToolDef`.  Its normalized name is a C string in 128 bytes. -/
structure NormalizedToolDef where
  originalName : Bytes
  normalizedName : Bytes
  type : Bytes
  description : Bytes
  inputSchemaJson : Bytes
  isBridgeOwned : Bool
  name_fits : normalizedName.length < 128

theorem length_clip_name (name : Bytes) : (clip 128 name).length < 128 :=
  length_clip_lt (by decide) name

/-- The string of a member, empty when there is none. -/
def textOf (obj : Option CJson) (field : Bytes) : Bytes :=
  (obj.bind fun obj => obj.stringField field).getD []

/-- The `type` of a tool. -/
def toolType (tool : CJson) : Bytes := (tool.stringField (lit "type")).getD (lit "function")

/-- One tool of `codex_normalize_tools`. -/
def normalizeTool (printNumber : Bytes → Bytes) (tool : CJson) : NormalizedToolDef :=
  let function := tool.getObject (lit "function")
  let type := clip 32 (toolType tool)
  let functionName := clip 128 (textOf function (lit "name"))
  let originalName :=
    if functionName = [] then clip 128 (textOf (some tool) (lit "name")) else functionName
  let norm := codexNormalizeToolName type originalName
  let topDescription := clip 4096 (textOf (some tool) (lit "description"))
  let schemaItem : Option CJson :=
    match tool.getObjectItem (lit "input_schema") with
    | some schema => some schema
    | none => function.bind fun f => f.getObjectItem (lit "parameters")
  let schema : Bytes := (schemaItem.map fun item => clip 16384 (item.print printNumber)).getD []
  { originalName := originalName
    normalizedName := clip 128 norm
    type := type
    description :=
      if topDescription = [] then clip 4096 (textOf function (lit "description"))
      else topDescription
    inputSchemaJson :=
      if schema = [] then lit "\x7b\"type\":\"object\",\"properties\":\x7b\x7d\x7d" else schema
    isBridgeOwned := norm ≠ originalName || type = lit "computer" || type = lit "web_search"
    name_fits := length_clip_name norm }

/-- `codex_normalize_tools`. -/
def codexNormalizeTools (printNumber : Bytes → Bytes) (body : CJson) (maxTools : Nat) :
    List NormalizedToolDef :=
  match body.getArray (lit "tools") with
  | some tools => (tools.take maxTools).map (normalizeTool printNumber)
  | none => []

/-! ## The prompt -/

/-- One turn of the loop of `codex_build_tool_prompt`, unless the name has no room. -/
def appendTool (maxLen : Nat) (dest : Bytes) (tool : NormalizedToolDef) : Bytes :=
  let dest := appendText maxLen (appendText maxLen dest (lit "\n- ")) tool.normalizedName
  if tool.description ≠ [] ∧ dest.length + 2 + tool.description.length + 1 < maxLen then
    appendText maxLen (appendText maxLen dest (lit ": ")) tool.description
  else dest

/-- The loop of `codex_build_tool_prompt`. -/
def appendTools (maxLen : Nat) : Bytes → List NormalizedToolDef → Bytes
  | dest, [] => dest
  | dest, tool :: rest =>
      if maxLen ≤ dest.length + 3 + tool.normalizedName.length + 2 then dest
      else appendTools maxLen (appendTool maxLen dest tool) rest

/-- `codex_build_tool_prompt`. -/
def codexBuildToolPrompt (tools : List NormalizedToolDef) (maxLen : Nat) : Bytes :=
  let dest := appendTools maxLen [] tools
  if dest = [] then [] else appendText maxLen dest [10]

/-! ## The request -/

/-- The tools that `handle_response_native` finds in a request. -/
def requestTools (printNumber : Bytes → Bytes) (req : RequestParser.HarnessRequest) :
    List NormalizedToolDef :=
  if req.toolDefsJson = [] then []
  else
    match parse req.toolDefsJson with
    | some (.array tools) =>
        let choice := if req.toolChoiceJson = [] then none else parse req.toolChoiceJson
        let body := .object ((lit "tools", .array tools) ::
          (choice.map fun c => (lit "tool_choice", c)).toList)
        codexNormalizeTools printNumber body 64
    | _ => []

/-- What `handle_response_native` does with the tools of a request: it passes them on as a
prompt behind `available_tools:`, unless the agent is not there. -/
inductive NativeForward
  | unavailable
  | forwarded (toolPrompt : Bytes)
  deriving DecidableEq, Repr

/-- The tools in `handle_response_native`, given whether the connection is usable. -/
def handleResponseNative (printNumber : Bytes → Bytes) (connected : Bool)
    (req : RequestParser.HarnessRequest) : NativeForward :=
  if connected then .forwarded (codexBuildToolPrompt (requestTools printNumber req) 8192)
  else .unavailable

/-! ## What the prompt is to say -/

/-- The name a tool is given, in its `function` or beside it. -/
def toolOriginalName (tool : CJson) : Bytes :=
  let functionName := textOf (tool.getObject (lit "function")) (lit "name")
  if functionName = [] then textOf (some tool) (lit "name") else functionName

/-- The normalised name of a tool. -/
def toolName (tool : CJson) : Bytes :=
  codexNormalizeToolName (toolType tool) (toolOriginalName tool)

/-- The description of a tool, as far as there is room for it. -/
def toolDescription (tool : CJson) : Bytes :=
  let top := textOf (some tool) (lit "description")
  clip 4096 (if top = [] then textOf (tool.getObject (lit "function")) (lit "description") else top)

/-- An entry of the prompt, with a name that a `NormalizedToolDef` can hold. -/
structure PromptEntry where
  name : Bytes
  description : Option Bytes
  name_fits : name.length < 128

/-- An entry as text. -/
def PromptEntry.text (e : PromptEntry) : Bytes :=
  lit "\n- " ++ e.name ++ (e.description.map fun d => lit ": " ++ d).getD []

/-- A prompt of entries. -/
def promptText (entries : List PromptEntry) : Bytes :=
  if entries = [] then [] else entries.flatMap PromptEntry.text ++ [10]

/-- The entry is one of the tool: by its name, with or without its description. -/
def PromptEntry.Of (name description : Bytes) (e : PromptEntry) : Prop :=
  e.name = name ∧ ∀ d ∈ e.description, d = description

/-- The prompt lists every tool, once and in order. -/
def Lists (prompt : Bytes) (tools : List CJson) : Prop :=
  ∃ entries, List.Forall₂ (fun tool e => PromptEntry.Of (toolName tool) (toolDescription tool) e)
    tools entries ∧ prompt = promptText entries

/-- Every tool is listed, or the request is rejected. -/
def NativeForward.Lists : NativeForward → List CJson → Prop
  | .unavailable, _ => True
  | .forwarded prompt, tools => StarBridge.Lists prompt tools

/-! ## Normalizing what was printed -/

theorem stringField_reprinted (printNumber : Bytes → Bytes) (obj : CJson) (field : Bytes) :
    (reprinted printNumber obj).stringField field = obj.stringField field := by
  unfold stringField
  rw [getObjectItem_reprinted]
  cases obj.getObjectItem field with
  | none => rfl
  | some value =>
      cases value with
      | string text => exact congrArg some (upTo_eq_self (stop_not_mem_upTo 0 text))
      | number literal =>
          rw [Option.map_some, reprinted]
          split_ifs <;> rfl
      | null => rfl
      | bool b => rfl
      | array items => rfl
      | object members => rfl

theorem getObject_reprinted (printNumber : Bytes → Bytes) (obj : CJson) (field : Bytes) :
    (reprinted printNumber obj).getObject field =
      (obj.getObject field).map (reprinted printNumber) := by
  unfold getObject
  rw [getObjectItem_reprinted]
  cases obj.getObjectItem field with
  | none => rfl
  | some value =>
      cases value with
      | number literal =>
          rw [Option.map_some, reprinted]
          split_ifs <;> rfl
      | string text => rfl
      | null => rfl
      | bool b => rfl
      | array items => rfl
      | object members => rfl

theorem textOf_reprinted (printNumber : Bytes → Bytes) (obj : Option CJson) (field : Bytes) :
    textOf (obj.map (reprinted printNumber)) field = textOf obj field := by
  cases obj with
  | none => rfl
  | some obj => exact congrArg (·.getD []) (stringField_reprinted printNumber obj field)

theorem toolName_reprinted (printNumber : Bytes → Bytes) (tool : CJson) :
    toolName (reprinted printNumber tool) = toolName tool := by
  have htop := textOf_reprinted printNumber (some tool) (lit "name")
  rw [Option.map_some] at htop
  simp only [toolName, toolType, toolOriginalName, stringField_reprinted, getObject_reprinted,
    textOf_reprinted, htop]

theorem toolDescription_reprinted (printNumber : Bytes → Bytes) (tool : CJson) :
    toolDescription (reprinted printNumber tool) = toolDescription tool := by
  have htop := textOf_reprinted printNumber (some tool) (lit "description")
  rw [Option.map_some] at htop
  simp only [toolDescription, getObject_reprinted, textOf_reprinted, htop]

/-- A text that is shorter than a buffer is what the buffer holds of no other. -/
theorem clip_eq_iff {size : Nat} {text short : Bytes} (h : short.length + 1 < size) :
    clip size text = short ↔ text = short := by
  constructor
  · intro hclip
    have hlength := congrArg List.length hclip
    rw [clip, List.length_take] at hlength
    rw [← hclip]
    exact (clip_eq_self (by omega)).symm
  · rintro rfl
    exact clip_eq_self (by omega)

theorem find?_congr {α : Type} {p q : α → Bool} {l : List α} (h : ∀ a ∈ l, p a = q a) :
    l.find? p = l.find? q := by
  induction l with
  | nil => rfl
  | cons a l ih =>
      rw [List.find?_cons, List.find?_cons, h a List.mem_cons_self,
        ih fun b hb => h b (List.mem_cons_of_mem a hb)]

/-- The types and the names of the table are shorter than the buffers. -/
theorem toolNameMap_short :
    ∀ m ∈ toolNameMap, m.1.length + 1 < 32 ∧ m.2.1.length + 1 < 128 := by
  simp [toolNameMap, lit]

/-- The buffers of a tool cut nothing that the table looks at. -/
theorem codexNormalizeToolName_clip (type name : Bytes) :
    clip 128 (codexNormalizeToolName (clip 32 type) (clip 128 name)) =
      clip 128 (codexNormalizeToolName type name) := by
  have hfind : (toolNameMap.find? fun m => m.1 = clip 32 type ∧ m.2.1 = clip 128 name) =
      toolNameMap.find? fun m => m.1 = type ∧ m.2.1 = name := by
    apply find?_congr
    intro m hm
    obtain ⟨htype, hname⟩ := toolNameMap_short m hm
    simp only [eq_comm (a := m.1), eq_comm (a := m.2.1), clip_eq_iff htype, clip_eq_iff hname]
  rw [codexNormalizeToolName, hfind, codexNormalizeToolName]
  split
  · rfl
  · exact clip_eq_self (length_clip_name name)

theorem normalizeTool_name (printNumber : Bytes → Bytes) (tool : CJson) :
    (normalizeTool printNumber tool).normalizedName = clip 128 (toolName tool) := by
  have hname : (if clip 128 (textOf (tool.getObject (lit "function")) (lit "name")) = [] then
      clip 128 (textOf (some tool) (lit "name"))
      else clip 128 (textOf (tool.getObject (lit "function")) (lit "name"))) =
        clip 128 (toolOriginalName tool) := by
    unfold toolOriginalName
    simp only [clip_eq_nil_iff (show 1 < 128 by decide)]
    split_ifs <;> rfl
  simp only [normalizeTool, hname]
  exact codexNormalizeToolName_clip (toolType tool) (toolOriginalName tool)

theorem normalizeTool_description (printNumber : Bytes → Bytes) (tool : CJson) :
    (normalizeTool printNumber tool).description = toolDescription tool := by
  simp only [normalizeTool, toolDescription, clip_eq_nil_iff (show 1 < 4096 by decide)]
  split_ifs <;> rfl

/-! ## The entries of a prompt -/

/-- The description is added behind the name when it has room. -/
def describes (maxLen off : Nat) (name description : Bytes) : Prop :=
  description ≠ [] ∧ off + 3 + name.length + 2 + description.length + 1 < maxLen

instance (maxLen off : Nat) (name description : Bytes) :
    Decidable (describes maxLen off name description) :=
  inferInstanceAs (Decidable (_ ∧ _))

/-- The entry of a tool behind `off` bytes. -/
def promptEntry (maxLen off : Nat) (tool : NormalizedToolDef) : PromptEntry where
  name := tool.normalizedName
  description :=
    if describes maxLen off tool.normalizedName tool.description then some tool.description
    else none
  name_fits := tool.name_fits

/-- The entries for which there is room behind `off` bytes. -/
def promptEntries (maxLen : Nat) : Nat → List NormalizedToolDef → List PromptEntry
  | _, [] => []
  | off, tool :: rest =>
      if maxLen ≤ off + 3 + tool.normalizedName.length + 2 then []
      else
        promptEntry maxLen off tool ::
          promptEntries maxLen (off + (promptEntry maxLen off tool).text.length) rest

theorem appendText_eq_append {maxLen : Nat} {kept text : Bytes}
    (h : kept.length + text.length < maxLen) : appendText maxLen kept text = kept ++ text := by
  rw [appendText, if_neg (by omega), List.take_of_length_le (by omega)]

theorem length_entry_text (e : PromptEntry) :
    e.text.length = 3 + e.name.length + (e.description.map fun d => 2 + d.length).getD 0 := by
  have hlead : (lit "
- ").length = 3 := length_lit _
  have hcolon : (lit ": ").length = 2 := length_lit _
  cases h : e.description with
  | none => simp [PromptEntry.text, h, hlead]
  | some d =>
      simp [PromptEntry.text, h, hlead, hcolon]
      omega

/-- A tool that has room is appended as its entry, and a byte is left. -/
theorem appendTool_eq {maxLen : Nat} {dest : Bytes} {tool : NormalizedToolDef}
    (h : dest.length + 3 + tool.normalizedName.length + 2 < maxLen) :
    appendTool maxLen dest tool = dest ++ (promptEntry maxLen dest.length tool).text ∧
      dest.length + (promptEntry maxLen dest.length tool).text.length + 1 < maxLen := by
  have hlead : (lit "
- ").length = 3 := length_lit _
  have hcolon : (lit ": ").length = 2 := length_lit _
  have hfirst : appendText maxLen dest (lit "\n- ") = dest ++ lit "\n- " :=
    appendText_eq_append (by omega)
  have hlength : (dest ++ lit "\n- " ++ tool.normalizedName).length =
      dest.length + 3 + tool.normalizedName.length := by
    rw [List.length_append, List.length_append, hlead]
  have hname : appendText maxLen (dest ++ lit "\n- ") tool.normalizedName =
      dest ++ lit "\n- " ++ tool.normalizedName :=
    appendText_eq_append (by rw [List.length_append, hlead]; omega)
  rw [length_entry_text]
  unfold appendTool promptEntry PromptEntry.text
  simp only [hfirst, hname, hlength]
  by_cases hdescribes : tool.description ≠ [] ∧
      dest.length + 3 + tool.normalizedName.length + 2 + tool.description.length + 1 < maxLen
  · have hroom := hdescribes.2
    have hmark : appendText maxLen (dest ++ lit "\n- " ++ tool.normalizedName) (lit ": ") =
        dest ++ lit "\n- " ++ tool.normalizedName ++ lit ": " :=
      appendText_eq_append (by rw [hlength, hcolon]; omega)
    have hdescription : appendText maxLen (dest ++ lit "\n- " ++ tool.normalizedName ++ lit ": ")
        tool.description = dest ++ lit "\n- " ++ tool.normalizedName ++ lit ": " ++
          tool.description :=
      appendText_eq_append (by rw [List.length_append, hlength, hcolon]; omega)
    have hdescribes' : describes maxLen dest.length tool.normalizedName tool.description :=
      hdescribes
    rw [if_pos hdescribes, if_pos hdescribes', hmark, hdescription]
    simp only [Option.map_some, Option.getD_some, List.append_assoc]
    exact ⟨trivial, by omega⟩
  · have hdescribes' : ¬ describes maxLen dest.length tool.normalizedName tool.description :=
      hdescribes
    rw [if_neg hdescribes, if_neg hdescribes']
    simp only [Option.map_none, Option.getD_none, List.append_nil, List.append_assoc]
    exact ⟨trivial, by omega⟩

/-- The loop appends the entries for which there is room, and a byte is left. -/
theorem appendTools_eq {maxLen : Nat} (tools : List NormalizedToolDef) {dest : Bytes}
    (h : dest.length + 1 < maxLen) :
    appendTools maxLen dest tools =
        dest ++ (promptEntries maxLen dest.length tools).flatMap PromptEntry.text ∧
      (appendTools maxLen dest tools).length + 1 < maxLen := by
  induction tools generalizing dest with
  | nil => simpa [appendTools, promptEntries] using h
  | cons tool rest ih =>
      rw [appendTools, promptEntries]
      by_cases hroom : maxLen ≤ dest.length + 3 + tool.normalizedName.length + 2
      · rw [if_pos hroom, if_pos hroom]
        simpa using h
      · rw [if_neg hroom, if_neg hroom]
        obtain ⟨htool, hleft⟩ := appendTool_eq (Nat.lt_of_not_le hroom)
        have hshort : (appendTool maxLen dest tool).length + 1 < maxLen := by
          rw [htool, List.length_append]
          omega
        have hdest := ih hshort
        rw [htool, List.length_append] at hdest
        rw [htool]
        refine ⟨?_, hdest.2⟩
        rw [hdest.1, List.flatMap_cons, List.append_assoc]

/-- **The prompt is its entries.** -/
theorem codexBuildToolPrompt_eq (tools : List NormalizedToolDef) :
    codexBuildToolPrompt tools 8192 = promptText (promptEntries 8192 0 tools) := by
  have hempty : ([] : Bytes).length + 1 < 8192 := by decide
  obtain ⟨hloop, hleft⟩ := appendTools_eq tools hempty
  rw [List.nil_append, List.length_nil] at hloop
  unfold codexBuildToolPrompt promptText
  dsimp only
  rw [hloop] at hleft ⊢
  cases hentries : promptEntries 8192 0 tools with
  | nil => rfl
  | cons e rest =>
      have hne : (e :: rest).flatMap PromptEntry.text ≠ [] := by
        simp [PromptEntry.text, lit]
      rw [hentries] at hleft
      rw [if_neg hne, if_neg (List.cons_ne_nil e rest)]
      exact appendText_eq_append hleft

/-! ## Reading the entries off the prompt -/

/-- Two entries of one tool. -/
def PromptEntry.Alike (e e' : PromptEntry) : Prop :=
  e.name = e'.name ∧ ∀ d ∈ e.description, ∀ d' ∈ e'.description, d = d'

theorem promptLines_head (entries : List PromptEntry) :
    ∃ more, entries.flatMap PromptEntry.text ++ [10] = 10 :: more := by
  cases entries with
  | nil => exact ⟨[], rfl⟩
  | cons e rest =>
      have hlead : lit "\n- " = 10 :: [45, 32] := rfl
      rw [List.flatMap_cons, PromptEntry.text, hlead]
      exact ⟨_, rfl⟩

/-- An entry is not the end of the prompt. -/
theorem promptLines_cons_ne (e : PromptEntry) (rest : List PromptEntry) :
    (e :: rest).flatMap PromptEntry.text ++ [10] ≠ [10] := by
  intro h
  have hlength := congrArg List.length h
  rw [List.flatMap_cons, List.length_append, List.length_append, length_entry_text] at hlength
  simp only [List.length_cons, List.length_nil] at hlength
  omega

/-- The line break in front of the next entry cannot be the colon in front of a
description, so that the same lines are of as many entries. -/
theorem length_eq_of_lines_eq {entries entries' : List PromptEntry}
    (h : ∀ p ∈ entries.zip entries', PromptEntry.Alike p.1 p.2)
    (hlines : entries.flatMap PromptEntry.text ++ [10] =
      entries'.flatMap PromptEntry.text ++ [10]) :
    entries.length = entries'.length := by
  induction entries generalizing entries' with
  | nil =>
      cases entries' with
      | nil => rfl
      | cons e' rest' => exact absurd hlines.symm (promptLines_cons_ne e' rest')
  | cons e rest ih =>
      cases entries' with
      | nil => exact absurd hlines (promptLines_cons_ne e rest)
      | cons e' rest' =>
          rw [List.zip_cons_cons, List.forall_mem_cons] at h
          obtain ⟨⟨hname, hdescription⟩, hrest⟩ := h
          dsimp only at hname hdescription
          rw [List.length_cons, List.length_cons]
          obtain ⟨more, hmore⟩ := promptLines_head rest
          obtain ⟨more', hmore'⟩ := promptLines_head rest'
          simp only [List.flatMap_cons, PromptEntry.text, hname, List.append_assoc,
            List.append_cancel_left_eq] at hlines
          have hcolon : lit ": " = [58, 32] := rfl
          cases hd : e.description with
          | none =>
              cases hd' : e'.description with
              | none =>
                  simp only [hd, hd', Option.map_none, Option.getD_none, List.nil_append] at hlines
                  rw [ih hrest hlines]
              | some d' =>
                  simp [hd, hd', hmore, hcolon] at hlines
          | some d =>
              cases hd' : e'.description with
              | none => simp [hd, hd', hmore', hcolon] at hlines
              | some d' =>
                  have hsame := hdescription d hd d' hd'
                  simp only [hd, hd', hsame, Option.map_some, Option.getD_some,
                    List.append_assoc, List.append_cancel_left_eq] at hlines
                  rw [ih hrest hlines]

theorem promptText_eq_nil_iff (entries : List PromptEntry) :
    promptText entries = [] ↔ entries = [] := by
  unfold promptText
  split_ifs with h <;> simp [h]

/-! ## Which tools are listed -/

/-- The names have room in the prompt, each behind what stands before it and with two bytes
to spare.  A description has room or is left out. -/
def PromptFits : Nat → List CJson → Prop
  | _, [] => True
  | off, tool :: rest =>
      off + 3 + (toolName tool).length + 2 < 8192 ∧
        PromptFits (off + (3 + (toolName tool).length +
          if describes 8192 off (toolName tool) (toolDescription tool) then
            2 + (toolDescription tool).length
          else 0)) rest

/-- The tools for which no limit is met: that of the printed array, of the table, of a name
and of the prompt. -/
structure ToolsFit (printNumber : Bytes → Bytes) (tools : List CJson) : Prop where
  text : (print printNumber (.array tools)).length < 65536
  count : tools.length ≤ 64
  names : ∀ tool ∈ tools, (toolName tool).length < 128
  prompt : PromptFits 0 tools

/-- A tool that has been printed, parsed and normalised. -/
def listedTool (printNumber : Bytes → Bytes) (tool : CJson) : NormalizedToolDef :=
  normalizeTool printNumber (reprinted printNumber tool)

variable (printNumber : Bytes → Bytes)

theorem listedTool_name {tool : CJson} (h : (toolName tool).length < 128) :
    (listedTool printNumber tool).normalizedName = toolName tool := by
  rw [listedTool, normalizeTool_name, toolName_reprinted, clip_eq_self h]

theorem listedTool_description (tool : CJson) :
    (listedTool printNumber tool).description = toolDescription tool := by
  rw [listedTool, normalizeTool_description, toolDescription_reprinted]

/-- The entry of a tool whose name has room. -/
theorem promptEntry_listedTool {tool : CJson} (h : (toolName tool).length < 128) (off : Nat) :
    PromptEntry.Of (toolName tool) (toolDescription tool)
        (promptEntry 8192 off (listedTool printNumber tool)) ∧
      (promptEntry 8192 off (listedTool printNumber tool)).text.length =
        3 + (toolName tool).length +
          if describes 8192 off (toolName tool) (toolDescription tool) then
            2 + (toolDescription tool).length
          else 0 := by
  rw [length_entry_text]
  unfold promptEntry PromptEntry.Of
  simp only [listedTool_name printNumber h, listedTool_description]
  split_ifs <;> simp

/-- Every tool has an entry exactly when there is room for each. -/
theorem length_promptEntries_iff {tools : List CJson}
    (h : ∀ tool ∈ tools, (toolName tool).length < 128) (n off : Nat) :
    (promptEntries 8192 off ((tools.take n).map (listedTool printNumber))).length =
        tools.length ↔ tools.length ≤ n ∧ PromptFits off tools := by
  induction tools generalizing n off with
  | nil => simp [promptEntries, PromptFits]
  | cons tool rest ih =>
      rw [List.forall_mem_cons] at h
      cases n with
      | zero => simp [promptEntries]
      | succ n =>
          rw [List.take_succ_cons, List.map_cons, promptEntries, PromptFits,
            listedTool_name printNumber h.1, (promptEntry_listedTool printNumber h.1 off).2]
          by_cases hroom : 8192 ≤ off + 3 + (toolName tool).length + 2
          · rw [if_pos hroom]
            refine iff_of_false (by simp) fun hfits => ?_
            exact absurd hfits.2.1 (Nat.not_lt_of_le hroom)
          · rw [if_neg hroom, List.length_cons, List.length_cons, Nat.add_right_cancel_iff, ih h.2,
              Nat.add_le_add_iff_right, and_iff_right (Nat.lt_of_not_le hroom)]

/-- Where each has an entry, the entries are those of the tools. -/
theorem forall₂_promptEntries {tools : List CJson}
    (h : ∀ tool ∈ tools, (toolName tool).length < 128) {n off : Nat}
    (hcount : tools.length ≤ n) (hfits : PromptFits off tools) :
    List.Forall₂ (fun tool e => PromptEntry.Of (toolName tool) (toolDescription tool) e) tools
      (promptEntries 8192 off ((tools.take n).map (listedTool printNumber))) := by
  induction tools generalizing n off with
  | nil => simp [promptEntries]
  | cons tool rest ih =>
      rw [List.forall_mem_cons] at h
      cases n with
      | zero => simp at hcount
      | succ n =>
          obtain ⟨hentry, hlength⟩ := promptEntry_listedTool printNumber h.1 off
          rw [List.take_succ_cons, List.map_cons, promptEntries,
            listedTool_name printNumber h.1, if_neg (Nat.not_le_of_lt hfits.1), hlength]
          exact List.Forall₂.cons hentry (ih h.2 (Nat.le_of_succ_le_succ hcount) hfits.2)

/-- An entry is one of a tool whose name has room. -/
theorem names_fit {tools : List CJson} {entries : List PromptEntry}
    (h : List.Forall₂ (fun tool e => PromptEntry.Of (toolName tool) (toolDescription tool) e)
      tools entries) : ∀ tool ∈ tools, (toolName tool).length < 128 := by
  induction h with
  | nil => simp
  | @cons tool e rest entries hof hrest ih =>
      rw [List.forall_mem_cons]
      exact ⟨hof.1 ▸ e.name_fits, ih⟩

/-- Entries that the prompt has are like those that it is to have. -/
theorem alike_promptEntries {tools : List CJson} {entries : List PromptEntry}
    (h : List.Forall₂ (fun tool e => PromptEntry.Of (toolName tool) (toolDescription tool) e)
      tools entries) (n off : Nat) :
    ∀ p ∈ (promptEntries 8192 off ((tools.take n).map (listedTool printNumber))).zip entries,
      PromptEntry.Alike p.1 p.2 := by
  induction h generalizing n off with
  | nil => simp
  | @cons tool e rest entries hof hrest ih =>
      cases n with
      | zero => simp [promptEntries]
      | succ n =>
          have hname : (toolName tool).length < 128 := hof.1 ▸ e.name_fits
          obtain ⟨hentry, -⟩ := promptEntry_listedTool printNumber hname off
          rw [List.take_succ_cons, List.map_cons, promptEntries]
          split_ifs
          · simp
          · rw [List.zip_cons_cons, List.forall_mem_cons]
            refine ⟨⟨hentry.1.trans hof.1.symm, ?_⟩, ih n _⟩
            intro d hd d' hd'
            exact (hentry.2 d hd).trans (hof.2 d' hd').symm

/-- **The prompt of the first tools lists all of them** when they are all, with names that
have room. -/
theorem lists_iff (n : Nat) (tools : List CJson) :
    Lists (codexBuildToolPrompt ((tools.take n).map (listedTool printNumber)) 8192) tools ↔
      tools.length ≤ n ∧ (∀ tool ∈ tools, (toolName tool).length < 128) ∧ PromptFits 0 tools := by
  rw [codexBuildToolPrompt_eq]
  constructor
  · rintro ⟨entries, hof, htext⟩
    have hnames := names_fit hof
    have hlength : (promptEntries 8192 0
        ((tools.take n).map (listedTool printNumber))).length = entries.length := by
      have halike := alike_promptEntries printNumber hof n 0
      revert halike htext
      generalize promptEntries 8192 0 ((tools.take n).map (listedTool printNumber)) = listed
      intro htext halike
      by_cases hnil : listed = []
      · rw [hnil, (promptText_eq_nil_iff []).mpr rfl, eq_comm, promptText_eq_nil_iff] at htext
        rw [hnil, htext]
      · have hne : entries ≠ [] := by
          rintro rfl
          exact hnil ((promptText_eq_nil_iff listed).mp htext)
        rw [promptText, promptText, if_neg hnil, if_neg hne] at htext
        exact length_eq_of_lines_eq halike htext
    rw [← hof.length_eq] at hlength
    obtain ⟨hcount, hfits⟩ := (length_promptEntries_iff printNumber hnames n 0).mp hlength
    exact ⟨hcount, hnames, hfits⟩
  · rintro ⟨hcount, hnames, hfits⟩
    exact ⟨_, forall₂_promptEntries printNumber hnames hcount hfits, rfl⟩

/-! ## From the request to the prompt -/

mutual

theorem nested_mono : ∀ {depth : Nat} {v : CJson}, Nested (depth + 1) v → Nested depth v
  | _, .null, _ => trivial
  | _, .bool _, _ => trivial
  | _, .number _, _ => trivial
  | _, .string _, _ => trivial
  | _, .array _, h => ⟨Nat.lt_of_succ_lt h.1, nestedItems_mono h.2⟩
  | _, .object _, h => ⟨Nat.lt_of_succ_lt h.1, nestedMembers_mono h.2⟩

theorem nestedItems_mono : ∀ {depth : Nat} {items : List CJson},
    NestedItems (depth + 1) items → NestedItems depth items
  | _, [], _ => trivial
  | _, _ :: _, h => ⟨nested_mono h.1, nestedItems_mono h.2⟩

theorem nestedMembers_mono : ∀ {depth : Nat} {members : List (Bytes × CJson)},
    NestedMembers (depth + 1) members → NestedMembers depth members
  | _, [], _ => trivial
  | _, _ :: _, h => ⟨nested_mono h.1, nestedMembers_mono h.2⟩

end

theorem nested_of_mem {depth : Nat} {members : List (Bytes × CJson)}
    (h : NestedMembers depth members) {m : Bytes × CJson} (hm : m ∈ members) :
    Nested depth m.2 := by
  induction members with
  | nil => cases hm
  | cons first rest ih =>
      obtain rfl | hrest := List.mem_cons.mp hm
      · exact h.1
      · exact ih h.2 hrest

/-- An array in a body that parses is not too deep to be parsed by itself. -/
theorem nested_getArray {body field : Bytes} {items : List CJson}
    (h : (RequestParser.bodyObject body).getArray field = some items) :
    Nested 0 (.array items) := by
  unfold RequestParser.bodyObject CJson.getArray at h
  cases hparse : parse body with
  | none => simp [hparse, getObjectItem] at h
  | some obj =>
      rw [hparse, Option.getD_some] at h
      obtain ⟨⟨v, left⟩, hvalue, rfl⟩ := Option.map_eq_some_iff.mp hparse
      have hnested := (parse_nested _).1 _ _ _ _ hvalue
      cases v with
      | object members =>
          cases hfind : members.find? fun m => nameMatches field m.1 with
          | none => simp [getObjectItem, hfind] at h
          | some m =>
              simp only [getObjectItem, hfind, Option.map_some] at h
              have hitem := nested_of_mem hnested.2 (List.mem_of_find?_eq_some hfind)
              cases hm : m.2 with
              | array items' =>
                  simp only [hm, Option.some.injEq] at h
                  rw [hm, h] at hitem
                  exact nested_mono hitem
              | null => simp [hm] at h
              | bool b => simp [hm] at h
              | number literal => simp [hm] at h
              | string text => simp [hm] at h
              | object members' => simp [hm] at h
      | null => simp [getObjectItem] at h
      | bool b => simp [getObjectItem] at h
      | number literal => simp [getObjectItem] at h
      | string text => simp [getObjectItem] at h
      | array items' => simp [getObjectItem] at h

/-- The array of a body that is made up for the normaliser. -/
theorem codexNormalizeTools_body (tools : List CJson) (more : List (Bytes × CJson)) (n : Nat) :
    codexNormalizeTools printNumber (.object ((lit "tools", .array tools) :: more)) n =
      (tools.take n).map (normalizeTool printNumber) := by
  have hmatch : nameMatches (lit "tools") (lit "tools") = true := by simp [nameMatches]
  simp [codexNormalizeTools, CJson.getArray, getObjectItem, hmatch]

/-- **What is left of the tools in a request**: the first 64, or none when their text had to be
cut. -/
theorem requestTools_eq {printNumber : Bytes → Bytes} (hnumbers : PrintsNumbers printNumber)
    {req : RequestParser.HarnessRequest} {tools : List CJson}
    (htools : req.toolDefsJson = clip 65536 (print printNumber (.array tools)))
    (hnested : Nested 0 (.array tools)) :
    requestTools printNumber req =
      (tools.take (if (print printNumber (.array tools)).length < 65536 then 64 else 0)).map
        (listedTool printNumber) := by
  have hne : req.toolDefsJson ≠ [] := by
    rw [htools, Ne, clip_eq_nil_iff (by decide), print_array]
    exact List.cons_ne_nil _ _
  rw [requestTools, if_neg hne]
  by_cases hfits : (print printNumber (.array tools)).length < 65536
  · rw [if_pos hfits, htools, clip_eq_self hfits, parse_print_array hnumbers hnested, reprinted,
      reprintedItems_eq_map]
    dsimp only
    rw [codexNormalizeTools_body, ← List.map_take, List.map_map]
    rfl
  · rw [if_neg hfits, htools, clip, parse_array_cut hnumbers hnested (by omega)]
    simp

/-- An accepted request holds its tools as they are printed, cut to the buffer. -/
theorem toolDefsJson_eq {cfg : RequestParser.RequestConfig} {body : Bytes}
    {req : RequestParser.HarnessRequest} {tools : List CJson}
    (haccept : RequestParser.codexParseRequest cfg body = .ok req)
    (htools : (RequestParser.bodyObject body).getArray (lit "tools") = some tools) :
    req.toolDefsJson = clip 65536 (print cfg.printNumber (.array tools)) := by
  rw [congrArg RequestParser.HarnessRequest.toolDefsJson
    (RequestParser.parseObject_fields (RequestParser.parseObject_bodyObject haccept))]
  simp only [RequestParser.requestFields, htools]

/-- **No tool is withheld** exactly when the tools meet none of the limits.  Without an agent
the request is rejected. -/
theorem tools_listed_iff {cfg : RequestParser.RequestConfig}
    (hnumbers : PrintsNumbers cfg.printNumber) {body : Bytes}
    {req : RequestParser.HarnessRequest} {tools : List CJson}
    (haccept : RequestParser.codexParseRequest cfg body = .ok req)
    (htools : (RequestParser.bodyObject body).getArray (lit "tools") = some tools)
    (connected : Bool) :
    (handleResponseNative cfg.printNumber connected req).Lists tools ↔
      connected = false ∨ ToolsFit cfg.printNumber tools := by
  cases connected with
  | false => exact iff_of_true trivial (Or.inl rfl)
  | true =>
      rw [handleResponseNative, if_pos rfl, NativeForward.Lists,
        requestTools_eq hnumbers (toolDefsJson_eq haccept htools) (nested_getArray htools), lists_iff]
      simp only [Bool.true_eq_false, false_or]
      constructor
      · rintro ⟨hcount, hnames, hfits⟩
        by_cases htext : (print cfg.printNumber (.array tools)).length < 65536
        · rw [if_pos htext] at hcount
          exact ⟨htext, hcount, hnames, hfits⟩
        · rw [if_neg htext, Nat.le_zero, List.length_eq_zero_iff] at hcount
          subst hcount
          exact absurd (by simp [print_array, printItems]) htext
      · intro h
        rw [if_pos h.text]
        exact ⟨h.count, h.names, h.prompt⟩

/-- Numbers printed as integers. -/
def integerNumber (literal : Bytes) : Bytes := signedDecimal (atoi literal)

theorem printsNumbers_integerNumber : PrintsNumbers integerNumber := by
  intro literal
  exact ⟨(plainText_signedDecimal _).zero_not_mem, Or.inr fun depth => reads_signedDecimal depth _⟩

/-- A bridge with the default limits. -/
def integerConfig : RequestParser.RequestConfig where
  maxRequestInputBytes := 8388608
  modelReasoningEffort := lit "medium"
  printNumber := integerNumber

/-- A request that offers `n` tools named `t`. -/
def offering (n : Nat) : Bytes :=
  lit "\x7b\"input\":\"hi\",\"tools\":[" ++
    [44].intercalate (List.replicate n (lit "\x7b\"name\":\"t\"\x7d")) ++ lit "]\x7d"

/-- What is true of what an accepted request and its tools come to. -/
theorem exists_offering {n : Nat}
    (haccept : (RequestParser.codexParseRequest integerConfig (offering n)).toOption.isSome = true)
    (htools : ((RequestParser.bodyObject (offering n)).getArray (lit "tools")).map List.length =
      some n) :
    ∃ req tools, RequestParser.codexParseRequest integerConfig (offering n) = .ok req ∧
      (RequestParser.bodyObject (offering n)).getArray (lit "tools") = some tools ∧
        tools.length = n := by
  obtain ⟨tools, hget, hlength⟩ := Option.map_eq_some_iff.mp htools
  cases h : RequestParser.codexParseRequest integerConfig (offering n) with
  | error e =>
      rw [h] at haccept
      cases haccept
  | ok req => exact ⟨req, tools, rfl, hget, hlength⟩

theorem tools_listed_iff_offering :
    ∃ req tools, RequestParser.codexParseRequest integerConfig (offering 1) = .ok req ∧
      (RequestParser.bodyObject (offering 1)).getArray (lit "tools") = some tools ∧
        ((handleResponseNative integerNumber true req).Lists tools ↔
          true = false ∨ ToolsFit integerNumber tools) := by
  obtain ⟨req, tools, haccept, htools, -⟩ :=
    exists_offering (n := 1) (by decide +kernel) (by decide +kernel)
  exact ⟨req, tools, haccept, htools,
    tools_listed_iff printsNumbers_integerNumber haccept htools true⟩

/-- Of 65 tools the last one is not listed, and nothing is rejected. -/
theorem tool_withheld :
    ¬ ∀ (cfg : RequestParser.RequestConfig) (body : Bytes) (req : RequestParser.HarnessRequest)
        (tools : List CJson) (connected : Bool), PrintsNumbers cfg.printNumber →
      RequestParser.codexParseRequest cfg body = .ok req →
      (RequestParser.bodyObject body).getArray (lit "tools") = some tools →
      (handleResponseNative cfg.printNumber connected req).Lists tools := by
  intro h
  obtain ⟨req, tools, haccept, htools, hcount⟩ :=
    exists_offering (n := 65) (by decide +kernel) (by decide +kernel)
  have hlists : (handleResponseNative integerNumber true req).Lists tools :=
    h integerConfig (offering 65) req tools true printsNumbers_integerNumber haccept htools
  have hdefs : req.toolDefsJson = clip 65536 (print integerNumber (.array tools)) :=
    toolDefsJson_eq haccept htools
  rw [handleResponseNative, if_pos rfl, NativeForward.Lists,
    requestTools_eq printsNumbers_integerNumber hdefs (nested_getArray htools), lists_iff,
    hcount] at hlists
  have hfew := hlists.1
  split_ifs at hfew <;> omega

end StarBridge
