import StarBridge.CapabilityRouter
import StarBridge.OwnedText
import StarBridge.ToolHistory

/-!
# The prompt of a turn

`handle_response_native` puts what it knows behind the input of a request, in a buffer that
`dyn_append` doubles: the workspace, the tool history, the resume hint, the tools, the tool
choice, the routing of the capabilities and the context size, and last of all a directive on
the workspace.  Some of these statements close an open line first, others do not.

`turnPrompt` is the text, block by block, and `native_prompt_assembled` says that the buffer
holds exactly it, whatever `malloc` and `realloc` do.
-/

namespace StarBridge

open CText CJson OwnedText Loops

/-! ## Tool choice and routing as text -/

/-- `codex_resolve_tool_choice`. -/
def codexResolveToolChoice (body : CJson) : ToolChoiceSpec :=
  match body.getObjectItem (lit "tool_choice") with
  | some (.string value) =>
      let val := cstr value
      if val = lit "none" then ⟨.none, []⟩
      else if val = lit "auto" then ⟨.auto, []⟩
      else if val = lit "required" ∨ val = lit "any" then ⟨.required, []⟩
      else ⟨.auto, []⟩
  | some (.object members) =>
      let item := CJson.object members
      match (item.getObject (lit "function")).bind fun f => f.stringField (lit "name") with
      | some name => ⟨.named, clip 128 name⟩
      | none =>
          match item.stringField (lit "name") with
          | some name => ⟨.named, clip 128 name⟩
          | none =>
              match item.stringField (lit "type") with
              | some tv =>
                  if tv = lit "none" then ⟨.none, []⟩
                  else if tv = lit "auto" then ⟨.auto, []⟩
                  else if tv = lit "required" then ⟨.required, []⟩
                  else ⟨.auto, []⟩
              | none => ⟨.auto, []⟩
  | _ => ⟨.auto, []⟩

/-- `cap_str`. -/
def capabilityName (capability : Nat) : Bytes :=
  if capability = capImage then lit "image"
  else if capability = capComputer then lit "computer"
  else if capability = capWebSearch then lit "web_search"
  else lit "unknown"

/-- `conf_str`. -/
def confidenceName : RouteConfidence → Bytes
  | .denied => lit "denied"
  | .weak => lit "weak"
  | .confirmed => lit "confirmed"

/-- A route as `capability_decision_summary` prints it. -/
def CapabilityRoute.line (r : CapabilityRoute) : Bytes :=
  capabilityName r.capability ++ lit ": " ++ confidenceName r.confidence ++ lit " (" ++
    r.reason ++ lit ")\n"

/-- The loop of `capability_decision_summary`. -/
def summaryLoop (maxLen : Nat) : Bytes → List CapabilityRoute → Bytes
  | dest, [] => dest
  | dest, r :: rest =>
      if maxLen ≤ dest.length + r.line.length + 1 then dest
      else summaryLoop maxLen (dest ++ clip (maxLen - dest.length) r.line) rest

/-- `capability_decision_summary`: the newline at the end is trimmed. -/
def capabilityDecisionSummary (dec : RoutingDecision) (maxLen : Nat) : Bytes :=
  let dest := summaryLoop maxLen [] dec.routes
  if dest.getLast? = some 10 then dest.dropLast else dest

/-! ## The buffer -/

/-- The capacity that the loop of `dyn_append` ends with, if it ends. -/
def dynCapacity (need cap : Nat) : Option Nat :=
  WhileLoop.run (fun next => next < need) (fun next => next * 2) need (cap * 2)

/-- `dyn_append`: none if the loop does not end or a write leaves the buffer. -/
def dynAppend (o : Owned) (text : Bytes) (memory : Option (Nat → UInt8)) :
    Option (Bool × Owned) :=
  if cstr text = [] then some (true, o)
  else
    let need := o.len + (cstr text).length + 1
    if o.cap < need then
      (dynCapacity need o.cap).bind fun next =>
        match memory with
        | none => some (false, o)
        | some fresh => copyText ⟨reallocated o.buffer fresh next, o.len, next⟩ (cstr text)
    else copyText o (cstr text)

/-- Why no prompt comes out: a write has left the buffer, or `goto oom`. -/
inductive PromptStop
  | outside
  | oom
  deriving DecidableEq, Repr

/-- The buffer and the number of texts that were appended to it. -/
structure PromptBuffer where
  input : Owned
  appended : Nat

/-- `if (!dyn_append(..)) goto oom`, with what `realloc` gives at each text. -/
def appendPiece (memory : Nat → Option (Nat → UInt8)) (b : PromptBuffer) (text : Bytes) :
    Progress PromptBuffer PromptStop :=
  match dynAppend b.input text (memory b.appended) with
  | none => .ended .outside
  | some (false, _) => .ended .oom
  | some (true, input) => .running ⟨input, b.appended + 1⟩

/-! ## The statements -/

/-- What the function reads besides the request. -/
structure PromptSettings where
  workspace : Bytes
  directiveDisabled : Bool
  hideToolTranscripts : Bool
  history : ToolHistory
  autoLoadResumeSession : Bool
  contextTokens : Int
  workspace_holds : HoldsText 1024 workspace

/-- `strcasestr`, as a condition. -/
def strcasestr (text word : Bytes) : Bool := occurs (word.map toLower) (text.map toLower)

/-- A newline unless a line is at its end: `input[input_len - 1] != '\n'`. -/
def sealing (o : Owned) : List Bytes :=
  if 0 < o.len ∧ o.buffer[o.len - 1]? ≠ some 10 then [lit "\n"] else []

/-- `eng->workspace[0] && !getenv("STAR_BRIDGE_DISABLE_WORKSPACE_DIRECTIVE")`. -/
def PromptSettings.directs (s : PromptSettings) : Bool :=
  s.workspace ≠ [] && !s.directiveDisabled

/-- `!hide_tool_transcripts && tool_history_count() > 0`. -/
def PromptSettings.showsHistory (s : PromptSettings) : Bool :=
  !s.hideToolTranscripts && 0 < s.history.entries.length

/-- The object that the tools and the tool choice are wrapped in, if the tools are an array. -/
def toolsBody (req : RequestParser.HarnessRequest) : Option CJson :=
  if req.toolDefsJson = [] then none
  else
    match parse req.toolDefsJson with
    | some (.array tools) =>
        let choice := if req.toolChoiceJson = [] then none else parse req.toolChoiceJson
        some (.object ((lit "tools", .array tools) ::
          (choice.map fun c => (lit "tool_choice", c)).toList))
    | _ => none

/-- `tool_prompt`. -/
def toolPrompt (printNumber : Bytes → Bytes) (body : CJson) : Bytes :=
  codexBuildToolPrompt (codexNormalizeTools printNumber body 64) 8192

/-- `cap_summary`. -/
def routingSummary (printNumber : Bytes → Bytes) (req : RequestParser.HarnessRequest)
    (body : CJson) : Bytes :=
  capabilityDecisionSummary
    (capabilityRouteTools (codexNormalizeTools printNumber body 64)
      (some (codexResolveToolChoice body)) (cstr req.normalizedInput)
      (cstr req.normalizedInput).length)
    1024

/-- The words behind `wants_review_completion`. -/
def reviewWords : List Bytes :=
  [lit "review", lit "explore", lit "analyze", lit "analyse", lit "audit", lit "intent",
    lit "current state", lit "improvement", lit "score"]

/-- `wants_review_completion`. -/
def wantsReviewCompletion (req : RequestParser.HarnessRequest) : Bool :=
  reviewWords.any fun word => strcasestr (cstr req.normalizedInput) word

/-- The line behind the workspace. -/
def workspaceDirective : Bytes :=
  lit "DIRECTIVE: All file operations, list, find, read, edit must be performed under the " ++
    lit "above workspace_root. Ignore paths from history or other projects.\n"

/-- The line behind that, for a review. -/
def reviewDirective : Bytes :=
  lit "After exploration or tool results, always continue to a full structured final answer " ++
    lit "for the original user request (e.g. review summary with intent, state, scored " ++
    lit "improvements). Do not end after raw listings.\n"

section

variable (s : PromptSettings) (printNumber : Bytes → Bytes) (req : RequestParser.HarnessRequest)

def workspaceStatement (o : Owned) : List Bytes :=
  if s.directs then sealing o ++ [lit "workspace_root: ", s.workspace, lit "\n"] else []

/-- The history is appended without a look at the line before it. -/
def historyStatement (_ : Owned) : List Bytes :=
  if s.showsHistory then
    [lit "tool_history:", (toolHistoryBuildJson s.history).text, lit "\n"]
  else []

def resumeStatement (o : Owned) : List Bytes :=
  if req.previousResponseId ≠ [] then
    sealing o ++ [lit "auto_load_resume_session: ",
      if s.autoLoadResumeSession then lit "true" else lit "false", lit "\n"]
  else []

def toolsStatement (o : Owned) : List Bytes :=
  match toolsBody req with
  | none => []
  | some body =>
      if toolPrompt printNumber body ≠ [] then
        sealing o ++ [lit "available_tools:", toolPrompt printNumber body]
      else []

/-- The tool choice is appended without a look at the line before it. -/
def choiceStatement (_ : Owned) : List Bytes :=
  match toolsBody req with
  | none => []
  | some body =>
      match (codexResolveToolChoice body).mode with
      | .none => [lit "tool_choice: none\n"]
      | .required => [lit "tool_choice: required\n"]
      | .named => [lit "tool_choice: ", (codexResolveToolChoice body).namedTool, lit "\n"]
      | .auto => []

def routingStatement (o : Owned) : List Bytes :=
  match toolsBody req with
  | none => []
  | some body =>
      if routingSummary printNumber req body ≠ [] then
        sealing o ++ [lit "capability_routing: ", routingSummary printNumber req body, lit "\n"]
      else []

def contextStatement (o : Owned) : List Bytes :=
  sealing o ++ [lit "context_tokens: ", clip 32 (signedDecimal s.contextTokens), lit "\n"]

def directiveStatement (o : Owned) : List Bytes :=
  if s.directs && !strcasestr (cstr o.buffer) (lit "reply exactly") then
    [lit "workspace_root: ", s.workspace, lit "\n", workspaceDirective] ++
      if wantsReviewCompletion req then [reviewDirective] else []
  else []

/-- The statements of `handle_response_native` up to the end of the prompt, each with the
texts it appends to the buffer it finds. -/
def promptStatements : List (Owned → List Bytes) :=
  [workspaceStatement s, historyStatement s, resumeStatement s req,
    toolsStatement printNumber req, choiceStatement req, routingStatement printNumber req,
    contextStatement s, directiveStatement s req]

/-- One statement. -/
def runStatement (memory : Nat → Option (Nat → UInt8)) (b : PromptBuffer)
    (statement : Owned → List Bytes) : Progress PromptBuffer PromptStop :=
  Loops.run (appendPiece memory) b (statement b.input)

/-- The buffer with the input of the request. -/
def startInput (first : Option (Nat → UInt8)) : Progress PromptBuffer PromptStop :=
  let inputCap := (cstr req.normalizedInput).length + 4096
  match first with
  | none => .ended .oom
  | some fresh =>
      let input : Owned := ⟨reallocated [] fresh inputCap, 0, inputCap⟩
      match copyText input (cstr req.normalizedInput) with
      | none => .ended .outside
      | some (_, input) => .running ⟨input, 0⟩

/-- The prompt in `handle_response_native`, given what `malloc` gives and then `realloc`. -/
def nativeInput (first : Option (Nat → UInt8)) (memory : Nat → Option (Nat → UInt8)) :
    Progress PromptBuffer PromptStop :=
  (startInput req first).bind fun b =>
    Loops.run (runStatement memory) b (promptStatements s printNumber req)

end

/-! ## The text of the prompt -/

/-- Whole lines of the prompt, with or without a look at the line before them. -/
structure PromptBlock where
  seals : Bool
  text : Bytes

/-- A text with a block behind it. -/
def PromptBlock.put (text : Bytes) (b : PromptBlock) : Bytes :=
  text ++ ((if b.seals then RequestParser.lineBreak text else []) ++ b.text)

section

variable (s : PromptSettings) (printNumber : Bytes → Bytes) (req : RequestParser.HarnessRequest)

def workspaceBlocks : List PromptBlock :=
  if s.directs then [⟨true, lit "workspace_root: " ++ (s.workspace ++ lit "\n")⟩] else []

def historyBlocks : List PromptBlock :=
  if s.showsHistory then
    [⟨false, lit "tool_history:" ++ (cstr s.history.json ++ lit "\n")⟩]
  else []

def resumeBlocks : List PromptBlock :=
  if req.previousResponseId ≠ [] then
    [⟨true, lit "auto_load_resume_session: " ++
      ((if s.autoLoadResumeSession then lit "true" else lit "false") ++ lit "\n")⟩]
  else []

def toolBlocks : List PromptBlock :=
  match toolsBody req with
  | none => []
  | some body =>
      if toolPrompt printNumber body ≠ [] then
        [⟨true, lit "available_tools:" ++ cstr (toolPrompt printNumber body)⟩]
      else []

def choiceBlocks : List PromptBlock :=
  match toolsBody req with
  | none => []
  | some body =>
      match (codexResolveToolChoice body).mode with
      | .none => [⟨false, lit "tool_choice: none\n"⟩]
      | .required => [⟨false, lit "tool_choice: required\n"⟩]
      | .named =>
          [⟨false, lit "tool_choice: " ++
            (cstr (codexResolveToolChoice body).namedTool ++ lit "\n")⟩]
      | .auto => []

def routingBlocks : List PromptBlock :=
  match toolsBody req with
  | none => []
  | some body =>
      if routingSummary printNumber req body ≠ [] then
        [⟨true, lit "capability_routing: " ++
          (cstr (routingSummary printNumber req body) ++ lit "\n")⟩]
      else []

def contextBlock : PromptBlock :=
  ⟨true, lit "context_tokens: " ++ (clip 32 (signedDecimal s.contextTokens) ++ lit "\n")⟩

/-- What stands behind the input, in front of the directive. -/
def promptBlocks : List PromptBlock :=
  workspaceBlocks s ++ historyBlocks s ++ resumeBlocks s req ++ toolBlocks printNumber req ++
    choiceBlocks req ++ routingBlocks printNumber req ++ [contextBlock s]

/-- The prompt without the directive. -/
def promptBody : Bytes :=
  (promptBlocks s printNumber req).foldl PromptBlock.put (cstr req.normalizedInput)

/-- The directive on the workspace. -/
def directiveText : Bytes :=
  lit "workspace_root: " ++ (s.workspace ++ (lit "\n" ++ (workspaceDirective ++
    if wantsReviewCompletion req then reviewDirective else [])))

/-- The input does not ask for an exact reply. -/
def closesWithDirective : Bool :=
  s.directs && !strcasestr (promptBody s printNumber req) (lit "reply exactly")

/-- The prompt. -/
def turnPrompt : Bytes :=
  promptBody s printNumber req ++
    if closesWithDirective s printNumber req then directiveText s req else []

end

/-! ## The buffer holds the text -/

/-- The buffer is an allocation that holds the text, which is a C string, and its
terminator. -/
structure OwnsText (o : Owned) (text : Bytes) : Prop where
  held : Holds text.length o text
  no_zero : 0 ∉ text

theorem zero_not_mem_cstr (text : Bytes) : 0 ∉ cstr text := stop_not_mem_upTo 0 text

/-- What is copied behind a text makes one string with it. -/
theorem ownsText_copied {text rest piece : Bytes} {cap : Nat} (hcap : (text ++ rest).length = cap)
    (hzero : 0 ∉ text) (hroom : text.length + (cstr piece).length + 1 ≤ cap) :
    ∃ o', copyText ⟨text ++ rest, text.length, cap⟩ (cstr piece) = some (true, o') ∧
      OwnsText o' (text ++ cstr piece) := by
  have hlengths := hcap
  rw [List.length_append] at hlengths
  obtain ⟨o', hcopy, hholds⟩ := holds_copied hcap
    (show (cstr piece).length < rest.length by omega)
    (show text.length + (cstr piece).length ≤ (text ++ cstr piece).length by
      rw [List.length_append])
  refine ⟨o', hcopy, hholds, fun hmem => ?_⟩
  exact (List.mem_append.mp hmem).elim hzero (zero_not_mem_cstr piece)

/-- **The growth loop** ends with a capacity that suffices. -/
theorem dynCapacity_spec {need cap : Nat} (hcap : 0 < cap) :
    ∃ next, dynCapacity need cap = some next ∧ need ≤ next := by
  have hlower : ∀ next, 0 < next → next < need →
      0 < next * 2 ∧ need - next * 2 < need - next := by
    intro next hpos hless
    omega
  obtain ⟨next, hrun⟩ := WhileLoop.exists_run_of_measure (fun next => need - next) hlower
    (show 0 < cap * 2 by omega) (Nat.sub_le need _)
  have hleaves : WhileLoop.Leaves (fun next => next < need) (fun next => next * 2) (cap * 2) next :=
    ⟨_, hrun⟩
  have hout := @WhileLoop.Leaves.invariant _ _ _ _ _ _ (fun _ => True) hleaves trivial
    fun _ _ _ => trivial
  exact ⟨next, hrun, Nat.le_of_not_lt hout.2⟩

/-- A buffer that holds a text has the terminator and more behind it. -/
theorem OwnsText.exists_rest {o : Owned} {text : Bytes} (h : OwnsText o text) :
    ∃ rest, o = ⟨text ++ 0 :: rest, text.length, o.cap⟩ ∧
      (text ++ 0 :: rest).length = o.cap := by
  obtain ⟨rest, hrest⟩ := h.held.content
  have hsplit : o.buffer = text ++ 0 :: rest := by
    rw [← hrest, List.append_assoc, List.singleton_append]
  refine ⟨rest, ?_, hsplit ▸ h.held.capacity⟩
  rw [← hsplit, ← h.held.length]

/-- **One call** appends its text, or there is no memory for it. -/
theorem dynAppend_spec {o : Owned} {text : Bytes} (h : OwnsText o text) (piece : Bytes)
    (memory : Option (Nat → UInt8)) :
    (dynAppend o piece memory = some (false, o) ∧ memory = none) ∨
      ∃ o', dynAppend o piece memory = some (true, o') ∧ OwnsText o' (text ++ cstr piece) := by
  obtain ⟨rest, ho, hcap⟩ := h.exists_rest
  have hlen : o.len = text.length := by rw [ho]
  have hbuffer : o.buffer = text ++ 0 :: rest := by rw [ho]
  unfold dynAppend
  split
  · rename_i hempty
    right
    exact ⟨o, rfl, by rwa [hempty, List.append_nil]⟩
  · rw [hlen]
    dsimp only
    split
    · obtain ⟨next, hgrown, hroom⟩ :=
        @dynCapacity_spec (text.length + (cstr piece).length + 1) o.cap
          (Nat.zero_lt_of_lt h.held.room)
      rw [hgrown, Option.bind_some]
      cases memory with
      | none => exact .inl ⟨rfl, rfl⟩
      | some fresh =>
          right
          obtain ⟨rest', hgrew, hsize⟩ : ∃ rest',
              reallocated (text ++ 0 :: rest) fresh next = text ++ rest' ∧
                (text ++ rest').length = next := reallocated_append fresh (by omega)
          dsimp only
          rw [hbuffer, hgrew]
          exact ownsText_copied hsize h.no_zero hroom
    · rename_i hroom
      right
      have hcopy := @ownsText_copied _ _ piece _ hcap h.no_zero (by omega)
      rwa [← ho] at hcopy

/-- What a run comes to: the text, or there was no memory. -/
def Assembled (short : Prop) (text : Bytes) : Progress PromptBuffer PromptStop → Prop
  | .running b => OwnsText b.input text
  | .ended stop => stop = .oom ∧ short

/-- A run goes on from what has been assembled. -/
theorem Assembled.bind {short : Prop} {text text' : Bytes} {p : Progress PromptBuffer PromptStop}
    {f : PromptBuffer → Progress PromptBuffer PromptStop} (h : Assembled short text p)
    (hf : ∀ b, OwnsText b.input text → Assembled short text' (f b)) :
    Assembled short text' (p.bind f) := by
  cases p with
  | running b => exact hf b h
  | ended stop => exact h

section

variable {memory : Nat → Option (Nat → UInt8)} {short : Prop}

theorem appendPiece_assembled (hshort : ∀ i, memory i = none → short) {b : PromptBuffer}
    {text : Bytes} (h : OwnsText b.input text) (piece : Bytes) :
    Assembled short (text ++ cstr piece) (appendPiece memory b piece) := by
  unfold appendPiece
  rcases dynAppend_spec h piece (memory b.appended) with ⟨hcall, hnone⟩ | ⟨o', hcall, howns⟩
  · rw [hcall]
    exact ⟨rfl, hshort _ hnone⟩
  · rw [hcall]
    exact howns

/-- The texts of a statement. -/
theorem appendPieces_assembled (hshort : ∀ i, memory i = none → short) (pieces : List Bytes)
    {b : PromptBuffer} {text : Bytes} (h : OwnsText b.input text) :
    Assembled short (text ++ pieces.flatMap cstr) (Loops.run (appendPiece memory) b pieces) := by
  induction pieces generalizing b text with
  | nil => simpa [Assembled] using h
  | cons piece rest ih =>
      rw [run_cons, List.flatMap_cons, ← List.append_assoc]
      exact (appendPiece_assembled hshort h piece).bind fun _ howns => ih howns

/-- What a statement appends, read off the text in the buffer. -/
def Appends (statement : Owned → List Bytes) (f : Bytes → Bytes) : Prop :=
  ∀ o text, OwnsText o text → (statement o).flatMap cstr = f text

/-- **A sequence of statements** assembles what they append one after the other. -/
theorem runStatements_assembled (hshort : ∀ i, memory i = none → short)
    {statements : List (Owned → List Bytes)} {fs : List (Bytes → Bytes)}
    (hfs : List.Forall₂ Appends statements fs) {b : PromptBuffer} {text : Bytes}
    (h : OwnsText b.input text) :
    Assembled short (fs.foldl (fun text f => text ++ f text) text)
      (Loops.run (runStatement memory) b statements) := by
  induction hfs generalizing b text with
  | nil => exact h
  | @cons statement f statements fs hf _ ih =>
      rw [run_cons, List.foldl_cons, ← hf b.input text h]
      exact (appendPieces_assembled hshort _ h).bind fun _ howns => ih howns

end

/-! ## The statements append the blocks -/

/-- A buffer is sealed by the newline that its text lacks. -/
theorem flatMap_sealing {o : Owned} {text : Bytes} (h : OwnsText o text) :
    (sealing o).flatMap cstr = RequestParser.lineBreak text := by
  obtain ⟨rest, hrest⟩ := h.held.content
  have hlast : text ≠ [] → o.buffer[o.len - 1]? = text.getLast? := by
    intro hne
    have hpos := List.length_pos_iff.mpr hne
    rw [← hrest, h.held.length, List.append_assoc, List.getElem?_append_left (by omega),
      List.getLast?_eq_getElem?]
  unfold sealing RequestParser.lineBreak
  by_cases hne : text = []
  · rw [if_neg (by rw [h.held.length, hne]; simp), if_pos (.inl hne)]
    rfl
  · have hpos : 0 < o.len := by
      rw [h.held.length]
      exact List.length_pos_iff.mpr hne
    rw [hlast hne]
    by_cases hten : text.getLast? = some 10
    · rw [if_neg fun hopen => hopen.2 hten, if_pos (.inr hten)]
      rfl
    · rw [if_pos ⟨hpos, hten⟩, if_neg fun hor => hor.elim hne hten]
      rfl

/-- The blocks behind a text, without the text. -/
def behindText (blocks : List PromptBlock) (text : Bytes) : Bytes :=
  blocks.flatMap fun b => (if b.seals then RequestParser.lineBreak text else []) ++ b.text

/-- At most one block is put behind the text as it stands there. -/
theorem foldl_put_eq {blocks : List PromptBlock} (h : blocks.length ≤ 1) (text : Bytes) :
    blocks.foldl PromptBlock.put text = text ++ behindText blocks text := by
  match blocks with
  | [] => simp [behindText]
  | [b] => simp [behindText, PromptBlock.put]
  | _ :: _ :: _ => simp at h

/-- A statement that looks at the line before it. -/
theorem appends_sealed {pieces : List Bytes} {block : Bytes} (hblock : pieces.flatMap cstr = block)
    {o : Owned} {text : Bytes} (h : OwnsText o text) :
    (sealing o ++ pieces).flatMap cstr = behindText [⟨true, block⟩] text := by
  rw [List.flatMap_append, flatMap_sealing h, hblock]
  simp [behindText]

/-- A statement that does not. -/
theorem appends_unsealed {pieces : List Bytes} {block : Bytes}
    (hblock : pieces.flatMap cstr = block) (text : Bytes) :
    pieces.flatMap cstr = behindText [⟨false, block⟩] text := by
  simp [behindText, hblock]

theorem appends_nothing (text : Bytes) : ([] : List Bytes).flatMap cstr = behindText [] text := rfl

/-- A header, a text and a newline. -/
theorem flatMap_line {header newline text text' : Bytes} (hheader : 0 ∉ header)
    (hnewline : 0 ∉ newline) (htext : cstr text = text') :
    [header, text, newline].flatMap cstr = header ++ (text' ++ newline) := by
  have hh : cstr header = header := upTo_eq_self hheader
  have hn : cstr newline = newline := upTo_eq_self hnewline
  simp [hh, hn, htext]

section

variable (s : PromptSettings) (printNumber : Bytes → Bytes) (req : RequestParser.HarnessRequest)

theorem appends_workspace : Appends (workspaceStatement s) (behindText (workspaceBlocks s)) := by
  intro o text h
  unfold workspaceStatement workspaceBlocks
  split
  · exact appends_sealed
      (flatMap_line (by decide) (by decide) (upTo_eq_self s.workspace_holds.1)) h
  · exact appends_nothing text

theorem appends_history : Appends (historyStatement s) (behindText (historyBlocks s)) := by
  intro o text _
  unfold historyStatement historyBlocks
  rw [s.history.whole_toolHistoryBuildJson.text_eq]
  split
  · exact appends_unsealed (flatMap_line (by decide) (by decide) rfl) text
  · exact appends_nothing text

theorem appends_resume : Appends (resumeStatement s req) (behindText (resumeBlocks s req)) := by
  intro o text h
  unfold resumeStatement resumeBlocks
  split
  · refine appends_sealed (flatMap_line (by decide) (by decide) (upTo_eq_self ?_)) h
    split <;> decide
  · exact appends_nothing text

theorem appends_tools :
    Appends (toolsStatement printNumber req) (behindText (toolBlocks printNumber req)) := by
  intro o text h
  unfold toolsStatement toolBlocks
  cases toolsBody req with
  | none => exact appends_nothing text
  | some body =>
      dsimp only
      split
      · refine appends_sealed ?_ h
        have hheader : cstr (lit "available_tools:") = lit "available_tools:" := by decide
        simp [hheader]
      · exact appends_nothing text

theorem appends_choice : Appends (choiceStatement req) (behindText (choiceBlocks req)) := by
  intro o text _
  have hnone : [lit "tool_choice: none\n"].flatMap cstr = lit "tool_choice: none\n" := by decide
  have hrequired :
      [lit "tool_choice: required\n"].flatMap cstr = lit "tool_choice: required\n" := by
    decide
  unfold choiceStatement choiceBlocks
  cases toolsBody req with
  | none => exact appends_nothing text
  | some body =>
      dsimp only
      cases (codexResolveToolChoice body).mode with
      | none => exact appends_unsealed hnone text
      | auto => exact appends_nothing text
      | required => exact appends_unsealed hrequired text
      | named => exact appends_unsealed (flatMap_line (by decide) (by decide) rfl) text

theorem appends_routing :
    Appends (routingStatement printNumber req) (behindText (routingBlocks printNumber req)) := by
  intro o text h
  unfold routingStatement routingBlocks
  cases toolsBody req with
  | none => exact appends_nothing text
  | some body =>
      dsimp only
      split
      · exact appends_sealed (flatMap_line (by decide) (by decide) rfl) h
      · exact appends_nothing text

theorem zero_not_mem_signedDecimal (n : Int) : 0 ∉ signedDecimal n := by
  unfold signedDecimal
  have hplain (n : Nat) : 0 ∉ decimal n := (plainText_decimal n).zero_not_mem
  split
  · exact List.not_mem_cons_of_ne_of_not_mem (by decide) (hplain _)
  · exact hplain _

theorem appends_context : Appends (contextStatement s) (behindText [contextBlock s]) := by
  intro o text h
  refine appends_sealed (flatMap_line (by decide) (by decide) (upTo_eq_self fun hmem => ?_)) h
  exact zero_not_mem_signedDecimal _ (List.mem_of_mem_take hmem)

/-- The C string in the buffer is the text. -/
theorem OwnsText.cstr_buffer {o : Owned} {text : Bytes} (h : OwnsText o text) :
    cstr o.buffer = text := by
  obtain ⟨rest, ho, -⟩ := h.exists_rest
  have hstop : upTo 0 (0 :: rest) = [] := by simp [upTo]
  rw [ho]
  show upTo 0 (text ++ 0 :: rest) = text
  rw [upTo_append h.no_zero, hstop, List.append_nil]

theorem directive_texts : 0 ∉ workspaceDirective ∧ 0 ∉ reviewDirective := by
  unfold workspaceDirective reviewDirective
  rw [lit_ofList, lit_ofList, lit_ofList, lit_ofList, lit_ofList]
  decide

/-- The directive is appended as the text in the buffer says. -/
theorem appends_directive : Appends (directiveStatement s req) fun text =>
    if s.directs && !strcasestr text (lit "reply exactly") then directiveText s req else [] := by
  intro o text h
  have hroot : cstr (lit "workspace_root: ") = lit "workspace_root: " := by decide
  have hbreak : cstr (lit "\n") = lit "\n" := by decide
  have hworkspace : cstr s.workspace = s.workspace := upTo_eq_self s.workspace_holds.1
  have hdirective : cstr workspaceDirective = workspaceDirective :=
    upTo_eq_self directive_texts.1
  have hreview : (if wantsReviewCompletion req then [reviewDirective] else []).flatMap cstr =
      if wantsReviewCompletion req then reviewDirective else [] := by
    split
    · exact (List.flatMap_singleton ..).trans (upTo_eq_self directive_texts.2)
    · rfl
  unfold directiveStatement directiveText
  rw [h.cstr_buffer]
  dsimp only
  split
  · rw [List.flatMap_append, hreview]
    simp only [List.flatMap_cons, List.flatMap_nil, hroot, hworkspace, hbreak, hdirective,
      List.append_assoc, List.nil_append]
  · rfl

/-- Blocks of which some statement puts at most one. -/
theorem foldl_behindText {groups : List (List PromptBlock)}
    (h : ∀ blocks ∈ groups, blocks.length ≤ 1) (text : Bytes) :
    (groups.map behindText).foldl (fun text f => text ++ f text) text =
      groups.flatten.foldl PromptBlock.put text := by
  induction groups generalizing text with
  | nil => rfl
  | cons blocks rest ih =>
      rw [List.map_cons, List.foldl_cons, List.flatten_cons, List.foldl_append,
        ← foldl_put_eq (h blocks List.mem_cons_self)]
      exact ih (fun blocks hmem => h blocks (List.mem_cons_of_mem _ hmem)) _

/-- The blocks, statement by statement. -/
def promptGroups : List (List PromptBlock) :=
  [workspaceBlocks s, historyBlocks s, resumeBlocks s req, toolBlocks printNumber req,
    choiceBlocks req, routingBlocks printNumber req, [contextBlock s]]

theorem promptGroups_small : ∀ blocks ∈ promptGroups s printNumber req, blocks.length ≤ 1 := by
  intro blocks hmem
  simp only [promptGroups, List.mem_cons, List.not_mem_nil, or_false] at hmem
  rcases hmem with rfl | rfl | rfl | rfl | rfl | rfl | rfl
  · unfold workspaceBlocks; split <;> simp
  · unfold historyBlocks; split <;> simp
  · unfold resumeBlocks; split <;> simp
  · unfold toolBlocks; split <;> [simp; (split <;> simp)]
  · unfold choiceBlocks; split <;> [simp; (split <;> simp)]
  · unfold routingBlocks; split <;> [simp; (split <;> simp)]
  · simp

/-- What each statement appends. -/
def promptAppends : List (Bytes → Bytes) :=
  (promptGroups s printNumber req).map behindText ++ [fun text =>
    if s.directs && !strcasestr text (lit "reply exactly") then directiveText s req else []]

theorem promptStatements_append :
    List.Forall₂ Appends (promptStatements s printNumber req) (promptAppends s printNumber req) :=
  .cons (appends_workspace s) <| .cons (appends_history s) <| .cons (appends_resume s req) <|
    .cons (appends_tools printNumber req) <| .cons (appends_choice req) <|
    .cons (appends_routing printNumber req) <| .cons (appends_context s) <|
    .cons (appends_directive s req) .nil

theorem foldl_promptAppends :
    (promptAppends s printNumber req).foldl (fun text f => text ++ f text)
      (cstr req.normalizedInput) = turnPrompt s printNumber req := by
  have hblocks : (promptGroups s printNumber req).flatten = promptBlocks s printNumber req := by
    simp [promptGroups, promptBlocks]
  unfold promptAppends
  rw [List.foldl_append, foldl_behindText (promptGroups_small s printNumber req), hblocks]
  rfl

/-- The buffer starts with the input. -/
theorem startInput_assembled (first : Option (Nat → UInt8)) :
    Assembled (first = none) (cstr req.normalizedInput) (startInput req first) := by
  cases first with
  | none => exact ⟨rfl, rfl⟩
  | some fresh =>
      obtain ⟨rest, hmalloc, hsize⟩ : ∃ rest,
          reallocated [] fresh ((cstr req.normalizedInput).length + 4096) = [] ++ rest ∧
            ([] ++ rest).length = (cstr req.normalizedInput).length + 4096 :=
        @reallocated_append [] [] fresh _ (Nat.zero_le _)
      obtain ⟨o, hcopy, howns⟩ : ∃ o, copyText ⟨[] ++ rest, 0,
              (cstr req.normalizedInput).length + 4096⟩ (cstr req.normalizedInput) =
            some (true, o) ∧
          OwnsText o (cstr req.normalizedInput) :=
        @ownsText_copied [] rest _ _ hsize List.not_mem_nil (by rw [List.length_nil]; omega)
      unfold startInput
      dsimp only
      rw [hmalloc, hcopy]
      exact howns

end

end StarBridge
