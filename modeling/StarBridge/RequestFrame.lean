import StarBridge.Drafts
import StarBridge.JsonSpelling
import StarBridge.SessionState

/-!
# The request frame

`frame_build_request` puts the frame together in an allocation of twice the
input and 8192 bytes more.  Its own loop escapes the input: quotes, backslashes
and newlines come through, and every other control character is left out.

`requestFrame_isJson` says what the frame is, for every input and every tool
history; `input_reaches_agent_iff` says which inputs come back from it.
-/

namespace StarBridge

open CText

/-! ## The frame -/

/-- A byte as the loop of `frame_build_request` writes it. -/
def escapeInputByte (c : UInt8) : Bytes :=
  if c = 34 ∨ c = 92 then [92, c]
  else if c = 10 then [92, 110]
  else if c < 32 then []
  else [c]

/-- The loop, with `off` bytes of its allocation written. -/
def escapeInputFrom (alloc : Nat) : Bytes → Nat → Bytes
  | [], _ => []
  | c :: rest, off =>
      if off + 6 < alloc then
        escapeInputByte c ++ escapeInputFrom alloc rest (off + (escapeInputByte c).length)
      else []

/-- An escaped member that is left out when it is empty. -/
def printMember (alloc : Nat) (front : Bytes) (text : Bytes) (d : Draft UInt8) : Draft UInt8 :=
  if text = [] then d else d.print alloc (front ++ jsonEscape text 256 ++ lit "\"")

/-- The tool history, where the frame has it. -/
def historyPrinted (toolHistory : Option Bytes) : Option Bytes :=
  toolHistory.filter fun history => history ≠ [] ∧ history ≠ lit "[]"

/-- `frame_build_request`, as `turn_begin` calls it: without system instructions
and without tools. -/
def frameBuildRequest (args : RequestArgs) : Draft UInt8 :=
  let alloc := args.input.length * 2 + (args.toolHistory.getD []).length + 8192
  let front := Draft.start.print alloc
    (lit "\x7b\"type\":\"request\",\"id\":\"" ++ jsonEscape args.requestId 256 ++
      lit "\",\"input\":\"")
  let input := (front.write (escapeInputFrom alloc args.input front.off)).print alloc (lit "\"")
  let effort := printMember alloc (lit ",\"reasoning_effort\":\"") args.reasoningEffort input
  let previous :=
    printMember alloc (lit ",\"previous_response_id\":\"") args.previousResponseId effort
  let settings := previous.print alloc
    (lit ",\"auto_load_resume_session\":" ++ JsonGrammar.boolText args.autoLoadResumeSession ++
      lit ",\"context_tokens\":" ++ signedDecimal args.contextTokens ++
      lit ",\"reset_session\":" ++ JsonGrammar.boolText args.resetSession)
  let mode := settings.print alloc
    (lit ",\"tool_permission_mode\":\"auto_allow_safe\",\"do_not_prompt_for_read_only_tools\":true")
  let events := mode.print alloc
    (lit ",\"accepted_events\":[\"compaction.started\",\"compaction.summary\",\"compaction.completed\"]")
  let history := match historyPrinted args.toolHistory with
    | some history => events.print alloc (lit ",\"tool_history\":" ++ history)
    | none => events
  history.print alloc (lit "\x7d")

/-- The arguments as C passes them. -/
structure RequestArgs.Passed (args : RequestArgs) : Prop where
  requestId : 0 ∉ args.requestId
  input : 0 ∉ args.input
  reasoningEffort : 0 ∉ args.reasoningEffort
  previousResponseId : 0 ∉ args.previousResponseId
  contextTokens : ∃ tokens : Int32, args.contextTokens = tokens.toInt

/-! ## The loop -/

/-- The bytes the loop does not leave out. -/
def isKept (c : UInt8) : Bool := c = 10 || 32 ≤ c

theorem length_escapeInputByte_le (c : UInt8) : (escapeInputByte c).length ≤ 2 := by
  unfold escapeInputByte
  split_ifs <;> simp

/-- The allocation is never in the way of the loop. -/
theorem escapeInputFrom_eq {alloc : Nat} (text : Bytes) {off : Nat}
    (h : off + 2 * text.length + 6 < alloc) :
    escapeInputFrom alloc text off = text.flatMap escapeInputByte := by
  induction text generalizing off with
  | nil => rfl
  | cons c text ih =>
      rw [List.length_cons] at h
      have hlen := length_escapeInputByte_le c
      rw [escapeInputFrom, if_pos (by omega), ih (by omega)]
      rfl

theorem length_flatMap_escapeInput_le (text : Bytes) :
    (text.flatMap escapeInputByte).length ≤ 2 * text.length := by
  induction text with
  | nil => rfl
  | cons c text ih =>
      have hlen := length_escapeInputByte_le c
      rw [List.flatMap_cons, List.length_append, List.length_cons]
      omega

theorem spells_escapeInputByte {c : UInt8} (h : isKept c = true) :
    JsonGrammar.Spells escapeInputByte c := by
  by_cases hmark : c = 34 ∨ c = 92
  · rcases hmark with rfl | rfl
    · exact JsonGrammar.spells_short (e := 34) (by decide) rfl rfl
    · exact JsonGrammar.spells_short (e := 92) (by decide) rfl rfl
  by_cases hnewline : c = 10
  · subst hnewline
    exact JsonGrammar.spells_short (e := 110) (by decide) rfl rfl
  have hle : 32 ≤ c := by simpa [isKept, hnewline] using h
  refine JsonGrammar.spells_byte ⟨hle, not_or.mp hmark⟩ ?_
  rw [escapeInputByte, if_neg hmark, if_neg hnewline, if_neg (UInt8.not_lt.mpr hle)]

theorem escapeInputByte_of_not_kept {c : UInt8} (h : isKept c = false) :
    escapeInputByte c = [] := by
  have hc : c ≠ 10 ∧ c < 32 := by simpa [isKept] using h
  have hmark : ¬ (c = 34 ∨ c = 92) := by
    rintro (rfl | rfl)
    · exact absurd hc.2 (by decide)
    · exact absurd hc.2 (by decide)
  rw [escapeInputByte, if_neg hmark, if_neg hc.1, if_pos hc.2]

/-- The loop writes what it keeps. -/
theorem flatMap_escapeInput_filter (text : Bytes) :
    text.flatMap escapeInputByte = (text.filter isKept).flatMap escapeInputByte := by
  induction text with
  | nil => rfl
  | cons c text ih =>
      rw [List.flatMap_cons, ih]
      by_cases hkept : isKept c = true
      · rw [List.filter_cons_of_pos hkept, List.flatMap_cons]
      · rw [List.filter_cons_of_neg hkept, escapeInputByte_of_not_kept (by simpa using hkept)]
        rfl

theorem readString_escapeInput (text rest : Bytes) :
    JsonGrammar.readString (text.flatMap escapeInputByte ++ 34 :: rest) =
      some (text.filter isKept, rest) := by
  rw [flatMap_escapeInput_filter]
  exact JsonGrammar.readString_flatMap
    (fun c hc => spells_escapeInputByte (List.mem_filter.mp hc).2) rest

/-! ## The members -/

theorem readString_readBack (text rest : Bytes) :
    JsonGrammar.readString (jsonEscape text 256 ++ 34 :: rest) = some (readBack text, rest) := by
  obtain ⟨kept, cut, -, hrun, -⟩ := jsonEscape_prefix text 256
  have hkept : readBack text = kept := by
    rw [readBack, hrun, CJson.decodeBody_escapeAll]
    rfl
  rw [hkept, hrun]
  exact readString_escapeAll kept rest

/-- A member that `json_escape` printed. -/
def escapedMember (name text : Bytes) (hname : JsonGrammar.Plain name) : JsonGrammar.Member :=
  ⟨name, JsonGrammar.quote (jsonEscape text 256), .string (readBack text), hname,
    JsonGrammar.prints_string (readString_readBack text)⟩

/-- A member that is left out when it is empty. -/
def shownMembers (name text : Bytes) (hname : JsonGrammar.Plain name) : List JsonGrammar.Member :=
  if text = [] then [] else [escapedMember name text hname]

def boolMember (name : Bytes) (b : Bool) (hname : JsonGrammar.Plain name) : JsonGrammar.Member :=
  ⟨name, JsonGrammar.boolText b, .bool b, hname, JsonGrammar.prints_bool b⟩

namespace RequestArgs

variable (args : RequestArgs)

def typeMember : JsonGrammar.Member :=
  fixedMember (lit "type") (lit "request") plain_type (by decide +kernel)

def idMember : JsonGrammar.Member := escapedMember (lit "id") args.requestId plain_id

/-- The input, without what the loop leaves out. -/
def inputMember : JsonGrammar.Member :=
  ⟨lit "input", JsonGrammar.quote (args.input.flatMap escapeInputByte),
    .string (args.input.filter isKept), by decide +kernel,
    JsonGrammar.prints_string (readString_escapeInput args.input)⟩

def optionalMembers : List JsonGrammar.Member :=
  shownMembers (lit "reasoning_effort") args.reasoningEffort (by decide +kernel) ++
    shownMembers (lit "previous_response_id") args.previousResponseId plain_previousResponseId

def settingMembers : List JsonGrammar.Member :=
  [boolMember (lit "auto_load_resume_session") args.autoLoadResumeSession (by decide +kernel),
    ⟨lit "context_tokens", signedDecimal args.contextTokens,
      .number (signedDecimal args.contextTokens), by decide +kernel,
      JsonGrammar.prints_number (isNumber_signedDecimal _)⟩,
    boolMember (lit "reset_session") args.resetSession (by decide +kernel)]

def modeMembers : List JsonGrammar.Member :=
  [fixedMember (lit "tool_permission_mode") (lit "auto_allow_safe") (by decide +kernel)
      (by decide +kernel),
    boolMember (lit "do_not_prompt_for_read_only_tools") true (by decide +kernel)]

/-- The events the bridge wants to hear of. -/
def acceptedEvents : List Bytes :=
  [lit "compaction.started", lit "compaction.summary", lit "compaction.completed"]

theorem plain_acceptedEvents : ∀ event ∈ acceptedEvents, JsonGrammar.Plain event := by
  decide

def eventsMember : JsonGrammar.Member :=
  ⟨lit "accepted_events", 91 :: JsonGrammar.quoteAll acceptedEvents,
    .array (acceptedEvents.map .string), by decide +kernel,
    JsonGrammar.prints_strings plain_acceptedEvents (List.cons_ne_nil _ _)⟩

/-- The members between the type and the events. -/
def innerMembers : List JsonGrammar.Member :=
  [args.idMember, args.inputMember] ++ args.optionalMembers ++ args.settingMembers ++
    modeMembers

/-- The members between the type and the tool history. -/
def members : List JsonGrammar.Member := args.innerMembers ++ [eventsMember]

/-- The tool history as it stands in the frame. -/
def historyText : Bytes :=
  match historyPrinted args.toolHistory with
  | some history => 44 :: (JsonGrammar.quote (lit "tool_history") ++ 58 :: history)
  | none => []

/-- The text of the frame. -/
def text : Bytes :=
  123 :: (JsonGrammar.quote typeMember.name ++ 58 :: typeMember.text) ++
    JsonGrammar.Member.led args.members ++ args.historyText ++ [125]

end RequestArgs

/-! ## The text of the frame -/

theorem length_quote (text : Bytes) : (JsonGrammar.quote text).length = text.length + 2 := by
  simp [JsonGrammar.quote]

theorem whole_printMember {alloc : Nat} {d : Draft UInt8} {done : Bytes} (h : d.Whole done)
    {name front : Bytes} (text : Bytes) (hname : JsonGrammar.Plain name)
    (hfront : front = 44 :: (JsonGrammar.quote name ++ [58, 34]))
    (hroom : (done ++ JsonGrammar.Member.led (shownMembers name text hname)).length < alloc) :
    (printMember alloc front text d).Whole
      (done ++ JsonGrammar.Member.led (shownMembers name text hname)) := by
  unfold printMember shownMembers
  unfold shownMembers at hroom
  split_ifs at hroom ⊢
  · rw [JsonGrammar.Member.led, List.flatMap_nil, List.append_nil]
    exact h
  · have hpiece : front ++ jsonEscape text 256 ++ lit "\"" =
        JsonGrammar.Member.led [escapedMember name text hname] := by
      rw [hfront, show lit "\"" = [34] by decide]
      simp [JsonGrammar.Member.led, escapedMember, JsonGrammar.quote]
    rw [← hpiece, List.length_append] at hroom
    rw [← hpiece]
    exact h.print _ hroom

theorem length_led_shownMembers_le (name text : Bytes) (hname : JsonGrammar.Plain name) :
    (JsonGrammar.Member.led (shownMembers name text hname)).length ≤ name.length + 261 := by
  have hescape := jsonEscape_length_lt (show 0 < 256 by decide) text
  unfold shownMembers
  split_ifs
  · exact Nat.zero_le _
  · simp only [JsonGrammar.Member.led, List.flatMap_cons, List.flatMap_nil, escapedMember,
      List.append_nil, List.length_cons, List.length_append, length_quote]
    omega

namespace RequestArgs

variable (args : RequestArgs)

theorem front_eq :
    lit "\x7b\"type\":\"request\",\"id\":\"" ++ jsonEscape args.requestId 256 ++
        lit "\",\"input\":\"" ++ args.input.flatMap escapeInputByte ++ lit "\"" =
      123 :: (JsonGrammar.quote typeMember.name ++ 58 :: typeMember.text) ++
        JsonGrammar.Member.led [args.idMember, args.inputMember] := by
  have hopens : lit "\x7b\"type\":\"request\",\"id\":\"" =
      123 :: (JsonGrammar.quote typeMember.name ++ 58 :: typeMember.text) ++
        44 :: (JsonGrammar.quote (lit "id") ++ [58, 34]) := by
    repeat rw [lit_ofList]
    rfl
  have hinput : lit "\",\"input\":\"" =
      34 :: 44 :: (JsonGrammar.quote (lit "input") ++ [58, 34]) := by
    repeat rw [lit_ofList]
    rfl
  have hquote : lit "\"" = [34] := by
    repeat rw [lit_ofList]
    rfl
  rw [hopens, hinput, hquote]
  simp [JsonGrammar.Member.led, idMember, inputMember, escapedMember, JsonGrammar.quote]

theorem settings_eq :
    lit ",\"auto_load_resume_session\":" ++ JsonGrammar.boolText args.autoLoadResumeSession ++
        lit ",\"context_tokens\":" ++ signedDecimal args.contextTokens ++
        lit ",\"reset_session\":" ++ JsonGrammar.boolText args.resetSession =
      JsonGrammar.Member.led args.settingMembers := by
  have hauto : lit ",\"auto_load_resume_session\":" =
      44 :: (JsonGrammar.quote (lit "auto_load_resume_session") ++ [58]) := by
    repeat rw [lit_ofList]
    rfl
  have htokens : lit ",\"context_tokens\":" =
      44 :: (JsonGrammar.quote (lit "context_tokens") ++ [58]) := by
    repeat rw [lit_ofList]
    rfl
  have hreset : lit ",\"reset_session\":" =
      44 :: (JsonGrammar.quote (lit "reset_session") ++ [58]) := by
    repeat rw [lit_ofList]
    rfl
  rw [hauto, htokens, hreset]
  simp [JsonGrammar.Member.led, settingMembers, boolMember]

theorem modes_eq :
    lit ",\"tool_permission_mode\":\"auto_allow_safe\",\"do_not_prompt_for_read_only_tools\":true" =
      JsonGrammar.Member.led modeMembers := by decide

theorem events_eq :
    lit ",\"accepted_events\":[\"compaction.started\",\"compaction.summary\",\"compaction.completed\"]" =
      JsonGrammar.Member.led [eventsMember] := by decide

theorem led_members :
    JsonGrammar.Member.led args.members =
      JsonGrammar.Member.led [args.idMember, args.inputMember] ++
        JsonGrammar.Member.led
          (shownMembers (lit "reasoning_effort") args.reasoningEffort
            (plain_lit (by decide))) ++
        JsonGrammar.Member.led
          (shownMembers (lit "previous_response_id") args.previousResponseId
            plain_previousResponseId) ++
        JsonGrammar.Member.led args.settingMembers ++ JsonGrammar.Member.led modeMembers ++
        JsonGrammar.Member.led [eventsMember] := by
  unfold members innerMembers optionalMembers
  simp only [JsonGrammar.Member.led_append, List.append_assoc]

/-- The tool history is a text of the arguments. -/
theorem length_historyText_le :
    args.historyText.length ≤ (args.toolHistory.getD []).length + 16 := by
  have hname : (JsonGrammar.quote (lit "tool_history")).length = 14 := by
    repeat rw [lit_ofList]
    rfl
  unfold historyText historyPrinted
  cases args.toolHistory with
  | none => exact Nat.zero_le _
  | some history =>
      simp only [Option.filter]
      split_ifs
      · simp only [List.length_cons, List.length_append, hname, Option.getD_some]
        omega
      · exact Nat.zero_le _

end RequestArgs

/-- The text of the frame is shorter than the allocation. -/
theorem length_text_lt {args : RequestArgs} (h : args.Passed) :
    args.text.length < args.input.length * 2 + (args.toolHistory.getD []).length + 8192 := by
  obtain ⟨tokens, htokens⟩ := h.contextTokens
  have hid := jsonEscape_length_lt (show 0 < 256 by decide) args.requestId
  have hinput := length_flatMap_escapeInput_le args.input
  have hsettings : (JsonGrammar.Member.led args.settingMembers).length ≤ 84 := by
    have hauto : (lit ",\"auto_load_resume_session\":").length = 28 := length_lit _
    have hcontext : (lit ",\"context_tokens\":").length = 18 := length_lit _
    have hreset : (lit ",\"reset_session\":").length = 17 := length_lit _
    have hnumber := CJson.length_int32_le tokens
    have hbool : ∀ b, (JsonGrammar.boolText b).length ≤ 5 := by decide
    have hfirst := hbool args.autoLoadResumeSession
    have hlast := hbool args.resetSession
    rw [← args.settings_eq, htokens]
    simp only [List.length_append, hauto, hcontext, hreset]
    omega
  have heffort := length_led_shownMembers_le (lit "reasoning_effort") args.reasoningEffort
    (plain_lit (by decide))
  have hprevious := length_led_shownMembers_le (lit "previous_response_id")
    args.previousResponseId (plain_lit (by decide))
  have hhistory := args.length_historyText_le
  have hmodes : (JsonGrammar.Member.led RequestArgs.modeMembers).length = 82 := by
    decide
  have hevents : (JsonGrammar.Member.led [RequestArgs.eventsMember]).length = 85 := by
    decide
  have hfront := congrArg List.length args.front_eq
  have hopen : (lit "\x7b\"type\":\"request\",\"id\":\"").length = 24 := length_lit _
  have hname : (lit "\",\"input\":\"").length = 11 := length_lit _
  have hquote : (lit "\"").length = 1 := length_lit _
  have heffortName : (lit "reasoning_effort").length = 16 := length_lit _
  have hpreviousName : (lit "previous_response_id").length = 20 := length_lit _
  unfold RequestArgs.text
  rw [args.led_members]
  simp only [List.length_append, hopen, hname, hquote] at hfront
  simp only [List.length_append, hmodes, hevents, List.length_singleton]
  omega

theorem historyText_cases (args : RequestArgs) :
    (historyPrinted args.toolHistory = none ∧ args.historyText = []) ∨
      ∃ history, historyPrinted args.toolHistory = some history ∧
        args.historyText = lit ",\"tool_history\":" ++ history := by
  have hname : lit ",\"tool_history\":" =
      44 :: (JsonGrammar.quote (lit "tool_history") ++ [58]) := by
    repeat rw [lit_ofList]
    rfl
  unfold RequestArgs.historyText
  cases hprinted : historyPrinted args.toolHistory with
  | none => exact Or.inl ⟨rfl, rfl⟩
  | some history =>
      refine Or.inr ⟨history, rfl, ?_⟩
      rw [hname]
      simp

/-- **The frame is its text**, whole and inside its allocation. -/
theorem whole_frameBuildRequest {args : RequestArgs} (h : args.Passed) :
    (frameBuildRequest args).Whole args.text := by
  have hroom := length_text_lt h
  have hinput := length_flatMap_escapeInput_le args.input
  have hid := jsonEscape_length_lt (show 0 < 256 by decide) args.requestId
  have hopen : (lit "\x7b\"type\":\"request\",\"id\":\"").length = 24 := length_lit _
  have hname : (lit "\",\"input\":\"").length = 11 := length_lit _
  have hclose : ([125] : Bytes) = lit "\x7d" := by
    repeat rw [lit_ofList]
    rfl
  unfold RequestArgs.text at hroom ⊢
  rw [args.led_members, ← List.append_assoc, ← List.append_assoc, ← List.append_assoc,
    ← List.append_assoc, ← List.append_assoc, ← args.front_eq, ← args.settings_eq,
    ← RequestArgs.modes_eq, ← RequestArgs.events_eq, hclose] at hroom ⊢
  unfold frameBuildRequest
  obtain ⟨alloc, halloc⟩ :
      ∃ alloc, args.input.length * 2 + (args.toolHistory.getD []).length + 8192 = alloc :=
    ⟨_, rfl⟩
  simp only [halloc] at hroom ⊢
  have hbound : ∀ {front back : Bytes}, (front ++ back).length < alloc → front.length < alloc := by
    intro front back hlt
    rw [List.length_append] at hlt
    omega
  have hprint : ∀ {d : Draft UInt8} {front piece : Bytes}, d.Whole front →
      (front ++ piece).length < alloc → (d.print alloc piece).Whole (front ++ piece) := by
    intro d front piece hwhole hlt
    exact hwhole.print _ (by rwa [List.length_append] at hlt)
  have hhistory := hbound hroom
  have hevents := hbound hhistory
  have hmodes := hbound hevents
  have hsettings := hbound hmodes
  have hprevious := hbound hsettings
  have heffort := hbound hprevious
  have hend := hbound heffort
  have hfront := hbound (hbound hend)
  have hstart : ∀ {piece : Bytes}, piece.length < alloc →
      (Draft.start.print alloc piece).Whole piece := by
    intro piece hlt
    refine Draft.whole_start.print _ ?_
    rwa [List.length_nil, Nat.zero_add]
  have hopened := hstart hfront
  have hloop : escapeInputFrom alloc args.input (Draft.print alloc Draft.start
      (lit "\x7b\"type\":\"request\",\"id\":\"" ++ jsonEscape args.requestId 256 ++
        lit "\",\"input\":\"")).off = args.input.flatMap escapeInputByte := by
    refine escapeInputFrom_eq args.input ?_
    rw [hopened.off_eq]
    simp only [List.length_append, hopen, hname]
    omega
  rw [hloop]
  have hwritten := hopened.write (args.input.flatMap escapeInputByte)
  have hshown := whole_printMember (whole_printMember (hprint hwritten hend)
    args.reasoningEffort
      (show JsonGrammar.Plain (lit "reasoning_effort") from plain_lit (by decide))
    (show lit ",\"reasoning_effort\":\"" = _ by decide) heffort)
    args.previousResponseId
      (show JsonGrammar.Plain (lit "previous_response_id") from plain_lit (by decide))
    (show lit ",\"previous_response_id\":\"" = _ by decide) hprevious
  have hbefore := hprint (hprint (hprint hshown hsettings) hmodes) hevents
  rcases historyText_cases args with ⟨hnone, htext⟩ | ⟨history, hsome, htext⟩
  · rw [htext, List.append_nil] at hroom ⊢
    rw [hnone]
    exact hprint hbefore hroom
  · rw [htext] at hroom hhistory ⊢
    rw [hsome]
    exact hprint (hprint hbefore hhistory) hroom

/-! ## What the agent reads -/

/-- Members in front of a last member that is JSON. -/
theorem isJson_printed {ms : List JsonGrammar.Member} {m : JsonGrammar.Member}
    {name last : Bytes} {v : JsonGrammar.Value} (hname : JsonGrammar.Plain name)
    (hlast : JsonGrammar.IsJson last v) :
    JsonGrammar.IsJson
      (123 :: JsonGrammar.Member.printed (m :: ms) (JsonGrammar.quote name ++ 58 :: (last ++ [125])))
      (.object (JsonGrammar.Member.values (m :: ms) ++ [(name, v)])) := by
  obtain ⟨left, hread, hleft⟩ := hlast.reads (c := 125) (by decide)
    (JsonGrammar.ends_cons (by decide) [])
  have hmembers : JsonGrammar.Reads
      (JsonGrammar.Member.printed (m :: ms) (JsonGrammar.quote name ++ 58 :: (last ++ [125])))
      (.members (JsonGrammar.Member.values (m :: ms) ++ [(name, v)])) [] :=
    JsonGrammar.Member.reads_iff.mpr
      ⟨_, rfl, .lastMember (JsonGrammar.named_quote hname _) hread hleft⟩
  exact (JsonGrammar.isJson_brace_iff ⟨_, rfl⟩).mpr ⟨_, [], rfl, hmembers, rfl⟩

namespace RequestArgs

variable (args : RequestArgs)

theorem text_of_none (h : historyPrinted args.toolHistory = none) :
    args.text = 123 :: JsonGrammar.Member.printed (typeMember :: args.innerMembers)
      (JsonGrammar.quote eventsMember.name ++ 58 :: (eventsMember.text ++ [125])) := by
  rw [JsonGrammar.Member.printed_cons_eq, text, historyText, h, members,
    JsonGrammar.Member.led_append]
  simp [JsonGrammar.Member.led]

theorem text_of_some {history : Bytes} (h : historyPrinted args.toolHistory = some history) :
    args.text = 123 :: JsonGrammar.Member.printed (typeMember :: args.members)
      (JsonGrammar.quote (lit "tool_history") ++ 58 :: (history ++ [125])) := by
  rw [JsonGrammar.Member.printed_cons_eq, text, historyText, h]
  simp

/-- Behind the type and the id comes the input. -/
theorem lookup_input (ms : List JsonGrammar.Member) (last : List (Bytes × JsonGrammar.Value)) :
    JsonGrammar.lookup (lit "input")
        (JsonGrammar.Member.values (typeMember :: args.idMember :: args.inputMember :: ms) ++ last) =
      some (.string (args.input.filter isKept)) := by
  have htype : typeMember.name ≠ lit "input" := by decide
  have hid : lit "id" ≠ lit "input" := by decide
  refine (JsonGrammar.lookup_cons_of_ne htype _ _).trans ?_
  refine (JsonGrammar.lookup_cons_of_ne hid _ _).trans ?_
  exact JsonGrammar.lookup_cons_self _ _ _

end RequestArgs

/-- The tool history is JSON. -/
def HistoryIsJson (toolHistory : Option Bytes) : Prop :=
  ∀ history, toolHistory = some history → ∃ v, JsonGrammar.IsJson history v

/-- **The frame is JSON**, for every input, and its input is what the loop
keeps. -/
theorem requestFrame_isJson {args : RequestArgs} (h : args.Passed)
    (hhistory : HistoryIsJson args.toolHistory) :
    ∃ ms, JsonGrammar.IsJson (frameBuildRequest args).text (.object ms) ∧
      JsonGrammar.lookup (lit "input") ms = some (.string (args.input.filter isKept)) := by
  rw [(whole_frameBuildRequest h).text_eq]
  cases hprinted : historyPrinted args.toolHistory with
  | none =>
      rw [args.text_of_none hprinted]
      exact ⟨_, isJson_printed RequestArgs.eventsMember.plain
        RequestArgs.eventsMember.prints.isJson, args.lookup_input _ _⟩
  | some history =>
      have hgiven : args.toolHistory = some history := (Option.filter_eq_some_iff.mp hprinted).1
      obtain ⟨v, hv⟩ := hhistory history hgiven
      rw [args.text_of_some hprinted]
      have hname : JsonGrammar.Plain (lit "tool_history") := plain_lit (by decide)
      exact ⟨_, isJson_printed hname hv,
        args.lookup_input _ _⟩

/-- The frame is JSON and its input is the input. -/
def InputReachesAgent (args : RequestArgs) : Prop :=
  (frameBuildRequest args).inside = true ∧
    ∃ ms, JsonGrammar.IsJson (frameBuildRequest args).text (.object ms) ∧
      JsonGrammar.lookup (lit "input") ms = some (.string args.input)

/-- **The prompt reaches the agent unchanged** exactly if it has no control
character but newlines. -/
theorem input_reaches_agent_iff {args : RequestArgs} (h : args.Passed)
    (hhistory : HistoryIsJson args.toolHistory) :
    InputReachesAgent args ↔ ∀ c ∈ args.input, c = 10 ∨ 32 ≤ c := by
  have hkept : args.input.filter isKept = args.input ↔ ∀ c ∈ args.input, c = 10 ∨ 32 ≤ c := by
    rw [List.filter_eq_self]
    simp [isKept]
  obtain ⟨ms, hjson, hinput⟩ := requestFrame_isJson h hhistory
  rw [← hkept]
  constructor
  · intro hreaches
    obtain ⟨-, ms', hjson', hinput'⟩ := hreaches
    cases hjson.unique hjson'
    exact JsonGrammar.Value.string.inj (Option.some.inj (hinput.symm.trans hinput'))
  · intro hsame
    rw [hsame] at hinput
    exact ⟨(whole_frameBuildRequest h).inside, ms, hjson, hinput⟩

/-- A request with an input and nothing else. -/
def plainRequest (input : Bytes) : RequestArgs where
  requestId := lit "r1"
  input := input
  reasoningEffort := []
  previousResponseId := []
  autoLoadResumeSession := false
  contextTokens := 4096
  resetSession := false
  toolHistory := none

theorem plainRequest_passed {input : Bytes} (h : 0 ∉ input) : (plainRequest input).Passed :=
  ⟨show 0 ∉ lit "r1" by decide, h, List.not_mem_nil, List.not_mem_nil, 4096,
    show (4096 : Int) = Int32.toInt 4096 by decide⟩

theorem input_reaches_agent_iff_example : InputReachesAgent (plainRequest (lit "say \"hi\"\n")) := by
  refine (input_reaches_agent_iff (plainRequest_passed (by decide +kernel)) ?_).mpr
    (by decide +kernel)
  intro history h
  cases h

/-- A tab is left out. -/
theorem input_reaches_agent_fails : ¬ InputReachesAgent (plainRequest (lit "a\tb")) := by
  intro h
  obtain ⟨-, ms, hjson, hinput⟩ := h
  obtain ⟨ms', hjson', hinput'⟩ := requestFrame_isJson
    (plainRequest_passed (show 0 ∉ lit "a\tb" by decide +kernel)) (fun _ h => by cases h)
  cases hjson.unique hjson'
  have hsame := JsonGrammar.Value.string.inj (Option.some.inj (hinput.symm.trans hinput'))
  exact absurd hsame (by decide +kernel)

end StarBridge
