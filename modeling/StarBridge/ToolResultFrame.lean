import StarBridge.RequestFrame
import StarBridge.ToolRunner

/-!
# The tool result frame

`frame_build_tool_result` puts the result of a tool between the name and the
closing braces, in an allocation of 4096 bytes, while the runner leaves up to
65535 bytes of whatever the tool printed.  `tool_result_reaches_agent_iff` says
for which results the frame is whole.
-/

namespace StarBridge

open CText

/-! ## The frame -/

/-- The text in front of the result. -/
def resultFront (requestId toolName : Bytes) : Bytes :=
  lit "\x7b\"type\":\"tool_result\",\"id\":\"" ++ jsonEscape requestId 256 ++
    lit "\",\"tool\":\x7b\"name\":\"" ++ jsonEscape toolName 256 ++ lit "\",\"result\":"

/-- `frame_build_tool_result`. -/
def frameBuildToolResult (requestId toolName toolResultJson : Bytes) : Draft UInt8 :=
  Draft.printAll 4096
    [resultFront requestId toolName,
      if toolResultJson = [] then lit "\"\x7b\x7d\"" else toolResultJson, lit "\x7d\x7d"]

/-- What stands in the frame of a run that failed. -/
def failedResult : Bytes := lit "\x7b\"status\":\"error\"\x7d"

/-- The frame `turn_process_events` builds for a run. -/
def toolResultFrame (requestId toolName : Bytes) (run : ToolRunResult) : Draft UInt8 :=
  frameBuildToolResult requestId toolName (if run.ok then run.resultJson else failedResult)

/-- The frame is inside its allocation, is JSON, and has the result the run left. -/
def ResultReachesAgent (requestId toolName : Bytes) (run : ToolRunResult) : Prop :=
  (toolResultFrame requestId toolName run).inside = true ∧
    ∃ ms tool v, JsonGrammar.IsJson (toolResultFrame requestId toolName run).text (.object ms) ∧
      JsonGrammar.lookup (lit "tool") ms = some (.object tool) ∧
      JsonGrammar.lookup (lit "result") tool = some v ∧ JsonGrammar.IsJson run.resultJson v

/-! ## The members -/

/-- The members in front of the tool. -/
def outerMembers (requestId : Bytes) : List JsonGrammar.Member :=
  [fixedMember (lit "type") (lit "tool_result") plain_type (by decide +kernel),
    escapedMember (lit "id") requestId plain_id]

/-- The member in front of the result. -/
def toolMembers (toolName : Bytes) : List JsonGrammar.Member :=
  [escapedMember (lit "name") toolName (by decide +kernel)]

/-- The frame around a result, or around the part of it that has room. -/
def aroundResult (requestId toolName inner : Bytes) : Bytes :=
  123 :: JsonGrammar.Member.printed (outerMembers requestId)
    (JsonGrammar.quote (lit "tool") ++ 58 :: 123 :: JsonGrammar.Member.printed
      (toolMembers toolName) (JsonGrammar.quote (lit "result") ++ 58 :: inner))

theorem resultFront_append (requestId toolName inner : Bytes) :
    resultFront requestId toolName ++ inner = aroundResult requestId toolName inner := by
  have hopens : lit "\x7b\"type\":\"tool_result\",\"id\":\"" =
      123 :: (JsonGrammar.quote (lit "type") ++ 58 :: (JsonGrammar.quote (lit "tool_result") ++
        44 :: (JsonGrammar.quote (lit "id") ++ [58, 34]))) := by
    repeat rw [lit_ofList]
    rfl
  have htool : lit "\",\"tool\":\x7b\"name\":\"" =
      34 :: 44 :: (JsonGrammar.quote (lit "tool") ++
        58 :: 123 :: (JsonGrammar.quote (lit "name") ++ [58, 34])) := by
    repeat rw [lit_ofList]
    rfl
  have hresult : lit "\",\"result\":" =
      34 :: 44 :: (JsonGrammar.quote (lit "result") ++ [58]) := by
    repeat rw [lit_ofList]
    rfl
  have hquote : ∀ text : Bytes, JsonGrammar.quote text = 34 :: (text ++ [34]) := fun _ => rfl
  unfold resultFront aroundResult outerMembers toolMembers
  simp only [hopens, htool, hresult, JsonGrammar.Member.printed, escapedMember, fixedMember, hquote,
    List.append_assoc, List.cons_append, List.nil_append]

theorem length_resultFront (requestId toolName : Bytes) :
    (resultFront requestId toolName).length =
      (jsonEscape requestId 256).length + (jsonEscape toolName 256).length + 57 := by
  have hopens : (lit "\x7b\"type\":\"tool_result\",\"id\":\"").length = 28 := length_lit _
  have htool : (lit "\",\"tool\":\x7b\"name\":\"").length = 18 := length_lit _
  have hresult : (lit "\",\"result\":").length = 11 := length_lit _
  unfold resultFront
  simp only [List.length_append, hopens, htool, hresult]
  omega

theorem plain_tool : JsonGrammar.Plain (lit "tool") := by decide

theorem plain_result : JsonGrammar.Plain (lit "result") := by decide

theorem skip_brace (s : Bytes) : JsonGrammar.skip (123 :: s) = 123 :: s :=
  JsonGrammar.skip_cons (by decide) s

section

variable {requestId toolName inner : Bytes}

theorem tool_not_outer : lit "tool" ∉ (outerMembers requestId).map (·.name) := by
  show lit "tool" ∉ [lit "type", lit "id"]
  decide

theorem result_not_name : lit "result" ∉ (toolMembers toolName).map (·.name) := by
  show lit "result" ∉ [lit "name"]
  decide

/-- **A frame with a result in it**, and the two closing braces. -/
theorem isJson_aroundResult {v : JsonGrammar.Value} (h : JsonGrammar.IsJson inner v) :
    ∃ ms tool, JsonGrammar.IsJson (aroundResult requestId toolName (inner ++ [125, 125]))
        (.object ms) ∧
      JsonGrammar.lookup (lit "tool") ms = some (.object tool) ∧
      JsonGrammar.lookup (lit "result") tool = some v := by
  obtain ⟨left, hread, hleft⟩ := h.reads (c := 125) (by decide)
    (JsonGrammar.ends_cons (by decide) [125])
  have htool : JsonGrammar.Reads (JsonGrammar.Member.printed (toolMembers toolName)
      (JsonGrammar.quote (lit "result") ++ 58 :: (inner ++ [125, 125])))
      (.members (JsonGrammar.Member.values (toolMembers toolName) ++ [(lit "result", v)])) [125] :=
    JsonGrammar.Member.reads_iff.mpr
      ⟨_, rfl, .lastMember (JsonGrammar.named_quote plain_result _) hread hleft⟩
  have hlast : JsonGrammar.Reads (JsonGrammar.quote (lit "tool") ++ 58 :: 123 ::
      JsonGrammar.Member.printed (toolMembers toolName)
        (JsonGrammar.quote (lit "result") ++ 58 :: (inner ++ [125, 125])))
      (.members [(lit "tool",
        .object (JsonGrammar.Member.values (toolMembers toolName) ++ [(lit "result", v)]))]) [] := by
    refine .lastMember (JsonGrammar.named_quote plain_tool _) ?_
      (JsonGrammar.skip_cons (c := 125) (by decide) [])
    rw [skip_brace]
    exact .object rfl htool
  refine ⟨JsonGrammar.Member.values (outerMembers requestId) ++ [(lit "tool",
      .object (JsonGrammar.Member.values (toolMembers toolName) ++ [(lit "result", v)]))],
    JsonGrammar.Member.values (toolMembers toolName) ++ [(lit "result", v)],
    JsonGrammar.Member.isJson_printed_iff.mpr ⟨_, [], rfl, hlast, rfl⟩, ?_, ?_⟩
  · rw [JsonGrammar.Member.lookup_behind tool_not_outer, JsonGrammar.lookup_cons_self]
  · rw [JsonGrammar.Member.lookup_behind result_not_name, JsonGrammar.lookup_cons_self]

/-- What stands behind the result of a frame is not over yet. -/
theorem reads_inner {ms tool : List (Bytes × JsonGrammar.Value)} {v : JsonGrammar.Value}
    (h : JsonGrammar.IsJson (aroundResult requestId toolName inner) (.object ms))
    (htool : JsonGrammar.lookup (lit "tool") ms = some (.object tool))
    (hresult : JsonGrammar.lookup (lit "result") tool = some v) :
    ∃ left, JsonGrammar.Reads (JsonGrammar.skip inner) (.value v) left ∧
      ((∃ s', JsonGrammar.skip left = 44 :: s') ∨
        ∃ left', JsonGrammar.skip left = 125 :: left' ∧ JsonGrammar.skip left' ≠ []) := by
  obtain ⟨ms', last, hms, hbehind, -⟩ := JsonGrammar.Member.isJson_printed_iff.mp h
  have hmembers : ms = JsonGrammar.Member.values (outerMembers requestId) ++ ms' :=
    JsonGrammar.Value.object.inj hms
  rw [hmembers, JsonGrammar.Member.lookup_behind tool_not_outer] at htool
  obtain ⟨w, left', ms'', hvalue, rfl, hnext⟩ := JsonGrammar.reads_members_value plain_tool hbehind
  rw [JsonGrammar.lookup_cons_self] at htool
  cases htool
  have hopen : JsonGrammar.skip left' ≠ [] := by
    rcases hnext with ⟨hclose, -⟩ | ⟨s', hcomma, -⟩
    · rw [hclose]
      exact List.cons_ne_nil _ _
    · rw [hcomma]
      exact List.cons_ne_nil _ _
  rw [skip_brace] at hvalue
  rcases JsonGrammar.reads_brace_iff.mp hvalue with ⟨hnil, -⟩ | ⟨tool', htool', hinner⟩
  · cases hnil
    cases hresult
  cases htool'
  obtain ⟨tool', rfl, hlast⟩ := JsonGrammar.Member.reads_iff.mp hinner
  rw [JsonGrammar.Member.lookup_behind result_not_name] at hresult
  obtain ⟨w, left, more, hread, rfl, hnext⟩ := JsonGrammar.reads_members_value plain_result hlast
  rw [JsonGrammar.lookup_cons_self] at hresult
  cases hresult
  refine ⟨left, hread, ?_⟩
  rcases hnext with ⟨hclose, -⟩ | ⟨s', hcomma, -⟩
  · exact Or.inr ⟨left', hclose, hopen⟩
  · exact Or.inl ⟨s', hcomma⟩

end

/-! ## When the frame is whole -/

/-- The bytes around a result. -/
def resultRoom (requestId toolName : Bytes) : Nat :=
  (jsonEscape requestId 256).length + (jsonEscape toolName 256).length + 59

theorem isJson_ne_nil {v : JsonGrammar.Value} (h : JsonGrammar.IsJson [] v) : False := by
  obtain ⟨left, hread, -⟩ := h
  obtain ⟨c, more, hhead, -⟩ := hread.head
  cases hhead

theorem frameBuildToolResult_text (requestId toolName result : Bytes) (hne : result ≠ []) :
    (frameBuildToolResult requestId toolName result).text =
      clip 4096 (resultFront requestId toolName ++ (result ++ [125, 125])) := by
  have hclose : lit "\x7d\x7d" = [125, 125] := by
    repeat rw [lit_ofList]
    rfl
  rw [frameBuildToolResult, Draft.printAll_text, if_neg hne, hclose]
  simp

theorem frameBuildToolResult_inside_iff (requestId toolName result : Bytes) (hne : result ≠ []) :
    (frameBuildToolResult requestId toolName result).inside = true ↔
      resultRoom requestId toolName + result.length ≤ 4098 := by
  have hinside := Draft.printAll_inside_iff 4096 [resultFront requestId toolName, result]
    (lit "\x7d\x7d")
  rw [frameBuildToolResult, if_neg hne]
  refine hinside.trans ?_
  have hlength := length_resultFront requestId toolName
  simp only [List.flatten_cons, List.flatten_nil, List.append_nil, List.length_append, hlength,
    resultRoom]
  omega

section

variable {requestId toolName result : Bytes}

/-- A JSON result that fits makes a frame with the result in it. -/
theorem frameBuildToolResult_whole {v : JsonGrammar.Value} (h : JsonGrammar.IsJson result v)
    (hfits : resultRoom requestId toolName + result.length < 4096) :
    (frameBuildToolResult requestId toolName result).inside = true ∧
      ∃ ms tool, JsonGrammar.IsJson (frameBuildToolResult requestId toolName result).text
          (.object ms) ∧
        JsonGrammar.lookup (lit "tool") ms = some (.object tool) ∧
        JsonGrammar.lookup (lit "result") tool = some v := by
  have hne : result ≠ [] := by
    rintro rfl
    exact isJson_ne_nil h
  refine ⟨(frameBuildToolResult_inside_iff requestId toolName result hne).mpr (by omega), ?_⟩
  have hlength := length_resultFront requestId toolName
  have hshort : (resultFront requestId toolName ++ (result ++ [125, 125])).length < 4096 := by
    unfold resultRoom at hfits
    simp only [List.length_append, hlength, List.length_cons, List.length_nil]
    omega
  rw [frameBuildToolResult_text requestId toolName result hne, clip_eq_self hshort,
    resultFront_append]
  exact isJson_aroundResult h

/-- **A cut frame is not JSON** with the result in it. -/
theorem not_isJson_of_cut {v : JsonGrammar.Value} (h : JsonGrammar.IsJson result v)
    (hinside : resultRoom requestId toolName + result.length ≤ 4098)
    (hcut : 4096 ≤ resultRoom requestId toolName + result.length)
    {ms tool : List (Bytes × JsonGrammar.Value)} {w : JsonGrammar.Value}
    (hjson : JsonGrammar.IsJson
      (clip 4096 (resultFront requestId toolName ++ (result ++ [125, 125]))) (.object ms))
    (htool : JsonGrammar.lookup (lit "tool") ms = some (.object tool))
    (hresult : JsonGrammar.lookup (lit "result") tool = some w) : False := by
  have hlength := length_resultFront requestId toolName
  have hne : result ≠ [] := by
    rintro rfl
    exact isJson_ne_nil h
  have hpos := List.length_pos_of_ne_nil hne
  unfold resultRoom at hinside hcut
  have hkept : clip 4096 (resultFront requestId toolName ++ (result ++ [125, 125])) =
      aroundResult requestId toolName
        ((result ++ [125, 125]).take (4095 - (resultFront requestId toolName).length)) := by
    rw [← resultFront_append, clip, List.take_append, List.take_of_length_le (by omega)]
  rw [hkept] at hjson
  obtain ⟨left, hread, hopen⟩ := reads_inner hjson htool hresult
  -- one closing brace is left, or the result stands at the end, whole or cut
  rcases Nat.lt_or_ge result.length (4095 - (resultFront requestId toolName).length) with hlt | hge
  · have hone : (result ++ [125, 125]).take (4095 - (resultFront requestId toolName).length) =
        result ++ [125] := by
      rw [List.take_append, List.take_of_length_le (Nat.le_of_lt hlt),
        show 4095 - (resultFront requestId toolName).length - result.length = 1 by omega]
      rfl
    rw [hone] at hread
    obtain ⟨left', hread', hleft'⟩ := h.reads (c := 125) (by decide)
      (JsonGrammar.ends_cons (by decide) [])
    obtain ⟨-, rfl⟩ := hread.unique hread' trivial
    rw [hleft'] at hopen
    rcases hopen with ⟨s', hcomma⟩ | ⟨left', hclose, hmore⟩
    · exact JsonGrammar.cons_ne (by decide) hcomma
    · cases hclose
      exact hmore rfl
  · have hfront : (result ++ [125, 125]).take (4095 - (resultFront requestId toolName).length) =
        result.take (4095 - (resultFront requestId toolName).length) :=
      List.take_append_of_le_length hge
    rw [hfront] at hread
    have hsplit : JsonGrammar.IsJson
        (result.take (4095 - (resultFront requestId toolName).length) ++
          result.drop (4095 - (resultFront requestId toolName).length)) v := by
      rw [List.take_append_drop]
      exact h
    have hover := hsplit.front hread
    rw [hover] at hopen
    rcases hopen with ⟨s', hcomma⟩ | ⟨left', hclose, -⟩
    · cases hcomma
    · cases hclose

end

theorem failedResult_isJson :
    JsonGrammar.IsJson failedResult (.object [(lit "status", .string (lit "error"))]) := by
  have htext : failedResult = 123 :: (JsonGrammar.quote (lit "status") ++
      58 :: (JsonGrammar.quote (lit "error") ++ [125])) := by
    repeat rw [lit_ofList]
    rfl
  have hlast := (JsonGrammar.reads_lastMember_iff
    (show JsonGrammar.Plain (lit "status") from plain_lit (by decide))
    (show JsonGrammar.Plain (lit "error") from plain_lit (by decide)).prints).mpr
      (⟨rfl, rfl⟩ : _ ∧ ([] : Bytes) = [])
  rw [htext]
  exact (JsonGrammar.isJson_brace_iff ⟨_, rfl⟩).mpr ⟨_, [], rfl, hlast, rfl⟩

/-- **A result reaches the agent** iff the run succeeded with a JSON text that fits
between the name and the braces; a run that failed is replaced by an error object,
and so must have left that. -/
theorem tool_result_reaches_agent_iff (cfg : ToolConfig) (world : ToolWorld)
    (requestId toolName toolArgs : Bytes) :
    ResultReachesAgent requestId toolName (toolRunnerRun cfg world toolName toolArgs).1 ↔
      ((toolRunnerRun cfg world toolName toolArgs).1.ok = true ∧
        (∃ v, JsonGrammar.IsJson (toolRunnerRun cfg world toolName toolArgs).1.resultJson v) ∧
        resultRoom requestId toolName +
          (toolRunnerRun cfg world toolName toolArgs).1.resultJson.length < 4096) ∨
      ((toolRunnerRun cfg world toolName toolArgs).1.ok = false ∧
        JsonGrammar.IsJson (toolRunnerRun cfg world toolName toolArgs).1.resultJson
          (.object [(lit "status", .string (lit "error"))])) := by
  obtain ⟨run, hrun⟩ : ∃ run, (toolRunnerRun cfg world toolName toolArgs).1 = run := ⟨_, rfl⟩
  rw [hrun]
  unfold ResultReachesAgent toolResultFrame
  cases hok : run.ok with
  | true =>
      simp only [if_true, true_and, Bool.true_eq_false, false_and, or_false]
      constructor
      · intro h
        obtain ⟨hinside, ms, tool, v, hjson, htool, hresult, hv⟩ := h
        have hne : run.resultJson ≠ [] := by
          intro hnil
          rw [hnil] at hv
          exact isJson_ne_nil hv
        refine ⟨⟨v, hv⟩, ?_⟩
        by_contra hcut
        rw [frameBuildToolResult_text _ _ _ hne] at hjson
        exact not_isJson_of_cut hv ((frameBuildToolResult_inside_iff _ _ _ hne).mp hinside)
          (Nat.le_of_not_lt hcut) hjson htool hresult
      · intro h
        obtain ⟨⟨v, hv⟩, hfits⟩ := h
        obtain ⟨hinside, ms, tool, hjson, htool, hresult⟩ := frameBuildToolResult_whole hv hfits
        exact ⟨hinside, ms, tool, v, hjson, htool, hresult, hv⟩
  | false =>
      simp only [Bool.false_eq_true, if_false, false_and, true_and, false_or]
      have hid := jsonEscape_length_lt (show 0 < 256 by decide) requestId
      have hname := jsonEscape_length_lt (show 0 < 256 by decide) toolName
      have hlength : failedResult.length = 18 := by decide +kernel
      have hfits : resultRoom requestId toolName + failedResult.length < 4096 := by
        unfold resultRoom
        omega
      obtain ⟨hinside, ms, tool, hjson, htool, hresult⟩ :=
        frameBuildToolResult_whole failedResult_isJson hfits
      constructor
      · intro h
        obtain ⟨-, ms', tool', v, hjson', htool', hresult', hv⟩ := h
        cases hjson.unique hjson'
        rw [htool] at htool'
        cases htool'
        rw [hresult] at hresult'
        cases hresult'
        exact hv
      · intro h
        exact ⟨hinside, ms, tool, _, hjson, htool, hresult, h⟩

/-- A shell whose reads are the given ones. -/
def printingWorld (reads : List Bytes) : ToolWorld where
  appCallback := none
  pipeError := none
  child := .ok ⟨reads, [], false, 0⟩

/-- A configuration with the shell enabled. -/
def shellConfig : ToolConfig := ⟨true, [], [], []⟩

/-- A child that prints 5000 bytes has the end of its frame written outside the
allocation. -/
theorem tool_result_reaches_agent_fails :
    ¬ ResultReachesAgent (lit "r1") (lit "shell_command")
      (toolRunnerRun shellConfig (printingWorld (List.replicate 5 (List.replicate 1000 49)))
        (lit "shell_command") (lit "\x7b\"command\":\"seq\"\x7d")).1 := by
  obtain ⟨run, hrun⟩ : ∃ run, (toolRunnerRun shellConfig
      (printingWorld (List.replicate 5 (List.replicate 1000 49))) (lit "shell_command")
      (lit "\x7b\"command\":\"seq\"\x7d")).1 = run := ⟨_, rfl⟩
  have hok : run.ok = true := by
    rw [← hrun]
    decide +kernel
  have hlength : run.resultJson.length = 5000 := by
    rw [← hrun]
    decide +kernel
  have hne : run.resultJson ≠ [] := by
    intro hnil
    rw [hnil] at hlength
    cases hlength
  rw [hrun]
  intro h
  have hinside := h.1
  rw [toolResultFrame, if_pos hok, frameBuildToolResult_inside_iff _ _ _ hne, hlength] at hinside
  omega

end StarBridge
