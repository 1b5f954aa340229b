import StarBridge.NativePrompt

/-!
# The lines of the prompt

What `handle_response_native` puts behind the input is whole lines, but two of its parts do
not look whether the input ends one.  `prompt_lines_iff` says when the first of them begins a
line, and `directive_closes_iff` when the directive on the workspace has the last word.
-/

namespace StarBridge

open CText CJson

/-! ## Whole lines -/

/-- Nothing stands in the last line. -/
def AtLineStart (text : Bytes) : Prop := text = [] ∨ text.getLast? = some 10

theorem AtLineStart.lineBreak_eq {text : Bytes} (h : AtLineStart text) :
    RequestParser.lineBreak text = [] := if_pos h

theorem atLineStart_append {text lines : Bytes} (h : lines.getLast? = some 10) :
    AtLineStart (text ++ lines) := by
  right
  rw [List.getLast?_append, h]
  rfl

/-- **Whole lines follow one another**, whether or not they look at the line before them. -/
theorem foldl_put_lines {blocks : List PromptBlock}
    (h : ∀ b ∈ blocks, b.text.getLast? = some 10) {text : Bytes} (htext : AtLineStart text) :
    blocks.foldl PromptBlock.put text = text ++ blocks.flatMap PromptBlock.text := by
  induction blocks generalizing text with
  | nil => simp
  | cons b rest ih =>
      have hput : PromptBlock.put text b = text ++ b.text := by
        unfold PromptBlock.put
        rw [htext.lineBreak_eq, ite_self, List.nil_append]
      have hrest := ih (fun b hmem => h b (List.mem_cons_of_mem _ hmem))
        (atLineStart_append (h b List.mem_cons_self) : AtLineStart (text ++ b.text))
      rw [List.foldl_cons, hput, hrest, List.flatMap_cons, List.append_assoc]

/-- Whole lines behind an open line leave it open iff the first of them does not look. -/
theorem foldl_put_eq_iff {blocks : List PromptBlock}
    (h : ∀ b ∈ blocks, b.text.getLast? = some 10) {b : PromptBlock}
    (hb : blocks.head? = some b) (text : Bytes) :
    blocks.foldl PromptBlock.put text =
        text ++ RequestParser.lineBreak text ++ blocks.flatMap PromptBlock.text ↔
      AtLineStart text ∨ b.seals = true := by
  obtain ⟨rest, rfl⟩ : ∃ rest, blocks = b :: rest := by
    cases blocks with
    | nil => cases hb
    | cons b' rest => exact ⟨rest, by rw [Option.some.inj hb]⟩
  have hput : (b :: rest).foldl PromptBlock.put text =
      text ++ ((if b.seals then RequestParser.lineBreak text else []) ++
        (b.text ++ rest.flatMap PromptBlock.text)) := by
    have hline : AtLineStart (PromptBlock.put text b) := by
      unfold PromptBlock.put
      rw [← List.append_assoc]
      exact atLineStart_append (h b List.mem_cons_self)
    rw [List.foldl_cons, foldl_put_lines (fun b hmem => h b (List.mem_cons_of_mem _ hmem)) hline]
    simp only [PromptBlock.put, List.append_assoc]
  rw [hput, List.flatMap_cons, List.append_assoc, List.append_cancel_left_eq,
    List.append_cancel_right_eq]
  by_cases hline : AtLineStart text
  · simp [hline.lineBreak_eq, hline]
  · have hbreak : RequestParser.lineBreak text = [10] := if_neg hline
    cases hseals : b.seals <;> simp [hbreak, hline]

/-! ## The blocks are whole lines -/

theorem zero_not_mem_stringField {obj : CJson} {field value : Bytes}
    (h : obj.stringField field = some value) : 0 ∉ value := by
  unfold stringField at h
  split at h
  · rw [← Option.some.inj h]
    exact zero_not_mem_cstr _
  · cases h

theorem zero_not_mem_textOf (obj : Option CJson) (field : Bytes) : 0 ∉ textOf obj field := by
  unfold textOf
  cases h : obj.bind fun obj => obj.stringField field with
  | none => exact List.not_mem_nil
  | some value =>
      obtain ⟨o, -, hvalue⟩ := Option.bind_eq_some_iff.mp h
      exact zero_not_mem_stringField hvalue

theorem zero_not_mem_codexNormalizeToolName {type name : Bytes} (h : 0 ∉ name) :
    0 ∉ codexNormalizeToolName type name := by
  have hmap : toolNameMap.all fun m => !m.2.2.contains 0 := by decide
  unfold codexNormalizeToolName
  split
  · rename_i m hfind
    simpa using List.all_eq_true.mp hmap m (List.mem_of_find?_eq_some hfind)
  · exact h

/-- What a tool is listed by is a C string. -/
theorem zero_not_mem_normalizeTool (printNumber : Bytes → Bytes) (tool : CJson) :
    0 ∉ (normalizeTool printNumber tool).normalizedName ∧
      0 ∉ (normalizeTool printNumber tool).description := by
  have hclip {size : Nat} {text : Bytes} (h : 0 ∉ text) : 0 ∉ clip size text :=
    fun hmem => h (List.mem_of_mem_take hmem)
  unfold normalizeTool
  dsimp only
  constructor
  · refine hclip (zero_not_mem_codexNormalizeToolName ?_)
    split <;> exact hclip (zero_not_mem_textOf _ _)
  · split <;> exact hclip (zero_not_mem_textOf _ _)

theorem zero_not_mem_appendTools {maxLen : Nat} {tools : List NormalizedToolDef}
    (htools : ∀ tool ∈ tools, 0 ∉ tool.normalizedName ∧ 0 ∉ tool.description) {dest : Bytes}
    (hdest : 0 ∉ dest) : 0 ∉ appendTools maxLen dest tools := by
  induction tools generalizing dest with
  | nil => exact hdest
  | cons tool rest ih =>
      obtain ⟨hname, hdescription⟩ := htools tool List.mem_cons_self
      unfold appendTools
      split
      · exact hdest
      · refine ih (fun tool hmem => htools tool (List.mem_cons_of_mem _ hmem)) ?_
        have hmark : 0 ∉ appendText maxLen dest (lit "\n- ") :=
          zero_not_mem_appendText hdest (by decide)
        have hnamed := @zero_not_mem_appendText maxLen _ _ hmark hname
        unfold appendTool
        dsimp only
        split
        · exact zero_not_mem_appendText (zero_not_mem_appendText hnamed (by decide)) hdescription
        · exact hnamed

/-- The list of tools is a C string, and whole lines. -/
theorem toolPrompt_lines (printNumber : Bytes → Bytes) (body : CJson)
    (hne : toolPrompt printNumber body ≠ []) :
    cstr (toolPrompt printNumber body) = toolPrompt printNumber body ∧
      (toolPrompt printNumber body).getLast? = some 10 := by
  have htools : ∀ tool ∈ codexNormalizeTools printNumber body 64,
      0 ∉ tool.normalizedName ∧ 0 ∉ tool.description := by
    intro tool hmem
    unfold codexNormalizeTools at hmem
    split at hmem
    · obtain ⟨item, -, rfl⟩ := List.mem_map.mp hmem
      exact zero_not_mem_normalizeTool printNumber item
    · cases hmem
  constructor
  · refine upTo_eq_self ?_
    unfold toolPrompt codexBuildToolPrompt
    dsimp only
    split
    · exact List.not_mem_nil
    · exact zero_not_mem_appendText (zero_not_mem_appendTools htools List.not_mem_nil) (by decide)
  · unfold toolPrompt at hne ⊢
    rw [codexBuildToolPrompt_eq] at hne ⊢
    unfold promptText at hne ⊢
    split at hne
    · exact absurd rfl hne
    · rename_i hentries
      rw [if_neg hentries, List.getLast?_append]
      rfl

section

variable (s : PromptSettings) (printNumber : Bytes → Bytes) (req : RequestParser.HarnessRequest)

theorem getLast?_line (header text : Bytes) :
    (header ++ (text ++ lit "\n")).getLast? = some 10 := by
  rw [← List.append_assoc, List.getLast?_append]
  rfl

theorem promptBlocks_lines : ∀ b ∈ promptBlocks s printNumber req, b.text.getLast? = some 10 := by
  intro b hmem
  simp only [promptBlocks, List.mem_append, List.mem_singleton, or_assoc] at hmem
  rcases hmem with hmem | hmem | hmem | hmem | hmem | hmem | rfl
  · unfold workspaceBlocks at hmem
    split at hmem
    · rw [List.mem_singleton.mp hmem]
      exact getLast?_line ..
    · cases hmem
  · unfold historyBlocks at hmem
    split at hmem
    · rw [List.mem_singleton.mp hmem]
      exact getLast?_line ..
    · cases hmem
  · unfold resumeBlocks at hmem
    split at hmem
    · rw [List.mem_singleton.mp hmem]
      exact getLast?_line ..
    · cases hmem
  · unfold toolBlocks at hmem
    split at hmem
    · cases hmem
    · split at hmem
      · rename_i hne
        obtain ⟨hcstr, hlast⟩ := toolPrompt_lines printNumber _ hne
        rw [List.mem_singleton.mp hmem]
        dsimp only
        rw [hcstr, List.getLast?_append, hlast]
        rfl
      · cases hmem
  · unfold choiceBlocks at hmem
    split at hmem
    · cases hmem
    · split at hmem
      · rw [List.mem_singleton.mp hmem]
        decide
      · rw [List.mem_singleton.mp hmem]
        decide
      · rw [List.mem_singleton.mp hmem]
        exact getLast?_line ..
      · cases hmem
  · unfold routingBlocks at hmem
    split at hmem
    · cases hmem
    · split at hmem
      · rw [List.mem_singleton.mp hmem]
        exact getLast?_line ..
      · cases hmem
  · exact getLast?_line ..

/-- The part of the prompt that comes first looks at the end of the input. -/
def OpeningSeals : Prop :=
  s.directs = true ∨ s.showsHistory = false ∧ (req.previousResponseId ≠ [] ∨
    ∀ body, toolsBody req = some body →
      toolPrompt printNumber body ≠ [] ∨ (codexResolveToolChoice body).mode = .auto)

theorem exists_head_promptBlocks : ∃ b, (promptBlocks s printNumber req).head? = some b ∧
    (b.seals = true ↔ OpeningSeals s printNumber req) := by
  unfold promptBlocks OpeningSeals workspaceBlocks historyBlocks resumeBlocks toolBlocks
    choiceBlocks routingBlocks
  by_cases hdirects : s.directs = true
  · simp [hdirects]
  by_cases hhistory : s.showsHistory = true
  · simp [hdirects, hhistory]
  by_cases hresume : req.previousResponseId ≠ []
  · simp [hdirects, hhistory, hresume]
  simp only [Bool.not_eq_true] at hdirects hhistory
  rw [not_not] at hresume
  cases hbody : toolsBody req with
  | none => simp [hdirects, hhistory, hresume, contextBlock]
  | some body =>
      by_cases hprompt : toolPrompt printNumber body ≠ []
      · simp [hdirects, hhistory, hresume, hprompt]
      cases hmode : (codexResolveToolChoice body).mode with
      | auto =>
          by_cases hsummary : routingSummary printNumber req body ≠ []
          · simp [hdirects, hhistory, hresume, hprompt, hmode, hsummary]
          · simp [hdirects, hhistory, hresume, hprompt, hmode, hsummary, contextBlock]
      | none => simp [hdirects, hhistory, hresume, hprompt, hmode]
      | required => simp [hdirects, hhistory, hresume, hprompt, hmode]
      | named => simp [hdirects, hhistory, hresume, hprompt, hmode]

/-- **The lines of the prompt.**  Every part of the prompt is whole lines, and the first of
them begins a line iff the input ends one or the part looks at its end.  The tool history
and the tool choice do not, and run on from an open line of the input. -/
theorem prompt_lines_iff :
    (∀ b ∈ promptBlocks s printNumber req, b.text.getLast? = some 10) ∧
      (turnPrompt s printNumber req =
          cstr req.normalizedInput ++ RequestParser.lineBreak (cstr req.normalizedInput) ++
            (promptBlocks s printNumber req).flatMap PromptBlock.text ++
            (if closesWithDirective s printNumber req then directiveText s req else []) ↔
        AtLineStart (cstr req.normalizedInput) ∨ OpeningSeals s printNumber req) := by
  have hlines := promptBlocks_lines s printNumber req
  refine ⟨hlines, ?_⟩
  obtain ⟨b, hhead, hseals⟩ := exists_head_promptBlocks s printNumber req
  unfold turnPrompt promptBody
  rw [List.append_cancel_right_eq, foldl_put_eq_iff hlines hhead, hseals]

/-- A request of two words. -/
def fixIt : RequestParser.HarnessRequest :=
  ⟨[], [], lit "Fix it", none, [], [], [], false, false, false, false, [], [], [], 0, [], []⟩

/-- A history of one call behind an input without a line break. -/
example : turnPrompt ⟨[], false, false,
    ⟨[⟨lit "list", lit "src", .ok, by decide, by decide⟩], 12, 0, by decide, by decide, by decide,
      by decide⟩, true, 4096, by decide⟩ id fixIt =
    lit "Fix ittool_history:[\x7b\"tool\":\"list\",\"args\":\"src\",\"status\":\"ok\"\x7d]\n" ++
      lit "context_tokens: 4096\n" := by
  decide +kernel

/-! ## The directive -/

/-- The context size does not end like the directive. -/
theorem contextBlock_ends : ∃ front c, (contextBlock s).text = front ++ [c, 10] ∧ c ≠ 46 := by
  have hdecimal (n : Nat) : 46 ∉ decimal n := fun hmem => by
    have hdigit := isDigit_of_mem_decimal hmem
    revert hdigit
    decide
  have hsigned : 46 ∉ signedDecimal s.contextTokens := by
    unfold signedDecimal
    split
    · exact List.not_mem_cons_of_ne_of_not_mem (by decide) (hdecimal _)
    · exact hdecimal _
  have hfree : 46 ∉ lit "context_tokens: " ++ clip 32 (signedDecimal s.contextTokens) :=
    fun hmem => (List.mem_append.mp hmem).elim (by decide)
      fun hin => hsigned (List.mem_of_mem_take hin)
  obtain ⟨front, c, hsplit⟩ := (List.eq_nil_or_concat (lit "context_tokens: " ++
    clip 32 (signedDecimal s.contextTokens))).resolve_left
      (List.append_ne_nil_of_left_ne_nil (by decide) _)
  rw [List.concat_eq_append] at hsplit
  refine ⟨front, c, ?_, fun hdot => hfree ?_⟩
  · unfold contextBlock
    rw [← List.append_assoc, hsplit, List.append_assoc]
    rfl
  · rw [hsplit, hdot]
    exact List.mem_append_right _ List.mem_cons_self

/-- Both lines of the directive end a sentence. -/
theorem directiveText_ends : ∃ front, directiveText s req = front ++ [46, 10] := by
  have hdirective : workspaceDirective = workspaceDirective.dropLast.dropLast ++ [46, 10] := by
    unfold workspaceDirective
    rw [lit_ofList, lit_ofList]
    decide +kernel
  have hreview : reviewDirective = reviewDirective.dropLast.dropLast ++ [46, 10] := by
    unfold reviewDirective
    rw [lit_ofList, lit_ofList, lit_ofList]
    decide +kernel
  unfold directiveText
  split
  · rw [hreview]
    exact ⟨lit "workspace_root: " ++ (s.workspace ++ (lit "\n" ++ (workspaceDirective ++
      reviewDirective.dropLast.dropLast))), by simp only [List.append_assoc]⟩
  · rw [hdirective]
    exact ⟨lit "workspace_root: " ++ (s.workspace ++ (lit "\n" ++
      workspaceDirective.dropLast.dropLast)), by simp only [List.append_assoc, List.append_nil]⟩

/-- The body of the prompt ends with the context size. -/
theorem promptBody_ends :
    ∃ front, promptBody s printNumber req = front ++ (contextBlock s).text := by
  unfold promptBody promptBlocks
  rw [List.foldl_append, List.foldl_cons, List.foldl_nil, PromptBlock.put, ← List.append_assoc]
  exact ⟨_, rfl⟩

/-- **The directive closes the prompt** iff there is a workspace to name, the directive is not
disabled and nothing in front of it asks for an exact reply, be it the input, the history
of tools or the description of a tool.  No other workspace is named behind it. -/
theorem directive_closes_iff :
    ((∃ front, AtLineStart front ∧
        turnPrompt s printNumber req = front ++ directiveText s req) ↔
      s.workspace ≠ [] ∧ s.directiveDisabled = false ∧
        strcasestr (promptBody s printNumber req) (lit "reply exactly") = false) ∧
      ∃ behind, directiveText s req = lit "workspace_root: " ++ s.workspace ++ lit "\n" ++ behind ∧
        ¬ lit "workspace_root: " <:+: behind := by
  have hcloses : closesWithDirective s printNumber req = true ↔
      s.workspace ≠ [] ∧ s.directiveDisabled = false ∧
        strcasestr (promptBody s printNumber req) (lit "reply exactly") = false := by
    simp [closesWithDirective, PromptSettings.directs, and_assoc]
  obtain ⟨front, hbody⟩ := promptBody_ends s printNumber req
  constructor
  · rw [← hcloses]
    constructor
    · rintro ⟨front', -, hprompt⟩
      by_contra hopen
      obtain ⟨context, c, hcontext, hc⟩ := contextBlock_ends s
      obtain ⟨directive, hdirective⟩ := directiveText_ends s req
      unfold turnPrompt at hprompt
      rw [if_neg hopen, List.append_nil, hbody, hcontext, hdirective, ← List.append_assoc,
        ← List.append_assoc] at hprompt
      have htails := (List.append_inj' hprompt rfl).2
      exact hc (List.cons.inj htails).1
    · intro hcloses
      refine ⟨promptBody s printNumber req, ?_, ?_⟩
      · obtain ⟨context, c, hcontext, -⟩ := contextBlock_ends s
        rw [hbody, hcontext]
        exact atLineStart_append (atLineStart_append rfl |>.resolve_left (by simp))
      · rw [turnPrompt, if_pos hcloses]
  · refine ⟨workspaceDirective ++ if wantsReviewCompletion req then reviewDirective else [],
      ?_, ?_⟩
    · simp only [directiveText, List.append_assoc]
    · rw [← occurs_iff]
      unfold workspaceDirective reviewDirective
      rw [lit_ofList, lit_ofList, lit_ofList, lit_ofList, lit_ofList, lit_ofList]
      split <;> decide +kernel

end

end StarBridge
