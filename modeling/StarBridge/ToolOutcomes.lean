import StarBridge.HistoryStore
import StarBridge.Routers
import StarBridge.ToolRunner

/-!
# What the tool history says of a turn's tools

The event loop turns the outcome of a tool intent into a line, and the history reads the
line back: a tool up to a blank, and a status by a search for the word of a refusal.  Every
intent that the loop answers has its entry as long as none is evicted;
`tool_history_tells_iff` says for which intents the entry has the name and the outcome.
-/

namespace StarBridge

open CText Runs RingBuffer

/-! ## The lines -/

/-- `tool_policy_build_error_summary`; no detail is an empty one. -/
def toolPolicyBuildErrorSummary (toolName : Bytes) (kind : ToolErrorKind) (detail : Bytes)
    (maxLen : Nat) : Bytes :=
  clip maxLen (lit "TOOL_ERROR" ++ lit " " ++ toolName ++ lit " " ++
    toolPolicyErrorMessage kind ++ (if detail = [] then [] else lit " ") ++ detail ++ lit "\n")

/-- A tool intent, with what the runner is configured with and meets. -/
structure ToolIntent where
  toolName : Bytes
  toolArgs : Bytes
  cfg : ToolConfig
  world : ToolWorld
  name_holds : HoldsText 128 toolName
  args_holds : HoldsText 4096 toolArgs

namespace ToolIntent

variable (t : ToolIntent)

/-- The intent was run, and that went well. -/
def succeeded : Bool :=
  (toolPolicyRefusal t.toolName t.toolArgs).isNone &&
    (toolRunnerRun t.cfg t.world t.toolName t.toolArgs).1.ok

/-- `history_line`. -/
def historyLine : Bytes :=
  match toolPolicyRefusal t.toolName t.toolArgs with
  | some .denied => toolPolicyBuildErrorSummary t.toolName .denied [] 512
  | some .malformedArgs => toolPolicyBuildErrorSummary t.toolName .malformedArgs t.toolArgs 512
  | none =>
      clip 1024 (lit "TOOL_RESULT" ++ lit " " ++ t.toolName ++ lit " " ++ t.toolArgs.take 256 ++
        lit "\n")

/-- The line of a refusal, word by word. -/
theorem errorSummary_eq (kind : ToolErrorKind) (detail : Bytes) : ∃ rest,
    toolPolicyBuildErrorSummary t.toolName kind detail 512 =
      lit "TOOL_ERROR" ++ 32 :: (t.toolName ++ 32 :: rest) := by
  have hword : (lit "TOOL_ERROR").length = 10 := length_lit _
  have hblank : lit " " = [32] := by
    rw [lit_ofList]
    rfl
  have hname := t.name_holds.2
  obtain ⟨rest, hrest⟩ : ∃ rest, lit "TOOL_ERROR" ++ lit " " ++ t.toolName ++ lit " " ++
      toolPolicyErrorMessage kind ++ (if detail = [] then [] else lit " ") ++ detail ++ lit "\n" =
        (lit "TOOL_ERROR" ++ 32 :: (t.toolName ++ [32])) ++ rest :=
    ⟨toolPolicyErrorMessage kind ++ ((if detail = [] then [] else [32]) ++ (detail ++ lit "\n")),
      by simp only [hblank, List.append_assoc, List.cons_append, List.nil_append]⟩
  refine ⟨rest.take (511 - (t.toolName.length + 12)), ?_⟩
  have hlen : (lit "TOOL_ERROR" ++ 32 :: (t.toolName ++ [32])).length = t.toolName.length + 12 := by
    simp only [List.length_append, List.length_cons, List.length_nil, hword]
    omega
  rw [toolPolicyBuildErrorSummary, hrest, clip, List.take_append, hlen,
    List.take_of_length_le (by omega)]
  simp

/-- The line of a tool that was run, word by word. -/
theorem resultLine_eq (h : toolPolicyRefusal t.toolName t.toolArgs = none) :
    t.historyLine =
      lit "TOOL_RESULT" ++ 32 :: (t.toolName ++ 32 :: (t.toolArgs.take 256 ++ 10 :: [])) := by
  have hword : (lit "TOOL_RESULT").length = 11 := length_lit _
  have hblank : lit " " = [32] := by
    rw [lit_ofList]
    rfl
  have hbreak : lit "\n" = [10] := by
    rw [lit_ofList]
    rfl
  have hname := t.name_holds.2
  have hargs := List.length_take_le 256 t.toolArgs
  rw [historyLine, h, hblank, hbreak]
  dsimp only
  rw [clip_eq_self]
  · simp
  · simp only [List.length_append, List.length_singleton, hword]
    omega

/-- Every line has the name between two blanks, behind one of two words. -/
theorem historyLine_cases :
    (toolPolicyRefusal t.toolName t.toolArgs ≠ none ∧
        ∃ rest, t.historyLine = lit "TOOL_ERROR" ++ 32 :: (t.toolName ++ 32 :: rest)) ∨
      toolPolicyRefusal t.toolName t.toolArgs = none ∧
        t.historyLine =
          lit "TOOL_RESULT" ++ 32 :: (t.toolName ++ 32 :: (t.toolArgs.take 256 ++ 10 :: [])) := by
  cases h : toolPolicyRefusal t.toolName t.toolArgs with
  | none => exact Or.inr ⟨rfl, t.resultLine_eq h⟩
  | some kind =>
      refine Or.inl ⟨Option.some_ne_none kind, ?_⟩
      rw [historyLine, h]
      cases kind with
      | denied => exact t.errorSummary_eq .denied []
      | malformedArgs => exact t.errorSummary_eq .malformedArgs t.toolArgs

theorem length_historyLine_lt : t.historyLine.length < 1024 := by
  unfold historyLine
  split
  · exact (length_clip_lt (by decide) _).trans (by decide)
  · exact (length_clip_lt (by decide) _).trans (by decide)
  · exact length_clip_lt (by decide) _

theorem zero_not_mem_historyLine : 0 ∉ t.historyLine := by
  have hname := t.name_holds.1
  have hargs := t.args_holds.1
  have hwords : 0 ∉ lit "TOOL_ERROR" ∧ 0 ∉ lit "TOOL_RESULT" ∧ 0 ∉ lit " " ∧ 0 ∉ lit "\n" ∧
      ∀ kind, 0 ∉ toolPolicyErrorMessage kind := by
    refine ⟨by decide, by decide, by decide, by decide, ?_⟩
    intro kind
    cases kind <;> decide
  have hpart : 0 ∉ t.toolArgs.take 256 := fun hmem => hargs (List.mem_of_mem_take hmem)
  have herror : ∀ kind detail, 0 ∉ detail →
      0 ∉ toolPolicyBuildErrorSummary t.toolName kind detail 512 := by
    intro kind detail hdetail hmem
    have hmem := List.mem_of_mem_take hmem
    have hmessage := hwords.2.2.2.2 kind
    grind
  unfold historyLine
  split
  · exact herror _ _ List.not_mem_nil
  · exact herror _ _ hargs
  · intro hmem
    have hmem := List.mem_of_mem_take hmem
    grind

theorem blank_mem_historyLine : 32 ∈ t.historyLine.take 1023 := by
  have hlen := t.length_historyLine_lt
  rw [List.take_of_length_le (by omega)]
  rcases t.historyLine_cases with ⟨_, rest, hline⟩ | ⟨_, hline⟩
  · rw [hline]
    simp
  · rw [hline]
    simp

/-- The line as the history takes it. -/
def line : HistoryLine where
  text := ⟨t.historyLine, t.zero_not_mem_historyLine⟩
  short := Nat.le_of_lt_succ (t.length_historyLine_lt.trans (by decide))
  blank := t.blank_mem_historyLine

/-- What the history looks for stands in the name, or in the part of the arguments that
the line has. -/
def MentionsError : Prop :=
  occurs (lit "TOOL_ERROR") t.toolName = true ∨
    occurs (lit "TOOL_ERROR") (t.toolArgs.take 256) = true

end ToolIntent

/-! ## The entries -/

/-- An entry has the tool of its line, and the status that the line's words give. -/
theorem historyEntry_spec {line : CString} {e : ToolHistoryEntry} (h : historyEntry line = some e) :
    ∃ tool, lineTool line.val = some tool ∧ e.toolName = clip 64 (upTo 32 tool) ∧
      (e.status = .ok ↔ occurs (lit "TOOL_ERROR") line.val = false) := by
  unfold historyEntry at h
  split at h
  · cases h
  · next tool htool =>
      cases h
      refine ⟨tool, htool, rfl, ?_⟩
      cases occurs (lit "TOOL_ERROR") line.val <;> simp

namespace ToolIntent

variable (t : ToolIntent)

/-- The tool that the history reads is the name up to a blank. -/
theorem lineTool_historyLine {tool : Bytes} (h : lineTool t.historyLine = some tool) :
    upTo 32 tool = upTo 32 t.toolName := by
  have hread : ∀ {word rest : Bytes}, (32 : UInt8) ∉ word →
      t.historyLine = word ++ 32 :: (t.toolName ++ 32 :: rest) →
        upTo 32 tool = upTo 32 t.toolName := by
    intro word rest hword hline
    rw [lineTool, clip_eq_self t.length_historyLine_lt, hline, after_space hword] at h
    cases h
    exact takeWhile_stop (by simp) _ _
  rcases t.historyLine_cases with ⟨_, rest, hline⟩ | ⟨_, hline⟩
  · exact hread (by decide) hline
  · exact hread (by decide) hline

theorem entry_toolName : t.line.entry.toolName = clip 64 (upTo 32 t.toolName) := by
  obtain ⟨tool, htool, hname, _⟩ := historyEntry_spec t.line.historyEntry_eq
  rw [hname, t.lineTool_historyLine htool]

theorem entry_status_iff :
    t.line.entry.status = .ok ↔
      toolPolicyRefusal t.toolName t.toolArgs = none ∧ ¬ t.MentionsError := by
  obtain ⟨tool, _, _, hstatus⟩ := historyEntry_spec t.line.historyEntry_eq
  have hblank : (32 : UInt8) ∉ lit "TOOL_ERROR" := by decide
  have hbreak : (10 : UInt8) ∉ lit "TOOL_ERROR" := by decide
  have hword : occurs (lit "TOOL_ERROR") (lit "TOOL_ERROR") = true := by decide
  have hother : occurs (lit "TOOL_ERROR") (lit "TOOL_RESULT") = false := by decide
  have hempty : occurs (lit "TOOL_ERROR") [] = false := by decide
  have htext : t.line.text.val = t.historyLine := rfl
  rw [hstatus, htext]
  rcases t.historyLine_cases with ⟨hrefused, rest, hline⟩ | ⟨hrun, hline⟩
  · rw [hline, occurs_append_cons hblank, hword]
    exact iff_of_false (fun h => by cases h) fun h => hrefused h.1
  · rw [hline, occurs_append_cons hblank, occurs_append_cons hblank, occurs_append_cons hbreak,
      hother, hempty, MentionsError, Bool.false_or, Bool.or_false, Bool.or_eq_false_iff]
    simp [hrun]

end ToolIntent

/-! ## The turns -/

/-- A turn: the limit of the history while it runs, and the tool intents of the agent. -/
structure ToolTurn where
  maxHistoryEntries : Int
  intents : List ToolIntent

/-- The intents that the event loop answers, `toolCycles` of them already. -/
def answered : Nat → List ToolIntent → List ToolIntent
  | _, [] => []
  | toolCycles, t :: rest =>
      if 64 < toolCycles + 1 then [] else t :: answered (toolCycles + 1) rest

theorem answered_eq (toolCycles : Nat) (intents : List ToolIntent) :
    answered toolCycles intents = intents.take (64 - toolCycles) := by
  induction intents generalizing toolCycles with
  | nil => rw [List.take_nil, answered]
  | cons t rest ih =>
      rw [answered, ih]
      split_ifs with hlimit
      · rw [show 64 - toolCycles = 0 by omega, List.take_zero]
      · rw [show 64 - toolCycles = (64 - (toolCycles + 1)) + 1 by omega, List.take_succ_cons]

namespace ToolTurn

/-- The intents that a sequence of turns answers. -/
def allAnswered (turns : List ToolTurn) : List ToolIntent :=
  turns.flatMap fun turn => answered 0 turn.intents

/-- The intents of a sequence of turns. -/
def allIntents (turns : List ToolTurn) : List ToolIntent := turns.flatMap ToolTurn.intents

/-- What a turn appends to the history. -/
def calls (turn : ToolTurn) : List HistoryCall :=
  (answered 0 turn.intents).map fun t => .append turn.maxHistoryEntries t.line

/-- The history after a sequence of turns. -/
def history (turns : List ToolTurn) : HistoryStore := storeAfter (turns.flatMap calls)

end ToolTurn

open ToolTurn

/-- The entry of an intent that has its name, and says that it went well iff it did. -/
structure TellsOutcome (t : ToolIntent) (e : ToolHistoryEntry) : Prop where
  status : e.status = .ok ↔ t.succeeded = true
  tool : e.toolName = t.toolName

/-- As long as no entry is evicted, each tells of the intent of its number. -/
def HistoryTells (turns : List ToolTurn) : Prop :=
  (history turns).entries.length = (allAnswered turns).length →
    ∀ (i : Nat) (e : ToolHistoryEntry), (history turns).entries[i]? = some e →
      ∃ t, (allIntents turns)[i]? = some t ∧ TellsOutcome t e

/-- A name that the history keeps, and an outcome that its words do not belie. -/
structure ToolIntent.Told (t : ToolIntent) : Prop where
  name : 32 ∉ t.toolName ∧ t.toolName.length < 64
  outcome : toolPolicyRefusal t.toolName t.toolArgs = none →
    ((toolRunnerRun t.cfg t.world t.toolName t.toolArgs).1.ok = true ↔ ¬ t.MentionsError)

theorem ToolIntent.tellsOutcome_iff (t : ToolIntent) : TellsOutcome t t.line.entry ↔ t.Told := by
  have hname : t.line.entry.toolName = t.toolName ↔ 32 ∉ t.toolName ∧ t.toolName.length < 64 := by
    rw [t.entry_toolName]
    exact clip_upTo_iff (by decide) _
  have hstatus : (t.line.entry.status = .ok ↔ t.succeeded = true) ↔
      (toolPolicyRefusal t.toolName t.toolArgs = none →
        ((toolRunnerRun t.cfg t.world t.toolName t.toolArgs).1.ok = true ↔
          ¬ t.MentionsError)) := by
    rw [t.entry_status_iff, ToolIntent.succeeded, Bool.and_eq_true, Option.isNone_iff_eq_none]
    tauto
  constructor
  · intro h
    exact ⟨hname.mp h.tool, hstatus.mp h.status⟩
  · intro h
    exact ⟨hstatus.mpr h.outcome, hname.mpr h.name⟩

/-! ## The history -/

theorem lines_appended (maxHistoryEntries : Int) (intents : List ToolIntent) (log : HistoryLog) :
    (stateAfter HistoryLog.step log
        (intents.map fun t => .append maxHistoryEntries t.line)).lines =
      log.lines ++ intents.map ToolIntent.line := by
  induction intents generalizing log with
  | nil => exact (List.append_nil _).symm
  | cons t rest ih =>
      rw [List.map_cons, stateAfter_cons, ih, HistoryLog.step, List.map_cons]
      simp

/-- The log of a sequence of turns has a line for each intent that was answered. -/
theorem lines_turns (turns : List ToolTurn) :
    (logAfter (turns.flatMap calls)).lines = (allAnswered turns).map ToolIntent.line := by
  have hfrom : ∀ log : HistoryLog,
      (stateAfter HistoryLog.step log (turns.flatMap calls)).lines =
        log.lines ++ (allAnswered turns).map ToolIntent.line := by
    induction turns with
    | nil => exact fun log => (List.append_nil _).symm
    | cons turn rest ih =>
        intro log
        have hfirst : allAnswered (turn :: rest) = answered 0 turn.intents ++ allAnswered rest := rfl
        rw [List.flatMap_cons, stateAfter_append, ih, calls, lines_appended, hfirst,
          List.map_append, List.append_assoc]
  exact hfrom .initial

/-- A history from which nothing was evicted has the entries of the intents in order. -/
theorem entries_history {turns : List ToolTurn}
    (h : (history turns).entries.length = (allAnswered turns).length) :
    (history turns).entries = (allAnswered turns).map fun t => t.line.entry := by
  have htracks := tracks_after (turns.flatMap calls)
  have hlines := lines_turns turns
  have hall : (logAfter (turns.flatMap calls)).entries =
      (allAnswered turns).map fun t => t.line.entry := by
    rw [HistoryLog.entries, hlines, List.map_map]
    rfl
  have hkept := htracks.entries
  rw [← htracks.length_entries, hall] at hkept
  rw [history] at h ⊢
  rw [hkept, h, keepLast_eq_self]
  rw [List.length_map]

theorem length_entries_le (turns : List ToolTurn) : (history turns).entries.length ≤ 64 := by
  have htracks := tracks_after (turns.flatMap calls)
  rw [history, htracks.length_entries]
  exact htracks.held_limit.trans htracks.limit_le

/-- As long as there are no more than the entries of one turn, the intents that were
answered are the first. -/
theorem allAnswered_prefix {turns : List ToolTurn} (h : (allAnswered turns).length ≤ 64) :
    allAnswered turns <+: allIntents turns := by
  induction turns with
  | nil => exact List.prefix_refl _
  | cons turn rest ih =>
      rw [allAnswered, List.flatMap_cons, answered_eq, List.length_append,
        List.length_take] at h
      rw [allAnswered, allIntents, List.flatMap_cons, List.flatMap_cons, answered_eq]
      by_cases hall : turn.intents.length ≤ 64
      · rw [List.take_of_length_le hall, List.prefix_append_right_inj]
        exact ih (by rw [allAnswered]; omega)
      · have hnone : (allAnswered rest).length = 0 := by
          rw [allAnswered]
          omega
        rw [show rest.flatMap (fun turn => answered 0 turn.intents) = [] from
          List.length_eq_zero_iff.mp hnone, List.append_nil]
        exact (List.take_prefix _ _).trans (List.prefix_append _ _)

/-- **The outcomes**: in every sequence of turns without an eviction the history tells of
the intents exactly if it can tell of each that was answered. -/
theorem tool_history_tells_iff (turns : List ToolTurn) :
    HistoryTells turns ↔
      ((history turns).entries.length = (allAnswered turns).length →
        ∀ t ∈ allAnswered turns, t.Told) := by
  refine imp_congr_right fun hkept => ?_
  have hlength := length_entries_le turns
  rw [hkept] at hlength
  obtain ⟨more, hprefix⟩ := allAnswered_prefix hlength
  have hintent : ∀ {i : Nat} {t : ToolIntent}, (allAnswered turns)[i]? = some t →
      (allIntents turns)[i]? = some t := by
    intro i t ht
    obtain ⟨hi, _⟩ := List.getElem?_eq_some_iff.mp ht
    rw [← hprefix, List.getElem?_append_left hi, ht]
  rw [entries_history hkept]
  constructor
  · intro h t ht
    obtain ⟨i, hi⟩ := List.mem_iff_getElem?.mp ht
    obtain ⟨t', ht', htells⟩ := h i t.line.entry (by rw [List.getElem?_map, hi]; rfl)
    rw [hintent hi] at ht'
    cases ht'
    exact t.tellsOutcome_iff.mp htells
  · intro h i e he
    rw [List.getElem?_map] at he
    obtain ⟨t, ht, rfl⟩ := Option.map_eq_some_iff.mp he
    exact ⟨t, hintent ht, t.tellsOutcome_iff.mpr (h t (List.mem_of_getElem? ht))⟩

/-- A command for a shell that is not enabled. -/
def disabledIntent : ToolIntent where
  toolName := lit "shell_command"
  toolArgs := lit "\x7b\"command\":\"ls\"\x7d"
  cfg := ⟨false, [], [], []⟩
  world := ⟨none, none, .error []⟩
  name_holds := ⟨by decide +kernel, by decide +kernel⟩
  args_holds := ⟨by decide +kernel, by decide +kernel⟩

theorem tool_history_tells_fails : ¬ ∀ turns, HistoryTells turns := by
  intro h
  have hkept : (history [⟨20, [disabledIntent]⟩]).entries.length =
      (allAnswered [⟨20, [disabledIntent]⟩]).length := by
    decide +kernel
  have htold := (tool_history_tells_iff _).mp (h [⟨20, [disabledIntent]⟩]) hkept disabledIntent
    List.mem_cons_self
  have hrun : toolPolicyRefusal disabledIntent.toolName disabledIntent.toolArgs = none ∧
      (toolRunnerRun disabledIntent.cfg disabledIntent.world disabledIntent.toolName
        disabledIntent.toolArgs).1.ok = false ∧
      occurs (lit "TOOL_ERROR") disabledIntent.toolName = false ∧
      occurs (lit "TOOL_ERROR") (disabledIntent.toolArgs.take 256) = false := by
    decide +kernel
  obtain ⟨hpolicy, hfailed, hname, hargs⟩ := hrun
  have houtcome := htold.outcome hpolicy
  rw [hfailed, ToolIntent.MentionsError, hname, hargs] at houtcome
  simp at houtcome

end StarBridge
