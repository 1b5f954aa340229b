import StarBridge.FrameReading
import StarBridge.HistoryStore

/-!
# The tool history in a request

What `tool_history_build_json` prints stands in the request frame as it is.  The array is
inside its allocation and closed after every sequence of calls, whatever the lines are;
`history_embeds_iff` says for which of them it is JSON, and so the frame around it.
-/

namespace StarBridge

open CText Runs

/-! ## The store -/

/-- A call of the store, with a line of any bytes. -/
inductive StoreCall
  | append (maxHistoryEntries : Int) (line : CString)
  | reset

def HistoryStore.call (s : HistoryStore) : StoreCall → HistoryStore
  | .append maxHistoryEntries line => toolHistoryAppend maxHistoryEntries line s
  | .reset => toolHistoryReset s

/-- The store after a sequence of calls. -/
def storeFrom (calls : List StoreCall) : HistoryStore :=
  stateAfter HistoryStore.call .initial calls

theorem HistoryStore.max_pos_call {s : HistoryStore} (h : 0 < s.max) (call : StoreCall) :
    0 < (s.call call).max := by
  cases call with
  | reset => exact h
  | append maxHistoryEntries line =>
      have hmax := historyMax_pos maxHistoryEntries
      unfold call toolHistoryAppend
      grind

theorem max_pos_storeFrom (calls : List StoreCall) : 0 < (storeFrom calls).max := by
  have hkeep : ∀ (s : HistoryStore) (call : StoreCall), 0 < s.max → 0 < (s.call call).max :=
    fun _ call h => HistoryStore.max_pos_call h call
  have hinitial : 0 < HistoryStore.initial.max := by decide
  exact stateAfter_invariant_of_step hkeep hinitial calls

/-! ## Any window -/

/-- What an array says of `dropped` entries that it leaves out. -/
def noticeValues (dropped : Nat) : List Bytes :=
  if 0 < dropped then [JsonGrammar.Member.object (noticeMembers dropped)] else []

theorem of_mem_noticeValues {dropped : Nat} {text : Bytes} (h : text ∈ noticeValues dropped) :
    text = JsonGrammar.Member.object (noticeMembers dropped) := by
  unfold noticeValues at h
  split_ifs at h
  · exact List.mem_singleton.mp h
  · cases h

section

variable {dropped : Nat} {entries : List ToolHistoryEntry}

/-- A window, value by value. -/
theorem windowText_eq (h : entries = [] → dropped = 0) :
    windowText dropped entries = 91 ::
      JsonGrammar.listed (noticeValues dropped ++ entries.map ToolHistoryEntry.text) := by
  have hopen : lit "[" = [91] := by
    rw [lit_ofList]
    rfl
  have hclose : lit "]" = [93] := by
    rw [lit_ofList]
    rfl
  rw [windowText, hopen, hclose, noticeText, noticeValues]
  by_cases hsome : 0 < dropped
  · obtain ⟨e, rest, hentries⟩ :=
      List.exists_cons_of_ne_nil fun hnil => absurd (h hnil) (Nat.ne_of_gt hsome)
    rw [if_pos hsome, if_pos hsome, notice_eq, hentries, List.map_cons,
      List.singleton_append (x := JsonGrammar.Member.object _), listed_cons_cons, ← List.map_cons, listed_entries]
    simp
  · rw [if_neg hsome, if_neg hsome, List.nil_append, listed_entries]
    simp

theorem windowText_prints (h : entries = [] → dropped = 0)
    (hunbroken : ∀ e ∈ entries, e.Unbroken) :
    ∃ items, JsonGrammar.Prints (windowText dropped entries) (.array items) := by
  rw [windowText_eq h]
  refine prints_listed (fun text htext => ?_) hunbroken
  rw [of_mem_noticeValues htext]
  exact ⟨_, JsonGrammar.Member.prints_object_of_members _⟩

theorem unbroken_of_isJson (h : entries = [] → dropped = 0) {v : JsonGrammar.Value}
    (hjson : JsonGrammar.IsJson (windowText dropped entries) v) : ∀ e ∈ entries, e.Unbroken := by
  have hopen : JsonGrammar.Spot.step .outside 91 = some .outside := rfl
  have hwalk := hjson.walk
  rw [windowText_eq h, JsonGrammar.walk_cons, hopen, Option.bind_some,
    ← List.append_nil (JsonGrammar.listed _)] at hwalk
  refine unbroken_of_walk_listed (fun text htext => ?_) (Option.isSome_of_eq_some hwalk)
  rw [of_mem_noticeValues htext]
  exact ⟨_, JsonGrammar.Member.prints_object_of_members _⟩

theorem valid_windowText_iff (h : entries = [] → dropped = 0) :
    Utf8.Valid (windowText dropped entries) ↔ ∀ e ∈ entries, e.ValidText := by
  rw [windowText_eq h, Utf8.valid_cons_iff (show (91 : UInt8) < 128 by decide)]
  refine valid_listed_iff fun text htext => ?_
  rw [of_mem_noticeValues htext]
  exact ascii_notice _

end

/-! ## The array of the store -/

namespace HistoryStore

variable (s : HistoryStore)

/-- The entries that the array comes to.  These are all of the last twelve, unless the
limit was lowered by a line that is no entry. -/
def printed : List ToolHistoryEntry := entriesPrinted s.max s.droppedText s.shown

theorem printed_eq_nil_iff : s.printed = [] ↔ s.entries = [] := by
  have hprinted : s.printed = [] ↔ s.shown = [] := by
    unfold printed
    cases s.shown with
    | nil => exact iff_of_true rfl rfl
    | cons e rest => exact iff_of_false (List.cons_ne_nil _ _) (List.cons_ne_nil _ _)
  rw [hprinted, shown, List.drop_eq_nil_iff, startIndex, ← List.length_eq_zero_iff]
  split_ifs <;> omega

theorem saidDropped_eq_zero (h : s.printed = []) : s.saidDropped = 0 := by
  rw [printed_eq_nil_iff] at h
  rw [saidDropped, h]
  exact if_neg fun hpos => absurd hpos.2 (Nat.lt_irrefl 0)

theorem whole_buildJson {s : HistoryStore} (h : 0 < s.max) :
    s.buildJson.Whole (windowText s.saidDropped s.printed) := by
  have hdropped : s.droppedText.length ≤ 40 := by
    rw [s.droppedText_eq]
    exact length_noticeText_le s.saidDropped_lt
  have hwhole := whole_printToolArray s.shown h hdropped
  rw [windowText, ← s.droppedText_eq]
  exact hwhole

end HistoryStore

/-! ## The frame -/

/-- A text that the agent's reader takes for JSON. -/
def WellFormedJson (text : Bytes) : Prop := Utf8.Valid text ∧ ∃ v, JsonGrammar.IsJson text v

theorem RequestArgs.Passed.history {args : RequestArgs} (h : args.Passed)
    (toolHistory : Option Bytes) : RequestArgs.Passed { args with toolHistory } :=
  ⟨h.requestId, h.input, h.reasoningEffort, h.previousResponseId, h.contextTokens⟩

/-- **A history that is JSON** leaves every frame as it should be. -/
theorem wellFormed_frame {args : RequestArgs} (h : args.Passed)
    (hplain : WellFormedJson (frameBuildRequest { args with toolHistory := none }).text)
    {history : Bytes} (hhistory : WellFormedJson history) :
    WellFormedJson (frameBuildRequest { args with toolHistory := some history }).text := by
  have hmembers := (RequestArgs.valid_text_of_none _ (h.history none) rfl).mp hplain.1
  have hpassed := h.history (some history)
  have hjson : HistoryIsJson (some history) := by
    intro text htext
    cases htext
    exact hhistory.2
  obtain ⟨ms, hframe, _⟩ := requestFrame_isJson hpassed hjson
  refine ⟨?_, _, hframe⟩
  cases hprinted : historyPrinted (some history) with
  | none => exact (RequestArgs.valid_text_of_none _ hpassed hprinted).mpr hmembers
  | some text =>
      have hsame : some history = some text := (Option.filter_eq_some_iff.mp hprinted).1
      cases hsame
      exact (RequestArgs.valid_text_of_some _ hpassed hprinted).mpr ⟨hmembers, hhistory.1⟩

/-- The array can be embedded. -/
structure Embeds (history : Draft UInt8) : Prop where
  inside : history.inside = true
  array : Utf8.Valid history.text ∧ ∃ items, JsonGrammar.IsJson history.text (.array items)
  frame : ∀ args : RequestArgs, args.Passed →
    WellFormedJson (frameBuildRequest { args with toolHistory := none }).text →
      WellFormedJson (frameBuildRequest { args with toolHistory := some history.text }).text

/-- **Embedding**: after every sequence of calls the array can be embedded exactly if the
part of each entry that it shows is UTF-8 without control characters, newlines in the
arguments apart. -/
theorem history_embeds_iff (calls : List StoreCall) :
    Embeds (storeFrom calls).buildJson ↔
      ∀ e ∈ (storeFrom calls).printed, e.Unbroken ∧ e.ValidText := by
  have hwhole := HistoryStore.whole_buildJson (max_pos_storeFrom calls)
  generalize storeFrom calls = s at hwhole ⊢
  have hempty := s.saidDropped_eq_zero
  constructor
  · intro h
    have harray := h.array
    rw [hwhole.text_eq] at harray
    obtain ⟨hvalid, items, hitems⟩ := harray
    have hshown := (valid_windowText_iff hempty).mp hvalid
    have hunbroken := unbroken_of_isJson hempty hitems
    exact fun e he => ⟨hunbroken e he, hshown e he⟩
  · intro h
    obtain ⟨items, hitems⟩ := windowText_prints hempty fun e he => (h e he).1
    have harray : Utf8.Valid s.buildJson.text ∧
        JsonGrammar.IsJson s.buildJson.text (.array items) := by
      rw [hwhole.text_eq]
      exact ⟨(valid_windowText_iff hempty).mpr fun e he => (h e he).2, hitems.isJson⟩
    refine ⟨hwhole.inside, ⟨harray.1, items, harray.2⟩, fun args hpassed hplain => ?_⟩
    exact wellFormed_frame hpassed hplain ⟨harray.1, _, harray.2⟩

/-- A call of `read` with a tab in the name of the file. -/
def tabbedCall : StoreCall :=
  .append 20 ⟨lit "TOOL_RESULT read \x7b\"path\":\"a\tb\"\x7d\n", by decide +kernel⟩

theorem history_embeds_fails : ¬ ∀ calls, Embeds (storeFrom calls).buildJson := by
  intro h
  have hshown : ∃ e ∈ (storeFrom [tabbedCall]).printed, (9 : UInt8) ∈ e.shownArgs := by
    decide +kernel
  obtain ⟨e, he, htab⟩ := hshown
  have hargs := ((history_embeds_iff _).mp (h [tabbedCall]) e he).1.args 9 htab
  revert hargs
  decide

end StarBridge
