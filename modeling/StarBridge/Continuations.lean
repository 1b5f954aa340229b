import StarBridge.FilledLines
import StarBridge.WrapperText

/-!
# Continuations of the wrapper

Some turns of the agent stop behind a plan.  The wrapper then withholds its response
frame and prompts the agent again, at most `maxContinuations` times: as long as what it
has reads like a plan, or, if a review is asked for, as long as it does not read like a
review.  Where no review comes it writes a note of its own.  At last it cuts the middle
out of a very long answer.

The note is always found to be a review.  What the agent has written is found to be one
before the middle is cut out, not after: `continuation_reaches_summary_iff` says when
the response frame has a review.
-/

namespace StarBridge.Continuations

open CText Loops

/-! ## Plans and reviews -/

/-- `str.lower`, but for letters whose small forms are not ASCII: these stay. -/
def lower (t : PyStr) : PyStr :=
  t.flatMap fun c =>
    if c = 'İ' then ['i', '\u0307'] else if c.toNat = 8490 then ['k'] else [c.toLower]

/-- `any(p in t for p in words)`. -/
def mentions (words : List String) (t : PyStr) : Bool :=
  words.any fun word => decide (word.toList <:+: t)

theorem mentions_iff {words : List String} {t : PyStr} :
    mentions words t = true ↔ ∃ word ∈ words, word.toList <:+: t := by
  unfold mentions
  simp

/-- Where `str.splitlines` ends a line; at `\r\n` it finds an empty line more here. -/
def isLineBreak (c : Char) : Bool :=
  (10 ≤ c.toNat && c.toNat ≤ 13) || (28 ≤ c.toNat && c.toNat ≤ 30) || c.toNat == 133 ||
    c.toNat == 8232 || c.toNat == 8233

/-- `[ln for ln in t.splitlines() if ln.strip()]`. -/
def substantialLines (t : PyStr) : List PyStr :=
  (t.splitOnP isLineBreak).filter fun ln => decide (PyStr.strip ln ≠ [])

/-- `PLAN_PHRASES`. -/
def planPhrases : List String :=
  ["let me explore", "let me first explore", "let me explore it thoroughly",
    "let me explore the project more deeply", "now let me read key files",
    "let me start by exploring", "i've already done a broad listing", "now let me read",
    "the user wants me to review"]

/-- `SYNTHESIS_MARKERS`. -/
def synthesisMarkers : List String :=
  ["intent of the project", "intent of the folder", "current state (", "effort:", "benefit:",
    "effort (low/medium/high)", "benefit (low/medium/high)", "review summary",
    "potential improvements", "effort: low", "effort: medium", "effort: high", "benefit: low",
    "benefit: medium", "benefit: high"]

/-- What announces a review. -/
def reviewWords : List String := ["review the", "review a", "the user wants me to review"]

/-- What is reviewed. -/
def folderWords : List String := ["folder", "directory", "repository", "project"]

/-- `_is_plan_only_output`. -/
def isPlanOnlyOutput (text : PyStr) : Bool :=
  if text = [] then true
  else
    let t := lower (stripAnsi text)
    let stripped := PyStr.strip t
    if stripped = [] then true
    else
      let hasPlanLanguage := mentions planPhrases t
      let hasSynthesis := mentions synthesisMarkers t
      if hasPlanLanguage && !hasSynthesis then true
      else if mentions reviewWords t && mentions folderWords t then
        decide ((substantialLines stripped).length ≤ 6) && !hasSynthesis
      else false

/-- `_looks_like_complete_summary`. -/
def looksLikeCompleteSummary (text : PyStr) : Bool :=
  if text = [] then false
  else
    let t := lower (stripAnsi text)
    if mentions synthesisMarkers t then true
    else !isPlanOnlyOutput text && decide (400 < text.length)

theorem strip_ne_nil_of_mentions {t : PyStr} (h : mentions synthesisMarkers t = true) :
    PyStr.strip t ≠ [] := by
  obtain ⟨word, hword, hin⟩ := mentions_iff.mp h
  have htrimmed : (synthesisMarkers.all fun w => (w.toList.head?.all fun c => !isPySpace c) &&
      (w.toList.getLast?.all fun c => !isPySpace c) && !w.toList.isEmpty) = true := by
    simp only [synthesisMarkers, List.all_cons, List.all_nil]
    repeat rw [String.toList_ofList]
    decide
  obtain ⟨hends, hsome⟩ : PyStr.Trimmed word.toList ∧ word.toList ≠ [] := by
    have hword' := List.all_eq_true.mp htrimmed word hword
    simp only [Bool.and_eq_true, Option.all_eq_true, Bool.not_eq_true',
      List.isEmpty_eq_false_iff] at hword'
    exact hword'
  intro hnil
  have hinside := hends.infix_strip hin
  rw [hnil] at hinside
  exact hsome (List.eq_nil_of_infix_nil hinside)

/-- A text with a marker of a review is one. -/
theorem complete_of_mentions {text : PyStr}
    (h : mentions synthesisMarkers (lower (stripAnsi text)) = true) :
    looksLikeCompleteSummary text = true := by
  have hne : text ≠ [] := by
    intro hnil
    rw [hnil] at h
    exact strip_ne_nil_of_mentions h rfl
  unfold looksLikeCompleteSummary
  rw [if_neg hne]
  exact if_pos h

/-- A text with a marker of a review is no plan. -/
theorem not_planOnly_of_mentions {text : PyStr}
    (h : mentions synthesisMarkers (lower (stripAnsi text)) = true) :
    isPlanOnlyOutput text = false := by
  have hne : text ≠ [] := by
    intro hnil
    rw [hnil] at h
    exact strip_ne_nil_of_mentions h rfl
  unfold isPlanOnlyOutput
  rw [if_neg hne]
  dsimp only
  rw [if_neg (strip_ne_nil_of_mentions h), h, Bool.not_true, Bool.and_false, Bool.and_false]
  simp

/-- **No text is both a plan and a review.** -/
theorem not_complete_of_planOnly {text : PyStr} (h : isPlanOnlyOutput text = true) :
    looksLikeCompleteSummary text = false := by
  unfold looksLikeCompleteSummary
  split
  · rfl
  · dsimp only
    split
    · rename_i hmarked
      rw [not_planOnly_of_mentions hmarked] at h
      cases h
    · rw [h]
      rfl

/-! ## The request and its prompts -/

/-- `MAX_CONTINUATIONS`. -/
def maxContinuations : Nat := 5

/-- What of a request frame and of the bridge's hello decides on its prompts. -/
structure WrapperRequest where
  input : Option PyStr
  workspaceRoot : PyStr

/-- `bool_reply_exactly`. -/
def replyExactly (request : WrapperRequest) : Bool :=
  mentions ["reply exactly"] (lower (request.input.getD []))

/-- `review_task`. -/
def reviewTask (request : WrapperRequest) : Bool :=
  !replyExactly request &&
    mentions ["review", "explore", "analyze", "analyse", "audit", "intent", "current state",
      "potential improvements", "effort and benefit", "effort/benefit", "effort: ", "benefit: "]
      (lower (request.input.getD []))

/-- How `stream_prompt_with_deltas` ends: with its text, or with an exception. -/
inductive PromptResult
  | returned (text : PyStr)
  | raised (message : PyStr)

/-- `output_text` of the request's own prompt. -/
def PromptResult.outputText : PromptResult → PyStr
  | .returned text => text
  | .raised message => "ds4-agent error: ".toList ++ message

/-- `more_text` and `last_text` of the prompts that follow it. -/
def PromptResult.moreText : PromptResult → PyStr
  | .returned text => text
  | .raised _ => []

/-- `cont_prompt`, in its two forms, and `force_prompt`. -/
inductive ExtraPrompt
  | goOn
  | finalNudge
  | force
  deriving DecidableEq, Repr

/-- `full_output`, `continuation_count`, and the extra prompts that were sent. -/
structure Continuation where
  fullOutput : PyStr
  count : Nat
  prompts : List ExtraPrompt

/-- How the text of a further prompt is put to the output. -/
def addText (fullOutput text : PyStr) : PyStr :=
  let addition := PyStr.strip text
  if addition = [] then fullOutput
  else if fullOutput = [] then addition
  else fullOutput ++ "\n\n".toList ++ addition

/-- `_should_continue_for_review`. -/
def shouldContinueForReview (request : WrapperRequest) (fo : PyStr) (count : Nat) : Bool :=
  if maxContinuations ≤ count then false
  else if looksLikeCompleteSummary fo then false
  else if reviewTask request && (decide (count < 2) || !looksLikeCompleteSummary fo) then true
  else !replyExactly request && isPlanOnlyOutput fo

variable (request : WrapperRequest) (agent : Nat → PromptResult)

/-- The state before the loop.  The agent answers the prompts of the request in order. -/
def firstOutput : Continuation :=
  { fullOutput := PyStr.strip (agent 0).outputText, count := 0, prompts := [] }

/-- The condition of the loop. -/
def Goes (s : Continuation) : Prop := shouldContinueForReview request s.fullOutput s.count = true

instance : DecidablePred (Goes request) := fun s =>
  inferInstanceAs (Decidable (shouldContinueForReview request s.fullOutput s.count = true))

/-- One round of the loop. -/
def goOn (s : Continuation) : Continuation :=
  let count := s.count + 1
  { fullOutput := addText s.fullOutput (agent count).moreText
    count := count
    prompts := s.prompts ++
      [if 4 ≤ count ∨ (reviewTask request = true ∧ 3 ≤ count) then .finalNudge else .goOn] }

/-- The last chance of a review. -/
def lastChance (s : Continuation) : Continuation :=
  if reviewTask request = true ∧ looksLikeCompleteSummary s.fullOutput = false ∧
      s.count < maxContinuations then
    { fullOutput := addText s.fullOutput (agent (s.count + 1)).moreText
      count := s.count + 1
      prompts := s.prompts ++ [.force] }
  else s

/-- How `bridge_note` ends. -/
def noteImprovements : PyStr :=
  "Potential improvements:\n1. Rerun with a narrower review prompt that names the exact files or areas to inspect - Effort: Low, Benefit: Medium\n2. Increase native continuation reliability so review tasks finish with visible scored sections - Effort: Medium, Benefit: High\n3. Add a dedicated local scan fallback for review prompts when the native agent stops early - Effort: High, Benefit: High\n".toList

/-- `bridge_note`. -/
def bridgeNote : PyStr :=
  "\n\n## Bridge Fallback Summary\nThe native agent stopped before emitting the requested scored review sections. Workspace: ".toList ++
    request.workspaceRoot ++
    ".\nCurrent state: the bridge received partial native output and exhausted its bounded continuation attempts without a complete synthesis.\n".toList ++
    noteImprovements

/-- What the wrapper writes for a request behind the turns: the text of the note as a
delta, the notices, and the response frame with its output. -/
structure Answer where
  prompts : List ExtraPrompt
  delta : Option PyStr
  notices : List Bytes
  output : PyStr

/-- What follows the prompts. -/
def finish (s : Continuation) : Answer :=
  let noted := reviewTask request && !looksLikeCompleteSummary s.fullOutput
  let fullOutput :=
    if noted then
      if s.fullOutput = [] then bridgeNote request else s.fullOutput ++ bridgeNote request
    else s.fullOutput
  let compacted := compactOutput fullOutput
  { prompts := s.prompts
    delta := if noted then some (bridgeNote request ++ ['\n']) else none
    notices := compacted.1
    output := if compacted.2 = [] then (agent 0).outputText else compacted.2 }

/-- How `main` answers a request. -/
def answerRequest : Option Answer :=
  (WhileLoop.run (Goes request) (goOn request agent) maxContinuations
    (firstOutput agent)).map fun s => finish request agent (lastChance request agent s)

/-- Continuation is bounded and reaches a summary: plans and reviews exclude each other,
the request is answered after at most `maxContinuations` extra prompts, with none if it
asks for an exact reply, and with a review if it asks for one. -/
structure ReachesSummary : Prop where
  disjoint : ∀ text, ¬ (isPlanOnlyOutput text = true ∧ looksLikeCompleteSummary text = true)
  answered : ∃ answer, answerRequest request agent = some answer ∧
    answer.prompts.length ≤ maxContinuations ∧
    (replyExactly request = true → answer.prompts = []) ∧
    (reviewTask request = true → looksLikeCompleteSummary answer.output = true)

/-! ## The prompts -/

/-- The texts of the first prompts, put together. -/
def joined : Nat → PyStr
  | 0 => PyStr.strip (agent 0).outputText
  | n + 1 => addText (joined n) (agent (n + 1)).moreText

/-- What is so in every round of the loop. -/
structure Continued (s : Continuation) : Prop where
  output : s.fullOutput = joined agent s.count
  sent : s.prompts.length = s.count
  bounded : s.count ≤ maxContinuations
  incomplete : ∀ m < s.count, looksLikeCompleteSummary (joined agent m) = false
  silent : replyExactly request = true → s.count = 0

theorem continued_firstOutput : Continued request agent (firstOutput agent) where
  output := rfl
  sent := rfl
  bounded := Nat.zero_le _
  incomplete := fun m hm => absurd hm (Nat.not_lt_zero m)
  silent := fun _ => rfl

/-- A request that asks for an exact reply asks for no review. -/
theorem not_reviewTask_of_replyExactly {request : WrapperRequest}
    (h : replyExactly request = true) : reviewTask request = false := by
  unfold reviewTask
  rw [h]
  rfl

variable {request agent}

/-- When the loop goes on. -/
theorem goes_iff {s : Continuation} :
    Goes request s ↔ s.count < maxContinuations ∧
      looksLikeCompleteSummary s.fullOutput = false ∧
      (reviewTask request = true ∨
        replyExactly request = false ∧ isPlanOnlyOutput s.fullOutput = true) := by
  unfold Goes shouldContinueForReview
  by_cases hcount : maxContinuations ≤ s.count
  · simp [hcount]
  · cases hcomplete : looksLikeCompleteSummary s.fullOutput with
    | true => simp
    | false => cases hreview : reviewTask request <;> simp [Nat.lt_of_not_le hcount]

/-- **One round.** -/
theorem continued_goOn {s : Continuation} (hgoes : Goes request s)
    (h : Continued request agent s) : Continued request agent (goOn request agent s) := by
  obtain ⟨hcount, hincomplete, hasks⟩ := goes_iff.mp hgoes
  constructor
  · show addText s.fullOutput (agent (s.count + 1)).moreText = joined agent (s.count + 1)
    rw [h.output]
    rfl
  · show (s.prompts ++ [_]).length = s.count + 1
    rw [List.length_append, h.sent]
    rfl
  · exact hcount
  · intro m hm
    rcases Nat.lt_succ_iff_lt_or_eq.mp hm with hless | hlast
    · exact h.incomplete m hless
    · rw [hlast, ← h.output]
      exact hincomplete
  · intro hreply
    rcases hasks with hreview | hplan
    · rw [not_reviewTask_of_replyExactly hreply] at hreview
      cases hreview
    · rw [hreply] at hplan
      cases hplan.1

/-- **The loop ends.** -/
theorem exists_left (request : WrapperRequest) (agent : Nat → PromptResult) :
    ∃ s, WhileLoop.run (Goes request) (goOn request agent) maxContinuations
        (firstOutput agent) = some s ∧ Continued request agent s ∧ ¬ Goes request s := by
  have hlower : ∀ s, Continued request agent s → Goes request s →
      Continued request agent (goOn request agent s) ∧
        maxContinuations - (goOn request agent s).count < maxContinuations - s.count := by
    intro s hcontinued hgoes
    have hcount := (goes_iff.mp hgoes).1
    refine ⟨continued_goOn hgoes hcontinued, ?_⟩
    show maxContinuations - (s.count + 1) < maxContinuations - s.count
    omega
  obtain ⟨s, hrun⟩ := WhileLoop.exists_run_of_measure
    (fun s : Continuation => maxContinuations - s.count) hlower
    (continued_firstOutput request agent) (Nat.sub_le _ _)
  have hleft : WhileLoop.Leaves (Goes request) (goOn request agent) (firstOutput agent) s :=
    ⟨_, hrun⟩
  obtain ⟨hcontinued, hout⟩ := hleft.invariant (continued_firstOutput request agent)
    fun s hgoes h => continued_goOn hgoes h
  exact ⟨s, hrun, hcontinued, hout⟩

/-- The last chance of a review never comes: the loop has used all prompts by then. -/
theorem lastChance_eq_self {s : Continuation} (hout : ¬ Goes request s) :
    lastChance request agent s = s := by
  apply if_neg
  rintro ⟨hreview, hincomplete, hcount⟩
  exact hout (goes_iff.mpr ⟨hcount, hincomplete, Or.inl hreview⟩)

/-! ## What the compaction leaves -/

/-- A text as the heuristics see it. -/
def visible (text : PyStr) : PyStr := lower (stripAnsi text)

/-- The two parts of a very long output that are kept. -/
def keptHead (fullOutput : PyStr) : PyStr := fullOutput.take 8000

def keptTail (fullOutput : PyStr) : PyStr := fullOutput.drop (fullOutput.length - 8000)

/-- One of the words is kept. -/
def KeepsOne (words : List String) (fullOutput : PyStr) : Prop :=
  mentions words (visible (keptHead fullOutput)) = true ∨
    mentions words (visible (keptTail fullOutput)) = true

/-- The compaction cuts the review out: no marker of one is kept, and what is kept reads
like a plan, or in few lines tells what shall be reviewed. -/
def CutsReview (fullOutput : PyStr) : Prop :=
  20000 < fullOutput.length ∧ ¬ KeepsOne synthesisMarkers fullOutput ∧
    (KeepsOne planPhrases fullOutput ∨
      KeepsOne reviewWords fullOutput ∧ KeepsOne folderWords fullOutput ∧
        (substantialLines (visible (keptHead fullOutput))).length +
          (substantialLines (visible (keptTail fullOutput))).length ≤ 5)

/-- A text and the white space that `strip` takes from its ends. -/
theorem exists_strip (t : PyStr) :
    ∃ front back, t = front ++ (PyStr.strip t ++ back) ∧
      (∀ c ∈ front, isPySpace c = true) ∧ ∀ c ∈ back, isPySpace c = true := by
  refine ⟨t.takeWhile isPySpace, ((t.dropWhile isPySpace).reverse.takeWhile isPySpace).reverse,
    ?_, fun c hc => List.mem_takeWhile_imp hc,
    fun c hc => List.mem_takeWhile_imp (List.mem_reverse.mp hc)⟩
  rw [PyStr.strip, ← List.reverse_append, List.takeWhile_append_dropWhile, List.reverse_reverse,
    List.takeWhile_append_dropWhile]

theorem strip_eq_nil_iff {t : PyStr} : PyStr.strip t = [] ↔ ∀ c ∈ t, isPySpace c = true := by
  constructor
  · intro hnil
    obtain ⟨front, back, hsplit, hfront, hback⟩ := exists_strip t
    rw [hnil, List.nil_append] at hsplit
    rw [hsplit]
    exact List.forall_mem_append.mpr ⟨hfront, hback⟩
  · intro hall
    by_contra hne
    have hlast := (PyStr.trimmed_strip t).1 _ (List.head?_eq_some_head hne)
    rw [hall _ ((PyStr.strip_infix t).subset (List.head_mem hne))] at hlast
    cases hlast

/-- The lines are counted by what is in them. -/
theorem length_substantialLines (t : PyStr) :
    (substantialLines t).length = FilledLines.filled isLineBreak isPySpace t := by
  have hsame : ∀ ln : PyStr, decide (PyStr.strip ln ≠ []) = FilledLines.hasText isPySpace ln := by
    intro ln
    unfold FilledLines.hasText
    rw [Bool.eq_iff_iff, decide_eq_true_iff, ne_eq, strip_eq_nil_iff]
    simp
  unfold substantialLines FilledLines.filled
  rw [funext hsame]

theorem length_substantialLines_strip (t : PyStr) :
    (substantialLines (PyStr.strip t)).length = (substantialLines t).length := by
  obtain ⟨front, back, hsplit, hfront, hback⟩ := exists_strip t
  rw [length_substantialLines, length_substantialLines]
  conv_rhs => rw [hsplit]
  rw [FilledLines.filled_blank_append hfront, FilledLines.filled_append_blank hback]

theorem length_substantialLines_line (front back : PyStr) :
    (substantialLines (front ++ '\n' :: back)).length =
      (substantialLines front).length + (substantialLines back).length := by
  rw [length_substantialLines, length_substantialLines, length_substantialLines]
  exact FilledLines.filled_append_cons (by decide)

theorem mentions_line {words : List String} (h : ∀ word ∈ words, '\n' ∉ word.toList)
    (front back : PyStr) :
    mentions words (front ++ '\n' :: back) = (mentions words front || mentions words back) := by
  rw [Bool.eq_iff_iff, Bool.or_eq_true, mentions_iff, mentions_iff, mentions_iff]
  constructor
  · rintro ⟨word, hword, hin⟩
    rcases (FilledLines.infix_append_cons_iff (h word hword)).mp hin with hfront | hback
    · exact Or.inl ⟨word, hword, hfront⟩
    · exact Or.inr ⟨word, hword, hback⟩
  · rintro (⟨word, hword, hin⟩ | ⟨word, hword, hin⟩)
    · exact ⟨word, hword, (FilledLines.infix_append_cons_iff (h word hword)).mpr (Or.inl hin)⟩
    · exact ⟨word, hword, (FilledLines.infix_append_cons_iff (h word hword)).mpr (Or.inr hin)⟩

theorem visible_line (front back : PyStr) :
    visible (front ++ '\n' :: back) = visible front ++ '\n' :: visible back := by
  unfold visible stripAnsi
  rw [stripAnsiFrom_append (Nat.zero_le _)]
  unfold lower
  rw [List.flatMap_append, List.flatMap_cons]
  rfl

/-- The line between the kept parts. -/
def cutLine : PyStr := "[... large exploration output compacted ...]".toList

/-- The lines of what the compaction makes. -/
theorem compactOutput_snd {fullOutput : PyStr} (h : 20000 < fullOutput.length) :
    (compactOutput fullOutput).2 = keptHead fullOutput ++
      '\n' :: ([] ++ '\n' :: (cutLine ++ '\n' :: ([] ++ '\n' :: keptTail fullOutput))) := by
  have hnotice : "\n\n[... large exploration output compacted ...]\n\n".toList =
      '\n' :: '\n' :: (cutLine ++ ['\n', '\n']) := by
    unfold cutLine
    repeat rw [String.toList_ofList]
    rfl
  unfold compactOutput
  rw [if_pos h, hnotice]
  simp [keptHead, keptTail]

/-- What a heuristic sees of the lines between. -/
theorem visible_compacted {fullOutput : PyStr} (h : 20000 < fullOutput.length) :
    visible (compactOutput fullOutput).2 = visible (keptHead fullOutput) ++
      '\n' :: ([] ++ '\n' :: (cutLine ++ '\n' :: ([] ++ '\n' :: visible (keptTail fullOutput)))) := by
  have hcut : visible cutLine = cutLine := by
    unfold cutLine
    rw [String.toList_ofList]
    rfl
  rw [compactOutput_snd h, visible_line, visible_line, visible_line, visible_line, hcut]
  rfl

/-- The words are within a line, and not in the one that tells of the compaction. -/
def Kept (words : List String) : Prop :=
  (∀ word ∈ words, '\n' ∉ word.toList) ∧ mentions words [] = false ∧
    mentions words cutLine = false

/-- **Of such words the compaction leaves** those in the parts that it keeps. -/
theorem mentions_compacted {words : List String} (hwords : Kept words) {fullOutput : PyStr}
    (h : 20000 < fullOutput.length) :
    mentions words (visible (compactOutput fullOutput).2) = true ↔ KeepsOne words fullOutput := by
  obtain ⟨hline, hnil, hcut⟩ := hwords
  rw [visible_compacted h, mentions_line hline, mentions_line hline, mentions_line hline,
    mentions_line hline, hnil, hcut, Bool.false_or, Bool.false_or, Bool.false_or, Bool.or_eq_true]
  exact Iff.rfl

/-- The line that tells of the compaction is one line more. -/
theorem length_substantialLines_compacted {fullOutput : PyStr} (h : 20000 < fullOutput.length) :
    (substantialLines (PyStr.strip (visible (compactOutput fullOutput).2))).length =
      (substantialLines (visible (keptHead fullOutput))).length + 1 +
        (substantialLines (visible (keptTail fullOutput))).length := by
  have hnil : (substantialLines []).length = 0 := rfl
  have hcut : (substantialLines cutLine).length = 1 := by
    unfold cutLine
    rw [String.toList_ofList]
    rfl
  rw [length_substantialLines_strip, visible_compacted h, length_substantialLines_line,
    length_substantialLines_line, length_substantialLines_line, length_substantialLines_line,
    hnil, hcut]
  omega

theorem kept_words : Kept synthesisMarkers ∧ Kept planPhrases ∧ Kept reviewWords ∧
    Kept folderWords := by
  unfold Kept mentions synthesisMarkers planPhrases reviewWords folderWords cutLine
  simp only [List.forall_mem_cons, List.any_cons, List.any_nil]
  repeat rw [String.toList_ofList]
  refine ⟨?_, ?_, ?_, ?_⟩
  all_goals decide

theorem kept_markers : Kept synthesisMarkers := kept_words.1

theorem kept_plans : Kept planPhrases := kept_words.2.1

theorem kept_reviews : Kept reviewWords := kept_words.2.2.1

theorem kept_folders : Kept folderWords := kept_words.2.2.2

/-- What makes a text a plan, if there is something in it. -/
theorem isPlanOnlyOutput_iff {text : PyStr} (h : PyStr.strip (visible text) ≠ []) :
    isPlanOnlyOutput text = true ↔ ¬ mentions synthesisMarkers (visible text) = true ∧
      (mentions planPhrases (visible text) = true ∨
        mentions reviewWords (visible text) = true ∧ mentions folderWords (visible text) = true ∧
          (substantialLines (PyStr.strip (visible text))).length ≤ 6) := by
  have hne : text ≠ [] := by
    intro hnil
    rw [hnil] at h
    exact h rfl
  unfold isPlanOnlyOutput
  rw [if_neg hne]
  dsimp only
  rw [show lower (stripAnsi text) = visible text from rfl, if_neg h]
  cases hmarkers : mentions synthesisMarkers (visible text) <;>
    cases hplans : mentions planPhrases (visible text) <;>
      cases hreviews : mentions reviewWords (visible text) <;>
        cases hfolders : mentions folderWords (visible text) <;> simp

/-- A long text is a review unless it is a plan. -/
theorem complete_iff_of_long {text : PyStr} (h : 400 < text.length) :
    looksLikeCompleteSummary text = true ↔ isPlanOnlyOutput text = false := by
  constructor
  · intro hcomplete
    cases hplan : isPlanOnlyOutput text with
    | false => rfl
    | true =>
        rw [not_complete_of_planOnly hplan] at hcomplete
        cases hcomplete
  · intro hplan
    have hne : text ≠ [] := List.length_pos_iff.mp (by omega)
    unfold looksLikeCompleteSummary
    rw [if_neg hne, hplan, decide_eq_true h]
    simp

/-- **When a very long output is still a review** behind the compaction. -/
theorem complete_compacted_iff {fullOutput : PyStr} (h : 20000 < fullOutput.length) :
    looksLikeCompleteSummary (compactOutput fullOutput).2 = true ↔ ¬ CutsReview fullOutput := by
  have hlong : 400 < (compactOutput fullOutput).2.length := by
    rw [compactOutput_snd h, List.length_append, keptHead, List.length_take]
    omega
  have hsome : PyStr.strip (visible (compactOutput fullOutput).2) ≠ [] := by
    intro hnil
    have hall := strip_eq_nil_iff.mp hnil
    rw [visible_compacted h] at hall
    have hbracket : '[' ∈ cutLine := by
      unfold cutLine
      rw [String.toList_ofList]
      exact List.mem_cons_self
    exact absurd (hall '[' (by simp [hbracket])) (by decide)
  rw [complete_iff_of_long hlong, ← Bool.not_eq_true, isPlanOnlyOutput_iff hsome,
    mentions_compacted kept_markers h, mentions_compacted kept_plans h,
    mentions_compacted kept_reviews h, mentions_compacted kept_folders h,
    length_substantialLines_compacted h]
  apply not_congr
  unfold CutsReview
  constructor
  · rintro ⟨hmarkers, hplans | ⟨hreviews, hfolders, hlines⟩⟩
    · exact ⟨h, hmarkers, Or.inl hplans⟩
    · exact ⟨h, hmarkers, Or.inr ⟨hreviews, hfolders, by omega⟩⟩
  · rintro ⟨-, hmarkers, hplans | ⟨hreviews, hfolders, hlines⟩⟩
    · exact ⟨hmarkers, Or.inl hplans⟩
    · exact ⟨hmarkers, Or.inr ⟨hreviews, hfolders, by omega⟩⟩

/-! ## The response -/

/-- Among the first prompts, the one with which the output becomes a review. -/
def FirstReview (agent : Nat → PromptResult) (n : Nat) : Prop :=
  n ≤ maxContinuations ∧ looksLikeCompleteSummary (joined agent n) = true ∧
    ∀ m < n, looksLikeCompleteSummary (joined agent m) = false

/-- The note ends in a list of improvements. -/
theorem exists_bridgeNote (request : WrapperRequest) :
    ∃ front, bridgeNote request = front ++ '\n' :: noteImprovements := by
  obtain ⟨front, hfront⟩ : ∃ front : PyStr,
      ".\nCurrent state: the bridge received partial native output and exhausted its bounded continuation attempts without a complete synthesis.\n".toList =
        front ++ ['\n'] :=
    ⟨_, (List.dropLast_append_getLast? '\n' (by rw [String.toList_ofList]; rfl)).symm⟩
  unfold bridgeNote
  rw [hfront]
  exact ⟨_, by rw [← List.append_assoc, List.append_assoc _ ['\n'], List.singleton_append]⟩

theorem mentions_noteImprovements :
    mentions synthesisMarkers (visible noteImprovements) = true := by
  have hheading : mentions synthesisMarkers (visible "Potential improvements:".toList) = true := by
    refine mentions_iff.mpr ⟨"potential improvements", by simp [synthesisMarkers], [], [':'], ?_⟩
    repeat rw [String.toList_ofList]
    rfl
  obtain ⟨items, hitems⟩ : ∃ items : PyStr,
      noteImprovements = "Potential improvements:".toList ++ '\n' :: items := by
    unfold noteImprovements
    rw [String.toList_ofList, String.toList_ofList]
    exact ⟨_, rfl⟩
  rw [hitems, visible_line, mentions_line kept_markers.1, hheading, Bool.true_or]

/-- A text that ends like the note has a marker of a review. -/
theorem mentions_noted (front : PyStr) :
    mentions synthesisMarkers (visible (front ++ '\n' :: noteImprovements)) = true := by
  rw [visible_line, mentions_line kept_markers.1, mentions_noteImprovements, Bool.or_true]

/-- **The note outlives the compaction.** -/
theorem complete_noted (front : PyStr) :
    looksLikeCompleteSummary (compactOutput (front ++ '\n' :: noteImprovements)).2 = true := by
  by_cases hlong : 20000 < (front ++ '\n' :: noteImprovements).length
  · rw [complete_compacted_iff hlong]
    rintro ⟨-, hmarkers, -⟩
    apply hmarkers
    right
    have hshort : noteImprovements.length ≤ 7999 := by
      unfold noteImprovements
      rw [String.toList_ofList]
      decide +kernel
    have hinside : (front ++ '\n' :: noteImprovements).length - 8000 ≤ front.length := by
      rw [List.length_append, List.length_cons]
      omega
    unfold keptTail
    rw [List.drop_append_of_le_length hinside]
    exact mentions_noted _
  · unfold compactOutput
    rw [if_neg hlong]
    exact complete_of_mentions (mentions_noted front)

/-- What the compaction makes of a review. -/
theorem complete_compactOutput_iff {fullOutput : PyStr}
    (h : looksLikeCompleteSummary fullOutput = true) :
    looksLikeCompleteSummary (compactOutput fullOutput).2 = true ↔ ¬ CutsReview fullOutput := by
  by_cases hlong : 20000 < fullOutput.length
  · exact complete_compacted_iff hlong
  · constructor
    · intro _ hcuts
      exact hlong hcuts.1
    · intro _
      unfold compactOutput
      rw [if_neg hlong]
      exact h

theorem compactOutput_ne_nil {fullOutput : PyStr} (h : fullOutput ≠ []) :
    (compactOutput fullOutput).2 ≠ [] := by
  by_cases hlong : 20000 < fullOutput.length
  · rw [compactOutput_snd hlong]
    exact List.append_ne_nil_of_right_ne_nil _ (List.cons_ne_nil _ _)
  · unfold compactOutput
    rw [if_neg hlong]
    exact h

/-- The output of a request for which no note is written. -/
theorem finish_output {s : Continuation} (h : looksLikeCompleteSummary s.fullOutput = true) :
    (finish request agent s).output = (compactOutput s.fullOutput).2 := by
  have hne : s.fullOutput ≠ [] := by
    intro hnil
    rw [hnil] at h
    cases h
  unfold finish
  rw [h, Bool.not_true, Bool.and_false]
  exact if_neg (compactOutput_ne_nil hne)

/-- The output of a request for which a note is written. -/
theorem exists_finish_output {s : Continuation} (hreview : reviewTask request = true)
    (h : looksLikeCompleteSummary s.fullOutput = false) :
    ∃ front, (finish request agent s).output =
      (compactOutput (front ++ '\n' :: noteImprovements)).2 := by
  obtain ⟨start, hnote⟩ := exists_bridgeNote request
  obtain ⟨front, hfront⟩ : ∃ front,
      (if s.fullOutput = [] then bridgeNote request else s.fullOutput ++ bridgeNote request) =
        front ++ '\n' :: noteImprovements := by
    rw [hnote]
    split
    · exact ⟨start, rfl⟩
    · exact ⟨s.fullOutput ++ start, (List.append_assoc _ _ _).symm⟩
  have hne : front ++ '\n' :: noteImprovements ≠ [] :=
    List.append_ne_nil_of_right_ne_nil _ (List.cons_ne_nil _ _)
  refine ⟨front, ?_⟩
  unfold finish
  rw [hreview, h, Bool.not_false, Bool.and_true]
  dsimp only
  rw [if_pos rfl, hfront]
  exact if_neg (compactOutput_ne_nil hne)

/-- **Where the summary is reached.**  A review request gets its review unless the
compaction cuts it out of the output that first had one. -/
theorem continuation_reaches_summary_iff (request : WrapperRequest)
    (agent : Nat → PromptResult) :
    ReachesSummary request agent ↔
      (reviewTask request = true → ∀ n, FirstReview agent n → ¬ CutsReview (joined agent n)) := by
  obtain ⟨s, hrun, hcontinued, hout⟩ := exists_left request agent
  have hanswer : answerRequest request agent = some (finish request agent s) := by
    unfold answerRequest
    rw [hrun, Option.map_some, lastChance_eq_self hout]
  constructor
  · rintro ⟨-, answer, hsome, -, -, hcomplete⟩ hreview n ⟨hbound, hfirst, hbefore⟩
    rw [hanswer] at hsome
    obtain rfl := Option.some.inj hsome
    have hsame : s.count = n := by
      rcases Nat.lt_trichotomy s.count n with hless | heq | hmore
      · exact absurd (goes_iff.mpr ⟨Nat.lt_of_lt_of_le hless hbound,
          hcontinued.output ▸ hbefore s.count hless, Or.inl hreview⟩) hout
      · exact heq
      · rw [hcontinued.incomplete n hmore] at hfirst
        cases hfirst
    rw [← hsame, ← hcontinued.output] at hfirst ⊢
    have hkept := hcomplete hreview
    rw [finish_output hfirst] at hkept
    exact (complete_compactOutput_iff hfirst).mp hkept
  · intro hkeeps
    refine ⟨fun text hboth => ?_, finish request agent s, hanswer, ?_, ?_, fun hreview => ?_⟩
    · rw [not_complete_of_planOnly hboth.1] at hboth
      cases hboth.2
    · show s.prompts.length ≤ maxContinuations
      rw [hcontinued.sent]
      exact hcontinued.bounded
    · intro hreply
      show s.prompts = []
      rw [← List.length_eq_zero_iff, hcontinued.sent]
      exact hcontinued.silent hreply
    · cases hcomplete : looksLikeCompleteSummary s.fullOutput with
      | true =>
          rw [finish_output hcomplete, complete_compactOutput_iff hcomplete]
          rw [hcontinued.output] at hcomplete ⊢
          exact hkeeps hreview s.count ⟨hcontinued.bounded, hcomplete, hcontinued.incomplete⟩
      | false =>
          obtain ⟨front, hfront⟩ := exists_finish_output hreview hcomplete
          rw [hfront]
          exact complete_noted front

/-! ## A review in the middle -/

theorem dropWhile_eq_self {t : PyStr} (h : ∀ c ∈ t.head?, isPySpace c = false) :
    t.dropWhile isPySpace = t := by
  cases t with
  | nil => rfl
  | cons c rest => exact List.dropWhile_cons_of_neg (by rw [h c rfl]; exact Bool.false_ne_true)

/-- A trimmed text stays. -/
theorem strip_eq_self {t : PyStr} (h : PyStr.Trimmed t) : PyStr.strip t = t := by
  have hlast : ∀ c ∈ t.reverse.head?, isPySpace c = false := by
    rw [List.head?_reverse]
    exact h.2
  unfold PyStr.strip
  rw [dropWhile_eq_self h.1, dropWhile_eq_self hlast, List.reverse_reverse]

/-- A text of one small letter looks as it is. -/
theorem visible_replicate (n : Nat) : visible (List.replicate n 'z') = List.replicate n 'z' := by
  have hplain : '\x1b' ∉ List.replicate n 'z' := fun hmem =>
    absurd (List.eq_of_mem_replicate hmem) (by decide)
  have hstrip := stripAnsi_append_of_plain hplain []
  rw [List.append_nil, show stripAnsi [] = [] from rfl, List.append_nil] at hstrip
  unfold visible
  rw [hstrip]
  unfold lower
  rw [List.flatMap_replicate]
  simp

/-- No word of the heuristics is made of one letter. -/
theorem mentions_replicate {words : List String} (h : ∀ word ∈ words, ∃ c ∈ word.toList, c ≠ 'z')
    (n : Nat) : mentions words (visible (List.replicate n 'z')) = false := by
  rw [visible_replicate, ← Bool.not_eq_true, mentions_iff]
  rintro ⟨word, hword, hin⟩
  obtain ⟨c, hc, hne⟩ := h word hword
  exact hne (List.eq_of_mem_replicate (hin.subset hc))

/-- A plan, much text, a review, and much text again. -/
def longReview (n : Nat) : PyStr :=
  "let me explore".toList ++ '\n' :: (List.replicate n 'z' ++
    '\n' :: ("review summary".toList ++ '\n' :: List.replicate n 'z'))

theorem strip_longReview {n : Nat} (h : 0 < n) : PyStr.strip (longReview n) = longReview n := by
  apply strip_eq_self
  constructor
  · intro c hc
    obtain rfl : 'l' = c := Option.some.inj hc
    decide
  · intro c hc
    have hlast : (longReview n).getLast? = some 'z' := by
      have hne : n ≠ 0 := Nat.ne_of_gt h
      unfold longReview
      rw [List.getLast?_append, List.getLast?_cons, List.getLast?_append, List.getLast?_cons,
        List.getLast?_append, List.getLast?_cons, List.getLast?_replicate, if_neg hne]
      rfl
    rw [hlast] at hc
    obtain rfl := Option.some.inj hc
    decide

theorem complete_longReview (n : Nat) : looksLikeCompleteSummary (longReview n) = true := by
  have hreview : mentions synthesisMarkers (visible "review summary".toList) = true := by
    refine mentions_iff.mpr ⟨"review summary", by simp [synthesisMarkers], [], [], ?_⟩
    rw [String.toList_ofList]
    rfl
  apply complete_of_mentions
  show mentions synthesisMarkers (visible (longReview n)) = true
  unfold longReview
  rw [visible_line, visible_line, visible_line, mentions_line kept_markers.1,
    mentions_line kept_markers.1, mentions_line kept_markers.1, hreview]
  simp

theorem length_longReview (n : Nat) : (longReview n).length = n + n + 31 := by
  have hplan : "let me explore".toList.length = 14 := rfl
  have hreview : "review summary".toList.length = 14 := rfl
  unfold longReview
  rw [List.length_append, List.length_cons, List.length_append, List.length_cons,
    List.length_append, List.length_cons, List.length_replicate, hplan, hreview]
  omega

theorem keptHead_longReview {n : Nat} (h : 8000 ≤ n) :
    keptHead (longReview n) = "let me explore".toList ++ '\n' :: List.replicate 7985 'z' := by
  have hplan : "let me explore".toList.length = 14 := rfl
  unfold keptHead longReview
  rw [List.take_append, hplan, List.take_of_length_le (by rw [hplan]; omega),
    show 8000 - 14 = 7985 + 1 from rfl, List.take_succ_cons,
    List.take_append_of_le_length (by rw [List.length_replicate]; omega), List.take_replicate,
    Nat.min_eq_left (by omega)]

theorem keptTail_longReview {n : Nat} (h : 8000 ≤ n) :
    keptTail (longReview n) = List.replicate 8000 'z' := by
  have hsplit : longReview n = ("let me explore".toList ++ '\n' :: (List.replicate n 'z' ++
      '\n' :: ("review summary".toList ++ ['\n']))) ++ List.replicate n 'z' := by
    unfold longReview
    rw [List.append_assoc, List.cons_append, List.append_assoc, List.cons_append,
      List.append_assoc, List.singleton_append]
  have hlength := length_longReview n
  have hfront := congrArg List.length hsplit
  rw [List.length_append, List.length_replicate, hlength] at hfront
  unfold keptTail
  rw [hlength]
  conv_lhs => rw [hsplit]
  rw [List.drop_append, List.drop_of_length_le (by omega), List.nil_append, List.drop_replicate]
  congr 1
  omega

/-- The compaction takes the review out of it. -/
theorem cutsReview_longReview {n : Nat} (h : 10000 ≤ n) : CutsReview (longReview n) := by
  have hvisible : visible "let me explore".toList = "let me explore".toList := by
    rw [String.toList_ofList]
    rfl
  have hplan : mentions planPhrases (visible "let me explore".toList) = true :=
    mentions_iff.mpr ⟨"let me explore", by simp [planPhrases], hvisible ▸ List.infix_rfl⟩
  have hmarker : mentions synthesisMarkers (visible "let me explore".toList) = false := by
    rw [hvisible]
    unfold mentions synthesisMarkers
    simp only [List.any_cons, List.any_nil]
    repeat rw [String.toList_ofList]
    decide
  have hletters : ∀ word ∈ synthesisMarkers, ∃ c ∈ word.toList, c ≠ 'z' := by
    have hany : (synthesisMarkers.all fun word => word.toList.any fun c => c != 'z') = true := by
      simp only [synthesisMarkers, List.all_cons, List.all_nil]
      repeat rw [String.toList_ofList]
      decide
    intro word hword
    obtain ⟨c, hc, hne⟩ := List.any_eq_true.mp (List.all_eq_true.mp hany word hword)
    exact ⟨c, hc, bne_iff_ne.mp hne⟩
  have hhead := keptHead_longReview (show 8000 ≤ n by omega)
  have htail := keptTail_longReview (show 8000 ≤ n by omega)
  refine ⟨by rw [length_longReview]; omega, ?_, Or.inl (Or.inl ?_)⟩
  · unfold KeepsOne
    rw [hhead, htail, visible_line, mentions_line kept_markers.1, hmarker,
      mentions_replicate hletters, mentions_replicate hletters]
    simp
  · rw [hhead, visible_line, mentions_line kept_plans.1, hplan, Bool.true_or]

/-- The agent gives this text to a request for a review: the review is in its output, and
not in the response. -/
theorem summary_cut_out :
    ¬ ReachesSummary ⟨some "review".toList, ".".toList⟩
      (fun _ => .returned (longReview 10000)) := by
  have hjoined : joined (fun _ => .returned (longReview 10000)) 0 = longReview 10000 :=
    strip_longReview (by omega)
  have hreview : reviewTask ⟨some "review".toList, ".".toList⟩ = true := by decide +kernel
  intro hreaches
  have hkept := (continuation_reaches_summary_iff _ _).mp hreaches hreview 0
  rw [hjoined] at hkept
  refine hkept ⟨Nat.zero_le _, ?_, fun m hm => absurd hm (Nat.not_lt_zero m)⟩
    (cutsReview_longReview (Nat.le_refl _))
  rw [hjoined]
  exact complete_longReview 10000

end StarBridge.Continuations
