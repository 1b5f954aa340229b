import StarBridge.WrapperText
import StarBridge.Loops
import StarBridge.Runs

/-!
# Streamed turns of the wrapper

`stream_prompt_with_deltas` collects the lines of a turn, sends most of them on at once,
and answers with all of them in the end.  In a long burst of listing lines it sends
twelve, then one notice, and "all lines still go to parts for final
`_compact_dir_listings`".

They do not: a line that is not sent is not collected either.
`stream_accounts_iff` says which turns the answer accounts for line by line.
-/

namespace StarBridge

open CText Loops Runs

/-! ## The turn -/

/-- `DS4_SHOW_TOOL_LINES` and `DS4_MAX_LISTING_LINES`. -/
structure WrapperEnv where
  showToolLines : Bool
  maxListingLines : Int

/-- A line of the agent, less its line feed. -/
structure AgentLine where
  text : PyStr
  oneLine : '\n' ∉ text

/-- What the wrapper writes in the course of a turn. -/
inductive TurnFrame
  | thinking (message : String)
  | textDelta (text : PyStr)

variable {α : Type*} (lineText : α → PyStr)

/-- A member of `parts`: a line, or the notice that stands for one. -/
inductive TurnPart (α : Type*)
  | line (l : α)
  | notice (l : α)

/-- The notice that takes the place of listing lines. -/
def liveNotice : PyStr :=
  "[... listing many more files (see compacted summary in final response) ...]".toList

/-- What a part reads. -/
def TurnPart.text : TurnPart α → PyStr
  | .line l => stripAnsi (lineText l)
  | .notice _ => liveNotice

/-- The line a part tells. -/
def TurnPart.told : TurnPart α → List α
  | .line l => [l]
  | .notice _ => []

/-- The variables of the loop, and the frames it has written. -/
structure StreamTurn (α : Type*) where
  parts : List (TurnPart α)
  listingBurstCount : Nat
  frames : List TurnFrame

/-- The loop as a turn begins. -/
def StreamTurn.start : StreamTurn α :=
  ⟨[], 0, [.thinking "ds4-agent received prompt, starting..."]⟩

/-- `MAX_LIVE_LISTING_DELTAS`. -/
def maxLiveListingDeltas : Nat := 12

/-- A part that is collected, and sent as a delta. -/
def StreamTurn.collect (s : StreamTurn α) (part : TurnPart α) : StreamTurn α :=
  { s with parts := s.parts ++ [part]
           frames := s.frames ++ [.textDelta (part.text lineText ++ ['\n'])] }

/-- What a turn does with a line that does not end it. -/
def streamLine (env : WrapperEnv) (s : StreamTurn α) (l : α) : StreamTurn α :=
  if lineText l ≠ [] then
    let cleanText := stripAnsi (lineText l)
    if cleanText ≠ [] then
      if isToolTranscriptLine cleanText ∧ ¬ env.showToolLines then s
      else if looksLikeListingLine cleanText then
        let s := { s with listingBurstCount := s.listingBurstCount + 1 }
        if s.listingBurstCount ≤ maxLiveListingDeltas then s.collect lineText (.line l)
        else if s.listingBurstCount = maxLiveListingDeltas + 1 then s.collect lineText (.notice l)
        else s
      else { s with listingBurstCount := 0 }.collect lineText (.line l)
    else s
  else { s with listingBurstCount := 0 }

/-- What `readline` comes back with: a line, or nothing for a second.  In the second
case a frame is written if the last one was long ago. -/
inductive WrapperInput (α : Type*)
  | line (l : α)
  | silence (long : Bool)

/-- The line ends the turn. -/
def endsTurn (text : PyStr) : Bool := text == waitingMarker || statusTag.isPrefixOf text

/-- A round of the loop. -/
def streamInput (env : WrapperEnv) (s : StreamTurn α) :
    WrapperInput α → Progress (StreamTurn α) (StreamTurn α)
  | .line l => if endsTurn (lineText l) then .ended s else .running (streamLine lineText env s l)
  | .silence long =>
      .running (if long then
        { s with frames := s.frames ++ [.thinking "ds4-agent is reasoning..."] } else s)

/-- What a turn answers with, once it has collected these parts: nothing where the
compaction does not return. -/
def TurnAnswers (env : WrapperEnv) (parts : List (TurnPart α))
    (entries : List (ListingEntry (TurnPart α))) (text : PyStr) : Prop :=
  CompactsTo (TurnPart.text lineText) env.maxListingLines parts entries ∧
    text = formatDs4Response
      (['\n'].intercalate (entries.map (ListingEntry.text (TurnPart.text lineText)))) []

/-- `stream_prompt_with_deltas` returns this text, made of these entries. -/
def StreamPrompt (env : WrapperEnv) (inputs : List (WrapperInput α))
    (entries : List (ListingEntry (TurnPart α))) (text : PyStr) : Prop :=
  ∃ s, Loops.run (streamInput lineText env) StreamTurn.start inputs = .ended s ∧
    TurnAnswers lineText env s.parts entries text

/-! ## What is collected -/

/-- The line has text, and is no tool transcript line that the turn hides. -/
def visible (env : WrapperEnv) (l : α) : Bool :=
  !(stripAnsi (lineText l)).isEmpty &&
    (env.showToolLines || !isToolTranscriptLine (stripAnsi (lineText l)))

/-- The line looks like a line of a listing. -/
def isListing (l : α) : Bool := looksLikeListingLine (stripAnsi (lineText l))

/-- `listing_burst_count` behind a line. -/
def burstAfter (env : WrapperEnv) (count : Nat) (l : α) : Nat :=
  if lineText l = [] then 0
  else if visible lineText env l then (if isListing lineText l then count + 1 else 0)
  else count

/-- What is collected of a line. -/
def lineParts (env : WrapperEnv) (count : Nat) (l : α) : List (TurnPart α) :=
  if visible lineText env l then
    if ¬ isListing lineText l ∨ count < maxLiveListingDeltas then [.line l]
    else if count = maxLiveListingDeltas then [.notice l] else []
  else []

/-- The parts of some lines, from a count on. -/
def collected (env : WrapperEnv) (count : Nat) (lines : List α) : List (TurnPart α) :=
  outputs (burstAfter lineText env) (lineParts lineText env) count lines

/-- A listing line that is told comes before the count is full. -/
def CountsOn (env : WrapperEnv) (count : Nat) (l : α) : Prop :=
  visible lineText env l = true → isListing lineText l = true → count < maxLiveListingDeltas

variable {lineText}

theorem stripAnsi_nil : stripAnsi [] = [] := rfl

theorem not_visible_of_nil (env : WrapperEnv) {l : α} (h : lineText l = []) :
    visible lineText env l = false := by
  rw [visible, h, stripAnsi_nil]
  rfl

/-- **One line**: what it does to the parts and to the count. -/
theorem streamLine_spec (env : WrapperEnv) (s : StreamTurn α) (l : α) :
    (streamLine lineText env s l).parts =
        s.parts ++ lineParts lineText env s.listingBurstCount l ∧
      (streamLine lineText env s l).listingBurstCount =
        burstAfter lineText env s.listingBurstCount l := by
  unfold streamLine lineParts burstAfter
  by_cases htext : lineText l = []
  · simp [htext, not_visible_of_nil env htext]
  · by_cases hclean : stripAnsi (lineText l) = []
    · simp [htext, hclean, visible]
    · by_cases htool : isToolTranscriptLine (stripAnsi (lineText l)) = true ∧
          ¬ env.showToolLines = true
      · simp [htext, hclean, htool, visible]
      · have hvisible : visible lineText env l = true := by
          have hshown : env.showToolLines = true ∨
              isToolTranscriptLine (stripAnsi (lineText l)) = false := by
            rcases Bool.eq_false_or_eq_true (isToolTranscriptLine (stripAnsi (lineText l)))
              with hyes | hno
            · exact Or.inl (not_not.mp fun hhide => htool ⟨hyes, hhide⟩)
            · exact Or.inr hno
          simp [visible, hclean, hshown]
        simp only [htext, hclean, htool, hvisible, ne_eq, not_false_eq_true, if_true, if_false]
        by_cases hlisting : isListing lineText l = true
        · have hlooks : looksLikeListingLine (stripAnsi (lineText l)) = true := hlisting
          rw [if_pos hlooks]
          simp only [hlisting, not_true_eq_false, false_or, if_true]
          by_cases hfew : s.listingBurstCount < maxLiveListingDeltas
          · rw [if_pos (show s.listingBurstCount + 1 ≤ maxLiveListingDeltas from hfew),
              if_pos hfew]
            exact ⟨rfl, rfl⟩
          · rw [if_neg (show ¬ s.listingBurstCount + 1 ≤ maxLiveListingDeltas from hfew),
              if_neg hfew]
            by_cases hnext : s.listingBurstCount = maxLiveListingDeltas
            · rw [if_pos (show s.listingBurstCount + 1 = maxLiveListingDeltas + 1 by rw [hnext]),
                if_pos hnext]
              exact ⟨rfl, rfl⟩
            · rw [if_neg (show ¬ s.listingBurstCount + 1 = maxLiveListingDeltas + 1 by omega),
                if_neg hnext]
              exact ⟨(List.append_nil _).symm, rfl⟩
        · have hlooks : ¬ looksLikeListingLine (stripAnsi (lineText l)) = true := hlisting
          rw [if_neg hlooks]
          simp only [hlisting]
          exact ⟨rfl, rfl⟩

/-- The lines among what `readline` came back with. -/
def turnLines (inputs : List (WrapperInput α)) : List α :=
  inputs.filterMap fun input =>
    match input with
    | .line l => some l
    | .silence _ => none

/-- The lines before the first that ends the turn. -/
def goingLines (lineText : α → PyStr) (lines : List α) : List α :=
  lines.takeWhile fun l => !endsTurn (lineText l)

/-- **The loop** up to a line that ends the turn. -/
theorem run_streamInput (env : WrapperEnv) (inputs : List (WrapperInput α)) {last : α}
    (hlast : endsTurn (lineText last) = true) (s : StreamTurn α) :
    ∃ s', Loops.run (streamInput lineText env) s (inputs ++ [.line last]) = .ended s' ∧
      s'.parts = s.parts ++
        collected lineText env s.listingBurstCount (goingLines lineText (turnLines inputs)) := by
  induction inputs generalizing s with
  | nil =>
      refine ⟨s, ?_, (List.append_nil _).symm⟩
      rw [List.nil_append, run_cons, streamInput, if_pos hlast]
      rfl
  | cons input inputs ih =>
      cases input with
      | line l =>
          have hlines : turnLines (.line l :: inputs) = l :: turnLines inputs := rfl
          rw [hlines, goingLines, List.cons_append, run_cons, streamInput]
          cases hends : endsTurn (lineText l) with
          | true =>
              refine ⟨s, rfl, ?_⟩
              rw [List.takeWhile_cons_of_neg (by simp [hends])]
              exact (List.append_nil _).symm
          | false =>
              obtain ⟨hparts, hcount⟩ := streamLine_spec env s l
              obtain ⟨s', hrun, hs'⟩ := ih (streamLine lineText env s l)
              refine ⟨s', hrun, ?_⟩
              rw [List.takeWhile_cons_of_pos (by simp [hends]), hs', hparts, hcount,
                List.append_assoc]
              rfl
      | silence long =>
          obtain ⟨s', hrun, hs'⟩ := ih (if long then
            { s with frames := s.frames ++ [.thinking "ds4-agent is reasoning..."] } else s)
          refine ⟨s', hrun, ?_⟩
          rw [hs']
          cases long with
          | false => rfl
          | true => rfl

/-- What is collected of a line, in cases. -/
theorem lineParts_cases (env : WrapperEnv) (count : Nat) (l : α) :
    (visible lineText env l = false ∧ lineParts lineText env count l = []) ∨
      (visible lineText env l = true ∧ CountsOn lineText env count l ∧
        lineParts lineText env count l = [.line l]) ∨
      (visible lineText env l = true ∧ ¬ CountsOn lineText env count l ∧
        (lineParts lineText env count l).flatMap TurnPart.told = []) := by
  unfold lineParts CountsOn
  cases hvisible : visible lineText env l with
  | false => exact Or.inl ⟨rfl, if_neg Bool.false_ne_true⟩
  | true =>
      refine Or.inr ?_
      rw [if_pos rfl]
      by_cases hcount : ¬ isListing lineText l = true ∨ count < maxLiveListingDeltas
      · refine Or.inl ⟨rfl, ?_, if_pos hcount⟩
        intro _ hlisting
        exact hcount.resolve_left (not_not.mpr hlisting)
      · rw [not_or, not_not] at hcount
        refine Or.inr ⟨rfl, ?_, ?_⟩
        · intro hcounts
          exact hcount.2 (hcounts rfl hcount.1)
        · rw [if_neg (by simp [hcount.1, hcount.2])]
          split
          · rfl
          · rfl

/-- The lines that are told are among the visible ones, in order. -/
theorem told_collected_sublist (env : WrapperEnv) (count : Nat) (lines : List α) :
    List.Sublist ((collected lineText env count lines).flatMap TurnPart.told)
      (lines.filter (visible lineText env)) := by
  induction lines generalizing count with
  | nil => exact List.Sublist.refl _
  | cons l rest ih =>
      have hrest := ih (burstAfter lineText env count l)
      rw [collected, outputs, List.flatMap_append]
      rcases lineParts_cases env count l with
        ⟨hhidden, hnone⟩ | ⟨hvisible, -, hone⟩ | ⟨hvisible, -, hnone⟩
      · rw [hnone, List.filter_cons_of_neg (by simp [hhidden])]
        exact hrest
      · rw [hone, List.filter_cons_of_pos hvisible]
        exact hrest.cons_cons l
      · rw [hnone, List.filter_cons_of_pos hvisible]
        exact hrest.cons l

/-- Every visible line is told iff the count never runs full, and then the parts are the
visible lines. -/
theorem told_collected_eq_iff (env : WrapperEnv) (count : Nat) (lines : List α) :
    (collected lineText env count lines).flatMap TurnPart.told =
        lines.filter (visible lineText env) ↔
      AllSteps (burstAfter lineText env) (CountsOn lineText env) count lines := by
  induction lines generalizing count with
  | nil => exact iff_of_true rfl trivial
  | cons l rest ih =>
      have hrest := ih (burstAfter lineText env count l)
      rw [AllSteps, ← hrest, collected, outputs, List.flatMap_append]
      rcases lineParts_cases env count l with
        ⟨hhidden, hnone⟩ | ⟨hvisible, hcounts, hone⟩ | ⟨hvisible, hfull, hnone⟩
      · have hcounts : CountsOn lineText env count l := by
          intro hvisible
          rw [hhidden] at hvisible
          cases hvisible
        rw [hnone, List.filter_cons_of_neg (by simp [hhidden]), and_iff_right hcounts]
        exact Iff.rfl
      · rw [hone, List.filter_cons_of_pos hvisible, and_iff_right hcounts]
        exact List.cons_inj_right l
      · refine iff_of_false ?_ fun h => hfull h.1
        rw [hnone, List.filter_cons_of_pos hvisible]
        intro heq
        have hlength := congrArg List.length heq
        have htold : List.Sublist ((collected lineText env (burstAfter lineText env count l)
            rest).flatMap TurnPart.told) (rest.filter (visible lineText env)) :=
          told_collected_sublist env _ rest
        have hle := htold.length_le
        rw [collected] at hle
        rw [List.nil_append, List.length_cons] at hlength
        omega

theorem collected_of_allSteps {env : WrapperEnv} {count : Nat} {lines : List α}
    (h : AllSteps (burstAfter lineText env) (CountsOn lineText env) count lines) :
    collected lineText env count lines = (lines.filter (visible lineText env)).map .line := by
  induction lines generalizing count with
  | nil => rfl
  | cons l rest ih =>
      obtain ⟨hcounts, hrest⟩ := h
      have htail := ih hrest
      rw [collected] at htail
      rw [collected, outputs, htail]
      rcases lineParts_cases env count l with
        ⟨hhidden, hnone⟩ | ⟨hvisible, -, hone⟩ | ⟨-, hfull, -⟩
      · rw [hnone, List.filter_cons_of_neg (by simp [hhidden])]
        rfl
      · rw [hone, List.filter_cons_of_pos hvisible]
        rfl
      · exact absurd hcounts hfull

/-! ## Bursts -/

variable (lineText)

/-- A line that ends a burst: one without text, or a visible one that is no listing
line.  Hidden lines, and lines that are nothing but colors, do not. -/
def BreaksBurst (env : WrapperEnv) (l : α) : Prop :=
  lineText l = [] ∨ (visible lineText env l = true ∧ isListing lineText l = false)

/-- The visible listing lines of a stretch. -/
def listingCount (env : WrapperEnv) (stretch : List α) : Nat :=
  stretch.countP fun l => visible lineText env l && isListing lineText l

/-- No burst has more than twelve listing lines. -/
def ShortBursts (env : WrapperEnv) (lines : List α) : Prop :=
  ∀ stretch, stretch <:+: lines → (∀ l ∈ stretch, ¬ BreaksBurst lineText env l) →
    listingCount lineText env stretch ≤ maxLiveListingDeltas

variable {lineText}

/-- The count behind a line that does not end a burst. -/
theorem burstAfter_of_goes_on {env : WrapperEnv} {l : α} (h : ¬ BreaksBurst lineText env l)
    (count : Nat) :
    burstAfter lineText env count l = count + listingCount lineText env [l] := by
  rw [BreaksBurst, not_or, not_and] at h
  obtain ⟨htext, hlisting⟩ := h
  rw [burstAfter, if_neg htext]
  cases hvisible : visible lineText env l with
  | false => simp [listingCount, hvisible]
  | true =>
      have hyes : isListing lineText l = true := by
        simpa using hlisting hvisible
      simp [listingCount, hvisible, hyes]

theorem burstAfter_of_breaks {env : WrapperEnv} {l : α} (h : BreaksBurst lineText env l)
    (count : Nat) : burstAfter lineText env count l = 0 := by
  unfold burstAfter
  rcases h with htext | ⟨hvisible, hlisting⟩
  · rw [if_pos htext]
  · split
    · rfl
    · rw [hlisting]
      rfl

theorem listingCount_append (env : WrapperEnv) (front back : List α) :
    listingCount lineText env (front ++ back) =
      listingCount lineText env front + listingCount lineText env back :=
  List.countP_append

/-- The count is that of the burst the turn is in. -/
theorem count_is_burst (env : WrapperEnv) (lines : List α) :
    ∃ stretch, stretch <:+ lines ∧ (∀ l ∈ stretch, ¬ BreaksBurst lineText env l) ∧
      stateAfter (burstAfter lineText env) 0 lines = listingCount lineText env stretch := by
  induction lines using List.reverseRecOn with
  | nil => exact ⟨[], List.suffix_rfl, fun l h => absurd h List.not_mem_nil, rfl⟩
  | append_singleton front l ih =>
      obtain ⟨stretch, hsuffix, hgoes, hcount⟩ := ih
      have hstep : stateAfter (burstAfter lineText env) 0 (front ++ [l]) =
          burstAfter lineText env (stateAfter (burstAfter lineText env) 0 front) l := by
        rw [stateAfter_append]
        rfl
      by_cases hbreaks : BreaksBurst lineText env l
      · refine ⟨[], List.nil_suffix, fun l h => absurd h List.not_mem_nil, ?_⟩
        rw [hstep, burstAfter_of_breaks hbreaks]
        rfl
      · obtain ⟨before, hsplit⟩ := hsuffix
        refine ⟨stretch ++ [l], ⟨before, ?_⟩, ?_, ?_⟩
        · rw [← hsplit, List.append_assoc]
        · exact List.forall_mem_append.mpr ⟨hgoes, List.forall_mem_singleton.mpr hbreaks⟩
        · rw [hstep, burstAfter_of_goes_on hbreaks, hcount, listingCount_append]

/-- As long as a burst lasts, a count that does not run full has room for it. -/
theorem listingCount_le_of_allSteps {env : WrapperEnv} {count : Nat} {stretch : List α}
    (hcount : count ≤ maxLiveListingDeltas)
    (hgoes : ∀ l ∈ stretch, ¬ BreaksBurst lineText env l)
    (h : AllSteps (burstAfter lineText env) (CountsOn lineText env) count stretch) :
    count + listingCount lineText env stretch ≤ maxLiveListingDeltas := by
  induction stretch generalizing count with
  | nil => exact hcount
  | cons l rest ih =>
      obtain ⟨hcounts, hrest⟩ := h
      obtain ⟨hl, hgoes⟩ := List.forall_mem_cons.mp hgoes
      have hnext : burstAfter lineText env count l ≤ maxLiveListingDeltas := by
        rw [burstAfter_of_goes_on hl]
        by_cases hlisting : visible lineText env l = true ∧ isListing lineText l = true
        · have hroom := hcounts hlisting.1 hlisting.2
          simp only [listingCount, List.countP_singleton, hlisting.1, hlisting.2, Bool.and_self,
            if_true]
          omega
        · have hnone : listingCount lineText env [l] = 0 := by
            simpa [listingCount] using hlisting
          omega
      have hle := ih hnext hgoes hrest
      rw [burstAfter_of_goes_on hl] at hle
      have hcons := @listingCount_append _ lineText env [l] rest
      rw [List.singleton_append] at hcons
      omega

theorem burstAfter_le {env : WrapperEnv} {count : Nat} {l : α}
    (hcount : count ≤ maxLiveListingDeltas) (h : CountsOn lineText env count l) :
    burstAfter lineText env count l ≤ maxLiveListingDeltas := by
  by_cases hbreaks : BreaksBurst lineText env l
  · rw [burstAfter_of_breaks hbreaks]
    exact Nat.zero_le _
  · have hone : AllSteps (burstAfter lineText env) (CountsOn lineText env) count [l] :=
      ⟨h, trivial⟩
    have hle := listingCount_le_of_allSteps hcount (List.forall_mem_singleton.mpr hbreaks) hone
    rw [burstAfter_of_goes_on hbreaks]
    exact hle

theorem allSteps_of_shortBursts {env : WrapperEnv} {before after : List α}
    (h : ShortBursts lineText env (before ++ after)) :
    AllSteps (burstAfter lineText env) (CountsOn lineText env)
      (stateAfter (burstAfter lineText env) 0 before) after := by
  induction after generalizing before with
  | nil => trivial
  | cons l rest ih =>
      refine ⟨?_, ?_⟩
      · intro hvisible hlisting
        obtain ⟨stretch, ⟨front, hsplit⟩, hgoes, hcount⟩ :=
          @count_is_burst _ lineText env before
        have hl : ¬ BreaksBurst lineText env l := by
          rintro (htext | ⟨-, hplain⟩)
          · rw [not_visible_of_nil env htext] at hvisible
            cases hvisible
          · rw [hlisting] at hplain
            cases hplain
        have hshort := h (stretch ++ [l]) ⟨front, rest, by rw [← hsplit]; simp⟩
          (List.forall_mem_append.mpr ⟨hgoes, List.forall_mem_singleton.mpr hl⟩)
        rw [listingCount_append, ← hcount] at hshort
        have hone : listingCount lineText env [l] = 1 := by
          simp [listingCount, hvisible, hlisting]
        omega
      · have hnext : ShortBursts lineText env ((before ++ [l]) ++ rest) := by
          rw [List.append_assoc]
          exact h
        have hrest := ih hnext
        rw [stateAfter_append] at hrest
        exact hrest

/-- **The count never runs full** iff no burst is long. -/
theorem allSteps_countsOn_iff (env : WrapperEnv) (lines : List α) :
    AllSteps (burstAfter lineText env) (CountsOn lineText env) 0 lines ↔
      ShortBursts lineText env lines := by
  constructor
  · rintro h stretch ⟨before, after, rfl⟩ hgoes
    rw [AllSteps.append_iff, AllSteps.append_iff] at h
    obtain ⟨⟨hbefore, hstretch⟩, -⟩ := h
    have hcount : stateAfter (burstAfter lineText env) 0 before ≤ maxLiveListingDeltas :=
      @stateAfter_invariant _ _ _ _ (fun count => count ≤ maxLiveListingDeltas)
        (fun count l hcount hcounts => burstAfter_le hcount hcounts) _ (Nat.zero_le _) _ hbefore
    exact (Nat.le_add_left _ _).trans (listingCount_le_of_allSteps hcount hgoes hstretch)
  · intro h
    exact @allSteps_of_shortBursts _ _ _ [] _ h

/-! ## What the answer accounts for -/

/-- `format_ds4_response` leaves the line as it is. -/
def LeftAsIs (line : PyStr) : Prop :=
  stripAnsi line = line ∧ statusTag.isPrefixOf line = false

instance (line : PyStr) : Decidable (LeftAsIs line) :=
  inferInstanceAs (Decidable (stripAnsi line = line ∧ statusTag.isPrefixOf line = false))

variable (lineText)

/-- The lines of the agent that an entry of the answer accounts for: a line that is part
of the text, or the lines that a summary counts. -/
def ListingEntry.accounted : ListingEntry (TurnPart α) → List α
  | .kept (.line l) => if LeftAsIs (stripAnsi (lineText l)) then [l] else []
  | .kept (.notice _) => []
  | .summary burst => burst.flatMap TurnPart.told

/-- The answer accounts for every visible line, one by one and in order.  What a line
says, but for white space at its ends, is in the text, and so is the length of a run that
was summed up. -/
structure AccountsFor (env : WrapperEnv) (lines : List α)
    (entries : List (ListingEntry (TurnPart α))) (text : PyStr) : Prop where
  complete : entries.flatMap (ListingEntry.accounted lineText) =
    lines.filter (visible lineText env)
  shown : ∀ l, .kept (.line l) ∈ entries → LeftAsIs (stripAnsi (lineText l)) →
    PyStr.strip (stripAnsi (lineText l)) <:+: text
  counted : ∀ burst, .summary burst ∈ entries → summaryHead burst.length <:+: text

/-- Every visible line fits into the answer: there are few of them, and none that
`format_ds4_response` changes, or all are listing lines and are summed up. -/
def FitsAnswer (env : WrapperEnv) (shown : List α) : Prop :=
  ((shown.length : Int) ≤ env.maxListingLines ∧
      ∀ l ∈ shown, LeftAsIs (stripAnsi (lineText l))) ∨
    (¬ (shown.length : Int) ≤ env.maxListingLines ∧
      (∀ l ∈ shown, isListing lineText l = true) ∧
      (15 < shown.length ∨ ∀ l ∈ shown, LeftAsIs (stripAnsi (lineText l))))

variable {lineText}

theorem accounted_kept_sublist (parts : List (TurnPart α)) :
    List.Sublist ((parts.map .kept).flatMap (ListingEntry.accounted lineText))
      (parts.flatMap TurnPart.told) := by
  induction parts with
  | nil => exact List.Sublist.refl _
  | cons part rest ih =>
      rw [List.map_cons, List.flatMap_cons, List.flatMap_cons]
      refine List.Sublist.append ?_ ih
      cases part with
      | line l =>
          rw [ListingEntry.accounted]
          split
          · exact List.Sublist.refl _
          · exact List.nil_sublist _
      | notice l => exact List.Sublist.refl _

/-- An answer tells no more than was collected. -/
theorem accounted_sublist {env : WrapperEnv} {parts : List (TurnPart α)}
    {entries : List (ListingEntry (TurnPart α))}
    (h : CompactsTo (TurnPart.text lineText) env.maxListingLines parts entries) :
    List.Sublist (entries.flatMap (ListingEntry.accounted lineText))
      (parts.flatMap TurnPart.told) := by
  rcases compactsTo_iff.mp h with ⟨-, rfl⟩ | ⟨-, -, rfl⟩
  · exact accounted_kept_sublist parts
  · unfold listingEntries
    split
    · simp [ListingEntry.accounted]
    · exact accounted_kept_sublist parts

theorem told_lines (shown : List α) : (shown.map TurnPart.line).flatMap TurnPart.told = shown := by
  induction shown with
  | nil => rfl
  | cons l rest ih => exact congrArg (l :: ·) ih

theorem accounted_kept_lines_iff (shown : List α) :
    ((shown.map TurnPart.line).map .kept).flatMap (ListingEntry.accounted lineText) = shown ↔
      ∀ l ∈ shown, LeftAsIs (stripAnsi (lineText l)) := by
  induction shown with
  | nil => exact iff_of_true rfl fun l h => absurd h List.not_mem_nil
  | cons l rest ih =>
      rw [List.map_cons, List.map_cons, List.flatMap_cons, List.forall_mem_cons, ← ih,
        ListingEntry.accounted]
      by_cases hleft : LeftAsIs (stripAnsi (lineText l))
      · rw [if_pos hleft, and_iff_right hleft]
        exact List.cons_inj_right l
      · rw [if_neg hleft]
        refine iff_of_false ?_ fun h => hleft h.1
        intro heq
        have hlength := congrArg List.length heq
        have hle := (@accounted_kept_sublist _ lineText (rest.map TurnPart.line)).length_le
        rw [told_lines] at hle
        rw [List.nil_append, List.length_cons] at hlength
        omega

theorem allListing_lines_iff (shown : List α) :
    AllListing (TurnPart.text lineText) (shown.map TurnPart.line) ↔
      ∀ l ∈ shown, isListing lineText l = true := by
  rw [AllListing, List.forall_mem_map]
  exact Iff.rfl

/-- **The answer to visible lines** tells them all iff they fit. -/
theorem complete_iff_fits (env : WrapperEnv) (shown : List α) :
    (∃ entries, CompactsTo (TurnPart.text lineText) env.maxListingLines
        (shown.map TurnPart.line) entries ∧
      entries.flatMap (ListingEntry.accounted lineText) = shown) ↔
      FitsAnswer lineText env shown := by
  have hsummed : (listingEntries (shown.map TurnPart.line)).flatMap
      (ListingEntry.accounted lineText) = shown ↔
        (15 < shown.length ∨ ∀ l ∈ shown, LeftAsIs (stripAnsi (lineText l))) := by
    rw [listingEntries, List.length_map]
    split
    · rename_i hlong
      refine iff_of_true ?_ (Or.inl hlong)
      rw [List.flatMap_singleton]
      exact told_lines shown
    · rename_i hshort
      rw [or_iff_right hshort]
      exact accounted_kept_lines_iff shown
  unfold FitsAnswer
  constructor
  · rintro ⟨entries, hends, hall⟩
    rcases compactsTo_iff.mp hends with ⟨hshort, rfl⟩ | ⟨hlong, hlisting, rfl⟩
    · rw [List.length_map] at hshort
      exact Or.inl ⟨hshort, (accounted_kept_lines_iff shown).mp hall⟩
    · rw [List.length_map] at hlong
      exact Or.inr ⟨hlong, (allListing_lines_iff shown).mp hlisting, hsummed.mp hall⟩
  · rintro (⟨hshort, hleft⟩ | ⟨hlong, hlisting, hfits⟩)
    · refine ⟨_, compactsTo_iff.mpr (Or.inl ⟨?_, rfl⟩),
        (accounted_kept_lines_iff shown).mpr hleft⟩
      rw [List.length_map]
      exact hshort
    · have hall := (allListing_lines_iff shown).mpr hlisting
      refine ⟨_, compactsTo_iff.mpr (Or.inr ⟨?_, hall, rfl⟩), hsummed.mpr hfits⟩
      rw [List.length_map]
      exact hlong

/-! ## What the text says -/

theorem oneLine_part (hline : ∀ l, '\n' ∉ lineText l) (part : TurnPart α) :
    '\n' ∉ part.text lineText := by
  cases part with
  | line l => exact fun h => hline l ((stripAnsi_sublist _).subset h)
  | notice l =>
      show '\n' ∉ liveNotice
      decide

/-- A number is written with digits only. -/
theorem not_mem_repr {c : Char} (h : c.isDigit = false) (n : Nat) : c ∉ n.repr.toList := by
  rw [Nat.toList_repr]
  intro hmem
  rw [Nat.isDigit_of_mem_toDigits (by decide) (by decide) hmem] at h
  cases h

theorem not_mem_intercalate {c : Char} {sep : PyStr} {lines : List PyStr} (hsep : c ∉ sep)
    (hlines : ∀ line ∈ lines, c ∉ line) : c ∉ sep.intercalate lines := by
  induction lines with
  | nil => exact List.not_mem_nil
  | cons line rest ih =>
      obtain ⟨hline, hrest⟩ := List.forall_mem_cons.mp hlines
      cases rest with
      | nil =>
          rw [List.intercalate_singleton]
          exact hline
      | cons next rest =>
          rw [List.intercalate_cons_cons, List.mem_append, List.mem_append, not_or, not_or]
          exact ⟨⟨hline, hsep⟩, ih hrest⟩

theorem oneLine_listingSummary {burst : List PyStr} (h : ∀ line ∈ burst, '\n' ∉ line) :
    '\n' ∉ listingSummary burst := by
  have hsample : ∀ line ∈ (burst.take 5 ++ ["...".toList] ++
      burst.drop (burst.length - 3)).filter fun s => !s.isEmpty, '\n' ∉ line := by
    intro line hline
    have hmem := (List.mem_filter.mp hline).1
    rw [List.mem_append, List.mem_append, List.mem_singleton] at hmem
    rcases hmem with (hfirst | rfl) | hlast
    · exact h line (List.mem_of_mem_take hfirst)
    · decide
    · exact h line (List.mem_of_mem_drop hlast)
  unfold listingSummary
  simp only [List.mem_append, not_or]
  exact ⟨⟨⟨⟨by decide, not_mem_repr rfl _⟩, by decide⟩,
    not_mem_intercalate (by decide) hsample⟩, by decide⟩

theorem oneLine_entry (hline : ∀ l, '\n' ∉ lineText l) (e : ListingEntry (TurnPart α)) :
    '\n' ∉ e.text (TurnPart.text lineText) := by
  cases e with
  | kept part => exact oneLine_part hline part
  | summary burst =>
      refine oneLine_listingSummary (List.forall_mem_map.mpr ?_)
      exact fun part _ => oneLine_part hline part

/-- What a summary begins with is in the text of every answer that has it. -/
theorem stripAnsi_listingSummary (burst : List PyStr) :
    ∃ rest, stripAnsi (listingSummary burst) = summaryHead burst.length ++ rest := by
  obtain ⟨rest, hrest⟩ := statesLength_listingSummary burst
  have hplain : '\x1b' ∉ summaryHead burst.length := by
    unfold summaryHead
    simp only [List.mem_append, not_or]
    exact ⟨⟨by decide, not_mem_repr rfl _⟩, by decide⟩
  refine ⟨stripAnsi rest, ?_⟩
  rw [← hrest]
  exact stripAnsi_append_of_plain hplain rest

theorem trimmed_summaryHead (length : Nat) : PyStr.Trimmed (summaryHead length) := by
  have hfront : "[compacted listing: ".toList = '[' :: "compacted listing: ".toList := by decide
  have hback : " entries".toList = " entrie".toList ++ ['s'] := by decide
  unfold summaryHead
  generalize length.repr.toList = digits
  constructor
  · rw [hfront, List.append_assoc, List.cons_append, List.head?_cons]
    intro c hc
    rw [← Option.some.inj (Option.mem_def.mp hc)]
    decide
  · rw [hback, ← List.append_assoc, List.getLast?_concat]
    intro c hc
    rw [← Option.some.inj (Option.mem_def.mp hc)]
    decide

/-- The text of an answer has what its entries say. -/
theorem TurnAnswers.tells (hline : ∀ l, '\n' ∉ lineText l) {env : WrapperEnv}
    {parts : List (TurnPart α)} {entries : List (ListingEntry (TurnPart α))} {text : PyStr}
    (h : TurnAnswers lineText env parts entries text) :
    (∀ l, .kept (.line l) ∈ entries → LeftAsIs (stripAnsi (lineText l)) →
        PyStr.strip (stripAnsi (lineText l)) <:+: text) ∧
      ∀ burst, .summary burst ∈ entries → summaryHead burst.length <:+: text := by
  have hlines : ∀ line ∈ entries.map (ListingEntry.text (TurnPart.text lineText)),
      '\n' ∉ line := List.forall_mem_map.mpr fun e _ => oneLine_entry hline e
  rw [h.2]
  constructor
  · intro l hl hleft
    have hmem : stripAnsi (lineText l) ∈
        entries.map (ListingEntry.text (TurnPart.text lineText)) := List.mem_map_of_mem hl
    refine infix_formatDs4Response hlines hmem ?_ ?_ (PyStr.trimmed_strip _) []
    · rw [hleft.1]
      exact hleft.2
    · rw [hleft.1]
      exact PyStr.strip_infix _
  · intro burst hburst
    have hmem : listingSummary (burst.map (TurnPart.text lineText)) ∈
        entries.map (ListingEntry.text (TurnPart.text lineText)) := List.mem_map_of_mem hburst
    obtain ⟨rest, hrest⟩ := stripAnsi_listingSummary (burst.map (TurnPart.text lineText))
    rw [List.length_map] at hrest
    refine infix_formatDs4Response hlines hmem ?_ ?_ (trimmed_summaryHead _) []
    · rw [hrest]
      rfl
    · rw [hrest]
      exact (List.prefix_append _ _).isInfix

/-- The line the agent ends a turn with. -/
def waitingLine : AgentLine := ⟨waitingMarker, by decide⟩

/-- The visible lines all come before the turn ends, in short bursts, and fit into the
answer. -/
structure Accountable (env : WrapperEnv) (lines : List AgentLine) : Prop where
  going : lines.filter (visible AgentLine.text env) =
    (goingLines AgentLine.text lines).filter (visible AgentLine.text env)
  short : ShortBursts AgentLine.text env (goingLines AgentLine.text lines)
  fits : FitsAnswer AgentLine.text env
    ((goingLines AgentLine.text lines).filter (visible AgentLine.text env))

/-- An answer that accounts for all it should. -/
theorem StreamPrompt.accountable {env : WrapperEnv} {inputs : List (WrapperInput AgentLine)}
    {entries : List (ListingEntry (TurnPart AgentLine))} {text : PyStr}
    (h : StreamPrompt AgentLine.text env (inputs ++ [.line waitingLine]) entries text)
    (haccounts : AccountsFor AgentLine.text env (turnLines inputs) entries text) :
    Accountable env (turnLines inputs) := by
  have hmarker : endsTurn waitingLine.text = true := by decide
  obtain ⟨s, hrun, hparts⟩ := run_streamInput env inputs hmarker StreamTurn.start
  rw [StreamTurn.start, List.nil_append] at hparts
  obtain ⟨s', hrun', hends, -⟩ := h
  obtain rfl : s = s' := Progress.ended.inj (hrun.symm.trans hrun')
  rw [hparts] at hends
  -- What is told is part of what is collected, and that of what is visible.
  have haccounted := accounted_sublist hends
  have hsub := @told_collected_sublist _ AgentLine.text env 0
    (goingLines AgentLine.text (turnLines inputs))
  have hgoing : List.Sublist
      ((goingLines AgentLine.text (turnLines inputs)).filter (visible AgentLine.text env))
      ((turnLines inputs).filter (visible AgentLine.text env)) :=
    (List.takeWhile_sublist _).filter _
  rw [haccounts.complete] at haccounted
  have hlast := (haccounted.trans hsub).antisymm hgoing
  have hsteps := (told_collected_eq_iff env 0 _).mp (hsub.antisymm (hlast ▸ haccounted))
  refine ⟨hlast, (allSteps_countsOn_iff env _).mp hsteps, ?_⟩
  refine (complete_iff_fits env _).mp ⟨entries, ?_, ?_⟩
  · rw [← collected_of_allSteps hsteps]
    exact hends
  · rw [← hlast]
    exact haccounts.complete

/-- A line of a listing. -/
def fileLine : AgentLine := ⟨"-rw a".toList, by decide⟩

end StarBridge
