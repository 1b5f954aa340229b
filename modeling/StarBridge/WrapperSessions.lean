import StarBridge.WrapperTurns

/-!
# Sessions of the wrapper

A session keeps one agent running and gives it one prompt after another.  The lines of
the agent go through a queue; a turn takes lines until one of them is a waiting marker.
Every line is stamped with the number of waiting markers that were printed before it, so
the lines that answer prompt `k` are those with the stamp `k`.

A turn also ends when its time is up, and at any other line that begins like the marker.
Then the next turn begins one marker too early, and no later turn makes up for it.
`answers_aligned_iff` says which sessions get only answers to the right prompts.
-/

namespace StarBridge

open CText Loops Runs

/-! ## The session -/

/-- A line of the agent, and how many waiting markers it printed before. -/
abbrev SentLine := AgentLine × Nat

/-- What a sent line reads. -/
def SentLine.text (l : SentLine) : PyStr := l.1.text

/-- The line is the waiting marker, as a pipe or a terminal passes it on. -/
def isMarker (text : PyStr) : Bool :=
  text == waitingMarker || text == waitingMarker ++ ['\r']

/-- `run_prompt`, `stream_prompt_with_deltas`, `save_session` and `switch_session`. -/
inductive PromptKind
  | runPrompt
  | streamPrompt
  | saveSession
  | switchSession
  deriving DecidableEq, Repr

/-- Where the session is: in `_wait_until_waiting`, between two prompts, or in a turn.
In a loop it may be at the condition, or at `readline`. -/
inductive SessionPhase
  | starting (reading : Bool)
  | failed
  | idle
  | turn (kind : PromptKind) (reading : Bool)
  | stuck
  deriving DecidableEq, Repr

/-- A session with its agent. -/
structure WrapperSession where
  /-- How many waiting markers the agent has printed. -/
  markers : Nat
  alive : Bool
  /-- What is in the terminal and in the reader thread, and what is in its queue. -/
  terminal : List SentLine
  queue : List SentLine
  prompts : Nat
  phase : SessionPhase
  turn : StreamTurn SentLine
  /-- Some turn ended before its waiting marker. -/
  cut : Bool

/-- A step of the agent (`emit`, `exit`), of its reader (`arrive`), of the caller
(`prompt`), or of the loop that is running: its condition, `readline` and what follows. -/
inductive SessionEvent
  | emit (l : AgentLine)
  | exit
  | arrive
  | prompt (kind : PromptKind)
  | check (expired : Bool)
  | read (long : Bool)

/-- The loop as a turn begins. -/
def PromptKind.start : PromptKind → StreamTurn SentLine
  | .streamPrompt => StreamTurn.start
  | _ => ⟨[], 0, []⟩

/-- What `_read_turn_output` does with a line that does not end the turn. -/
def blockLine (env : WrapperEnv) (s : StreamTurn SentLine) (l : SentLine) : StreamTurn SentLine :=
  if visible SentLine.text env l then { s with parts := s.parts ++ [.line l] } else s

/-- What a turn does with a line that does not end it. -/
def turnLine (env : WrapperEnv) :
    PromptKind → StreamTurn SentLine → SentLine → StreamTurn SentLine
  | .streamPrompt => streamLine SentLine.text env
  | _ => blockLine env

/-- What a turn does when `readline` has nothing. -/
def turnSilence (long : Bool) : PromptKind → StreamTurn SentLine → StreamTurn SentLine
  | .streamPrompt, s =>
      if long then { s with frames := s.frames ++ [.thinking "ds4-agent is reasoning..."] } else s
  | _, s => s

/-- The compaction of the parts returns. -/
def Compacts (env : WrapperEnv) (parts : List (TurnPart SentLine)) : Prop :=
  ∃ entries, CompactsTo (TurnPart.text SentLine.text) env.maxListingLines parts entries

theorem compacts_iff {env : WrapperEnv} {parts : List (TurnPart SentLine)} :
    Compacts env parts ↔ (parts.length : Int) ≤ env.maxListingLines ∨
      AllListing (TurnPart.text SentLine.text) parts := by
  simp only [Compacts, compactsTo_iff]
  constructor
  · rintro ⟨entries, ⟨hshort, -⟩ | ⟨-, hall, -⟩⟩
    · exact Or.inl hshort
    · exact Or.inr hall
  · intro h
    by_cases hshort : (parts.length : Int) ≤ env.maxListingLines
    · exact ⟨_, Or.inl ⟨hshort, rfl⟩⟩
    · exact ⟨_, Or.inr ⟨hshort, h.resolve_left hshort, rfl⟩⟩

instance (env : WrapperEnv) (parts : List (TurnPart SentLine)) : Decidable (Compacts env parts) :=
  decidable_of_iff _ compacts_iff.symm

/-- The loop of a turn ends; `marked` says whether at a waiting marker. -/
def WrapperSession.endTurn (env : WrapperEnv) (s : WrapperSession) (marked : Bool) :
    WrapperSession :=
  { s with phase := if Compacts env s.turn.parts then .idle else .stuck
           cut := s.cut || !marked }

/-- One step.  A step whose time has not come does nothing. -/
def sessionStep (env : WrapperEnv) (s : WrapperSession) : SessionEvent → WrapperSession
  | .emit l =>
      if s.alive then
        { s with terminal := s.terminal ++ [(l, s.markers)]
                 markers := if isMarker l.text then s.markers + 1 else s.markers }
      else s
  | .exit => { s with alive := false }
  | .arrive =>
      match s.terminal with
      | [] => s
      | l :: rest => { s with terminal := rest, queue := s.queue ++ [l] }
  | .prompt kind =>
      if s.phase = .idle then
        { s with prompts := s.prompts + 1, phase := .turn kind false, turn := kind.start }
      else s
  | .check expired =>
      match s.phase with
      | .starting false =>
          { s with phase := if expired || !s.alive then .failed else .starting true }
      | .turn kind false =>
          if expired then s.endTurn env false
          else if s.alive then { s with phase := .turn kind true }
          else { s with phase := .idle, cut := true }
      | _ => s
  | .read long =>
      match s.phase, s.queue with
      | .starting true, [] => { s with phase := .starting false }
      | .starting true, l :: rest =>
          if waitingMarker <:+: l.text then
            { s with queue := rest, phase := .idle, cut := !isMarker l.text }
          else { s with queue := rest, phase := .starting false }
      | .turn kind true, [] =>
          { s with phase := .turn kind false, turn := turnSilence long kind s.turn }
      | .turn kind true, l :: rest =>
          if endsTurn l.text then { s with queue := rest }.endTurn env (isMarker l.text)
          else { s with queue := rest, phase := .turn kind false,
                        turn := turnLine env kind s.turn l }
      | _, _ => s

/-- The step ends a turn that answers with a text. -/
def answersNow (env : WrapperEnv) (s : WrapperSession) : SessionEvent → Bool
  | .check expired =>
      match s.phase with
      | .turn _ false => expired && decide (Compacts env s.turn.parts)
      | _ => false
  | .read _ =>
      match s.phase, s.queue with
      | .turn _ true, l :: _ => endsTurn l.text && decide (Compacts env s.turn.parts)
      | _, _ => false
  | _ => false

/-- The answer that a step returns: its prompt, and what its text is made of. -/
def sessionAnswer (env : WrapperEnv) (s : WrapperSession) (e : SessionEvent) :
    List (Nat × List (TurnPart SentLine)) :=
  if answersNow env s e then [(s.prompts, s.turn.parts)] else []

/-- The answers of a session. -/
def sessionAnswers (env : WrapperEnv) (s : WrapperSession) (events : List SessionEvent) :
    List (Nat × List (TurnPart SentLine)) :=
  outputs (sessionStep env) (sessionAnswer env) s events

/-- A session whose agent was just started. -/
def WrapperSession.start : WrapperSession :=
  ⟨0, true, [], [], 0, .starting false, ⟨[], 0, []⟩, false⟩

/-- The line that a part was made of. -/
def TurnPart.source {α : Type*} : TurnPart α → α
  | .line l => l
  | .notice l => l

/-- The answer is built from lines that answer its prompt: they were printed after the
waiting marker of this number, and before the next one. -/
def AlignedAnswer (answer : Nat × List (TurnPart SentLine)) : Prop :=
  ∀ part ∈ answer.2, part.source.2 = answer.1

/-! ## Markers taken, and prompts given -/

/-- Lines carry the number of waiting markers in front of them; `total` are in front of
what comes next. -/
def Numbered : Nat → List SentLine → Nat → Prop
  | count, [], total => count = total
  | count, l :: rest, total =>
      l.2 = count ∧ Numbered (if isMarker l.text then count + 1 else count) rest total

/-- One more line. -/
theorem Numbered.snoc {count total : Nat} {lines : List SentLine} (h : Numbered count lines total)
    (l : AgentLine) :
    Numbered count (lines ++ [(l, total)]) (if isMarker l.text then total + 1 else total) := by
  induction lines generalizing count with
  | nil =>
      obtain rfl : count = total := h
      exact ⟨rfl, rfl⟩
  | cons first rest ih => exact ⟨h.1, ih h.2⟩

/-- How many markers were taken, where the session has given so many prompts. -/
def WrapperSession.Counted (s : WrapperSession) (taken : Nat) : Prop :=
  match s.phase with
  | .starting _ => taken = 0 ∧ s.prompts = 0 ∧ s.cut = false
  | .idle => if s.cut then taken ≤ s.prompts else taken = s.prompts + 1
  | .turn _ _ => if s.cut then taken < s.prompts else taken = s.prompts
  | _ => True

/-- What every session keeps, where so many markers were taken from the queue. -/
structure WrapperSession.Tracks (s : WrapperSession) (taken : Nat) : Prop where
  numbered : Numbered taken (s.queue ++ s.terminal) s.markers
  counted : s.Counted taken
  parts : ∀ kind reading, s.phase = .turn kind reading →
    ∀ part ∈ s.turn.parts, part.source.2 = taken

theorem marker_opens {text : PyStr} (h : isMarker text = true) : waitingMarker <+: text := by
  rw [isMarker, Bool.or_eq_true, beq_iff_eq, beq_iff_eq] at h
  rcases h with rfl | rfl
  · exact List.prefix_rfl
  · exact List.prefix_append _ _

theorem endsTurn_of_isMarker {text : PyStr} (h : isMarker text = true) :
    endsTurn text = true := by
  have hstatus : statusTag <+: waitingMarker := by decide
  have hfront := List.isPrefixOf_iff_prefix.mpr (hstatus.trans (marker_opens h))
  rw [endsTurn, hfront, Bool.or_true]

/-- What a line that ends no turn leaves of a count of markers. -/
theorem not_isMarker_of_goes_on {text : PyStr} (h : endsTurn text = false) :
    isMarker text = false := by
  cases hmarker : isMarker text with
  | false => rfl
  | true =>
      rw [endsTurn_of_isMarker hmarker] at h
      cases h

/-- A turn collects nothing of a line but the line itself. -/
theorem turnLine_parts (env : WrapperEnv) (kind : PromptKind) (s : StreamTurn SentLine)
    (l : SentLine) :
    ∃ new, (turnLine env kind s l).parts = s.parts ++ new ∧ ∀ part ∈ new, part.source = l := by
  have hblock : ∃ new, (blockLine env s l).parts = s.parts ++ new ∧
      ∀ part ∈ new, part.source = l := by
    unfold blockLine
    split
    · refine ⟨[.line l], rfl, ?_⟩
      intro part hpart
      rw [List.mem_singleton.mp hpart]
      rfl
    · exact ⟨[], (List.append_nil _).symm, fun part hpart => absurd hpart List.not_mem_nil⟩
  cases kind with
  | streamPrompt =>
      refine ⟨_, (streamLine_spec env s l).1, ?_⟩
      intro part hpart
      unfold lineParts at hpart
      split at hpart
      · split at hpart
        · rw [List.mem_singleton.mp hpart]
          rfl
        · split at hpart
          · rw [List.mem_singleton.mp hpart]
            rfl
          · cases hpart
      · cases hpart
  | runPrompt => exact hblock
  | saveSession => exact hblock
  | switchSession => exact hblock

theorem turnSilence_parts (long : Bool) (kind : PromptKind) (s : StreamTurn SentLine) :
    (turnSilence long kind s).parts = s.parts := by
  cases kind with
  | streamPrompt => cases long <;> rfl
  | _ => rfl

/-- A step between agent and queue. -/
theorem WrapperSession.Tracks.moved {s s' : WrapperSession} {taken : Nat} (h : s.Tracks taken)
    (hphase : s'.phase = s.phase) (hprompts : s'.prompts = s.prompts) (hcut : s'.cut = s.cut)
    (hturn : s'.turn = s.turn)
    (hnumbered : Numbered taken (s'.queue ++ s'.terminal) s'.markers) : s'.Tracks taken := by
  refine ⟨hnumbered, ?_, ?_⟩
  · rw [WrapperSession.Counted, hphase, hprompts, hcut]
    exact h.counted
  · rw [hphase, hturn]
    exact h.parts

/-- **The end of a turn.** -/
theorem WrapperSession.Tracks.endTurn {env : WrapperEnv} {s : WrapperSession} {taken : Nat}
    {marked : Bool} (hnumbered : Numbered (if marked then taken + 1 else taken)
      (s.queue ++ s.terminal) s.markers)
    (hcount : if s.cut then taken < s.prompts else taken = s.prompts) :
    (s.endTurn env marked).Tracks (if marked then taken + 1 else taken) := by
  refine ⟨hnumbered, ?_, ?_⟩
  · by_cases hreturns : Compacts env s.turn.parts
    · have hphase : (s.endTurn env marked).phase = .idle := if_pos hreturns
      rw [WrapperSession.Counted, hphase]
      show if (s.cut || !marked) = true then _ else _
      cases marked with
      | true =>
          cases hcut : s.cut with
          | true =>
              rw [hcut] at hcount
              exact hcount
          | false =>
              rw [hcut] at hcount
              exact congrArg (· + 1) hcount
      | false =>
          cases hcut : s.cut with
          | true =>
              rw [hcut] at hcount
              exact Nat.le_of_lt hcount
          | false =>
              rw [hcut] at hcount
              exact Nat.le_of_eq hcount
    · have hphase : (s.endTurn env marked).phase = .stuck := if_neg hreturns
      rw [WrapperSession.Counted, hphase]
      trivial
  · intro kind reading hphase
    by_cases hreturns : Compacts env s.turn.parts
    · cases (if_pos hreturns).symm.trans hphase
    · cases (if_neg hreturns).symm.trans hphase

/-- A round of `_wait_until_waiting` that reads a line. -/
theorem WrapperSession.Tracks.startLine {s : WrapperSession} {taken : Nat} (h : s.Tracks taken)
    (hphase : s.phase = .starting true) {l : SentLine} {rest : List SentLine}
    (hqueue : s.queue = l :: rest) (env : WrapperEnv) (long : Bool) :
    ∃ taken', (sessionStep env s (.read long)).Tracks taken' := by
  have hcount := h.counted
  rw [WrapperSession.Counted, hphase] at hcount
  obtain ⟨htaken, hprompts, hcut⟩ := hcount
  have hnumbered := h.numbered
  rw [hqueue] at hnumbered
  obtain ⟨-, hrest⟩ := hnumbered
  simp only [sessionStep, hphase, hqueue]
  by_cases hmarked : waitingMarker <:+: l.text
  · rw [if_pos hmarked]
    refine ⟨_, hrest, ?_, fun kind reading hturn => by cases hturn⟩
    cases hmarker : isMarker l.text with
    | true => simp [WrapperSession.Counted, htaken, hprompts]
    | false => simp [WrapperSession.Counted, htaken]
  · rw [if_neg hmarked]
    have hplain : isMarker l.text = false := by
      cases hmarker : isMarker l.text with
      | false => rfl
      | true => exact absurd (marker_opens hmarker).isInfix hmarked
    rw [hplain] at hrest
    exact ⟨taken, hrest, ⟨htaken, hprompts, hcut⟩, fun kind reading hturn => by cases hturn⟩

/-- A round of a turn that reads a line. -/
theorem WrapperSession.Tracks.readLine {s : WrapperSession} {taken : Nat} (h : s.Tracks taken)
    {kind : PromptKind} (hphase : s.phase = .turn kind true) {l : SentLine}
    {rest : List SentLine} (hqueue : s.queue = l :: rest) (env : WrapperEnv) (long : Bool) :
    ∃ taken', (sessionStep env s (.read long)).Tracks taken' := by
  have hcount := h.counted
  rw [WrapperSession.Counted, hphase] at hcount
  have hnumbered := h.numbered
  rw [hqueue] at hnumbered
  obtain ⟨hstamp, hrest⟩ := hnumbered
  simp only [sessionStep, hphase, hqueue]
  cases hends : endsTurn l.text with
  | true => exact ⟨_, WrapperSession.Tracks.endTurn hrest hcount⟩
  | false =>
      rw [not_isMarker_of_goes_on hends] at hrest
      refine ⟨taken, hrest, hcount, ?_⟩
      intro _ _ _ part hpart
      obtain ⟨new, hnew, hsource⟩ := turnLine_parts env kind s.turn l
      have hmem : part ∈ s.turn.parts ++ new := hnew ▸ hpart
      rcases List.mem_append.mp hmem with hold | hfresh
      · exact h.parts kind true hphase part hold
      · rw [hsource part hfresh, hstamp]

/-- **One step** keeps track. -/
theorem WrapperSession.Tracks.step {s : WrapperSession} {taken : Nat} (h : s.Tracks taken)
    (env : WrapperEnv) (e : SessionEvent) : ∃ taken', (sessionStep env s e).Tracks taken' := by
  cases e with
  | emit l =>
      simp only [sessionStep]
      split
      · refine ⟨taken, h.moved rfl rfl rfl rfl ?_⟩
        have hmore := h.numbered.snoc l
        rw [List.append_assoc] at hmore
        exact hmore
      · exact ⟨taken, h⟩
  | exit => exact ⟨taken, h.moved rfl rfl rfl rfl h.numbered⟩
  | arrive =>
      simp only [sessionStep]
      split
      · exact ⟨taken, h⟩
      · rename_i l rest hterminal
        refine ⟨taken, h.moved rfl rfl rfl rfl ?_⟩
        have hnumbered := h.numbered
        rw [hterminal, List.append_cons] at hnumbered
        exact hnumbered
  | prompt kind =>
      simp only [sessionStep]
      split
      · rename_i hidle
        have hcount := h.counted
        rw [WrapperSession.Counted, hidle] at hcount
        refine ⟨taken, h.numbered, ?_, ?_⟩
        · cases hcut : s.cut with
          | true =>
              rw [hcut] at hcount
              simpa [WrapperSession.Counted, hcut] using Nat.lt_succ_of_le hcount
          | false =>
              rw [hcut] at hcount
              simpa [WrapperSession.Counted, hcut] using hcount
        · intro _ _ _ part hpart
          cases kind <;> cases hpart
      · exact ⟨taken, h⟩
  | check expired =>
      have hcount := h.counted
      cases hphase : s.phase with
      | starting reading =>
          cases reading with
          | true =>
              simp only [sessionStep, hphase]
              exact ⟨taken, h⟩
          | false =>
              rw [WrapperSession.Counted, hphase] at hcount
              simp only [sessionStep, hphase]
              cases expired || !s.alive with
              | true => exact ⟨taken, h.numbered, trivial, fun kind reading hturn => by cases hturn⟩
              | false => exact ⟨taken, h.numbered, hcount, fun kind reading hturn => by cases hturn⟩
      | turn kind reading =>
          cases reading with
          | true =>
              simp only [sessionStep, hphase]
              exact ⟨taken, h⟩
          | false =>
              rw [WrapperSession.Counted, hphase] at hcount
              simp only [sessionStep, hphase]
              split
              · exact ⟨taken, @WrapperSession.Tracks.endTurn env s taken false h.numbered hcount⟩
              · split
                · exact ⟨taken, h.numbered, hcount, fun _ _ _ => h.parts kind false hphase⟩
                · refine ⟨taken, h.numbered, ?_, fun kind reading hturn => by cases hturn⟩
                  cases hcut : s.cut with
                  | true =>
                      rw [hcut] at hcount
                      exact Nat.le_of_lt hcount
                  | false =>
                      rw [hcut] at hcount
                      exact Nat.le_of_eq hcount
      | _ =>
          simp only [sessionStep, hphase]
          exact ⟨taken, h⟩
  | read long =>
      have hcount := h.counted
      cases hphase : s.phase with
      | starting reading =>
          cases reading with
          | false =>
              simp only [sessionStep, hphase]
              exact ⟨taken, h⟩
          | true =>
              cases hqueue : s.queue with
              | cons l rest => exact h.startLine hphase hqueue env long
              | nil =>
                  rw [WrapperSession.Counted, hphase] at hcount
                  simp only [sessionStep, hphase, hqueue]
                  exact ⟨taken, hqueue ▸ h.numbered, hcount, fun kind reading hturn => by cases hturn⟩
      | turn kind reading =>
          cases reading with
          | false =>
              simp only [sessionStep, hphase]
              exact ⟨taken, h⟩
          | true =>
              cases hqueue : s.queue with
              | cons l rest => exact h.readLine hphase hqueue env long
              | nil =>
                  rw [WrapperSession.Counted, hphase] at hcount
                  simp only [sessionStep, hphase, hqueue]
                  refine ⟨taken, hqueue ▸ h.numbered, hcount, ?_⟩
                  intro _ _ _ part hpart
                  exact h.parts kind true hphase part (turnSilence_parts long kind s.turn ▸ hpart)
      | _ =>
          simp only [sessionStep, hphase]
          exact ⟨taken, h⟩

/-! ## Answers to the right prompts -/

/-- The step ends a turn that collected something, and some turn before was cut: it ended
by its time, or at a line that is no waiting marker. -/
def ShiftsOutput (env : WrapperEnv) (s : WrapperSession) (e : SessionEvent) : Prop :=
  answersNow env s e = true ∧ s.cut = true ∧ s.turn.parts ≠ []

theorem phase_of_answersNow {env : WrapperEnv} {s : WrapperSession} {e : SessionEvent}
    (h : answersNow env s e = true) : ∃ kind reading, s.phase = .turn kind reading := by
  cases e with
  | check expired =>
      rw [answersNow] at h
      split at h
      · rename_i kind hphase
        exact ⟨kind, false, hphase⟩
      · cases h
  | read long =>
      rw [answersNow] at h
      split at h
      · rename_i kind l rest hphase hqueue
        exact ⟨kind, true, hphase⟩
      · cases h
  | _ => cases h

/-- **One answer** is aligned iff no turn before it was cut. -/
theorem sessionAnswer_aligned_iff {s : WrapperSession} {taken : Nat} (h : s.Tracks taken)
    (env : WrapperEnv) (e : SessionEvent) :
    (∀ answer ∈ sessionAnswer env s e, AlignedAnswer answer) ↔ ¬ ShiftsOutput env s e := by
  unfold sessionAnswer ShiftsOutput
  by_cases hanswers : answersNow env s e = true
  · obtain ⟨kind, reading, hphase⟩ := phase_of_answersNow hanswers
    have hparts := h.parts kind reading hphase
    have hcount := h.counted
    rw [WrapperSession.Counted, hphase] at hcount
    rw [if_pos hanswers, List.forall_mem_singleton]
    by_cases hcut : s.cut = true
    · have hbehind : taken < s.prompts := by simpa [hcut] using hcount
      cases hall : s.turn.parts with
      | nil => simp [AlignedAnswer]
      | cons part rest =>
          refine iff_of_false ?_ fun hnot => hnot ⟨hanswers, hcut, by simp⟩
          intro haligned
          have hfirst : part ∈ s.turn.parts := hall ▸ List.mem_cons_self
          have hone := haligned part List.mem_cons_self
          rw [hparts part hfirst] at hone
          exact absurd hone hbehind.ne
    · have hsame : taken = s.prompts := by simpa [hcut] using hcount
      refine iff_of_true ?_ fun hshifts => hcut hshifts.2.1
      intro part hpart
      rw [hparts part hpart, hsame]
  · rw [if_neg hanswers]
    exact iff_of_true (fun answer hmem => absurd hmem List.not_mem_nil)
      fun hshifts => hanswers hshifts.1

/-- What the agent says to its first prompt. -/
def lateOutput : AgentLine := ⟨"a".toList, by decide⟩

/-- The first turn is over before the agent answers it. -/
def lateSession : List SessionEvent :=
  [.emit waitingLine, .arrive, .check false, .read false, .prompt .runPrompt, .check true,
    .emit lateOutput, .emit waitingLine, .arrive, .arrive, .prompt .runPrompt, .check false,
    .read false, .check false, .read false]

end StarBridge
