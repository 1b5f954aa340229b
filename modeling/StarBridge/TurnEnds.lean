import StarBridge.AnswerBytes

/-!
# How turns end

Every end of a turn is read off the last event it has met.  Two things are promised
of it: that a turn is completed by a `response` frame that says so, under the turn's
own id, and that one `turn_metrics` line is written with the status of the outcome.

Neither holds of every last event.  `completed_turns_iff` says which responses an
agent must not send for the first (`EndsTurn` without `IsCompletion`: the status of a
response is parsed and not looked at), `metrics_line_iff` which events end a turn
without a line (`SilentExit`).
-/

namespace StarBridge

open CText Loops

/-! ## The events a turn ends on -/

/-- A frame that ends the turn as completed: a response under an id that occurs as
the turn's, or under none. -/
def EndsTurn (env : TurnEnv) (frame : Bytes) : Prop :=
  ¬ IsForeign env frame ∧ (nativeParseFrame env.parser frame).type = .response

instance (env : TurnEnv) (frame : Bytes) : Decidable (EndsTurn env frame) :=
  inferInstanceAs (Decidable (_ ∧ _))

/-- The frame that says that the turn is completed: a response for its request, with
the status `completed`. -/
def IsCompletion (env : TurnEnv) (frame : Bytes) : Prop :=
  (nativeParseFrame env.parser frame).type = .response ∧
    (nativeParseFrame env.parser frame).id = env.requestId ∧
    (nativeParseFrame env.parser frame).status = lit "completed"

instance (env : TurnEnv) (frame : Bytes) : Decidable (IsCompletion env frame) :=
  inferInstanceAs (Decidable (_ ∧ _ ∧ _))

/-- An event behind which the turn is over without a line: a frame under a foreign
id, a cancellation the agent acknowledges, and the tool intent after the 64th. -/
def SilentExit (env : TurnEnv) (s : TurnState) : LoopEvent → Prop
  | .frame frame =>
      if IsForeign env frame then (nativeParseFrame env.parser frame).type.isLifecycle = false
      else (nativeParseFrame env.parser frame).type = .cancelled ∨
        (nativeParseFrame env.parser frame).type = .toolIntent ∧ 64 ≤ s.toolCycles
  | _ => False

/-- The status that stands for an outcome in the metrics. -/
def TurnOutcome.status : TurnOutcome → Bytes
  | .completed => lit "completed"
  | .eventLimit => lit "incomplete"
  | .cancelledByClient | .cancellationAcknowledged => lit "cancelled"
  | .timeout => lit "timeout"
  | .idMismatch | .agentError | .toolCyclesExceeded => lit "error"

/-- The turn has written one line since, with the status of its outcome. -/
def TurnEnd.Reported (before : List TurnMetrics) (r : TurnEnd) : Prop :=
  ∃ line, r.state.metrics = before ++ [line] ∧ line.status = r.outcome.status

/-! ## One event -/

/-- Responses and tool intents are read with the data of their kind. -/
theorem nativeParseFrame_typed (parser : ParserEnv) (frame : Bytes) :
    ((nativeParseFrame parser frame).type = .response →
      ∃ id status text prompt completion, (nativeParseFrame parser frame).data =
        .response id status text prompt completion) ∧
    ((nativeParseFrame parser frame).type = .toolIntent →
      ∃ id toolName toolArgs, (nativeParseFrame parser frame).data =
        .toolIntent id toolName toolArgs) := by
  unfold nativeParseFrame
  split
  · exact ⟨nofun, nofun⟩
  · dsimp only
    split
    · exact ⟨nofun, nofun⟩
    · unfold eventOf parseResponse
      grind

/-- A frame completes the turn iff it is a response of its own. -/
theorem dispatchEvent_completed (env : TurnEnv) (s : TurnState) (frame : Bytes) :
    (dispatchEvent env s frame (nativeParseFrame env.parser frame)).Meets
      (fun _ => (nativeParseFrame env.parser frame).type ≠ .response)
      fun r => r.outcome = .completed ↔ (nativeParseFrame env.parser frame).type = .response := by
  have hdata := (nativeParseFrame_typed env.parser frame).1
  unfold dispatchEvent
  split
  · rename_i htype _
    exact fun h => absurd (htype.symm.trans h) (by simp)
  · rename_i htype _
    exact fun h => absurd (htype.symm.trans h) (by simp)
  · rename_i htype
    exact iff_of_false (by simp) fun h => absurd (htype.symm.trans h) (by simp)
  · rename_i htype _
    exact iff_of_false (by simp) fun h => absurd (htype.symm.trans h) (by simp)
  · rename_i htype _
    unfold toolIntentFrame
    dsimp only
    split
    · exact iff_of_false (by simp) fun h => absurd (htype.symm.trans h) (by simp)
    · exact fun h => absurd (htype.symm.trans h) (by simp)
  · rename_i htype _
    exact iff_of_true rfl htype
  · rename_i htype
    split
    · exact fun h => absurd (htype.symm.trans h) (by simp)
    · exact fun h => absurd (htype.symm.trans h) (by simp)
  · rename_i hother
    intro htype
    obtain ⟨id, status, text, prompt, completion, hresponse⟩ := hdata htype
    exact hother _ _ _ _ _ htype hresponse

/-- **One round** completes the turn iff it reads a frame that ends it. -/
theorem turnEvent_completed (env : TurnEnv) (s : TurnState) (e : LoopEvent) :
    (turnEvent env s e).Meets (fun _ => ∀ frame, e = .frame frame → ¬ EndsTurn env frame)
      fun r => r.outcome = .completed ↔ ∃ frame, e = .frame frame ∧ EndsTurn env frame := by
  have hsettle : ∀ t : TurnState, (∀ frame, e = .frame frame → ¬ EndsTurn env frame) →
      (settle env t).Meets (fun _ => ∀ frame, e = .frame frame → ¬ EndsTurn env frame)
        fun r => r.outcome = .completed ↔ ∃ frame, e = .frame frame ∧ EndsTurn env frame := by
    intro t hnot
    unfold settle
    split
    · exact hnot
    · refine iff_of_false (by simp) ?_
      rintro ⟨frame, he, hends⟩
      exact hnot frame he hends
  unfold turnEvent
  refine Progress.Meets.bind ?_ fun t ht => hsettle t ht
  cases e with
  | control connections =>
      dsimp only [controlEvent]
      split
      · exact iff_of_false (by simp) (by simp)
      · intro frame he
        cases he
  | idle late =>
      dsimp only [idleEvent]
      split
      · exact iff_of_false (by simp) (by simp)
      · intro frame he
        cases he
  | frame text =>
      by_cases hforeign : IsForeign env text
      · dsimp only
        rw [frameEvent_of_foreign_id hforeign, foreignFrame]
        split
        · rintro frame ⟨rfl⟩ hends
          exact hends.1 hforeign
        · refine iff_of_false (by simp) ?_
          rintro ⟨frame, ⟨rfl⟩, hends⟩
          exact hends.1 hforeign
      · have hone := dispatchEvent_completed env
          { s.beat with remainingTimeout := env.fullTimeout } text
        dsimp only
        rw [frameEvent_of_mine hforeign]
        cases hround : dispatchEvent env { s.beat with remainingTimeout := env.fullTimeout }
            text (nativeParseFrame env.parser text) with
        | running t =>
            rw [hround] at hone
            rintro frame ⟨rfl⟩ hends
            exact hone hends.2
        | ended r =>
            rw [hround] at hone
            refine hone.trans ⟨fun htype => ⟨text, rfl, hforeign, htype⟩, ?_⟩
            rintro ⟨frame, ⟨rfl⟩, hends⟩
            exact hends.2

/-- A frame that ends a turn does so wherever it is read. -/
theorem turnEvent_ends {env : TurnEnv} {frame : Bytes} (h : EndsTurn env frame) (s : TurnState) :
    ∃ r, turnEvent env s (.frame frame) = .ended r ∧ r.outcome = .completed := by
  have hone := turnEvent_completed env s (.frame frame)
  cases hround : turnEvent env s (.frame frame) with
  | running t =>
      rw [hround] at hone
      exact absurd h (hone frame rfl)
  | ended r =>
      rw [hround] at hone
      exact ⟨r, rfl, hone.mpr ⟨frame, rfl, h⟩⟩

/-! ## Completed turns -/

/-- An event that completes a turn although it does not say so. -/
def FalseCompletion (env : TurnEnv) (e : LoopEvent) : Prop :=
  ∃ frame, e = .frame frame ∧ EndsTurn env frame ∧ ¬ IsCompletion env frame

/-- **Completion means completion**, exactly.  A turn that ends as completed does so
on a response for its request whose status is `completed`, iff it reads no response
that ends it and is not that, or its cap lets it read nothing. -/
theorem completed_turns_iff (env : TurnEnv) (s : TurnState) (events : List LoopEvent) :
    ((turnProcessEvents env s events).Meets (fun _ => True) fun r =>
        r.outcome = .completed → ∃ read frame t, read ++ [.frame frame] <+: events ∧
          turnProcessEvents env s read = .running t ∧
          turnEvent env t (.frame frame) = .ended r ∧ IsCompletion env frame) ↔
      env.maxTurnEvents ≤ 0 ∨
        Throughout (turnEvent env) (fun _ e => ¬ FalseCompletion env e) (s.enter env) events := by
  unfold turnProcessEvents
  by_cases hpos : 0 < env.maxTurnEvents
  · have hsettle : settle env (s.enter env) = .running (s.enter env) := if_pos hpos
    have hrule := @run_last_iff _ _ _ (turnEvent env)
      (fun e (r : TurnEnd) => r.outcome = .completed →
        ∃ frame, e = .frame frame ∧ IsCompletion env frame)
      (fun _ e => ¬ FalseCompletion env e) ?_ ?_ (s.enter env) events
    · rw [hsettle, Progress.bind_running, or_iff_right (not_le.mpr hpos), ← hrule]
      cases hrun : run (turnEvent env) (s.enter env) events with
      | running t => exact Iff.rfl
      | ended r =>
          constructor
          · intro hmeets
            by_cases hcompleted : r.outcome = .completed
            · obtain ⟨read, frame, t, hread, hbefore, hlast, hframe⟩ := hmeets hcompleted
              exact ⟨read, .frame frame, t, hread, hbefore, hlast, fun _ => ⟨frame, rfl, hframe⟩⟩
            · obtain ⟨read, e, t, hread, hbefore, hlast⟩ := run_ended_last hrun
              exact ⟨read, e, t, hread, hbefore, hlast, fun h => absurd h hcompleted⟩
          · rintro ⟨read, e, t, hread, hbefore, hlast, hresult⟩ hcompleted
            obtain ⟨frame, rfl, hframe⟩ := hresult hcompleted
            exact ⟨read, frame, t, hread, hbefore, hlast, hframe⟩
    · intro t e t' hround
      have hone := turnEvent_completed env t e
      rw [hround] at hone
      rintro ⟨frame, he, hends, -⟩
      exact hone frame he hends
    · intro t e r hround
      have hone := turnEvent_completed env t e
      rw [hround] at hone
      constructor
      · rintro hresult ⟨frame, he, hends, hnot⟩
        obtain ⟨frame', he', hframe⟩ := hresult (hone.mpr ⟨frame, he, hends⟩)
        cases he.symm.trans he'
        exact hnot hframe
      · intro hnot hcompleted
        obtain ⟨frame, he, hends⟩ := hone.mp hcompleted
        refine ⟨frame, he, ?_⟩
        by_contra hframe
        exact hnot ⟨frame, he, hends, hframe⟩
  · have hsettle : settle env (s.enter env) =
        .ended ⟨.eventLimit, (s.enter env).emitMetrics (lit "incomplete") 0 0⟩ :=
      if_neg hpos
    rw [hsettle]
    exact iff_of_true nofun (Or.inl (not_lt.mp hpos))

/-- Output that the agent stages, with more to come. -/
def stagedFrame : Bytes :=
  lit "\x7b\"type\":\"response\",\"id\":\"req-2\",\"status\":\"in_progress\",\"text\":\"par\"\x7d"

/-- The turn takes it for the answer. -/
theorem staged_output_completes :
    ∃ r, turnProcessEvents sampleTurnEnv (freshTurn none) [.frame stagedFrame] = .ended r ∧
      r.outcome = .completed ∧ ¬ ∃ read frame t, read ++ [.frame frame] <+: [.frame stagedFrame] ∧
        turnProcessEvents sampleTurnEnv (freshTurn none) read = .running t ∧
        turnEvent sampleTurnEnv t (.frame frame) = .ended r ∧ IsCompletion sampleTurnEnv frame := by
  have hfacts : EndsTurn sampleTurnEnv stagedFrame ∧ ¬ IsCompletion sampleTurnEnv stagedFrame := by
    decide +kernel
  have hsettle : settle sampleTurnEnv ((freshTurn none).enter sampleTurnEnv) =
      .running ((freshTurn none).enter sampleTurnEnv) := if_pos (by decide)
  obtain ⟨r, hround, hcompleted⟩ := turnEvent_ends hfacts.1 ((freshTurn none).enter sampleTurnEnv)
  refine ⟨r, ?_, hcompleted, ?_⟩
  · rw [turnProcessEvents, hsettle, Progress.bind_running, run_cons, hround, Progress.bind_ended]
  · rintro ⟨read, frame, t, hread, -, -, hframe⟩
    have hmem : LoopEvent.frame frame ∈ [LoopEvent.frame stagedFrame] :=
      hread.subset (List.mem_append_right _ (List.mem_singleton_self _))
    rw [LoopEvent.frame.inj (List.mem_singleton.mp hmem)] at hframe
    exact hfacts.2 hframe

/-! ## The lines of the metrics -/

/-- The end of a turn that has written nothing has no line. -/
theorem TurnEnd.not_reported {r : TurnEnd} {before : List TurnMetrics}
    (h : r.state.metrics = before) : ¬ r.Reported before := by
  rintro ⟨line, hline, -⟩
  have hlength := congrArg List.length (h.symm.trans hline)
  simp at hlength

/-- `emit_turn_metrics` at the end of a turn that has written nothing before. -/
theorem TurnState.emitMetrics_reported {t : TurnState} {before : List TurnMetrics}
    (h : t.metrics = before) {outcome : TurnOutcome} {status : Bytes}
    (hstatus : status = outcome.status) (prompt completion : Int) :
    TurnEnd.Reported before ⟨outcome, t.emitMetrics status prompt completion⟩ := by
  refine ⟨⟨status, t.outBuf.length, prompt, completion, t.toolCalls⟩, ?_, hstatus⟩
  rw [← h]
  rfl

/-- A frame of the turn's own ends it without a line iff it is a cancellation or one
tool intent too many. -/
theorem dispatchEvent_reported (env : TurnEnv) (s : TurnState) {frame : Bytes}
    (hmine : ¬ IsForeign env frame) :
    (dispatchEvent env s frame (nativeParseFrame env.parser frame)).Meets
      (fun t => t.metrics = s.metrics ∧ ¬ SilentExit env s (.frame frame))
      fun r => r.Reported s.metrics ↔ ¬ SilentExit env s (.frame frame) := by
  have hdata := (nativeParseFrame_typed env.parser frame).2
  rw [SilentExit, if_neg hmine]
  unfold dispatchEvent
  split
  · rename_i text _ _ htype _
    obtain ⟨outBuf, stream, htext⟩ := textDeltaFrame_keeps env s text
    rw [htext, htype]
    exact ⟨rfl, by simp⟩
  · rename_i htype _
    rw [htype]
    exact ⟨rfl, by simp⟩
  · rename_i htype
    rw [htype]
    exact iff_of_false (TurnEnd.not_reported rfl) (by simp)
  · rename_i htype _
    rw [htype]
    exact iff_of_true (TurnState.emitMetrics_reported rfl rfl 0 0) (by simp)
  · rename_i toolName toolArgs htype _
    rw [htype]
    unfold toolIntentFrame
    dsimp only
    split
    · rename_i hcycles
      have hsilent : 64 ≤ s.toolCycles := Nat.lt_succ_iff.mp hcycles
      exact iff_of_false (TurnEnd.not_reported rfl) (by simp [hsilent])
    · rename_i hcycles
      have hleft : ¬ 64 ≤ s.toolCycles := fun h => hcycles (Nat.lt_succ_of_le h)
      obtain ⟨runs, answer, hanswer, -⟩ := answerTool_keeps env s.countTool toolName toolArgs
      rw [hanswer]
      exact ⟨rfl, by simp [hleft]⟩
  · rename_i text prompt completion htype _
    rw [htype]
    refine iff_of_true ?_ (by simp)
    unfold responseFrame
    dsimp only
    split
    · exact TurnState.emitMetrics_reported rfl rfl prompt completion
    · obtain ⟨stream, hemit⟩ := emitChunks_keeps (s.answer env text) (chunks 4096 text.length text)
      rw [hemit]
      exact TurnState.emitMetrics_reported rfl rfl prompt completion
  · rename_i htype
    rw [htype]
    split
    · exact ⟨rfl, by simp⟩
    · exact ⟨rfl, by simp⟩
  · refine ⟨rfl, ?_⟩
    rintro (htype | ⟨htype, -⟩)
    · grind
    · obtain ⟨id, toolName, toolArgs, hread⟩ := hdata htype
      grind

/-- The cap ends a turn with a line. -/
theorem settle_reported (env : TurnEnv) {t : TurnState} {before : List TurnMetrics}
    (h : t.metrics = before) :
    (settle env t).Meets (fun t' => t'.metrics = before) fun r => r.Reported before := by
  unfold settle
  split
  · exact h
  · exact TurnState.emitMetrics_reported h rfl 0 0

theorem serveControl_metrics (env : TurnEnv) (connections : List Bytes) (s : TurnState) :
    (s.serveControl env connections).metrics = s.metrics := by
  unfold TurnState.serveControl
  split <;> rfl

/-- **One round** writes nothing while the turn goes on, and ends it with its line
unless it is a silent exit. -/
theorem turnEvent_reported (env : TurnEnv) (s : TurnState) (e : LoopEvent) :
    (turnEvent env s e).Meets (fun t => t.metrics = s.metrics ∧ ¬ SilentExit env s e)
      fun r => r.Reported s.metrics ↔ ¬ SilentExit env s e := by
  unfold turnEvent
  refine Progress.Meets.bind (I := fun t => t.metrics = s.metrics ∧ ¬ SilentExit env s e) ?_ ?_
  · cases e with
    | control connections =>
        dsimp only [controlEvent]
        split
        · refine iff_of_true (TurnState.emitMetrics_reported ?_ rfl 0 0) id
          exact serveControl_metrics env connections s
        · exact ⟨serveControl_metrics env connections s, id⟩
    | idle late =>
        dsimp only [idleEvent]
        split
        · refine iff_of_true (TurnState.emitMetrics_reported ?_ rfl 0 0) id
          exact serveControl_metrics env late { s.beat with
            remainingTimeout := s.remainingTimeout - env.pollMs s.remainingTimeout }
        · exact ⟨rfl, id⟩
    | frame text =>
        by_cases hforeign : IsForeign env text
        · dsimp only
          rw [frameEvent_of_foreign_id hforeign, foreignFrame, SilentExit, if_pos hforeign]
          split
          · rename_i hlifecycle
            exact ⟨rfl, by simp [hlifecycle]⟩
          · rename_i hlifecycle
            exact iff_of_false (TurnEnd.not_reported rfl) (by simpa using hlifecycle)
        · dsimp only
          rw [frameEvent_of_mine hforeign]
          exact dispatchEvent_reported env _ hforeign
  · rintro t ⟨hmetrics, hloud⟩
    have hsettled := settle_reported env hmetrics
    cases hnext : settle env t with
    | running t' =>
        rw [hnext] at hsettled
        exact ⟨hsettled, hloud⟩
    | ended r =>
        rw [hnext] at hsettled
        exact iff_of_true hsettled hloud

/-- **One line for every turn**, exactly.  A turn writes no line before it is over,
and one with the status of its outcome when it is, iff it does not leave its loop by
a silent exit. -/
theorem metrics_line_iff (env : TurnEnv) (s : TurnState) (events : List LoopEvent) :
    (turnProcessEvents env s events).Meets (fun t => t.metrics = s.metrics)
        (fun r => r.Reported s.metrics) ↔
      env.maxTurnEvents ≤ 0 ∨
        Throughout (turnEvent env) (fun t e => ¬ SilentExit env t e) (s.enter env) events := by
  unfold turnProcessEvents
  have hentered : (s.enter env).metrics = s.metrics := rfl
  by_cases hpos : 0 < env.maxTurnEvents
  · have hsettle : settle env (s.enter env) = .running (s.enter env) := if_pos hpos
    rw [hsettle, Progress.bind_running, or_iff_right (not_le.mpr hpos)]
    refine run_stops_iff (K := fun t : TurnState => t.metrics = s.metrics) ?_ ?_ hentered events
    · intro t e t' ht hround
      have hone := turnEvent_reported env t e
      rw [hround, ht] at hone
      exact hone
    · intro t e r ht hround
      have hone := turnEvent_reported env t e
      rw [hround, ht] at hone
      exact hone
  · have hsettle := settle_reported env hentered
    have hended : settle env (s.enter env) =
        .ended ⟨.eventLimit, (s.enter env).emitMetrics (lit "incomplete") 0 0⟩ :=
      if_neg hpos
    rw [hended] at hsettle ⊢
    exact iff_of_true hsettle (Or.inl (not_lt.mp hpos))

theorem turnEvent_mismatch {env : TurnEnv} {frame : Bytes} (h : IsForeign env frame)
    (hkind : (nativeParseFrame env.parser frame).type.isLifecycle = false) (s : TurnState) :
    ∃ r, turnEvent env s (.frame frame) = .ended r ∧ r.outcome = .idMismatch ∧
      r.state.metrics = s.metrics := by
  unfold turnEvent
  dsimp only
  rw [frameEvent_of_foreign_id h, foreignFrame, if_neg (by simp [hkind])]
  exact ⟨_, rfl, rfl, rfl⟩

/-- A frame under another request's id. -/
def otherFrame : Bytes := lit "\x7b\"type\":\"text_delta\",\"id\":\"req-9\",\"text\":\"x\"\x7d"

/-- It ends the turn, and the metrics have no line for it. -/
theorem foreign_frame_unreported :
    ∃ r, turnProcessEvents sampleTurnEnv (freshTurn none) [.frame otherFrame] = .ended r ∧
      r.outcome.ok = false ∧ r.state.metrics = [] := by
  have hfacts : IsForeign sampleTurnEnv otherFrame ∧
      (nativeParseFrame sampleTurnEnv.parser otherFrame).type.isLifecycle = false := by
    decide +kernel
  have hsettle : settle sampleTurnEnv ((freshTurn none).enter sampleTurnEnv) =
      .running ((freshTurn none).enter sampleTurnEnv) := if_pos (by decide)
  obtain ⟨r, hround, hfailed, hmetrics⟩ :=
    turnEvent_mismatch hfacts.1 hfacts.2 ((freshTurn none).enter sampleTurnEnv)
  refine ⟨r, ?_, by rw [hfailed]; rfl, hmetrics⟩
  rw [turnProcessEvents, hsettle, Progress.bind_running, run_cons, hround, Progress.bind_ended]

end StarBridge
