import StarBridge.TurnEvents

/-!
# Inside the event loop

What holds whenever the event loop goes on (`InLoop`), and how a turn over two
stretches of events is put together (`turnProcessEvents_append`).  Most steps
of the loop look at neither the clock nor the live stream; `Clockless` is that
property, and each such step has it by definition.
-/

namespace StarBridge

open CText Loops

/-! ## Steps without a clock -/

/-- The state with another clock and another stream. -/
def TurnState.withClient (s : TurnState) (remaining : Int)
    (stream : Option ResponsesStreamState) : TurnState :=
  { s with remainingTimeout := remaining, stream := stream }

/-- A step that reads and writes neither the clock nor the stream. -/
def Clockless (f : TurnState → TurnState) : Prop :=
  ∀ s remaining stream,
    f (s.withClient remaining stream) = (f s).withClient remaining stream

theorem Clockless.keeps {f : TurnState → TurnState} (hf : Clockless f) (s : TurnState) :
    (f s).remainingTimeout = s.remainingTimeout ∧ (f s).stream = s.stream := by
  have hsame : f s = (f s).withClient s.remainingTimeout s.stream :=
    hf s s.remainingTimeout s.stream
  exact ⟨(congrArg TurnState.remainingTimeout hsame).trans rfl,
    (congrArg TurnState.stream hsame).trans rfl⟩

theorem clockless_answerTool (env : TurnEnv) (toolName toolArgs : Bytes) :
    Clockless fun s => (answerTool env s toolName toolArgs).count := by
  intro s remaining stream
  unfold answerTool
  cases toolPolicyRefusal toolName toolArgs with
  | none => rfl
  | some kind => rfl

theorem clockless_serveControl (env : TurnEnv) (connections : List Bytes) :
    Clockless (TurnState.serveControl env connections) := by
  intro s remaining stream
  unfold TurnState.serveControl
  split <;> rfl

/-- Emitting text touches the stream alone. -/
theorem emitDelta_keeps (s : TurnState) (delta : Bytes) :
    ∃ stream, (s.emitDelta delta).1 = { s with stream := stream } := by
  unfold TurnState.emitDelta
  split
  · exact ⟨_, rfl⟩
  · split
    · exact ⟨_, rfl⟩
    · exact ⟨_, rfl⟩

theorem emitChunks_keeps (s : TurnState) (pieces : List Bytes) :
    ∃ stream, s.emitChunks pieces = { s with stream := stream } := by
  induction pieces generalizing s with
  | nil => exact ⟨_, rfl⟩
  | cons piece rest ih =>
      obtain ⟨stream, hemit⟩ := emitDelta_keeps s piece
      unfold TurnState.emitChunks
      dsimp only
      rw [hemit]
      split
      · exact ih { s with stream := stream }
      · exact ⟨_, rfl⟩

/-- What a `text_delta` frame touches. -/
theorem textDeltaFrame_keeps (env : TurnEnv) (s : TurnState) (text : Bytes) :
    ∃ outBuf stream, textDeltaFrame env s text =
      { s with outBuf := outBuf, stream := stream, eventCount := s.eventCount + 1 } := by
  unfold textDeltaFrame
  dsimp only
  split
  · exact ⟨_, _, rfl⟩
  · obtain ⟨stream, hemit⟩ := emitDelta_keeps
      { s with outBuf := appendText env.outMax s.outBuf text } text
    rw [hemit]
    exact ⟨_, _, rfl⟩

/-- What a `response` frame touches. -/
theorem responseFrame_keeps (env : TurnEnv) (s : TurnState) (text : Bytes)
    (promptTokens completionTokens : Int) :
    ∃ stream metrics, responseFrame env s text promptTokens completionTokens =
      { s.answer env text with stream := stream, metrics := metrics } := by
  unfold responseFrame
  dsimp only
  split
  · exact ⟨_, _, rfl⟩
  · obtain ⟨stream, hemit⟩ := emitChunks_keeps (s.answer env text)
      (chunks 4096 text.length text)
    rw [hemit]
    exact ⟨_, _, rfl⟩

/-- A tool intent is answered by one frame, and may run a tool. -/
theorem answerTool_keeps (env : TurnEnv) (s : TurnState) (toolName toolArgs : Bytes) :
    ∃ runs frame, answerTool env s toolName toolArgs =
        { s with toolRuns := runs, engine := { s.engine with sent := s.engine.sent ++ [frame] } } ∧
      ((∃ text, frame = .toolResult env.requestId toolName text) ∨
        ∃ text, frame = .toolError env.requestId toolName text) := by
  unfold answerTool
  cases toolPolicyRefusal toolName toolArgs with
  | none => exact ⟨_, _, rfl, .inl ⟨_, rfl⟩⟩
  | some kind => exact ⟨_, _, rfl, .inr ⟨_, rfl⟩⟩

/-- A frame that answers a tool intent. -/
def BridgeFrame.IsToolAnswer : BridgeFrame → Prop
  | .toolResult _ _ _ => True
  | .toolError _ _ _ => True
  | _ => False

/-- The engine has sent answers to tool intents since, and nothing else has
happened to it. -/
def EngineState.Answers (eng eng' : EngineState) : Prop :=
  ∃ answers, eng' = { eng with sent := eng.sent ++ answers } ∧
    ∀ f ∈ answers, f.IsToolAnswer

theorem EngineState.Answers.refl (eng : EngineState) : eng.Answers eng :=
  ⟨[], by rw [List.append_nil], fun _ h => absurd h List.not_mem_nil⟩

/-- All that an event does to the engine is that tool intents are answered. -/
theorem dispatchEvent_engine (env : TurnEnv) (s : TurnState) (frame : Bytes)
    (ev : NativeEvent) :
    (dispatchEvent env s frame ev).Meets (fun t => s.engine.Answers t.engine)
      fun e => s.engine.Answers e.state.engine := by
  have hsame := EngineState.Answers.refl s.engine
  unfold dispatchEvent
  split
  · rename_i text _ _ _ _
    obtain ⟨outBuf, stream, htext⟩ := textDeltaFrame_keeps env s text
    rw [htext]
    exact hsame
  · exact hsame
  · exact hsame
  · exact hsame
  · rename_i toolName toolArgs _ _
    unfold toolIntentFrame
    dsimp only
    split
    · exact hsame
    · obtain ⟨runs, answer, hanswer, hframe⟩ :=
        answerTool_keeps env s.countTool toolName toolArgs
      rw [hanswer]
      refine ⟨[answer], rfl, ?_⟩
      intro f hf
      rw [List.mem_singleton.mp hf]
      rcases hframe with ⟨text, rfl⟩ | ⟨text, rfl⟩
      · trivial
      · trivial
  · rename_i text promptTokens completionTokens _ _
    obtain ⟨stream, metrics, hresponse⟩ :=
      responseFrame_keeps env s text promptTokens completionTokens
    rw [hresponse]
    exact hsame
  · split
    · exact hsame
    · exact hsame
  · exact hsame

/-! ## Inside the loop -/

/-- What holds whenever the loop goes on. -/
structure InLoop (env : TurnEnv) (s : TurnState) : Prop where
  counted : (s.eventCount : Int) < env.maxTurnEvents
  pos : 0 < s.remainingTimeout
  le_full : s.remainingTimeout ≤ env.fullTimeout

theorem fullTimeout_pos (env : TurnEnv) : 0 < env.fullTimeout := by
  unfold TurnEnv.fullTimeout
  split_ifs <;> omega

theorem settle_eq_running {env : TurnEnv} {s s' : TurnState}
    (h : settle env s = .running s') :
    s' = s ∧ (s.eventCount : Int) < env.maxTurnEvents := by
  unfold settle at h
  split at h
  · cases h
    exact ⟨rfl, ‹_›⟩
  · cases h

theorem toolIntentFrame_clock {env : TurnEnv} {s s' : TurnState} {toolName toolArgs : Bytes}
    (h : toolIntentFrame env s toolName toolArgs = .running s') :
    s'.remainingTimeout = s.remainingTimeout := by
  unfold toolIntentFrame at h
  dsimp only at h
  split at h
  · cases h
  · cases h
    exact ((clockless_answerTool env toolName toolArgs).keeps s.countTool).1

/-- No event touches the clock. -/
theorem dispatchEvent_clock {env : TurnEnv} {s s' : TurnState} {frame : Bytes}
    {ev : NativeEvent} (h : dispatchEvent env s frame ev = .running s') :
    s'.remainingTimeout = s.remainingTimeout := by
  unfold dispatchEvent at h
  split at h
  · rename_i text _ _ _ _
    cases h
    obtain ⟨outBuf, stream, htext⟩ := textDeltaFrame_keeps env s text
    rw [htext]
  · cases h
    rfl
  · cases h
  · cases h
  · exact toolIntentFrame_clock h
  · cases h
  · split at h
    · cases h
      rfl
    · cases h
      rfl
  · cases h
    rfl

/-- A frame restores the response timeout. -/
theorem frameEvent_clock {env : TurnEnv} {s s' : TurnState} {frame : Bytes}
    (h : frameEvent env s frame = .running s') :
    s'.remainingTimeout = env.fullTimeout := by
  unfold frameEvent at h
  dsimp only at h
  split at h
  · unfold foreignFrame at h
    dsimp only at h
    split at h
    · cases h
      rfl
    · cases h
  · exact dispatchEvent_clock h

theorem turnEvent_inLoop (env : TurnEnv) (s : TurnState) (e : LoopEvent) (s' : TurnState)
    (hs : InLoop env s) (h : turnEvent env s e = .running s') : InLoop env s' := by
  obtain ⟨t, hevent, hsettle⟩ := Progress.bind_eq_running h
  obtain ⟨rfl, hcount⟩ := settle_eq_running hsettle
  have hfull := fullTimeout_pos env
  cases e with
  | control connections =>
      have hclock : s'.remainingTimeout = s.remainingTimeout := by
        dsimp only at hevent
        unfold controlEvent at hevent
        dsimp only at hevent
        split at hevent
        · cases hevent
        · cases hevent
          exact ((clockless_serveControl env connections).keeps s).1
      exact ⟨hcount, hclock ▸ hs.pos, hclock ▸ hs.le_full⟩
  | frame text =>
      have hclock := frameEvent_clock hevent
      exact ⟨hcount, hclock ▸ hfull, le_of_eq hclock⟩
  | idle late =>
      dsimp only at hevent
      unfold idleEvent at hevent
      dsimp only at hevent
      split at hevent
      · cases hevent
      · rename_i hleft
        cases hevent
        have hpoll : 0 ≤ env.pollMs s.remainingTimeout := by
          have := hs.pos
          unfold TurnEnv.pollMs
          dsimp only
          split_ifs <;> omega
        have hle := hs.le_full
        exact ⟨hcount, by simpa using hleft, show _ ≤ env.fullTimeout by dsimp only; omega⟩

/-- A turn that goes on is inside its loop. -/
theorem turnProcessEvents_inLoop {env : TurnEnv} {s s' : TurnState}
    {events : List LoopEvent} (h : turnProcessEvents env s events = .running s') :
    InLoop env s' := by
  obtain ⟨t, hsettle, hrun⟩ := Progress.bind_eq_running h
  obtain ⟨rfl, hcount⟩ := settle_eq_running hsettle
  exact run_invariant (turnEvent_inLoop env)
    ⟨hcount, fullTimeout_pos env, le_refl _⟩ hrun

theorem turnProcessEvents_append (env : TurnEnv) (s : TurnState)
    (first second : List LoopEvent) :
    turnProcessEvents env s (first ++ second) =
      (turnProcessEvents env s first).bind fun t => run (turnEvent env) t second := by
  unfold turnProcessEvents
  cases settle env (s.enter env) with
  | running t => exact run_append (turnEvent env) t first second
  | ended e => rfl

end StarBridge
