import StarBridge.Runs
import StarBridge.SessionOpening
import StarBridge.StreamTerminals
import StarBridge.Transports

/-!
# Runs over the two framed transports

The operations of a framed engine, one after another: turns, cancellations,
reports and the end of the engine.  What a run writes over a socket is what it
writes over the pipes without the frames that need `stdin_fd`
(`written_uds`), so the two are the same exactly when no operation has such a
frame to write.  `Silent` says of an operation, by the state it starts in and by
what it will read, that it has none.
-/

namespace StarBridge

open CText Loops Runs

/-! ## The operations of an engine -/

/-- A frame the bridge writes to the agent. -/
inductive WrittenFrame
  | session (frame : AgentFrame)
  | turn (frame : BridgeFrame)
  | shutdown
  deriving DecidableEq, Repr

/-- The frames that are written only to an open `stdin_fd`. -/
def WrittenFrame.needsStdin : WrittenFrame → Bool
  | .session frame => frame.needsStdin
  | .turn frame => frame.needsStdin
  | .shutdown => true

/-- Where the bridge waits for the answer to a session frame and meets one that
is too large to read. -/
structure LargeAnswers where
  save : Bool
  opening : Bool
  finalSave : Bool

/-- A turn, and all that is read while it runs. -/
structure FramedInput where
  env : TurnEnv
  input : TurnInput
  large : LargeAnswers
  stream : Option ResponsesStreamState
  reads : List WireRead
  events : List WireEvent

/-- The operations of a framed engine; the end of the engine waits for an
acknowledgement. -/
inductive EngineOp
  | turn (turn : FramedInput)
  | cancel
  | sendError (errorType detail : Bytes)
  | destroy (ack : WireRead)

/-- An engine is ready for an operation, in a turn that is not over, or
destroyed. -/
inductive EnginePhase
  | ready
  | inTurn
  | destroyed
  deriving DecidableEq, Repr

/-- A framed engine between two operations. -/
structure FramedEngine where
  world : SessionWorld
  cancelled : Bool
  turnActive : Bool
  currentRequestId : Bytes
  phase : EnginePhase

/-- A framed engine that has just been started. -/
def FramedEngine.start (world : SessionWorld) : FramedEngine :=
  ⟨world, false, false, [], .ready⟩

/-- The answer to this session frame is too large. -/
def FramedInput.meetsLarge (turn : FramedInput) : SessionFrame → Bool
  | .saveState _ _ => turn.input.saveReply.ack.isNone && turn.large.save
  | _ => turn.input.openReply.ack.isNone && turn.large.opening

/-- A frame, and the report on its answer where that is too large. -/
def reported (env : SessionEnv) (large : SessionFrame → Bool) : AgentFrame → List AgentFrame
  | .session f =>
      .session f :: if large f then
        engineSendError env (lit "payload_too_large") (lit "frame payload exceeds max")
      else []
  | frame => [frame]

/-- The frames of a phase with the reports of its reads. -/
def withReports (env : SessionEnv) (large : SessionFrame → Bool)
    (frames : List AgentFrame) : List AgentFrame :=
  frames.flatMap (reported env large)

/-- The request id and the configuration of a turn. -/
def FramedInput.turnEnv (turn : FramedInput) : TurnEnv :=
  { turn.env with requestId := lit "req-" ++ decimal turn.input.requestNumber }

/-- The turn `turn_begin` hands on: it is not cancelled. -/
def FramedInput.begun (turn : FramedInput) : TurnState := freshTurn turn.stream

/-- `turn_await_ack` and `turn_process_events`. -/
def FramedInput.talk (env : TurnEnv) (turn : FramedInput) : Progress TurnState FramedTurn :=
  match run (ackStep env) (5, turn.begun) turn.reads with
  | .running (_, s) => .running s
  | .ended (e, s) =>
      if e.ok then
        (wireProcessEvents env s turn.events).map id fun e => ⟨.processed e.outcome, e.state⟩
      else .ended ⟨.notAccepted e, s⟩

/-- The save of the session after a turn, with the report of its read. -/
def FramedInput.save (env : SessionEnv) (turn : FramedInput) (w : SessionWorld) :
    SessionWorld × List AgentFrame :=
  let step := saveAfterTurn env w turn.input
  (step.world, withReports env
    (fun _ => turn.input.finalSaveReply.ack.isNone && turn.large.finalSave) step.frames)

/-- What an operation leaves, and what it writes. -/
structure OpResult where
  engine : FramedEngine
  written : List WrittenFrame

/-- A framed turn from `turn_begin` to `turn_cleanup`. -/
def runFramed (env : SessionEnv) (transport : Transport) (engine : FramedEngine)
    (turn : FramedInput) : OpResult :=
  let begun := turnBegin (env.over transport) engine.world turn.input
  let opening := withReports (env.over transport) turn.meetsLarge begun.frames
  let requestId := turn.turnEnv.requestId
  match turn.talk (turn.turnEnv.over transport) with
  | .running s =>
      ⟨⟨begun.outcome.world, s.engine.cancelled, s.engine.turnActive, requestId, .inTurn⟩,
        opening.map .session ++ s.engine.sent.map .turn⟩
  | .ended e =>
      let saved :=
        if e.outcome = .processed .completed then
          turn.save (env.over transport) begun.outcome.world
        else (begun.outcome.world, [])
      ⟨⟨saved.1, false, false, requestId, .ready⟩,
        opening.map .session ++ e.state.engine.sent.map .turn ++ saved.2.map .session⟩

/-- What `engine_destroy` writes. -/
def destroyFrames (env : SessionEnv) (ack : WireRead) : List WrittenFrame :=
  if env.stdinOpen then
    .shutdown :: if ack = .tooLarge then
        (engineSendError env (lit "payload_too_large")
          (lit "frame payload exceeds max")).map .session
      else []
  else []

/-- One operation.  An engine that is not ready takes none. -/
def engineOp (env : SessionEnv) (transport : Transport) (engine : FramedEngine) (op : EngineOp) :
    OpResult :=
  if engine.phase = .ready then
    match op with
    | .turn turn => runFramed env transport engine turn
    | .cancel =>
        let after := engineCancel transport.stdinOpen engine.currentRequestId
          ⟨engine.cancelled, engine.turnActive, []⟩
        ⟨{ engine with cancelled := after.cancelled }, after.sent.map .turn⟩
    | .sendError errorType detail =>
        ⟨engine, (engineSendError (env.over transport) errorType detail).map .session⟩
    | .destroy ack => ⟨{ engine with phase := .destroyed }, destroyFrames (env.over transport) ack⟩
  else ⟨engine, []⟩

/-- The engine after an operation. -/
def afterOp (env : SessionEnv) (transport : Transport) (engine : FramedEngine) (op : EngineOp) :
    FramedEngine := (engineOp env transport engine op).engine

/-- All the frames a run writes, in order. -/
def written (env : SessionEnv) (transport : Transport) (engine : FramedEngine)
    (ops : List EngineOp) : List WrittenFrame :=
  outputs (afterOp env transport) (fun engine op => (engineOp env transport engine op).written)
    engine ops

/-! ## A run over a socket -/

/-- Frames without those that need `stdin_fd`. -/
def mutedWrites (frames : List WrittenFrame) : List WrittenFrame :=
  frames.filter fun f => ¬ f.needsStdin

@[simp] theorem mutedWrites_append (first second : List WrittenFrame) :
    mutedWrites (first ++ second) = mutedWrites first ++ mutedWrites second :=
  List.filter_append ..

theorem mutedWrites_session (frames : List AgentFrame) :
    mutedWrites (frames.map .session) = (mutedFrames frames).map .session :=
  List.filter_map ..

theorem mutedWrites_turn (eng : EngineState) :
    mutedWrites (eng.sent.map .turn) = eng.muted.sent.map .turn :=
  List.filter_map ..

variable (env : SessionEnv)

theorem withReports_muted (large : SessionFrame → Bool) (frames : List AgentFrame) :
    withReports (env.over .uds) large (mutedFrames frames) =
      mutedFrames (withReports (env.over .stdioFramed) large frames) := by
  induction frames with
  | nil => rfl
  | cons frame rest ih =>
      have hone : withReports (env.over .uds) large (mutedFrames [frame]) =
          mutedFrames (reported (env.over .stdioFramed) large frame) := by
        cases frame with
        | session f =>
            have hreport : ∀ transport, withReports (env.over transport) large [.session f] =
                reported (env.over transport) large (.session f) :=
              fun _ => List.flatMap_singleton ..
            refine (hreport .uds).trans ?_
            dsimp only [reported]
            cases large f with
            | true => rfl
            | false => rfl
        | error errorType detail => rfl
        | request args => rfl
      have hrest : mutedFrames (frame :: rest) = mutedFrames [frame] ++ mutedFrames rest :=
        mutedFrames_append [frame] rest
      have hfirst : withReports (env.over .stdioFramed) large (frame :: rest) =
          reported (env.over .stdioFramed) large frame ++
            withReports (env.over .stdioFramed) large rest := List.flatMap_cons
      rw [hrest, hfirst, mutedFrames_append, ← ih, ← hone]
      exact List.flatMap_append

theorem turnBegin_muted (w : SessionWorld) (t : TurnInput) :
    turnBegin (env.over .uds) w t =
      { turnBegin (env.over .stdioFramed) w t with
        outcome := (turnBegin (env.over .stdioFramed) w t).outcome.muted
        frames := mutedFrames (turnBegin (env.over .stdioFramed) w t).frames } := by
  have hrequest : requestArgs (env.over .uds) t = requestArgs (env.over .stdioFramed) t := rfl
  unfold turnBegin
  rw [beginSession_muted, hrequest, mutedFrames_append]
  rfl

theorem talk_muted (env : TurnEnv) (turn : FramedInput) :
    turn.talk (env.over .uds) =
      (turn.talk (env.over .stdioFramed)).map TurnState.muted
        fun e => ⟨e.outcome, e.state.muted⟩ := by
  have hwait := awaitAck_muted env turn.begun 5 turn.reads
  have hbegun : turn.begun.muted = turn.begun := rfl
  rw [hbegun] at hwait
  unfold FramedInput.talk
  rw [hwait]
  cases run (ackStep (env.over .stdioFramed)) (5, turn.begun) turn.reads with
  | running s => rfl
  | ended e =>
      dsimp only [Progress.map]
      split
      · rw [wireProcessEvents_muted]
        cases wireProcessEvents (env.over .stdioFramed) e.2 turn.events with
        | running s => rfl
        | ended e => rfl
      · rfl

/-- The frame that saves the session of a completed turn. -/
def finalSaveFrame (env : SessionEnv) (w : SessionWorld) : Option SessionFrame :=
  let key := sessionKey env.workspace w.lastSessionId
  if w.lastSessionId ≠ [] ∧ env.autoSaveKvCache ∧ key ≠ [] then
    ((reloadIndex env w).index.lookup key).map (.saveState key)
  else none

theorem finalSaveFrame_sent (w : SessionWorld) (t : TurnInput) :
    (saveAfterTurn env w t).frames = (finalSaveFrame env w).toList.map .session := by
  unfold saveAfterTurn finalSaveFrame
  dsimp only
  by_cases hon : w.lastSessionId ≠ [] ∧ env.autoSaveKvCache = true
  · rw [if_pos hon]
    by_cases hkey : sessionKey env.workspace w.lastSessionId = []
    · rw [if_pos hkey, if_neg fun h => h.2.2 hkey]
      rfl
    · rw [if_neg hkey, if_pos ⟨hon.1, hon.2, hkey⟩]
      cases (reloadIndex env w).index.lookup (sessionKey env.workspace w.lastSessionId) with
      | none => rfl
      | some stateId =>
          have hfits : (SessionFrame.saveState
              (sessionKey env.workspace w.lastSessionId) stateId).Fits :=
            SessionFrame.fits_of_bufferSize rfl
          exact (exchange_frames _ t.finalSaveReply _ _).trans (if_pos hfits)
  · rw [if_neg hon, if_neg fun h => hon ⟨h.1, h.2.1⟩]
    rfl

theorem save_muted (turn : FramedInput) (w : SessionWorld) :
    turn.save (env.over .uds) w =
      Prod.map id mutedFrames (turn.save (env.over .stdioFramed) w) := by
  have hstep : saveAfterTurn (env.over .uds) w turn.input =
      saveAfterTurn (env.over .stdioFramed) w turn.input := rfl
  have hkept : mutedFrames (saveAfterTurn (env.over .stdioFramed) w turn.input).frames =
      (saveAfterTurn (env.over .stdioFramed) w turn.input).frames := by
    rw [finalSaveFrame_sent]
    cases finalSaveFrame (env.over .stdioFramed) w with
    | none => rfl
    | some f => rfl
  refine Prod.ext rfl ?_
  refine (congrArg (withReports _ _) (congrArg SessionStep.frames hstep)).trans ?_
  exact (congrArg (withReports _ _) hkept.symm).trans (withReports_muted env _ _)

/-- An operation over a socket is the operation over the pipes without the
frames that need `stdin_fd`. -/
theorem runFramed_muted (engine : FramedEngine) (turn : FramedInput) :
    runFramed env .uds engine turn =
      ⟨(runFramed env .stdioFramed engine turn).engine,
        mutedWrites (runFramed env .stdioFramed engine turn).written⟩ := by
  unfold runFramed
  dsimp only
  rw [turnBegin_muted, talk_muted]
  dsimp only
  rw [withReports_muted]
  generalize turnBegin (env.over .stdioFramed) engine.world turn.input = begun
  have hworld : begun.outcome.muted.world = begun.outcome.world := rfl
  rw [hworld]
  cases turn.talk (turn.turnEnv.over .stdioFramed) with
  | running s =>
      dsimp only [Progress.map]
      rw [mutedWrites_append, mutedWrites_session, mutedWrites_turn]
      rfl
  | ended e =>
      dsimp only [Progress.map]
      rw [save_muted]
      split
      · rw [mutedWrites_append, mutedWrites_append, mutedWrites_session, mutedWrites_turn,
          mutedWrites_session]
        rfl
      · rw [mutedWrites_append, mutedWrites_append, mutedWrites_session, mutedWrites_turn,
          mutedWrites_session]
        rfl

theorem engineOp_muted (engine : FramedEngine) (op : EngineOp) :
    engineOp env .uds engine op =
      ⟨(engineOp env .stdioFramed engine op).engine,
        mutedWrites (engineOp env .stdioFramed engine op).written⟩ := by
  unfold engineOp
  split
  · cases op with
    | turn turn => exact runFramed_muted env engine turn
    | cancel =>
        have hcancel := engineCancel_muted engine.currentRequestId
          ⟨engine.cancelled, engine.turnActive, []⟩
        have hmuted : EngineState.muted ⟨engine.cancelled, engine.turnActive, []⟩ =
          ⟨engine.cancelled, engine.turnActive, []⟩ := rfl
        rw [hmuted] at hcancel
        dsimp only [Transport.stdinOpen]
        rw [hcancel, mutedWrites_turn]
        rfl
    | sendError errorType detail => rfl
    | destroy ack =>
        cases ack with
        | frame text => rfl
        | silent => rfl
        | tooLarge => rfl
  · rfl

/-- **A run over a socket** writes what the run over the pipes writes, without
the frames that need `stdin_fd`. -/
theorem written_uds (engine : FramedEngine) (ops : List EngineOp) :
    written env .uds engine ops = mutedWrites (written env .stdioFramed engine ops) :=
  outputs_filter (fun engine op => congrArg OpResult.engine (engineOp_muted env engine op))
    (fun engine op => congrArg OpResult.written (engineOp_muted env engine op)) engine ops

/-- So the transports agree on a run iff over the pipes no frame of it needs
`stdin_fd`. -/
theorem written_eq_iff (engine : FramedEngine) (ops : List EngineOp) :
    written env .uds engine ops = written env .stdioFramed engine ops ↔
      AllSteps (afterOp env .stdioFramed)
        (fun engine op => ∀ f ∈ (engineOp env .stdioFramed engine op).written,
          f.needsStdin = false) engine ops := by
  rw [written_uds, mutedWrites, List.filter_eq_self, written, forall_outputs_iff]
  simp only [decide_eq_true_eq, Bool.not_eq_true]

end StarBridge
