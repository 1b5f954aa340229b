import StarBridge.TurnAck
import StarBridge.TurnBegin

/-!
# The two framed transports

Frames are written through the connection, over a socket as over the pipes of a
child.  Three functions look at the engine's own descriptor first:
`engine_cancel`, `engine_send_error` and `engine_destroy` write only where
`stdin_fd` is open, and over a socket it is not.  In everything else a turn over
a socket is the turn over the pipes with those frames left out: `muted` leaves
them out of a state, and each phase of a turn commutes with it.
-/

namespace StarBridge

open CText Loops

/-- The transports of framed mode. -/
inductive Transport
  | uds
  | stdioFramed
  deriving DecidableEq, Repr

/-- `eng->framed_mode && eng->stdin_fd > 0`. -/
def Transport.stdinOpen : Transport → Bool
  | .uds => false
  | .stdioFramed => true

/-- The configuration of a turn over a transport. -/
def TurnEnv.over (env : TurnEnv) (transport : Transport) : TurnEnv :=
  { env with stdinOpen := transport.stdinOpen }

/-- The configuration of the sessions over a transport. -/
def SessionEnv.over (env : SessionEnv) (transport : Transport) : SessionEnv :=
  { env with stdinOpen := transport.stdinOpen }

/-- The frames of a turn that are written only to an open `stdin_fd`. -/
def BridgeFrame.needsStdin : BridgeFrame → Bool
  | .error _ _ => true
  | .cancel _ => true
  | _ => false

/-- The frames of `turn_begin` that are written only to an open `stdin_fd`. -/
def AgentFrame.needsStdin : AgentFrame → Bool
  | .error _ _ => true
  | _ => false

/-- The engine without the frames that need `stdin_fd`. -/
def EngineState.muted (eng : EngineState) : EngineState :=
  { eng with sent := eng.sent.filter fun f => ¬ f.needsStdin }

def TurnState.muted (s : TurnState) : TurnState := { s with engine := s.engine.muted }

def TurnEnd.muted (e : TurnEnd) : TurnEnd := ⟨e.outcome, e.state.muted⟩

/-- A list without the session frames that need `stdin_fd`. -/
def mutedFrames (frames : List AgentFrame) : List AgentFrame :=
  frames.filter fun f => ¬ f.needsStdin

def SessionOutcome.muted (o : SessionOutcome) : SessionOutcome :=
  { o with frames := mutedFrames o.frames }

/-! ## The engine -/

/-- A frame that goes through the connection is kept. -/
theorem muted_write (frame : BridgeFrame) (h : frame.needsStdin = false)
    (eng : EngineState) :
    { eng.muted with sent := eng.muted.sent ++ [frame] } =
      { eng with sent := eng.sent ++ [frame] }.muted := by
  simp [EngineState.muted, List.filter_append, h]

/-- A frame that needs `stdin_fd` is not. -/
theorem muted_skip (frame : BridgeFrame) (h : frame.needsStdin = true) (eng : EngineState) :
    { eng with sent := eng.sent ++ [frame] }.muted = eng.muted := by
  simp [EngineState.muted, List.filter_append, h]

theorem sendError_muted (env : TurnEnv) (errorType detail : Bytes) (eng : EngineState) :
    eng.muted.sendError (env.over .uds) errorType detail =
      (eng.sendError (env.over .stdioFramed) errorType detail).muted :=
  (muted_skip (.error errorType detail) rfl eng).symm

theorem engineCancel_muted (requestId : Bytes) (eng : EngineState) :
    engineCancel false requestId eng.muted = (engineCancel true requestId eng).muted := by
  have hsame : eng.muted.cancelled = eng.cancelled := rfl
  unfold engineCancel
  rw [hsame]
  split
  · rfl
  · exact (muted_skip (.cancel _) rfl { eng with cancelled := true }).symm

theorem serveMidturn_muted (codexModel requestId : Bytes) (eng : EngineState) (sent : Bytes) :
    (serveMidturn ⟨codexModel, requestId, false⟩ eng.muted sent).2 =
      (serveMidturn ⟨codexModel, requestId, true⟩ eng sent).2.muted := by
  unfold serveMidturn
  cases scanRequestLine (sent.take 4095) with
  | none => rfl
  | some words =>
      obtain ⟨method, path⟩ := words
      dsimp only
      cases midturnRoute method path with
      | models => rfl
      | cancel => exact congrArg (engineSetTurnActive false) (engineCancel_muted requestId eng)
      | conflict => rfl
      | notFound => rfl

theorem handleMidturnControlPlane_muted (codexModel requestId : Bytes) (eng : EngineState)
    (connections : List Bytes) :
    handleMidturnControlPlane ⟨codexModel, requestId, false⟩ eng.muted connections =
      (handleMidturnControlPlane ⟨codexModel, requestId, true⟩ eng connections).muted := by
  unfold handleMidturnControlPlane
  induction connections generalizing eng with
  | nil => rfl
  | cons sent rest ih =>
      rw [List.foldl_cons, List.foldl_cons, serveMidturn_muted]
      exact ih _

/-! ## The event loop -/

variable (env : TurnEnv) (s : TurnState)

theorem emitDelta_muted (delta : Bytes) :
    s.muted.emitDelta delta = ((s.emitDelta delta).1.muted, (s.emitDelta delta).2) := by
  have hsame : s.muted.stream = s.stream := rfl
  unfold TurnState.emitDelta
  rw [hsame]
  split
  · rfl
  · split
    · rfl
    · rfl

theorem emitChunks_muted (pieces : List Bytes) :
    s.muted.emitChunks pieces = (s.emitChunks pieces).muted := by
  induction pieces generalizing s with
  | nil => rfl
  | cons piece rest ih =>
      unfold TurnState.emitChunks
      rw [emitDelta_muted]
      dsimp only
      split
      · exact ih _
      · rfl

theorem textDeltaFrame_muted (text : Bytes) :
    textDeltaFrame (env.over .uds) s.muted text =
      (textDeltaFrame (env.over .stdioFramed) s text).muted := by
  unfold textDeltaFrame
  dsimp only
  split
  · rfl
  · have hemit := emitDelta_muted { s with outBuf := appendText env.outMax s.outBuf text } text
    exact congrArg (fun emitted => emitted.1.count) hemit

theorem responseFrame_muted (text : Bytes) (promptTokens completionTokens : Int) :
    responseFrame (env.over .uds) s.muted text promptTokens completionTokens =
      (responseFrame (env.over .stdioFramed) s text promptTokens completionTokens).muted := by
  unfold responseFrame
  dsimp only
  split
  · rfl
  · have hchunks := emitChunks_muted (s.answer env text) (chunks 4096 text.length text)
    exact congrArg (TurnState.emitMetrics · (lit "completed") promptTokens completionTokens)
      hchunks

/-- The answer to a tool intent goes through the connection. -/
theorem answerTool_muted (toolName toolArgs : Bytes) :
    answerTool (env.over .uds) s.muted toolName toolArgs =
      (answerTool (env.over .stdioFramed) s toolName toolArgs).muted := by
  unfold answerTool
  cases toolPolicyRefusal toolName toolArgs with
  | some kind =>
      exact congrArg (fun engine => { s with engine := engine })
        (muted_write (.toolError env.requestId toolName _) rfl s.engine)
  | none =>
      exact congrArg (fun engine => { s with
          toolRuns := s.toolRuns ++ [(toolName, toolArgs)], engine := engine })
        (muted_write (.toolResult env.requestId toolName _) rfl s.engine)

theorem toolIntentFrame_muted (toolName toolArgs : Bytes) :
    toolIntentFrame (env.over .uds) s.muted toolName toolArgs =
      (toolIntentFrame (env.over .stdioFramed) s toolName toolArgs).map
        TurnState.muted TurnEnd.muted := by
  have hcycles : s.muted.countTool.toolCycles = s.countTool.toolCycles := rfl
  unfold toolIntentFrame
  dsimp only
  rw [hcycles]
  split
  · rfl
  · exact congrArg (fun answered => Progress.running answered.count)
      (answerTool_muted env s.countTool toolName toolArgs)

theorem dispatchEvent_muted (frame : Bytes) (ev : NativeEvent) :
    dispatchEvent (env.over .uds) s.muted frame ev =
      (dispatchEvent (env.over .stdioFramed) s frame ev).map
        TurnState.muted TurnEnd.muted := by
  unfold dispatchEvent
  split
  · exact congrArg Progress.running (textDeltaFrame_muted env s _)
  · rfl
  · rfl
  · rfl
  · exact toolIntentFrame_muted env s _ _
  · rw [responseFrame_muted]
    rfl
  · split
    · rfl
    · rfl
  · rfl

theorem settle_muted :
    settle (env.over .uds) s.muted =
      (settle (env.over .stdioFramed) s).map TurnState.muted TurnEnd.muted := by
  have hcount : s.muted.eventCount = s.eventCount := rfl
  have hlimit : (env.over .uds).maxTurnEvents = (env.over .stdioFramed).maxTurnEvents := rfl
  unfold settle
  rw [hcount, hlimit]
  split
  · rfl
  · rfl

theorem foreignFrame_muted (ev : NativeEvent) :
    foreignFrame (env.over .uds) s.muted ev =
      (foreignFrame (env.over .stdioFramed) s ev).map TurnState.muted TurnEnd.muted := by
  unfold foreignFrame
  split
  · rfl
  · have hsent := sendError_muted env (lit "request_id_mismatch")
      (lit "frame id does not match request id") s.engine
    exact congrArg (fun engine => Progress.ended (TurnEnd.mk .idMismatch
      { s.say env (lit "native agent frame id mismatch") with engine := engine })) hsent

theorem frameEvent_muted (frame : Bytes) :
    frameEvent (env.over .uds) s.muted frame =
      (frameEvent (env.over .stdioFramed) s frame).map TurnState.muted TurnEnd.muted := by
  have hecho : echoesId (env.over .uds) frame = echoesId (env.over .stdioFramed) frame := rfl
  have hparse : (env.over .uds).parser = (env.over .stdioFramed).parser := rfl
  unfold frameEvent
  dsimp only
  rw [hecho, hparse]
  split
  · exact foreignFrame_muted env { s.beat with remainingTimeout := env.fullTimeout } _
  · exact dispatchEvent_muted env { s.beat with remainingTimeout := env.fullTimeout } _ _

theorem serveControl_muted (connections : List Bytes) :
    s.muted.serveControl (env.over .uds) connections =
      (s.serveControl (env.over .stdioFramed) connections).muted := by
  have hplane : (env.over .uds).controlPlane = (env.over .stdioFramed).controlPlane := rfl
  unfold TurnState.serveControl
  rw [hplane]
  split
  · exact congrArg (fun engine => { s with engine := engine })
      (handleMidturnControlPlane_muted env.codexModel env.requestId s.engine connections)
  · rfl

theorem controlEvent_muted (connections : List Bytes) :
    controlEvent (env.over .uds) s.muted connections =
      (controlEvent (env.over .stdioFramed) s connections).map
        TurnState.muted TurnEnd.muted := by
  have hplane : (env.over .uds).controlPlane = (env.over .stdioFramed).controlPlane := rfl
  have hflag : (s.muted.serveControl (env.over .uds) connections).engine.cancelled =
      (s.serveControl (env.over .stdioFramed) connections).engine.cancelled := by
    rw [serveControl_muted]
    rfl
  unfold controlEvent
  dsimp only
  rw [hplane, hflag, serveControl_muted]
  split
  · rfl
  · rfl

theorem idleEvent_muted (late : List Bytes) :
    idleEvent (env.over .uds) s.muted late =
      (idleEvent (env.over .stdioFramed) s late).map TurnState.muted TurnEnd.muted := by
  have hleft : s.muted.remainingTimeout - (env.over .uds).pollMs s.muted.remainingTimeout =
      s.remainingTimeout - (env.over .stdioFramed).pollMs s.remainingTimeout := rfl
  unfold idleEvent
  dsimp only
  rw [hleft]
  generalize s.remainingTimeout - (env.over .stdioFramed).pollMs s.remainingTimeout = remaining
  split
  · have hserved := serveControl_muted env { s.beat with remainingTimeout := remaining } late
    have hbeat : { s.muted.beat with remainingTimeout := remaining } =
      { s.beat with remainingTimeout := remaining }.muted := rfl
    rw [hbeat, hserved]
    generalize TurnState.serveControl _ late _ = t
    have hsent := sendError_muted env (lit "handshake_timeout")
      (lit "native agent response timeout") t.engine
    exact congrArg (fun engine => Progress.ended (TurnEnd.mk .timeout (TurnState.emitMetrics
      { t.say env (lit "native agent response timeout") with engine := engine }
        (lit "timeout") 0 0))) hsent
  · rfl

/-! ## A whole turn -/

theorem turnEvent_muted (e : LoopEvent) :
    turnEvent (env.over .uds) s.muted e =
      (turnEvent (env.over .stdioFramed) s e).map TurnState.muted TurnEnd.muted := by
  have hsettle : ∀ t : TurnState, settle (env.over .uds) t.muted =
      (settle (env.over .stdioFramed) t).map TurnState.muted TurnEnd.muted :=
    fun t => settle_muted env t
  cases e with
  | control connections =>
      exact (congrArg (Progress.bind · _) (controlEvent_muted env s connections)).trans
        (Progress.map_bind _ hsettle)
  | frame text =>
      exact (congrArg (Progress.bind · _) (frameEvent_muted env s text)).trans
        (Progress.map_bind _ hsettle)
  | idle late =>
      exact (congrArg (Progress.bind · _) (idleEvent_muted env s late)).trans
        (Progress.map_bind _ hsettle)

theorem afterAck_muted (e : AckEnd) :
    s.muted.afterAck (env.over .uds) e =
      (s.afterAck (env.over .stdioFramed) e).muted := by
  unfold TurnState.afterAck
  split
  · rfl
  · cases e.report with
    | none => rfl
    | some report =>
        obtain ⟨errorType, detail⟩ := report
        exact congrArg (fun engine => { s.say env e.message with engine := engine })
          (sendError_muted env errorType detail s.engine)

/-! ## Reads -/

/-- What a read from the connection comes to: a frame, nothing before the
deadline, or a header that announces more than a frame may hold. -/
inductive WireRead
  | frame (text : Bytes)
  | silent
  | tooLarge
  deriving DecidableEq, Repr

/-- What the caller of a read is given. -/
def WireRead.text : WireRead → Option Bytes
  | .frame text => some text
  | _ => none

/-- `engine_read_frame_timeout`: the engine after it. -/
def engineReadFrame (env : TurnEnv) (eng : EngineState) : WireRead → EngineState
  | .tooLarge =>
      eng.sendError env (lit "payload_too_large") (lit "frame payload exceeds max")
  | _ => eng

/-- The turn after a read. -/
def TurnState.reads (env : TurnEnv) (s : TurnState) (read : WireRead) : TurnState :=
  { s with engine := engineReadFrame env s.engine read }

/-- One read of `turn_await_ack`, with what it does to the turn. -/
def ackStep (env : TurnEnv) (s : Nat × TurnState) (read : WireRead) :
    Progress (Nat × TurnState) (AckEnd × TurnState) :=
  let turn := s.2.reads env read
  match ackRead env s.1 read.text with
  | .running left => .running (left, turn)
  | .ended e => .ended (e, turn.afterAck env e)

/-- What the event loop meets on a connection. -/
inductive WireEvent
  | control (connections : List Bytes)
  | read (read : WireRead) (late : List Bytes)

/-- One round of the event loop. -/
def wireEvent (env : TurnEnv) (s : TurnState) : WireEvent → Progress TurnState TurnEnd
  | .control connections => turnEvent env s (.control connections)
  | .read read late =>
      match read.text with
      | some text => turnEvent env (s.reads env read) (.frame text)
      | none => turnEvent env (s.reads env read) (.idle late)

/-- `turn_process_events` on a connection. -/
def wireProcessEvents (env : TurnEnv) (s : TurnState) (events : List WireEvent) :
    Progress TurnState TurnEnd :=
  (settle env (s.enter env)).bind fun s => run (wireEvent env) s events

/-- What the event loop meets, as it comes over a connection. -/
def LoopEvent.onWire : LoopEvent → WireEvent
  | .control connections => .control connections
  | .frame text => .read (.frame text) []
  | .idle late => .read .silent late

/-- Without a frame that is too large the loop is `turn_process_events` as it
stands. -/
theorem wireProcessEvents_onWire (events : List LoopEvent) :
    wireProcessEvents env s (events.map LoopEvent.onWire) = turnProcessEvents env s events := by
  have hevent : ∀ t e, wireEvent env t (LoopEvent.onWire e) = turnEvent env t e := by
    intro t e
    cases e with
    | control connections => rfl
    | frame text => rfl
    | idle late => rfl
  have hrun : ∀ t, run (wireEvent env) t (events.map LoopEvent.onWire) =
      run (turnEvent env) t events := by
    induction events with
    | nil => exact fun t => rfl
    | cons e rest ih =>
        intro t
        rw [List.map_cons, run_cons, run_cons, hevent]
        exact congrArg (Progress.bind _) (funext ih)
  exact congrArg (Progress.bind _) (funext hrun)

/-- The wait ends as `turn_await_ack` does on what its reads return. -/
theorem awaitAck_ends (left : Nat) (reads : List WireRead) :
    (run (ackStep env) (left, s) reads).map Prod.fst Prod.fst =
      run (ackRead env) left (reads.map WireRead.text) := by
  induction reads generalizing left s with
  | nil => rfl
  | cons read rest ih =>
      rw [List.map_cons, run_cons, run_cons]
      cases h : ackRead env left read.text with
      | running left' =>
          simp only [ackStep, h, Progress.bind_running]
          exact ih _ left'
      | ended e => simp [ackStep, h, Progress.map]

theorem reads_muted (read : WireRead) :
    s.muted.reads (env.over .uds) read = (s.reads (env.over .stdioFramed) read).muted := by
  cases read with
  | frame text => rfl
  | silent => rfl
  | tooLarge =>
      exact congrArg (fun engine => { s with engine := engine })
        (sendError_muted env (lit "payload_too_large") (lit "frame payload exceeds max")
          s.engine)

/-- **The wait for the acknowledgement** over a socket is the wait over the
pipes without the frames that need `stdin_fd`. -/
theorem awaitAck_muted (left : Nat) (reads : List WireRead) :
    run (ackStep (env.over .uds)) (left, s.muted) reads =
      (run (ackStep (env.over .stdioFramed)) (left, s) reads).map
        (fun s => (s.1, s.2.muted)) (fun e => (e.1, e.2.muted)) := by
  refine run_map (f := fun s : Nat × TurnState => (s.1, s.2.muted)) ?_ (left, s) reads
  intro s read
  have hread : ackRead (env.over .uds) s.1 read.text =
      ackRead (env.over .stdioFramed) s.1 read.text := rfl
  unfold ackStep
  dsimp only
  rw [reads_muted, hread]
  cases ackRead (env.over .stdioFramed) s.1 read.text with
  | running left => rfl
  | ended e => exact congrArg (fun turn => Progress.ended (e, turn)) (afterAck_muted env _ e)

theorem wireEvent_muted (e : WireEvent) :
    wireEvent (env.over .uds) s.muted e =
      (wireEvent (env.over .stdioFramed) s e).map TurnState.muted TurnEnd.muted := by
  cases e with
  | control connections => exact turnEvent_muted env s (.control connections)
  | read read late =>
      unfold wireEvent
      dsimp only
      rw [reads_muted]
      cases read.text with
      | some text => exact turnEvent_muted env _ (.frame text)
      | none => exact turnEvent_muted env _ (.idle late)

/-- **The event loop** over a socket is the event loop over the pipes without
the frames that need `stdin_fd`. -/
theorem wireProcessEvents_muted (events : List WireEvent) :
    wireProcessEvents (env.over .uds) s.muted events =
      (wireProcessEvents (env.over .stdioFramed) s events).map
        TurnState.muted TurnEnd.muted := by
  have henter : settle (env.over .uds) (s.muted.enter (env.over .uds)) =
      (settle (env.over .stdioFramed) (s.enter (env.over .stdioFramed))).map
        TurnState.muted TurnEnd.muted :=
    settle_muted env (s.enter (env.over .stdioFramed))
  unfold wireProcessEvents
  rw [henter]
  exact Progress.map_bind _ fun t => run_map (wireEvent_muted env) t events

/-! ## Sessions -/

/-- A session frame goes through the connection. -/
theorem exchange_kept (frame : SessionFrame) (reply : AgentReply)
    (onAck : Bytes → SessionWorld → SessionWorld) (world : SessionWorld) :
    mutedFrames (exchange frame reply onAck world).frames =
      (exchange frame reply onAck world).frames := by
  unfold exchange
  split
  · rfl
  · dsimp only
    cases reply.ack with
    | none => rfl
    | some ack => rfl

section Sessions

variable (env : SessionEnv)

@[simp] theorem mutedFrames_append (first second : List AgentFrame) :
    mutedFrames (first ++ second) = mutedFrames first ++ mutedFrames second :=
  List.filter_append ..

/-- The report of a failed step is left out. -/
theorem mutedFrames_report (errorType detail : Bytes) :
    mutedFrames (engineSendError (env.over .stdioFramed) errorType detail) =
      engineSendError (env.over .uds) errorType detail := rfl

theorem openAs_muted (key sessionId errorType detail : Bytes) {step : SessionStep}
    (hstep : mutedFrames step.frames = step.frames) :
    openAs (env.over .uds) key sessionId errorType detail step =
      (openAs (env.over .stdioFramed) key sessionId errorType detail step).muted := by
  unfold openAs SessionOutcome.muted
  split
  · rw [hstep]
  · rw [mutedFrames_append, mutedFrames_report, hstep]

theorem openOrReport_muted (key errorType detail : Bytes) {step : SessionStep}
    (hstep : mutedFrames step.frames = step.frames) :
    openOrReport (env.over .uds) key errorType detail step =
      (openOrReport (env.over .stdioFramed) key errorType detail step).muted := by
  unfold openOrReport SessionOutcome.muted
  split
  · rw [hstep]
  · rw [mutedFrames_append, mutedFrames_report, hstep]

/-- An outcome behind other frames. -/
def SessionOutcome.behind (frames : List AgentFrame) (o : SessionOutcome) : SessionOutcome :=
  { o with frames := frames ++ o.frames }

theorem behind_muted (frames : List AgentFrame) (o : SessionOutcome) :
    o.muted.behind (mutedFrames frames) = (o.behind frames).muted :=
  congrArg (SessionOutcome.mk _ · _) (mutedFrames_append frames o.frames).symm

theorem checkStored_muted (index : SessionIndex) (key stateId what : Bytes) :
    checkStored (env.over .uds) index key stateId what =
      Prod.map id mutedFrames (checkStored (env.over .stdioFramed) index key stateId what) := by
  have hroot : (env.over .uds).workspace = (env.over .stdioFramed).workspace := rfl
  have hmodel : (env.over .uds).codexModel = (env.over .stdioFramed).codexModel := rfl
  unfold checkStored
  rw [hroot, hmodel]
  split
  · rfl
  · split
    · rfl
    · rfl

theorem beginReset_muted (w : SessionWorld) (t : TurnInput) :
    beginReset (env.over .uds) w t = (beginReset (env.over .stdioFramed) w t).muted := by
  have hroot : (env.over .uds).workspace = (env.over .stdioFramed).workspace := rfl
  unfold beginReset
  dsimp only
  rw [hroot]
  split
  · rfl
  · exact openAs_muted env _ _ _ _ (exchange_kept _ t.openReply _ w)

theorem beginDefault_muted (w : SessionWorld) (t : TurnInput) :
    beginDefault (env.over .uds) w t = (beginDefault (env.over .stdioFramed) w t).muted := by
  have hroot : (env.over .uds).workspace = (env.over .stdioFramed).workspace := rfl
  have hindex : reloadIndex (env.over .uds) w = reloadIndex (env.over .stdioFramed) w := rfl
  unfold beginDefault
  dsimp only
  rw [hroot, hindex]
  split
  · rfl
  · have husable : usableDefault (env.over .uds) (reloadIndex (env.over .stdioFramed) w).index
        (sessionKey (env.over .stdioFramed).workspace (lit "default")) =
        Prod.map id mutedFrames (usableDefault (env.over .stdioFramed)
          (reloadIndex (env.over .stdioFramed) w).index
          (sessionKey (env.over .stdioFramed).workspace (lit "default"))) := by
      unfold usableDefault
      split
      · rfl
      · exact checkStored_muted env _ _ _ _
    rw [husable]
    generalize usableDefault (env.over .stdioFramed) _ _ = usable
    obtain ⟨stateId, errors⟩ := usable
    cases stateId with
    | some stateId =>
        exact (congrArg (SessionOutcome.behind (mutedFrames errors))
          (openAs_muted env _ _ _ _ (exchange_kept _ t.openReply _ _))).trans
            (behind_muted errors _)
    | none =>
        exact (congrArg (SessionOutcome.behind (mutedFrames errors))
          (openAs_muted env _ _ _ _ (exchange_kept _ t.openReply _ _))).trans
            (behind_muted errors _)

theorem savePrevious_muted (oldKey : Bytes) (w : SessionWorld) (t : TurnInput) :
    savePrevious (env.over .uds) oldKey w t =
      Prod.map id mutedFrames (savePrevious (env.over .stdioFramed) oldKey w t) := by
  have hauto : (env.over .uds).autoSaveKvCache = (env.over .stdioFramed).autoSaveKvCache := rfl
  unfold savePrevious
  rw [hauto]
  cases w.index.lookup oldKey with
  | none => rfl
  | some stateId =>
      have hkept : mutedFrames (engineSaveSessionState oldKey stateId t.saveReply w).frames =
          (engineSaveSessionState oldKey stateId t.saveReply w).frames :=
        exchange_kept _ t.saveReply _ w
      dsimp only
      split
      · refine Prod.ext rfl ?_
        dsimp only [Prod.map]
        rw [mutedFrames_append, hkept]
        split
        · rfl
        · rfl
      · rfl

theorem switchSession_muted (key : Bytes) (w : SessionWorld) (t : TurnInput) :
    switchSession (env.over .uds) key w t =
      (switchSession (env.over .stdioFramed) key w t).muted := by
  have hload : (env.over .uds).canLoad = (env.over .stdioFramed).canLoad := rfl
  have hroot : (env.over .uds).workspace = (env.over .stdioFramed).workspace := rfl
  unfold switchSession
  dsimp only
  rw [hroot, savePrevious_muted, hload]
  generalize savePrevious (env.over .stdioFramed) _ w t = saved
  obtain ⟨w, saves⟩ := saved
  dsimp only [Prod.map, id]
  cases w.index.lookup key with
  | some stateId =>
      dsimp only
      split
      · exact (congrArg (SessionOutcome.behind (mutedFrames saves))
          (openOrReport_muted env _ _ _ (exchange_kept _ t.openReply _ _))).trans
            (behind_muted saves _)
      · exact behind_muted saves ⟨w, [], none⟩
  | none =>
      dsimp only
      split
      · exact behind_muted saves ⟨w, [.error _ _], none⟩
      · exact behind_muted saves ⟨w, [], none⟩

theorem firstLoad_muted (key : Bytes) (w : SessionWorld) (t : TurnInput) :
    firstLoad (env.over .uds) key w t = (firstLoad (env.over .stdioFramed) key w t).muted := by
  have hload : (env.over .uds).canLoad = (env.over .stdioFramed).canLoad := rfl
  unfold firstLoad
  rw [hload]
  cases w.index.lookup key with
  | some stateId =>
      dsimp only
      split
      · rw [checkStored_muted]
        generalize checkStored (env.over .stdioFramed) _ key stateId _ = checked
        obtain ⟨usable, errors⟩ := checked
        cases usable with
        | none => rfl
        | some stateId =>
            exact openOrReport_muted env _ _ _ (exchange_kept _ t.openReply _ _)
      · rfl
  | none =>
      dsimp only
      split
      · rfl
      · rfl

theorem beginNamed_muted (w : SessionWorld) (t : TurnInput) (sessionId : Bytes) :
    beginNamed (env.over .uds) w t sessionId =
      (beginNamed (env.over .stdioFramed) w t sessionId).muted := by
  have hroot : (env.over .uds).workspace = (env.over .stdioFramed).workspace := rfl
  have hindex : reloadIndex (env.over .uds) w = reloadIndex (env.over .stdioFramed) w := rfl
  unfold beginNamed
  dsimp only
  rw [hroot, hindex, switchSession_muted, firstLoad_muted]
  split
  · rfl
  · split
    · rfl
    · split
      · rfl
      · rfl

/-- **The session part of a turn** over a socket is that over the pipes without
the reports. -/
theorem beginSession_muted (w : SessionWorld) (t : TurnInput) :
    beginSession (env.over .uds) w t = (beginSession (env.over .stdioFramed) w t).muted := by
  have hload : (env.over .uds).canLoad = (env.over .stdioFramed).canLoad := rfl
  unfold beginSession
  rw [hload, beginReset_muted, beginNamed_muted, beginNamed_muted, beginDefault_muted]
  split
  · rfl
  · split
    · rfl
    · split
      · rfl
      · split
        · rfl
        · rfl

end Sessions

end StarBridge
