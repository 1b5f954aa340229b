import StarBridge.ControlPlane
import StarBridge.Loops
import StarBridge.NativeResponse
import StarBridge.ResponsesStream
import StarBridge.ToolPolicy

/-!
# The event loop of a turn

`turn_process_events` reads frames until the agent has answered.  Between two
reads it serves the control plane; a read that runs into its deadline costs
some of the response timeout, and every frame restores it.  A frame is text of
the answer, a tool to run, a notice, an error, or the response that ends the
turn; anything it does not know it copies into the answer as it is.

The loop is a `Loops.run` over what it meets, in order: `turnEvent` is one
round, `settle` the test at the head of the `while`.
-/

namespace StarBridge

open CText Loops

/-- The engine, the configuration and the tools a turn runs with. -/
structure TurnEnv where
  requestId : Bytes
  codexModel : Bytes
  stdinOpen : Bool
  responseTimeoutMs : Int
  maxTurnEvents : Int
  outMax : Nat
  controlPlane : Bool
  parser : ParserEnv
  runTool : Bytes → Bytes → Bool × Bytes
  maxTurnEvents_int : maxTurnEvents < 2 ^ 31

/-- The control plane serves the turn under its own request id. -/
def TurnEnv.control (env : TurnEnv) : ControlEnv :=
  ⟨env.codexModel, env.requestId, env.stdinOpen⟩

/-- A line of `emit_turn_metrics`, without the clock. -/
structure TurnMetrics where
  status : Bytes
  outputBytes : Nat
  promptTokens : Int
  completionTokens : Int
  toolCalls : Nat
  deriving DecidableEq, Repr

/-- What the loop carries: the turn's context, the part of the engine it acts
on, and what it has done so far. -/
structure TurnState where
  engine : EngineState
  outBuf : Bytes
  eventPrefix : Bytes
  eventCount : Nat
  toolCycles : Nat
  toolCalls : Nat
  remainingTimeout : Int
  stream : Option ResponsesStreamState
  toolRuns : List (Bytes × Bytes)
  metrics : List TurnMetrics

/-- The ways out of the loop. -/
inductive TurnOutcome
  | completed
  | eventLimit
  | cancelledByClient
  | cancellationAcknowledged
  | timeout
  | idMismatch
  | agentError
  | toolCyclesExceeded
  deriving DecidableEq, Repr

/-- The return value of `turn_process_events`. -/
def TurnOutcome.ok : TurnOutcome → Bool
  | .completed | .eventLimit => true
  | _ => false

/-- How a turn ended, and what it left. -/
structure TurnEnd where
  outcome : TurnOutcome
  state : TurnState

/-- What the loop meets: connections pending on the listening socket, a frame,
or a read without one, with the connections that are pending if that read was
the last. -/
inductive LoopEvent
  | control (connections : List Bytes)
  | frame (text : Bytes)
  | idle (late : List Bytes)

/-! ## Parts of the loop body -/

/-- `append_text`, given the text in front of the offset. -/
def appendText (maxLen : Nat) (kept text : Bytes) : Bytes :=
  if maxLen ≤ kept.length then kept else kept ++ text.take (maxLen - kept.length - 1)

theorem zero_not_mem_appendText {maxLen : Nat} {kept text : Bytes} (hkept : 0 ∉ kept)
    (htext : 0 ∉ text) : 0 ∉ appendText maxLen kept text := by
  unfold appendText
  split
  · exact hkept
  · intro h
    rcases List.mem_append.mp h with h | h
    · exact hkept h
    · exact htext (List.mem_of_mem_take h)

/-- The notice for a compaction event without a message. -/
def defaultNotice : Bytes := lit "Native agent is compacting context."

/-- `append_compaction_notice`, into the 8192 bytes of `event_prefix`. -/
def appendCompactionNotice (kept message : Bytes) : Bytes :=
  let kept := appendText 8192 kept (lit "[COMPACT] ")
  let kept := appendText 8192 kept (if message = [] then defaultNotice else message)
  appendText 8192 kept (lit "\n")

/-- The response timeout, restored by every frame. -/
def TurnEnv.fullTimeout (env : TurnEnv) : Int :=
  if 0 < env.responseTimeoutMs then env.responseTimeoutMs else 60000

/-- The deadline of one read. -/
def TurnEnv.pollMs (env : TurnEnv) (remaining : Int) : Int :=
  let poll := if remaining < 2000 then remaining else 2000
  if env.controlPlane ∧ 100 < poll then 100 else poll

/-- `engine_send_error`. -/
def EngineState.sendError (env : TurnEnv) (errorType detail : Bytes) (eng : EngineState) :
    EngineState :=
  if env.stdinOpen then { eng with sent := eng.sent ++ [.error errorType detail] } else eng

/-- `emit_turn_metrics`. -/
def TurnState.emitMetrics (s : TurnState) (status : Bytes)
    (promptTokens completionTokens : Int) : TurnState :=
  { s with metrics := s.metrics ++
      [⟨status, s.outBuf.length, promptTokens, completionTokens, s.toolCalls⟩] }

/-- `snprintf` of a message into the output buffer. -/
def TurnState.say (env : TurnEnv) (message : Bytes) (s : TurnState) : TurnState :=
  { s with outBuf := clip env.outMax message }

/-- A heartbeat to a live client. -/
def TurnState.beat (s : TurnState) : TurnState :=
  { s with stream := s.stream.map ResponsesStreamState.beat }

/-- Emit a piece of text to a live client, and whether that was possible. -/
def TurnState.emitDelta (delta : Bytes) (s : TurnState) : TurnState × Bool :=
  match s.stream with
  | none => (s, true)
  | some stream =>
      match responsesStreamEmitTextDelta delta stream with
      | none => (s, false)
      | some stream => ({ s with stream := some stream }, true)

/-- One counted event. -/
def TurnState.count (s : TurnState) : TurnState :=
  { s with eventCount := s.eventCount + 1 }

/-- The test at the head of the loop. -/
def settle (env : TurnEnv) (s : TurnState) : Progress TurnState TurnEnd :=
  if (s.eventCount : Int) < env.maxTurnEvents then .running s
  else .ended ⟨.eventLimit, s.emitMetrics (lit "incomplete") 0 0⟩

/-- `handle_midturn_control_plane`, where the turn has a listening socket. -/
def TurnState.serveControl (env : TurnEnv) (connections : List Bytes) (s : TurnState) :
    TurnState :=
  if env.controlPlane then
    { s with engine := handleMidturnControlPlane env.control s.engine connections }
  else s

/-- The look at the control plane in front of a read. -/
def controlEvent (env : TurnEnv) (s : TurnState) (connections : List Bytes) :
    Progress TurnState TurnEnd :=
  let s := s.serveControl env connections
  if env.controlPlane ∧ s.engine.cancelled then
    .ended ⟨.cancelledByClient, (s.say env (lit "cancelled")).emitMetrics (lit "cancelled") 0 0⟩
  else .running s

/-- A read that ran into its deadline. -/
def idleEvent (env : TurnEnv) (s : TurnState) (late : List Bytes) :
    Progress TurnState TurnEnd :=
  let remaining := s.remainingTimeout - env.pollMs s.remainingTimeout
  let s := { s.beat with remainingTimeout := remaining }
  if remaining ≤ 0 then
    let s := (s.serveControl env late).say env (lit "native agent response timeout")
    let engine := s.engine.sendError env (lit "handshake_timeout")
      (lit "native agent response timeout")
    .ended ⟨.timeout, { s with engine }.emitMetrics (lit "timeout") 0 0⟩
  else .running s

/-! ## Frames -/

/-- `strstr(resp, ctx->request_id) != NULL`. -/
def echoesId (env : TurnEnv) (frame : Bytes) : Bool := occurs env.requestId (cstr frame)

/-- The text the loop takes for an event it may skip. -/
def isEventTagged (frame : Bytes) : Bool := occurs (lit "\"type\":\"event\"") (cstr frame)

/-- A `text_delta` frame. -/
def textDeltaFrame (env : TurnEnv) (s : TurnState) (text : Bytes) : TurnState :=
  let s := { s with outBuf := appendText env.outMax s.outBuf text }
  (if text = [] then s else (s.emitDelta text).1).count

/-- The notices of the turn at the start of the output buffer. -/
def TurnState.prefixed (env : TurnEnv) (s : TurnState) : Bytes :=
  if s.eventPrefix = [] then [] else appendText env.outMax [] s.eventPrefix

/-- A frame the loop copies into the answer. -/
def rawFrame (env : TurnEnv) (s : TurnState) (frame : Bytes) : TurnState :=
  let kept := s.prefixed env
  { s with outBuf := cstr (kept ++ frame.take (env.outMax - kept.length - 1)) }.count

/-- The frame that answers a tool intent; a tool that is not refused is run. -/
def answerTool (env : TurnEnv) (s : TurnState) (toolName toolArgs : Bytes) : TurnState :=
  match toolPolicyRefusal toolName toolArgs with
  | some kind =>
      { s with engine := { s.engine with sent := s.engine.sent ++
          [.toolError env.requestId toolName (toolPolicyErrorMessage kind)] } }
  | none =>
      let run := env.runTool toolName toolArgs
      let result := if run.1 then run.2 else lit "\x7b\"status\":\"error\"\x7d"
      { s with
        toolRuns := s.toolRuns ++ [(toolName, toolArgs)]
        engine := { s.engine with sent := s.engine.sent ++
          [.toolResult env.requestId toolName result] } }

/-- One more tool cycle. -/
def TurnState.countTool (s : TurnState) : TurnState :=
  { s with toolCycles := s.toolCycles + 1, toolCalls := s.toolCalls + 1 }

/-- A tool intent. -/
def toolIntentFrame (env : TurnEnv) (s : TurnState) (toolName toolArgs : Bytes) :
    Progress TurnState TurnEnd :=
  let s := s.countTool
  if 64 < s.toolCycles then
    .ended ⟨.toolCyclesExceeded, s.say env (lit "native agent tool cycle limit exceeded")⟩
  else .running (answerTool env s toolName toolArgs).count

/-- The loop that cuts a text into chunks of `size` bytes. -/
def chunks (size : Nat) : Nat → Bytes → List Bytes
  | 0, _ => []
  | fuel + 1, text =>
      if text = [] then [] else text.take size :: chunks size fuel (text.drop size)

/-- Emit chunks until one cannot be emitted. -/
def TurnState.emitChunks (s : TurnState) : List Bytes → TurnState
  | [] => s
  | chunk :: rest =>
      let emitted := s.emitDelta chunk
      if emitted.2 then emitted.1.emitChunks rest else emitted.1

/-- The output buffer with the text of a response in it. -/
def TurnState.answer (env : TurnEnv) (s : TurnState) (text : Bytes) : TurnState :=
  { s with outBuf := appendText env.outMax (s.prefixed env) text }

/-- A `response` frame.  The save of the session that follows is
`saveAfterTurn`. -/
def responseFrame (env : TurnEnv) (s : TurnState) (text : Bytes)
    (promptTokens completionTokens : Int) : TurnState :=
  let s := s.answer env text
  let s := if text = [] then s else s.emitChunks (chunks 4096 text.length text)
  s.emitMetrics (lit "completed") promptTokens completionTokens

/-- A compaction notice. -/
def compactionFrame (s : TurnState) (message : Bytes) : TurnState :=
  let notice := if message = [] then defaultNotice else message
  { s with eventPrefix := appendCompactionNotice s.eventPrefix notice }.count

/-- An `error` frame. -/
def errorFrame (env : TurnEnv) (s : TurnState) (message : Bytes) : TurnState :=
  let text := if message = [] then lit "native agent error" else message
  (s.say env text).emitMetrics (lit "error") 0 0

/-- What the loop does with an event, once its id has been looked at. -/
def dispatchEvent (env : TurnEnv) (s : TurnState) (frame : Bytes) (ev : NativeEvent) :
    Progress TurnState TurnEnd :=
  match ev.type, ev.data with
  | .textDelta, .response _ _ text .. => .running (textDeltaFrame env s text)
  | .compaction, .compaction _ message => .running (compactionFrame s message)
  | .cancelled, _ => .ended ⟨.cancellationAcknowledged, s⟩
  | .error, .error _ _ message => .ended ⟨.agentError, errorFrame env s message⟩
  | .toolIntent, .toolIntent _ toolName toolArgs => toolIntentFrame env s toolName toolArgs
  | .response, .response _ _ text promptTokens completionTokens =>
      .ended ⟨.completed, responseFrame env s text promptTokens completionTokens⟩
  | .unknown, _ =>
      if isEventTagged frame ∨ occurs (lit "thinking") (cstr frame) then .running s.count
      else .running (rawFrame env s frame)
  | _, _ => .running (rawFrame env s frame)

/-- A frame whose id is not the turn's: lifecycle frames are let through,
others end the turn. -/
def foreignFrame (env : TurnEnv) (s : TurnState) (ev : NativeEvent) :
    Progress TurnState TurnEnd :=
  if ev.type.isLifecycle then .running s
  else
    let s := s.say env (lit "native agent frame id mismatch")
    let engine := s.engine.sendError env (lit "request_id_mismatch")
      (lit "frame id does not match request id")
    .ended ⟨.idMismatch, { s with engine }⟩

/-- A frame. -/
def frameEvent (env : TurnEnv) (s : TurnState) (frame : Bytes) :
    Progress TurnState TurnEnd :=
  let s := { s.beat with remainingTimeout := env.fullTimeout }
  let ev := nativeParseFrame env.parser frame
  if ev.id ≠ [] ∧ ¬ echoesId env frame then foreignFrame env s ev
  else dispatchEvent env s frame ev

/-! ## The loop -/

/-- One round of the loop, and the test at its head. -/
def turnEvent (env : TurnEnv) (s : TurnState) (e : LoopEvent) :
    Progress TurnState TurnEnd :=
  (match e with
    | .control connections => controlEvent env s connections
    | .frame text => frameEvent env s text
    | .idle late => idleEvent env s late).bind (settle env)

/-- The state `turn_process_events` starts its loop in. -/
def TurnState.enter (env : TurnEnv) (s : TurnState) : TurnState :=
  { s with eventPrefix := [], eventCount := 0, toolCycles := 0,
           remainingTimeout := env.fullTimeout }

/-- `turn_process_events`, on what the loop meets. -/
def turnProcessEvents (env : TurnEnv) (s : TurnState) (events : List LoopEvent) :
    Progress TurnState TurnEnd :=
  (settle env (s.enter env)).bind fun s => run (turnEvent env) s events

/-- The turn `turn_context_init` and `turn_begin` hand to the event loop; the
stream is open iff the client asked for one. -/
def freshTurn (stream : Option ResponsesStreamState) : TurnState where
  engine := ⟨false, true, []⟩
  outBuf := []
  eventPrefix := []
  eventCount := 0
  toolCycles := 0
  toolCalls := 0
  remainingTimeout := 0
  stream := stream
  toolRuns := []
  metrics := []

/-- The text deltas a live client has been sent. -/
def TurnState.deltas (s : TurnState) : Bytes :=
  match s.stream with
  | none => []
  | some stream => stream.deltas

/-- A bridge with one agent, for request 2. -/
def sampleTurnEnv : TurnEnv where
  requestId := lit "req-2"
  codexModel := lit "m"
  stdinOpen := true
  responseTimeoutMs := 60000
  maxTurnEvents := 65536
  outMax := 65536
  controlPlane := true
  parser := ⟨id, fun _ => 0, fun _ => []⟩
  runTool := fun _ _ => (true, lit "\x7b\x7d")
  maxTurnEvents_int := by decide

end StarBridge
