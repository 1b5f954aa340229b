import StarBridge.SessionState

/-!
# The first phase of a turn

`turn_begin` puts the agent into the session the request belongs to and then
sends the request.  Which session that is and what is done about it depends on
the reset flag, the request's `previous_response_id`, the last session id, and
what the index holds: each of the three blocks of the function is one
definition here.  A failure on the way is reported to the agent in an error
frame, and the request is sent all the same.

The end of a completed turn saves the state of the session it ran in;
`runTurn` is the two together.
-/

namespace StarBridge

open CText

/-- One turn: the request, and what the agent and the clock do while it
runs. -/
structure TurnInput where
  requestNumber : Nat
  input : Bytes
  previousResponseId : Bytes
  reasoningEffort : Bytes
  resetSession : Bool
  toolHistory : Bytes
  resetSeconds : Nat
  resetNanoseconds : Nat
  metadata : Bytes
  now : Bytes
  saveReply : AgentReply
  openReply : AgentReply
  completes : Bool
  finalSaveReply : AgentReply

/-- What `turn_begin` did about the session: the state after it, the frames it
wrote, and the key for which `created`, `loaded` or `switched` came out
true. -/
structure SessionOutcome where
  world : SessionWorld
  frames : List AgentFrame
  opened : Option Bytes

/-- `can_load`, which is also `can_create`. -/
def SessionEnv.canLoad (env : SessionEnv) : Bool :=
  env.autoLoadProjectSession && env.kvCachePolicy ≠ lit "manual"

/-- The id made up for a reset session. -/
def resetSessionId (t : TurnInput) : Bytes :=
  clip 64 (lit "reset_" ++ decimal t.resetSeconds ++ lit "_" ++ decimal t.resetNanoseconds)

/-- A step that makes `sessionId` the last session when it succeeds and reports
an error when it does not. -/
def openAs (env : SessionEnv) (key sessionId errorType detail : Bytes)
    (step : SessionStep) : SessionOutcome :=
  if step.ok then
    ⟨{ step.world with lastSessionId := clip 256 sessionId }, step.frames, some key⟩
  else ⟨step.world, step.frames ++ engineSendError env errorType detail, none⟩

/-- The block of `turn_begin` for a reset session. -/
def beginReset (env : SessionEnv) (w : SessionWorld) (t : TurnInput) : SessionOutcome :=
  let key := sessionKey env.workspace (resetSessionId t)
  if key = [] then ⟨w, [], none⟩
  else
    openAs env key (resetSessionId t) (lit "session_create_failure")
      (lit "failed to create fresh session state")
      (engineCreateSessionState env key t.metadata t.now t.openReply w)

/-- The workspace and model checks made before a `load_state`: the state id, or
NULL with an error frame. -/
def checkStored (env : SessionEnv) (index : SessionIndex) (key stateId what : Bytes) :
    Option Bytes × List AgentFrame :=
  if (index.getWorkspace key).any (· ≠ env.workspace) then
    (none, engineSendError env (lit "session_incompatible_state")
      (lit "workspace mismatch: cannot " ++ what))
  else if (index.getModelId key).any (· ≠ env.codexModel) then
    (none, engineSendError env (lit "session_incompatible_state")
      (lit "model mismatch: cannot " ++ what))
  else (some stateId, [])

/-- `load_session_index`, in place. -/
def reloadIndex (env : SessionEnv) (w : SessionWorld) : SessionWorld :=
  { w with index := w.index.load env.numberToInt w.file }

/-- The default session's state in the index, if it may be restored. -/
def usableDefault (env : SessionEnv) (index : SessionIndex) (key : Bytes) :
    Option Bytes × List AgentFrame :=
  match index.lookup key with
  | none => (none, [])
  | some stateId => checkStored env index key stateId (lit "restore default session")

/-- The block of `turn_begin` for a first turn without a session id. -/
def beginDefault (env : SessionEnv) (w : SessionWorld) (t : TurnInput) : SessionOutcome :=
  let key := sessionKey env.workspace (lit "default")
  if key = [] then ⟨w, [], none⟩
  else
    let w := reloadIndex env w
    let (usable, errors) := usableDefault env w.index key
    let outcome :=
      match usable with
      | some stateId =>
          openAs env key (lit "default") (lit "session_corrupt_state")
            (lit "failed to load default session: native agent returned error")
            (engineLoadSessionState key stateId t.now t.openReply w)
      | none =>
          -- the new state is filed under the id `key`, not under "default"
          openAs env key key (lit "session_create_failure")
            (lit "failed to create default session state")
            (engineCreateSessionState env key t.metadata t.now t.openReply w)
    { outcome with frames := errors ++ outcome.frames }

/-- Save the state of the session before, on the way to another. -/
def savePrevious (env : SessionEnv) (oldKey : Bytes) (w : SessionWorld)
    (t : TurnInput) : SessionWorld × List AgentFrame :=
  match w.index.lookup oldKey with
  | none => (w, [])
  | some oldStateId =>
      if env.autoSaveKvCache then
        let step := engineSaveSessionState oldKey oldStateId t.saveReply w
        (step.world, step.frames ++
          if step.ok then [] else
            engineSendError env (lit "session_save_failure")
              (lit "failed to save previous session state"))
      else (w, [])

/-- A step that reports an error when it fails and leaves the last session id
to its caller. -/
def openOrReport (env : SessionEnv) (key errorType detail : Bytes)
    (step : SessionStep) : SessionOutcome :=
  if step.ok then ⟨step.world, step.frames, some key⟩
  else ⟨step.world, step.frames ++ engineSendError env errorType detail, none⟩

/-- The session switch: the turn is for another session than the last one. -/
def switchSession (env : SessionEnv) (key : Bytes) (w : SessionWorld)
    (t : TurnInput) : SessionOutcome :=
  let oldKey := sessionKey env.workspace w.lastSessionId
  let (w, saves) := savePrevious env oldKey w t
  let outcome :=
    match w.index.lookup key with
    | some stateId =>
        if env.canLoad then
          -- no workspace or model check on this route
          openOrReport env key (lit "session_switch_failure")
            (lit "native agent failed to switch session state")
            (engineSwitchSessionState oldKey key stateId t.openReply w)
        else ⟨w, [], none⟩
    | none =>
        ⟨w, if env.canLoad then
            engineSendError env (lit "session_state_missing")
              (lit "target session state not found in index")
          else [], none⟩
  { outcome with frames := saves ++ outcome.frames }

/-- The first load: no session was active before. -/
def firstLoad (env : SessionEnv) (key : Bytes) (w : SessionWorld)
    (t : TurnInput) : SessionOutcome :=
  match w.index.lookup key with
  | some stateId =>
      if env.canLoad then
        match checkStored env w.index key stateId (lit "load saved state") with
        | (none, errors) => ⟨w, errors, none⟩
        | (some stateId, _) =>
            openOrReport env key (lit "session_corrupt_state")
              (lit "failed to load KV cache: native agent returned error")
              (engineLoadSessionState key stateId t.now t.openReply w)
      else ⟨w, [], none⟩
  | none =>
      ⟨w, if env.canLoad then
          engineSendError env (lit "session_state_missing")
            (lit "no saved state found for this session")
        else [], none⟩

/-- The block of `turn_begin` for a known session id. -/
def beginNamed (env : SessionEnv) (w : SessionWorld) (t : TurnInput)
    (sessionId : Bytes) : SessionOutcome :=
  let key := sessionKey env.workspace sessionId
  if key = [] then ⟨w, [], none⟩
  else
    let w := reloadIndex env w
    let outcome :=
      if w.lastSessionId ≠ [] ∧ w.lastSessionId ≠ sessionId then switchSession env key w t
      else if w.lastSessionId = [] then firstLoad env key w t
      else ⟨w, [], none⟩
    { outcome with
      world := { outcome.world with lastSessionId := clip 256 sessionId } }

/-- The session part of `turn_begin`. -/
def beginSession (env : SessionEnv) (w : SessionWorld) (t : TurnInput) : SessionOutcome :=
  if t.resetSession then beginReset env w t
  else if t.previousResponseId ≠ [] then beginNamed env w t t.previousResponseId
  else if w.lastSessionId ≠ [] then beginNamed env w t w.lastSessionId
  else if env.canLoad then beginDefault env w t
  else ⟨w, [], none⟩

/-- The arguments `turn_begin` builds the request frame from. -/
def requestArgs (env : SessionEnv) (t : TurnInput) : RequestArgs :=
  { requestId := lit "req-" ++ decimal t.requestNumber
    input := t.input
    reasoningEffort := t.reasoningEffort
    previousResponseId := t.previousResponseId
    autoLoadResumeSession := env.autoLoadResumeSession
    contextTokens := env.contextTokens
    resetSession := t.resetSession
    toolHistory :=
      if env.hideToolTranscripts ∨ t.toolHistory = [] ∨ t.toolHistory = lit "[]" then none
      else some t.toolHistory }

/-- A call of `turn_begin`: what it returns, the state after it and the frames
it wrote. -/
structure TurnBegun where
  returned : Bool
  outcome : SessionOutcome
  frames : List AgentFrame

/-- `turn_begin`. -/
def turnBegin (env : SessionEnv) (w : SessionWorld) (t : TurnInput) : TurnBegun :=
  let outcome := beginSession env w t
  ⟨true, outcome, outcome.frames ++ [.request (requestArgs env t)]⟩

/-- The save at the end of a completed turn in `turn_process_events`. -/
def saveAfterTurn (env : SessionEnv) (w : SessionWorld) (t : TurnInput) : SessionStep :=
  if w.lastSessionId ≠ [] ∧ env.autoSaveKvCache then
    let key := sessionKey env.workspace w.lastSessionId
    if key = [] then ⟨false, w, []⟩
    else
      let w := reloadIndex env w
      match w.index.lookup key with
      | some stateId => engineSaveSessionState key stateId t.finalSaveReply w
      | none => ⟨false, w, []⟩
  else ⟨false, w, []⟩

/-- The frames a turn writes after its request. -/
def finalFrames (env : SessionEnv) (w : SessionWorld) (t : TurnInput) : List AgentFrame :=
  if t.completes then (saveAfterTurn env (turnBegin env w t).outcome.world t).frames else []

/-- The session state after a whole turn. -/
def runTurn (env : SessionEnv) (w : SessionWorld) (t : TurnInput) : SessionWorld :=
  let begun := turnBegin env w t
  if t.completes then (saveAfterTurn env begun.outcome.world t).world else begun.outcome.world

/-- The session a turn belongs to. -/
def effectiveSession (w : SessionWorld) (t : TurnInput) : Bytes :=
  if t.resetSession then resetSessionId t
  else if t.previousResponseId ≠ [] then t.previousResponseId
  else if w.lastSessionId ≠ [] then w.lastSessionId
  else lit "default"

end StarBridge
