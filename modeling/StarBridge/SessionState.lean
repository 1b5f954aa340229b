import StarBridge.SessionIndex

/-!
# Session states at the agent

The bridge asks the agent to create, load, switch or save the state of a
session and reads one frame as the answer.  The agent holds one active state,
whose key it learned from the last such request it accepted; what it made of a
request and what the bridge then reads are two things, since answers can be
rejected, lost or stale.

Session frames are kept by their fields; `AgentFrame.text` is what is written.
A field is escaped into a buffer of fixed size on the way, so the key the agent
reads is `readBack` of the key the bridge meant.
-/

namespace StarBridge

open CText

/-- A frame about the state of a session. -/
inductive SessionFrame
  | loadState (key stateId : Bytes)
  | saveState (key stateId : Bytes)
  | switchState (fromKey toKey stateId : Bytes)
  | createState (key projectRoot modelId : Bytes) (contextBudget : Int)
      (metadata : Bytes)
  deriving DecidableEq, Repr

/-- The arguments of `frame_build_request`. -/
structure RequestArgs where
  requestId : Bytes
  input : Bytes
  reasoningEffort : Bytes
  previousResponseId : Bytes
  autoLoadResumeSession : Bool
  contextTokens : Int
  resetSession : Bool
  toolHistory : Option Bytes
  deriving DecidableEq, Repr

/-- A frame `turn_begin` writes to the agent. -/
inductive AgentFrame
  | session (frame : SessionFrame)
  | error (errorType detail : Bytes)
  | request (args : RequestArgs)
  deriving DecidableEq, Repr

/-- The text of a session frame. -/
def SessionFrame.text : SessionFrame → Bytes
  | .loadState key stateId =>
      lit "\x7b\"type\":\"load_state\",\"key\":\"" ++ jsonEscape key 256 ++
        lit "\",\"state_id\":\"" ++ jsonEscape stateId 256 ++ lit "\"\x7d"
  | .saveState key stateId =>
      lit "\x7b\"type\":\"save_state\",\"key\":\"" ++ jsonEscape key 256 ++
        lit "\",\"state_id\":\"" ++ jsonEscape stateId 256 ++ lit "\"\x7d"
  | .switchState fromKey toKey stateId =>
      lit "\x7b\"type\":\"switch_state\",\"from_key\":\"" ++ jsonEscape fromKey 256 ++
        lit "\",\"to_key\":\"" ++ jsonEscape toKey 256 ++
        lit "\",\"state_id\":\"" ++ jsonEscape stateId 256 ++ lit "\"\x7d"
  | .createState key projectRoot modelId contextBudget metadata =>
      lit "\x7b\"type\":\"create_state\",\"key\":\"" ++ jsonEscape key 256 ++
        lit "\",\"project_root\":\"" ++ jsonEscape projectRoot 512 ++
        lit "\",\"model_id\":\"" ++ jsonEscape modelId 256 ++
        lit "\",\"context_budget\":" ++ signedDecimal contextBudget ++
        lit ",\"metadata\":" ++ metadata ++ lit "\x7d"

/-- The buffer a session frame is printed into. -/
def SessionFrame.bufferSize : SessionFrame → Nat
  | .createState .. => 1536
  | _ => 1024

/-- `snprintf` printed the whole frame. -/
def SessionFrame.Fits (frame : SessionFrame) : Prop :=
  frame.text.length < frame.bufferSize

instance (frame : SessionFrame) : Decidable frame.Fits :=
  inferInstanceAs (Decidable (_ < _))

/-- What the agent's JSON reader makes of a field that was escaped into 256
bytes. -/
def readBack (field : Bytes) : Bytes :=
  (CJson.decodeBody (jsonEscape field 256)).getD []

/-- A key comes back whole, or cut where the 256 bytes ran out. -/
theorem readBack_prefix (field : Bytes) :
    ∃ cut, cstr field = readBack field ++ cut ∧
      (cut ≠ [] → 256 ≤ (escapeAll (readBack field)).length + 8) := by
  obtain ⟨kept, cut, hsplit, hrun, hcut⟩ := jsonEscape_prefix field 256
  have hread : readBack field = kept := by
    rw [readBack, hrun, CJson.decodeBody_escapeAll]
    rfl
  exact ⟨cut, by rw [hread, hsplit], by rwa [hread]⟩

/-- The frames that load, save or switch always fit their buffer. -/
theorem SessionFrame.fits_of_bufferSize {f : SessionFrame} (h : f.bufferSize = 1024) :
    f.Fits := by
  have hesc : ∀ field : Bytes, (jsonEscape field 256).length < 256 := fun field =>
    jsonEscape_length_lt (by decide) field
  cases f with
  | loadState key stateId =>
      have h₁ := hesc key
      have h₂ := hesc stateId
      simp [SessionFrame.Fits, SessionFrame.text, SessionFrame.bufferSize, lit]
      omega
  | saveState key stateId =>
      have h₁ := hesc key
      have h₂ := hesc stateId
      simp [SessionFrame.Fits, SessionFrame.text, SessionFrame.bufferSize, lit]
      omega
  | switchState fromKey toKey stateId =>
      have h₁ := hesc fromKey
      have h₂ := hesc toKey
      have h₃ := hesc stateId
      simp [SessionFrame.Fits, SessionFrame.text, SessionFrame.bufferSize, lit]
      omega
  | createState => simp [SessionFrame.bufferSize] at h

/-- The key of the state a frame asks the agent to make active. -/
def SessionFrame.opens : SessionFrame → Option Bytes
  | .loadState key _ => some (readBack key)
  | .switchState _ key _ => some (readBack key)
  | .createState key .. => some (readBack key)
  | .saveState .. => none

/-- What comes of one session frame: whether the agent accepts it, and the
frame the bridge reads in answer. -/
structure AgentReply where
  accepts : Bool
  ack : Option Bytes
  deriving DecidableEq, Repr

/-- The bridge's configuration and engine fields that no turn changes. -/
structure SessionEnv where
  workspace : Bytes
  codexModel : Bytes
  contextTokens : Int
  autoLoadProjectSession : Bool
  kvCachePolicy : Bytes
  autoSaveKvCache : Bool
  autoLoadResumeSession : Bool
  hideToolTranscripts : Bool
  stdinOpen : Bool
  numberToInt : Bytes → Int

/-- The bridge's session state, the index file, and the key the agent is
active under. -/
structure SessionWorld where
  index : SessionIndex
  file : Option Bytes
  lastSessionId : Bytes
  agentKey : Option Bytes

/-- What a step does: its return value, the state after it, and the frames it
wrote. -/
structure SessionStep where
  ok : Bool
  world : SessionWorld
  frames : List AgentFrame

/-- `engine_send_error`. -/
def engineSendError (env : SessionEnv) (errorType detail : Bytes) : List AgentFrame :=
  if env.stdinOpen then [.error errorType detail] else []

/-- The test the bridge makes of an answer. -/
def ackAccepted (ack : Bytes) : Bool :=
  occurs (lit "\"type\":\"ack\"") (cstr ack) &&
    occurs (lit "\"status\":\"accepted\"") (cstr ack)

/-- The bridge read an answer and took it for an acceptance. -/
def AgentReply.acknowledged (reply : AgentReply) : Bool :=
  reply.ack.any ackAccepted

/-- The state id an answer reports. -/
def ackStateId (ack : Bytes) : Option Bytes :=
  match after (lit "\"state_id\":\"") (cstr ack) with
  | none => none
  | some rest =>
      let stateId := upTo 34 rest
      if 34 ∈ rest ∧ stateId ≠ [] ∧ stateId.length < 256 then some stateId else none

/-- The agent acts on a frame. -/
def deliver (frame : SessionFrame) (reply : AgentReply) (world : SessionWorld) :
    SessionWorld :=
  match frame.opens with
  | some key => if reply.accepts then { world with agentKey := some key } else world
  | none => world

/-- `session_index_update` and `save_session_index`, when the answer reports a
state id. -/
def recordState (key workspaceRoot modelId : Bytes) (contextBudget : Int)
    (now : Bytes) (ack : Bytes) (world : SessionWorld) : SessionWorld :=
  match ackStateId ack with
  | none => world
  | some stateId =>
      let updated := world.index.update key stateId workspaceRoot modelId
        contextBudget now
      { world with index := (updated.save world.file).1
                   file := (updated.save world.file).2 }

/-- Write a session frame and read the answer; `onAck` is what is done with
it. -/
def exchange (frame : SessionFrame) (reply : AgentReply)
    (onAck : Bytes → SessionWorld → SessionWorld) (world : SessionWorld) :
    SessionStep :=
  if ¬ frame.Fits then ⟨false, world, []⟩
  else
    let world := deliver frame reply world
    match reply.ack with
    | none => ⟨false, world, [.session frame]⟩
    | some ack => ⟨ackAccepted ack, onAck ack world, [.session frame]⟩

/-- `engine_load_session_state`. -/
def engineLoadSessionState (key stateId now : Bytes) (reply : AgentReply)
    (world : SessionWorld) : SessionStep :=
  exchange (.loadState key stateId) reply (recordState key [] [] 0 now) world

/-- `engine_save_session_state`. -/
def engineSaveSessionState (key stateId : Bytes) (reply : AgentReply)
    (world : SessionWorld) : SessionStep :=
  exchange (.saveState key stateId) reply (fun _ w => w) world

/-- `engine_switch_session_state`. -/
def engineSwitchSessionState (fromKey toKey toStateId : Bytes) (reply : AgentReply)
    (world : SessionWorld) : SessionStep :=
  exchange (.switchState fromKey toKey toStateId) reply (fun _ w => w) world

/-- `engine_create_session_state`. -/
def engineCreateSessionState (env : SessionEnv) (key metadata now : Bytes)
    (reply : AgentReply) (world : SessionWorld) : SessionStep :=
  exchange (.createState key env.workspace env.codexModel env.contextTokens metadata)
    reply (recordState key env.workspace env.codexModel env.contextTokens now) world

end StarBridge
