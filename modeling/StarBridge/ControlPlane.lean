import StarBridge.SessionIndex

/-!
# The control plane inside a turn

While a turn runs, the bridge looks at its listening socket between two reads
from the agent and serves what is pending there: a model query, a cancellation,
and a refusal for everything else.  It reads a connection once, takes the first
two words of what it got for method and path, and looks at nothing else: no
header plays a part.
-/

namespace StarBridge

open CText

/-- A frame the bridge writes to the agent while a turn runs, by the arguments
of the function that builds it. -/
inductive BridgeFrame
  | toolResult (requestId toolName resultJson : Bytes)
  | toolError (requestId toolName message : Bytes)
  | error (errorType detail : Bytes)
  | cancel (requestId : Bytes)
  deriving DecidableEq, Repr

/-- The part of the engine that the control plane and the event loop act on. -/
structure EngineState where
  cancelled : Bool
  turnActive : Bool
  sent : List BridgeFrame
  deriving DecidableEq, Repr

/-- `engine_cancel`: the frame is written once. -/
def engineCancel (stdinOpen : Bool) (currentRequestId : Bytes) (eng : EngineState) :
    EngineState :=
  if eng.cancelled then eng
  else if stdinOpen then
    let reqId := if currentRequestId = [] then lit "cancel-1" else currentRequestId
    { eng with cancelled := true, sent := eng.sent ++ [.cancel reqId] }
  else { eng with cancelled := true }

/-- `engine_set_turn_active`. -/
def engineSetTurnActive (active : Bool) (eng : EngineState) : EngineState :=
  { eng with turnActive := active }

/-- An HTTP answer: its status code and its body. -/
structure HttpReply where
  status : Nat
  body : Bytes
  deriving DecidableEq, Repr

/-- The bytes `%s` of `sscanf` skips and stops at. -/
def isSpace (c : UInt8) : Bool := c = 32 || (9 ≤ c && c ≤ 13)

/-- One `%<width>s` of `sscanf`. -/
def scanWord (width : Nat) (s : Bytes) : Option (Bytes × Bytes) :=
  let s := s.dropWhile isSpace
  let word := (s.takeWhile fun c => ¬ isSpace c).take width
  if word = [] then none else some (word, s.drop word.length)

/-- `sscanf(buf, "%15s %511s", method, path)`, when it reads both. -/
def scanRequestLine (buf : Bytes) : Option (Bytes × Bytes) :=
  match scanWord 15 (cstr buf) with
  | none => none
  | some (method, rest) => (scanWord 511 rest).map fun (path, _) => (method, path)

/-- What the mid-turn control plane makes of a request line. -/
inductive MidturnRoute
  | models
  | cancel
  | conflict
  | notFound
  deriving DecidableEq, Repr

/-- The comparisons of `handle_midturn_control_plane`. -/
def midturnRoute (method path : Bytes) : MidturnRoute :=
  if method = lit "GET" ∧ path = lit "/v1/models" then .models
  else if method = lit "DELETE" ∧ (lit "/v1/responses/").isPrefixOf path then .cancel
  else if method = lit "POST" ∧ path = lit "/v1/responses" then .conflict
  else .notFound

/-- What the control plane reads of the bridge. -/
structure ControlEnv where
  codexModel : Bytes
  currentRequestId : Bytes
  stdinOpen : Bool

/-- The model list the control plane answers with. -/
def midturnModels (codexModel : Bytes) : Bytes :=
  clip 4096
    (lit "\x7b\"object\":\"list\",\"data\":[\x7b\"id\":\"" ++
      (if codexModel = [] then lit "star-bridge-ds4" else codexModel) ++
      lit "\",\"object\":\"model\",\"created\":1700000000,\"owned_by\":\"Star Bridge Local\",\"tools\":[]\x7d]\x7d")

/-- The answer to one route, and the engine after it. -/
def serveMidturnRoute (env : ControlEnv) (eng : EngineState) :
    MidturnRoute → HttpReply × EngineState
  | .models => (⟨200, midturnModels env.codexModel⟩, eng)
  | .cancel =>
      (⟨200, lit "\x7b\"object\":\"response\",\"status\":\"cancelled\"\x7d"⟩,
        engineSetTurnActive false (engineCancel env.stdinOpen env.currentRequestId eng))
  | .conflict =>
      (⟨409, lit "\x7b\"object\":\"error\",\"type\":\"conflict\",\"code\":\"turn_active\",\"message\":\"A turn is already in progress for this session.\"\x7d"⟩,
        eng)
  | .notFound =>
      (⟨404, lit "\x7b\"object\":\"error\",\"type\":\"not_found\",\"message\":\"Not found\"\x7d"⟩,
        eng)

/-- One connection: its single read, at most 4095 bytes of what was sent.  It
is closed without an answer when nothing was read or there are no two words. -/
def serveMidturn (env : ControlEnv) (eng : EngineState) (sent : Bytes) :
    Option HttpReply × EngineState :=
  match scanRequestLine (sent.take 4095) with
  | none => (none, eng)
  | some (method, path) =>
      let served := serveMidturnRoute env eng (midturnRoute method path)
      (some served.1, served.2)

/-- `handle_midturn_control_plane`: the pending connections, one after
another. -/
def handleMidturnControlPlane (env : ControlEnv) (eng : EngineState)
    (connections : List Bytes) : EngineState :=
  connections.foldl (fun eng sent => (serveMidturn env eng sent).2) eng

/-- A pending connection that cancels the turn. -/
def isCancellation (sent : Bytes) : Bool :=
  match scanRequestLine (sent.take 4095) with
  | none => false
  | some (method, path) => midturnRoute method path = .cancel

/-- Nothing but a cancellation touches the engine. -/
theorem serveMidturn_engine (env : ControlEnv) (eng : EngineState) (sent : Bytes) :
    (serveMidturn env eng sent).2 =
      bif isCancellation sent then
        engineSetTurnActive false (engineCancel env.stdinOpen env.currentRequestId eng)
      else eng := by
  unfold serveMidturn isCancellation
  cases scanRequestLine (sent.take 4095) with
  | none => rfl
  | some words =>
      obtain ⟨method, path⟩ := words
      dsimp only
      cases midturnRoute method path with
      | models => rfl
      | cancel => rfl
      | conflict => rfl
      | notFound => rfl

end StarBridge
