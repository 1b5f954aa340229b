import StarBridge.ControlPlane

/-!
# The accept loop

Between turns `start_codex_api_server` takes one connection after another.  A
request passes the check of its token and the check of its host, and is then
routed by method and path.  The request is a C string here as it is there: what
follows a zero byte does not exist, and a header is found by searching the text
for it.
-/

namespace StarBridge

open CText

/-- The settings the server reads. -/
structure ServerConfig where
  authToken : Bytes
  bindHost : Bytes
  hostAllowlist : Bytes
  codexModel : Bytes
  codexModelAlias : Bytes
  codexModelDisplayName : Bytes
  trace : Bool

/-- The line break of HTTP. -/
def crlf : Bytes := [13, 10]

/-! ## Headers -/

/-- `strncasecmp(s, name, strlen(name)) == 0`. -/
def startsWithCi (name s : Bytes) : Bool :=
  (s.take name.length).map CJson.toLower == name.map CJson.toLower

/-- `find_header_ci`: the text from the first occurrence of the needle on. -/
def findHeaderCi (needle : Bytes) : Bytes → Option Bytes
  | [] => none
  | c :: rest =>
      if startsWithCi needle (c :: rest) then some (c :: rest)
      else findHeaderCi needle rest

/-- A blank inside a header line. -/
def isBlank (c : UInt8) : Bool := c = 32 || c = 9

/-- The loop of `find_header_value` over the lines in front of the last `left`
bytes of the request.  The value runs on to the end of the request. -/
def findHeaderLine (name : Bytes) (left : Nat) : Nat → Bytes → Option Bytes
  | 0, _ => none
  | fuel + 1, line =>
      if line.length ≤ left then none
      else
        let len := min (before crlf line).length (line.length - left)
        let value := line.drop (name.length + 1)
        if name.length < len ∧ startsWithCi name line ∧ (line.drop name.length).head? = some 58 then
          some (value.drop ((value.take (len - name.length - 1)).takeWhile isBlank).length)
        else if line.length - left ≤ len then none
        else findHeaderLine name left fuel (line.drop (len + 2))

/-- `find_header_value`. -/
def findHeaderValue (name raw : Bytes) : Option Bytes :=
  match after (crlf ++ crlf) raw with
  | none => none
  | some body => findHeaderLine name (body.length + 4) raw.length raw

/-! ## Admission -/

/-- The token of an `Authorization` value, behind its scheme. -/
def authCredentials (value : Bytes) : Option Bytes :=
  if (lit "Bearer ").isPrefixOf value then some (value.drop 7)
  else if (lit "Token ").isPrefixOf value then some (value.drop 6)
  else none

/-- The refusal of a request for its token, if it is refused. -/
def refuseAuth (cfg : ServerConfig) (raw : Bytes) : Option HttpReply :=
  if cfg.authToken = [] ∨ (lit "OPTIONS ").isPrefixOf raw then none
  else
    match findHeaderCi (lit "authorization: ") raw with
    | none => some ⟨401, lit "\x7b\"error\":\"missing auth\"\x7d"⟩
    | some found =>
        match authCredentials ((found.drop 15).dropWhile (· = 32)) with
        | none => some ⟨401, lit "\x7b\"error\":\"missing Bearer/Token prefix\"\x7d"⟩
        | some rest =>
            let token := before crlf rest
            if token = [] ∨ token ≠ cfg.authToken then
              some ⟨401, lit "\x7b\"error\":\"invalid auth\"\x7d"⟩
            else none

/-- The hosts every bridge answers to. -/
def loopbackHosts : List Bytes :=
  [lit "127.0.0.1", lit "localhost", lit "::1", lit "::ffff:127.0.0.1"]

/-- `host_is_allowed`. -/
def hostIsAllowed (cfg : ServerConfig) (host : Bytes) : Bool :=
  if host = [] then false
  else loopbackHosts.contains host || (cfg.bindHost ≠ [] && host == cfg.bindHost) ||
    (cfg.hostAllowlist.splitOnP fun c => c = 32 || c = 44).contains host

/-- The host in the value of a `Host` header is allowed. -/
def hostValueAllowed (cfg : ServerConfig) (value : Bytes) : Bool :=
  let p := value.dropWhile isBlank
  if p.head? = some 91 then
    -- an IPv6 address, up to the next bracket wherever that is
    if p.contains 93 then
      let host := (upTo 93 p ++ [93]).take 255
      host == lit "[::1]" || (cfg.bindHost ≠ [] && host == cfg.bindHost) ||
        hostIsAllowed cfg host
    else false
  else
    let line := p.takeWhile fun c => c ≠ 13 && c ≠ 10
    let host := if line.contains 58 ∧ upTo 58 line ≠ [] then upTo 58 line else line
    hostIsAllowed cfg (host.take 255)

/-- `validate_host_header`. -/
def validateHostHeader (cfg : ServerConfig) (raw : Bytes) : Bool :=
  if (lit "OPTIONS ").isPrefixOf raw then true
  else
    match findHeaderValue (lit "Host") raw with
    | none => false
    | some value => hostValueAllowed cfg value

/-- The refusal of a request, if it is refused. -/
def refuse (cfg : ServerConfig) (raw : Bytes) : Option HttpReply :=
  match refuseAuth cfg raw with
  | some reply => some reply
  | none =>
      if validateHostHeader cfg raw then none
      else some ⟨403, lit "\x7b\"error\":\"Host not in allowlist\"\x7d"⟩

/-! ## Routes -/

/-- The method and the path in the request line. -/
def requestLine (raw : Bytes) : Bytes × Bytes :=
  match after [32] raw with
  | none => ([], [])
  | some target =>
      let method := (upTo 32 raw).take 15
      if target.contains 32 then (method, (upTo 63 (upTo 32 target)).take 255)
      else (method, [])

/-- The routes of the accept loop. -/
inductive IdleRoute
  | options
  | health
  | models
  | debugSession
  | compact
  | responses
  | cancel
  | notFound
  deriving DecidableEq, Repr

/-- The comparisons of the accept loop. -/
def idleRoute (method path : Bytes) : IdleRoute :=
  if method = lit "OPTIONS" ∧ path = lit "/" then .options
  else if method = lit "GET" ∧ path = lit "/health" then .health
  else if method = lit "GET" ∧ (path = lit "/v1/models" ∨ path = lit "/models") then .models
  else if method = lit "GET" ∧ path = lit "/debug/session" then .debugSession
  else if method = lit "POST" ∧
      (path = lit "/v1/responses/compact" ∨ path = lit "/responses/compact") then .compact
  else if method = lit "POST" ∧ (path = lit "/v1/responses" ∨ path = lit "/responses") then
    .responses
  else if method = lit "DELETE" ∧
      ((lit "/v1/responses/").isPrefixOf path ∨ (lit "/responses/").isPrefixOf path) then
    .cancel
  else .notFound

/-- The functions a request is handed to with the engine in hand. -/
inductive Handler
  | engineHealthCheck
  | buildDebugSessionJson
  | handleCompact
  | handleResponse
  deriving DecidableEq, Repr

/-- What a connection leads to: an answer, or a function that works on the
engine and answers itself; and the engine as it is then. -/
structure Outcome where
  reply : Option HttpReply
  handler : Option Handler
  engine : EngineState
  deriving DecidableEq, Repr

/-- `handle_models`. -/
def handleModels (cfg : ServerConfig) : HttpReply :=
  let modelId := if cfg.codexModel = [] then lit "star-bridge-ds4" else cfg.codexModel
  let name := if cfg.codexModelAlias = [] then modelId else cfg.codexModelAlias
  let display := if cfg.codexModelDisplayName = [] then name else cfg.codexModelDisplayName
  ⟨200, clip 8192
    (lit "\x7b\"object\":\"list\",\"data\":[\x7b\"id\":\"" ++ modelId ++
      lit "\",\"object\":\"model\",\"name\":\"" ++ name ++ lit "\",\"display_name\":\"" ++
      display ++ lit "\",\"owned_by\":\"Star Bridge Local\",\"tools\":[]\x7d]\x7d")⟩

/-- Whether a turn is running. -/
inductive BridgeMode
  | idle
  | midTurn
  deriving DecidableEq, Repr

/-- The bridge a request meets. -/
structure Bridge where
  config : ServerConfig
  mode : BridgeMode
  currentRequestId : Bytes
  stdinOpen : Bool
  engine : EngineState

/-- The control plane of a turn serves under the settings of the bridge. -/
def Bridge.control (b : Bridge) : ControlEnv :=
  ⟨b.config.codexModel, b.currentRequestId, b.stdinOpen⟩

/-- What the accept loop does for a route. -/
def Bridge.serveRoute (b : Bridge) : IdleRoute → Outcome
  | .options => ⟨some ⟨200, []⟩, none, b.engine⟩
  | .health => ⟨none, some .engineHealthCheck, b.engine⟩
  | .models => ⟨some (handleModels b.config), none, b.engine⟩
  | .debugSession =>
      if b.config.trace then ⟨none, some .buildDebugSessionJson, b.engine⟩
      else ⟨some ⟨404, lit "\x7b\"error\":\"trace disabled\"\x7d"⟩, none, b.engine⟩
  | .compact => ⟨none, some .handleCompact, b.engine⟩
  | .responses => ⟨none, some .handleResponse, b.engine⟩
  | .cancel =>
      ⟨some ⟨200, lit "\x7b\"status\":\"cancelled\"\x7d"⟩, none,
        engineCancel b.stdinOpen b.currentRequestId b.engine⟩
  | .notFound => ⟨some ⟨404, lit "\x7b\"error\":\"not found\"\x7d"⟩, none, b.engine⟩

/-- The route of a request between turns. -/
def routeOf (raw : Bytes) : IdleRoute :=
  idleRoute (requestLine (cstr raw)).1 (requestLine (cstr raw)).2

/-- One connection between turns; nothing read is no request. -/
def Bridge.serveIdle (b : Bridge) (raw : Bytes) : Outcome :=
  if raw = [] then ⟨none, none, b.engine⟩
  else
    match refuse b.config (cstr raw) with
    | some reply => ⟨some reply, none, b.engine⟩
    | none => b.serveRoute (routeOf raw)

/-- One connection, in either state of the bridge. -/
def Bridge.serve (b : Bridge) (raw : Bytes) : Outcome :=
  match b.mode with
  | .idle => b.serveIdle raw
  | .midTurn =>
      let served := serveMidturn b.control b.engine raw
      ⟨served.1, none, served.2⟩

end StarBridge
