import StarBridge.Heartbeat
import StarBridge.HttpRequest
import StarBridge.OutputLoss
import StarBridge.StreamTerminals

/-!
# One response per request

A response begins with a status line and its headers.  They are written in the
handlers, in the functions these call, and once more by some callers when a
function has failed.  Here every handler is the list of what it begins on its
client's connection, and `answered_once_iff` says for which requests that is one
response.
-/

namespace StarBridge

open CText

/-- The beginning of a response: of one with a length, with its body behind it,
or of an event stream. -/
inductive ResponseHead
  | http (reply : HttpReply)
  | eventStream
  deriving DecidableEq, Repr

/-- `send_http`. -/
def sendHttp (status : Nat) (body : Bytes) : ResponseHead := .http ⟨status, body⟩

/-- An error object behind its status. -/
def sendError (status : Nat) (message : Bytes) : ResponseHead :=
  sendHttp status (codexSerializeError message)

/-! ## The request -/

/-- What a handler keeps of a parsed request. -/
structure HarnessRequest where
  stream : Bool
  deriving DecidableEq, Repr

/-- The allocations that may fail: the request, the input for the agent, the
state of a live stream, and that of a stream of a stdio agent. -/
structure Allocations where
  request : Bool
  input : Bool
  liveStream : Bool
  streamState : Bool

/-- How the turn of a request went, and its output buffer. -/
structure TurnReport where
  outcome : FramedOutcome
  outBuf : Bytes

/-- The bridge as a request finds it, and what the functions come to that the
request has to wait for.  `normalize` is `normalize_request_text`: the text for
the agent, or the message of an error. -/
structure Service where
  bridge : Bridge
  framed : Bool
  connection : ConnectionState
  maxRequestSize : Nat
  block : BlockConfig
  requestNumber : Nat
  now : Nat
  normalize : CJson → Except Bytes Bytes
  allocated : Allocations
  healthy : Bool
  debugSession : Bytes
  turn : TurnReport
  agentText : Bytes

/-- `copy_header_value` for `Content-Encoding`. -/
def contentEncoding (raw : Bytes) : Bytes :=
  match findHeaderValue (lit "Content-Encoding") (cstr raw) with
  | none => lit "(none)"
  | some value => (value.takeWhile fun c => ¬ isBreak c).take 63

/-- A body in an encoding the bridge does not undo. -/
def unsupportedEncoding (raw : Bytes) : Bool :=
  contentEncoding raw ≠ lit "(none)" && (contentEncoding raw).map CJson.toLower ≠ lit "identity"

/-- The refusal of an encoding. -/
def refuseEncoding (raw : Bytes) : ResponseHead :=
  sendError 415 (clip 256 (lit "Unsupported Content-Encoding: " ++ contentEncoding raw))

/-- A member that is there and is no boolean. -/
def notBool (obj : CJson) (field : Bytes) : Bool :=
  match CJson.getObjectItem obj field with
  | none => false
  | some (.bool _) => false
  | some _ => true

/-- `codex_validate_request_schema`: its error, if it fails. -/
def codexValidateRequestSchema (body : Bytes) : Option Bytes :=
  if cstr body = [] then some (lit "empty request body")
  else
    match CJson.parse body with
    | some (.object members) =>
        match CJson.getObjectItem (.object members) (lit "input") with
        | none => some (lit "missing required field 'input'")
        | some (.string _) | some (.array _) =>
            if notBool (.object members) (lit "stream") then
              some (lit "field 'stream' must be a boolean")
            else if notBool (.object members) (lit "reset_session") then
              some (lit "field 'reset_session' must be a boolean")
            else none
        | some _ => some (lit "field 'input' must be a string or array")
    | _ => some (lit "body must be a JSON object")

/-- `codex_parse_request`: the request, or the message of its error. -/
def codexParseRequest (normalize : CJson → Except Bytes Bytes) (body : Bytes) :
    Except Bytes HarnessRequest :=
  match CJson.parse body with
  | some (.object members) =>
      match normalize (.object members) with
      | .error message => .error message
      | .ok _ =>
          match CJson.getObjectItem (.object members) (lit "stream") with
          | some (.bool stream) => .ok ⟨stream⟩
          | _ => .ok ⟨false⟩
  | _ => .error (lit "Request body must be a JSON object")

/-- `handle_response_parse`: the request, or the error it has sent. -/
def handleResponseParse (normalize : CJson → Except Bytes Bytes) (body : Bytes) :
    Except ResponseHead HarnessRequest :=
  match codexValidateRequestSchema body with
  | some error => .error (sendError 400 (clip 256 error))
  | none =>
      match codexParseRequest normalize body with
      | .error message => .error (sendError 400 (clip 512 message))
      | .ok req => .ok req

/-! ## The handlers -/

/-- What `handle_response_native` has begun to answer, what it returns, and the
output buffer it leaves. -/
structure NativeResult where
  heads : List ResponseHead
  ok : Bool
  outBuf : Bytes

/-- `handle_response_native`. -/
def Service.handleResponseNative (s : Service) (req : HarnessRequest) : NativeResult :=
  if ¬ s.allocated.input then ⟨[sendHttp 500 (lit "\x7b\"error\":\"oom\"\x7d")], false, []⟩
  else if s.framed then
    if ¬ servesTurn s.connection then
      ⟨[sendError 503 (lit "native_agent_unavailable")], false, []⟩
    else
      -- `responses_stream_emit_created` sends the headers of a live stream
      let heads := if req.stream ∧ s.allocated.liveStream then [.eventStream] else []
      ⟨heads, s.turn.outcome.ok, s.turn.outBuf⟩
  else ⟨[], true, []⟩

/-- `handle_response_stream`; a framed turn has been streamed already. -/
def Service.handleResponseStream (s : Service) : List ResponseHead :=
  if s.framed then []
  else if s.allocated.streamState then [.eventStream]
  else [sendHttp 500 (lit "\x7b\"error\":\"out of memory\"\x7d")]

/-- The content of a stdio agent's answer. -/
def stdioContent (agentText : Bytes) : Bytes :=
  if agentText = [] then
    lit "Native agent produced no assistant text. Check the agent command, framed protocol setting, or native-agent logs."
  else agentText

/-- `handle_response_block`. -/
def Service.blockResponse (s : Service) (outBuf : Bytes) : List ResponseHead :=
  let reply :=
    if s.framed then
      StarBridge.handleResponseBlock s.block s.now outBuf
        (decide (s.turn.outcome = .processed .eventLimit))
    else StarBridge.handleResponseBlock s.block s.now (stdioContent s.agentText) false
  match reply with
  | .response _ body => [sendHttp 200 body]
  | .error body => [sendHttp 500 body]

/-- What `handle_response` does with a request it has parsed. -/
def Service.respond (s : Service) (req : HarnessRequest) : List ResponseHead :=
  let native := s.handleResponseNative req
  if native.ok then
    native.heads ++ (if req.stream then s.handleResponseStream else s.blockResponse native.outBuf)
  else if req.stream then
    if s.framed then native.heads else native.heads ++ [.eventStream]
  else
    let message :=
      if cstr native.outBuf = [] then lit "native_agent_protocol_failure" else native.outBuf
    native.heads ++ [sendError 503 message]

/-- `handle_response`; it does not return when `read_http_body` does not. -/
def Service.handleResponse (s : Service) (raw : Bytes) : Option (List ResponseHead) :=
  match readHttpBody s.maxRequestSize raw with
  | .hangs => none
  | .tooLarge => some [sendError 413 (lit "request body too large")]
  | .rejected => some []
  | .body text _ =>
      if unsupportedEncoding raw then some [refuseEncoding raw]
      else if ¬ s.allocated.request then some [sendHttp 500 (lit "\x7b\"error\":\"oom\"\x7d")]
      else
        match handleResponseParse s.normalize text with
        | .error head => some [head]
        | .ok req => some (s.respond req)

/-- The engine serves a compact turn. -/
def Service.supportsCompact (s : Service) : Bool :=
  s.framed && (s.connection == .ready || s.connection == .connected)

/-- The answer to a compact turn. -/
def Service.compactReply (s : Service) : ResponseHead :=
  let text := cstr s.turn.outBuf
  if s.turn.outcome.ok then
    sendHttp 200 (clip 8192
      (lit "\x7b\"id\":\"compact-" ++ decimal s.requestNumber ++
        lit "\",\"object\":\"response\",\"status\":\"completed\",\"model\":\"" ++
        s.block.codexModel ++ lit "\",\"created_at\":" ++ decimal s.now ++
        lit ",\"output\":[\x7b\"type\":\"text\",\"text\":\"" ++
        jsonEscape (if text = [] then lit "Context compacted successfully." else text) 4096 ++
        lit "\",\"annotations\":[]\x7d],\"error\":null,\"finish_reason\":\"stop\"\x7d"))
  else
    sendHttp 503 (clip 8192
      (lit "\x7b\"id\":\"compact-" ++ decimal s.requestNumber ++
        lit "\",\"object\":\"response\",\"status\":\"failed\",\"error\":\x7b\"message\":\"" ++
        jsonEscape (if text = [] then lit "Compaction failed: native agent error" else text)
          1024 ++ lit "\"\x7d\x7d"))

/-- The refusal of a compact turn. -/
def Service.compactRefusal (s : Service) : ResponseHead :=
  sendHttp 503 (clip 8192
    (lit "\x7b\"id\":\"compact-" ++ decimal s.requestNumber ++
      lit "\",\"object\":\"response\",\"status\":\"failed\",\"error\":\x7b\"message\":\"Compaction not supported: native agent unavailable\"\x7d\x7d"))

/-- `handle_compact`. -/
def Service.handleCompact (s : Service) (raw : Bytes) : Option (List ResponseHead) :=
  match readHttpBody s.maxRequestSize raw with
  | .hangs => none
  | .tooLarge => some []
  | .rejected => some []
  | .body _ _ =>
      if unsupportedEncoding raw then some [refuseEncoding raw]
      else if s.supportsCompact then some [s.compactReply]
      else some [s.compactRefusal]

/-- The answer to a health request. -/
def Service.healthReply (s : Service) : ResponseHead :=
  if s.healthy then sendHttp 200 (lit "\x7b\"status\":\"ok\",\"native_status\":\"ok\"\x7d")
  else sendHttp 503 (lit "\x7b\"status\":\"failed\",\"native_status\":\"unavailable\"\x7d")

/-- What is begun on the connection of a request that has been routed, when its
handler returns. -/
def Service.answers (s : Service) (raw : Bytes) : Option (List ResponseHead) :=
  let outcome := s.bridge.serveRoute (routeOf raw)
  match outcome.handler with
  | none => some (outcome.reply.toList.map .http)
  | some .engineHealthCheck => some [s.healthReply]
  | some .buildDebugSessionJson => some [sendHttp 200 s.debugSession]
  | some .handleCompact => s.handleCompact raw
  | some .handleResponse => s.handleResponse raw

/-! ## One response -/

/-- One response is begun before the connection is closed. -/
def AnsweredOnce (answers : Option (List ResponseHead)) : Prop :=
  ∃ head, answers = some [head]

/-- A parsed request is answered by one function only.  A live stream has its
state; every other turn has its input, and in framed mode a connection that
serves it. -/
def Service.AnswersOnce (s : Service) (req : HarnessRequest) : Prop :=
  if s.framed then
    if req.stream then
      s.allocated.input = true → servesTurn s.connection = true → s.allocated.liveStream = true
    else s.allocated.input = true ∧ servesTurn s.connection = true
  else s.allocated.input = true

/-- The body of a request can be read; one that is too large counts for
`handle_response` alone. -/
def Service.HasBody (s : Service) (raw : Bytes) : Prop :=
  ∃ text len, readHttpBody s.maxRequestSize raw = .body text len

/-- A request of `handle_response` that gets one response. -/
def Service.ResponseOnce (s : Service) (raw : Bytes) : Prop :=
  readHttpBody s.maxRequestSize raw = .tooLarge ∨
    ∃ text len, readHttpBody s.maxRequestSize raw = .body text len ∧
      (unsupportedEncoding raw = false → s.allocated.request = true →
        ∀ req, handleResponseParse s.normalize text = .ok req → s.AnswersOnce req)

/-- A request that gets one response. -/
def Service.Once (s : Service) (raw : Bytes) : Prop :=
  match routeOf raw with
  | .responses => s.ResponseOnce raw
  | .compact => s.HasBody raw
  | _ => True

variable (s : Service)

theorem answeredOnce_one (head : ResponseHead) : AnsweredOnce (some [head]) := ⟨head, rfl⟩

theorem not_answeredOnce_nil : ¬ AnsweredOnce (some []) := by
  rintro ⟨head, h⟩
  cases h

theorem not_answeredOnce_none : ¬ AnsweredOnce none := by
  rintro ⟨head, h⟩
  cases h

theorem not_answeredOnce_two (first second : ResponseHead) :
    ¬ AnsweredOnce (some [first, second]) := by
  rintro ⟨head, h⟩
  cases h

/-- `handle_response_block` answers once, whatever it finds. -/
theorem blockResponse_one (outBuf : Bytes) : ∃ head, s.blockResponse outBuf = [head] := by
  unfold Service.blockResponse
  dsimp only
  split
  · exact ⟨_, rfl⟩
  · exact ⟨_, rfl⟩

/-- A parsed request without its input is answered twice, unless it is a framed
stream. -/
theorem respond_without_input (h : s.allocated.input = false) (req : HarnessRequest) :
    AnsweredOnce (some (s.respond req)) ↔ s.framed = true ∧ req.stream = true := by
  have hnative : s.handleResponseNative req =
      ⟨[sendHttp 500 (lit "\x7b\"error\":\"oom\"\x7d")], false, []⟩ := by
    rw [Service.handleResponseNative, if_pos (by simp [h])]
  unfold Service.respond
  rw [hnative]
  cases req.stream with
  | false => exact iff_of_false (not_answeredOnce_two _ _) (by simp)
  | true =>
      cases s.framed with
      | false => exact iff_of_false (not_answeredOnce_two _ _) (by simp)
      | true => exact iff_of_true (answeredOnce_one _) (by simp)

/-- A framed turn on a connection that does not serve it is refused twice,
unless it is streaming. -/
theorem respond_refused (hframed : s.framed = true) (hinput : s.allocated.input = true)
    (h : servesTurn s.connection = false) (req : HarnessRequest) :
    AnsweredOnce (some (s.respond req)) ↔ req.stream = true := by
  have hnative : s.handleResponseNative req =
      ⟨[sendError 503 (lit "native_agent_unavailable")], false, []⟩ := by
    rw [Service.handleResponseNative, if_neg (by simp [hinput]), if_pos hframed,
      if_pos (by simp [h])]
  unfold Service.respond
  rw [hnative, hframed]
  cases req.stream with
  | false => exact iff_of_false (not_answeredOnce_two _ _) (by simp)
  | true => exact iff_of_true (answeredOnce_one _) rfl

/-- A framed turn that is served is answered once, however it ends, unless it
streams without a state for its stream. -/
theorem respond_framed (hframed : s.framed = true) (hinput : s.allocated.input = true)
    (h : servesTurn s.connection = true) (req : HarnessRequest) :
    AnsweredOnce (some (s.respond req)) ↔
      (req.stream = true → s.allocated.liveStream = true) := by
  have hnative : s.handleResponseNative req =
      ⟨if req.stream ∧ s.allocated.liveStream then [.eventStream] else [],
        s.turn.outcome.ok, s.turn.outBuf⟩ := by
    rw [Service.handleResponseNative, if_neg (by simp [hinput]), if_pos hframed,
      if_neg (by simp [h])]
  unfold Service.respond
  rw [hnative]
  unfold Service.handleResponseStream
  rw [hframed]
  obtain ⟨head, hblock⟩ := blockResponse_one s s.turn.outBuf
  cases req.stream with
  | false =>
      refine iff_of_true ?_ (by simp)
      cases s.turn.outcome.ok with
      | false => exact answeredOnce_one _
      | true => exact ⟨head, congrArg some hblock⟩
  | true =>
      cases s.allocated.liveStream with
      | false =>
          refine iff_of_false ?_ (by simp)
          cases s.turn.outcome.ok with
          | false => exact not_answeredOnce_nil
          | true => exact not_answeredOnce_nil
      | true =>
          refine iff_of_true ?_ (by simp)
          cases s.turn.outcome.ok with
          | false => exact answeredOnce_one _
          | true => exact answeredOnce_one _

/-- A turn of a stdio agent is answered once. -/
theorem respond_stdio (hframed : s.framed = false) (hinput : s.allocated.input = true)
    (req : HarnessRequest) : AnsweredOnce (some (s.respond req)) := by
  have hnative : s.handleResponseNative req = ⟨[], true, []⟩ := by
    rw [Service.handleResponseNative, if_neg (by simp [hinput]), if_neg (by simp [hframed])]
  unfold Service.respond
  rw [hnative]
  unfold Service.handleResponseStream
  rw [hframed]
  obtain ⟨head, hblock⟩ := blockResponse_one s []
  cases req.stream with
  | false => exact ⟨head, congrArg some hblock⟩
  | true =>
      cases s.allocated.streamState with
      | false => exact answeredOnce_one _
      | true => exact answeredOnce_one _

/-- A parsed request gets one response iff one function answers it. -/
theorem respond_iff (req : HarnessRequest) :
    AnsweredOnce (some (s.respond req)) ↔ s.AnswersOnce req := by
  unfold Service.AnswersOnce
  cases hinput : s.allocated.input with
  | false =>
      rw [respond_without_input s hinput req]
      cases s.framed <;> cases req.stream <;> simp
  | true =>
      cases hframed : s.framed with
      | false => exact iff_of_true (respond_stdio s hframed hinput req) rfl
      | true =>
          cases hserves : servesTurn s.connection with
          | false =>
              rw [respond_refused s hframed hinput hserves req]
              cases req.stream <;> simp
          | true =>
              rw [respond_framed s hframed hinput hserves req]
              cases req.stream <;> simp

theorem handleResponse_iff (raw : Bytes) :
    AnsweredOnce (s.handleResponse raw) ↔ s.ResponseOnce raw := by
  unfold Service.handleResponse Service.ResponseOnce
  cases hbody : readHttpBody s.maxRequestSize raw with
  | hangs => exact iff_of_false not_answeredOnce_none (by simp)
  | rejected => exact iff_of_false not_answeredOnce_nil (by simp)
  | tooLarge => exact iff_of_true (answeredOnce_one _) (Or.inl rfl)
  | body text len =>
      dsimp only
      split
      · rename_i hencoding
        refine iff_of_true (answeredOnce_one _) (Or.inr ⟨text, len, rfl, ?_⟩)
        intro hsupported
        rw [hencoding] at hsupported
        cases hsupported
      · rename_i hencoding
        split
        · rename_i hrequest
          refine iff_of_true (answeredOnce_one _) (Or.inr ⟨text, len, rfl, ?_⟩)
          intro _ hallocated
          exact absurd hallocated hrequest
        · rename_i hrequest
          have hready : unsupportedEncoding raw = false ∧ s.allocated.request = true := by
            simpa using And.intro hencoding hrequest
          split
          · rename_i head hparse
            refine iff_of_true (answeredOnce_one _) (Or.inr ⟨text, len, rfl, ?_⟩)
            intro _ _ req hreq
            rw [hparse] at hreq
            cases hreq
          · rename_i req hparse
            rw [respond_iff s req]
            constructor
            · intro honce
              refine Or.inr ⟨text, len, rfl, ?_⟩
              intro _ _ req' hreq
              rw [hparse] at hreq
              cases hreq
              exact honce
            · rintro (hlarge | ⟨text', len', hsame, honce⟩)
              · cases hlarge
              · cases hsame
                exact honce hready.1 hready.2 req hparse

theorem handleCompact_iff (raw : Bytes) :
    AnsweredOnce (s.handleCompact raw) ↔ s.HasBody raw := by
  unfold Service.handleCompact Service.HasBody
  cases hbody : readHttpBody s.maxRequestSize raw with
  | hangs => exact iff_of_false not_answeredOnce_none (by simp)
  | rejected => exact iff_of_false not_answeredOnce_nil (by simp)
  | tooLarge => exact iff_of_false not_answeredOnce_nil (by simp)
  | body text len =>
      refine iff_of_true ?_ ⟨text, len, rfl⟩
      dsimp only
      split
      · exact answeredOnce_one _
      · split
        · exact answeredOnce_one _
        · exact answeredOnce_one _

/-- **One response per request**, exactly: a request that has been routed gets one
response iff its body can be read (or is too large for `handle_response`) and one
function only answers the request in it. -/
theorem answered_once_iff (raw : Bytes) : AnsweredOnce (s.answers raw) ↔ s.Once raw := by
  unfold Service.answers Service.Once
  cases routeOf raw with
  | options => exact iff_of_true (answeredOnce_one _) trivial
  | health => exact iff_of_true (answeredOnce_one _) trivial
  | models => exact iff_of_true (answeredOnce_one _) trivial
  | debugSession =>
      refine iff_of_true ?_ trivial
      unfold Bridge.serveRoute
      cases s.bridge.config.trace with
      | false => exact answeredOnce_one _
      | true => exact answeredOnce_one _
  | compact => exact handleCompact_iff s raw
  | responses => exact handleResponse_iff s raw
  | cancel => exact iff_of_true (answeredOnce_one _) trivial
  | notFound => exact iff_of_true (answeredOnce_one _) trivial

/-- A framed bridge whose connection a heartbeat has marked unhealthy. -/
def unhealthyService : Service where
  bridge := ⟨⟨[], lit "127.0.0.1", [], lit "m", [], [], false⟩, .idle, [], true, ⟨false, false, []⟩⟩
  framed := true
  connection := .unhealthy
  maxRequestSize := 1048576
  block := sampleBlock
  requestNumber := 1
  now := 0
  normalize := fun _ => .ok (lit "hi")
  allocated := ⟨true, true, true, true⟩
  healthy := false
  debugSession := []
  turn := ⟨.notBegun, []⟩
  agentText := []

/-- A request for a response, without a body. -/
def bodylessPost : Bytes :=
  lit "POST /v1/responses HTTP/1.1" ++ crlf ++ lit "Host: localhost" ++ crlf ++ crlf

/-- A request for a response to "hi". -/
def hiPost : Bytes :=
  lit "POST /v1/responses HTTP/1.1" ++ crlf ++ lit "Host: localhost" ++ crlf ++
    lit "Content-Length: 14" ++ crlf ++ crlf ++ lit "\x7b\"input\":\"hi\"\x7d"

/-- A request without a body is closed unanswered, and one that meets an
unhealthy connection is refused twice. -/
theorem answered_not_once :
    ¬ AnsweredOnce (unhealthyService.answers bodylessPost) ∧
      ¬ AnsweredOnce (unhealthyService.answers hiPost) := by
  have hnone : (unhealthyService.answers bodylessPost).map List.length = some 0 := by
    decide +kernel
  have htwo : (unhealthyService.answers hiPost).map List.length = some 2 := by
    decide +kernel
  constructor
  · intro h
    obtain ⟨head, honce⟩ := h
    rw [honce] at hnone
    cases hnone
  · intro h
    obtain ⟨head, honce⟩ := h
    rw [honce] at htwo
    cases htwo

end StarBridge
