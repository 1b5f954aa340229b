import StarBridge.StaleFrames

/-!
# How a live stream ends

A framed streaming turn has its stream opened before it begins, and
`handle_response_native` closes it when the turn is over: with the lifecycle
events that complete the response, with `response.failed` for a cancellation, or
with `response.error`.  Inside the turn only text deltas are written.
`stream_ends_once_iff` says for which turns the stream ends with one of the two
terminal events a client knows.
-/

namespace StarBridge

open CText Loops

/-! ## Closing a stream -/

/-- The data of `codex_stream_output_text_done`. -/
def outputTextDoneData (text : Bytes) (item content seq : Nat) : Bytes :=
  lit "\x7b\"type\":\"response.output_text.done\",\"item_id\":\"msg_" ++ decimal item ++
    lit "\",\"output_index\":" ++ decimal item ++ lit ",\"content_index\":" ++
    decimal content ++ lit ",\"text\":\"" ++ jsonEscape text 131072 ++
    lit "\",\"logprobs\":[],\"sequence_number\":" ++ decimal seq ++ lit "\x7d"

/-- `responses_stream_emit_text_done`. -/
def responsesStreamEmitTextDone (s : ResponsesStreamState) : ResponsesStreamState :=
  match s.textPart with
  | none => s
  | some (i, j, _, part) =>
      (s.send (lit "response.output_text.done")
        (outputTextDoneData part.text i j s.sequenceNumber)).beat

/-- The data of `codex_stream_content_part_done`. -/
def contentPartDoneData (text : Bytes) (item content seq : Nat) : Bytes :=
  lit "\x7b\"type\":\"response.content_part.done\",\"item_id\":\"msg_" ++ decimal item ++
    lit "\",\"output_index\":" ++ decimal item ++ lit ",\"content_index\":" ++
    decimal content ++ lit ",\"part\":\x7b\"type\":\"output_text\",\"text\":\"" ++
    jsonEscape text 131072 ++ lit "\",\"annotations\":[]\x7d,\"sequence_number\":" ++
    decimal seq ++ lit "\x7d"

/-- The item a stream is at. -/
def ResponsesStreamState.item? (s : ResponsesStreamState) : Option (Nat × OutputItem) :=
  s.curItem.bind fun i => (s.items[i]?).map fun item => (i, item)

/-- `responses_stream_emit_content_part_done`. -/
def responsesStreamEmitContentPartDone (s : ResponsesStreamState) : ResponsesStreamState :=
  match s.item?, s.curPart with
  | some (i, item), some j =>
      let text := ((item.parts[j]?).map ContentPart.text).getD []
      (s.send (lit "response.content_part.done")
        (contentPartDoneData text i j s.sequenceNumber)).beat
  | _, _ => s

/-- The data of `codex_stream_output_item_done`. -/
def outputItemDoneData (text : Bytes) (item seq : Nat) : Bytes :=
  lit "\x7b\"type\":\"response.output_item.done\",\"output_index\":" ++ decimal item ++
    lit ",\"item\":\x7b\"id\":\"msg_" ++ decimal item ++
    lit "\",\"type\":\"message\",\"status\":\"completed\",\"role\":\"assistant\",\"content\":[\x7b\"type\":\"output_text\",\"text\":\"" ++
    jsonEscape text 131072 ++ lit "\",\"annotations\":[]\x7d]\x7d,\"sequence_number\":" ++
    decimal seq ++ lit "\x7d"

/-- The text of an item's first part. -/
def OutputItem.firstText (item : OutputItem) : Bytes :=
  (item.parts.head?.map ContentPart.text).getD []

/-- `responses_stream_emit_output_item_done`. -/
def responsesStreamEmitOutputItemDone (s : ResponsesStreamState) : ResponsesStreamState :=
  match s.item? with
  | none => s
  | some (i, item) =>
      { (s.send (lit "response.output_item.done")
          (outputItemDoneData item.firstText i s.sequenceNumber)).beat with
        items := s.items.set i { item with status := lit "completed" } }

/-- The data of `codex_stream_completed`, for a turn without usage. -/
def completedData (id model : Bytes) (now : Nat) (text incomplete : Bytes) (seq : Nat) :
    Bytes :=
  lit "\x7b\"type\":\"response.completed\",\"response\":\x7b\"id\":\"" ++
    (if id = [] then lit "resp-stream" else id) ++
    lit "\",\"object\":\"response\",\"created_at\":" ++ decimal now ++
    lit ",\"status\":\"completed\",\"error\":null," ++
    (if incomplete = [] then lit "\"incomplete_details\":null"
      else lit "\"incomplete_details\":\"" ++
        jsonEscape incomplete (2 * incomplete.length + 32) ++ lit "\"") ++
    lit ",\"instructions\":null,\"max_output_tokens\":null,\"model\":\"" ++
    (if model = [] then lit "star-bridge-ds4" else model) ++
    lit "\",\"output\":[\x7b\"id\":\"msg_0\",\"type\":\"message\",\"status\":\"completed\",\"role\":\"assistant\",\"content\":[\x7b\"type\":\"output_text\",\"text\":\"" ++
    jsonEscape text 131072 ++
    lit "\",\"annotations\":[]\x7d]\x7d],\"parallel_tool_calls\":true,\"previous_response_id\":null,\"reasoning\":null,\"store\":false,\"temperature\":1,\"text\":\x7b\"format\":\x7b\"type\":\"text\"\x7d\x7d,\"tool_choice\":\"auto\",\"tools\":[],\"top_p\":1,\"truncation\":\"disabled\",\"user\":null,\"metadata\":\x7b\x7d\x7d,\"sequence_number\":" ++
    decimal seq ++ lit "\x7d"

/-- `responses_stream_emit_completed`, up to its `[DONE]` marker. -/
def responsesStreamEmitCompleted (now : Nat) (incomplete : Bytes) (s : ResponsesStreamState) :
    ResponsesStreamState :=
  let finalText := (s.items.head?.map OutputItem.firstText).getD []
  (s.send (lit "response.completed")
    (completedData s.id s.model now finalText incomplete s.sequenceNumber)).beat

/-- `responses_stream_emit_error`. -/
def responsesStreamEmitError (message : Bytes) (s : ResponsesStreamState) :
    ResponsesStreamState :=
  (s.send (lit "response.error")
    (lit "\x7b\"type\":\"response.error\",\"error\":\x7b\"message\":\"" ++
      jsonEscape message 131072 ++ lit "\"\x7d,\"sequence_number\":" ++
      decimal s.sequenceNumber ++ lit "\x7d")).beat

/-- `responses_stream_emit_failed`. -/
def responsesStreamEmitFailed (reason : Bytes) (s : ResponsesStreamState) :
    ResponsesStreamState :=
  let escaped := jsonEscape (if reason = [] then lit "failed" else reason) 1024
  (s.send (lit "response.failed")
    (clip 2048
      (lit "\x7b\"type\":\"response.failed\",\"response\":\x7b\"id\":\"" ++ s.id ++
        lit "\",\"object\":\"response\",\"status\":\"failed\"\x7d,\"error\":\x7b\"code\":\"" ++
        escaped ++ lit "\",\"message\":\"" ++ escaped ++ lit "\"\x7d,\"sequence_number\":" ++
        decimal s.sequenceNumber ++ lit "\x7d"))).beat

/-! ## A framed turn -/

/-- How a framed turn went: it was not begun, not accepted, or its event loop
ended. -/
inductive FramedOutcome
  | notBegun
  | notAccepted (e : AckEnd)
  | processed (outcome : TurnOutcome)
  deriving DecidableEq, Repr

/-- The value `ok` has when the turn is over. -/
def FramedOutcome.ok : FramedOutcome → Bool
  | .processed outcome => outcome.ok
  | _ => false

/-- A framed turn that is over. -/
structure FramedTurn where
  outcome : FramedOutcome
  state : TurnState

/-- `turn_begin`, `turn_await_ack` and `turn_process_events`, given whether the
first could write its request and what the others read. -/
def framedTurn (env : TurnEnv) (turn : TurnState) (begun : Bool)
    (reads : List (Option Bytes)) (events : List LoopEvent) : Option FramedTurn :=
  if begun then
    match turnAwaitAck env reads with
    | .running _ => none
    | .ended e =>
        if e.ok then
          match turnProcessEvents env turn events with
          | .running _ => none
          | .ended e => some ⟨.processed e.outcome, e.state⟩
        else some ⟨.notAccepted e, turn.afterAck env e⟩
  else some ⟨.notBegun, turn⟩

/-- A stream and whether `[DONE]` has been written behind it. -/
structure ClosedStream where
  stream : ResponsesStreamState
  doneMarker : Bool

/-- How `handle_response_native` closes the live stream. -/
def FramedTurn.close (t : FramedTurn) (now : Nat) (stream : ResponsesStreamState) :
    ClosedStream :=
  if t.outcome.ok then
    let incomplete :=
      if t.outcome = .processed .eventLimit then lit "max_turn_events" else []
    ⟨responsesStreamEmitCompleted now incomplete
      (responsesStreamEmitOutputItemDone
        (responsesStreamEmitContentPartDone (responsesStreamEmitTextDone stream))), true⟩
  else if t.state.engine.cancelled then
    ⟨responsesStreamEmitFailed (lit "cancelled") stream, false⟩
  else
    let message :=
      if cstr t.state.outBuf = [] then lit "native turn failed (see bridge logs)"
      else cstr t.state.outBuf
    ⟨responsesStreamEmitError message stream, false⟩

/-- The live stream of a framed streaming turn that is over. -/
def liveResponse (env : TurnEnv) (model : Bytes) (now later : Nat) (begun : Bool)
    (reads : List (Option Bytes)) (events : List LoopEvent) : Option ClosedStream :=
  (framedTurn env (freshTurn (some (openedStream model now))) begun reads events).bind
    fun t => t.state.stream.map (t.close later)

/-! ## The events of a stream -/

/-- The names of the events that have been written. -/
def ResponsesStreamState.eventNames (s : ResponsesStreamState) : List Bytes :=
  s.wire.filterMap fun
    | .event name _ => some name
    | _ => none

/-- The events that end a response, in any of the three ways there are. -/
def IsTerminal (name : Bytes) : Prop :=
  name = lit "response.completed" ∨ name = lit "response.failed" ∨
    name = lit "response.error"

instance (name : Bytes) : Decidable (IsTerminal name) :=
  inferInstanceAs (Decidable (_ ∨ _ ∨ _))

/-- One terminal event, behind all others, and one that a client knows. -/
def ResponsesStreamState.EndsOnce (s : ResponsesStreamState) : Prop :=
  ∃ earlier last, s.eventNames = earlier ++ [last] ∧
    (last = lit "response.completed" ∨ last = lit "response.failed") ∧
    ∀ name ∈ earlier, ¬ IsTerminal name

/-- No terminal event has been written. -/
def ResponsesStreamState.Unfinished (s : ResponsesStreamState) : Prop :=
  ∀ name ∈ s.eventNames, ¬ IsTerminal name

@[simp] theorem eventNames_beat (s : ResponsesStreamState) :
    s.beat.eventNames = s.eventNames := by
  simp [ResponsesStreamState.eventNames, ResponsesStreamState.beat]

@[simp] theorem eventNames_send (s : ResponsesStreamState) (name data : Bytes) :
    (s.send name data).eventNames = s.eventNames ++ [name] := by
  simp [ResponsesStreamState.eventNames, ResponsesStreamState.send]

theorem ResponsesStreamState.Unfinished.beat {s : ResponsesStreamState} (h : s.Unfinished) :
    s.beat.Unfinished := by
  intro name hname
  rw [eventNames_beat] at hname
  exact h name hname

/-- An event that is not terminal leaves a stream unfinished. -/
theorem ResponsesStreamState.Unfinished.append {s s' : ResponsesStreamState}
    (h : s.Unfinished) {name : Bytes} (hnames : s'.eventNames = s.eventNames ++ [name]) (hname : ¬ IsTerminal name) :
    s'.Unfinished := by
  intro other hother
  rw [hnames] at hother
  rcases List.mem_append.mp hother with hold | hnew
  · exact h other hold
  · rw [List.mem_singleton.mp hnew]
    exact hname

theorem eventNames_emitCompleted (now : Nat) (incomplete : Bytes) (s : ResponsesStreamState) :
    (responsesStreamEmitCompleted now incomplete s).eventNames =
      s.eventNames ++ [lit "response.completed"] :=
  (eventNames_beat _).trans (eventNames_send s _ _)

theorem eventNames_emitFailed (reason : Bytes) (s : ResponsesStreamState) :
    (responsesStreamEmitFailed reason s).eventNames = s.eventNames ++ [lit "response.failed"] :=
  (eventNames_beat _).trans (eventNames_send s _ _)

theorem eventNames_emitError (message : Bytes) (s : ResponsesStreamState) :
    (responsesStreamEmitError message s).eventNames = s.eventNames ++ [lit "response.error"] :=
  (eventNames_beat _).trans (eventNames_send s _ _)

theorem openedStream_unfinished (model : Bytes) (now : Nat) :
    (openedStream model now).Unfinished := by
  have hnames : (openedStream model now).eventNames =
      [lit "response.created", lit "response.output_item.added",
        lit "response.content_part.added"] := rfl
  unfold ResponsesStreamState.Unfinished
  rw [hnames]
  decide

/-- A text delta is no end. -/
theorem emitTextDelta_unfinished {s s' : ResponsesStreamState} (h : s.Unfinished)
    {delta : Bytes} (hemit : responsesStreamEmitTextDelta delta s = some s') :
    s'.Unfinished := by
  unfold responsesStreamEmitTextDelta at hemit
  split at hemit
  · cases hemit
  · cases hemit
    exact h.append (eventNames_send s (lit "response.output_text.delta") _) (by decide)

theorem emitTextDone_unfinished {s : ResponsesStreamState} (h : s.Unfinished) :
    (responsesStreamEmitTextDone s).Unfinished := by
  unfold responsesStreamEmitTextDone
  split
  · exact h
  · exact (h.append (eventNames_send s _ _) (by decide)).beat

theorem emitContentPartDone_unfinished {s : ResponsesStreamState} (h : s.Unfinished) :
    (responsesStreamEmitContentPartDone s).Unfinished := by
  unfold responsesStreamEmitContentPartDone
  split
  · exact (h.append (eventNames_send s _ _) (by decide)).beat
  · exact h

theorem emitOutputItemDone_unfinished {s : ResponsesStreamState} (h : s.Unfinished) :
    (responsesStreamEmitOutputItemDone s).Unfinished := by
  unfold responsesStreamEmitOutputItemDone
  split
  · exact h
  · exact (h.append (eventNames_send s _ _) (by decide)).beat

/-- A stream that ends with a terminal event ends once iff a client knows it. -/
theorem ResponsesStreamState.Unfinished.endsOnce_iff {s s' : ResponsesStreamState}
    (h : s.Unfinished) {name : Bytes} (hnames : s'.eventNames = s.eventNames ++ [name]) :
    s'.EndsOnce ↔ name = lit "response.completed" ∨ name = lit "response.failed" := by
  constructor
  · rintro ⟨earlier, last, hsplit, hlast, -⟩
    rw [hnames] at hsplit
    obtain ⟨-, hsame⟩ := List.append_inj' hsplit rfl
    rw [(List.cons.inj hsame).1]
    exact hlast
  · intro hknown
    exact ⟨s.eventNames, name, hnames, hknown, h⟩

/-! ## Inside a turn -/

/-- A live turn that nobody has cancelled. -/
structure TurnState.Calm (s : TurnState) : Prop where
  uncancelled : s.engine.cancelled = false
  live : ∃ stream, s.stream = some stream ∧ stream.Unfinished

/-- A live turn that is over: its stream is still to be ended, and a client has
cancelled it iff the outcome says so, unless it ran into its deadline. -/
structure TurnEnd.Plain (e : TurnEnd) : Prop where
  live : ∃ stream, e.state.stream = some stream ∧ stream.Unfinished
  cancelled : e.outcome ≠ .timeout →
    (e.state.engine.cancelled = true ↔ e.outcome = .cancelledByClient)

theorem TurnState.Calm.congr {s s' : TurnState} (h : s.Calm)
    (hcancelled : s'.engine.cancelled = s.engine.cancelled) (hstream : s'.stream = s.stream) :
    s'.Calm :=
  ⟨hcancelled.trans h.uncancelled, hstream ▸ h.live⟩

/-- A turn that ends of itself has not been cancelled. -/
theorem TurnState.Calm.plain {s : TurnState} (h : s.Calm) {outcome : TurnOutcome}
    (houtcome : outcome ≠ .cancelledByClient) : TurnEnd.Plain ⟨outcome, s⟩ := by
  refine ⟨h.live, ?_⟩
  intro _
  constructor
  · intro hcancelled
    have huncancelled := h.uncancelled
    rw [hcancelled] at huncancelled
    cases huncancelled
  · intro hclient
    exact absurd hclient houtcome

theorem TurnState.Calm.say {s : TurnState} (h : s.Calm) (env : TurnEnv) (message : Bytes) :
    (s.say env message).Calm :=
  h.congr rfl rfl

theorem TurnState.Calm.beat {s : TurnState} (h : s.Calm) (remaining : Int) :
    TurnState.Calm { s.beat with remainingTimeout := remaining } := by
  obtain ⟨stream, hstream, hunfinished⟩ := h.live
  refine ⟨h.uncancelled, stream.beat, ?_, hunfinished.beat⟩
  simp [TurnState.beat, hstream]

theorem TurnState.Calm.emitDelta {s : TurnState} (h : s.Calm) (delta : Bytes) :
    (s.emitDelta delta).1.Calm := by
  obtain ⟨stream, hstream, hunfinished⟩ := h.live
  unfold TurnState.emitDelta
  rw [hstream]
  dsimp only
  split
  · exact h
  · rename_i stream' hemit
    exact ⟨h.uncancelled, stream', rfl, emitTextDelta_unfinished hunfinished hemit⟩

theorem TurnState.Calm.emitChunks {s : TurnState} (h : s.Calm) (pieces : List Bytes) :
    (s.emitChunks pieces).Calm := by
  induction pieces generalizing s with
  | nil => exact h
  | cons piece rest ih =>
      unfold TurnState.emitChunks
      dsimp only
      split
      · exact ih (h.emitDelta piece)
      · exact h.emitDelta piece

theorem TurnState.Calm.textDeltaFrame {s : TurnState} (h : s.Calm) (env : TurnEnv)
    (text : Bytes) : (textDeltaFrame env s text).Calm := by
  unfold StarBridge.textDeltaFrame
  dsimp only
  split
  · exact h.congr rfl rfl
  · have hkept : TurnState.Calm { s with outBuf := appendText env.outMax s.outBuf text } :=
      h.congr rfl rfl
    exact (hkept.emitDelta text).congr rfl rfl

theorem TurnState.Calm.responseFrame {s : TurnState} (h : s.Calm) (env : TurnEnv)
    (text : Bytes) (promptTokens completionTokens : Int) :
    (responseFrame env s text promptTokens completionTokens).Calm := by
  have hanswer : (s.answer env text).Calm := h.congr rfl rfl
  unfold StarBridge.responseFrame
  dsimp only
  split
  · exact hanswer.congr rfl rfl
  · exact (hanswer.emitChunks _).congr rfl rfl

/-- No frame of the agent cancels a turn or ends its stream. -/
theorem TurnState.Calm.dispatchEvent {s : TurnState} (h : s.Calm) (env : TurnEnv)
    (frame : Bytes) (ev : NativeEvent) :
    (dispatchEvent env s frame ev).Meets TurnState.Calm TurnEnd.Plain := by
  unfold StarBridge.dispatchEvent
  split
  · exact h.textDeltaFrame env _
  · exact h.congr rfl rfl
  · exact h.plain (by decide)
  · rename_i message _ _
    have herror : (errorFrame env s message).Calm := h.congr rfl rfl
    exact herror.plain (by decide)
  · rename_i toolName toolArgs _ _
    have hcounted : s.countTool.Calm := h.congr rfl rfl
    obtain ⟨runs, answer, hanswer, -⟩ := answerTool_keeps env s.countTool toolName toolArgs
    unfold toolIntentFrame
    dsimp only
    split
    · exact (hcounted.say env _).plain (by decide)
    · rw [hanswer]
      exact hcounted.congr rfl rfl
  · exact (h.responseFrame env _ _ _).plain (by decide)
  · split
    · exact h.congr rfl rfl
    · exact h.congr rfl rfl
  · exact h.congr rfl rfl

@[simp] theorem sendError_cancelled (env : TurnEnv) (errorType detail : Bytes) (eng : EngineState) :
    (eng.sendError env errorType detail).cancelled = eng.cancelled := by
  unfold EngineState.sendError
  split
  · rfl
  · rfl

/-- A message and an error frame leave a turn calm. -/
theorem TurnState.Calm.report {s : TurnState} (h : s.Calm) (env : TurnEnv)
    (message errorType detail : Bytes) :
    TurnState.Calm
      { s.say env message with
        engine := (s.say env message).engine.sendError env errorType detail } :=
  h.congr (sendError_cancelled env errorType detail s.engine) rfl

theorem TurnState.Calm.frameEvent {s : TurnState} (h : s.Calm) (env : TurnEnv)
    (frame : Bytes) : (frameEvent env s frame).Meets TurnState.Calm TurnEnd.Plain := by
  have hbeat := h.beat env.fullTimeout
  unfold StarBridge.frameEvent
  dsimp only
  split
  · unfold foreignFrame
    split
    · exact hbeat
    · exact (hbeat.report env _ _ _).plain (by decide)
  · exact hbeat.dispatchEvent env frame _

theorem serveControl_stream (env : TurnEnv) (connections : List Bytes) (s : TurnState) :
    (s.serveControl env connections).stream = s.stream :=
  ((clockless_serveControl env connections).keeps s).2

/-- A client that cancels ends the turn at once. -/
theorem TurnState.Calm.controlEvent {s : TurnState} (h : s.Calm) (env : TurnEnv)
    (connections : List Bytes) :
    (controlEvent env s connections).Meets TurnState.Calm TurnEnd.Plain := by
  have hstream := serveControl_stream env connections s
  unfold StarBridge.controlEvent
  dsimp only
  split
  · rename_i hcancelled
    have hlive := h.live
    rw [← hstream] at hlive
    exact ⟨hlive, fun _ => ⟨fun _ => rfl, fun _ => hcancelled.2⟩⟩
  · rename_i hcancelled
    refine ⟨?_, hstream ▸ h.live⟩
    by_cases hplane : env.controlPlane = true
    · simpa using fun hset => hcancelled ⟨hplane, hset⟩
    · unfold TurnState.serveControl
      rw [if_neg hplane]
      exact h.uncancelled

/-- A read without a frame writes a heartbeat, and may be the last. -/
theorem TurnState.Calm.idleEvent {s : TurnState} (h : s.Calm) (env : TurnEnv)
    (late : List Bytes) : (idleEvent env s late).Meets TurnState.Calm TurnEnd.Plain := by
  have hbeat := h.beat (s.remainingTimeout - env.pollMs s.remainingTimeout)
  unfold StarBridge.idleEvent
  dsimp only
  split
  · have hlive := hbeat.live
    rw [← serveControl_stream env late] at hlive
    exact ⟨hlive, fun hother => absurd rfl hother⟩
  · exact hbeat

theorem TurnState.Calm.settle {s : TurnState} (h : s.Calm) (env : TurnEnv) :
    (settle env s).Meets TurnState.Calm TurnEnd.Plain := by
  unfold StarBridge.settle
  split
  · exact h
  · have hreported : (s.emitMetrics (lit "incomplete") 0 0).Calm := h.congr rfl rfl
    exact hreported.plain (by decide)

theorem TurnState.Calm.turnEvent {s : TurnState} (h : s.Calm) (env : TurnEnv)
    (e : LoopEvent) : (turnEvent env s e).Meets TurnState.Calm TurnEnd.Plain := by
  unfold StarBridge.turnEvent
  apply Progress.Meets.bind (I := TurnState.Calm) _ fun s' hs' => hs'.settle env
  cases e with
  | control connections => exact h.controlEvent env connections
  | frame text => exact h.frameEvent env text
  | idle late => exact h.idleEvent env late

/-- A live turn is calm until it is over, and ends plainly. -/
theorem TurnState.Calm.turnProcessEvents {s : TurnState} (h : s.Calm) (env : TurnEnv)
    (events : List LoopEvent) :
    (turnProcessEvents env s events).Meets TurnState.Calm TurnEnd.Plain := by
  have hentered : (s.enter env).Calm := h.congr rfl rfl
  unfold StarBridge.turnProcessEvents
  refine Progress.Meets.bind (hentered.settle env) fun s' hs' => ?_
  exact run_meets (fun t e ht => ht.turnEvent env e) hs' events

theorem freshTurn_calm (model : Bytes) (now : Nat) :
    (freshTurn (some (openedStream model now))).Calm :=
  ⟨rfl, openedStream model now, rfl, openedStream_unfinished model now⟩

theorem TurnState.Calm.afterAck {s : TurnState} (h : s.Calm) (env : TurnEnv) (e : AckEnd) :
    (s.afterAck env e).Calm := by
  unfold TurnState.afterAck
  split
  · exact h
  · split
    · exact h.congr rfl rfl
    · exact h.congr (sendError_cancelled env _ _ s.engine) rfl

/-! ## The end of a stream -/

/-- The turn succeeded, or its client cancelled it: by a DELETE that was served
in the event loop, or by one that came with the deadline. -/
def FramedTurn.Announced (t : FramedTurn) : Prop :=
  t.outcome.ok = true ∨ t.outcome = .processed .cancelledByClient ∨
    (t.outcome = .processed .timeout ∧ t.state.engine.cancelled = true)

/-- A live turn that is over: its stream is open, and it has been cancelled iff
its outcome says so or a DELETE came with the deadline. -/
structure FramedTurn.Over (t : FramedTurn) : Prop where
  live : ∃ stream, t.state.stream = some stream ∧ stream.Unfinished
  announced : t.outcome.ok = false → (t.state.engine.cancelled = true ↔ t.Announced)

theorem framedTurn_over {env : TurnEnv} {turn : TurnState} (h : turn.Calm) {begun : Bool}
    {reads : List (Option Bytes)} {events : List LoopEvent} {t : FramedTurn}
    (hturn : framedTurn env turn begun reads events = some t) : t.Over := by
  -- before the event loop nobody can cancel
  have hearly : ∀ {s : TurnState}, s.Calm → ∀ outcome : FramedOutcome,
      (∀ o, outcome ≠ .processed o) → FramedTurn.Over ⟨outcome, s⟩ := by
    intro s hs outcome hother
    refine ⟨hs.live, fun hfailed => ?_⟩
    constructor
    · intro hcancelled
      have huncancelled := hs.uncancelled
      rw [hcancelled] at huncancelled
      cases huncancelled
    · intro hannounced
      rcases hannounced with hok | hclient | ⟨htimeout, -⟩
      · rw [hfailed] at hok
        cases hok
      · exact absurd hclient (hother _)
      · exact absurd htimeout (hother _)
  unfold framedTurn at hturn
  split at hturn
  · split at hturn
    · cases hturn
    · rename_i e _
      split at hturn
      · have hmeets := h.turnProcessEvents env events
        split at hturn
        · cases hturn
        · rename_i e' hprocessed
          cases hturn
          rw [hprocessed] at hmeets
          refine ⟨hmeets.live, fun hfailed => ?_⟩
          by_cases htimeout : e'.outcome = .timeout
          · constructor
            · intro hcancelled
              exact Or.inr (Or.inr ⟨congrArg FramedOutcome.processed htimeout, hcancelled⟩)
            · intro hannounced
              rcases hannounced with hok | hclient | ⟨-, hcancelled⟩
              · rw [hfailed] at hok
                cases hok
              · rw [htimeout] at hclient
                cases hclient
              · exact hcancelled
          · refine (hmeets.cancelled htimeout).trans ?_
            constructor
            · intro hclient
              exact Or.inr (Or.inl (congrArg FramedOutcome.processed hclient))
            · intro hannounced
              rcases hannounced with hok | hclient | ⟨hlate, -⟩
              · rw [hfailed] at hok
                cases hok
              · exact FramedOutcome.processed.inj hclient
              · exact absurd (FramedOutcome.processed.inj hlate) htimeout
      · cases hturn
        exact hearly (h.afterAck env e) _ (by simp)
  · cases hturn
    exact hearly h _ (by simp)

/-- How the stream of a turn that is over is closed. -/
theorem FramedTurn.close_endsOnce_iff (t : FramedTurn) (later : Nat)
    {stream : ResponsesStreamState} (h : stream.Unfinished) :
    (t.close later stream).stream.EndsOnce ↔
      t.outcome.ok = true ∨ t.state.engine.cancelled = true := by
  unfold FramedTurn.close
  by_cases hok : t.outcome.ok = true
  · rw [if_pos hok]
    have hlast := emitOutputItemDone_unfinished
      (emitContentPartDone_unfinished (emitTextDone_unfinished h))
    have hends := fun incomplete =>
      hlast.endsOnce_iff (eventNames_emitCompleted later incomplete _)
    exact iff_of_true ((hends _).mpr (Or.inl rfl)) (Or.inl hok)
  · rw [if_neg hok]
    by_cases hcancelled : t.state.engine.cancelled = true
    · rw [if_pos hcancelled]
      have hends := h.endsOnce_iff (eventNames_emitFailed (lit "cancelled") stream)
      exact iff_of_true (hends.mpr (Or.inr rfl)) (Or.inr hcancelled)
    · rw [if_neg hcancelled]
      have hends := fun message => h.endsOnce_iff (eventNames_emitError message stream)
      have hunknown : ¬ (lit "response.error" = lit "response.completed" ∨
          lit "response.error" = lit "response.failed") := by decide
      exact iff_of_false (fun honce => hunknown ((hends _).mp honce)) (by simp [hok, hcancelled])

/-- **One terminal event**, exactly: the live stream of a turn that is over ends
with `response.completed` or `response.failed`, and with nothing terminal before,
iff the turn succeeded or its client cancelled it. -/
theorem stream_ends_once_iff (env : TurnEnv) (model : Bytes) (now later : Nat) (begun : Bool)
    (reads : List (Option Bytes)) (events : List LoopEvent) {t : FramedTurn}
    (hturn : framedTurn env (freshTurn (some (openedStream model now))) begun reads events =
      some t) :
    ∃ closed, liveResponse env model now later begun reads events = some closed ∧
      (closed.stream.EndsOnce ↔ t.Announced) := by
  have hover := framedTurn_over (freshTurn_calm model now) hturn
  obtain ⟨stream, hstream, hunfinished⟩ := hover.live
  refine ⟨t.close later stream, ?_, ?_⟩
  · unfold liveResponse
    rw [hturn, Option.bind_some, hstream]
    rfl
  · rw [t.close_endsOnce_iff later hunfinished]
    cases hok : t.outcome.ok with
    | true => exact iff_of_true (Or.inl rfl) (Or.inl hok)
    | false =>
        rw [← hover.announced hok]
        simp

/-- A response to request 2. -/
def hiResponse : Bytes := lit "\x7b\"type\":\"response\",\"id\":\"req-2\",\"text\":\"hi\"\x7d"

/-- An error in request 2. -/
def noError : Bytes := lit "\x7b\"type\":\"error\",\"id\":\"req-2\",\"message\":\"no\"\x7d"

/-- A turn whose response the agent sends. -/
theorem stream_ends_once_iff_answered :
    ∃ t closed,
      framedTurn sampleTurnEnv (freshTurn (some (openedStream (lit "m") 0))) true
        [some acceptance] [.frame hiResponse] = some t ∧
      liveResponse sampleTurnEnv (lit "m") 0 1 true
        [some acceptance] [.frame hiResponse] = some closed ∧
      (closed.stream.EndsOnce ↔ t.Announced) := by
  have hover : (framedTurn sampleTurnEnv (freshTurn (some (openedStream (lit "m") 0))) true
      [some acceptance] [.frame hiResponse]).isSome = true := by decide +kernel
  obtain ⟨t, hturn⟩ := Option.isSome_iff_exists.mp hover
  obtain ⟨closed, hclosed, hends⟩ :=
    stream_ends_once_iff sampleTurnEnv (lit "m") 0 1 true _ _ hturn
  exact ⟨t, closed, hturn, hclosed, hends⟩

/-- An error frame of the agent ends the stream with `response.error`. -/
theorem stream_ends_with_error :
    ∃ closed,
      liveResponse sampleTurnEnv (lit "m") 0 1 true
        [some acceptance] [.frame noError] = some closed ∧
      ¬ closed.stream.EndsOnce := by
  have hnames : (liveResponse sampleTurnEnv (lit "m") 0 1 true
      [some acceptance] [.frame noError]).map
        (fun closed => closed.stream.eventNames.getLast?) = some (some (lit "response.error")) := by
    decide +kernel
  obtain ⟨closed, hclosed, hlast⟩ := Option.map_eq_some_iff.mp hnames
  refine ⟨closed, hclosed, ?_⟩
  rintro ⟨earlier, last, hsplit, hknown, -⟩
  rw [hsplit, List.getLast?_concat] at hlast
  rw [Option.some.inj hlast] at hknown
  exact absurd hknown (by decide +kernel)

end StarBridge
