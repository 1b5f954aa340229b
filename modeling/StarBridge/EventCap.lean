import StarBridge.AnswerBytes
import StarBridge.Runs
import StarBridge.StreamTerminals

/-!
# Answers to turns that stop at their cap

A turn that reads `max_turn_events` events is over with what it has.  Whoever writes
its answer is told by `incomplete_details`: the live stream by the context of the
turn, the writer of a block by a flag of the engine, which each framed turn sets and
the block writer clears.  A stream leaves the flag as it is.

`attributed_iff` says for which sequences of requests every answer is marked by its
own turn, and by no other: the flag leaks nothing, but the answer to a compaction
request, which is a framed turn as well, has no place for the mark.
-/

namespace StarBridge

open CText Loops Runs

/-! ## Requests and answers -/

/-- What the turn of a request meets, and when its answer is opened and written. -/
structure TurnScript where
  env : TurnEnv
  begun : Bool
  reads : List (Option Bytes)
  events : List LoopEvent
  now : Nat
  later : Nat
  later_time : later < 2 ^ 63

/-- The framed turn of a request, if it is over. -/
def TurnScript.run (script : TurnScript) (stream : Option ResponsesStreamState) :
    Option FramedTurn :=
  framedTurn script.env (freshTurn stream) script.begun script.reads script.events

/-- A request that is served by a framed turn: POST `/v1/responses`, streaming or not,
and POST `/v1/responses/compact` under its request number.  `ready` says that there is
an agent to talk to. -/
inductive TurnRequest
  | respond (stream ready : Bool) (script : TurnScript)
  | compact (ready : Bool) (number : Nat) (script : TurnScript)

/-- What goes out for it: error objects, the live stream with the time of its last
event, a block, or the answer to a compaction. -/
inductive FramedReply
  | errors (bodies : List Bytes)
  | streamed (created : Nat) (closed : ClosedStream)
  | block (reply : BlockReply)
  | compacted (body : Bytes)

/-- The answer of `handle_compact` to a turn that returned true. -/
def compactBody (cfg : BlockConfig) (number now : Nat) (outBuf : Bytes) : Bytes :=
  let text := if outBuf = [] then lit "Context compacted successfully." else outBuf
  clip 8192
    (lit "\x7b\"id\":\"compact-" ++ decimal number ++
      lit "\",\"object\":\"response\",\"status\":\"completed\",\"model\":\"" ++
      cfg.codexModel ++ lit "\",\"created_at\":" ++ decimal now ++
      lit ",\"output\":[\x7b\"type\":\"text\",\"text\":\"" ++ jsonEscape text 4096 ++
      lit "\",\"annotations\":[]\x7d],\"error\":null,\"finish_reason\":\"stop\"\x7d")

/-- The error object of `handle_compact`. -/
def compactError (number : Nat) (message : Bytes) : Bytes :=
  clip 8192
    (lit "\x7b\"id\":\"compact-" ++ decimal number ++
      lit "\",\"object\":\"response\",\"status\":\"failed\",\"error\":\x7b\"message\":\"" ++
      message ++ lit "\"\x7d\x7d")

/-- The value a framed turn leaves in `turn_event_limited`. -/
def FramedTurn.limited (t : FramedTurn) : Bool :=
  t.outcome.ok && decide (t.outcome = .processed .eventLimit)

/-- One request, by `handle_response` or `handle_compact`: the answer, and what it
leaves in `turn_event_limited`; nothing while the turn is not over.  The input a turn
sends ends in its `context_tokens` line, so there is always a turn. -/
def handleFramed (cfg : BlockConfig) (limited : Bool) :
    TurnRequest → Option (FramedReply × Bool)
  | .respond stream false _ =>
      let unavailable := codexSerializeError (lit "native_agent_unavailable")
      some (.errors (if stream then [unavailable]
        else [unavailable, codexSerializeError (lit "native_agent_protocol_failure")]), limited)
  | .respond true true script =>
      (script.run (some (openedStream cfg.model script.now))).bind fun t =>
        t.state.stream.map fun stream =>
          (.streamed script.later (t.close script.later stream), t.limited)
  | .respond false true script =>
      (script.run none).map fun t =>
        let limited := t.limited
        if t.outcome.ok then
          -- the writer reads the flag and clears it
          (.block (handleResponseBlock cfg script.later t.state.outBuf limited), false)
        else
          (.errors [codexSerializeError (if t.state.outBuf = [] then
            lit "native_agent_protocol_failure" else t.state.outBuf)], limited)
  | .compact false number _ =>
      some (.errors [compactError number
        (lit "Compaction not supported: native agent unavailable")], limited)
  | .compact true number script =>
      (script.run none).map fun t =>
        if t.outcome.ok then
          (.compacted (compactBody cfg number script.later t.state.outBuf), limited)
        else
          (.errors [compactError number (jsonEscape (if t.state.outBuf = [] then
            lit "Compaction failed: native agent error" else t.state.outBuf) 1024)], limited)

/-- The flag behind a request. -/
def flagAfter (cfg : BlockConfig) (limited : Bool) (r : TurnRequest) : Bool :=
  ((handleFramed cfg limited r).map Prod.snd).getD limited

/-! ## Marked answers -/

/-- What `response.completed` begins with, up to the value of `incomplete_details`. -/
def completedHead (id : Bytes) (created : Nat) : Bytes :=
  lit "\x7b\"type\":\"response.completed\",\"response\":\x7b\"id\":\"" ++
    (if id = [] then lit "resp-stream" else id) ++
    lit "\",\"object\":\"response\",\"created_at\":" ++ decimal created ++
    lit ",\"status\":\"completed\",\"error\":null,"

/-- The answer has `incomplete_details` with this reason. -/
def FramedReply.Carries (reason : Bytes) : FramedReply → Prop
  | .streamed created closed => ∃ data, .event (lit "response.completed") data ∈ closed.stream.wire ∧
      completedHead closed.stream.id created ++ lit "\"incomplete_details\":\"" ++ reason ++
        lit "\"" <+: data
  | .block (.response object _) => object.incompleteDetails = reason
  | _ => False

/-- The turn stopped at its cap. -/
def FramedTurn.Capped (t : FramedTurn) : Prop := t.outcome = .processed .eventLimit

instance (t : FramedTurn) : Decidable t.Capped :=
  inferInstanceAs (Decidable (_ = _))

/-- The turn of a request. -/
def TurnRequest.turn? (cfg : BlockConfig) : TurnRequest → Option FramedTurn
  | .respond stream true script =>
      script.run (if stream then some (openedStream cfg.model script.now) else none)
  | .compact true _ script => script.run none
  | _ => none

/-- The writer of the answer takes this text for one it has to clip, or clips it. -/
def TurnRequest.Clips (cfg : BlockConfig) (text : Bytes) : TurnRequest → Prop
  | .respond true _ _ => False
  | .respond false _ _ => cfg.maxOutputBuffer - 1 ≤ text.length ∨
      (0 < cfg.maxOutputChars ∧
        cfg.maxOutputChars.toNat < (clip cfg.maxOutputBuffer text).length)
  | .compact .. => cfg.maxOutputBuffer - 1 ≤ text.length ∨ ¬ Escapes 4096 text

/-- The answer is marked only if its own turn stopped at the cap, and is if that turn
did and its text is not clipped.  The one way out is the writer's own check of a block
that has a model name in it which cannot stand between quotes. -/
def TurnRequest.Attributed (cfg : BlockConfig) (limited : Bool) (r : TurnRequest) : Prop :=
  (∀ reply limited', handleFramed cfg limited r = some (reply, limited') →
    reply.Carries (lit "max_turn_events") → ∃ t, r.turn? cfg = some t ∧ t.Capped) ∧
  ∀ t, r.turn? cfg = some t → t.Capped → ¬ r.Clips cfg t.state.outBuf →
    ∃ reply limited', handleFramed cfg limited r = some (reply, limited') ∧
      (reply.Carries (lit "max_turn_events") ∨
        ¬ CJson.PlainText cfg.model ∧ ∃ body, reply = .block (.error body))

/-- A compaction whose turn stops at its cap, with a text that is not clipped. -/
def TurnRequest.LosesReason (cfg : BlockConfig) : TurnRequest → Prop
  | .compact true number script => ∃ t, script.run none = some t ∧ t.Capped ∧
      ¬ (TurnRequest.compact true number script).Clips cfg t.state.outBuf
  | _ => False

/-! ## What a turn has at its cap -/

/-- The output buffer is a C string, and the identifier of the stream fits its field. -/
structure TurnState.Sound (s : TurnState) : Prop where
  text : 0 ∉ s.outBuf
  named : ∀ stream, s.stream = some stream → stream.id.length < 64

/-- Sound, if the turn stopped at its cap. -/
def TurnEnd.Sound (r : TurnEnd) : Prop := r.outcome = .eventLimit → r.state.Sound

theorem TurnState.Sound.congr {s s' : TurnState} (h : s.Sound) (hout : s'.outBuf = s.outBuf)
    (hstream : s'.stream = s.stream) : s'.Sound :=
  ⟨hout ▸ h.text, hstream ▸ h.named⟩

theorem emitTextDelta_id {s s' : ResponsesStreamState} {delta : Bytes}
    (h : responsesStreamEmitTextDelta delta s = some s') : s'.id = s.id := by
  unfold responsesStreamEmitTextDelta at h
  split at h
  · cases h
  · cases h
    rfl

theorem TurnState.Sound.emitDelta {s : TurnState} (h : s.Sound) (delta : Bytes) :
    (s.emitDelta delta).1.Sound := by
  unfold TurnState.emitDelta
  split
  · exact h
  · rename_i stream hstream
    split
    · exact h
    · rename_i stream' hemit
      refine ⟨h.text, ?_⟩
      rintro _ ⟨rfl⟩
      rw [emitTextDelta_id hemit]
      exact h.named stream hstream

theorem TurnState.Sound.beat {s : TurnState} (h : s.Sound) (remaining : Int) :
    TurnState.Sound { s.beat with remainingTimeout := remaining } := by
  refine ⟨h.text, ?_⟩
  intro stream hstream
  obtain ⟨before, hbefore, rfl⟩ := Option.map_eq_some_iff.mp hstream
  exact h.named before hbefore

theorem TurnState.Sound.textDeltaFrame {s : TurnState} (h : s.Sound) (env : TurnEnv)
    {text : Bytes} (htext : 0 ∉ text) : (textDeltaFrame env s text).Sound := by
  have hkept : TurnState.Sound { s with outBuf := appendText env.outMax s.outBuf text } :=
    ⟨zero_not_mem_appendText h.text htext, h.named⟩
  unfold StarBridge.textDeltaFrame
  dsimp only
  split
  · exact hkept.congr rfl rfl
  · exact (hkept.emitDelta text).congr rfl rfl

theorem TurnState.Sound.dispatchEvent {s : TurnState} (h : s.Sound) (env : TurnEnv)
    (frame : Bytes) :
    (dispatchEvent env s frame (nativeParseFrame env.parser frame)).Meets TurnState.Sound
      TurnEnd.Sound := by
  have hraw : (rawFrame env s frame).Sound := ⟨stop_not_mem_upTo 0 _, h.named⟩
  unfold StarBridge.dispatchEvent
  split
  · rename_i text _ _ _ hdata
    exact h.textDeltaFrame env (response_text_bounds env.parser frame hdata).1
  · exact h.congr rfl rfl
  · exact nofun
  · exact nofun
  · rename_i toolName toolArgs _ _
    unfold toolIntentFrame
    dsimp only
    split
    · exact nofun
    · obtain ⟨runs, answer, hanswer, -⟩ := answerTool_keeps env s.countTool toolName toolArgs
      rw [hanswer]
      exact h.congr rfl rfl
  · exact nofun
  · split
    · exact h.congr rfl rfl
    · exact hraw
  · exact hraw

theorem TurnState.Sound.settle {s : TurnState} (h : s.Sound) (env : TurnEnv) :
    (settle env s).Meets TurnState.Sound TurnEnd.Sound := by
  unfold StarBridge.settle
  split
  · exact h
  · exact fun _ => h.congr rfl rfl

/-- **One round** leaves a sound state behind, at the cap as well. -/
theorem TurnState.Sound.turnEvent {s : TurnState} (h : s.Sound) (env : TurnEnv) (e : LoopEvent) :
    (turnEvent env s e).Meets TurnState.Sound TurnEnd.Sound := by
  unfold StarBridge.turnEvent
  refine Progress.Meets.bind (I := TurnState.Sound) ?_ fun t ht => ht.settle env
  cases e with
  | control connections =>
      dsimp only [controlEvent]
      split
      · intro h
        cases h
      · unfold TurnState.serveControl
        split
        · exact h.congr rfl rfl
        · exact h
  | frame text =>
      by_cases hforeign : IsForeign env text
      · dsimp only
        rw [frameEvent_of_foreign_id hforeign, foreignFrame]
        split
        · exact h.beat env.fullTimeout
        · intro h
          cases h
      · dsimp only
        rw [frameEvent_of_mine hforeign]
        exact (h.beat env.fullTimeout).dispatchEvent env text
  | idle late =>
      dsimp only [idleEvent]
      split
      · intro h
        cases h
      · exact h.beat _

/-- A turn that stops at its cap leaves a sound state. -/
theorem TurnState.Sound.turnProcessEvents {s : TurnState} (h : s.Sound) (env : TurnEnv)
    (events : List LoopEvent) :
    (turnProcessEvents env s events).Meets TurnState.Sound TurnEnd.Sound := by
  have hentered : (s.enter env).Sound := h.congr rfl rfl
  unfold StarBridge.turnProcessEvents
  refine Progress.Meets.bind (hentered.settle env) fun t ht => ?_
  exact run_meets (fun s e hs => hs.turnEvent env e) ht events

theorem freshTurn_sound {stream : Option ResponsesStreamState}
    (h : ∀ s, stream = some s → s.id.length < 64) : (freshTurn stream).Sound :=
  ⟨List.not_mem_nil, h⟩

/-- The state of a framed turn that stopped at its cap. -/
theorem TurnScript.run_sound {script : TurnScript} {stream : Option ResponsesStreamState}
    {t : FramedTurn} (hstream : ∀ s, stream = some s → s.id.length < 64)
    (hrun : script.run stream = some t) (hcap : t.Capped) : t.state.Sound := by
  unfold TurnScript.run framedTurn at hrun
  split at hrun
  · split at hrun
    · cases hrun
    · split at hrun
      · have hsound :=
          (freshTurn_sound hstream).turnProcessEvents script.env script.events
        split at hrun
        · cases hrun
        · rename_i r hended
          rw [hended] at hsound
          cases hrun
          exact hsound (FramedOutcome.processed.inj hcap)
      · cases hrun
        cases hcap
  · cases hrun
    cases hcap

/-! ## The mark on a stream -/

theorem id_emitTextDone (s : ResponsesStreamState) : (responsesStreamEmitTextDone s).id = s.id := by
  unfold responsesStreamEmitTextDone
  split <;> rfl

theorem id_emitContentPartDone (s : ResponsesStreamState) :
    (responsesStreamEmitContentPartDone s).id = s.id := by
  unfold responsesStreamEmitContentPartDone
  split <;> rfl

theorem id_emitOutputItemDone (s : ResponsesStreamState) :
    (responsesStreamEmitOutputItemDone s).id = s.id := by
  unfold responsesStreamEmitOutputItemDone
  split <;> rfl

/-- The value of `incomplete_details` stands right behind the head. -/
theorem completedData_head (id model : Bytes) (now : Nat) (text incomplete : Bytes) (seq : Nat) :
    ∃ rest, completedData id model now text incomplete seq =
      completedHead id now ++ ((if incomplete = [] then lit "\"incomplete_details\":null"
        else lit "\"incomplete_details\":\"" ++
          jsonEscape incomplete (2 * incomplete.length + 32) ++ lit "\"") ++ rest) := by
  unfold completedData completedHead
  simp only [List.append_assoc]
  exact ⟨_, rfl⟩

/-- What stands first in a text stands first in what a buffer holds of it. -/
theorem prefix_clip {size : Nat} {front : Bytes} (h : front.length < size) (rest : Bytes) :
    front <+: clip size (front ++ rest) := by
  rw [clip, List.take_append, List.take_of_length_le (by omega)]
  exact List.prefix_append _ _

theorem length_completedHead_le {id : Bytes} (hid : id.length < 64) {created : Nat}
    (hcreated : created < 2 ^ 63) : (completedHead id created).length ≤ 250 := by
  have hname : (if id = [] then lit "resp-stream" else id).length ≤ 63 := by
    split
    · exact (show (lit "resp-stream").length = 11 from length_lit _).trans_le (by decide)
    · omega
  have htime : (decimal created).length ≤ 19 :=
    CJson.length_decimal_le (by decide) (hcreated.trans (by decide))
  rw [completedHead]
  generalize (if id = [] then lit "resp-stream" else id) = shown at hname ⊢
  repeat rw [lit_ofList]
  simp only [List.length_append, List.length_map, List.length_cons, List.length_nil]
  omega

theorem mem_eventNames {s : ResponsesStreamState} {name data : Bytes}
    (h : .event name data ∈ s.wire) : name ∈ s.eventNames :=
  List.mem_filterMap.mpr ⟨_, h, rfl⟩

/-- Only a completed stream has an event that could carry a reason. -/
theorem not_carries_of_names {created : Nat} {closed : ClosedStream} {reason : Bytes}
    (h : lit "response.completed" ∉ closed.stream.eventNames) :
    ¬ (FramedReply.streamed created closed).Carries reason := by
  rintro ⟨data, hmem, -⟩
  exact h (mem_eventNames hmem)

theorem wire_emitCompleted (later : Nat) (incomplete : Bytes) (s : ResponsesStreamState) :
    (responsesStreamEmitCompleted later incomplete s).wire =
      s.wire ++ [.event (lit "response.completed") (clip 131072 (completedData s.id s.model later
        ((s.items.head?.map OutputItem.firstText).getD []) incomplete s.sequenceNumber)),
        .heartbeat] :=
  List.append_assoc _ _ _

/-- A stream that is completed without a reason carries none. -/
theorem not_carries_completed {s : ResponsesStreamState} (h : s.Unfinished) (later : Nat)
    (marker : Bool) (reason : Bytes) :
    ¬ (FramedReply.streamed later
        ⟨responsesStreamEmitCompleted later [] s, marker⟩).Carries reason := by
  obtain ⟨rest, hdata⟩ := completedData_head s.id s.model later
    ((s.items.head?.map OutputItem.firstText).getD []) [] s.sequenceNumber
  rintro ⟨data, hmem, hhead⟩
  rw [wire_emitCompleted] at hmem
  rcases List.mem_append.mp hmem with hbefore | hlast
  · exact h _ (mem_eventNames hbefore) (Or.inl rfl)
  · have hlast' : data = clip 131072 (completedData s.id s.model later
        ((s.items.head?.map OutputItem.firstText).getD []) [] s.sequenceNumber) := by
      simpa using hlast
    rw [hlast'] at hhead
    have hvalue := hhead.trans (List.take_prefix _ _)
    rw [hdata, if_pos rfl, List.append_assoc, List.append_assoc] at hvalue
    have hcut := (List.prefix_append_right_inj _).mp hvalue
    -- one value starts with a quote, the other is `null`
    simp [lit, List.cons_prefix_cons] at hcut

/-- A stream that is completed with a reason carries it. -/
theorem carries_completed {s : ResponsesStreamState} (hid : s.id.length < 64) {later : Nat}
    (hlater : later < 2 ^ 63) (marker : Bool) :
    (FramedReply.streamed later
        ⟨responsesStreamEmitCompleted later (lit "max_turn_events") s, marker⟩).Carries
        (lit "max_turn_events") := by
  obtain ⟨rest, hdata⟩ := completedData_head s.id s.model later
    ((s.items.head?.map OutputItem.firstText).getD []) (lit "max_turn_events") s.sequenceNumber
  refine ⟨clip 131072 (completedData s.id s.model later
    ((s.items.head?.map OutputItem.firstText).getD []) (lit "max_turn_events") s.sequenceNumber),
    ?_, ?_⟩
  · rw [wire_emitCompleted]
    exact List.mem_append_right _ List.mem_cons_self
  · show completedHead s.id later ++ _ ++ _ ++ _ <+: _
    have hreason : lit "max_turn_events" ≠ [] := by decide
    have hescaped : jsonEscape (lit "max_turn_events")
        (2 * (lit "max_turn_events").length + 32) = lit "max_turn_events" := by decide
    have hhead := length_completedHead_le hid hlater
    have hfits : (completedHead s.id later ++ (lit "\"incomplete_details\":\"" ++
        lit "max_turn_events" ++ lit "\"")).length < 131072 := by
      repeat rw [lit_ofList]
      simp only [List.length_append, List.length_map, List.length_cons, List.length_nil]
      omega
    rw [hdata, if_neg hreason, hescaped, ← List.append_assoc]
    have hfront := prefix_clip hfits rest
    simp only [List.append_assoc] at hfront ⊢
    exact hfront

/-- **A live stream is marked by its own turn.** -/
theorem FramedTurn.close_carries_iff (t : FramedTurn) {later : Nat} (hlater : later < 2 ^ 63)
    {stream : ResponsesStreamState} (h : stream.Unfinished)
    (hid : t.Capped → stream.id.length < 64) :
    (FramedReply.streamed later (t.close later stream)).Carries (lit "max_turn_events") ↔
      t.Capped := by
  have hnames : ∀ name, name ≠ lit "response.completed" →
      lit "response.completed" ∉ stream.eventNames ++ [name] := by
    intro name hname hmem
    rcases List.mem_append.mp hmem with hbefore | hlast
    · exact h _ hbefore (Or.inl rfl)
    · exact hname (List.mem_singleton.mp hlast).symm
  unfold FramedTurn.close
  by_cases hok : t.outcome.ok = true
  · rw [if_pos hok]
    have hlast := emitOutputItemDone_unfinished
      (emitContentPartDone_unfinished (emitTextDone_unfinished h))
    by_cases hcap : t.Capped
    · dsimp only
      rw [if_pos (show t.outcome = .processed .eventLimit from hcap)]
      refine iff_of_true (carries_completed ?_ hlater true) hcap
      rw [id_emitOutputItemDone, id_emitContentPartDone, id_emitTextDone]
      exact hid hcap
    · dsimp only
      rw [if_neg (show ¬ t.outcome = .processed .eventLimit from hcap)]
      exact iff_of_false (not_carries_completed hlast later true _) hcap
  · have hcap : ¬ t.Capped := by
      intro hcap
      rw [show t.outcome = .processed .eventLimit from hcap] at hok
      exact hok rfl
    rw [if_neg hok]
    split
    · refine iff_of_false (not_carries_of_names ?_) hcap
      rw [eventNames_emitFailed]
      exact hnames _ (by decide)
    · refine iff_of_false (not_carries_of_names ?_) hcap
      rw [eventNames_emitError]
      exact hnames _ (by decide)

/-! ## The mark on a block -/

/-- The reason the writer gives is the cap iff it is told so and clips nothing. -/
theorem blockContent_reason_iff (cfg : BlockConfig) (script : TurnScript) (outBuf : Bytes)
    (limited : Bool) :
    (blockContent cfg outBuf limited).2 = lit "max_turn_events" ↔
      limited = true ∧ ¬ (TurnRequest.respond false true script).Clips cfg outBuf := by
  have hbuffer : lit "max_output_buffer" ≠ lit "max_turn_events" := by decide
  have hchars : lit "max_output_chars" ≠ lit "max_turn_events" := by decide
  have hnone : ([] : Bytes) ≠ lit "max_turn_events" := by decide
  unfold blockContent TurnRequest.Clips
  dsimp only
  rw [not_or]
  split_ifs with hfull hlong hcap
  · exact iff_of_false hbuffer fun h => h.2.1 (of_decide_eq_true hfull)
  · exact iff_of_false hchars fun h => h.2.2 (of_decide_eq_true hlong)
  · exact iff_of_true rfl ⟨hcap, by simpa using hfull, by simpa using hlong⟩
  · exact iff_of_false hnone fun h => hcap h.1

theorem block_carries_iff (cfg : BlockConfig) (script : TurnScript) {now : Nat} {outBuf body : Bytes}
    {limited : Bool} {object : ResponseObject}
    (h : handleResponseBlock cfg now outBuf limited = .response object body) :
    (FramedReply.block (.response object body)).Carries (lit "max_turn_events") ↔
      limited = true ∧ ¬ (TurnRequest.respond false true script).Clips cfg outBuf := by
  have hdetails : object.incompleteDetails = (blockContent cfg outBuf limited).2 := by
    have hmem := blockContent_details cfg outBuf limited
    have hall : ∀ d ∈ [lit "max_output_buffer", lit "max_output_chars",
        lit "max_turn_events", []], clip 128 d = d := by decide
    unfold handleResponseBlock at h
    dsimp only at h
    split at h
    · cases h
    · cases h
      exact hall _ hmem
  show object.incompleteDetails = _ ↔ _
  rw [hdetails]
  exact blockContent_reason_iff cfg script outBuf limited

theorem FramedTurn.limited_iff (t : FramedTurn) : t.limited = true ↔ t.Capped := by
  unfold FramedTurn.limited
  rw [Bool.and_eq_true, decide_eq_true_iff]
  refine ⟨fun h => h.2, fun hcap => ⟨?_, hcap⟩⟩
  rw [show t.outcome = .processed .eventLimit from hcap]
  rfl

/-! ## Runs of requests -/

/-- An answer that was not preceded by a turn of the request has no mark. -/
theorem attributed_of_no_turn {cfg : BlockConfig} {limited : Bool} {r : TurnRequest}
    (hturn : r.turn? cfg = none)
    (hreply : ∀ reply limited', handleFramed cfg limited r = some (reply, limited') →
      ¬ reply.Carries (lit "max_turn_events")) : r.Attributed cfg limited := by
  refine ⟨fun reply limited' h hcarries => absurd hcarries (hreply reply limited' h), ?_⟩
  intro t ht
  rw [hturn] at ht
  cases ht

/-- An answer that is marked iff the turn stopped at its cap, or iff it did without
being clipped. -/
theorem attributed_of_reply {cfg : BlockConfig} {limited limited' : Bool} {r : TurnRequest}
    {t : FramedTurn} {reply : FramedReply} (hturn : r.turn? cfg = some t)
    (hreply : handleFramed cfg limited r = some (reply, limited'))
    (honly : reply.Carries (lit "max_turn_events") → t.Capped)
    (hmarked : t.Capped → ¬ r.Clips cfg t.state.outBuf →
      reply.Carries (lit "max_turn_events") ∨
        ¬ CJson.PlainText cfg.model ∧ ∃ body, reply = .block (.error body)) :
    r.Attributed cfg limited := by
  refine ⟨?_, ?_⟩
  · intro reply' limited'' h hcarries
    rw [hreply] at h
    cases h
    exact ⟨t, hturn, honly hcarries⟩
  · intro t' ht' hcap hclips
    rw [hturn] at ht'
    cases ht'
    exact ⟨reply, limited', hreply, hmarked hcap hclips⟩

/-- A streaming request. -/
theorem streamed_attributed (cfg : BlockConfig) (limited : Bool) (script : TurnScript) :
    (TurnRequest.respond true true script).Attributed cfg limited := by
  cases hrun : script.run (some (openedStream cfg.model script.now)) with
  | none =>
      refine attributed_of_no_turn hrun fun reply limited' h => ?_
      rw [handleFramed, hrun] at h
      cases h
  | some t =>
      obtain ⟨stream, hstream, hunfinished⟩ :=
        (framedTurn_over (freshTurn_calm cfg.model script.now) hrun).live
      have hreply : handleFramed cfg limited (.respond true true script) =
          some (.streamed script.later (t.close script.later stream), t.limited) := by
        rw [handleFramed, hrun, Option.bind_some, hstream]
        rfl
      have hopened : ∀ s, some (openedStream cfg.model script.now) = some s → s.id.length < 64 := by
        rintro _ ⟨rfl⟩
        exact length_clip_lt (by decide) _
      have hiff := t.close_carries_iff script.later_time hunfinished fun hcap =>
        (TurnScript.run_sound hopened hrun hcap).named stream hstream
      exact attributed_of_reply hrun hreply hiff.mp fun hcap _ => Or.inl (hiff.mpr hcap)

/-- A request that is answered by a block: the flag the writer reads is that of its own
turn. -/
theorem block_attributed (cfg : BlockConfig) (limited : Bool) (script : TurnScript) :
    (TurnRequest.respond false true script).Attributed cfg limited := by
  cases hrun : script.run none with
  | none =>
      refine attributed_of_no_turn hrun fun reply limited' h => ?_
      rw [handleFramed, hrun] at h
      cases h
  | some t =>
      by_cases hok : t.outcome.ok = true
      · have hreply : handleFramed cfg limited (.respond false true script) =
            some (.block (handleResponseBlock cfg script.later t.state.outBuf t.limited), false) := by
          rw [handleFramed, hrun, Option.map_some, if_pos hok]
        generalize hwritten :
          handleResponseBlock cfg script.later t.state.outBuf t.limited = written at hreply
        cases written with
        | response object body =>
            have hiff := block_carries_iff cfg script hwritten
            refine attributed_of_reply hrun hreply
              (fun hcarries => t.limited_iff.mp (hiff.mp hcarries).1) ?_
            intro hcap hclips
            exact Or.inl (hiff.mpr ⟨t.limited_iff.mpr hcap, hclips⟩)
        | error body =>
            refine attributed_of_reply hrun hreply nofun fun hcap _ => ?_
            refine Or.inr ⟨fun hmodel => ?_, body, rfl⟩
            have hstate := TurnScript.run_sound (fun _ h => by cases h) hrun hcap
            obtain ⟨body', hsent⟩ := response_sent hmodel script.later hstate.text t.limited
            rw [hwritten] at hsent
            cases hsent
      · have hreply : handleFramed cfg limited (.respond false true script) =
            some (.errors [codexSerializeError (if t.state.outBuf = [] then
              lit "native_agent_protocol_failure" else t.state.outBuf)], t.limited) := by
          rw [handleFramed, hrun, Option.map_some, if_neg hok]
        refine attributed_of_reply hrun hreply nofun fun hcap => ?_
        rw [show t.outcome = .processed .eventLimit from hcap] at hok
        exact absurd rfl hok

/-- The answer to a compaction has no place for the reason. -/
theorem compact_attributed_iff (cfg : BlockConfig) (limited : Bool) (number : Nat)
    (script : TurnScript) :
    (TurnRequest.compact true number script).Attributed cfg limited ↔
      ¬ (TurnRequest.compact true number script).LosesReason cfg := by
  have hunmarked : ∀ reply limited', handleFramed cfg limited (.compact true number script) =
      some (reply, limited') → ¬ reply.Carries (lit "max_turn_events") ∧
        ∀ body, reply ≠ .block (.error body) := by
    intro reply limited' h
    obtain ⟨t, -, hreply⟩ := Option.map_eq_some_iff.mp h
    split at hreply
    · cases hreply
      exact ⟨nofun, nofun⟩
    · cases hreply
      exact ⟨nofun, nofun⟩
  constructor
  · rintro ⟨-, hmarked⟩ ⟨t, hrun, hcap, hclips⟩
    obtain ⟨reply, limited', hreply, hcarries | ⟨-, body, hbody⟩⟩ := hmarked t hrun hcap hclips
    · exact (hunmarked reply limited' hreply).1 hcarries
    · exact (hunmarked reply limited' hreply).2 body hbody
  · intro hkeeps
    refine ⟨fun reply limited' h hcarries => absurd hcarries (hunmarked reply limited' h).1, ?_⟩
    intro t hrun hcap hclips
    exact absurd ⟨t, hrun, hcap, hclips⟩ hkeeps

theorem attributed_step_iff (cfg : BlockConfig) (limited : Bool) (r : TurnRequest) :
    r.Attributed cfg limited ↔ ¬ r.LosesReason cfg := by
  match r with
  | .respond true true script => exact iff_of_true (streamed_attributed cfg limited script) id
  | .respond false true script => exact iff_of_true (block_attributed cfg limited script) id
  | .respond stream false script =>
      refine iff_of_true (attributed_of_no_turn rfl ?_) id
      rintro reply limited' ⟨rfl, rfl⟩
      exact id
  | .compact true number script => exact compact_attributed_iff cfg limited number script
  | .compact false number script =>
      refine iff_of_true (attributed_of_no_turn rfl ?_) id
      rintro reply limited' ⟨rfl, rfl⟩
      exact id

/-- **Incompleteness is attributed to its own turn**, exactly.  In a run of requests,
whatever the flag is in front of it, every answer is marked by its own turn alone, and
is marked when that turn stopped at the cap, iff no compaction turn of the run stops
there with its text whole. -/
theorem attributed_iff (cfg : BlockConfig) (limited : Bool) (requests : List TurnRequest) :
    AllSteps (flagAfter cfg) (fun limited r => r.Attributed cfg limited) limited requests ↔
      ∀ r ∈ requests, ¬ r.LosesReason cfg := by
  rw [AllSteps.congr fun limited r => attributed_step_iff cfg limited r]
  exact AllSteps.forall_iff

/-- A turn with a cap of one event that reads one delta. -/
def cappedScript : TurnScript where
  env := oneEventEnv
  begun := true
  reads := [some acceptance]
  events := [.frame hiDelta]
  now := 0
  later := 0
  later_time := Nat.two_pow_pos 63

/-- A compaction that stops at the cap is answered as if it were complete. -/
theorem compaction_unmarked :
    (∃ t, (TurnRequest.compact true 2 cappedScript).turn? sampleBlock = some t ∧ t.Capped) ∧
      ¬ (TurnRequest.compact true 2 cappedScript).Attributed sampleBlock false := by
  have hturn : ((cappedScript.run none).map fun t =>
      (decide t.Capped, t.state.outBuf)) = some (true, lit "hi") := by decide +kernel
  obtain ⟨t, hrun, hstate⟩ := Option.map_eq_some_iff.mp hturn
  have hcap : t.Capped := of_decide_eq_true (congrArg Prod.fst hstate)
  have htext : t.state.outBuf = lit "hi" := congrArg Prod.snd hstate
  refine ⟨⟨t, hrun, hcap⟩, fun hmarked => ?_⟩
  refine (compact_attributed_iff sampleBlock false 2 cappedScript).mp hmarked ⟨t, hrun, hcap, ?_⟩
  rw [htext]
  rintro (hfull | hcut)
  · exact absurd hfull (by decide)
  · exact hcut (by decide)

end StarBridge
