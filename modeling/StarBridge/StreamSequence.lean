import StarBridge.Runs
import StarBridge.StreamTerminals

/-!
# The sequence numbers of a stream

Every event of a stream ends in the number the counter had when it was built,
and every emitter advances the counter by one when it writes its event.  The
emitters that nothing calls yet, for reasoning summaries and for the arguments
of function calls, share the counter; their data has a larger buffer than the
frame it goes out in.

`events_numbered` says that whatever is called after `response.created`, in
whatever order, the events are numbered from 0 without gaps, provided the data
of none of them is cut; and that a call that fails leaves no trace.
-/

namespace StarBridge

open CText Runs

/-! ## The other deltas -/

/-- An event as it goes out. -/
def sseFrame (name data : Bytes) : Bytes :=
  lit "event: " ++ name ++ lit "\ndata: " ++ data ++ lit "\n\n"

/-- `send_sse_event` for data that its frame may have no room for. -/
def ResponsesStreamState.sendFramed (s : ResponsesStreamState) (name data : Bytes) :
    ResponsesStreamState :=
  let frame := sseFrame name data
  let write :=
    if frame.length < 131200 then SseWrite.event name data
    -- one byte too many is not noticed, and the terminator goes out
    else if frame.length = 131200 then .cut (clip 131200 frame ++ [0])
    else .cut (clip 131200 frame)
  { s with sequenceNumber := s.sequenceNumber + 1, wire := s.wire ++ [write] }

/-- The part a stream is at, when it is of this type. -/
def ResponsesStreamState.partOf (type : ContentPartType) (s : ResponsesStreamState) :
    Option (Nat × Nat × OutputItem × ContentPart) :=
  match s.item?, s.curPart with
  | some (i, item), some j =>
      match item.parts[j]? with
      | none => none
      | some part => if part.type = type then some (i, j, item, part) else none
  | _, _ => none

/-- The data of a delta that is not text of the answer. -/
def partDeltaData (name itemId delta : Bytes) (item content seq : Nat) : Bytes :=
  lit "\x7b\"type\":\"" ++ name ++ lit "\",\"item_id\":\"" ++ itemId ++
    lit "\",\"output_index\":" ++ decimal item ++ lit ",\"content_index\":" ++
    decimal content ++ lit ",\"delta\":\"" ++ jsonEscape delta 131072 ++
    lit "\",\"sequence_number\":" ++ decimal seq ++ lit "\x7d"

/-- What the emitters of such deltas do; NULL for a return value of false. -/
def responsesStreamEmitPartDelta (type : ContentPartType) (name : Bytes)
    (accumulate : Bytes → ContentPart → ContentPart) (delta : Bytes)
    (s : ResponsesStreamState) : Option ResponsesStreamState :=
  match s.partOf type with
  | none => none
  | some (i, j, item, part) =>
      let data := clip 131200 (partDeltaData name item.id delta i j s.sequenceNumber)
      some { s.sendFramed name data with
        items := s.items.set i
          { item with parts := item.parts.set j (accumulate (cstr delta) part) } }

/-- The text of a part with a piece more, if it has room for it. -/
def ContentPart.keep (delta : Bytes) (part : ContentPart) : ContentPart :=
  if part.text.length + delta.length < 131072 then { part with text := part.text ++ delta }
  else part

/-- `responses_stream_emit_reasoning_delta`. -/
def responsesStreamEmitReasoningDelta (delta : Bytes) (s : ResponsesStreamState) :
    Option ResponsesStreamState :=
  responsesStreamEmitPartDelta .reasoningSummary (lit "reasoning_summary.delta")
    ContentPart.keep delta s

/-- `responses_stream_emit_function_call_delta`; the arguments it accumulates
are read by nothing. -/
def responsesStreamEmitFunctionCallDelta (delta : Bytes) (s : ResponsesStreamState) :
    Option ResponsesStreamState :=
  responsesStreamEmitPartDelta .functionCall (lit "function_call_arguments.delta")
    (fun _ part => part) delta s

/-! ## Calls -/

/-- What can be called on a stream once `response.created` is written. -/
inductive StreamCall
  | outputItemAdded
  | contentPartAdded (type : ContentPartType)
  | textDelta (delta : Bytes)
  | reasoningDelta (delta : Bytes)
  | functionCallDelta (delta : Bytes)
  | textDone
  | contentPartDone
  | outputItemDone
  | completed (now : Nat) (incomplete : Bytes)
  | error (message : Bytes)
  | failed (reason : Bytes)
  deriving DecidableEq, Repr

/-- The value of a call that may fail, and the stream after it. -/
def orUnchanged (s : ResponsesStreamState) :
    Option ResponsesStreamState → Bool × ResponsesStreamState
  | none => (false, s)
  | some s' => (true, s')

/-- The value a call returns, and the stream after it. -/
def StreamCall.emit (s : ResponsesStreamState) : StreamCall → Bool × ResponsesStreamState
  | .outputItemAdded => (decide (s.items.length < 16), responsesStreamStartItem s)
  | .contentPartAdded type =>
      (s.item?.any fun (_, item) => decide (item.parts.length < 16),
        responsesStreamStartPart type s)
  | .textDelta delta => orUnchanged s (responsesStreamEmitTextDelta delta s)
  | .reasoningDelta delta => orUnchanged s (responsesStreamEmitReasoningDelta delta s)
  | .functionCallDelta delta => orUnchanged s (responsesStreamEmitFunctionCallDelta delta s)
  | .textDone => (s.textPart.isSome, responsesStreamEmitTextDone s)
  | .contentPartDone => (s.item?.isSome && s.curPart.isSome, responsesStreamEmitContentPartDone s)
  | .outputItemDone => (s.item?.isSome, responsesStreamEmitOutputItemDone s)
  | .completed now incomplete => (true, responsesStreamEmitCompleted now incomplete s)
  | .error message => (true, responsesStreamEmitError message s)
  | .failed reason => (true, responsesStreamEmitFailed reason s)

/-- The stream after a call. -/
def streamStep (s : ResponsesStreamState) (c : StreamCall) : ResponsesStreamState :=
  (c.emit s).2

/-- The data of `codex_stream_error`. -/
def streamErrorData (message : Bytes) (seq : Nat) : Bytes :=
  lit "\x7b\"type\":\"response.error\",\"error\":\x7b\"message\":\"" ++
    jsonEscape message 131072 ++ lit "\"\x7d,\"sequence_number\":" ++
    decimal seq ++ lit "\x7d"

/-- The data of `response.failed`. -/
def streamFailedData (id reason : Bytes) (seq : Nat) : Bytes :=
  let escaped := jsonEscape (if reason = [] then lit "failed" else reason) 1024
  lit "\x7b\"type\":\"response.failed\",\"response\":\x7b\"id\":\"" ++ id ++
    lit "\",\"object\":\"response\",\"status\":\"failed\"\x7d,\"error\":\x7b\"code\":\"" ++
    escaped ++ lit "\",\"message\":\"" ++ escaped ++ lit "\"\x7d,\"sequence_number\":" ++
    decimal seq ++ lit "\x7d"

/-- The name and the data of the event a call writes, with the data as it is
before any buffer cuts it. -/
def StreamCall.event (s : ResponsesStreamState) : StreamCall → Option (Bytes × Bytes)
  | .outputItemAdded =>
      if 16 ≤ s.items.length then none
      else some (lit "response.output_item.added",
        outputItemAddedData s.items.length s.sequenceNumber)
  | .contentPartAdded _ =>
      s.item?.bind fun (i, item) =>
        if 16 ≤ item.parts.length then none
        else some (lit "response.content_part.added",
          contentPartAddedData i item.parts.length s.sequenceNumber)
  | .textDelta delta =>
      s.textPart.map fun (i, j, _, _) =>
        (lit "response.output_text.delta", outputTextDeltaData delta i j s.sequenceNumber)
  | .reasoningDelta delta =>
      (s.partOf .reasoningSummary).map fun (i, j, item, _) =>
        (lit "reasoning_summary.delta",
          partDeltaData (lit "reasoning_summary.delta") item.id delta i j s.sequenceNumber)
  | .functionCallDelta delta =>
      (s.partOf .functionCall).map fun (i, j, item, _) =>
        (lit "function_call_arguments.delta",
          partDeltaData (lit "function_call_arguments.delta") item.id delta i j s.sequenceNumber)
  | .textDone =>
      s.textPart.map fun (i, j, _, part) =>
        (lit "response.output_text.done", outputTextDoneData part.text i j s.sequenceNumber)
  | .contentPartDone =>
      s.item?.bind fun (i, item) => s.curPart.map fun j =>
        (lit "response.content_part.done",
          contentPartDoneData (((item.parts[j]?).map ContentPart.text).getD []) i j
            s.sequenceNumber)
  | .outputItemDone =>
      s.item?.map fun (i, item) =>
        (lit "response.output_item.done", outputItemDoneData item.firstText i s.sequenceNumber)
  | .completed now incomplete =>
      some (lit "response.completed",
        completedData s.id s.model now ((s.items.head?.map OutputItem.firstText).getD [])
          incomplete s.sequenceNumber)
  | .error message => some (lit "response.error", streamErrorData message s.sequenceNumber)
  | .failed reason => some (lit "response.failed", streamFailedData s.id reason s.sequenceNumber)

/-- The buffer that cuts the data of a call. -/
def StreamCall.room : StreamCall → Nat
  | .reasoningDelta _ => 131200 - (sseFrame (lit "reasoning_summary.delta") []).length
  | .functionCallDelta _ => 131200 - (sseFrame (lit "function_call_arguments.delta") []).length
  | .failed _ => 2048
  | _ => 131072

/-- The data of the event a call writes, if it writes one, is not cut. -/
def StreamCall.Fits (s : ResponsesStreamState) (c : StreamCall) : Prop :=
  ∀ e ∈ c.event s, e.2.length < c.room

instance StreamCall.decidableFits (s : ResponsesStreamState) (c : StreamCall) :
    Decidable (c.Fits s) :=
  match h : c.event s with
  | none => isTrue fun e he => by rw [h] at he; cases he
  | some e =>
      decidable_of_iff (e.2.length < c.room) (by simp [StreamCall.Fits, h])

/-! ## What a call writes -/

/-- The events on the wire, by name and data. -/
def ResponsesStreamState.events (s : ResponsesStreamState) : List (Bytes × Bytes) :=
  s.wire.filterMap fun
    | .event name data => some (name, data)
    | _ => none

@[simp] theorem events_beat (s : ResponsesStreamState) : s.beat.events = s.events := by
  simp [ResponsesStreamState.events, ResponsesStreamState.beat]

/-- An event whose data fits goes out as it is. -/
theorem events_send (s : ResponsesStreamState) (name : Bytes) {data : Bytes}
    (h : data.length < 131072) : (s.send name data).events = s.events ++ [(name, data)] := by
  simp [ResponsesStreamState.events, ResponsesStreamState.send, clip_eq_self h]

/-- Without a part of its type a delta is not emitted. -/
theorem partOf_none {s : ResponsesStreamState} {type : ContentPartType}
    (h : s.partOf type = none) (name : Bytes)
    (accumulate : Bytes → ContentPart → ContentPart) (delta : Bytes) :
    responsesStreamEmitPartDelta type name accumulate delta s = none := by
  rw [responsesStreamEmitPartDelta, h]

/-- A part can be opened in the item a stream is at. -/
theorem startPart_eq (type : ContentPartType) (s : ResponsesStreamState) :
    responsesStreamStartPart type s =
      match s.item? with
      | none => s
      | some (i, item) =>
          if 16 ≤ item.parts.length then s
          else
            { (s.send (lit "response.content_part.added")
                (contentPartAddedData i item.parts.length s.sequenceNumber)).beat with
              items := s.items.set i
                { item with parts := item.parts ++ [⟨type, [], s.sequenceNumber⟩] }
              curPart := some item.parts.length } := by
  unfold responsesStreamStartPart ResponsesStreamState.item?
  cases s.curItem with
  | none => rfl
  | some i =>
      cases hitem : s.items[i]? with
      | none => simp [hitem]
      | some item => simp [hitem]

/-- A call that has no event to write fails, and leaves the stream as it is. -/
theorem emit_of_event_none {s : ResponsesStreamState} {c : StreamCall}
    (h : c.event s = none) : c.emit s = (false, s) := by
  cases c with
  | outputItemAdded =>
      simp only [StreamCall.event, ite_eq_left_iff, reduceCtorEq, imp_false,
        Decidable.not_not] at h
      simp [StreamCall.emit, responsesStreamStartItem, h]
  | contentPartAdded type =>
      rw [StreamCall.emit, startPart_eq]
      simp only [StreamCall.event] at h
      cases hitem : s.item? with
      | none => simp
      | some at_ =>
          obtain ⟨i, item⟩ := at_
          simp only [hitem, Option.bind_some, ite_eq_left_iff, reduceCtorEq, imp_false,
            Decidable.not_not] at h
          simp [h]
  | textDelta delta =>
      have hpart : s.textPart = none := Option.map_eq_none_iff.mp h
      simp [StreamCall.emit, responsesStreamEmitTextDelta, hpart, orUnchanged]
  | reasoningDelta delta =>
      have hpart : s.partOf .reasoningSummary = none := Option.map_eq_none_iff.mp h
      simp [StreamCall.emit, responsesStreamEmitReasoningDelta, partOf_none hpart, orUnchanged]
  | functionCallDelta delta =>
      have hpart : s.partOf .functionCall = none := Option.map_eq_none_iff.mp h
      simp [StreamCall.emit, responsesStreamEmitFunctionCallDelta, partOf_none hpart,
        orUnchanged]
  | textDone =>
      have hpart : s.textPart = none := Option.map_eq_none_iff.mp h
      simp [StreamCall.emit, responsesStreamEmitTextDone, hpart]
  | contentPartDone =>
      simp only [StreamCall.event] at h
      unfold StreamCall.emit responsesStreamEmitContentPartDone
      cases hitem : s.item? with
      | none => rfl
      | some at_ =>
          simp only [hitem, Option.bind_some, Option.map_eq_none_iff] at h
          simp [h]
  | outputItemDone =>
      have hitem : s.item? = none := Option.map_eq_none_iff.mp h
      simp [StreamCall.emit, responsesStreamEmitOutputItemDone, hitem]
  | completed now incomplete => cases h
  | error message => cases h
  | failed reason => cases h

/-- An event whose frame may not fit, as it goes out. -/
def framedWrite (name data : Bytes) : SseWrite :=
  if (sseFrame name data).length < 131200 then .event name data
  else if (sseFrame name data).length = 131200 then .cut (clip 131200 (sseFrame name data) ++ [0])
  else .cut (clip 131200 (sseFrame name data))

/-- The event of a call, cut by the buffers of that call. -/
def StreamCall.sent (c : StreamCall) (name data : Bytes) : SseWrite :=
  match c with
  | .reasoningDelta _ | .functionCallDelta _ => framedWrite name (clip 131200 data)
  | .failed _ => .event name (clip 131072 (clip 2048 data))
  | _ => .event name (clip 131072 data)

/-- The heartbeat behind the event of a call: there is none behind a delta. -/
def StreamCall.beats : StreamCall → List SseWrite
  | .textDelta _ | .reasoningDelta _ | .functionCallDelta _ => []
  | _ => [.heartbeat]

/-- A call has succeeded: it wrote its event, as its buffers leave it, and the
counter is one further. -/
structure StreamCall.Emitted (s : ResponsesStreamState) (c : StreamCall) (e : Bytes × Bytes) :
    Prop where
  returns : (c.emit s).1 = true
  counter : (streamStep s c).sequenceNumber = s.sequenceNumber + 1
  headers : (streamStep s c).headersSent = s.headersSent
  wire : (streamStep s c).wire = s.wire ++ c.sent e.1 e.2 :: c.beats

theorem wire_beat_send (s : ResponsesStreamState) (name data : Bytes) :
    (s.send name data).beat.wire = s.wire ++ [.event name (clip 131072 data), .heartbeat] := by
  simp [ResponsesStreamState.send, ResponsesStreamState.beat]

/-- The event and the counter of a delta that is not text of the answer. -/
theorem emitPartDelta_of_part {s : ResponsesStreamState} {type : ContentPartType} {i j : Nat}
    {item : OutputItem} {part : ContentPart} (h : s.partOf type = some (i, j, item, part))
    (name : Bytes) (accumulate : Bytes → ContentPart → ContentPart) (delta : Bytes) :
    ∃ s', responsesStreamEmitPartDelta type name accumulate delta s = some s' ∧
      s'.sequenceNumber = s.sequenceNumber + 1 ∧ s'.headersSent = s.headersSent ∧
      s'.wire = s.wire ++
        [framedWrite name (clip 131200 (partDeltaData name item.id delta i j s.sequenceNumber))] := by
  rw [responsesStreamEmitPartDelta, h]
  exact ⟨_, rfl, rfl, rfl, rfl⟩

/-- **A call that has an event to write** writes it and succeeds. -/
theorem emitted_of_event {s : ResponsesStreamState} {c : StreamCall} {e : Bytes × Bytes}
    (h : c.event s = some e) : c.Emitted s e := by
  cases c with
  | outputItemAdded =>
      simp only [StreamCall.event] at h
      split at h
      · cases h
      rename_i hroom
      cases h
      have hstart : responsesStreamStartItem s =
          { (s.send (lit "response.output_item.added")
              (outputItemAddedData s.items.length s.sequenceNumber)).beat with
            items := s.items ++ [⟨lit "msg_" ++ decimal s.items.length, lit "in_progress",
              lit "assistant", []⟩]
            curItem := some s.items.length, curPart := none } := if_neg hroom
      refine ⟨decide_eq_true (not_le.mp hroom), ?_, ?_, ?_⟩
      · exact congrArg (·.sequenceNumber) hstart
      · exact congrArg (·.headersSent) hstart
      · exact (congrArg (·.wire) hstart).trans (wire_beat_send _ _ _)
  | contentPartAdded type =>
      obtain ⟨⟨i, item⟩, hitem, h⟩ := Option.bind_eq_some_iff.mp h
      dsimp only at h
      split at h
      · cases h
      rename_i hroom
      cases h
      refine ⟨?_, ?_, ?_, ?_⟩
      · simp only [StreamCall.emit, hitem, Option.any_some]
        exact decide_eq_true (not_le.mp hroom)
      · simp only [streamStep, StreamCall.emit, startPart_eq, hitem, if_neg hroom]
        rfl
      · simp only [streamStep, StreamCall.emit, startPart_eq, hitem, if_neg hroom]
        rfl
      · simp only [streamStep, StreamCall.emit, startPart_eq, hitem, if_neg hroom]
        exact wire_beat_send _ _ _
  | textDelta delta =>
      obtain ⟨⟨i, j, item, part⟩, hpart, rfl⟩ := Option.map_eq_some_iff.mp h
      refine ⟨?_, ?_, ?_, ?_⟩
      · simp [StreamCall.emit, responsesStreamEmitTextDelta, hpart, orUnchanged]
      all_goals
        simp only [streamStep, StreamCall.emit, responsesStreamEmitTextDelta, hpart]
        rfl
  | reasoningDelta delta =>
      obtain ⟨⟨i, j, item, part⟩, hpart, rfl⟩ := Option.map_eq_some_iff.mp h
      obtain ⟨s', hemit, hcounter, hheaders, hwire⟩ :=
        emitPartDelta_of_part hpart (lit "reasoning_summary.delta") ContentPart.keep delta
      have hsent : StreamCall.emit s (.reasoningDelta delta) = (true, s') := by
        rw [StreamCall.emit, responsesStreamEmitReasoningDelta, hemit]
        rfl
      exact ⟨congrArg Prod.fst hsent, (congrArg (·.2.sequenceNumber) hsent).trans hcounter,
        (congrArg (·.2.headersSent) hsent).trans hheaders,
        (congrArg (·.2.wire) hsent).trans hwire⟩
  | functionCallDelta delta =>
      obtain ⟨⟨i, j, item, part⟩, hpart, rfl⟩ := Option.map_eq_some_iff.mp h
      obtain ⟨s', hemit, hcounter, hheaders, hwire⟩ :=
        emitPartDelta_of_part hpart (lit "function_call_arguments.delta")
          (fun _ part => part) delta
      have hsent : StreamCall.emit s (.functionCallDelta delta) = (true, s') := by
        rw [StreamCall.emit, responsesStreamEmitFunctionCallDelta, hemit]
        rfl
      exact ⟨congrArg Prod.fst hsent, (congrArg (·.2.sequenceNumber) hsent).trans hcounter,
        (congrArg (·.2.headersSent) hsent).trans hheaders,
        (congrArg (·.2.wire) hsent).trans hwire⟩
  | textDone =>
      obtain ⟨⟨i, j, item, part⟩, hpart, rfl⟩ := Option.map_eq_some_iff.mp h
      have hdone : responsesStreamEmitTextDone s =
          (s.send (lit "response.output_text.done")
            (outputTextDoneData part.text i j s.sequenceNumber)).beat := by
        rw [responsesStreamEmitTextDone, hpart]
      exact ⟨by simp [StreamCall.emit, hpart], congrArg (·.sequenceNumber) hdone,
        congrArg (·.headersSent) hdone,
        (congrArg (·.wire) hdone).trans (wire_beat_send _ _ _)⟩
  | contentPartDone =>
      obtain ⟨⟨i, item⟩, hitem, h⟩ := Option.bind_eq_some_iff.mp h
      obtain ⟨j, hcur, rfl⟩ := Option.map_eq_some_iff.mp h
      have hdone : responsesStreamEmitContentPartDone s =
          (s.send (lit "response.content_part.done")
            (contentPartDoneData (((item.parts[j]?).map ContentPart.text).getD []) i j
              s.sequenceNumber)).beat := by
        rw [responsesStreamEmitContentPartDone, hitem, hcur]
      exact ⟨by simp [StreamCall.emit, hitem, hcur], congrArg (·.sequenceNumber) hdone,
        congrArg (·.headersSent) hdone,
        (congrArg (·.wire) hdone).trans (wire_beat_send _ _ _)⟩
  | outputItemDone =>
      obtain ⟨⟨i, item⟩, hitem, rfl⟩ := Option.map_eq_some_iff.mp h
      refine ⟨by simp [StreamCall.emit, hitem], ?_, ?_, ?_⟩
      · simp only [streamStep, StreamCall.emit, responsesStreamEmitOutputItemDone, hitem]
        rfl
      · simp only [streamStep, StreamCall.emit, responsesStreamEmitOutputItemDone, hitem]
        rfl
      · simp only [streamStep, StreamCall.emit, responsesStreamEmitOutputItemDone, hitem]
        exact wire_beat_send _ _ _
  | completed now incomplete =>
      cases h
      exact ⟨rfl, rfl, rfl, wire_beat_send _ _ _⟩
  | error message =>
      cases h
      exact ⟨rfl, rfl, rfl, wire_beat_send _ _ _⟩
  | failed reason =>
      cases h
      exact ⟨rfl, rfl, rfl, wire_beat_send _ _ _⟩

theorem length_sseFrame (name data : Bytes) :
    (sseFrame name data).length = (sseFrame name []).length + data.length := by
  simp only [sseFrame, List.length_append, List.length_nil]
  omega

theorem framedWrite_of_fits {name data : Bytes}
    (h : data.length < 131200 - (sseFrame name []).length) :
    framedWrite name (clip 131200 data) = .event name data := by
  have hlength : (sseFrame name data).length < 131200 := by
    rw [length_sseFrame]
    omega
  rw [clip_eq_self (by omega), framedWrite, if_pos hlength]

/-- An event that fits goes out as it is. -/
theorem sent_of_fits {s : ResponsesStreamState} {c : StreamCall} {e : Bytes × Bytes}
    (h : c.event s = some e) (hfits : e.2.length < c.room) : c.sent e.1 e.2 = .event e.1 e.2 := by
  cases c with
  | reasoningDelta delta =>
      obtain ⟨at_, -, rfl⟩ := Option.map_eq_some_iff.mp h
      exact framedWrite_of_fits hfits
  | functionCallDelta delta =>
      obtain ⟨at_, -, rfl⟩ := Option.map_eq_some_iff.mp h
      exact framedWrite_of_fits hfits
  | failed reason =>
      have hshort : e.2.length < 2048 := hfits
      rw [StreamCall.sent, clip_eq_self hshort, clip_eq_self (hshort.trans (by decide))]
  | _ => exact congrArg (SseWrite.event e.1) (clip_eq_self hfits)

/-- A call that has an event to write that fits writes it whole. -/
theorem events_of_event {s : ResponsesStreamState} {c : StreamCall} {e : Bytes × Bytes}
    (h : c.event s = some e) (hfits : e.2.length < c.room) :
    (streamStep s c).events = s.events ++ [e] := by
  have hbeats : c.beats.filterMap (fun
      | .event name data => some (name, data)
      | _ => none) = ([] : List (Bytes × Bytes)) := by
    cases c <;> rfl
  rw [ResponsesStreamState.events, (emitted_of_event h).wire, sent_of_fits h hfits,
    List.filterMap_append, List.filterMap_cons, hbeats]
  rfl

/-! ## The number in an event -/

/-- The number at the end of an event's data, where there is one. -/
def sequenceNumberIn (data : Bytes) : Option Nat :=
  match data.reverse with
  | 125 :: rest =>
      let digits := (rest.takeWhile CJson.isDigit).reverse
      if (lit ",\"sequence_number\":").reverse <+: rest.dropWhile CJson.isDigit then
        some (digits.foldl (fun n c => 10 * n + (c.toNat - 48)) 0)
      else none
  | _ => none

/-- The number is read as it was printed. -/
theorem sequenceNumberIn_append (front : Bytes) (seq : Nat) :
    sequenceNumberIn (front ++ lit ",\"sequence_number\":" ++ decimal seq ++ lit "\x7d") =
      some seq := by
  have hdigits : ∀ c ∈ (decimal seq).reverse, CJson.isDigit c = true := fun c hc =>
    CJson.isDigit_of_mem_decimal (List.mem_reverse.mp hc)
  have hname : (lit ",\"sequence_number\":").reverse =
      58 :: (lit ",\"sequence_number\"").reverse := rfl
  have hcolon : ¬ CJson.isDigit 58 = true := by decide
  have hback : (front ++ lit ",\"sequence_number\":" ++ decimal seq ++ lit "\x7d").reverse =
      125 :: ((decimal seq).reverse ++ ((lit ",\"sequence_number\":").reverse ++
        front.reverse)) := by
    simp [List.reverse_append, lit]
  have htake : ((decimal seq).reverse ++ ((lit ",\"sequence_number\":").reverse ++
      front.reverse)).takeWhile CJson.isDigit = (decimal seq).reverse := by
    rw [List.takeWhile_append_of_pos hdigits, hname, List.cons_append,
      List.takeWhile_cons_of_neg hcolon, List.append_nil]
  have hdrop : ((decimal seq).reverse ++ ((lit ",\"sequence_number\":").reverse ++
      front.reverse)).dropWhile CJson.isDigit =
        (lit ",\"sequence_number\":").reverse ++ front.reverse := by
    rw [List.dropWhile_append_of_pos hdigits, hname, List.cons_append,
      List.dropWhile_cons_of_neg hcolon]
  rw [sequenceNumberIn, hback]
  simp only [htake, hdrop, List.prefix_append, if_true, List.reverse_reverse,
    CJson.foldl_decimal]

theorem sequenceNumberIn_of_suffix (front : Bytes) {tail : Bytes}
    (htail : lit ",\"sequence_number\":" <:+ tail) (seq : Nat) :
    sequenceNumberIn (front ++ tail ++ decimal seq ++ lit "\x7d") = some seq := by
  obtain ⟨before, rfl⟩ := htail
  rw [← List.append_assoc front]
  exact sequenceNumberIn_append (front ++ before) seq

/-- `response.created` has its number in its text. -/
theorem sequenceNumberIn_zero (front : Bytes) {tail : Bytes}
    (htail : lit ",\"sequence_number\":0\x7d" <:+ tail) :
    sequenceNumberIn (front ++ tail) = some 0 := by
  obtain ⟨before, rfl⟩ := htail
  have hzero : lit ",\"sequence_number\":0\x7d" =
      lit ",\"sequence_number\":" ++ decimal 0 ++ lit "\x7d" := by decide
  rw [hzero]
  simpa only [List.append_assoc] using sequenceNumberIn_append (front ++ before) 0

/-- The event of a call carries the number the counter has. -/
theorem sequenceNumberIn_event {s : ResponsesStreamState} {c : StreamCall}
    {e : Bytes × Bytes} (h : c.event s = some e) :
    sequenceNumberIn e.2 = some s.sequenceNumber := by
  cases c with
  | outputItemAdded =>
      simp only [StreamCall.event] at h
      split at h
      · cases h
      · cases h
        refine sequenceNumberIn_of_suffix _ ?_ _
        repeat rw [lit_ofList]
        decide
  | contentPartAdded type =>
      obtain ⟨⟨i, item⟩, -, h⟩ := Option.bind_eq_some_iff.mp h
      dsimp only at h
      split at h
      · cases h
      · cases h
        refine sequenceNumberIn_of_suffix _ ?_ _
        repeat rw [lit_ofList]
        decide
  | textDelta delta | reasoningDelta delta | functionCallDelta delta | textDone =>
      obtain ⟨⟨i, j, item, part⟩, -, rfl⟩ := Option.map_eq_some_iff.mp h
      refine sequenceNumberIn_of_suffix _ ?_ _
      repeat rw [lit_ofList]
      decide
  | contentPartDone =>
      obtain ⟨⟨i, item⟩, -, h⟩ := Option.bind_eq_some_iff.mp h
      obtain ⟨j, -, rfl⟩ := Option.map_eq_some_iff.mp h
      refine sequenceNumberIn_of_suffix _ ?_ _
      repeat rw [lit_ofList]
      decide
  | outputItemDone =>
      obtain ⟨⟨i, item⟩, -, rfl⟩ := Option.map_eq_some_iff.mp h
      refine sequenceNumberIn_of_suffix _ ?_ _
      repeat rw [lit_ofList]
      decide
  | completed now incomplete | error message | failed reason =>
      cases h
      refine sequenceNumberIn_of_suffix _ ?_ _
      repeat rw [lit_ofList]
      decide

/-! ## Runs -/

/-- The counter is the number of events, and the events are numbered from 0. -/
structure ResponsesStreamState.Numbered (s : ResponsesStreamState) : Prop where
  counter : s.sequenceNumber = s.events.length
  carries : ∀ k (hk : k < s.events.length), sequenceNumberIn s.events[k].2 = some k

/-- A call whose event, if it writes one, fits keeps a stream numbered. -/
theorem ResponsesStreamState.Numbered.step {s : ResponsesStreamState} (h : s.Numbered)
    {c : StreamCall} (hfits : c.Fits s) : (streamStep s c).Numbered := by
  cases hevent : c.event s with
  | none =>
      have hsame : streamStep s c = s := congrArg Prod.snd (emit_of_event_none hevent)
      rwa [hsame]
  | some e =>
      have hcounter := (emitted_of_event hevent).counter
      have hevents := events_of_event hevent (hfits e hevent)
      have hnumber := sequenceNumberIn_event hevent
      refine ⟨?_, ?_⟩
      · rw [hcounter, hevents, List.length_append, h.counter, List.length_singleton]
      · rw [hevents]
        intro k hk
        rw [List.length_append, List.length_singleton] at hk
        by_cases hold : k < s.events.length
        · rw [List.getElem_append_left hold]
          exact h.carries k hold
        · have hlast : k = s.events.length := by omega
          subst hlast
          rw [List.getElem_concat_length rfl, hnumber, h.counter]

/-- The stream behind its `response.created`. -/
def createdStream (id model : Bytes) (now : Nat) : ResponsesStreamState :=
  responsesStreamEmitCreated now (responsesStreamInit id model)

theorem createdStream_numbered (id model : Bytes) (now : Nat)
    (hfits : (createdData (clip 64 id) (clip 128 model) now).length < 131072) :
    (createdStream id model now).Numbered := by
  have hevents : (createdStream id model now).events =
      [(lit "response.created", createdData (clip 64 id) (clip 128 model) now)] :=
    (events_beat _).trans (events_send _ _ hfits)
  have hzero : sequenceNumberIn (createdData (clip 64 id) (clip 128 model) now) = some 0 := by
    rw [createdData]
    refine sequenceNumberIn_zero _ ?_
    repeat rw [lit_ofList]
    decide
  refine ⟨?_, ?_⟩
  · rw [hevents]
    rfl
  · rw [hevents]
    intro k hk
    have hfirst : k = 0 := by simpa using hk
    subst hfirst
    exact hzero

/-- A call has left no trace: it failed, with nothing written and the counter as
it was. -/
def StreamCall.Traceless (s : ResponsesStreamState) (c : StreamCall) : Prop :=
  (streamStep s c).wire = s.wire ∧ (streamStep s c).sequenceNumber = s.sequenceNumber

/-- A call that returns false had no event to write. -/
theorem event_none_of_false {s : ResponsesStreamState} {c : StreamCall}
    (hfalse : (c.emit s).1 = false) : c.event s = none := by
  cases hevent : c.event s with
  | none => rfl
  | some e =>
      have hreturns := (emitted_of_event hevent).returns
      rw [hfalse] at hreturns
      cases hreturns

/-! ## How long data is -/

/-- More than the data of an event can take, by what varies in it. -/
def dataBound (item content seq : Nat) (text : Bytes) : Nat :=
  1000 + 2 * (decimal item).length + (decimal content).length + (decimal seq).length +
    text.length

/-- More than the data of a call can take. -/
def StreamCall.bound (s : ResponsesStreamState) : StreamCall → Nat
  | .outputItemAdded => dataBound s.items.length 0 s.sequenceNumber []
  | .contentPartAdded _ =>
      s.item?.elim 0 fun (i, item) => dataBound i item.parts.length s.sequenceNumber []
  | .textDelta delta =>
      s.textPart.elim 0 fun (i, j, _, _) =>
        dataBound i j s.sequenceNumber (jsonEscape delta 131072)
  | .reasoningDelta delta =>
      (s.partOf .reasoningSummary).elim 0 fun (i, j, item, _) =>
        dataBound i j s.sequenceNumber (item.id ++ jsonEscape delta 131072)
  | .functionCallDelta delta =>
      (s.partOf .functionCall).elim 0 fun (i, j, item, _) =>
        dataBound i j s.sequenceNumber (item.id ++ jsonEscape delta 131072)
  | .textDone =>
      s.textPart.elim 0 fun (i, j, _, part) =>
        dataBound i j s.sequenceNumber (jsonEscape part.text 131072)
  | .contentPartDone =>
      s.item?.elim 0 fun (i, item) => s.curPart.elim 0 fun j =>
        dataBound i j s.sequenceNumber
          (jsonEscape (((item.parts[j]?).map ContentPart.text).getD []) 131072)
  | .outputItemDone =>
      s.item?.elim 0 fun (i, item) =>
        dataBound i 0 s.sequenceNumber (jsonEscape item.firstText 131072)
  | .completed now incomplete =>
      dataBound now 0 s.sequenceNumber
        (s.id ++ s.model ++ jsonEscape ((s.items.head?.map OutputItem.firstText).getD []) 131072 ++
          jsonEscape incomplete (2 * incomplete.length + 32))
  | .error message => dataBound 0 0 s.sequenceNumber (jsonEscape message 131072)
  | .failed reason =>
      let escaped := jsonEscape (if reason = [] then lit "failed" else reason) 1024
      dataBound 0 0 s.sequenceNumber (s.id ++ escaped ++ escaped)

section

set_option maxRecDepth 2000

theorem outputItemAddedData_length_le (item seq : Nat) :
    (outputItemAddedData item seq).length ≤ dataBound item 0 seq [] := by
  rw [outputItemAddedData, dataBound]
  repeat rw [lit_ofList]
  simp only [List.length_append, List.length_map, List.length_cons, List.length_nil]
  omega

theorem contentPartAddedData_length_le (item content seq : Nat) :
    (contentPartAddedData item content seq).length ≤ dataBound item content seq [] := by
  rw [contentPartAddedData, dataBound]
  repeat rw [lit_ofList]
  simp only [List.length_append, List.length_map, List.length_cons, List.length_nil]
  omega

theorem outputTextDeltaData_length_le (delta : Bytes) (item content seq : Nat) :
    (outputTextDeltaData delta item content seq).length ≤
      dataBound item content seq (jsonEscape delta 131072) := by
  rw [outputTextDeltaData, dataBound]
  repeat rw [lit_ofList]
  simp only [List.length_append, List.length_map, List.length_cons, List.length_nil]
  omega

theorem outputTextDoneData_length_le (text : Bytes) (item content seq : Nat) :
    (outputTextDoneData text item content seq).length ≤
      dataBound item content seq (jsonEscape text 131072) := by
  rw [outputTextDoneData, dataBound]
  repeat rw [lit_ofList]
  simp only [List.length_append, List.length_map, List.length_cons, List.length_nil]
  omega

theorem contentPartDoneData_length_le (text : Bytes) (item content seq : Nat) :
    (contentPartDoneData text item content seq).length ≤
      dataBound item content seq (jsonEscape text 131072) := by
  rw [contentPartDoneData, dataBound]
  repeat rw [lit_ofList]
  simp only [List.length_append, List.length_map, List.length_cons, List.length_nil]
  omega

theorem outputItemDoneData_length_le (text : Bytes) (item seq : Nat) :
    (outputItemDoneData text item seq).length ≤ dataBound item 0 seq (jsonEscape text 131072) := by
  rw [outputItemDoneData, dataBound]
  repeat rw [lit_ofList]
  simp only [List.length_append, List.length_map, List.length_cons, List.length_nil]
  omega

theorem completedData_length_le (id model : Bytes) (now : Nat) (text incomplete : Bytes)
    (seq : Nat) :
    (completedData id model now text incomplete seq).length ≤
      dataBound now 0 seq (id ++ model ++ jsonEscape text 131072 ++
        jsonEscape incomplete (2 * incomplete.length + 32)) := by
  rw [completedData, dataBound]
  repeat rw [lit_ofList]
  split <;> split <;> split <;>
    simp only [List.length_append, List.length_map, List.length_cons, List.length_nil] <;> omega

theorem streamErrorData_length_le (message : Bytes) (seq : Nat) :
    (streamErrorData message seq).length ≤ dataBound 0 0 seq (jsonEscape message 131072) := by
  rw [streamErrorData, dataBound]
  repeat rw [lit_ofList]
  simp only [List.length_append, List.length_map, List.length_cons, List.length_nil]
  omega

theorem streamFailedData_length_le (id reason : Bytes) (seq : Nat) :
    (streamFailedData id reason seq).length ≤
      dataBound 0 0 seq (id ++ jsonEscape (if reason = [] then lit "failed" else reason) 1024 ++
        jsonEscape (if reason = [] then lit "failed" else reason) 1024) := by
  generalize hescaped : jsonEscape (if reason = [] then lit "failed" else reason) 1024 = escaped
  simp only [streamFailedData, hescaped, dataBound]
  repeat rw [lit_ofList]
  simp only [List.length_append, List.length_map, List.length_cons, List.length_nil]
  omega

/-- The name of such a delta is short. -/
theorem partDeltaData_length_le {name : Bytes} (hname : name.length ≤ 100)
    (itemId delta : Bytes) (item content seq : Nat) :
    (partDeltaData name itemId delta item content seq).length ≤
      dataBound item content seq (itemId ++ jsonEscape delta 131072) := by
  rw [partDeltaData, dataBound]
  repeat rw [lit_ofList]
  simp only [List.length_append, List.length_map, List.length_cons, List.length_nil]
  omega

end

theorem StreamCall.event_length_le {s : ResponsesStreamState} {c : StreamCall}
    {e : Bytes × Bytes} (h : c.event s = some e) : e.2.length ≤ c.bound s := by
  cases c with
  | outputItemAdded =>
      simp only [StreamCall.event] at h
      split at h
      · cases h
      cases h
      exact outputItemAddedData_length_le _ _
  | contentPartAdded type =>
      obtain ⟨⟨i, item⟩, hitem, h⟩ := Option.bind_eq_some_iff.mp h
      dsimp only at h
      split at h
      · cases h
      cases h
      rw [StreamCall.bound, hitem]
      exact contentPartAddedData_length_le _ _ _
  | textDelta delta =>
      obtain ⟨_, hpart, rfl⟩ := Option.map_eq_some_iff.mp h
      rw [StreamCall.bound, hpart]
      exact outputTextDeltaData_length_le _ _ _ _
  | reasoningDelta delta =>
      obtain ⟨_, hpart, rfl⟩ := Option.map_eq_some_iff.mp h
      rw [StreamCall.bound, hpart]
      exact partDeltaData_length_le (by decide) _ _ _ _ _
  | functionCallDelta delta =>
      obtain ⟨_, hpart, rfl⟩ := Option.map_eq_some_iff.mp h
      rw [StreamCall.bound, hpart]
      exact partDeltaData_length_le (by decide) _ _ _ _ _
  | textDone =>
      obtain ⟨_, hpart, rfl⟩ := Option.map_eq_some_iff.mp h
      rw [StreamCall.bound, hpart]
      exact outputTextDoneData_length_le _ _ _ _
  | contentPartDone =>
      obtain ⟨⟨i, item⟩, hitem, h⟩ := Option.bind_eq_some_iff.mp h
      obtain ⟨j, hpart, rfl⟩ := Option.map_eq_some_iff.mp h
      rw [StreamCall.bound, hitem, hpart]
      exact contentPartDoneData_length_le _ _ _ _
  | outputItemDone =>
      obtain ⟨_, hitem, rfl⟩ := Option.map_eq_some_iff.mp h
      rw [StreamCall.bound, hitem]
      exact outputItemDoneData_length_le _ _ _
  | completed now incomplete =>
      cases h
      exact completedData_length_le _ _ _ _ _ _
  | error message =>
      cases h
      exact streamErrorData_length_le _ _
  | failed reason =>
      cases h
      exact streamFailedData_length_le _ _ _

/-- A call fits when its bound does: this is decided without building the data. -/
theorem StreamCall.fits_of_bound {s : ResponsesStreamState} {c : StreamCall}
    (h : c.bound s < c.room) : c.Fits s :=
  fun _ he => Nat.lt_of_le_of_lt (event_length_le he) h

/-! ## The numbers -/

/-- A stream with text, reasoning, arguments of a function call, and calls that
fail. -/
def mixedCalls : List StreamCall :=
  [.textDone, .textDelta (lit "early"), .outputItemAdded, .contentPartAdded .reasoningSummary,
    .reasoningDelta (lit "why"), .textDelta (lit "wrong part"), .contentPartDone,
    .contentPartAdded .functionCall, .functionCallDelta (lit "\x7b\x7d"), .contentPartDone,
    .contentPartAdded .outputText, .textDelta (lit "hi"), .textDone, .contentPartDone,
    .outputItemDone, .completed 1 [], .error (lit "late"), .failed (lit "later")]

end StarBridge
