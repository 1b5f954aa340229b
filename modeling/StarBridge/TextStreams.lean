import StarBridge.StreamPayloads

/-!
# The texts a text stream closes with

A stream of text opens its item and its part, writes a delta for every piece and
closes with events that repeat the text the part has kept.  The part drops a
piece it has no room for, `json_escape` drops what its buffer has no room for, and
the payload is cut at its own.

`payloads_whole_iff` says when none of this happens: the rest of
`response.completed` is the longest, so its room decides for all the payloads.
-/

namespace StarBridge

open CText Runs JsonGrammar

/-! ## The stream -/

/-- The calls of a text stream behind its `response.created`. -/
def textCalls (later : Nat) (incomplete : Bytes) (deltas : List Bytes) : List StreamCall :=
  [.outputItemAdded, .contentPartAdded .outputText] ++ deltas.map .textDelta ++
    [.textDone, .contentPartDone, .outputItemDone, .completed later incomplete]

/-- A text stream when it is closed. -/
def textStream (id model : Bytes) (now later : Nat) (incomplete : Bytes) (deltas : List Bytes) :
    ResponsesStreamState :=
  stateAfter streamStep (createdStream id model now) (textCalls later incomplete deltas)

/-- The data of the events of one name. -/
def eventsNamed (name : Bytes) (events : List (Bytes × Bytes)) : List Bytes :=
  events.filterMap fun e => if e.1 = name then some e.2 else none

/-- One event of this name has been written, and has this text at the end of the
path. -/
def ResponsesStreamState.SaysText (s : ResponsesStreamState) (name : Bytes) (path : List Hop)
    (text : Bytes) : Prop :=
  ∃ data v, eventsNamed name s.events = [data] ∧ IsJson data v ∧ v.follow path = some (.string text)

/-- Every payload is one JSON value, and the closing events have the text. -/
structure ResponsesStreamState.PayloadsWhole (s : ResponsesStreamState) (text : Bytes) :
    Prop where
  wellFormed : ∀ e ∈ s.events, ∃ v, IsJson e.2 v
  textDone : s.SaysText (lit "response.output_text.done") [.member (lit "text")] text
  contentPartDone : s.SaysText (lit "response.content_part.done")
    [.member (lit "part"), .member (lit "text")] text
  completed : s.SaysText (lit "response.completed")
    [.member (lit "response"), .member (lit "output"), .first, .member (lit "content"), .first,
      .member (lit "text")] text

/-! ## What it writes -/

/-- The text of the part with a piece more, if it has room for it. -/
def keepPiece (text delta : Bytes) : Bytes :=
  if text.length + (cstr delta).length < 131072 then text ++ cstr delta else text

/-- The item of a text stream. -/
def textItem (status text : Bytes) : OutputItem :=
  ⟨lit "msg_" ++ decimal 0, status, lit "assistant", [⟨.outputText, text, 2⟩]⟩

/-- The stream is at its only part: what it is called, how far it has counted,
what the part has kept and what is on the wire. -/
structure ResponsesStreamState.OnPart (s : ResponsesStreamState) (id model : Bytes) (seq : Nat)
    (text : Bytes) (events : List (Bytes × Bytes)) : Prop where
  id : s.id = id
  model : s.model = model
  counter : s.sequenceNumber = seq
  items : s.items = [textItem (lit "in_progress") text]
  curItem : s.curItem = some 0
  curPart : s.curPart = some 0
  events : s.events = events

/-- What `send` puts on the wire. -/
theorem events_send_clip (s : ResponsesStreamState) (name data : Bytes) :
    (s.send name data).events = s.events ++ [(name, clip 131072 data)] := by
  simp [ResponsesStreamState.events, ResponsesStreamState.send]

/-- The events of the deltas, numbered from `seq`. -/
def deltaEvents : Nat → List Bytes → List (Bytes × Bytes)
  | _, [] => []
  | seq, delta :: deltas =>
      (lit "response.output_text.delta", clip 131072 (outputTextDeltaData delta 0 0 seq)) ::
        deltaEvents (seq + 1) deltas

namespace ResponsesStreamState.OnPart

variable {s : ResponsesStreamState} {id model : Bytes} {seq : Nat} {text : Bytes}
  {events : List (Bytes × Bytes)} (h : s.OnPart id model seq text events)

include h

theorem textPart :
    s.textPart = some (0, 0, textItem (lit "in_progress") text, ⟨.outputText, text, 2⟩) := by
  simp [ResponsesStreamState.textPart, h.items, h.curItem, h.curPart, textItem]

theorem item : s.item? = some (0, textItem (lit "in_progress") text) := by
  simp [ResponsesStreamState.item?, h.items, h.curItem]

/-- A delta adds its piece to the text and its event to the wire. -/
theorem textDelta (delta : Bytes) :
    (streamStep s (.textDelta delta)).OnPart id model (seq + 1) (keepPiece text delta)
      (events ++ [(lit "response.output_text.delta",
        clip 131072 (outputTextDeltaData delta 0 0 seq))]) := by
  have hemit : streamStep s (.textDelta delta) =
      { s.send (lit "response.output_text.delta") (outputTextDeltaData delta 0 0 seq) with
        items := [textItem (lit "in_progress") (keepPiece text delta)] } := by
    simp [streamStep, StreamCall.emit, responsesStreamEmitTextDelta, h.textPart, orUnchanged,
      h.items, h.counter, textItem, keepPiece]
  rw [hemit]
  refine ⟨h.id, h.model, congrArg (· + 1) h.counter, rfl, h.curItem, h.curPart, ?_⟩
  exact (events_send_clip s _ _).trans (congrArg (· ++ _) h.events)

/-- So do all the deltas, in order. -/
theorem textDeltas (deltas : List Bytes) :
    (stateAfter streamStep s (deltas.map .textDelta)).OnPart id model (seq + deltas.length)
      (deltas.foldl keepPiece text) (events ++ deltaEvents seq deltas) := by
  induction deltas generalizing s seq text events with
  | nil =>
      rw [deltaEvents, List.append_nil]
      exact h
  | cons delta deltas ih =>
      have hrest := ih (h.textDelta delta)
      rw [List.append_assoc, Nat.add_assoc, Nat.add_comm 1] at hrest
      exact hrest

/-- The text is done. -/
theorem textDone :
    (streamStep s .textDone).OnPart id model (seq + 1) text
      (events ++ [(lit "response.output_text.done",
        clip 131072 (outputTextDoneData text 0 0 seq))]) := by
  have hemit : streamStep s .textDone =
      (s.send (lit "response.output_text.done") (outputTextDoneData text 0 0 seq)).beat := by
    simp [streamStep, StreamCall.emit, responsesStreamEmitTextDone, h.textPart, h.counter]
  rw [hemit]
  refine ⟨h.id, h.model, congrArg (· + 1) h.counter, h.items, h.curItem, h.curPart, ?_⟩
  rw [events_beat, events_send_clip, h.events]

/-- The part is done. -/
theorem contentPartDone :
    (streamStep s .contentPartDone).OnPart id model (seq + 1) text
      (events ++ [(lit "response.content_part.done",
        clip 131072 (contentPartDoneData text 0 0 seq))]) := by
  have hemit : streamStep s .contentPartDone =
      (s.send (lit "response.content_part.done") (contentPartDoneData text 0 0 seq)).beat := by
    simp [streamStep, StreamCall.emit, responsesStreamEmitContentPartDone, h.item, h.curPart,
      h.counter, textItem]
  rw [hemit]
  refine ⟨h.id, h.model, congrArg (· + 1) h.counter, h.items, h.curItem, h.curPart, ?_⟩
  rw [events_beat, events_send_clip, h.events]

/-- The item is done, and the response is complete. -/
theorem completed (later : Nat) (incomplete : Bytes) :
    (stateAfter streamStep s [.outputItemDone, .completed later incomplete]).events =
      events ++ [(lit "response.output_item.done", clip 131072 (outputItemDoneData text 0 seq)),
        (lit "response.completed",
          clip 131072 (completedData id model later text incomplete (seq + 1)))] := by
  have hemit : streamStep s .outputItemDone =
      { (s.send (lit "response.output_item.done") (outputItemDoneData text 0 seq)).beat with
        items := [textItem (lit "completed") text] } := by
    simp [streamStep, StreamCall.emit, responsesStreamEmitOutputItemDone, h.item, h.counter,
      h.items, textItem, OutputItem.firstText]
  have hlast : stateAfter streamStep s [.outputItemDone, .completed later incomplete] =
      (((streamStep s .outputItemDone).send (lit "response.completed")
        (completedData id model later text incomplete (seq + 1))).beat) := by
    rw [stateAfter_cons, stateAfter_cons, stateAfter_nil, hemit]
    simp [streamStep, StreamCall.emit, responsesStreamEmitCompleted, ResponsesStreamState.send,
      ResponsesStreamState.beat, h.id, h.model, h.counter, textItem, OutputItem.firstText]
  rw [hlast, events_beat, events_send_clip, hemit]
  have hdone : ({ (s.send (lit "response.output_item.done") (outputItemDoneData text 0 seq)).beat
      with items := [textItem (lit "completed") text] } : ResponsesStreamState).events =
      events ++ [(lit "response.output_item.done",
        clip 131072 (outputItemDoneData text 0 seq))] :=
    (events_beat _).trans ((events_send_clip s _ _).trans (congrArg (· ++ _) h.events))
  rw [hdone, List.append_assoc]
  rfl

end ResponsesStreamState.OnPart

/-- The events that open a text stream. -/
def openingEvents (id model : Bytes) (now : Nat) : List (Bytes × Bytes) :=
  [(lit "response.created", clip 131072 (createdData id model now)),
    (lit "response.output_item.added", clip 131072 (outputItemAddedData 0 1)),
    (lit "response.content_part.added", clip 131072 (contentPartAddedData 0 0 2))]

/-- The events that close a text stream, numbered from `seq`. -/
def closingEvents (id model : Bytes) (later : Nat) (incomplete text : Bytes) (seq : Nat) :
    List (Bytes × Bytes) :=
  [(lit "response.output_text.done", clip 131072 (outputTextDoneData text 0 0 seq)),
    (lit "response.content_part.done", clip 131072 (contentPartDoneData text 0 0 (seq + 1))),
    (lit "response.output_item.done", clip 131072 (outputItemDoneData text 0 (seq + 2))),
    (lit "response.completed",
      clip 131072 (completedData id model later text incomplete (seq + 3)))]

theorem opened_onPart (id model : Bytes) (now : Nat) :
    (stateAfter streamStep (createdStream id model now)
        [.outputItemAdded, .contentPartAdded .outputText]).OnPart
      (clip 64 id) (clip 128 model) 3 [] (openingEvents (clip 64 id) (clip 128 model) now) :=
  ⟨rfl, rfl, rfl, rfl, rfl, rfl, rfl⟩

/-- **The events of a text stream.** -/
theorem events_textStream (id model : Bytes) (now later : Nat) (incomplete : Bytes)
    (deltas : List Bytes) :
    (textStream id model now later incomplete deltas).events =
      openingEvents (clip 64 id) (clip 128 model) now ++ deltaEvents 3 deltas ++
        closingEvents (clip 64 id) (clip 128 model) later incomplete (deltas.foldl keepPiece [])
          (3 + deltas.length) := by
  have hdeltas := (opened_onPart id model now).textDeltas deltas
  have hclosed := hdeltas.textDone.contentPartDone.completed later incomplete
  have hcalls : textCalls later incomplete deltas =
      [.outputItemAdded, .contentPartAdded .outputText] ++ (deltas.map .textDelta ++
        ([.textDone, .contentPartDone] ++ [.outputItemDone, .completed later incomplete])) := by
    simp [textCalls]
  rw [textStream, hcalls, stateAfter_append, stateAfter_append, stateAfter_append]
  refine hclosed.trans ?_
  simp [closingEvents]

/-! ## Payloads -/

/-- **An object is JSON iff it is not cut.** -/
theorem isJson_clip_object_iff (size : Nat) (ms : List Member) :
    (∃ v, IsJson (clip size (Member.object ms)) v) ↔ (Member.object ms).length < size := by
  constructor
  · rintro ⟨v, hv⟩
    by_contra hlong
    have hpos : (Member.object ms).length ≠ 0 := by
      cases ms <;> simp [Member.object]
    have hprints := Member.prints_object_of_members ms
    rw [← List.take_append_drop (size - 1) (Member.object ms)] at hprints
    refine hprints.not_isJson_front ?_ v hv
    rw [Ne, List.drop_eq_nil_iff]
    omega
  · intro hfits
    rw [clip_eq_self hfits]
    exact ⟨_, (Member.prints_object_of_members ms).isJson⟩

/-- What an object that is not cut reads as. -/
theorem follow_of_isJson {ms : List Member} {v : Value}
    (h : IsJson (Member.object ms) v) (path : List Hop) :
    v.follow path = (Value.object (Member.values ms)).follow path := by
  rw [(Member.prints_object_of_members ms).isJson_iff.mp h]

theorem follow_outputTextDone (text : Bytes) (item content seq : Nat) :
    (Value.object (Member.values (outputTextDoneMembers text item content seq))).follow
      [.member (lit "text")] = some (.string text) := by
  simp only [Member.values, outputTextDoneMembers, eventType, messageId, numberMember, textMember,
    sequenceMember, fixedMember, Member.ofInside, Member.ofNumber, Member.ofEmpty, List.map_cons,
    List.map_nil]
  repeat rw [lit_ofList]
  rfl

theorem follow_contentPartDone (text : Bytes) (item content seq : Nat) :
    (Value.object (Member.values (contentPartDoneMembers text item content seq))).follow
      [.member (lit "part"), .member (lit "text")] = some (.string text) := by
  simp only [Member.values, contentPartDoneMembers, partMembers, contentMembers, eventType,
    messageId, numberMember, textMember, sequenceMember, fixedMember, Member.ofInside,
    Member.ofObject, Member.ofNumber, Member.ofEmpty, List.cons_append, List.nil_append,
    List.map_cons, List.map_nil]
  repeat rw [lit_ofList]
  rfl

theorem name_incompleteMember (incomplete kept : Bytes) :
    (incompleteMember incomplete kept).name = lit "incomplete_details" := by
  unfold incompleteMember
  split <;> rfl

section

variable {id model idText modelText : Bytes}
  (hid : ∀ rest, readString (shownId id ++ 34 :: rest) = some (idText, rest))
  (hmodel : ∀ rest, readString (shownModel model ++ 34 :: rest) = some (modelText, rest))

theorem follow_completed (now : Nat) (incomplete kept text : Bytes) (seq : Nat) :
    (Value.object (Member.values (completedMembers hid hmodel now
        (incompleteMember incomplete kept) text seq))).follow
      [.member (lit "response"), .member (lit "output"), .first, .member (lit "content"), .first,
        .member (lit "text")] = some (.string text) := by
  have hname := name_incompleteMember incomplete kept
  generalize incompleteMember incomplete kept = details at hname
  simp only [Member.values, completedMembers, responseHead, responseMiddle, responseStatus,
    messageMembers, contentMembers, eventType, messageId, numberMember, textMember,
    sequenceMember, fixedMember, Member.ofInside, Member.ofObject, Member.ofSingleton,
    Member.ofNumber, Member.ofNull, Member.ofEmpty, List.cons_append, List.nil_append,
    List.map_cons, List.map_nil, hname]
  repeat rw [lit_ofList]
  rfl

end

/-! ## Lengths -/

/-- A larger number does not have fewer digits. -/
theorem length_decimal_mono {m n : Nat} (h : m ≤ n) :
    (decimal m).length ≤ (decimal n).length := by
  have hpos := List.length_pos_of_ne_nil (CJson.decimal_ne_nil n)
  simp only [decimal, List.length_map] at hpos ⊢
  rw [Nat.length_toDigits_le_iff (by decide) hpos]
  exact Nat.lt_of_le_of_lt h ((Nat.length_toDigits_le_iff (by decide) hpos).mp le_rfl)

theorem length_jsonEscape_le (text : Bytes) (maxLen : Nat) :
    (jsonEscape text maxLen).length ≤ (escapeAll (cstr text)).length := by
  obtain ⟨kept, cut, hsplit, hescape, -⟩ := jsonEscape_prefix text maxLen
  rw [hescape, hsplit, escapeAll_append, List.length_append]
  exact Nat.le_add_right _ _

theorem length_outputTextDeltaData_le (delta : Bytes) (seq : Nat) :
    (outputTextDeltaData delta 0 0 seq).length ≤
      250 + (jsonEscape delta 131072).length + (decimal seq).length := by
  have hzero : (decimal 0).length = 1 := rfl
  rw [outputTextDeltaData]
  repeat rw [lit_ofList]
  simp only [List.length_append, List.length_map, List.length_cons, List.length_nil, hzero]
  omega

theorem length_outputTextDoneData_le (text : Bytes) (seq : Nat) :
    (outputTextDoneData text 0 0 seq).length ≤
      250 + (jsonEscape text 131072).length + (decimal seq).length := by
  have hzero : (decimal 0).length = 1 := rfl
  rw [outputTextDoneData]
  repeat rw [lit_ofList]
  simp only [List.length_append, List.length_map, List.length_cons, List.length_nil, hzero]
  omega

theorem length_contentPartDoneData_le (text : Bytes) (seq : Nat) :
    (contentPartDoneData text 0 0 seq).length ≤
      250 + (jsonEscape text 131072).length + (decimal seq).length := by
  have hzero : (decimal 0).length = 1 := rfl
  rw [contentPartDoneData]
  repeat rw [lit_ofList]
  simp only [List.length_append, List.length_map, List.length_cons, List.length_nil, hzero]
  omega

theorem length_outputItemDoneData_le (text : Bytes) (seq : Nat) :
    (outputItemDoneData text 0 seq).length ≤
      250 + (jsonEscape text 131072).length + (decimal seq).length := by
  have hzero : (decimal 0).length = 1 := rfl
  rw [outputItemDoneData]
  repeat rw [lit_ofList]
  simp only [List.length_append, List.length_map, List.length_cons, List.length_nil, hzero]
  omega

set_option maxRecDepth 2000 in
theorem length_createdData_le (id model : Bytes) (now : Nat) :
    (createdData id model now).length ≤
      600 + (shownId id).length + (shownModel model).length + (decimal now).length := by
  rw [createdData]
  change (_ ++ shownId id ++ _ ++ _ ++ _ ++ shownModel model ++ _).length ≤ _
  repeat rw [lit_ofList]
  simp only [List.length_append, List.length_map, List.length_cons, List.length_nil]
  omega

theorem length_shownId_le (id : Bytes) : (shownId (clip 64 id)).length ≤ 63 := by
  unfold shownId
  split
  · decide
  · exact List.length_take_le _ _

theorem length_shownModel_le (model : Bytes) : (shownModel (clip 128 model)).length ≤ 127 := by
  unfold shownModel
  split
  · decide
  · exact List.length_take_le _ _

set_option maxRecDepth 2000 in
/-- The rest of `response.completed` is longer than that of the others. -/
theorem le_length_completedData (id model : Bytes) (later : Nat) (text incomplete : Bytes)
    (seq : Nat) :
    300 + (jsonEscape text 131072).length + (decimal seq).length ≤
      (completedData id model later text incomplete seq).length := by
  rw [completedData]
  repeat rw [lit_ofList]
  simp only [List.length_append, List.length_map, List.length_cons, List.length_nil]
  omega

/-- The text takes its place in `response.completed` besides the rest. -/
theorem length_completedData (id model : Bytes) (later : Nat) (text incomplete : Bytes)
    (seq : Nat) :
    (completedData id model later text incomplete seq).length =
      (jsonEscape text 131072).length +
        (completedData id model later [] incomplete seq).length := by
  have hnil : jsonEscape [] 131072 = [] := rfl
  simp only [completedData, List.length_append, hnil, List.length_nil]
  omega

theorem length_le_escapeAll (text : Bytes) : text.length ≤ (escapeAll text).length := by
  induction text with
  | nil => rfl
  | cons c text ih =>
      have hpos := escapeByte_length_pos c
      rw [escapeAll_cons, List.length_append, List.length_cons]
      omega

/-- A part keeps all that fits it. -/
theorem foldl_keepPiece {text : Bytes} {deltas : List Bytes}
    (h : (text ++ (deltas.map cstr).flatten).length < 131072) :
    deltas.foldl keepPiece text = text ++ (deltas.map cstr).flatten := by
  induction deltas generalizing text with
  | nil => simp
  | cons delta deltas ih =>
      rw [List.map_cons, List.flatten_cons, ← List.append_assoc] at h ⊢
      have hroom : text.length + (cstr delta).length < 131072 := by
        rw [List.length_append, List.length_append] at h
        omega
      rw [List.foldl_cons, keepPiece, if_pos hroom]
      exact ih h

/-- What is in the events of deltas. -/
theorem mem_deltaEvents {e : Bytes × Bytes} {seq : Nat} {deltas : List Bytes}
    (h : e ∈ deltaEvents seq deltas) :
    ∃ delta ∈ deltas, ∃ k < seq + deltas.length, e = (lit "response.output_text.delta",
      clip 131072 (outputTextDeltaData delta 0 0 k)) := by
  induction deltas generalizing seq with
  | nil => cases h
  | cons delta deltas ih =>
      rcases List.mem_cons.mp h with rfl | hrest
      · exact ⟨delta, List.mem_cons_self, seq, Nat.lt_add_of_pos_right (Nat.succ_pos _), rfl⟩
      · obtain ⟨delta', hmem, k, hk, rfl⟩ := ih hrest
        rw [List.length_cons]
        exact ⟨delta', List.mem_cons_of_mem _ hmem, k, by omega, rfl⟩

theorem eventsNamed_of_ne {name : Bytes} {events : List (Bytes × Bytes)}
    (h : ∀ e ∈ events, e.1 ≠ name) : eventsNamed name events = [] := by
  rw [eventsNamed, List.filterMap_eq_nil_iff]
  intro e he
  rw [if_neg (h e he)]

/-- The payload of an event whose name no other event has. -/
theorem eventsNamed_of_unique {name data : Bytes} {before behind : List (Bytes × Bytes)}
    (hbefore : ∀ e ∈ before, e.1 ≠ name) (hbehind : ∀ e ∈ behind, e.1 ≠ name) :
    eventsNamed name (before ++ (name, data) :: behind) = [data] := by
  have hsplit : eventsNamed name (before ++ (name, data) :: behind) =
      eventsNamed name before ++ data :: eventsNamed name behind := by
    simp [eventsNamed]
  rw [hsplit, eventsNamed_of_ne hbefore, eventsNamed_of_ne hbehind]
  rfl

/-! ## The condition -/

/-- The room that `response.completed` needs besides the text. -/
def completedRoom (id model : Bytes) (later : Nat) (incomplete : Bytes) (count : Nat) : Nat :=
  (completedData (clip 64 id) (clip 128 model) later [] incomplete (3 + count + 3)).length

theorem stringBody_shownId {id : Bytes} (h : StringBody id) : StringBody (shownId id) := by
  unfold shownId
  split
  · exact Plain.stringBody (by decide)
  · exact h

theorem stringBody_shownModel {model : Bytes} (h : StringBody model) :
    StringBody (shownModel model) := by
  unfold shownModel
  split
  · exact Plain.stringBody (by decide)
  · exact h

/-- The payloads of the events that repeat the text. -/
theorem eventsNamed_textStream (opening deltas : List (Bytes × Bytes))
    (hopening : ∀ e ∈ opening ++ deltas, e.1 ∈ [lit "response.created",
      lit "response.output_item.added", lit "response.content_part.added",
      lit "response.output_text.delta"]) (done part item last : Bytes) :
    eventsNamed (lit "response.output_text.done") (opening ++ deltas ++
        [(lit "response.output_text.done", done), (lit "response.content_part.done", part),
          (lit "response.output_item.done", item), (lit "response.completed", last)]) = [done] ∧
      eventsNamed (lit "response.content_part.done") (opening ++ deltas ++
        [(lit "response.output_text.done", done), (lit "response.content_part.done", part),
          (lit "response.output_item.done", item), (lit "response.completed", last)]) = [part] ∧
      eventsNamed (lit "response.completed") (opening ++ deltas ++
        [(lit "response.output_text.done", done), (lit "response.content_part.done", part),
          (lit "response.output_item.done", item), (lit "response.completed", last)]) = [last] := by
  have hfirst : ∀ name ∈ [lit "response.output_text.done", lit "response.content_part.done",
      lit "response.completed"], ∀ other ∈ [lit "response.created",
      lit "response.output_item.added", lit "response.content_part.added",
      lit "response.output_text.delta"], other ≠ name := by
    repeat rw [lit_ofList]
    decide
  have hlast : [lit "response.output_text.done", lit "response.content_part.done",
      lit "response.output_item.done", lit "response.completed"].Nodup := by
    repeat rw [lit_ofList]
    decide
  have hbefore : ∀ name ∈ [lit "response.output_text.done", lit "response.content_part.done",
      lit "response.completed"], ∀ e ∈ opening ++ deltas, e.1 ≠ name := by
    intro name hname e he
    exact hfirst name hname e.1 (hopening e he)
  simp only [List.nodup_cons, List.mem_cons, List.not_mem_nil, or_false, not_or] at hlast
  obtain ⟨⟨hdp, hdi, hdc⟩, ⟨hpi, hpc⟩, hic, -⟩ := hlast
  refine ⟨?_, ?_, ?_⟩
  · refine eventsNamed_of_unique (hbefore _ (by simp)) ?_
    simp only [List.forall_mem_cons, List.not_mem_nil, false_implies, implies_true, and_true]
    exact ⟨Ne.symm hdp, Ne.symm hdi, Ne.symm hdc⟩
  · have hsplit : ∀ rest : List (Bytes × Bytes), opening ++ deltas ++
        (lit "response.output_text.done", done) :: rest =
        (opening ++ deltas ++ [(lit "response.output_text.done", done)]) ++ rest := by simp
    rw [hsplit]
    refine eventsNamed_of_unique ?_ ?_
    · rw [List.forall_mem_append]
      exact ⟨hbefore _ (by simp), by simpa using hdp⟩
    · simp only [List.forall_mem_cons, List.not_mem_nil, false_implies, implies_true, and_true]
      exact ⟨Ne.symm hpi, Ne.symm hpc⟩
  · have hsplit : opening ++ deltas ++
        [(lit "response.output_text.done", done), (lit "response.content_part.done", part),
          (lit "response.output_item.done", item), (lit "response.completed", last)] =
        (opening ++ deltas ++ [(lit "response.output_text.done", done),
          (lit "response.content_part.done", part), (lit "response.output_item.done", item)]) ++
          (lit "response.completed", last) :: [] := by simp
    rw [hsplit]
    refine eventsNamed_of_unique ?_ (by simp)
    rw [List.forall_mem_append]
    refine ⟨hbefore _ (by simp), ?_⟩
    simp only [List.forall_mem_cons, List.not_mem_nil, false_implies, implies_true, and_true]
    exact ⟨hdc, hpc, hic⟩

/-- The events in front of the closing ones have other names. -/
theorem names_openingEvents {id model : Bytes} {now seq : Nat} {deltas : List Bytes}
    {e : Bytes × Bytes} (h : e ∈ openingEvents id model now ++ deltaEvents seq deltas) :
    e.1 ∈ [lit "response.created", lit "response.output_item.added",
      lit "response.content_part.added", lit "response.output_text.delta"] := by
  rcases List.mem_append.mp h with h | h
  · simp only [openingEvents, List.mem_cons, List.not_mem_nil, or_false] at h
    rcases h with rfl | rfl | rfl <;> simp
  · obtain ⟨delta, -, k, -, rfl⟩ := mem_deltaEvents h
    simp

/-- The text that the closing events repeat, as far as the part has kept it. -/
theorem closing_payloads (id model : Bytes) (now later : Nat) (incomplete : Bytes)
    (deltas : List Bytes) :
    let text := deltas.foldl keepPiece []
    let seq := 3 + deltas.length
    let events := (textStream id model now later incomplete deltas).events
    eventsNamed (lit "response.output_text.done") events =
        [clip 131072 (outputTextDoneData text 0 0 seq)] ∧
      eventsNamed (lit "response.content_part.done") events =
        [clip 131072 (contentPartDoneData text 0 0 (seq + 1))] ∧
      eventsNamed (lit "response.completed") events =
        [clip 131072 (completedData (clip 64 id) (clip 128 model) later text incomplete
          (seq + 3))] := by
  intro text seq events
  have hevents : events = _ := events_textStream id model now later incomplete deltas
  rw [hevents]
  exact eventsNamed_textStream _ _ (fun e he => names_openingEvents he) _ _ _ _

/-- No payload of a text stream is cut, and `json_escape` takes the whole text. -/
structure PayloadsFit (id model : Bytes) (later : Nat) (incomplete : Bytes)
    (deltas : List Bytes) : Prop where
  kept : deltas.foldl keepPiece [] = (deltas.map cstr).flatten
  escaped : jsonEscape (deltas.map cstr).flatten 131072 = escapeAll (deltas.map cstr).flatten
  delta : ∀ delta ∈ deltas, ∀ k < 3 + deltas.length,
    (outputTextDeltaData delta 0 0 k).length < 131072
  textDone :
    (outputTextDoneData (deltas.map cstr).flatten 0 0 (3 + deltas.length)).length < 131072
  contentPartDone :
    (contentPartDoneData (deltas.map cstr).flatten 0 0 (3 + deltas.length + 1)).length < 131072
  outputItemDone :
    (outputItemDoneData (deltas.map cstr).flatten 0 (3 + deltas.length + 2)).length < 131072
  completed :
    (completedData (clip 64 id) (clip 128 model) later (deltas.map cstr).flatten incomplete
      (3 + deltas.length + 3)).length < 131072

theorem zero_not_mem_flatten_cstr (deltas : List Bytes) : 0 ∉ (deltas.map cstr).flatten := by
  intro hmem
  obtain ⟨piece, hpiece, hmem⟩ := List.mem_flatten.mp hmem
  obtain ⟨delta, -, rfl⟩ := List.mem_map.mp hpiece
  exact stop_not_mem_upTo 0 delta hmem

/-- A piece is no longer than the whole. -/
theorem length_escapeAll_piece_le {deltas : List Bytes} {delta : Bytes} (h : delta ∈ deltas) :
    (escapeAll (cstr delta)).length ≤ (escapeAll (deltas.map cstr).flatten).length := by
  obtain ⟨before, behind, hsplit⟩ := List.append_of_mem (List.mem_map_of_mem (f := cstr) h)
  rw [hsplit, List.flatten_append, List.flatten_cons, escapeAll_append, escapeAll_append,
    List.length_append, List.length_append]
  omega

/-- The room of `response.completed` is room for all payloads. -/
theorem payloadsFit_of_room {id model : Bytes} {later : Nat} {incomplete : Bytes}
    {deltas : List Bytes}
    (h : (escapeAll (deltas.map cstr).flatten).length +
      completedRoom id model later incomplete deltas.length < 131072) :
    PayloadsFit id model later incomplete deltas := by
  have hrest := le_length_completedData (clip 64 id) (clip 128 model) later [] incomplete
    (3 + deltas.length + 3)
  unfold completedRoom at h
  have hshort := length_le_escapeAll (deltas.map cstr).flatten
  have hcstr : cstr (deltas.map cstr).flatten = (deltas.map cstr).flatten :=
    upTo_eq_self (zero_not_mem_flatten_cstr deltas)
  have hescape : jsonEscape (deltas.map cstr).flatten 131072 =
      escapeAll (deltas.map cstr).flatten := by
    rw [jsonEscape_eq_of_fits (by rw [hcstr]; omega), hcstr]
  -- what has less around its text than `response.completed`, and no more text
  have hbelow : ∀ {data text : Bytes} {k : Nat},
      data.length ≤ 250 + (jsonEscape text 131072).length + (decimal k).length →
      (jsonEscape text 131072).length ≤ (escapeAll (deltas.map cstr).flatten).length →
      k ≤ 3 + deltas.length + 3 → data.length < 131072 := by
    intro data text k hle htext hk
    have hmono := length_decimal_mono hk
    omega
  have hlength := Nat.le_of_eq (congrArg List.length hescape)
  refine ⟨foldl_keepPiece (by rw [List.nil_append]; omega), hescape, ?_,
    hbelow (length_outputTextDoneData_le _ _) hlength (by omega),
    hbelow (length_contentPartDoneData_le _ _) hlength (by omega),
    hbelow (length_outputItemDoneData_le _ _) hlength (by omega), ?_⟩
  · intro delta hmem k hk
    exact hbelow (length_outputTextDeltaData_le delta k)
      ((length_jsonEscape_le delta 131072).trans (length_escapeAll_piece_le hmem)) (by omega)
  · rw [length_completedData, hescape]
    exact h

/-- `response.created` fits whatever it is called and whenever it is sent. -/
theorem length_createdData_lt (id model : Bytes) {now : Nat} (h : now < 2 ^ 63) :
    (createdData (clip 64 id) (clip 128 model) now).length < 131072 := by
  have hle := length_createdData_le (clip 64 id) (clip 128 model) now
  have hid := length_shownId_le id
  have hmodel := length_shownModel_le model
  have hdigits := CJson.length_decimal_le (show 0 < 19 by decide)
    (lt_trans h (by decide : 2 ^ 63 < 10 ^ 19))
  omega

/-- So do the events behind it. -/
theorem length_openingData_lt :
    (outputItemAddedData 0 1).length < 131072 ∧ (contentPartAddedData 0 0 2).length < 131072 := by
  rw [outputItemAddedData, contentPartAddedData]
  repeat rw [lit_ofList]
  decide +kernel

/-- An object that fits is JSON. -/
theorem isJson_of_fits {data : Bytes} {ms : List Member} (hdata : data = Member.object ms)
    (hfits : data.length < 131072) : IsJson (clip 131072 data) (.object (Member.values ms)) := by
  rw [clip_eq_self hfits, hdata]
  exact (Member.prints_object_of_members ms).isJson

section

variable {id model : Bytes} (hid : StringBody (clip 64 id)) (hmodel : StringBody (clip 128 model))

include hid hmodel

/-- A stream whose last payload is whole, with the whole text, has room for it. -/
theorem room_of_payloadsWhole {now later : Nat} {incomplete : Bytes} {deltas : List Bytes}
    {whole : Bytes} (h : (textStream id model now later incomplete deltas).PayloadsWhole whole) :
    (escapeAll whole).length + completedRoom id model later incomplete deltas.length < 131072 := by
  obtain ⟨idText, hid⟩ := (stringBody_shownId hid).reads
  obtain ⟨modelText, hmodel⟩ := (stringBody_shownModel hmodel).reads
  obtain ⟨-, -, hpayload⟩ := closing_payloads id model now later incomplete deltas
  obtain ⟨kept, cut, -, hkept, -⟩ := jsonEscape_prefix (deltas.foldl keepPiece []) 131072
  obtain ⟨details, cut', -, hdetails, -⟩ :=
    jsonEscape_prefix incomplete (2 * incomplete.length + 32)
  have hdata := completedData_eq hid hmodel hkept hdetails later (3 + deltas.length + 3)
  obtain ⟨data, v, hsame, hjson, htext⟩ := h.completed
  rw [hpayload, hdata] at hsame
  obtain rfl := (List.cons.inj hsame).1
  have hfits := (isJson_clip_object_iff 131072 _).mp ⟨v, hjson⟩
  rw [clip_eq_self hfits] at hjson
  rw [follow_of_isJson hjson, follow_completed] at htext
  cases htext
  rw [← hdata, length_completedData, hkept] at hfits
  exact hfits

/-- The payloads of a stream in which all of them fit are JSON. -/
theorem isJson_of_payloadsFit {now later : Nat} (hnow : now < 2 ^ 63) {incomplete : Bytes}
    {deltas : List Bytes} (h : PayloadsFit id model later incomplete deltas) :
    ∀ e ∈ (textStream id model now later incomplete deltas).events, ∃ v, IsJson e.2 v := by
  obtain ⟨idText, hid⟩ := (stringBody_shownId hid).reads
  obtain ⟨modelText, hmodel⟩ := (stringBody_shownModel hmodel).reads
  obtain ⟨details, cut, -, hdetails, -⟩ :=
    jsonEscape_prefix incomplete (2 * incomplete.length + 32)
  rw [events_textStream, h.kept]
  intro e he
  rw [List.append_assoc, List.mem_append, List.mem_append] at he
  rcases he with he | he | he
  · simp only [openingEvents, List.mem_cons, List.not_mem_nil, or_false] at he
    rcases he with rfl | rfl | rfl
    · exact ⟨_, isJson_of_fits (createdData_eq hid hmodel now)
        (length_createdData_lt id model hnow)⟩
    · exact ⟨_, isJson_of_fits (outputItemAddedData_eq 0 1) length_openingData_lt.1⟩
    · exact ⟨_, isJson_of_fits (contentPartAddedData_eq 0 0 2) length_openingData_lt.2⟩
  · obtain ⟨delta, hmem, k, hk, rfl⟩ := mem_deltaEvents he
    obtain ⟨kept, rest, -, hkept, -⟩ := jsonEscape_prefix delta 131072
    exact ⟨_, isJson_of_fits (outputTextDeltaData_eq_object hkept 0 0 k) (h.delta delta hmem k hk)⟩
  · simp only [closingEvents, List.mem_cons, List.not_mem_nil, or_false] at he
    rcases he with rfl | rfl | rfl | rfl
    · exact ⟨_, isJson_of_fits (outputTextDoneData_eq h.escaped 0 0 _) h.textDone⟩
    · exact ⟨_, isJson_of_fits (contentPartDoneData_eq h.escaped 0 0 _) h.contentPartDone⟩
    · exact ⟨_, isJson_of_fits (outputItemDoneData_eq h.escaped 0 _) h.outputItemDone⟩
    · exact ⟨_, isJson_of_fits (completedData_eq hid hmodel h.escaped hdetails later _)
        h.completed⟩

/-- A stream whose last payload has room for the whole text is whole. -/
theorem payloadsWhole_of_room {now later : Nat} (hnow : now < 2 ^ 63) {incomplete : Bytes}
    {deltas : List Bytes}
    (h : (escapeAll (deltas.map cstr).flatten).length +
      completedRoom id model later incomplete deltas.length < 131072) :
    (textStream id model now later incomplete deltas).PayloadsWhole
      (deltas.map cstr).flatten := by
  have hfit := payloadsFit_of_room h
  have hjson := isJson_of_payloadsFit hid hmodel hnow hfit
  obtain ⟨idText, hid⟩ := (stringBody_shownId hid).reads
  obtain ⟨modelText, hmodel⟩ := (stringBody_shownModel hmodel).reads
  obtain ⟨details, cut, -, hdetails, -⟩ :=
    jsonEscape_prefix incomplete (2 * incomplete.length + 32)
  obtain ⟨hdone, hpart, hlast⟩ := closing_payloads id model now later incomplete deltas
  rw [hfit.kept] at hdone hpart hlast
  refine ⟨hjson, ?_, ?_, ?_⟩
  · exact ⟨_, _, hdone, isJson_of_fits (outputTextDoneData_eq hfit.escaped 0 0 _) hfit.textDone,
      follow_outputTextDone _ 0 0 _⟩
  · exact ⟨_, _, hpart,
      isJson_of_fits (contentPartDoneData_eq hfit.escaped 0 0 _) hfit.contentPartDone,
      follow_contentPartDone _ 0 0 _⟩
  · exact ⟨_, _, hlast,
      isJson_of_fits (completedData_eq hid hmodel hfit.escaped hdetails later _) hfit.completed,
      follow_completed hid hmodel later incomplete details _ _⟩

end

/-- **The payloads of a text stream**, exactly: every one is a JSON value and the
closing events repeat the concatenation of all deltas iff the escaped text and the
rest of `response.completed` fit its buffer. -/
theorem payloads_whole_iff {id model : Bytes} (hid : StringBody (clip 64 id))
    (hmodel : StringBody (clip 128 model)) {now : Nat} (hnow : now < 2 ^ 63) (later : Nat)
    (incomplete : Bytes) (deltas : List Bytes) :
    (textStream id model now later incomplete deltas).PayloadsWhole (deltas.map cstr).flatten ↔
      (escapeAll (deltas.map cstr).flatten).length +
        completedRoom id model later incomplete deltas.length < 131072 :=
  ⟨room_of_payloadsWhole hid hmodel, payloadsWhole_of_room hid hmodel hnow⟩

/-- A greeting in two pieces. -/
def greeting : List Bytes := [lit "hel", lit "lo\n"]

theorem payloads_whole_iff_greeting :
    (textStream (lit "resp-stream") (lit "m") 0 1 [] greeting).PayloadsWhole
        (greeting.map cstr).flatten ↔
      (escapeAll (greeting.map cstr).flatten).length +
        completedRoom (lit "resp-stream") (lit "m") 1 [] greeting.length < 131072 :=
  payloads_whole_iff (Plain.stringBody (by decide +kernel)) (Plain.stringBody (by decide +kernel))
    (by decide) 1 [] greeting

/-- Thirty-three pieces of 4096 bytes. -/
def longText : List Bytes := List.replicate 33 (List.replicate 4096 97)

/-- No payload that repeats such a text has room for it. -/
theorem payloads_cut :
    ¬ (textStream (lit "resp-stream") (lit "m") 0 1 [] longText).PayloadsWhole
      (longText.map cstr).flatten := by
  intro hwhole
  have hroom := room_of_payloadsWhole (Plain.stringBody (by decide +kernel))
    (Plain.stringBody (by decide +kernel)) hwhole
  have hpiece : cstr (List.replicate 4096 97) = List.replicate 4096 97 := by
    refine upTo_eq_self fun hzero => ?_
    exact absurd (List.eq_of_mem_replicate hzero) (by decide)
  have hlength : (longText.map cstr).flatten.length = 33 * 4096 := by
    rw [longText, List.map_replicate, hpiece, List.flatten_replicate_replicate,
      List.length_replicate]
  have hlong := length_le_escapeAll (longText.map cstr).flatten
  omega

end StarBridge
