import StarBridge.JsonText

/-!
# The live event stream

A streaming turn writes server-sent events to its client while it runs: the
lifecycle events that open the response, one item and one text part, then a
`response.output_text.delta` for every piece of text.  `deltaText` is what a
client reads out of such an event; `deltaText_outputTextDelta` says that it
reads the piece that was emitted.
-/

namespace StarBridge

open CText

/-- `ContentPartType`. -/
inductive ContentPartType
  | outputText
  | reasoningSummary
  | functionCall
  deriving DecidableEq, Repr

/-- `ContentPart`. -/
structure ContentPart where
  type : ContentPartType
  text : Bytes
  seqStart : Nat
  deriving DecidableEq, Repr

/-- `OutputItem`. -/
structure OutputItem where
  id : Bytes
  status : Bytes
  role : Bytes
  parts : List ContentPart
  deriving DecidableEq, Repr

/-- One write to the client's socket; `cut` is what goes out of an event that
does not fit its frame. -/
inductive SseWrite
  | headers
  | heartbeat
  | event (name data : Bytes)
  | cut (frame : Bytes)
  deriving DecidableEq, Repr

/-- `ResponsesStreamState`, with what it has written. -/
structure ResponsesStreamState where
  id : Bytes
  model : Bytes
  sequenceNumber : Nat
  headersSent : Bool
  items : List OutputItem
  curItem : Option Nat
  curPart : Option Nat
  wire : List SseWrite
  deriving DecidableEq, Repr

/-- `responses_stream_init`. -/
def responsesStreamInit (id model : Bytes) : ResponsesStreamState where
  id := clip 64 id
  model := clip 128 model
  sequenceNumber := 0
  headersSent := false
  items := []
  curItem := none
  curPart := none
  wire := []

/-- `send_sse_event` with the sequence number taken for it. -/
def ResponsesStreamState.send (s : ResponsesStreamState) (name data : Bytes) :
    ResponsesStreamState :=
  { s with sequenceNumber := s.sequenceNumber + 1
           wire := s.wire ++ [.event name (clip 131072 data)] }

/-- A heartbeat comment. -/
def ResponsesStreamState.beat (s : ResponsesStreamState) : ResponsesStreamState :=
  { s with wire := s.wire ++ [.heartbeat] }

/-- `responses_stream_send_headers`. -/
def responsesStreamSendHeaders (s : ResponsesStreamState) : ResponsesStreamState :=
  if s.headersSent then s
  else { s with headersSent := true, wire := s.wire ++ [.headers] }

/-- The data of `response.created`. -/
def createdData (id model : Bytes) (now : Nat) : Bytes :=
  lit "\x7b\"type\":\"response.created\",\"response\":\x7b\"id\":\"" ++
    (if id = [] then lit "resp-stream" else id) ++
    lit "\",\"object\":\"response\",\"created_at\":" ++ decimal now ++
    lit ",\"status\":\"in_progress\",\"error\":null,\"incomplete_details\":null,\"instructions\":null,\"max_output_tokens\":null,\"model\":\"" ++
    (if model = [] then lit "star-bridge-ds4" else model) ++
    lit "\",\"output\":[],\"parallel_tool_calls\":true,\"previous_response_id\":null,\"reasoning\":null,\"store\":false,\"temperature\":1,\"text\":\x7b\"format\":\x7b\"type\":\"text\"\x7d\x7d,\"tool_choice\":\"auto\",\"tools\":[],\"top_p\":1,\"truncation\":\"disabled\",\"usage\":null,\"user\":null,\"metadata\":\x7b\x7d\x7d,\"sequence_number\":0\x7d"

/-- `responses_stream_emit_created`. -/
def responsesStreamEmitCreated (now : Nat) (s : ResponsesStreamState) :
    ResponsesStreamState :=
  let s := responsesStreamSendHeaders s
  (s.send (lit "response.created") (createdData s.id s.model now)).beat

/-- The data of `response.output_item.added`. -/
def outputItemAddedData (item seq : Nat) : Bytes :=
  lit "\x7b\"type\":\"response.output_item.added\",\"output_index\":" ++ decimal item ++
    lit ",\"item\":\x7b\"id\":\"msg_" ++ decimal item ++
    lit "\",\"type\":\"message\",\"status\":\"in_progress\",\"role\":\"assistant\",\"content\":[]\x7d,\"sequence_number\":" ++
    decimal seq ++ lit "\x7d"

/-- `responses_stream_emit_output_item_added`; nothing when the items are
used up. -/
def responsesStreamStartItem (s : ResponsesStreamState) : ResponsesStreamState :=
  let idx := s.items.length
  if 16 ≤ idx then s
  else
    let item : OutputItem := ⟨lit "msg_" ++ decimal idx, lit "in_progress",
      lit "assistant", []⟩
    { (s.send (lit "response.output_item.added")
        (outputItemAddedData idx s.sequenceNumber)).beat with
      items := s.items ++ [item], curItem := some idx, curPart := none }

/-- The data of `response.content_part.added`. -/
def contentPartAddedData (item content seq : Nat) : Bytes :=
  lit "\x7b\"type\":\"response.content_part.added\",\"item_id\":\"msg_" ++ decimal item ++
    lit "\",\"output_index\":" ++ decimal item ++ lit ",\"content_index\":" ++
    decimal content ++
    lit ",\"part\":\x7b\"type\":\"output_text\",\"text\":\"\",\"annotations\":[]\x7d,\"sequence_number\":" ++
    decimal seq ++ lit "\x7d"

/-- `responses_stream_emit_content_part_added`; nothing without a current item
or when its parts are used up. -/
def responsesStreamStartPart (type : ContentPartType) (s : ResponsesStreamState) :
    ResponsesStreamState :=
  match s.curItem with
  | none => s
  | some i =>
      match s.items[i]? with
      | none => s
      | some item =>
          let idx := item.parts.length
          if 16 ≤ idx then s
          else
            let part : ContentPart := ⟨type, [], s.sequenceNumber⟩
            { (s.send (lit "response.content_part.added")
                (contentPartAddedData i idx s.sequenceNumber)).beat with
              items := s.items.set i { item with parts := item.parts ++ [part] }
              curPart := some idx }

/-- The data of `codex_stream_output_text_delta`. -/
def outputTextDeltaData (delta : Bytes) (item content seq : Nat) : Bytes :=
  lit "\x7b\"type\":\"response.output_text.delta\",\"item_id\":\"msg_" ++ decimal item ++
    lit "\",\"output_index\":" ++ decimal item ++ lit ",\"content_index\":" ++
    decimal content ++ lit ",\"delta\":\"" ++ jsonEscape delta 131072 ++
    lit "\",\"sequence_number\":" ++ decimal seq ++ lit "\x7d"

/-- The text part a stream is at, by its item and its index there. -/
def ResponsesStreamState.textPart (s : ResponsesStreamState) :
    Option (Nat × Nat × OutputItem × ContentPart) :=
  match s.curItem, s.curPart with
  | some i, some j =>
      match s.items[i]? with
      | none => none
      | some item =>
          match item.parts[j]? with
          | none => none
          | some part => if part.type = .outputText then some (i, j, item, part) else none
  | _, _ => none

/-- `responses_stream_emit_text_delta`: NULL for a return value of false. -/
def responsesStreamEmitTextDelta (delta : Bytes) (s : ResponsesStreamState) :
    Option ResponsesStreamState :=
  match s.textPart with
  | none => none
  | some (i, j, item, part) =>
      let sent := s.send (lit "response.output_text.delta")
        (outputTextDeltaData delta i j s.sequenceNumber)
      -- the part keeps what fits; the event carries the piece all the same
      let text :=
        if part.text.length + (cstr delta).length < 131072 then part.text ++ cstr delta
        else part.text
      some { sent with
        items := s.items.set i { item with parts := item.parts.set j { part with text } } }

/-- The stream as `handle_response_native` opens it for a streaming turn. -/
def openedStream (model : Bytes) (now : Nat) : ResponsesStreamState :=
  responsesStreamStartPart .outputText
    (responsesStreamStartItem
      (responsesStreamEmitCreated now (responsesStreamInit (lit "resp-stream") model)))

/-! ## What the client reads -/

/-- The text in a `response.output_text.delta` event, as a JSON reader finds
it. -/
def deltaText : SseWrite → Option Bytes
  | .event name data =>
      if name = lit "response.output_text.delta" then
        (CJson.parse data).bind fun obj => CJson.stringField obj (lit "delta")
      else none
  | _ => none

/-- The concatenation of the text deltas on the wire. -/
def ResponsesStreamState.deltas (s : ResponsesStreamState) : Bytes :=
  (s.wire.filterMap deltaText).flatten

/-- The members of a delta event, with their printed texts. -/
def outputTextDeltaMembers (delta : Bytes) (item content seq : Nat) :
    List (Bytes × CJson × Bytes) :=
  [(lit "type", .string (lit "response.output_text.delta"),
      CJson.quoted (lit "response.output_text.delta")),
    (lit "item_id", .string (lit "msg_" ++ decimal item),
      CJson.quoted (lit "msg_" ++ decimal item)),
    (lit "output_index", .number (decimal item), decimal item),
    (lit "content_index", .number (decimal content), decimal content),
    (lit "delta", .string delta, CJson.quoted delta),
    (lit "sequence_number", .number (decimal seq), decimal seq)]

/-- A delta event is the object of its members. -/
theorem outputTextDeltaData_eq {delta : Bytes} (hzero : 0 ∉ delta)
    (hfits : (escapeAll delta).length + 8 < 131072) (item content seq : Nat) :
    outputTextDeltaData delta item content seq =
      123 :: CJson.printedMembers [] (outputTextDeltaMembers delta item content seq) := by
  have hcstr : cstr delta = delta := upTo_eq_self hzero
  have hescape : jsonEscape delta 131072 = escapeAll delta := by
    rw [jsonEscape_eq_of_fits (by rwa [hcstr]), hcstr]
  have hitem : escapeAll (lit "msg_" ++ decimal item) = lit "msg_" ++ decimal item := by
    rw [escapeAll_append, (CJson.plainText_decimal item).escapeAll]
    rfl
  rw [outputTextDeltaData, hescape]
  simp only [outputTextDeltaMembers, CJson.printedMembers, CJson.quoted, hitem]
  simp [lit, escapeAll, escapeByte]

/-- A client parses a delta event to its members. -/
theorem parse_outputTextDeltaData {delta : Bytes} (hzero : 0 ∉ delta)
    (hfits : (escapeAll delta).length + 8 < 131072) (item content seq : Nat) :
    CJson.parse (outputTextDeltaData delta item content seq) =
      some (.object ((outputTextDeltaMembers delta item content seq).map
        fun m => (m.1, m.2.1))) := by
  have hreads : ∀ m ∈ outputTextDeltaMembers delta item content seq,
      CJson.Reads 1 m.2.1 m.2.2 := by
    simp only [outputTextDeltaMembers, List.forall_mem_cons, List.not_mem_nil,
      false_implies, implies_true, and_true]
    exact ⟨CJson.reads_string _ _, CJson.reads_string _ _, CJson.reads_decimal _ _,
      CJson.reads_decimal _ _, CJson.reads_string _ _, CJson.reads_decimal _ _⟩
  have hplain : ∀ m ∈ outputTextDeltaMembers delta item content seq,
      0 ∉ m.1 ∧ 0 ∉ m.2.2 := by
    have hnum := fun n => (CJson.plainText_decimal n).zero_not_mem
    have hmsg : 0 ∉ lit "msg_" ++ decimal item := by
      rw [List.mem_append]
      rintro (h | h)
      · exact absurd h (by decide)
      · exact hnum _ h
    simp only [outputTextDeltaMembers, List.forall_mem_cons, List.not_mem_nil,
      false_implies, implies_true, and_true]
    exact ⟨⟨by decide, CJson.zero_not_mem_quoted (by decide)⟩,
      ⟨by decide, CJson.zero_not_mem_quoted hmsg⟩, ⟨by decide, hnum _⟩,
      ⟨by decide, hnum _⟩, ⟨by decide, CJson.zero_not_mem_quoted hzero⟩,
      ⟨by decide, hnum _⟩⟩
  have hparse := CJson.parse_printedMembers (Or.inl (rfl : ([] : Bytes) = []))
    (by simp [outputTextDeltaMembers]) hreads hplain
  rw [List.nil_append, List.append_nil] at hparse
  rw [outputTextDeltaData_eq hzero hfits, hparse]

/-- **What is emitted is what is read.**  A delta whose event fits its buffers
comes out of the event as it went in. -/
theorem deltaText_outputTextDelta {delta : Bytes} (hzero : 0 ∉ delta)
    (hlen : delta.length ≤ 4096) {item content seq : Nat} (hitem : item < 10 ^ 20)
    (hcontent : content < 10 ^ 20) (hseq : seq < 10 ^ 20) :
    deltaText (.event (lit "response.output_text.delta")
      (clip 131072 (outputTextDeltaData delta item content seq))) = some delta := by
  have hesc := length_escapeAll_le delta
  have hfits : (escapeAll delta).length + 8 < 131072 := by omega
  have hclip : clip 131072 (outputTextDeltaData delta item content seq) =
      outputTextDeltaData delta item content seq := by
    have h₁ := CJson.length_decimal_le (by decide) hitem
    have h₂ := CJson.length_decimal_le (by decide) hcontent
    have h₃ := CJson.length_decimal_le (by decide) hseq
    refine clip_eq_self ?_
    rw [outputTextDeltaData_eq hzero hfits]
    simp [outputTextDeltaMembers, CJson.printedMembers, CJson.quoted,
      (CJson.plainText_decimal item).escapeAll, lit, escapeByte]
    omega
  rw [hclip]
  have hdelta : CJson.stringField
      (.object ((outputTextDeltaMembers delta item content seq).map
        fun m => (m.1, m.2.1))) (lit "delta") = some (cstr delta) := by
    have hfind : ((outputTextDeltaMembers delta item content seq).map
        fun m => (m.1, m.2.1)).find? (fun m => CJson.nameMatches (lit "delta") m.1) =
        some (lit "delta", .string delta) := by
      have h₁ : CJson.nameMatches (lit "delta") (lit "type") = false := by decide
      have h₂ : CJson.nameMatches (lit "delta") (lit "item_id") = false := by decide
      have h₃ : CJson.nameMatches (lit "delta") (lit "output_index") = false := by decide
      have h₄ : CJson.nameMatches (lit "delta") (lit "content_index") = false := by decide
      have h₅ : CJson.nameMatches (lit "delta") (lit "delta") = true := by decide
      simp [outputTextDeltaMembers, h₁, h₂, h₃, h₄, h₅]
    simp only [CJson.stringField, CJson.getObjectItem, hfind]
    rfl
  simp only [deltaText, if_true, parse_outputTextDeltaData hzero hfits, Option.bind_some,
    hdelta]
  exact congrArg some (upTo_eq_self hzero)

/-! ## Streams at their text part -/

/-- The stream is at the text part it was opened with. -/
def ResponsesStreamState.AtText (s : ResponsesStreamState) : Prop :=
  ∃ item part, s.textPart = some (0, 0, item, part)

@[simp] theorem deltas_beat (s : ResponsesStreamState) : s.beat.deltas = s.deltas := by
  simp [ResponsesStreamState.deltas, ResponsesStreamState.beat, deltaText]

@[simp] theorem sequenceNumber_beat (s : ResponsesStreamState) :
    s.beat.sequenceNumber = s.sequenceNumber := rfl

theorem AtText.beat {s : ResponsesStreamState} (h : s.AtText) : s.beat.AtText := h

/-- Replacing a part by another text part leaves the stream at it. -/
theorem textPart_set {s : ResponsesStreamState} {i j : Nat} {item : OutputItem}
    {part : ContentPart} (h : s.textPart = some (i, j, item, part)) (part' : ContentPart)
    (htype : part'.type = .outputText) (wire : List SseWrite) (seq : Nat) :
    ResponsesStreamState.textPart
      { s with sequenceNumber := seq, wire := wire,
               items := s.items.set i { item with parts := item.parts.set j part' } } =
      some (i, j, { item with parts := item.parts.set j part' }, part') := by
  unfold ResponsesStreamState.textPart at h ⊢
  split at h
  · rename_i i' j' hi hj
    split at h
    · cases h
    rename_i item' hitem
    split at h
    · cases h
    rename_i part'' hpart
    split at h
    · cases h
      have hilt : i < s.items.length := (List.getElem?_eq_some_iff.mp hitem).1
      have hjlt : j < item.parts.length := (List.getElem?_eq_some_iff.mp hpart).1
      simp [hi, hj, hilt, hjlt, htype]
    · cases h
  · cases h

theorem textPart_type {s : ResponsesStreamState} {i j : Nat} {item : OutputItem}
    {part : ContentPart} (h : s.textPart = some (i, j, item, part)) :
    part.type = .outputText := by
  unfold ResponsesStreamState.textPart at h
  repeat' split at h
  all_goals first
    | cases h; assumption
    | cases h

/-- A stream at its text part takes every delta and stays there. -/
theorem AtText.emitTextDelta {s : ResponsesStreamState} (h : s.AtText) (delta : Bytes) :
    ∃ s', responsesStreamEmitTextDelta delta s = some s' ∧ s'.AtText := by
  obtain ⟨item, part, hpart⟩ := h
  have htype := textPart_type hpart
  have hset := textPart_set hpart
    { part with text :=
        if part.text.length + (cstr delta).length < 131072 then part.text ++ cstr delta
        else part.text } htype
  rw [responsesStreamEmitTextDelta, hpart]
  exact ⟨_, rfl, _, _, hset _ _⟩

/-- **One delta.**  A stream at its text part writes a piece of text as one
event, from which a client reads that piece. -/
theorem emitTextDelta_of_atText {s : ResponsesStreamState} (h : s.AtText)
    {delta : Bytes} (hzero : 0 ∉ delta) (hlen : delta.length ≤ 4096)
    (hseq : s.sequenceNumber < 10 ^ 20) :
    ∃ s', responsesStreamEmitTextDelta delta s = some s' ∧ s'.AtText ∧
      s'.sequenceNumber = s.sequenceNumber + 1 ∧ s'.deltas = s.deltas ++ delta := by
  obtain ⟨item, part, hpart⟩ := h
  have htype := textPart_type hpart
  have hread := deltaText_outputTextDelta hzero hlen (show 0 < 10 ^ 20 by decide)
    (show 0 < 10 ^ 20 by decide) hseq
  let text :=
    if part.text.length + (cstr delta).length < 131072 then part.text ++ cstr delta
    else part.text
  have hemit : responsesStreamEmitTextDelta delta s =
      some { s.send (lit "response.output_text.delta")
          (outputTextDeltaData delta 0 0 s.sequenceNumber) with
        items := s.items.set 0
          { item with parts := item.parts.set 0 { part with text } } } := by
    rw [responsesStreamEmitTextDelta, hpart]
  refine ⟨_, hemit, ⟨_, _, textPart_set hpart { part with text } htype _ _⟩, rfl, ?_⟩
  simp only [ResponsesStreamState.deltas, ResponsesStreamState.send,
    List.filterMap_append, List.filterMap_cons, List.filterMap_nil, hread,
    List.flatten_append, List.flatten_cons, List.flatten_nil, List.append_nil]

theorem openedStream_atText (model : Bytes) (now : Nat) :
    (openedStream model now).AtText := ⟨_, _, rfl⟩

theorem openedStream_sequenceNumber (model : Bytes) (now : Nat) :
    (openedStream model now).sequenceNumber = 3 := rfl

/-- Opening a stream writes no text. -/
theorem openedStream_deltas (model : Bytes) (now : Nat) :
    (openedStream model now).deltas = [] := by
  have hcreated : lit "response.created" ≠ lit "response.output_text.delta" := by decide
  have hitem : lit "response.output_item.added" ≠ lit "response.output_text.delta" := by
    decide
  have hpart : lit "response.content_part.added" ≠ lit "response.output_text.delta" := by
    decide
  simp [openedStream, responsesStreamStartPart, responsesStreamStartItem,
    responsesStreamEmitCreated, responsesStreamSendHeaders, responsesStreamInit,
    ResponsesStreamState.send, ResponsesStreamState.beat, ResponsesStreamState.deltas,
    deltaText, hcreated, hitem, hpart]

end StarBridge
