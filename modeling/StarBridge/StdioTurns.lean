import StarBridge.ResponseHeads
import StarBridge.Runs

/-!
# Turns of a stdio agent

Without frames the bridge writes a request to the agent's input and takes what
the agent prints into a ring buffer.  A turn is answered from that buffer, in
one piece or in chunks on an event stream.  Between two chunks the bridge looks
at the engine's cancellation flag; a `DELETE` sets it, and so does a client that
does not take its stream.
-/

namespace StarBridge

open CText Runs

/-! ## The ring buffer -/

/-- `ring_append`, on what the ring holds: the oldest bytes make room. -/
def ringAppend (capacity : Nat) (held data : Bytes) : Bytes :=
  (held ++ data).drop ((held ++ data).length - (capacity - 1))

/-- `ring_read`: what it copies out, and what it leaves. -/
def ringRead (maxLen : Nat) (held : Bytes) : Bytes × Bytes :=
  (held.take (maxLen - 1), held.drop (maxLen - 1))

/-- `BRIDGE_BUFFER_SIZE`. -/
def bridgeBufferSize : Nat := 131072

/-! ## The answers -/

/-- The text of an answer, of what was read from the ring. -/
def stdioText (cfg : BlockConfig) (read : Bytes) : Bytes :=
  cstr (clip cfg.maxOutputBuffer (stdioContent read))

/-- The read filled the content buffer. -/
def fillsBuffer (cfg : BlockConfig) (read : Bytes) : Bool :=
  decide (cfg.maxOutputBuffer - 1 ≤ read.length)

/-- What the chunk loop of `handle_response_stream` leaves. -/
structure ChunkRun where
  engine : EngineState
  stream : ResponsesStreamState
  stopped : Bool

/-- The chunk loop from the chunk with this number on, given whether the
client's socket is writable in front of each chunk. -/
def streamChunks (writable : Nat → Bool) (eng : EngineState) (stream : ResponsesStreamState) :
    Nat → List Bytes → ChunkRun
  | _, [] => ⟨eng, stream, false⟩
  | k, chunk :: rest =>
      if eng.cancelled then ⟨eng, stream, true⟩
      else if ¬ writable k then ⟨engineCancel false [] eng, stream, true⟩
      else
        match responsesStreamEmitTextDelta chunk stream with
        | none => ⟨eng, stream, true⟩
        | some stream => streamChunks writable eng stream (k + 1) rest

/-- The end of `handle_response_stream`. -/
def ChunkRun.close (run : ChunkRun) (later : Nat) (truncated : Bool) : ClosedStream :=
  if run.stopped then
    ⟨responsesStreamEmitError
      (if run.engine.cancelled then lit "cancelled" else lit "client_disconnected")
      run.stream, false⟩
  else
    ⟨responsesStreamEmitCompleted later (if truncated then lit "max_output_buffer" else [])
      (responsesStreamEmitOutputItemDone
        (responsesStreamEmitContentPartDone (responsesStreamEmitTextDone run.stream))), true⟩

/-- The content of a stdio answer in one piece, and the reason it is
incomplete. -/
def stdioBlockContent (cfg : BlockConfig) (read : Bytes) : Bytes × Bytes :=
  let content := stdioText cfg read
  let truncatedChars : Bool :=
    decide (0 < cfg.maxOutputChars ∧ cfg.maxOutputChars.toNat < content.length)
  (if truncatedChars then content.take cfg.maxOutputChars.toNat else content,
    if fillsBuffer cfg read then lit "max_output_buffer"
    else if truncatedChars then lit "max_output_chars"
    else [])

/-- `handle_response_block` for a stdio turn. -/
def stdioBlock (cfg : BlockConfig) (now : Nat) (read : Bytes) : BlockReply :=
  let content := stdioBlockContent cfg read
  let object := textResponse (lit "resp-block") cfg.model content.1 content.2 now
  let body := respToJson object
  match codexValidateResponseJson body with
  | some error => .error (codexSerializeError (clip 256 error))
  | none => .response object body

/-! ## The server -/

/-- A turn, and what happens while it runs: what the agent prints until its
answer is read, and how the client takes a stream. -/
structure StdioTurn where
  stream : Bool
  printed : Bytes
  now : Nat
  later : Nat
  writable : Nat → Bool

/-- A request to a bridge with a stdio agent. -/
inductive StdioRequest
  | turn (turn : StdioTurn)
  | delete
  | other

/-- What the client of a turn is sent. -/
inductive StdioAnswer
  | stream (closed : ClosedStream)
  | block (reply : BlockReply)

/-- The bridge between two requests. -/
structure StdioServer where
  engine : EngineState
  buffer : Bytes

/-- What is read from the ring for a turn, and what stays in it. -/
def StdioServer.readText (cfg : BlockConfig) (s : StdioServer) (turn : StdioTurn) :
    Bytes × Bytes :=
  ringRead cfg.maxOutputBuffer (ringAppend bridgeBufferSize s.buffer turn.printed)

/-- The chunk loop of a streaming turn. -/
def StdioServer.chunkRun (cfg : BlockConfig) (s : StdioServer) (turn : StdioTurn) : ChunkRun :=
  let text := stdioText cfg (s.readText cfg turn).1
  streamChunks turn.writable s.engine (openedStream cfg.model turn.now) 0
    (chunks 4096 text.length text)

/-- What the client of a turn is sent. -/
def StdioServer.answer (cfg : BlockConfig) (s : StdioServer) (turn : StdioTurn) : StdioAnswer :=
  let read := (s.readText cfg turn).1
  if turn.stream then
    .stream ((s.chunkRun cfg turn).close turn.later (fillsBuffer cfg read))
  else .block (stdioBlock cfg turn.now read)

/-- The bridge after a turn. -/
def StdioServer.afterTurn (cfg : BlockConfig) (s : StdioServer) (turn : StdioTurn) :
    StdioServer where
  engine := if turn.stream then (s.chunkRun cfg turn).engine else s.engine
  buffer := (s.readText cfg turn).2

/-- The bridge after a request; a `DELETE` is `engine_cancel`. -/
def stdioStep (cfg : BlockConfig) (s : StdioServer) : StdioRequest → StdioServer
  | .turn turn => s.afterTurn cfg turn
  | .delete => { s with engine := engineCancel false [] s.engine }
  | .other => s

/-- The answer to a request, where it is a turn. -/
def stdioOut (cfg : BlockConfig) (s : StdioServer) : StdioRequest → Option StdioAnswer
  | .turn turn => some (s.answer cfg turn)
  | _ => none

/-- The answers to a sequence of requests. -/
def stdioAnswers (cfg : BlockConfig) (s : StdioServer) (requests : List StdioRequest) :
    List (Option StdioAnswer) :=
  trace (stdioStep cfg) (stdioOut cfg) s requests

/-! ## Cancellations that end with their turn -/

/-- The engine with the cancellation flag cleared. -/
def EngineState.uncancelled (eng : EngineState) : EngineState := { eng with cancelled := false }

/-- The bridge with the cancellation flag cleared. -/
def StdioServer.uncancelled (s : StdioServer) : StdioServer :=
  { s with engine := s.engine.uncancelled }

/-- The answers where no cancellation outlives the request it belongs to. -/
def scopedStdioAnswers (cfg : BlockConfig) (s : StdioServer) (requests : List StdioRequest) :
    List (Option StdioAnswer) :=
  trace (fun s r => (stdioStep cfg s r).uncancelled) (stdioOut cfg) s.uncancelled requests

/-- A request whose answer a cancellation before it does not reach: a stream that
begins cancelled has nothing to send, or a client that takes nothing. -/
def Unreached (cfg : BlockConfig) (s : StdioServer) : StdioRequest → Prop
  | .turn turn =>
      turn.stream = true → s.engine.cancelled = true →
        stdioText cfg (s.readText cfg turn).1 = [] ∨ turn.writable 0 = false
  | _ => True

/-- Without frames a cancellation is the flag and nothing else. -/
theorem engineCancel_uncancelled (requestId : Bytes) (eng : EngineState) :
    (engineCancel false requestId eng).uncancelled = eng.uncancelled := by
  unfold engineCancel
  split
  · rfl
  · rfl

/-- The chunk loop does nothing to the engine but cancel it. -/
theorem streamChunks_engine (writable : Nat → Bool) (eng : EngineState)
    (stream : ResponsesStreamState) (k : Nat) (pieces : List Bytes) :
    (streamChunks writable eng stream k pieces).engine.uncancelled = eng.uncancelled := by
  induction pieces generalizing stream k with
  | nil => rfl
  | cons chunk rest ih =>
      unfold streamChunks
      split
      · rfl
      · split
        · exact engineCancel_uncancelled [] eng
        · cases responsesStreamEmitTextDelta chunk stream with
          | none => rfl
          | some stream' => exact ih stream' (k + 1)

/-- A delta is one event. -/
theorem eventNames_emitTextDelta {stream stream' : ResponsesStreamState} {delta : Bytes}
    (h : responsesStreamEmitTextDelta delta stream = some stream') :
    stream'.eventNames = stream.eventNames ++ [lit "response.output_text.delta"] := by
  unfold responsesStreamEmitTextDelta at h
  split at h
  · cases h
  · cases h
    exact eventNames_send stream (lit "response.output_text.delta") _

/-- What is on the wire stays there. -/
theorem streamChunks_names (writable : Nat → Bool) (eng : EngineState)
    (stream : ResponsesStreamState) (k : Nat) (pieces : List Bytes) :
    stream.eventNames <+: (streamChunks writable eng stream k pieces).stream.eventNames := by
  induction pieces generalizing stream k with
  | nil => exact List.prefix_rfl
  | cons chunk rest ih =>
      unfold streamChunks
      split
      · exact List.prefix_rfl
      · split
        · exact List.prefix_rfl
        · cases hemit : responsesStreamEmitTextDelta chunk stream with
          | none => exact List.prefix_rfl
          | some stream' =>
              have hone : stream.eventNames <+: stream'.eventNames := by
                rw [eventNames_emitTextDelta hemit]
                exact List.prefix_append _ _
              exact hone.trans (ih stream' (k + 1))

/-- Ending a response adds to the wire. -/
theorem finish_names (stream : ResponsesStreamState) (later : Nat) (incomplete : Bytes) :
    stream.eventNames <+:
      (responsesStreamEmitCompleted later incomplete
        (responsesStreamEmitOutputItemDone
          (responsesStreamEmitContentPartDone
            (responsesStreamEmitTextDone stream)))).eventNames := by
  have htext : ∀ s : ResponsesStreamState,
      s.eventNames <+: (responsesStreamEmitTextDone s).eventNames := by
    intro s
    unfold responsesStreamEmitTextDone
    split
    · exact List.prefix_rfl
    · exact ⟨_, ((eventNames_beat _).trans (eventNames_send s _ _)).symm⟩
  have hpart : ∀ s : ResponsesStreamState,
      s.eventNames <+: (responsesStreamEmitContentPartDone s).eventNames := by
    intro s
    unfold responsesStreamEmitContentPartDone
    split
    · exact ⟨_, ((eventNames_beat _).trans (eventNames_send s _ _)).symm⟩
    · exact List.prefix_rfl
  have hitem : ∀ s : ResponsesStreamState,
      s.eventNames <+: (responsesStreamEmitOutputItemDone s).eventNames := by
    intro s
    unfold responsesStreamEmitOutputItemDone
    split
    · exact List.prefix_rfl
    · exact ⟨_, ((eventNames_beat _).trans (eventNames_send s _ _)).symm⟩
  rw [eventNames_emitCompleted]
  exact ((htext stream).trans ((hpart _).trans (hitem _))).trans (List.prefix_append _ _)

theorem close_names (run : ChunkRun) (later : Nat) (truncated : Bool) :
    run.stream.eventNames <+: (run.close later truncated).stream.eventNames := by
  unfold ChunkRun.close
  split
  · rw [eventNames_emitError]
    exact List.prefix_append _ _
  · exact finish_names run.stream later _

/-- A stream that begins cancelled is cut off in front of its first chunk. -/
theorem answer_cancelled {cfg : BlockConfig} {s : StdioServer} {turn : StdioTurn}
    (hstream : turn.stream = true) (hcancelled : s.engine.cancelled = true)
    (htext : stdioText cfg (s.readText cfg turn).1 ≠ []) :
    s.answer cfg turn = .stream ⟨responsesStreamEmitError (lit "cancelled")
      (openedStream cfg.model turn.now), false⟩ := by
  unfold StdioServer.answer StdioServer.chunkRun
  dsimp only
  rw [if_pos hstream]
  generalize stdioText cfg (s.readText cfg turn).1 = text at htext
  cases hlen : text.length with
  | zero => exact absurd (List.length_eq_zero_iff.mp hlen) htext
  | succ n =>
      rw [chunks, if_neg htext, streamChunks, if_pos hcancelled]
      unfold ChunkRun.close
      rw [if_pos rfl, if_pos hcancelled]

/-- A stream that is not cancelled and whose client takes the first chunk sends
it. -/
theorem answer_live {cfg : BlockConfig} {s : StdioServer} {turn : StdioTurn}
    (hstream : turn.stream = true) (hlive : s.engine.cancelled = false)
    (htext : stdioText cfg (s.readText cfg turn).1 ≠ []) (hwritable : turn.writable 0 = true) :
    ∃ closed, s.answer cfg turn = .stream closed ∧
      (openedStream cfg.model turn.now).eventNames ++ [lit "response.output_text.delta"] <+:
        closed.stream.eventNames := by
  unfold StdioServer.answer StdioServer.chunkRun
  dsimp only
  rw [if_pos hstream]
  refine ⟨_, rfl, ?_⟩
  refine List.IsPrefix.trans ?_ (close_names _ turn.later _)
  generalize stdioText cfg (s.readText cfg turn).1 = text at htext
  cases hlen : text.length with
  | zero => exact absurd (List.length_eq_zero_iff.mp hlen) htext
  | succ n =>
      have hnot : ¬ s.engine.cancelled = true := by simp [hlive]
      have htake : ¬ ¬ turn.writable 0 = true := by simp [hwritable]
      obtain ⟨item, part, hpart⟩ := openedStream_atText cfg.model turn.now
      have hemit : ∃ stream, responsesStreamEmitTextDelta (text.take 4096)
          (openedStream cfg.model turn.now) = some stream := by
        unfold responsesStreamEmitTextDelta
        rw [hpart]
        exact ⟨_, rfl⟩
      obtain ⟨stream, hemit⟩ := hemit
      rw [chunks, if_neg htext, streamChunks, if_neg hnot, if_neg htake, hemit,
        ← eventNames_emitTextDelta hemit]
      exact streamChunks_names turn.writable s.engine stream 1 _

/-- So is one whose client does not take the first chunk. -/
theorem answer_untaken {cfg : BlockConfig} {s : StdioServer} {turn : StdioTurn}
    (hstream : turn.stream = true) (hlive : s.engine.cancelled = false)
    (htext : stdioText cfg (s.readText cfg turn).1 ≠ [])
    (hwritable : turn.writable 0 = false) :
    s.answer cfg turn = .stream ⟨responsesStreamEmitError (lit "cancelled")
      (openedStream cfg.model turn.now), false⟩ := by
  have hflag : (engineCancel false [] s.engine).cancelled = true := by
    rw [engineCancel, hlive]
    rfl
  have hnot : ¬ s.engine.cancelled = true := by simp [hlive]
  have hfull : ¬ turn.writable 0 = true := by simp [hwritable]
  unfold StdioServer.answer StdioServer.chunkRun
  dsimp only
  rw [if_pos hstream]
  generalize stdioText cfg (s.readText cfg turn).1 = text at htext
  cases hlen : text.length with
  | zero => exact absurd (List.length_eq_zero_iff.mp hlen) htext
  | succ n =>
      rw [chunks, if_neg htext, streamChunks, if_neg hnot, if_pos hfull]
      unfold ChunkRun.close
      rw [if_pos rfl, if_pos hflag]

/-- **One answer**, exactly: it is what it would be without the cancellations
before it iff they do not reach it. -/
theorem answer_eq_iff (cfg : BlockConfig) (s : StdioServer) (turn : StdioTurn) :
    s.answer cfg turn = s.uncancelled.answer cfg turn ↔ Unreached cfg s (.turn turn) := by
  have hread : s.uncancelled.readText cfg turn = s.readText cfg turn := rfl
  by_cases hstream : turn.stream = true
  · by_cases hcancelled : s.engine.cancelled = true
    · have hreached : Unreached cfg s (.turn turn) ↔
          stdioText cfg (s.readText cfg turn).1 = [] ∨ turn.writable 0 = false := by
        unfold Unreached
        dsimp only
        rw [forall_prop_of_true hstream, forall_prop_of_true hcancelled]
      rw [hreached]
      by_cases htext : stdioText cfg (s.readText cfg turn).1 = []
      · refine iff_of_true ?_ (.inl htext)
        unfold StdioServer.answer StdioServer.chunkRun
        rw [hread, htext, hstream]
        rfl
      · rw [answer_cancelled hstream hcancelled htext]
        cases hwritable : turn.writable 0 with
        | false =>
            refine iff_of_true ?_ (.inr rfl)
            exact (answer_untaken (s := s.uncancelled) hstream rfl (hread ▸ htext)
              hwritable).symm
        | true =>
            obtain ⟨closed, hclosed, hnames⟩ := answer_live (s := s.uncancelled) hstream rfl
              (hread ▸ htext) hwritable
            rw [hclosed]
            refine iff_of_false ?_ ?_
            · intro h
              have hsame := congrArg ClosedStream.stream (StdioAnswer.stream.inj h)
              rw [← hsame, eventNames_emitError] at hnames
              have hevent := (List.prefix_append_right_inj _).mp hnames
              revert hevent
              decide
            · intro h
              rcases h with h | h
              · exact htext h
              · cases h
    · have hlive : s.engine.cancelled = false := Bool.not_eq_true _ |>.mp hcancelled
      have hsame : s.uncancelled = s := by
        unfold StdioServer.uncancelled EngineState.uncancelled
        rw [← hlive]
      rw [hsame]
      exact iff_of_true rfl fun _ h => absurd h hcancelled
  · refine iff_of_true ?_ fun h => absurd h hstream
    unfold StdioServer.answer
    rw [hread, if_neg hstream, if_neg hstream]

/-- A request leaves the bridge as it would without the cancellations before it,
but for the flag. -/
theorem stdioStep_uncancelled (cfg : BlockConfig) (s : StdioServer) (r : StdioRequest) :
    (stdioStep cfg s.uncancelled r).uncancelled = (stdioStep cfg s r).uncancelled := by
  cases r with
  | other => rfl
  | delete =>
      have hcancel : (engineCancel false [] s.engine.uncancelled).uncancelled =
          (engineCancel false [] s.engine).uncancelled :=
        (engineCancel_uncancelled [] _).trans (engineCancel_uncancelled [] s.engine).symm
      exact congrArg (StdioServer.mk · s.buffer) hcancel
  | turn turn =>
      have hengine : (s.uncancelled.afterTurn cfg turn).engine.uncancelled =
          (s.afterTurn cfg turn).engine.uncancelled := by
        unfold StdioServer.afterTurn
        dsimp only
        split
        · exact (streamChunks_engine turn.writable _ _ 0 _).trans
            (streamChunks_engine turn.writable s.engine _ 0 _).symm
        · rfl
      exact congrArg (StdioServer.mk · (s.readText cfg turn).2) hengine

/-- **Stdio mode**, exactly: a sequence of requests is answered as if no
cancellation outlived its request iff none reaches a later turn. -/
theorem stdioAnswers_scoped_iff (cfg : BlockConfig) (s : StdioServer)
    (requests : List StdioRequest) :
    stdioAnswers cfg s requests = scopedStdioAnswers cfg s requests ↔
      AllSteps (stdioStep cfg) (Unreached cfg) s requests := by
  refine trace_eq_iff (R := fun s t => t = s.uncancelled) ?_ ?_ rfl requests
  · intro s t r h
    rw [h]
    exact stdioStep_uncancelled cfg s r
  · intro s t r h
    rw [h]
    cases r with
    | turn turn => exact (Option.some_inj).trans (answer_eq_iff cfg s turn)
    | delete => exact iff_of_true rfl trivial
    | other => exact iff_of_true rfl trivial

end StarBridge
