import StarBridge.OutputLoss

/-!
# Streaming and non-streaming answers

The same frames answer a streaming and a non-streaming request through one event
loop.  A live client is sent every text delta as it comes, and then the text of
the response as further deltas; the other client is sent the text of the
response alone.  `streaming_agrees_iff` says when both find the same text.
-/

namespace StarBridge

open CText Loops

/-! ## What is streamed -/

/-- The text a `text_delta` event carries. -/
def NativeEvent.delta (ev : NativeEvent) : Bytes :=
  match ev.type, ev.data with
  | .textDelta, .response _ _ text .. => text
  | _, _ => []

/-- The text one round of the loop streams: that of a `text_delta` frame, unless
its id is another turn's. -/
def deltaOf (env : TurnEnv) : LoopEvent → Bytes
  | .frame text =>
      let ev := nativeParseFrame env.parser text
      if ev.id ≠ [] ∧ ¬ echoesId env text then [] else ev.delta
  | .control _ => []
  | .idle _ => []

/-- The text a stretch of a turn streams. -/
def streamedText (env : TurnEnv) (events : List LoopEvent) : Bytes :=
  events.flatMap (deltaOf env)

/-- The texts of response and `text_delta` events are C strings of at most 4095
bytes. -/
theorem response_text_bounds (env : ParserEnv) (frame : Bytes) {id status text : Bytes}
    {promptTokens completionTokens : Int}
    (h : (nativeParseFrame env frame).data =
      .response id status text promptTokens completionTokens) :
    0 ∉ text ∧ text.length < 4096 := by
  obtain ⟨obj, typeStr, hevent⟩ := nativeParseFrame_data (by rw [h]; exact NativeEventData.noConfusion)
  rw [hevent] at h
  unfold eventOf parseResponse at h
  dsimp only at h
  repeat' split at h
  all_goals first
    | cases h
      exact ⟨zero_not_mem_firstString obj 4096 _, firstString_length_lt (by decide) obj _⟩
    | cases h

/-- The turn streams to a client that has been sent this text. -/
structure Streaming (s : TurnState) (sent : Bytes) (stream : ResponsesStreamState) : Prop where
  live : s.stream = some stream
  atText : stream.AtText
  numbered : stream.sequenceNumber ≤ 3 + s.eventCount
  deltas : stream.deltas = sent

/-- A state that differs in other things streams the same. -/
theorem Streaming.congr {s s' : TurnState} {sent : Bytes} {stream : ResponsesStreamState}
    (h : Streaming s sent stream) (hstream : s'.stream = s.stream)
    (hcount : s.eventCount ≤ s'.eventCount) : Streaming s' sent stream :=
  ⟨hstream.trans h.live, h.atText, h.numbered.trans (by omega), h.deltas⟩

theorem Streaming.beat {s : TurnState} {sent : Bytes} {stream : ResponsesStreamState}
    (h : Streaming s sent stream) (remaining : Int) :
    Streaming { s.beat with remainingTimeout := remaining } sent stream.beat :=
  ⟨by simp [TurnState.beat, h.live], AtText.beat h.atText, h.numbered,
    (deltas_beat stream).trans h.deltas⟩

/-- **One piece of text.**  It reaches the client whole. -/
theorem Streaming.emit {s : TurnState} {sent : Bytes} {stream : ResponsesStreamState}
    (h : Streaming s sent stream) (hcount : s.eventCount < 2 ^ 31) {delta : Bytes}
    (hzero : 0 ∉ delta) (hlen : delta.length < 4096) :
    ∃ stream', s.emitDelta delta = ({ s with stream := some stream' }, true) ∧
      Streaming ({ s with stream := some stream' } : TurnState).count (sent ++ delta)
        stream' := by
  have hnumbered := h.numbered
  have hseq : stream.sequenceNumber < 10 ^ 20 := by
    have : (2 : Nat) ^ 31 + 3 < 10 ^ 20 := by decide
    omega
  obtain ⟨stream', hemit, hat, hnext, hdeltas⟩ :=
    emitTextDelta_of_atText h.atText hzero hlen.le hseq
  refine ⟨stream', ?_, rfl, hat, ?_, ?_⟩
  · rw [TurnState.emitDelta, h.live]
    dsimp only
    rw [hemit]
  · rw [hnext]
    show stream.sequenceNumber + 1 ≤ 3 + (s.eventCount + 1)
    omega
  · rw [hdeltas, h.deltas]

/-- What a `text_delta` frame streams. -/
theorem textDeltaFrame_streaming (env : TurnEnv) {s : TurnState} {sent : Bytes}
    {stream : ResponsesStreamState} (h : Streaming s sent stream)
    (hcount : s.eventCount < 2 ^ 31) {text : Bytes} (hzero : 0 ∉ text)
    (hlen : text.length < 4096) :
    ∃ stream', Streaming (textDeltaFrame env s text) (sent ++ text) stream' := by
  let kept : TurnState := { s with outBuf := appendText env.outMax s.outBuf text }
  have hkept : Streaming kept sent stream := h.congr rfl le_rfl
  by_cases hnil : text = []
  · refine ⟨stream, ?_⟩
    rw [textDeltaFrame, if_pos hnil, hnil, List.append_nil]
    exact hkept.congr rfl (Nat.le_succ _)
  · obtain ⟨stream', hemit, hstream'⟩ := hkept.emit hcount hzero hlen
    refine ⟨stream', ?_⟩
    rw [textDeltaFrame, if_neg hnil]
    show Streaming (kept.emitDelta text).1.count _ _
    rw [hemit]
    exact hstream'

/-- What an event streams. -/
theorem dispatchEvent_streaming {env : TurnEnv} {s s' : TurnState} {frame : Bytes}
    {sent : Bytes} {stream : ResponsesStreamState} (h : Streaming s sent stream)
    (hcount : s.eventCount < 2 ^ 31)
    (hrun : dispatchEvent env s frame (nativeParseFrame env.parser frame) = .running s') :
    ∃ stream', Streaming s' (sent ++ (nativeParseFrame env.parser frame).delta) stream' := by
  have hbounds := @response_text_bounds env.parser frame
  generalize nativeParseFrame env.parser frame = ev at hrun hbounds ⊢
  -- apart from text deltas, an event that lets the loop go on streams nothing
  have hsilent : ev.delta = [] → s'.stream = s.stream → s.eventCount ≤ s'.eventCount →
      ∃ stream', Streaming s' (sent ++ ev.delta) stream' := by
    intro hdelta hstream hle
    rw [hdelta, List.append_nil]
    exact ⟨stream, h.congr hstream hle⟩
  unfold dispatchEvent at hrun
  split at hrun
  · rename_i htype hdata
    obtain ⟨hzero, hlen⟩ := hbounds hdata
    cases hrun
    simp only [NativeEvent.delta, htype, hdata]
    exact textDeltaFrame_streaming env h hcount hzero hlen
  · rename_i htype _
    cases hrun
    exact hsilent (by simp only [NativeEvent.delta, htype]) rfl (Nat.le_succ _)
  · cases hrun
  · cases hrun
  · rename_i toolName toolArgs htype _
    unfold toolIntentFrame at hrun
    dsimp only at hrun
    split at hrun
    · cases hrun
    · cases hrun
      obtain ⟨runs, answer, hanswer, -⟩ := answerTool_keeps env s.countTool toolName toolArgs
      rw [hanswer] at hsilent ⊢
      exact hsilent (by simp only [NativeEvent.delta, htype]) rfl (Nat.le_succ _)
  · cases hrun
  · rename_i htype
    split at hrun
    · cases hrun
      exact hsilent (by simp only [NativeEvent.delta, htype]) rfl (Nat.le_succ _)
    · cases hrun
      exact hsilent (by simp only [NativeEvent.delta, htype]) rfl (Nat.le_succ _)
  · rename_i hdelta _ _ _ _
    cases hrun
    refine hsilent ?_ rfl (Nat.le_succ _)
    unfold NativeEvent.delta
    split
    · rename_i htype hdata
      exact (hdelta _ _ _ _ _ htype hdata).elim
    · rfl

/-- What one round of the loop streams. -/
theorem turnEvent_streaming {env : TurnEnv} {s s' : TurnState} {e : LoopEvent} {sent : Bytes}
    {stream : ResponsesStreamState} (h : Streaming s sent stream)
    (hcount : s.eventCount < 2 ^ 31) (hrun : turnEvent env s e = .running s') :
    ∃ stream', Streaming s' (sent ++ deltaOf env e) stream' := by
  obtain ⟨t, hevent, hsettle⟩ := Progress.bind_eq_running hrun
  obtain ⟨rfl, -⟩ := settle_eq_running hsettle
  cases e with
  | frame text =>
      dsimp only [frameEvent] at hevent
      dsimp only [deltaOf]
      have hbeat := h.beat env.fullTimeout
      split at hevent
      · rename_i hforeign
        rw [if_pos hforeign, List.append_nil]
        unfold foreignFrame at hevent
        split at hevent
        · cases hevent
          exact ⟨_, hbeat⟩
        · cases hevent
      · rename_i hmine
        rw [if_neg hmine]
        exact dispatchEvent_streaming hbeat hcount hevent
  | control connections =>
      rw [deltaOf, List.append_nil]
      dsimp only [controlEvent] at hevent
      split at hevent
      · cases hevent
      · cases hevent
        unfold TurnState.serveControl
        split
        · exact ⟨stream, h.congr rfl le_rfl⟩
        · exact ⟨stream, h⟩
  | idle late =>
      rw [deltaOf, List.append_nil]
      dsimp only [idleEvent] at hevent
      split at hevent
      · cases hevent
      · cases hevent
        exact ⟨_, h.beat _⟩

theorem count_of_inLoop {env : TurnEnv} {s : TurnState} (h : InLoop env s) :
    s.eventCount < 2 ^ 31 := by
  have hcounted := h.counted
  have hint := env.maxTurnEvents_int
  omega

/-- What a stretch of a turn streams. -/
theorem run_streaming {env : TurnEnv} {s s' : TurnState} {events : List LoopEvent}
    {sent : Bytes} {stream : ResponsesStreamState} (h : Streaming s sent stream)
    (hloop : InLoop env s) (hrun : run (turnEvent env) s events = .running s') :
    ∃ stream', Streaming s' (sent ++ streamedText env events) stream' := by
  induction events generalizing s sent stream with
  | nil =>
      cases hrun
      exact ⟨stream, by simpa [streamedText] using h⟩
  | cons e rest ih =>
      obtain ⟨t, hevent, hrest⟩ := Progress.bind_eq_running hrun
      obtain ⟨stream₁, h₁⟩ := turnEvent_streaming h (count_of_inLoop hloop) hevent
      obtain ⟨stream₂, h₂⟩ := ih h₁ (turnEvent_inLoop env s e t hloop hevent) hrest
      refine ⟨stream₂, ?_⟩
      rw [streamedText, List.flatMap_cons, ← List.append_assoc]
      exact h₂

/-- What a streaming turn has streamed when the next event comes. -/
theorem turnProcessEvents_streaming {env : TurnEnv} {t : TurnState}
    {events : List LoopEvent} {model : Bytes} {now : Nat}
    (hrun : turnProcessEvents env (freshTurn (some (openedStream model now))) events =
      .running t) :
    ∃ stream, Streaming t (streamedText env events) stream := by
  obtain ⟨s, hsettle, hrun⟩ := Progress.bind_eq_running hrun
  obtain ⟨rfl, hcount⟩ := settle_eq_running hsettle
  have hfresh : Streaming ((freshTurn (some (openedStream model now))).enter env) []
      (openedStream model now) :=
    ⟨rfl, openedStream_atText model now, le_of_eq (openedStream_sequenceNumber model now),
      openedStream_deltas model now⟩
  have hloop : InLoop env ((freshTurn (some (openedStream model now))).enter env) :=
    ⟨hcount, fullTimeout_pos env, le_rfl⟩
  exact run_streaming hfresh hloop hrun

/-- The client of a streaming turn has been sent the text of the response behind
that of the deltas. -/
theorem responseFrame_deltas {env : TurnEnv} {s : TurnState} {sent : Bytes}
    {stream : ResponsesStreamState} (h : Streaming s sent stream)
    (hcount : s.eventCount < 2 ^ 31) {text : Bytes} (hzero : 0 ∉ text)
    (hlen : text.length < 4096) (promptTokens completionTokens : Int) :
    (responseFrame env s text promptTokens completionTokens).deltas = sent ++ text := by
  have hanswer : Streaming (s.answer env text) sent stream := h.congr rfl le_rfl
  have hmetrics : ∀ u : TurnState,
      (u.emitMetrics (lit "completed") promptTokens completionTokens).deltas = u.deltas :=
    fun u => rfl
  unfold responseFrame
  dsimp only
  rw [hmetrics]
  by_cases hnil : text = []
  · rw [if_pos hnil, hnil, List.append_nil]
    rw [hnil] at hanswer
    simp only [TurnState.deltas, hanswer.live, hanswer.deltas]
  · -- the text is one chunk
    have hchunks : chunks 4096 text.length text = [text] := by
      have htake : text.take 4096 = text := List.take_of_length_le hlen.le
      have hdrop : text.drop 4096 = [] := List.drop_of_length_le hlen.le
      cases hsize : text.length with
      | zero => exact absurd (List.length_eq_zero_iff.mp hsize) hnil
      | succ n =>
          have hrest : chunks 4096 n [] = [] := by cases n <;> simp [chunks]
          rw [chunks, if_neg hnil, htake, hdrop, hrest]
    obtain ⟨stream', hemit, hstream'⟩ := hanswer.emit hcount hzero hlen
    rw [if_neg hnil, hchunks]
    simp only [TurnState.emitChunks, hemit, if_true]
    simp only [TurnState.deltas, hstream'.deltas]

/-! ## The same turn without a client -/

/-- The state without its stream. -/
def TurnState.unstreamed (s : TurnState) : TurnState :=
  s.withClient s.remainingTimeout none

theorem emitDelta_unstreamed (s : TurnState) (delta : Bytes) :
    (s.emitDelta delta).1.unstreamed = s.unstreamed := by
  obtain ⟨stream, hemit⟩ := emitDelta_keeps s delta
  rw [hemit]
  rfl

theorem textDeltaFrame_unstreamed (env : TurnEnv) (s : TurnState) (text : Bytes) :
    textDeltaFrame env s.unstreamed text = (textDeltaFrame env s text).unstreamed := by
  unfold textDeltaFrame
  dsimp only
  split
  · rfl
  · exact (congrArg TurnState.count (emitDelta_unstreamed
      { s with outBuf := appendText env.outMax s.outBuf text } text)).symm

theorem dispatchEvent_unstreamed {env : TurnEnv} {s s' : TurnState} {frame : Bytes}
    {ev : NativeEvent} (h : dispatchEvent env s frame ev = .running s') :
    dispatchEvent env s.unstreamed frame ev = .running s'.unstreamed := by
  unfold dispatchEvent at h ⊢
  split at h
  · cases h
    exact congrArg Progress.running (textDeltaFrame_unstreamed env s _)
  · cases h
    rfl
  · cases h
  · cases h
  · rename_i toolName toolArgs _ _
    unfold toolIntentFrame at h ⊢
    dsimp only at h ⊢
    split at h
    · cases h
    · rename_i hcycles
      cases h
      have hunder : ¬ 64 < s.unstreamed.countTool.toolCycles := hcycles
      rw [if_neg hunder]
      have hkeeps := (clockless_answerTool env toolName toolArgs).keeps s.countTool
      have hsame := clockless_answerTool env toolName toolArgs s.countTool
        s.remainingTimeout none
      refine congrArg Progress.running (hsame.trans ?_)
      unfold TurnState.unstreamed
      rw [hkeeps.1]
      rfl
  · cases h
  · split at h
    · rename_i hskip
      cases h
      exact if_pos hskip
    · rename_i hkeep
      cases h
      exact if_neg hkeep
  · cases h
    rfl

theorem frameEvent_unstreamed {env : TurnEnv} {s s' : TurnState} {frame : Bytes}
    (h : frameEvent env s frame = .running s') :
    frameEvent env s.unstreamed frame = .running s'.unstreamed := by
  unfold frameEvent at h ⊢
  dsimp only at h ⊢
  split at h
  · rename_i hforeign
    rw [if_pos hforeign]
    unfold foreignFrame at h ⊢
    split at h
    · rename_i hlife
      rw [if_pos hlife]
      cases h
      rfl
    · cases h
  · rename_i hmine
    rw [if_neg hmine]
    exact dispatchEvent_unstreamed h

theorem controlEvent_unstreamed {env : TurnEnv} {s s' : TurnState}
    {connections : List Bytes} (h : controlEvent env s connections = .running s') :
    controlEvent env s.unstreamed connections = .running s'.unstreamed := by
  have hserve : s.unstreamed.serveControl env connections =
      (s.serveControl env connections).unstreamed := by
    have hkeeps := (clockless_serveControl env connections).keeps s
    unfold TurnState.unstreamed
    rw [hkeeps.1]
    exact clockless_serveControl env connections s s.remainingTimeout none
  unfold controlEvent at h ⊢
  dsimp only at h ⊢
  rw [hserve]
  split at h
  · cases h
  · rename_i hgoes
    cases h
    exact if_neg hgoes

theorem idleEvent_unstreamed {env : TurnEnv} {s s' : TurnState} {late : List Bytes}
    (h : idleEvent env s late = .running s') :
    idleEvent env s.unstreamed late = .running s'.unstreamed := by
  unfold idleEvent at h ⊢
  dsimp only at h ⊢
  split at h
  · cases h
  · rename_i hleft
    cases h
    exact if_neg hleft

/-- A turn goes on without its client as it does with it. -/
theorem turnEvent_unstreamed {env : TurnEnv} {s s' : TurnState} {e : LoopEvent}
    (h : turnEvent env s e = .running s') :
    turnEvent env s.unstreamed e = .running s'.unstreamed := by
  obtain ⟨t, hevent, hsettle⟩ := Progress.bind_eq_running h
  obtain ⟨rfl, hcount⟩ := settle_eq_running hsettle
  have hsettled : settle env s'.unstreamed = .running s'.unstreamed := if_pos hcount
  unfold turnEvent
  cases e with
  | frame text =>
      dsimp only
      rw [frameEvent_unstreamed hevent]
      exact hsettled
  | control connections =>
      dsimp only
      rw [controlEvent_unstreamed hevent]
      exact hsettled
  | idle late =>
      dsimp only
      rw [idleEvent_unstreamed hevent]
      exact hsettled

/-- A turn that goes on with a live client goes on without one. -/
theorem turnProcessEvents_unstreamed {env : TurnEnv} {t : TurnState}
    {stream : ResponsesStreamState} {events : List LoopEvent}
    (h : turnProcessEvents env (freshTurn (some stream)) events = .running t) :
    turnProcessEvents env (freshTurn none) events = .running t.unstreamed := by
  have hrun : ∀ {s : TurnState} (rest : List LoopEvent),
      run (turnEvent env) s rest = .running t →
      run (turnEvent env) s.unstreamed rest = .running t.unstreamed := by
    intro s rest
    induction rest generalizing s with
    | nil =>
        intro hnil
        cases hnil
        rfl
    | cons e rest ih =>
        intro hcons
        obtain ⟨u, hevent, hrest⟩ := Progress.bind_eq_running hcons
        rw [run_cons, turnEvent_unstreamed hevent]
        exact ih hrest
  obtain ⟨s, hsettle, hevents⟩ := Progress.bind_eq_running h
  obtain ⟨rfl, hcount⟩ := settle_eq_running hsettle
  have hsettled : settle env ((freshTurn none).enter env) =
      .running ((freshTurn none).enter env) := if_pos hcount
  unfold turnProcessEvents
  rw [hsettled]
  exact hrun events hevents

/-! ## Agreement -/

/-- The writer shows this text of a response whole. -/
def ShownWhole (cfg : BlockConfig) (text : Bytes) : Prop :=
  (clip 4096 (cstr text)).length < cfg.maxOutputBuffer ∧
    (cfg.maxOutputChars ≤ 0 ∨ (clip 4096 (cstr text)).length ≤ cfg.maxOutputChars)

instance (cfg : BlockConfig) (text : Bytes) : Decidable (ShownWhole cfg text) :=
  inferInstanceAs (Decidable (_ ∧ _))

/-- Without compaction events there are no notices. -/
theorem noticesOf_eq_nil {env : TurnEnv} {events : List LoopEvent}
    (h : ∀ g, .frame g ∈ events → (nativeParseFrame env.parser g).type ≠ .compaction) :
    noticesOf env events = [] := by
  unfold noticesOf
  induction events with
  | nil => rfl
  | cons e rest ih =>
      have hnone : noticeOf env [] e = [] := by
        cases e with
        | frame text =>
            have hother := h text (by simp)
            dsimp only [noticeOf]
            split
            · rfl
            unfold NativeEvent.notice
            split
            · rename_i htype _
              exact absurd htype hother
            · rfl
        | control connections => rfl
        | idle late => rfl
      rw [List.foldl_cons, hnone]
      exact ih fun g hg => h g (List.mem_cons_of_mem e hg)

/-- The content is the text iff neither limit of the writer cuts it. -/
theorem blockContent_eq_iff {cfg : BlockConfig} (hbuffer : 0 < cfg.maxOutputBuffer)
    (text : Bytes) (eventLimited : Bool) :
    (blockContent cfg (text.take (cfg.maxOutputBuffer - 1)) eventLimited).1 = text ↔
      text.length < cfg.maxOutputBuffer ∧
        (cfg.maxOutputChars ≤ 0 ∨ text.length ≤ cfg.maxOutputChars) := by
  have hclip : clip cfg.maxOutputBuffer (text.take (cfg.maxOutputBuffer - 1)) =
      text.take (cfg.maxOutputBuffer - 1) := by
    rw [clip, List.take_take, Nat.min_self]
  simp only [blockContent, hclip, decide_eq_true_eq]
  split
  · rename_i hcut
    obtain ⟨hpos, hlong⟩ := hcut
    constructor
    · intro h
      have hlen := congrArg List.length h
      rw [List.length_take, List.length_take] at hlen
      rw [List.length_take] at hlong
      omega
    · rintro ⟨hfits, hshort⟩
      rw [List.length_take] at hlong
      omega
  · rename_i hwhole
    rw [List.take_eq_self_iff]
    refine ⟨fun h => ?_, fun h => by omega⟩
    rw [List.length_take] at hwhole
    omega

/-- What a live client and a waiting one find is the same text iff nothing was
streamed before the response and the writer cuts nothing of it. -/
theorem streamed_eq_text_iff {cfg : BlockConfig} (hbuffer : 0 < cfg.maxOutputBuffer)
    {now : Nat} {text body : Bytes} {object : ResponseObject} {e : TurnEnd}
    (houtBuf : e.state.outBuf =
      (clip 4096 (cstr text)).take (cfg.maxOutputBuffer - 1))
    (hsent : e.blockReply cfg now = .response object body) (streamed : Bytes) :
    streamed ++ clip 4096 (cstr text) = object.text ↔
      streamed = [] ∧ ShownWhole cfg text := by
  have hshort := length_clip_lt (show 0 < 4096 by decide) (cstr text)
  have hplain : 0 ∉ clip 4096 (cstr text) :=
    fun h => stop_not_mem_upTo 0 text (List.mem_of_mem_take h)
  unfold ShownWhole
  rw [TurnEnd.blockReply, houtBuf] at hsent
  generalize clip 4096 (cstr text) = kept at *
  have hzero : 0 ∉ kept.take (cfg.maxOutputBuffer - 1) :=
    fun h => hplain (List.mem_of_mem_take h)
  have hfits : (kept.take (cfg.maxOutputBuffer - 1)).length < 65536 := by
    rw [List.length_take]
    omega
  obtain ⟨hleads, hescaped, -⟩ := response_text hzero hfits hsent
  have hcontent := blockContent_eq_iff hbuffer kept (decide (e.outcome = .eventLimit))
  have hinside := (blockContent_leads cfg (kept.take (cfg.maxOutputBuffer - 1))
    (decide (e.outcome = .eventLimit))).trans (List.take_prefix _ _)
  generalize (blockContent cfg (kept.take (cfg.maxOutputBuffer - 1))
    (decide (e.outcome = .eventLimit))).1 = content at *
  rw [← hcontent]
  constructor
  · intro hsame
    have hlen := hleads.length_le
    rw [← hsame, List.length_append] at hlen
    have hle := hinside.length_le
    exact ⟨List.length_eq_zero_iff.mp (by omega),
      hinside.eq_of_length_le (by omega)⟩
  · rintro ⟨rfl, rfl⟩
    have hescapes : Escapes 65536 content := by
      have hesc := length_escapeAll_le content.dropLast
      rw [List.length_dropLast] at hesc
      exact Or.inr (by omega)
    rw [List.nil_append]
    exact (hescaped.mpr hescapes).symm

/-- How a streaming turn ends, and what it has streamed. -/
theorem turnProcessEvents_streamed {env : TurnEnv} {t : TurnState}
    {events : List LoopEvent} {f text model : Bytes} {now : Nat}
    (hrun : turnProcessEvents env (freshTurn (some (openedStream model now))) events =
      .running t) (hf : answeredText env f = some text) :
    ∃ e, turnProcessEvents env (freshTurn (some (openedStream model now)))
        (events ++ [.frame f]) = .ended e ∧
      e.outcome = .completed ∧
      e.state.deltas = streamedText env events ++ clip 4096 (cstr text) := by
  obtain ⟨stream, hstream⟩ := turnProcessEvents_streaming hrun
  obtain ⟨promptTokens, completionTokens, hend⟩ := turnEvent_answered hf t
  have hlast : turnProcessEvents env (freshTurn (some (openedStream model now)))
      (events ++ [.frame f]) = turnEvent env t (.frame f) := by
    rw [turnProcessEvents_append, hrun, Progress.bind_running, run_cons, hend]
    rfl
  have hcount : t.eventCount < 2 ^ 31 := count_of_inLoop (turnProcessEvents_inLoop hrun)
  refine ⟨_, hlast.trans hend, rfl, ?_⟩
  exact responseFrame_deltas (hstream.beat env.fullTimeout) hcount
    (fun h => stop_not_mem_upTo 0 text (List.mem_of_mem_take h))
    (length_clip_lt (by decide) _) promptTokens completionTokens

/-- **Streaming agrees with non-streaming**, exactly.  A turn without compaction
events that a response frame ends shows a live client the text it shows a
waiting one iff no `text_delta` frame of it carried any text and the writer
cuts nothing of the response. -/
theorem streaming_agrees_iff
    (cfg : BlockConfig) (env : TurnEnv) (hbuffer : 2 ≤ cfg.maxOutputBuffer)
    (hout : env.outMax = cfg.maxOutputBuffer) (now : Nat) {t : TurnState}
    {events : List LoopEvent} {f text : Bytes}
    (hplain : ∀ g, .frame g ∈ events → (nativeParseFrame env.parser g).type ≠ .compaction)
    (hrun : turnProcessEvents env (freshTurn (some (openedStream cfg.model now))) events =
      .running t)
    (hf : answeredText env f = some text) :
    ∃ live waiting,
      turnProcessEvents env (freshTurn (some (openedStream cfg.model now)))
        (events ++ [.frame f]) = .ended live ∧ live.outcome = .completed ∧
      turnProcessEvents env (freshTurn none) (events ++ [.frame f]) = .ended waiting ∧
      waiting.outcome = .completed ∧
      ∀ object body, waiting.blockReply cfg now = .response object body →
        (live.state.deltas = object.text ↔
          (∀ e ∈ events, deltaOf env e = []) ∧ ShownWhole cfg text) := by
  obtain ⟨live, hlive, hliveDone, hdeltas⟩ := turnProcessEvents_streamed hrun hf
  obtain ⟨waiting, hwaiting, hwaitingDone, houtBuf⟩ := turnProcessEvents_answered
    (by omega : 0 < env.outMax) (turnProcessEvents_unstreamed hrun) hf
  refine ⟨live, waiting, hlive, hliveDone, hwaiting, hwaitingDone, ?_⟩
  intro object body hsent
  rw [noticesOf_eq_nil hplain, List.nil_append, hout] at houtBuf
  rw [hdeltas, streamed_eq_text_iff (by omega) houtBuf hsent, streamedText,
    List.flatMap_eq_nil_iff]

/-- A response without deltas before it agrees. -/
theorem streaming_agrees_iff_alone :
    ∃ live waiting,
      turnProcessEvents sampleTurnEnv (freshTurn (some (openedStream sampleBlock.model 0)))
        ([] ++ [.frame (answerFrame (lit "hi"))]) = .ended live ∧
      live.outcome = .completed ∧
      turnProcessEvents sampleTurnEnv (freshTurn none)
        ([] ++ [.frame (answerFrame (lit "hi"))]) = .ended waiting ∧
      waiting.outcome = .completed ∧
      ∀ object body, waiting.blockReply sampleBlock 0 = .response object body →
        (live.state.deltas = object.text ↔
          (∀ e ∈ ([] : List LoopEvent), deltaOf sampleTurnEnv e = []) ∧
            ShownWhole sampleBlock (lit "hi")) :=
  streaming_agrees_iff sampleBlock sampleTurnEnv (by decide) rfl 0 (by simp) rfl
    (answeredText_answerFrame sampleTurnEnv (by decide))

/-- A text delta of the turn. -/
def hiDelta : Bytes :=
  lit "\x7b\"type\":\"text_delta\",\"id\":\"req-2\",\"text\":\"hi\"\x7d"

/-- An agent that sends its text as a delta and again as the response is heard
twice by a live client. -/
theorem streaming_repeats_deltas :
    ¬ ∀ cfg env now events f text live waiting object body, 2 ≤ cfg.maxOutputBuffer →
      env.outMax = cfg.maxOutputBuffer →
      (∀ g, .frame g ∈ events → (nativeParseFrame env.parser g).type = .textDelta) →
      answeredText env f = some text →
      turnProcessEvents env (freshTurn (some (openedStream cfg.model now)))
        (events ++ [.frame f]) = .ended live → live.outcome = .completed →
      turnProcessEvents env (freshTurn none) (events ++ [.frame f]) = .ended waiting →
      waiting.outcome = .completed →
      waiting.blockReply cfg now = .response object body →
      live.state.deltas = object.text := by
  intro h
  have hf := answeredText_answerFrame sampleTurnEnv (show 0 ∉ lit "hi" by decide)
  have hdelta : (nativeParseFrame sampleTurnEnv.parser hiDelta).type = .textDelta := by
    decide +kernel
  obtain ⟨t, hrun⟩ : ∃ t, turnProcessEvents sampleTurnEnv
      (freshTurn (some (openedStream sampleBlock.model 0))) [.frame hiDelta] =
        .running t := by
    have hgoes : (turnProcessEvents sampleTurnEnv
        (freshTurn (some (openedStream sampleBlock.model 0))) [.frame hiDelta]).result?.isNone =
        true := by decide +kernel
    cases hrun : turnProcessEvents sampleTurnEnv
        (freshTurn (some (openedStream sampleBlock.model 0))) [.frame hiDelta] with
    | running t => exact ⟨t, rfl⟩
    | ended e =>
        rw [hrun] at hgoes
        cases hgoes
  obtain ⟨live, hlive, hliveDone, hdeltas⟩ := turnProcessEvents_streamed hrun hf
  obtain ⟨waiting, hwaiting, hwaitingDone, houtBuf⟩ := turnProcessEvents_answered
    (by decide : 0 < sampleTurnEnv.outMax) (turnProcessEvents_unstreamed hrun) hf
  rw [noticesOf_eq_nil (by simp [hdelta]), List.nil_append] at houtBuf
  have hzero : 0 ∉ waiting.state.outBuf := by
    rw [houtBuf]
    exact fun hmem => stop_not_mem_upTo 0 (lit "hi")
      (List.mem_of_mem_take (List.mem_of_mem_take hmem))
  have hmodel : CJson.PlainText sampleBlock.model := by decide
  obtain ⟨body, hsent⟩ := response_sent hmodel 0 hzero
    (decide (waiting.outcome = .eventLimit))
  have hsame := h sampleBlock sampleTurnEnv 0 [.frame hiDelta] _ (lit "hi") live waiting _
    body (by decide) rfl (by simp [hdelta]) hf hlive hliveDone hwaiting hwaitingDone hsent
  rw [hdeltas] at hsame
  have hbuffer : 0 < sampleBlock.maxOutputBuffer := by decide
  have hnothing := ((streamed_eq_text_iff hbuffer houtBuf hsent _).mp hsame).1
  revert hnothing
  decide +kernel

end StarBridge
