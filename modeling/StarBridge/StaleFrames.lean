import StarBridge.TurnAck
import StarBridge.TurnLoop

/-!
# Frames of other turns

A turn that ends early leaves frames of its request unread, and the next turn
meets them.  What becomes of them:

* `ack_behind_stale_frames`: the wait for the acknowledgement gets past at most
  four of them, and only past those that carry the text of an event;
* `foreign_frame_effect`: in the event loop a frame with another id ends the
  turn, unless it is a lifecycle frame, which does no more than restart the
  response timeout.

The second compares two runs, one with the frame and one without.  They are
kept alike up to the heartbeats written to the client and the time left, which
is what `TurnState.Echoes` allows to differ.
-/

namespace StarBridge

open CText Loops

/-! ## Behind stale frames -/

/-- A frame of the kinds an unfinished turn leaves behind. -/
def IsStale (env : TurnEnv) (frame : Bytes) : Prop :=
  (nativeParseFrame env.parser frame).type ∈
    [NativeEventType.textDelta, .toolIntent, .response, .error, .compaction]

instance (env : TurnEnv) (frame : Bytes) : Decidable (IsStale env frame) :=
  inferInstanceAs (Decidable (_ ∈ _))

/-- The agent's acceptance of the turn's request. -/
def IsAcceptance (env : TurnEnv) (frame : Bytes) : Prop :=
  (nativeParseFrame env.parser frame).type = .ack ∧
    (nativeParseFrame env.parser frame).status = lit "accepted" ∧
    echoesId env frame = true

instance (env : TurnEnv) (frame : Bytes) : Decidable (IsAcceptance env frame) :=
  inferInstanceAs (Decidable (_ ∧ _ ∧ _))

/-- A stale frame is skipped when it carries the text of an event, and fails
the wait otherwise. -/
theorem ackVerdict_of_isStale {env : TurnEnv} {frame : Bytes} (h : IsStale env frame) :
    ackVerdict env frame = if isEventTagged frame then none else some .invalid := by
  have hlifecycle : (nativeParseFrame env.parser frame).type.isLifecycle = false := by
    unfold IsStale at h
    generalize (nativeParseFrame env.parser frame).type = type at h
    cases type <;> simp_all [NativeEventType.isLifecycle]
  have hack : (nativeParseFrame env.parser frame).type ≠ .ack := by
    intro heq
    rw [IsStale, heq] at h
    simp at h
  unfold ackVerdict
  by_cases htag : isEventTagged frame = true
  · simp [htag]
  · simp [htag, hlifecycle, hack]

theorem ackVerdict_of_isAcceptance {env : TurnEnv} {frame : Bytes}
    (h : IsAcceptance env frame) :
    ackVerdict env frame = if isEventTagged frame then none else some .accepted := by
  obtain ⟨htype, hstatus, hid⟩ := h
  have hbusy : lit "accepted" ≠ lit "busy" := by decide
  unfold ackVerdict
  by_cases htag : isEventTagged frame = true
  · simp [htag]
  · simp [htag, htype, hstatus, hid, hbusy, NativeEventType.isLifecycle]

/-- The wait with `left` reads left, on stale frames in front of an
acceptance. -/
theorem await_behind_stale {env : TurnEnv} {ack : Bytes} (hack : IsAcceptance env ack)
    {stale : List Bytes} (hstale : ∀ f ∈ stale, IsStale env f) {left : Nat}
    (hleft : 0 < left) :
    (run (ackRead env) left (stale.map some ++ [some ack]) = .ended .accepted ↔
      stale.length < left ∧ (∀ f ∈ stale, isEventTagged f = true) ∧
        isEventTagged ack = false) ∧
    ((∃ f ∈ stale, isEventTagged f = false) ∨ left ≤ stale.length →
      run (ackRead env) left (stale.map some ++ [some ack]) = .ended .invalid ∨
      run (ackRead env) left (stale.map some ++ [some ack]) = .ended .exhausted) := by
  induction stale generalizing left with
  | nil =>
      have hverdict := ackVerdict_of_isAcceptance hack
      refine ⟨?_, fun h => ?_⟩
      · by_cases htag : isEventTagged ack = true
        · rw [if_pos htag] at hverdict
          by_cases hone : left ≤ 1 <;> simp [ackRead_skipped hverdict, htag, hone]
        · rw [if_neg htag] at hverdict
          simp [ackRead_decided hverdict, htag, hleft]
      · rcases h with ⟨f, hf, -⟩ | h
        · cases hf
        · exact absurd hleft (by simpa using h)
  | cons f rest ih =>
      have hf := hstale f (by simp)
      have hrest : ∀ g ∈ rest, IsStale env g := fun g hg => hstale g (by simp [hg])
      have hverdict := ackVerdict_of_isStale hf
      rw [List.map_cons, List.cons_append, run_cons]
      by_cases htag : isEventTagged f = true
      · rw [if_pos htag] at hverdict
        rw [ackRead_skipped hverdict]
        by_cases hone : left ≤ 1
        · -- the last read is spent on this frame
          have hfew : ¬ rest.length + 1 < left := by omega
          simp [hone, hfew]
        · obtain ⟨ihAccepted, ihFailed⟩ := ih hrest (show 0 < left - 1 by omega)
          rw [if_neg hone, Progress.bind_running]
          have hlen : (f :: rest).length < left ↔ rest.length < left - 1 := by
            simp only [List.length_cons]
            omega
          refine ⟨?_, fun h => ihFailed ?_⟩
          · rw [ihAccepted, hlen]
            simp [htag]
          · rcases h with ⟨g, hg, hgtag⟩ | h
            · rcases List.mem_cons.mp hg with rfl | hg
              · exact absurd htag (by simp [hgtag])
              · exact Or.inl ⟨g, hg, hgtag⟩
            · right
              simp only [List.length_cons] at h
              omega
      · rw [if_neg htag] at hverdict
        simp [ackRead_decided hverdict, htag]

/-- **The wait for the acknowledgement and stale frames.**  Behind stale frames
the agent's acceptance is found iff there are at most four of them, each
carries the text of an event, and the acceptance itself does not.  With a fifth
stale frame, or one without that text, the wait fails. -/
theorem ack_behind_stale_frames (env : TurnEnv) (stale : List Bytes) (ack : Bytes)
    (hstale : ∀ f ∈ stale, IsStale env f) (hack : IsAcceptance env ack) :
    (turnAwaitAck env (stale.map some ++ [some ack]) = .ended .accepted ↔
      stale.length ≤ 4 ∧ (∀ f ∈ stale, isEventTagged f = true) ∧
        isEventTagged ack = false) ∧
    ((∃ f ∈ stale, isEventTagged f = false) ∨ 4 < stale.length →
      turnAwaitAck env (stale.map some ++ [some ack]) = .ended .invalid ∨
      turnAwaitAck env (stale.map some ++ [some ack]) = .ended .exhausted) := by
  obtain ⟨haccepted, hfailed⟩ := await_behind_stale hack hstale (show 0 < 5 by decide)
  refine ⟨?_, fun h => hfailed ?_⟩
  · rw [turnAwaitAck, haccepted, Nat.lt_succ_iff]
  · rcases h with h | h
    · exact Or.inl h
    · exact Or.inr h

/-- The acceptance of request 2. -/
def acceptance : Bytes :=
  lit "\x7b\"type\":\"ack\",\"id\":\"req-2\",\"status\":\"accepted\"\x7d"

/-- A text delta of request 1. -/
def leftoverDelta : Bytes :=
  lit "\x7b\"type\":\"text_delta\",\"id\":\"req-1\",\"text\":\"x\"\x7d"

/-- Behind one error frame that carries the text of an event, the acceptance is
found. -/
theorem ack_behind_stale_frames_one :
    let stale := [lit "\x7b\"type\":\"error\",\"of\":\x7b\"type\":\"event\"\x7d\x7d"]
    turnAwaitAck sampleTurnEnv (stale.map some ++ [some acceptance]) =
      .ended .accepted :=
  (ack_behind_stale_frames sampleTurnEnv
    [lit "\x7b\"type\":\"error\",\"of\":\x7b\"type\":\"event\"\x7d\x7d"] acceptance
    (by decide +kernel) (by decide +kernel)).1.mpr (by decide +kernel)

/-- One text delta left over from the turn before fails the wait. -/
theorem ack_fails_behind_leftover_delta :
    ¬ ∀ env (stale : List Bytes) ack, (∀ f ∈ stale, IsStale env f) → IsAcceptance env ack →
      turnAwaitAck env (stale.map some ++ [some ack]) = .ended .accepted := by
  intro h
  have hok := h sampleTurnEnv [leftoverDelta] acceptance (by decide +kernel)
    (by decide +kernel)
  revert hok
  decide +kernel

/-! ## Turns that differ in clock and heartbeats only -/

/-- A stream without the heartbeats in it. -/
def ResponsesStreamState.quiet (s : ResponsesStreamState) : ResponsesStreamState :=
  { s with wire := s.wire.filter (· ≠ .heartbeat) }

@[simp] theorem quiet_beat (s : ResponsesStreamState) : s.beat.quiet = s.quiet := by
  simp [ResponsesStreamState.beat, ResponsesStreamState.quiet]

/-- Heartbeats carry no text. -/
theorem deltas_quiet (s : ResponsesStreamState) : s.quiet.deltas = s.deltas := by
  have hskip : (fun w => if decide (w ≠ SseWrite.heartbeat) = true then deltaText w
      else none) = deltaText := by
    funext w
    cases w <;> simp [deltaText]
  rw [ResponsesStreamState.deltas, ResponsesStreamState.deltas,
    ResponsesStreamState.quiet, List.filterMap_filter, hskip]

/-- Emitting text does not depend on the heartbeats before it. -/
theorem emitTextDelta_quiet (delta : Bytes) (s : ResponsesStreamState) :
    (responsesStreamEmitTextDelta delta s.quiet).map ResponsesStreamState.quiet =
      (responsesStreamEmitTextDelta delta s).map ResponsesStreamState.quiet := by
  have hpart : s.quiet.textPart = s.textPart := rfl
  unfold responsesStreamEmitTextDelta
  rw [hpart]
  cases s.textPart with
  | none => rfl
  | some at_ =>
      simp [ResponsesStreamState.quiet, ResponsesStreamState.send]

/-- `t` is `s` but for the time left and the heartbeats in the stream. -/
def TurnState.Echoes (s t : TurnState) : Prop :=
  t = s.withClient t.remainingTimeout t.stream ∧
    t.stream.map ResponsesStreamState.quiet = s.stream.map ResponsesStreamState.quiet

theorem TurnState.Echoes.step {s t : TurnState} (h : s.Echoes t) {f : TurnState → TurnState}
    (hf : Clockless f) : (f s).Echoes (f t) := by
  obtain ⟨heq, hquiet⟩ := h
  have hft : f t = (f s).withClient t.remainingTimeout t.stream := by
    rw [← hf, ← heq]
  refine ⟨?_, by rwa [(hf.keeps s).2, (hf.keeps t).2]⟩
  rw [hft]
  rfl

theorem TurnState.Echoes.emitDelta {s t : TurnState} (h : s.Echoes t) (delta : Bytes) :
    (s.emitDelta delta).1.Echoes (t.emitDelta delta).1 ∧
      (t.emitDelta delta).2 = (s.emitDelta delta).2 := by
  obtain ⟨heq, hquiet⟩ := h
  unfold TurnState.emitDelta
  cases hs : s.stream with
  | none =>
      rw [hs] at hquiet
      have ht : t.stream = none := by simpa using hquiet
      rw [ht]
      exact ⟨⟨heq, by rw [ht, hs]⟩, rfl⟩
  | some stream =>
      rw [hs] at hquiet
      obtain ⟨stream', ht, hsame⟩ : ∃ x, t.stream = some x ∧ x.quiet = stream.quiet := by
        simpa using hquiet
      have hemit := emitTextDelta_quiet delta stream
      rw [← hsame, emitTextDelta_quiet delta stream'] at hemit
      rw [ht]
      dsimp only
      cases h₁ : responsesStreamEmitTextDelta delta stream with
      | none =>
          have h₂ : responsesStreamEmitTextDelta delta stream' = none := by
            simpa [h₁] using hemit
          rw [h₂]
          exact ⟨⟨heq, by rw [ht, hs]; simpa using hsame⟩, rfl⟩
      | some next =>
          obtain ⟨next', h₂, hnext⟩ : ∃ x,
              responsesStreamEmitTextDelta delta stream' = some x ∧
                x.quiet = next.quiet := by
            simpa [h₁] using hemit
          rw [h₂]
          refine ⟨⟨?_, by simpa using hnext⟩, rfl⟩
          rw [heq]
          rfl

theorem TurnState.Echoes.emitChunks {s t : TurnState} (h : s.Echoes t)
    (pieces : List Bytes) : (s.emitChunks pieces).Echoes (t.emitChunks pieces) := by
  induction pieces generalizing s t with
  | nil => exact h
  | cons chunk rest ih =>
      obtain ⟨hemit, hok⟩ := h.emitDelta chunk
      unfold TurnState.emitChunks
      dsimp only
      rw [hok]
      split
      · exact ih hemit
      · exact hemit

/-! ## Two runs side by side -/

/-- `t` echoes `s` and has no more time left. -/
def Beside (s t : TurnState) : Prop :=
  s.Echoes t ∧ t.remainingTimeout ≤ s.remainingTimeout

/-- Two turns ended the same way. -/
def EchoEnd (a b : TurnEnd) : Prop := b.outcome = a.outcome ∧ a.state.Echoes b.state

/-- The turn ran out of time. -/
def TimedOut (e : TurnEnd) : Prop := e.outcome = .timeout

/-- A clockless step goes on side by side. -/
theorem beside_running {s t : TurnState} (h : s.Echoes t)
    (hclock : t.remainingTimeout = s.remainingTimeout) {f : TurnState → TurnState}
    (hf : Clockless f) :
    Progress.Alike Beside EchoEnd TimedOut (.running (f s)) (.running (f t)) := by
  refine .running ⟨h.step hf, ?_⟩
  rw [(hf.keeps s).1, (hf.keeps t).1, hclock]

/-- A clockless step ends two turns the same way. -/
theorem beside_ended {s t : TurnState} (h : s.Echoes t) (o : TurnOutcome)
    {f : TurnState → TurnState} (hf : Clockless f) :
    Progress.Alike Beside EchoEnd TimedOut (.ended ⟨o, f s⟩) (.ended ⟨o, f t⟩) :=
  .ended ⟨rfl, h.step hf⟩

theorem textDeltaFrame_beside (env : TurnEnv) {s t : TurnState} (h : s.Echoes t)
    (hclock : t.remainingTimeout = s.remainingTimeout) (text : Bytes) :
    Beside (textDeltaFrame env s text) (textDeltaFrame env t text) := by
  have hf : Clockless fun u : TurnState =>
      { u with outBuf := appendText env.outMax u.outBuf text } := fun _ _ _ => rfl
  have happended := h.step hf
  have hkept : ∀ u : TurnState,
      (textDeltaFrame env u text).remainingTimeout = u.remainingTimeout := by
    intro u
    obtain ⟨outBuf, stream, htext⟩ := textDeltaFrame_keeps env u text
    rw [htext]
  refine ⟨?_, by rw [hkept, hkept, hclock]⟩
  unfold textDeltaFrame
  dsimp only
  split
  · exact happended.step (f := TurnState.count) fun _ _ _ => rfl
  · exact (happended.emitDelta text).1.step (f := TurnState.count) fun _ _ _ => rfl

theorem toolIntentFrame_beside (env : TurnEnv) {s t : TurnState} (h : s.Echoes t)
    (hclock : t.remainingTimeout = s.remainingTimeout) (toolName toolArgs : Bytes) :
    Progress.Alike Beside EchoEnd TimedOut (toolIntentFrame env s toolName toolArgs)
      (toolIntentFrame env t toolName toolArgs) := by
  have hf : Clockless TurnState.countTool := fun _ _ _ => rfl
  have hcycles : t.countTool.toolCycles = s.countTool.toolCycles := by
    rw [h.1]
    rfl
  unfold toolIntentFrame
  dsimp only
  rw [hcycles]
  split
  · exact beside_ended (h.step hf) .toolCyclesExceeded (f := fun u => u.say env _)
      fun _ _ _ => rfl
  · exact beside_running (h.step hf) hclock (clockless_answerTool env toolName toolArgs)

theorem responseFrame_echoes (env : TurnEnv) {s t : TurnState} (h : s.Echoes t)
    (text : Bytes) (promptTokens completionTokens : Int) :
    (responseFrame env s text promptTokens completionTokens).Echoes
      (responseFrame env t text promptTokens completionTokens) := by
  have hf : Clockless fun u => u.answer env text := fun _ _ _ => rfl
  have hmetrics : Clockless fun u : TurnState =>
      u.emitMetrics (lit "completed") promptTokens completionTokens := fun _ _ _ => rfl
  have hwritten := h.step hf
  unfold responseFrame
  dsimp only
  split
  · exact hwritten.step hmetrics
  · exact (hwritten.emitChunks _).step hmetrics

/-- What an event does, it does to both of two turns with the same clock. -/
theorem dispatchEvent_beside (env : TurnEnv) {s t : TurnState} (h : s.Echoes t)
    (hclock : t.remainingTimeout = s.remainingTimeout) (frame : Bytes)
    (ev : NativeEvent) :
    Progress.Alike Beside EchoEnd TimedOut (dispatchEvent env s frame ev)
      (dispatchEvent env t frame ev) := by
  have hraw : Clockless fun u => rawFrame env u frame := fun _ _ _ => rfl
  unfold dispatchEvent
  split
  · exact .running (textDeltaFrame_beside env h hclock _)
  · exact beside_running h hclock (f := fun u => compactionFrame u _) fun _ _ _ => rfl
  · exact beside_ended h _ (f := id) fun _ _ _ => rfl
  · exact beside_ended h _ (f := fun u => errorFrame env u _) fun _ _ _ => rfl
  · exact toolIntentFrame_beside env h hclock _ _
  · exact .ended ⟨rfl, responseFrame_echoes env h _ _ _⟩
  · split
    · exact beside_running h hclock (f := TurnState.count) fun _ _ _ => rfl
    · exact beside_running h hclock hraw
  · exact beside_running h hclock hraw

/-- Heartbeats and a new clock keep the echo. -/
theorem TurnState.Echoes.beat {s t : TurnState} (h : s.Echoes t) (r r' : Int) :
    TurnState.Echoes { s.beat with remainingTimeout := r }
      { t.beat with remainingTimeout := r' } := by
  obtain ⟨heq, hquiet⟩ := h
  refine ⟨?_, ?_⟩
  · rw [heq]
    rfl
  · have hbeat : ∀ x : Option ResponsesStreamState,
        (x.map ResponsesStreamState.beat).map ResponsesStreamState.quiet =
          x.map ResponsesStreamState.quiet := by
      intro x
      cases x <;> simp
    simp only [TurnState.beat, hbeat, hquiet]

theorem TurnState.Echoes.engine {s t : TurnState} (h : s.Echoes t) :
    t.engine = s.engine := by
  rw [h.1]
  rfl

theorem controlEvent_beside (env : TurnEnv) {s t : TurnState} (h : Beside s t)
    (connections : List Bytes) :
    Progress.Alike Beside EchoEnd TimedOut (controlEvent env s connections)
      (controlEvent env t connections) := by
  have hserve := clockless_serveControl env connections
  have hserved := h.1.step hserve
  unfold controlEvent
  dsimp only
  rw [hserved.engine]
  split
  · exact beside_ended hserved _
      (f := fun u => (u.say env _).emitMetrics _ 0 0) fun _ _ _ => rfl
  · refine .running ⟨hserved, ?_⟩
    rw [(hserve.keeps s).1, (hserve.keeps t).1]
    exact h.2

/-- The less time was left, the less is left after a read. -/
theorem remaining_mono (env : TurnEnv) {r r' : Int} (h : r' ≤ r) :
    r' - env.pollMs r' ≤ r - env.pollMs r := by
  unfold TurnEnv.pollMs
  dsimp only
  cases env.controlPlane with
  | true =>
      simp only [true_and]
      split_ifs <;> omega
  | false =>
      simp only [Bool.false_eq_true, false_and, if_false]
      split_ifs <;> omega

theorem idleEvent_beside (env : TurnEnv) {s t : TurnState} (h : Beside s t)
    (late : List Bytes) :
    Progress.Alike Beside EchoEnd TimedOut (idleEvent env s late)
      (idleEvent env t late) := by
  have hmono := remaining_mono env h.2
  have hbeat := h.1.beat (s.remainingTimeout - env.pollMs s.remainingTimeout)
    (t.remainingTimeout - env.pollMs t.remainingTimeout)
  unfold idleEvent
  dsimp only
  by_cases ht : t.remainingTimeout - env.pollMs t.remainingTimeout ≤ 0
  · rw [if_pos ht]
    split
    · have hend : Clockless fun u =>
          let u := (u.serveControl env late).say env (lit "native agent response timeout")
          let engine := u.engine.sendError env (lit "handshake_timeout")
            (lit "native agent response timeout")
          { u with engine }.emitMetrics (lit "timeout") 0 0 := by
        intro u remaining stream
        dsimp only
        rw [clockless_serveControl env late u remaining stream]
        rfl
      exact beside_ended hbeat .timeout hend
    · -- only the turn with less time left has run out of it
      exact .excused rfl
  · rw [if_neg ht, if_neg (show ¬ _ ≤ (0 : Int) by omega)]
    exact .running ⟨hbeat, hmono⟩

theorem frameEvent_beside (env : TurnEnv) {s t : TurnState} (h : s.Echoes t)
    (frame : Bytes) :
    Progress.Alike Beside EchoEnd TimedOut (frameEvent env s frame)
      (frameEvent env t frame) := by
  have hbeat := h.beat env.fullTimeout env.fullTimeout
  unfold frameEvent
  dsimp only
  split
  · unfold foreignFrame
    dsimp only
    split
    · exact .running ⟨hbeat, le_refl _⟩
    · have hend : Clockless fun u =>
          let u := u.say env (lit "native agent frame id mismatch")
          let engine := u.engine.sendError env (lit "request_id_mismatch")
            (lit "frame id does not match request id")
          { u with engine } := fun _ _ _ => rfl
      exact beside_ended hbeat .idMismatch hend
  · exact dispatchEvent_beside env hbeat rfl frame _

theorem settle_beside (env : TurnEnv) {s t : TurnState} (h : Beside s t) :
    Progress.Alike Beside EchoEnd TimedOut (settle env s) (settle env t) := by
  have hcount : t.eventCount = s.eventCount := by
    rw [h.1.1]
    rfl
  unfold settle
  rw [hcount]
  split
  · exact .running h
  · exact beside_ended h.1 .eventLimit
      (f := fun u => u.emitMetrics (lit "incomplete") 0 0) fun _ _ _ => rfl

/-- One round of the loop keeps two turns side by side. -/
theorem turnEvent_beside (env : TurnEnv) {s t : TurnState} (h : Beside s t)
    (e : LoopEvent) :
    Progress.Alike Beside EchoEnd TimedOut (turnEvent env s e) (turnEvent env t e) := by
  unfold turnEvent
  refine Progress.Alike.bind ?_ fun _ _ => settle_beside env
  cases e with
  | control connections => exact controlEvent_beside env h connections
  | frame text => exact frameEvent_beside env h.1 text
  | idle late => exact idleEvent_beside env h late

/-! ## Frames with another id -/

/-- `t` has done what `s` has: the same answer so far, the same text deltas,
the same tools run, and the same frames sent by the same engine. -/
def SameWork (s t : TurnState) : Prop :=
  t.outBuf = s.outBuf ∧ t.deltas = s.deltas ∧ t.toolRuns = s.toolRuns ∧
    t.engine = s.engine

/-- Two turns ended the same way after the same work. -/
def SameEnd (a b : TurnEnd) : Prop := b.outcome = a.outcome ∧ SameWork a.state b.state

theorem TurnState.Echoes.sameWork {s t : TurnState} (h : s.Echoes t) : SameWork s t := by
  obtain ⟨heq, hquiet⟩ := h
  refine ⟨by rw [heq]; rfl, ?_, by rw [heq]; rfl, by rw [heq]; rfl⟩
  have hdeltas : ∀ u : TurnState, u.deltas =
      ((u.stream.map ResponsesStreamState.quiet).map ResponsesStreamState.deltas).getD [] := by
    intro u
    unfold TurnState.deltas
    cases u.stream with
    | none => rfl
    | some stream => simp [deltas_quiet]
  rw [hdeltas t, hquiet, ← hdeltas s]

/-- A foreign lifecycle frame does no more than restore the response
timeout. -/
theorem turnEvent_foreign_lifecycle {env : TurnEnv} {s : TurnState} (hs : InLoop env s)
    {f : Bytes} (hid : (nativeParseFrame env.parser f).id ≠ [])
    (hno : echoesId env f = false)
    (hlife : (nativeParseFrame env.parser f).type.isLifecycle = true) :
    turnEvent env s (.frame f) =
      .running { s.beat with remainingTimeout := env.fullTimeout } := by
  have hcount := hs.counted
  simp [turnEvent, frameEvent, hid, hno, foreignFrame, hlife, settle, hcount,
    TurnState.beat]

/-- Any other foreign frame ends the turn. -/
theorem turnEvent_foreign {env : TurnEnv} {s : TurnState} {f : Bytes}
    (hid : (nativeParseFrame env.parser f).id ≠ []) (hno : echoesId env f = false)
    (hlife : (nativeParseFrame env.parser f).type.isLifecycle = false) :
    turnEvent env s (.frame f) = .ended ⟨.idMismatch,
      { s.beat with
        remainingTimeout := env.fullTimeout
        outBuf := clip env.outMax (lit "native agent frame id mismatch")
        engine := s.engine.sendError env (lit "request_id_mismatch")
          (lit "frame id does not match request id") }⟩ := by
  simp [turnEvent, frameEvent, hid, hno, foreignFrame, hlife, TurnState.say,
    TurnState.beat]

/-- The wait for the acknowledgement with one read more to spend. -/
theorem ackRead_alike (env : TurnEnv) {left left' : Nat} (h : left' < left)
    (read : Option Bytes) :
    Progress.Alike (fun l l' => l' < l) Eq (· = AckEnd.exhausted)
      (ackRead env left read) (ackRead env left' read) := by
  cases read with
  | none => exact .ended rfl
  | some ack =>
      cases hverdict : ackVerdict env ack with
      | some e =>
          rw [ackRead_decided hverdict, ackRead_decided hverdict]
          exact .ended rfl
      | none =>
          rw [ackRead_skipped hverdict, ackRead_skipped hverdict]
          by_cases hlast : left' ≤ 1
          · rw [if_pos hlast]
            exact .excused rfl
          · rw [if_neg hlast, if_neg (show ¬ left ≤ 1 by omega)]
            exact .running (by omega)

/-- **What a frame with another id does.**  In the event loop, a lifecycle
frame does nothing but restore the response timeout: without it the turn does
the same work and ends the same way, or runs out of time.  Any other frame ends
the turn with an error, after the work done so far.  In the wait for the
acknowledgement, lifecycle frames and frames with the text of an event cost one
of five reads and nothing else, and any other frame fails the wait. -/
theorem foreign_frame_effect (env : TurnEnv) (f : Bytes)
    (hid : (nativeParseFrame env.parser f).id ≠ []) (hno : echoesId env f = false) :
    (∀ (s : TurnState) (before later : List LoopEvent),
      ((nativeParseFrame env.parser f).type.isLifecycle = true →
        Progress.Alike SameWork SameEnd TimedOut
          (turnProcessEvents env s (before ++ .frame f :: later))
          (turnProcessEvents env s (before ++ later))) ∧
      ((nativeParseFrame env.parser f).type.isLifecycle = false →
        ∀ t, turnProcessEvents env s before = .running t →
          ∃ e, turnProcessEvents env s (before ++ .frame f :: later) = .ended e ∧
            e.outcome = .idMismatch ∧
            e.state.outBuf = clip env.outMax (lit "native agent frame id mismatch") ∧
            e.state.deltas = t.deltas ∧ e.state.toolRuns = t.toolRuns ∧
            e.state.engine = t.engine.sendError env (lit "request_id_mismatch")
              (lit "frame id does not match request id"))) ∧
    (∀ before later : List (Option Bytes),
      ((nativeParseFrame env.parser f).type.isLifecycle = true ∨
          isEventTagged f = true →
        Progress.Alike (fun _ _ => True) Eq (· = AckEnd.exhausted)
          (turnAwaitAck env (before ++ later))
          (turnAwaitAck env (before ++ some f :: later))) ∧
      ((nativeParseFrame env.parser f).type.isLifecycle = false →
        isEventTagged f = false →
          ∀ left, turnAwaitAck env before = .running left →
            turnAwaitAck env (before ++ some f :: later) = .ended .invalid)) := by
  refine ⟨fun s before later => ⟨fun hlife => ?_, fun hlife t ht => ?_⟩,
    fun before later => ⟨fun hskip => ?_, fun hlife htag left hleft => ?_⟩⟩
  · rw [turnProcessEvents_append, turnProcessEvents_append]
    cases hbefore : turnProcessEvents env s before with
    | ended e =>
        exact .ended ⟨rfl, rfl, rfl, rfl, rfl⟩
    | running t =>
        have hloop := turnProcessEvents_inLoop hbefore
        rw [Progress.bind_running, Progress.bind_running, run_cons,
          turnEvent_foreign_lifecycle hloop hid hno hlife, Progress.bind_running]
        have hbeside : Beside { t.beat with remainingTimeout := env.fullTimeout } t := by
          refine ⟨⟨rfl, ?_⟩, hloop.le_full⟩
          cases hstream : t.stream with
          | none => simp [TurnState.beat, hstream]
          | some stream => simp [TurnState.beat, hstream]
        refine (run_alike (fun u v e h => turnEvent_beside env h e) hbeside later).mono ?_ ?_
        · exact fun u v h => h.1.sameWork
        · exact fun a b h => ⟨h.1, h.2.sameWork⟩
  · rw [turnProcessEvents_append, ht, Progress.bind_running, run_cons,
      turnEvent_foreign hid hno hlife]
    refine ⟨_, rfl, rfl, rfl, ?_, rfl, rfl⟩
    unfold TurnState.deltas TurnState.beat
    cases t.stream with
    | none => rfl
    | some stream => exact deltas_beat stream
  · have hverdict := (ackVerdict_eq_none_iff env f).mpr hskip
    unfold turnAwaitAck
    rw [run_append, run_append]
    cases hbefore : run (ackRead env) 5 before with
    | ended e => exact .ended rfl
    | running left =>
        rw [Progress.bind_running, Progress.bind_running, run_cons,
          ackRead_skipped hverdict]
        by_cases hlast : left ≤ 1
        · rw [if_pos hlast]
          exact .excused rfl
        · rw [if_neg hlast, Progress.bind_running]
          have hless : left - 1 < left := by omega
          exact (run_alike (fun l l' read h => ackRead_alike env h read) hless later).mono
            (fun _ _ _ => trivial) fun _ _ h => h
  · have hverdict : ackVerdict env f = some .invalid := by
      simp [ackVerdict, hlife, htag, hno]
    unfold turnAwaitAck at hleft ⊢
    rw [run_append, hleft, Progress.bind_running, run_cons, ackRead_decided hverdict]
    rfl

/-- A pong of the heartbeat in front of the response changes nothing. -/
theorem foreign_frame_effect_pong :
    let pong := lit "\x7b\"type\":\"pong\",\"id\":\"hb-7\"\x7d"
    let response := lit "\x7b\"type\":\"response\",\"id\":\"req-2\",\"text\":\"ok\"\x7d"
    Progress.Alike SameWork SameEnd TimedOut
      (turnProcessEvents sampleTurnEnv (freshTurn none) [.frame pong, .frame response])
      (turnProcessEvents sampleTurnEnv (freshTurn none) [.frame response]) :=
  ((foreign_frame_effect sampleTurnEnv (lit "\x7b\"type\":\"pong\",\"id\":\"hb-7\"\x7d")
    (by decide +kernel) (by decide +kernel)).1 (freshTurn none) []
      [.frame (lit "\x7b\"type\":\"response\",\"id\":\"req-2\",\"text\":\"ok\"\x7d")]).1
    (by decide +kernel)

/-- A text delta of the turn before ends the turn that reads it. -/
theorem foreign_frames_matter :
    ¬ ∀ env s before f later, (nativeParseFrame env.parser f).id ≠ [] →
      (nativeParseFrame env.parser f).id ≠ env.requestId →
      Progress.Alike SameWork SameEnd (fun _ => False)
        (turnProcessEvents env s (before ++ .frame f :: later))
        (turnProcessEvents env s (before ++ later)) := by
  intro h
  have halike := h sampleTurnEnv (freshTurn none) [] leftoverDelta
    [.frame (lit "\x7b\"type\":\"response\",\"id\":\"req-2\",\"text\":\"ok\"\x7d")]
    (by decide +kernel) (by decide +kernel)
  have houtcome : ∀ {a b : Option TurnEnd}, Option.Rel SameEnd a b →
      b.map TurnEnd.outcome = a.map TurnEnd.outcome := by
    intro a b hab
    cases hab with
    | none => rfl
    | some hend => exact congrArg some hend.1
  have hboth := houtcome halike.result
  revert hboth
  decide +kernel

end StarBridge
