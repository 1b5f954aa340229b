import StarBridge.StreamAgreement
import StarBridge.TurnBudget

/-!
# What the answer of a turn is made of

The output buffer of a turn is to hold text: the deltas of the agent or its
response, the notices of its compactions, the message of its error, or a message of
the bridge.  The last branch of the event loop takes every frame that the tests in
front of it have not claimed, and copies it into the buffer as it came.

`answer_text_iff` says which frames an agent must not send: those that reach that
branch with something to copy.  What they leave is seen by the client when the turn
ends at its cap or on a `cancelled` frame; any other end writes over it.
-/

namespace StarBridge

open CText Loops

/-! ## The texts of a turn -/

/-- A frame with a foreign id, which is not looked at further. -/
def IsForeign (env : TurnEnv) (frame : Bytes) : Prop :=
  (nativeParseFrame env.parser frame).id ≠ [] ∧ ¬ echoesId env frame

instance (env : TurnEnv) (frame : Bytes) : Decidable (IsForeign env frame) :=
  inferInstanceAs (Decidable (_ ∧ _))

/-- The message the bridge leaves when it ends a turn itself. -/
def TurnOutcome.message : TurnOutcome → Option Bytes
  | .cancelledByClient => some (lit "cancelled")
  | .timeout => some (lit "native agent response timeout")
  | .idMismatch => some (lit "native agent frame id mismatch")
  | .toolCyclesExceeded => some (lit "native agent tool cycle limit exceeded")
  | _ => none

/-- A text that a turn may leave in its output buffer, by the way it ended and the
events it has read: as far as the buffer holds it, notices and what came behind them
as deltas or as the response, the message of an error, or a message of the bridge. -/
inductive AnswerText (env : TurnEnv) : TurnOutcome → List LoopEvent → Bytes → Prop
  | streamed {outcome : TurnOutcome}
      (hend : outcome = .eventLimit ∨ outcome = .cancellationAcknowledged)
      (before after : List LoopEvent) :
      AnswerText env outcome (before ++ after)
        (clip env.outMax (noticesOf env before ++ streamedText env after))
  | answered (before : List LoopEvent) {frame id status text : Bytes} {prompt completion : Int}
      (htype : (nativeParseFrame env.parser frame).type = .response)
      (hframe : (nativeParseFrame env.parser frame).data =
        .response id status text prompt completion) :
      AnswerText env .completed (before ++ [.frame frame])
        (clip env.outMax (noticesOf env before ++ text))
  | failed (before : List LoopEvent) {frame id status message : Bytes}
      (hframe : (nativeParseFrame env.parser frame).data = .error id status message) :
      AnswerText env .agentError (before ++ [.frame frame])
        (clip env.outMax (if message = [] then lit "native agent error" else message))
  | said {outcome : TurnOutcome} {message : Bytes} (hsaid : outcome.message = some message)
      (read : List LoopEvent) : AnswerText env outcome read (clip env.outMax message)

/-! ## Frames that are copied -/

/-- An event that none of the tests of the loop claims. -/
def NativeEvent.unclaimed (ev : NativeEvent) (frame : Bytes) : Bool :=
  match ev.type, ev.data with
  | .textDelta, .response .. => false
  | .compaction, .compaction .. => false
  | .cancelled, _ => false
  | .error, .error .. => false
  | .toolIntent, .toolIntent .. => false
  | .response, .response .. => false
  | .unknown, _ => !(isEventTagged frame || occurs (lit "thinking") (cstr frame))
  | _, _ => true

/-- A frame that the loop copies into the output buffer, and that has something to
copy. -/
def Copied (env : TurnEnv) (frame : Bytes) : Prop :=
  ¬ IsForeign env frame ∧ (nativeParseFrame env.parser frame).unclaimed frame = true ∧
    cstr (clip env.outMax frame) ≠ []

instance (env : TurnEnv) (frame : Bytes) : Decidable (Copied env frame) :=
  inferInstanceAs (Decidable (_ ∧ _ ∧ _))

theorem frameEvent_of_mine {env : TurnEnv} {frame : Bytes} (h : ¬ IsForeign env frame)
    (s : TurnState) :
    frameEvent env s frame =
      dispatchEvent env { s.beat with remainingTimeout := env.fullTimeout } frame
        (nativeParseFrame env.parser frame) := if_neg h

theorem frameEvent_of_foreign_id {env : TurnEnv} {frame : Bytes} (h : IsForeign env frame)
    (s : TurnState) :
    frameEvent env s frame =
      foreignFrame env { s.beat with remainingTimeout := env.fullTimeout }
        (nativeParseFrame env.parser frame) := if_pos h

/-- An event nothing claims is copied. -/
theorem dispatchEvent_unclaimed {frame : Bytes} {ev : NativeEvent}
    (h : ev.unclaimed frame = true) (env : TurnEnv) (s : TurnState) :
    dispatchEvent env s frame ev = .running (rawFrame env s frame) := by
  unfold NativeEvent.unclaimed at h
  unfold dispatchEvent
  split at h
  case h_7 =>
    rename_i htype
    simp only [Bool.not_eq_true', Bool.or_eq_false_iff] at h
    simp [htype, h.1, h.2]
  case h_8 => grind
  all_goals cases h

/-! ## The buffer round by round -/

theorem appendText_clip (maxLen : Nat) (kept text : Bytes) :
    appendText maxLen (clip maxLen kept) text = clip maxLen (kept ++ text) := by
  rcases Nat.eq_zero_or_pos maxLen with rfl | hpos
  · simp [appendText, clip]
  · rw [appendText_eq_take (length_clip_lt hpos kept), clip, clip, List.take_append,
      List.take_append, List.take_take, Nat.min_self, List.length_take]
    congr 2
    omega

theorem prefixed_eq_clip (env : TurnEnv) (s : TurnState) :
    s.prefixed env = clip env.outMax s.eventPrefix := by
  unfold TurnState.prefixed
  split
  · rename_i hnil
    rw [hnil, clip, List.take_nil]
  · have hclip := appendText_clip env.outMax [] s.eventPrefix
    rwa [clip, List.take_nil, List.nil_append] at hclip

/-- The buffer holds texts that have been read, and nothing else. -/
def Texts (env : TurnEnv) (read : List LoopEvent) (out : Bytes) : Prop :=
  ∃ before after, read = before ++ after ∧
    out = clip env.outMax (noticesOf env before ++ streamedText env after)

/-- What holds of the buffer and the notices whenever the loop goes on. -/
structure Streamed (env : TurnEnv) (read : List LoopEvent) (s : TurnState) : Prop where
  notices : s.eventPrefix = noticesOf env read
  texts : Texts env read s.outBuf

theorem Texts.append {env : TurnEnv} {read : List LoopEvent} {out : Bytes}
    (h : Texts env read out) (e : LoopEvent) :
    Texts env (read ++ [e]) (appendText env.outMax out (deltaOf env e)) := by
  obtain ⟨before, after, hread, hout⟩ := h
  refine ⟨before, after ++ [e], ?_, ?_⟩
  · rw [hread, List.append_assoc]
  · have hdeltas : streamedText env (after ++ [e]) = streamedText env after ++ deltaOf env e := by
      simp [streamedText]
    rw [hout, appendText_clip, hdeltas, List.append_assoc]

/-- A round without a delta leaves the buffer as it is. -/
theorem Texts.skip {env : TurnEnv} {read : List LoopEvent} {out : Bytes}
    (h : Texts env read out) {e : LoopEvent} (he : deltaOf env e = []) :
    Texts env (read ++ [e]) out := by
  obtain ⟨before, after, hread, hout⟩ := h
  refine ⟨before, after ++ [e], ?_, ?_⟩
  · rw [hread, List.append_assoc]
  · have hdeltas : streamedText env (after ++ [e]) = streamedText env after := by
      simp [streamedText, he]
    rw [hout, hdeltas]

/-- Notices alone are texts. -/
theorem texts_of_notices {env : TurnEnv} {read : List LoopEvent} {e : LoopEvent}
    (he : deltaOf env e = []) : Texts env (read ++ [e]) (clip env.outMax (noticesOf env read)) := by
  refine ⟨read, [e], rfl, ?_⟩
  have hdeltas : streamedText env [e] = [] := by simp [streamedText, he]
  rw [hdeltas, List.append_nil]

theorem cstr_take_nil {text : Bytes} {k m : Nat} (hk : k ≤ m) (h : cstr (text.take m) = []) :
    cstr (text.take k) = [] := by
  cases text with
  | nil => rw [List.take_nil]; rfl
  | cons c rest =>
      cases k with
      | zero => rfl
      | succ k =>
          obtain ⟨m, rfl⟩ : ∃ n, m = n + 1 := ⟨m - 1, by omega⟩
          by_cases hc : c = 0
          · rw [hc]
            rfl
          · rw [List.take_succ_cons, cstr, upTo_cons hc] at h
            cases h

theorem textDeltaFrame_outBuf (env : TurnEnv) (s : TurnState) (text : Bytes) :
    (textDeltaFrame env s text).outBuf = appendText env.outMax s.outBuf text := by
  unfold textDeltaFrame
  dsimp only
  split
  · rfl
  · obtain ⟨stream, hemit⟩ := emitDelta_keeps
      { s with outBuf := appendText env.outMax s.outBuf text } text
    rw [hemit]
    rfl

/-- A copied frame takes the place of the deltas behind the notices. -/
theorem rawFrame_outBuf {env : TurnEnv} {read : List LoopEvent} {s : TurnState}
    (h : Streamed env read s) (frame : Bytes) :
    (rawFrame env s frame).outBuf =
      clip env.outMax (noticesOf env read) ++
        cstr (frame.take (env.outMax - (clip env.outMax (noticesOf env read)).length - 1)) := by
  have hzero : 0 ∉ clip env.outMax (noticesOf env read) :=
    fun hmem => (noticesOf_fits env read).1 (List.mem_of_mem_take hmem)
  have hkept : s.prefixed env = clip env.outMax (noticesOf env read) := by
    rw [prefixed_eq_clip, h.notices]
  show cstr (s.prefixed env ++ frame.take (env.outMax - (s.prefixed env).length - 1)) = _
  rw [hkept, cstr, upTo_append hzero]
  rfl

/-- What one event does to the buffer, with the events that are read. -/
theorem dispatchEvent_texts {env : TurnEnv} {read : List LoopEvent} {s : TurnState}
    {frame : Bytes} (hmine : ¬ IsForeign env frame) (hcopy : ¬ Copied env frame)
    (h : Streamed env read s) :
    (dispatchEvent env s frame (nativeParseFrame env.parser frame)).Meets
      (fun t => Texts env (read ++ [.frame frame]) t.outBuf)
      fun r => AnswerText env r.outcome (read ++ [.frame frame]) r.state.outBuf := by
  have hdelta : deltaOf env (.frame frame) = (nativeParseFrame env.parser frame).delta :=
    if_neg hmine
  by_cases hraw : (nativeParseFrame env.parser frame).unclaimed frame = true
  · rw [dispatchEvent_unclaimed hraw]
    have hempty : cstr (clip env.outMax frame) = [] := by
      by_contra hne
      exact hcopy ⟨hmine, hraw, hne⟩
    have hnone : deltaOf env (.frame frame) = [] := by
      rw [hdelta, NativeEvent.delta]
      unfold NativeEvent.unclaimed at hraw
      grind
    show Texts env _ (rawFrame env s frame).outBuf
    rw [rawFrame_outBuf h, cstr_take_nil (by omega) hempty, List.append_nil]
    exact texts_of_notices hnone
  · unfold dispatchEvent
    unfold NativeEvent.unclaimed at hraw
    unfold NativeEvent.delta at hdelta
    split
    · -- a delta
      rename_i text _ _ htype hdata
      rw [htype, hdata] at hdelta
      have hnext := h.texts.append (.frame frame)
      rw [hdelta] at hnext
      show Texts env _ (textDeltaFrame env s text).outBuf
      rwa [textDeltaFrame_outBuf]
    · -- a notice
      rename_i htype hdata
      rw [htype, hdata] at hdelta
      exact h.texts.skip hdelta
    · -- the agent has cancelled
      rename_i htype
      rw [htype] at hdelta
      obtain ⟨before, after, hread, hout⟩ := h.texts.skip hdelta
      show AnswerText env .cancellationAcknowledged _ s.outBuf
      rw [hread, hout]
      exact .streamed (Or.inr rfl) before after
    · -- the agent has failed
      rename_i htype hdata
      exact .failed read hdata
    · rename_i toolName toolArgs htype hdata
      rw [htype, hdata] at hdelta
      unfold toolIntentFrame
      dsimp only
      split
      · exact .said rfl _
      · obtain ⟨runs, answer, hanswer, -⟩ := answerTool_keeps env s.countTool toolName toolArgs
        rw [hanswer]
        exact h.texts.skip hdelta
    · -- the response
      rename_i text prompt completion htype hdata
      obtain ⟨stream, metrics, hresponse⟩ := responseFrame_keeps env s text prompt completion
      have hout : (responseFrame env s text prompt completion).outBuf =
          clip env.outMax (noticesOf env read ++ text) := by
        rw [hresponse]
        show appendText env.outMax (s.prefixed env) text = _
        rw [prefixed_eq_clip, appendText_clip, h.notices]
      show AnswerText env .completed _ (responseFrame env s text prompt completion).outBuf
      rw [hout]
      exact .answered read htype hdata
    · rename_i htype
      rw [htype] at hdelta hraw
      simp only [Bool.not_eq_true', Bool.not_eq_false, Bool.or_eq_true] at hraw
      rw [if_pos hraw]
      exact h.texts.skip hdelta
    · grind

/-- The cap ends a turn with the texts in its buffer. -/
theorem settle_texts {env : TurnEnv} {read : List LoopEvent} {t : TurnState}
    (h : Texts env read t.outBuf) :
    (settle env t).Meets (fun t' => Texts env read t'.outBuf)
      fun r => AnswerText env r.outcome read r.state.outBuf := by
  unfold settle
  split
  · exact h
  · obtain ⟨before, after, hread, hout⟩ := h
    show AnswerText env .eventLimit read t.outBuf
    rw [hread, hout]
    exact .streamed (Or.inl rfl) before after

/-- A frame adds its text to the buffer, or ends the turn with one of its texts
there. -/
theorem frameEvent_texts {env : TurnEnv} {read : List LoopEvent} {s : TurnState}
    {frame : Bytes} (hcopy : ¬ Copied env frame) (h : Streamed env read s) :
    (frameEvent env s frame).Meets (fun t => Texts env (read ++ [.frame frame]) t.outBuf)
      fun r => AnswerText env r.outcome (read ++ [.frame frame]) r.state.outBuf := by
  have hbeat : Streamed env read { s.beat with remainingTimeout := env.fullTimeout } :=
    ⟨h.notices, h.texts⟩
  by_cases hforeign : IsForeign env frame
  · rw [frameEvent_of_foreign_id hforeign, foreignFrame]
    split
    · exact h.texts.skip (if_pos hforeign)
    · exact .said rfl _
  · rw [frameEvent_of_mine hforeign]
    exact dispatchEvent_texts hforeign hcopy hbeat

/-- The test at the head of the loop behind a round. -/
theorem round_texts {env : TurnEnv} {read : List LoopEvent}
    {p : Progress TurnState TurnEnd}
    (h : p.Meets (fun t => Texts env read t.outBuf)
      fun r => AnswerText env r.outcome read r.state.outBuf)
    (hnotices : ∀ s', p.bind (settle env) = .running s' → s'.eventPrefix = noticesOf env read) :
    (p.bind (settle env)).Meets (Streamed env read)
      fun r => AnswerText env r.outcome read r.state.outBuf := by
  have hround := h.bind fun t ht => settle_texts ht
  cases hrun : p.bind (settle env) with
  | running s' =>
      rw [hrun] at hround
      exact ⟨hnotices s' hrun, hround⟩
  | ended r =>
      rw [hrun] at hround
      exact hround

/-- **One round.**  Unless it copies a frame, it leaves the buffer made of texts. -/
theorem turnEvent_texts {env : TurnEnv} (read : List LoopEvent) (s : TurnState) (e : LoopEvent)
    (hcopy : ∀ frame, e = .frame frame → ¬ Copied env frame) (h : Streamed env read s) :
    (turnEvent env s e).Meets (Streamed env (read ++ [e]))
      fun r => AnswerText env r.outcome (read ++ [e]) r.state.outBuf := by
  have hnotices : ∀ s', turnEvent env s e = .running s' →
      s'.eventPrefix = noticesOf env (read ++ [e]) := by
    intro s' hrun
    rw [turnEvent_eventPrefix hrun, h.notices]
    simp [noticesOf]
  cases e with
  | control connections =>
      refine round_texts ?_ hnotices
      have hserved : (s.serveControl env connections).outBuf = s.outBuf := by
        unfold TurnState.serveControl
        split <;> rfl
      dsimp only [controlEvent]
      split
      · exact .said rfl _
      · show Texts env _ (s.serveControl env connections).outBuf
        rw [hserved]
        exact h.texts.skip rfl
  | frame text => exact round_texts (frameEvent_texts (hcopy text rfl) h) hnotices
  | idle late =>
      refine round_texts ?_ hnotices
      dsimp only [idleEvent]
      split
      · exact .said rfl _
      · exact h.texts.skip rfl

/-! ## Turns in which frames are copied -/

/-- A round with a copied frame, where there are no notices. -/
theorem turnEvent_copied {env : TurnEnv} {frame : Bytes} (h : Copied env frame)
    {s : TurnState} (hs : s.eventPrefix = []) :
    ∃ t : TurnState, turnEvent env s (.frame frame) = settle env t ∧ t.eventPrefix = [] ∧
      t.eventCount = s.eventCount + 1 ∧ t.outBuf = cstr (clip env.outMax frame) := by
  obtain ⟨hmine, hraw, -⟩ := h
  refine ⟨rawFrame env { s.beat with remainingTimeout := env.fullTimeout } frame, ?_, hs,
    rfl, ?_⟩
  · show (frameEvent env s frame).bind (settle env) = _
    rw [frameEvent_of_mine hmine, dispatchEvent_unclaimed hraw, Progress.bind_running]
  · have hkept : ({ s.beat with remainingTimeout := env.fullTimeout } : TurnState).prefixed env =
        [] := if_pos hs
    show cstr (TurnState.prefixed env _ ++ frame.take (env.outMax - _ - 1)) = _
    rw [hkept]
    rfl

/-- A turn that meets nothing else ends at its cap with the frame in its buffer. -/
theorem run_copied {env : TurnEnv} {frame : Bytes} (h : Copied env frame) (n : Nat)
    {s : TurnState} (hs : s.eventPrefix = [])
    (hcount : (s.eventCount : Int) + (n + 1) = env.maxTurnEvents) :
    ∃ t : TurnState, run (turnEvent env) s (List.replicate (n + 1) (.frame frame)) =
        .ended ⟨.eventLimit, t⟩ ∧ t.outBuf = cstr (clip env.outMax frame) := by
  induction n generalizing s with
  | zero =>
      obtain ⟨t, hround, -, hnext, hout⟩ := turnEvent_copied h hs
      have hcap : ¬ (t.eventCount : Int) < env.maxTurnEvents := by
        push_cast at hcount
        omega
      refine ⟨t.emitMetrics (lit "incomplete") 0 0, ?_, hout⟩
      rw [List.replicate_one, run_cons, hround, settle, if_neg hcap]
      rfl
  | succ n ih =>
      obtain ⟨t, hround, hprefix, hnext, -⟩ := turnEvent_copied h hs
      push_cast at hcount
      obtain ⟨t', hrun, hout⟩ := ih hprefix (by rw [hnext]; push_cast; omega)
      refine ⟨t', ?_, hout⟩
      rw [List.replicate_succ, run_cons, hround, settle, if_pos (by omega), Progress.bind_running]
      exact hrun

/-- A copied frame is neither a delta nor a notice. -/
theorem texts_of_copied {env : TurnEnv} {frame : Bytes} (h : Copied env frame)
    {events : List LoopEvent} (hall : ∀ e ∈ events, e = .frame frame) :
    noticesOf env events = [] ∧ streamedText env events = [] := by
  have hraw := h.2.1
  have hnotice : ∀ notices, noticeOf env notices (.frame frame) = notices := by
    intro notices
    unfold NativeEvent.unclaimed at hraw
    unfold noticeOf NativeEvent.notice
    grind
  have hdelta : deltaOf env (.frame frame) = [] := by
    unfold NativeEvent.unclaimed at hraw
    unfold deltaOf NativeEvent.delta
    grind
  constructor
  · have hfold : ∀ notices, events.foldl (noticeOf env) notices = notices := by
      induction events with
      | nil => exact fun _ => rfl
      | cons e rest ih =>
          rw [List.forall_mem_cons] at hall
          intro notices
          rw [List.foldl_cons, hall.1, hnotice, ih hall.2]
    exact hfold []
  · rw [streamedText, List.flatMap_eq_nil_iff]
    intro e he
    rw [hall e he, hdelta]

/-- Such a turn does not leave a text. -/
theorem not_answerText_of_copied {env : TurnEnv} {frame : Bytes} (h : Copied env frame)
    {read : List LoopEvent} (hall : ∀ e ∈ read, e = .frame frame) :
    ¬ AnswerText env .eventLimit read (cstr (clip env.outMax frame)) := by
  intro htext
  generalize hout : cstr (clip env.outMax frame) = out at htext
  cases htext with
  | streamed hend before after =>
      rw [List.forall_mem_append] at hall
      rw [(texts_of_copied h hall.1).1, (texts_of_copied h hall.2).2] at hout
      exact h.2.2 (hout.trans List.take_nil)
  | said hsaid => cases hsaid

/-- **What answers are made of**, exactly.  Whatever an agent sends of its frames, in
whatever order and however its turn ends, it leaves text in the output buffer iff
none of them is copied, or the cap lets the turn read none. -/
theorem answer_text_iff (env : TurnEnv) (stream : Option ResponsesStreamState)
    (frames : Set Bytes) :
    (∀ events : List LoopEvent, (∀ e ∈ events, Brings frames e) →
        ∀ e, turnProcessEvents env (freshTurn stream) events = .ended e →
          ∃ read, read <+: events ∧ turnProcessEvents env (freshTurn stream) read = .ended e ∧
            AnswerText env e.outcome read e.state.outBuf) ↔
      env.maxTurnEvents ≤ 0 ∨ ∀ frame ∈ frames, ¬ Copied env frame := by
  have hnone : Texts env [] ((freshTurn stream).enter env).outBuf :=
    ⟨[], [], rfl, List.take_nil.symm⟩
  constructor
  · intro htexts
    by_contra hnot
    rw [not_or, not_le] at hnot
    obtain ⟨hpos, hsome⟩ := hnot
    rw [not_forall₂] at hsome
    obtain ⟨frame, hmem, hcopied⟩ := hsome
    rw [not_not] at hcopied
    obtain ⟨n, hn⟩ : ∃ n : Nat, (n : Int) + 1 = env.maxTurnEvents :=
      ⟨(env.maxTurnEvents - 1).toNat, by omega⟩
    have hstart : (((freshTurn stream).enter env).eventCount : Int) + (n + 1) =
        env.maxTurnEvents := by
      show ((0 : Nat) : Int) + (n + 1) = _
      omega
    obtain ⟨t, hrun, hout⟩ := run_copied hcopied n rfl hstart
    have hevents : ∀ e ∈ List.replicate (n + 1) (LoopEvent.frame frame), e = .frame frame :=
      fun e he => List.eq_of_mem_replicate he
    have hsettle : settle env ((freshTurn stream).enter env) =
        .running ((freshTurn stream).enter env) := if_pos hpos
    obtain ⟨read, hread, -, htext⟩ := htexts (List.replicate (n + 1) (.frame frame)) (by
        intro e he frame' hframe
        rw [hevents e he] at hframe
        cases hframe
        exact hmem) ⟨.eventLimit, t⟩ (by
          rw [turnProcessEvents, hsettle, Progress.bind_running]
          exact hrun)
    rw [hout] at htext
    exact not_answerText_of_copied hcopied (fun e he => hevents e (hread.subset he)) htext
  · intro hcond events hevents e hend
    unfold turnProcessEvents at hend
    have hsettled := settle_texts hnone
    cases hsettle : settle env ((freshTurn stream).enter env) with
    | ended r =>
        rw [hsettle] at hend hsettled
        cases hend
        refine ⟨[], List.nil_prefix, ?_, hsettled⟩
        rw [turnProcessEvents, hsettle]
        rfl
    | running s =>
        obtain ⟨rfl, hpos⟩ := settle_eq_running hsettle
        rw [hsettle] at hend
        have hall : ∀ frame ∈ frames, ¬ Copied env frame := by
          rcases hcond with hle | hall
          · exact absurd hpos (not_lt.mpr hle)
          · exact hall
        have hround : ∀ read s e, Brings frames e → Streamed env read s →
            (turnEvent env s e).Meets (Streamed env (read ++ [e])) fun r : TurnEnd =>
              AnswerText env r.outcome (read ++ [e]) r.state.outBuf :=
          fun read s e he => turnEvent_texts read s e fun frame hframe =>
            hall frame (he frame hframe)
        have hstart : Streamed env [] ((freshTurn stream).enter env) := ⟨rfl, hnone⟩
        have hmeets := run_read
          (E := fun read (r : TurnEnd) => AnswerText env r.outcome read r.state.outBuf)
          hround hstart hevents
        rw [Progress.bind_running] at hend
        rw [hend] at hmeets
        obtain ⟨read, hread, hended, htext⟩ := hmeets
        refine ⟨read, hread, ?_, htext⟩
        rw [turnProcessEvents, hsettle]
        exact hended

/-- A frame of a type the bridge does not know. -/
def statusFrame : Bytes := lit "\x7b\"type\":\"status\",\"id\":\"req-2\"\x7d"

/-- A cap of one event is an `int`. -/
theorem one_isInt : (1 : Int) < 2 ^ 31 := by decide

/-- The same bridge with a cap of one event. -/
def oneEventEnv : TurnEnv :=
  { sampleTurnEnv with maxTurnEvents := 1, maxTurnEvents_int := one_isInt }

/-- At the cap the client is handed the frame. -/
theorem answer_text_fails :
    ∃ e, turnProcessEvents oneEventEnv (freshTurn none) [.frame statusFrame] = .ended e ∧
      e.outcome = .eventLimit ∧ e.state.outBuf = statusFrame ∧
      ¬ ∃ read, read <+: [.frame statusFrame] ∧
        AnswerText oneEventEnv e.outcome read e.state.outBuf := by
  have hcopied : Copied oneEventEnv statusFrame := by decide +kernel
  have hout : cstr (clip oneEventEnv.outMax statusFrame) = statusFrame := by decide +kernel
  obtain ⟨t, hrun, houtBuf⟩ :=
    run_copied hcopied 0 (s := (freshTurn none).enter oneEventEnv) rfl (by decide)
  refine ⟨⟨.eventLimit, t⟩, ?_, rfl, houtBuf.trans hout, ?_⟩
  · have hsettle : settle oneEventEnv ((freshTurn none).enter oneEventEnv) =
        .running ((freshTurn none).enter oneEventEnv) := if_pos (by decide)
    rw [turnProcessEvents, hsettle, Progress.bind_running]
    exact hrun
  · rintro ⟨read, hread, htext⟩
    rw [houtBuf] at htext
    refine not_answerText_of_copied hcopied (fun e he => ?_) htext
    exact List.mem_singleton.mp (hread.subset he)

end StarBridge
