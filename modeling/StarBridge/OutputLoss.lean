import StarBridge.IndexFile
import StarBridge.ResponseBlock
import StarBridge.TurnLoop

/-!
# From the agent's response to the client's

The text of a native `response` frame ends up in the answer to a non-streaming
request, behind the compaction notices of its turn.  It passes the event's text
buffer of 4096 bytes, the output buffer, the writer's content buffer, the text
item and the escape buffer.  Only the output buffer and the limit on characters
report what they cut: `output_loss_reported_iff` says exactly when nothing is
lost without a word.
-/

namespace StarBridge

open CText Loops

/-! ## What the agent sent -/

/-- The string a member holds, as decoded. -/
def decodedString (obj : CJson) (field : Bytes) : Bytes :=
  match CJson.getObjectItem obj field with
  | some (.string value) => value
  | _ => []

/-- The text of a response: its `text`, or its `output` when there is none. -/
def responseText (obj : CJson) : Bytes :=
  if cstr (decodedString obj (lit "text")) ≠ [] then decodedString obj (lit "text")
  else decodedString obj (lit "output")

/-- The text of a frame that ends the turn as its response: a `response`
without a `tool_intent`, with the id of the turn or none. -/
def answeredText (env : TurnEnv) (frame : Bytes) : Option Bytes :=
  match CJson.parse frame with
  | none => none
  | some obj =>
      if CJson.getString obj (lit "type") [] 64 = lit "response" ∧
          CJson.getObjectItem obj (lit "tool_intent") = none ∧
          (CJson.getString obj (lit "id") [] 64 = [] ∨ echoesId env frame = true) then
        some (responseText obj)
      else none

/-- The compaction notices with what one event adds to them. -/
def NativeEvent.notice (ev : NativeEvent) (notices : Bytes) : Bytes :=
  match ev.type, ev.data with
  | .compaction, .compaction _ message =>
      appendCompactionNotice notices (if message = [] then defaultNotice else message)
  | _, _ => notices

/-- The compaction notices with what one round of the loop adds to them: a frame
counts unless its id is another turn's. -/
def noticeOf (env : TurnEnv) (notices : Bytes) : LoopEvent → Bytes
  | .frame text =>
      let ev := nativeParseFrame env.parser text
      if ev.id ≠ [] ∧ ¬ echoesId env text then notices else ev.notice notices
  | _ => notices

/-- The compaction notices of a turn. -/
def noticesOf (env : TurnEnv) (events : List LoopEvent) : Bytes :=
  events.foldl (noticeOf env) []

/-! ## Into the output buffer -/

theorem getString_eq_decoded (obj : CJson) (field : Bytes) (maxLen : Nat) :
    CJson.getString obj field [] maxLen = clip maxLen (cstr (decodedString obj field)) := by
  unfold CJson.getString CJson.stringField decodedString
  cases CJson.getObjectItem obj field with
  | none => simp [cstr, upTo]
  | some item => cases item <;> simp [cstr, upTo]

theorem clip_eq_nil_iff {size : Nat} (hsize : 1 < size) (text : Bytes) :
    clip size text = [] ↔ text = [] := by
  rw [clip, List.take_eq_nil_iff]
  refine ⟨fun h => ?_, fun h => Or.inr h⟩
  rcases h with h | h
  · omega
  · exact h

/-- The event holds the first 4095 bytes of the text, up to a terminator in
it. -/
theorem firstString_responseText (obj : CJson) :
    firstString obj 4096 [lit "text", lit "output"] =
      clip 4096 (cstr (responseText obj)) := by
  have hclip := clip_eq_nil_iff (show 1 < 4096 by decide)
  simp only [firstString, getString_eq_decoded, responseText]
  by_cases htext : cstr (decodedString obj (lit "text")) = []
  · rw [if_pos ((hclip _).mpr htext), if_neg (not_not_intro htext)]
    split
    · rename_i hnil
      exact hnil.symm
    · rfl
  · rw [if_neg (fun h => htext ((hclip _).mp h)), if_pos htext]

/-- Text appended behind text that fits is cut where the buffer ends. -/
theorem appendText_eq_take {maxLen : Nat} {kept : Bytes} (h : kept.length < maxLen)
    (text : Bytes) : appendText maxLen kept text = (kept ++ text).take (maxLen - 1) := by
  have hkept : kept.take (maxLen - 1) = kept := List.take_of_length_le (by omega)
  rw [appendText, if_neg (show ¬ maxLen ≤ kept.length by omega), List.take_append, hkept]
  congr 2
  omega

theorem prefixed_eq {env : TurnEnv} (hmax : 0 < env.outMax) (s : TurnState) :
    s.prefixed env = s.eventPrefix.take (env.outMax - 1) := by
  unfold TurnState.prefixed
  by_cases h : s.eventPrefix = []
  · simp [h]
  · rw [if_neg h, appendText_eq_take (by simpa using hmax), List.nil_append]

/-- The output buffer after a response: notices and text, as far as they fit. -/
theorem answer_outBuf {env : TurnEnv} (hmax : 0 < env.outMax) (s : TurnState)
    (text : Bytes) :
    (s.answer env text).outBuf = (s.eventPrefix ++ text).take (env.outMax - 1) := by
  have hlen : (s.prefixed env).length < env.outMax := by
    rw [prefixed_eq hmax, List.length_take]
    omega
  have houtBuf : (s.answer env text).outBuf =
      appendText env.outMax (s.prefixed env) text := rfl
  rw [houtBuf, appendText_eq_take hlen, prefixed_eq hmax, List.take_append,
    List.take_append, List.take_take, Nat.min_self, List.length_take]
  congr 2
  omega

theorem responseFrame_outBuf {env : TurnEnv} (hmax : 0 < env.outMax) (s : TurnState)
    (text : Bytes) (promptTokens completionTokens : Int) :
    (responseFrame env s text promptTokens completionTokens).outBuf =
      (s.eventPrefix ++ text).take (env.outMax - 1) := by
  obtain ⟨stream, metrics, hresponse⟩ :=
    responseFrame_keeps env s text promptTokens completionTokens
  rw [hresponse]
  exact answer_outBuf hmax ..

/-- **The response ends the turn.**  The output buffer then holds the notices
and what the event kept of the text, as far as they fit. -/
theorem turnEvent_answered {env : TurnEnv} {f text : Bytes}
    (hf : answeredText env f = some text) (s : TurnState) :
    ∃ promptTokens completionTokens,
      turnEvent env s (.frame f) = .ended ⟨.completed,
        responseFrame env { s.beat with remainingTimeout := env.fullTimeout }
          (clip 4096 (cstr text)) promptTokens completionTokens⟩ := by
  unfold answeredText at hf
  split at hf
  · cases hf
  rename_i obj hobj
  split at hf
  · rename_i hconds
    cases hf
    obtain ⟨htype, hintent, hid⟩ := hconds
    have hne : CJson.getString obj (lit "type") [] 64 ≠ [] := by
      rw [htype]
      decide
    have hresponse : nativeEventTypeFromString (lit "response") = .response := by decide
    have hev : nativeParseFrame env.parser f = parseResponse env.parser obj (lit "response")
        (CJson.getString obj (lit "id") [] 64) := by
      rw [nativeParseFrame, hobj]
      dsimp only
      rw [if_neg hne, htype, eventOf, hresponse]
    have hmine : ¬ (CJson.getString obj (lit "id") [] 64 ≠ [] ∧ ¬ echoesId env f = true) := by
      rintro ⟨hidne, hno⟩
      exact hid.elim hidne hno
    rw [parseResponse, hintent, firstString_responseText] at hev
    dsimp only at hev
    refine ⟨CJson.getInt env.parser.numberToInt obj (lit "prompt_tokens"),
      CJson.getInt env.parser.numberToInt obj (lit "completion_tokens"), ?_⟩
    simp only [turnEvent, frameEvent, hev, if_neg hmine, dispatchEvent]
    rfl
  · cases hf

/-! ## The notices -/

/-- Only a compaction event adds to the notices. -/
theorem dispatchEvent_eventPrefix {env : TurnEnv} {s s' : TurnState} {frame : Bytes}
    {ev : NativeEvent} (h : dispatchEvent env s frame ev = .running s') :
    s'.eventPrefix = ev.notice s.eventPrefix := by
  unfold dispatchEvent at h
  split at h
  · rename_i text _ _ htype _
    cases h
    simp only [NativeEvent.notice, htype]
    obtain ⟨outBuf, stream, htext⟩ := textDeltaFrame_keeps env s text
    rw [htext]
  · rename_i htype hdata
    cases h
    simp only [NativeEvent.notice, htype, hdata]
    rfl
  · cases h
  · cases h
  · rename_i toolName toolArgs htype hdata
    simp only [NativeEvent.notice, htype]
    unfold toolIntentFrame at h
    dsimp only at h
    split at h
    · cases h
    · cases h
      obtain ⟨runs, answer, hanswer, -⟩ := answerTool_keeps env s.countTool toolName toolArgs
      rw [hanswer]
      rfl
  · cases h
  · rename_i htype
    simp only [NativeEvent.notice, htype]
    split at h
    · cases h
      rfl
    · cases h
      rfl
  · rename_i hnotice _ _ _
    cases h
    unfold NativeEvent.notice
    split
    · rename_i htype hdata
      exact (hnotice _ _ htype hdata).elim
    · rfl

/-- The notices after one round of the loop. -/
theorem turnEvent_eventPrefix {env : TurnEnv} {s s' : TurnState} {e : LoopEvent}
    (h : turnEvent env s e = .running s') :
    s'.eventPrefix = noticeOf env s.eventPrefix e := by
  obtain ⟨t, hevent, hsettle⟩ := Progress.bind_eq_running h
  obtain ⟨rfl, -⟩ := settle_eq_running hsettle
  cases e with
  | frame text =>
      dsimp only [frameEvent] at hevent
      dsimp only [noticeOf]
      split at hevent
      · rename_i hforeign
        rw [if_pos hforeign]
        unfold foreignFrame at hevent
        split at hevent
        · cases hevent
          rfl
        · cases hevent
      · rename_i hmine
        rw [if_neg hmine, dispatchEvent_eventPrefix hevent]
        rfl
  | control connections =>
      dsimp only [controlEvent] at hevent
      split at hevent
      · cases hevent
      · cases hevent
        unfold TurnState.serveControl
        split <;> rfl
  | idle late =>
      dsimp only [idleEvent] at hevent
      split at hevent
      · cases hevent
      · cases hevent
        rfl

/-- The notices after a stretch of a turn are those of its frames. -/
theorem run_eventPrefix {env : TurnEnv} {s s' : TurnState} {events : List LoopEvent}
    (h : run (turnEvent env) s events = .running s') :
    s'.eventPrefix = events.foldl (noticeOf env) s.eventPrefix := by
  induction events generalizing s with
  | nil =>
      cases h
      rfl
  | cons e rest ih =>
      obtain ⟨t, hevent, hrest⟩ := Progress.bind_eq_running h
      rw [ih hrest, List.foldl_cons, turnEvent_eventPrefix hevent]

theorem turnProcessEvents_eventPrefix {env : TurnEnv} {s s' : TurnState}
    {events : List LoopEvent} (h : turnProcessEvents env s events = .running s') :
    s'.eventPrefix = noticesOf env events := by
  obtain ⟨t, hsettle, hrun⟩ := Progress.bind_eq_running h
  obtain ⟨rfl, -⟩ := settle_eq_running hsettle
  exact run_eventPrefix hrun

/-- A C string that fits the 8192 bytes the notices are kept in. -/
def FitsNotices (notices : Bytes) : Prop := 0 ∉ notices ∧ notices.length < 8192

theorem FitsNotices.append {kept text : Bytes} (h : FitsNotices kept) (htext : 0 ∉ text) :
    FitsNotices (appendText 8192 kept text) := by
  refine ⟨?_, ?_⟩
  · rw [appendText, if_neg (not_le.mpr h.2), List.mem_append]
    rintro (hmem | hmem)
    · exact h.1 hmem
    · exact htext (List.mem_of_mem_take hmem)
  · rw [appendText_eq_take h.2, List.length_take]
    omega

theorem zero_not_mem_orDefault {message : Bytes} (h : 0 ∉ message) :
    0 ∉ (if message = [] then defaultNotice else message) := by
  split
  · decide
  · exact h

theorem FitsNotices.notice {notices : Bytes} (h : FitsNotices notices) {message : Bytes}
    (hmessage : 0 ∉ message) : FitsNotices (appendCompactionNotice notices message) :=
  ((h.append (by decide)).append (zero_not_mem_orDefault hmessage)).append (by decide)

/-- The message of a compaction event is a C string. -/
theorem zero_not_mem_message (env : ParserEnv) (frame : Bytes) {type message : Bytes}
    (h : (nativeParseFrame env frame).data = .compaction type message) : 0 ∉ message := by
  obtain ⟨obj, typeStr, hevent⟩ := nativeParseFrame_data (by rw [h]; exact NativeEventData.noConfusion)
  rw [hevent] at h
  unfold eventOf parseResponse at h
  dsimp only at h
  repeat' split at h
  all_goals first
    | cases h
      exact zero_not_mem_firstString obj 512 _
    | cases h

theorem noticeOf_fits (env : TurnEnv) {notices : Bytes} (h : FitsNotices notices)
    (e : LoopEvent) : FitsNotices (noticeOf env notices e) := by
  cases e with
  | frame text =>
      dsimp only [noticeOf]
      split
      · exact h
      unfold NativeEvent.notice
      split
      · rename_i hdata
        exact h.notice (zero_not_mem_orDefault (zero_not_mem_message env.parser text hdata))
      · exact h
  | control connections => exact h
  | idle late => exact h

/-- What a turn keeps of its notices is a C string of at most 8191 bytes. -/
theorem noticesOf_fits (env : TurnEnv) (events : List LoopEvent) :
    FitsNotices (noticesOf env events) := by
  have hfold : ∀ notices, FitsNotices notices →
      FitsNotices (events.foldl (noticeOf env) notices) := by
    induction events with
    | nil => exact fun notices h => h
    | cons e rest ih => exact fun notices h => ih _ (noticeOf_fits env h e)
  exact hfold [] ⟨by decide, by decide⟩

/-! ## The answer to the client -/

/-- The output buffer of a turn that ends with this response. -/
theorem turnProcessEvents_answered {env : TurnEnv} (hmax : 0 < env.outMax)
    {s t : TurnState} {events : List LoopEvent} {f text : Bytes}
    (hrun : turnProcessEvents env s events = .running t)
    (hf : answeredText env f = some text) :
    ∃ e, turnProcessEvents env s (events ++ [.frame f]) = .ended e ∧
      e.outcome = .completed ∧
      e.state.outBuf =
        (noticesOf env events ++ clip 4096 (cstr text)).take (env.outMax - 1) := by
  obtain ⟨promptTokens, completionTokens, hend⟩ := turnEvent_answered hf t
  have hlast : turnProcessEvents env s (events ++ [.frame f]) = turnEvent env t (.frame f) := by
    rw [turnProcessEvents_append, hrun, Progress.bind_running, run_cons, hend]
    rfl
  refine ⟨_, hlast.trans hend, rfl, ?_⟩
  dsimp only
  rw [responseFrame_outBuf hmax, ← turnProcessEvents_eventPrefix hrun]
  rfl

/-- The writer says that it cut the text it was given. -/
def ReportsCut (cfg : BlockConfig) (text : Bytes) : Prop :=
  cfg.maxOutputBuffer ≤ text.length + 1 ∨
    (0 < cfg.maxOutputChars ∧ cfg.maxOutputChars < text.length)

instance (cfg : BlockConfig) (text : Bytes) : Decidable (ReportsCut cfg text) :=
  inferInstanceAs (Decidable (_ ∨ _))

/-- The content of a text that went through the output buffer. -/
theorem blockContent_take (cfg : BlockConfig) (text : Bytes) :
    (ReportsCut cfg text →
      (blockContent cfg (text.take (cfg.maxOutputBuffer - 1)) false).2 ≠ []) ∧
    (¬ ReportsCut cfg text →
      blockContent cfg (text.take (cfg.maxOutputBuffer - 1)) false = (text, [])) := by
  have hclip : clip cfg.maxOutputBuffer (text.take (cfg.maxOutputBuffer - 1)) =
      text.take (cfg.maxOutputBuffer - 1) := by
    rw [clip, List.take_take, Nat.min_self]
  refine ⟨fun hcut => ?_, fun hwhole => ?_⟩
  · have hbuffer : lit "max_output_buffer" ≠ [] := by decide
    have hchars : lit "max_output_chars" ≠ [] := by decide
    simp only [blockContent, hclip, decide_eq_true_eq]
    split
    · exact hbuffer
    · rename_i hroom
      rw [List.length_take] at hroom
      have hall : text.take (cfg.maxOutputBuffer - 1) = text :=
        List.take_of_length_le (by omega)
      rw [if_pos]
      · exact hchars
      · rw [hall]
        rcases hcut with hcut | ⟨hpos, hlong⟩
        · omega
        · omega
  · have hbuffer : ¬ cfg.maxOutputBuffer ≤ text.length + 1 := fun h => hwhole (Or.inl h)
    have hall : text.take (cfg.maxOutputBuffer - 1) = text :=
      List.take_of_length_le (by omega)
    have hroom : ¬ cfg.maxOutputBuffer - 1 ≤ text.length := by omega
    have hchars : ¬ (0 < cfg.maxOutputChars ∧ cfg.maxOutputChars.toNat < text.length) := by
      rintro ⟨hpos, hlong⟩
      exact hwhole (Or.inr ⟨hpos, by omega⟩)
    rw [hall] at hclip
    simp only [blockContent, hall, hclip, hroom, hchars, decide_false, Bool.false_eq_true,
      if_false]

/-- The event keeps a text of at most 4095 bytes without a terminator. -/
theorem clip_cstr_eq_iff (text : Bytes) :
    clip 4096 (cstr text) = text ↔ 0 ∉ text ∧ text.length ≤ 4095 := by
  rw [clip_cstr_iff (by decide), HoldsText, Nat.lt_succ_iff]

/-- The answer to a non-streaming request whose turn returned true. -/
def TurnEnd.blockReply (cfg : BlockConfig) (now : Nat) (e : TurnEnd) : BlockReply :=
  handleResponseBlock cfg now e.state.outBuf (decide (e.outcome = .eventLimit))

/-- No silent loss: the client finds the text of the response, behind the
notices of the turn, or a reason why it does not. -/
def NoSilentLoss (notices text : Bytes) (object : ResponseObject) : Prop :=
  object.text = notices ++ text ∨ object.incompleteDetails ≠ []

/-- The text, with the notices in front of it, passes the buffers that report
nothing. -/
def PassesSilently (notices text : Bytes) : Prop :=
  0 ∉ text ∧ text.length ≤ 4095 ∧ Escapes 65536 (notices ++ text)

instance (notices text : Bytes) : Decidable (PassesSilently notices text) :=
  inferInstanceAs (Decidable (_ ∧ _))

/-- **Loss is reported, or there is none**, exactly when the writer cuts what
the event kept of the text, or the text fits the buffers that report
nothing. -/
theorem noSilentLoss_iff {cfg : BlockConfig} {now : Nat} {notices text body : Bytes}
    {object : ResponseObject} {e : TurnEnd} (hnotices : FitsNotices notices)
    (hcompleted : e.outcome = .completed)
    (houtBuf : e.state.outBuf =
      (notices ++ clip 4096 (cstr text)).take (cfg.maxOutputBuffer - 1))
    (hsent : e.blockReply cfg now = .response object body) :
    NoSilentLoss notices text object ↔
      ReportsCut cfg (notices ++ clip 4096 (cstr text)) ∨ PassesSilently notices text := by
  have hunlimited : decide (TurnOutcome.completed = .eventLimit) = false := by decide
  rw [TurnEnd.blockReply, houtBuf, hcompleted, hunlimited] at hsent
  have hkept : clip 4096 (cstr text) <+: text :=
    (List.take_prefix _ _).trans (List.takeWhile_prefix _)
  have hfull := clip_cstr_eq_iff text
  have hshort := length_clip_lt (show 0 < 4096 by decide) (cstr text)
  have hplain : 0 ∉ clip 4096 (cstr text) :=
    fun h => stop_not_mem_upTo 0 text (List.mem_of_mem_take h)
  generalize clip 4096 (cstr text) = kept at *
  have hzero : 0 ∉ (notices ++ kept).take (cfg.maxOutputBuffer - 1) := by
    intro h
    rcases List.mem_append.mp (List.mem_of_mem_take h) with h | h
    · exact hnotices.1 h
    · exact hplain h
  have hlen : ((notices ++ kept).take (cfg.maxOutputBuffer - 1)).length < 65536 := by
    have hfits := hnotices.2
    rw [List.length_take, List.length_append]
    omega
  obtain ⟨hleads, hescaped, hdetails⟩ := response_text hzero hlen hsent
  by_cases hcut : ReportsCut cfg (notices ++ kept)
  · have hsaid := (blockContent_take cfg (notices ++ kept)).1 hcut
    exact ⟨fun _ => Or.inl hcut, fun _ => Or.inr (by rwa [hdetails])⟩
  · rw [(blockContent_take cfg (notices ++ kept)).2 hcut] at hleads hescaped hdetails
    dsimp only at hleads hescaped hdetails
    constructor
    · rintro (hfound | hsaid)
      · -- what the client finds is no longer than what the event kept
        have hback : text <+: kept := by
          rw [hfound] at hleads
          exact (List.prefix_append_right_inj notices).mp hleads
        have hsame : kept = text := hkept.eq_of_length_le hback.length_le
        obtain ⟨hnul, hfit⟩ := hfull.mp hsame
        rw [hsame] at hescaped
        exact Or.inr ⟨hnul, hfit, hescaped.mp hfound⟩
      · exact absurd hdetails hsaid
    · rintro (hsaid | ⟨hnul, hfit, hesc⟩)
      · exact absurd hsaid hcut
      · rw [hfull.mpr ⟨hnul, hfit⟩] at hescaped
        exact Or.inl (hescaped.mpr hesc)

/-- **No silent output loss**, exactly.  A turn that ends with a response frame
is answered with the text of that frame behind the notices of the turn, or with
a reason for what is missing, iff the writer reports a cut or the text passes
the event and the escape buffer, which report none. -/
theorem output_loss_reported_iff
    (cfg : BlockConfig) (env : TurnEnv) (hbuffer : 2 ≤ cfg.maxOutputBuffer)
    (hout : env.outMax = cfg.maxOutputBuffer) (now : Nat) {s t : TurnState}
    {events : List LoopEvent} {f text : Bytes}
    (hrun : turnProcessEvents env s events = .running t)
    (hf : answeredText env f = some text) :
    ∃ e, turnProcessEvents env s (events ++ [.frame f]) = .ended e ∧
      e.outcome = .completed ∧
      ∀ object body, e.blockReply cfg now = .response object body →
        (NoSilentLoss (noticesOf env events) text object ↔
          ReportsCut cfg (noticesOf env events ++ clip 4096 (cstr text)) ∨
            PassesSilently (noticesOf env events) text) := by
  obtain ⟨e, hend, hcompleted, houtBuf⟩ :=
    turnProcessEvents_answered (by omega : 0 < env.outMax) hrun hf
  refine ⟨e, hend, hcompleted, fun object body hsent => ?_⟩
  rw [hout] at houtBuf
  exact noSilentLoss_iff (noticesOf_fits env events) hcompleted houtBuf hsent

/-- A response frame with nothing but a text. -/
def answerFrame (text : Bytes) : Bytes :=
  lit "\x7b\"type\":\"response\",\"text\":" ++ CJson.quoted text ++ lit "\x7d"

theorem answeredText_answerFrame (env : TurnEnv) {text : Bytes} (hzero : 0 ∉ text) :
    answeredText env (answerFrame text) = some text := by
  let members : List (Bytes × CJson × Bytes) :=
    [(lit "type", .string (lit "response"), CJson.quoted (lit "response")),
      (lit "text", .string text, CJson.quoted text)]
  have hprinted : answerFrame text = 123 :: CJson.printedMembers [] members := by
    simp [answerFrame, members, CJson.printedMembers, CJson.quoted, lit, escapeByte]
  have hreads : ∀ m ∈ members, CJson.Reads 1 m.2.1 m.2.2 := by
    simp only [members, List.forall_mem_cons, List.not_mem_nil, false_implies,
      implies_true, and_true]
    exact ⟨CJson.reads_string _ _, CJson.reads_string _ _⟩
  have hplain : ∀ m ∈ members, 0 ∉ m.1 ∧ 0 ∉ m.2.2 := by
    simp only [members, List.forall_mem_cons, List.not_mem_nil, false_implies,
      implies_true, and_true]
    exact ⟨⟨by decide, by decide⟩, ⟨by decide, CJson.zero_not_mem_quoted hzero⟩⟩
  have hparse := CJson.parse_printedMembers (Or.inl (rfl : ([] : Bytes) = []))
    (by simp [members]) hreads hplain
  rw [List.nil_append, List.append_nil, ← hprinted] at hparse
  let obj : CJson := .object (members.map fun m => (m.1, m.2.1))
  have hconds : CJson.getString obj (lit "type") [] 64 = lit "response" ∧
      CJson.getObjectItem obj (lit "tool_intent") = none ∧
      CJson.getString obj (lit "id") [] 64 = [] := by
    refine ⟨?_, ?_, ?_⟩
    · rfl
    · rfl
    · rfl
  have htext : responseText obj = text := by
    have hdecoded : decodedString obj (lit "text") = text := rfl
    have hcstr : cstr text = text := upTo_eq_self hzero
    rw [responseText, hdecoded, hcstr]
    split
    · rfl
    · rename_i hnil
      rw [not_not.mp hnil]
      rfl
  rw [answeredText, hparse]
  dsimp only
  rw [if_pos ⟨hconds.1, hconds.2.1, Or.inl hconds.2.2⟩]
  exact congrArg some htext

/-- The default settings of the writer. -/
def sampleBlock : BlockConfig := ⟨65536, 0, lit "m", []⟩

/-- A short answer arrives. -/
theorem output_loss_reported_iff_short :
    ∃ e, turnProcessEvents sampleTurnEnv (freshTurn none) ([] ++
        [.frame (answerFrame (lit "hi"))]) = .ended e ∧
      e.outcome = .completed ∧
      ∀ object body, e.blockReply sampleBlock 0 = .response object body →
        (NoSilentLoss (noticesOf sampleTurnEnv []) (lit "hi") object ↔
          ReportsCut sampleBlock (noticesOf sampleTurnEnv [] ++
              clip 4096 (cstr (lit "hi"))) ∨
            PassesSilently (noticesOf sampleTurnEnv []) (lit "hi")) :=
  output_loss_reported_iff sampleBlock sampleTurnEnv (by decide) rfl 0 rfl
    (answeredText_answerFrame sampleTurnEnv (by decide))

/-- An answer of 4096 bytes loses its last one without a word. -/
theorem output_lost_silently :
    ¬ ∀ cfg env now s events f text e object body, 2 ≤ cfg.maxOutputBuffer →
      env.outMax = cfg.maxOutputBuffer → answeredText env f = some text →
      turnProcessEvents env s (events ++ [.frame f]) = .ended e →
      e.outcome = .completed → e.blockReply cfg now = .response object body →
      NoSilentLoss (noticesOf env events) text object := by
  intro h
  have hlong : (List.replicate 4096 97 : Bytes).length = 4096 := List.length_replicate
  have hzero : 0 ∉ (List.replicate 4096 97 : Bytes) := by
    rw [List.mem_replicate]
    exact fun hmem => absurd hmem.2 (by decide)
  generalize (List.replicate 4096 97 : Bytes) = text at hlong hzero
  have hf := answeredText_answerFrame sampleTurnEnv hzero
  have hrun : turnProcessEvents sampleTurnEnv (freshTurn none) [] =
      .running ((freshTurn none).enter sampleTurnEnv) := rfl
  obtain ⟨e, hend, hcompleted, houtBuf⟩ :=
    turnProcessEvents_answered (by decide : 0 < sampleTurnEnv.outMax) hrun hf
  have hplain : 0 ∉ e.state.outBuf := by
    rw [houtBuf]
    exact fun hmem => stop_not_mem_upTo 0 text
      (List.mem_of_mem_take (List.mem_of_mem_take hmem))
  have hmodel : CJson.PlainText sampleBlock.model := by decide
  obtain ⟨body, hsent⟩ := response_sent hmodel 0 hplain
    (decide (e.outcome = .eventLimit))
  have hloss := h sampleBlock sampleTurnEnv 0 (freshTurn none) [] _ text e _ body
    (by decide) rfl hf hend hcompleted hsent
  have hfits := noticesOf_fits sampleTurnEnv []
  have hshort := length_clip_lt (show 0 < 4096 by decide) (cstr text)
  rcases (noSilentLoss_iff hfits hcompleted houtBuf hsent).mp hloss with hcut | hpasses
  · rcases hcut with hbuffer | ⟨hpos, -⟩
    · rw [List.length_append] at hbuffer
      have hsize : sampleBlock.maxOutputBuffer = 65536 := rfl
      have := hfits.2
      omega
    · exact absurd hpos (by decide)
  · have := hpasses.2.1
    omega

end StarBridge
