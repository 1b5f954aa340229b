import StarBridge.JsonDumps
import StarBridge.StreamAgreement
import StarBridge.WrapperTurns

/-!
# What a client sees of the agent

While a turn runs, the wrapper sends each line it collects in a `text_delta` frame, and the
bridge sends the text on to the client.  On the way the text is written by `json.dumps`, read
by cJSON, copied into 4096 bytes and written again as an event.

`live_lines_iff` says of every turn, and of every order in which the bridge meets its frames
and other things, when the client has been sent the lines as they are.
-/

namespace StarBridge

open CText Loops

/-! ## The frames of a turn -/

/-- The id of a request, as the wrapper sends it back. -/
def requestIdText (number : Nat) : PyStr := "req-".toList ++ Nat.toDigits 10 number

/-- A frame of a turn, as `write_frame` writes it. -/
def TurnFrame.written (number : Nat) : TurnFrame → Bytes
  | .thinking message =>
      jsonDumps [(lit "type", "event".toList), (lit "event", "thinking".toList),
        (lit "message", message.toList)]
  | .textDelta text =>
      jsonDumps [(lit "type", "text_delta".toList), (lit "id", requestIdText number),
        (lit "text", text)]

/-- The texts that are sent live. -/
def TurnFrame.live : TurnFrame → List PyStr
  | .thinking _ => []
  | .textDelta text => [text]

/-- What the bridge has of a text. -/
def crossing (text : PyStr) : Bytes := clip 4096 (cstr (utf8Text text))

/-- The text has no U+0000, and fits the buffer of the event. -/
def CrossesWhole (text : PyStr) : Prop := 0 ∉ utf8Text text ∧ (utf8Text text).length < 4096

/-- The frames among what the loop meets. -/
def receivedFrames : List LoopEvent → List Bytes
  | [] => []
  | .frame text :: events => text :: receivedFrames events
  | .control _ :: events => receivedFrames events
  | .idle _ :: events => receivedFrames events

/-! ## Texts -/

theorem length_crossing_le (text : PyStr) : (crossing text).length ≤ (utf8Text text).length := by
  rw [crossing, clip, List.length_take]
  exact (Nat.min_le_right _ _).trans (List.takeWhile_prefix _).length_le

theorem crossing_eq_iff (text : PyStr) : crossing text = utf8Text text ↔ CrossesWhole text := by
  constructor
  · intro h
    have hlength : (crossing text).length < 4096 := length_clip_lt (by decide) _
    refine ⟨fun hzero => ?_, by rwa [h] at hlength⟩
    rw [← h] at hzero
    exact stop_not_mem_upTo 0 _ (List.mem_of_mem_take hzero)
  · rintro ⟨hzero, hlength⟩
    rw [crossing, show cstr (utf8Text text) = _ from upTo_eq_self hzero, clip_eq_self hlength]

/-- Texts in a row arrive as they are only if each does. -/
theorem flatMap_crossing_eq_iff (texts : List PyStr) :
    texts.flatMap crossing = texts.flatMap utf8Text ↔ ∀ text ∈ texts, CrossesWhole text := by
  have hle (texts : List PyStr) :
      (texts.flatMap crossing).length ≤ (texts.flatMap utf8Text).length := by
    induction texts with
    | nil => exact Nat.le_refl _
    | cons text texts ih =>
        rw [List.flatMap_cons, List.flatMap_cons, List.length_append, List.length_append]
        exact Nat.add_le_add (length_crossing_le text) ih
  induction texts with
  | nil => simp
  | cons text texts ih =>
      rw [List.flatMap_cons, List.flatMap_cons, List.forall_mem_cons, ← crossing_eq_iff]
      constructor
      · intro h
        have hlength := congrArg List.length h
        rw [List.length_append, List.length_append] at hlength
        have hfirst := length_crossing_le text
        have hrest := hle texts
        obtain ⟨hsame, hbehind⟩ := List.append_inj h (by omega)
        exact ⟨hsame, ih.mp hbehind⟩
      · rintro ⟨hfirst, hrest⟩
        rw [hfirst, ih.mpr hrest]

/-- A printable character other than the quotation mark and the backslash. -/
theorem dumpsChar_plain {c : Char} (h : 32 ≤ c.toNat ∧ c.toNat < 127) (hquote : c ≠ '"')
    (hback : c ≠ '\\') :
    dumpsChar c = [UInt8.ofNat c.toNat] ∧ String.utf8EncodeChar c = [UInt8.ofNat c.toNat] := by
  have hlow (d : Char) (hd : d.toNat < 32) : c ≠ d := by
    rintro rfl
    omega
  have hnone : dumpsLetter c = none := by
    rw [dumpsLetter, if_neg hquote, if_neg hback, if_neg (hlow _ (by decide)),
      if_neg (hlow _ (by decide)), if_neg (hlow _ (by decide)), if_neg (hlow _ (by decide)),
      if_neg (hlow _ (by decide))]
  refine ⟨?_, ?_⟩
  · rw [dumpsChar, hnone]
    exact if_pos h
  · rw [← CJson.utf8Encode_toNat]
    exact if_pos (by omega)

/-- The id is written, and read, as the bridge made it. -/
theorem requestIdText_plain (number : Nat) :
    (requestIdText number).flatMap dumpsChar = lit "req-" ++ decimal number ∧
      utf8Text (requestIdText number) = lit "req-" ++ decimal number := by
  have hplain : ∀ c ∈ requestIdText number, dumpsChar c = [UInt8.ofNat c.toNat] ∧
      String.utf8EncodeChar c = [UInt8.ofNat c.toNat] := by
    intro c hc
    rcases List.mem_append.mp hc with hc | hc
    · have hall : ∀ c ∈ ['r', 'e', 'q', '-'], (32 ≤ c.toNat ∧ c.toNat < 127) ∧ c ≠ '"' ∧
          c ≠ '\\' := by
        simp only [List.forall_mem_cons, List.not_mem_nil, false_implies, implies_true, and_true]
        decide
      obtain ⟨hrange, hquote, hback⟩ := hall c hc
      exact dumpsChar_plain hrange hquote hback
    · have hdigit := Nat.isDigit_of_mem_toDigits (by decide) (by decide) hc
      simp only [Char.isDigit, Bool.and_eq_true, decide_eq_true_eq] at hdigit
      have hlow : 48 ≤ c.toNat := by simpa using UInt32.le_iff_toNat_le.mp hdigit.1
      have hhigh : c.toNat ≤ 57 := by simpa using UInt32.le_iff_toNat_le.mp hdigit.2
      refine dumpsChar_plain ⟨by omega, by omega⟩ ?_ ?_
      · rintro rfl
        exact absurd hlow (by decide)
      · rintro rfl
        exact absurd hhigh (by decide)
  have hid : (requestIdText number).flatMap (fun c => [UInt8.ofNat c.toNat]) =
      lit "req-" ++ decimal number := by
    rw [requestIdText, List.flatMap_append, ← List.map_eq_flatMap, ← List.map_eq_flatMap]
    rfl
  rw [utf8Text, List.flatMap_congr fun c hc => (hplain c hc).1,
    List.flatMap_congr fun c hc => (hplain c hc).2]
  exact ⟨hid, hid⟩

/-! ## What the bridge reads -/

theorem parse_textDelta (number : Nat) (text : PyStr) :
    CJson.parse ((TurnFrame.textDelta text).written number) =
      some (.object [(lit "type", .string (lit "text_delta")),
        (lit "id", .string (lit "req-" ++ decimal number)),
        (lit "text", .string (utf8Text text))]) := by
  have hkind : utf8Text "text_delta".toList = lit "text_delta" := by decide +kernel
  rw [TurnFrame.written, CJson.parse_jsonDumps (List.cons_ne_nil _ _) (by simp; decide),
    List.map_cons, List.map_cons, List.map_cons, List.map_nil, hkind,
    (requestIdText_plain number).2]

theorem parse_thinking (number : Nat) (message : String) :
    CJson.parse ((TurnFrame.thinking message).written number) =
      some (.object [(lit "type", .string (lit "event")),
        (lit "event", .string (utf8Text "thinking".toList)),
        (lit "message", .string (utf8Text message.toList))]) := by
  have hkind : utf8Text "event".toList = lit "event" := by decide +kernel
  rw [TurnFrame.written, CJson.parse_jsonDumps (List.cons_ne_nil _ _) (by simp; decide),
    List.map_cons, List.map_cons, List.map_cons, List.map_nil, hkind]

/-- A text delta shows the id of its request. -/
theorem echoesId_textDelta {env : TurnEnv} {number : Nat}
    (hid : env.requestId = lit "req-" ++ decimal number) (text : PyStr) :
    echoesId env ((TurnFrame.textDelta text).written number) = true := by
  have hzero : 0 ∉ (TurnFrame.textDelta text).written number :=
    CJson.zero_not_mem_jsonDumps (by simp; decide)
  rw [echoesId, occurs_iff, show cstr _ = _ from upTo_eq_self hzero, hid,
    ← (requestIdText_plain number).1]
  refine ⟨123 :: (CJson.quoted (lit "type") ++ (58 :: (dumpsText "text_delta".toList ++
      (44 :: (CJson.quoted (lit "id") ++ [58, 34]))))),
    34 :: 44 :: (CJson.quoted (lit "text") ++ (58 :: (dumpsText text ++ [125]))), ?_⟩
  simp [TurnFrame.written, jsonDumps, CJson.printedMembers, dumpsText]

/-- **What a frame streams**: of a delta, what crosses of its text. -/
theorem deltaOf_written {env : TurnEnv} {number : Nat}
    (hid : env.requestId = lit "req-" ++ decimal number) (frame : TurnFrame) :
    deltaOf env (.frame (frame.written number)) = frame.live.flatMap crossing := by
  cases frame with
  | thinking message =>
      have hkind : nativeEventTypeFromString (lit "event") = .unknown := by decide +kernel
      have htype : (nativeParseFrame env.parser
          ((TurnFrame.thinking message).written number)).type = .unknown := by
        rw [nativeParseFrame, parse_thinking]
        exact hkind
      have hdelta : (nativeParseFrame env.parser
          ((TurnFrame.thinking message).written number)).delta = [] := by
        simp only [NativeEvent.delta, htype]
      unfold deltaOf
      dsimp only
      rw [hdelta, ite_self]
      rfl
  | textDelta text =>
      have hkind : nativeEventTypeFromString (lit "text_delta") = .textDelta := by
        decide +kernel
      have hdelta : (nativeParseFrame env.parser
          ((TurnFrame.textDelta text).written number)).delta =
            firstString (.object [(lit "type", .string (lit "text_delta")),
              (lit "id", .string (lit "req-" ++ decimal number)),
              (lit "text", .string (utf8Text text))]) 4096 [lit "text", lit "delta"] := by
        rw [nativeParseFrame, parse_textDelta]
        rfl
      have hechoes := echoesId_textDelta hid text
      unfold deltaOf
      dsimp only
      rw [if_neg fun h => h.2 hechoes, hdelta, TurnFrame.live, List.flatMap_singleton,
        firstString]
      split
      · rename_i hnil
        exact hnil.symm
      · rfl

/-- What the loop streams, frame by frame. -/
theorem streamedText_eq (env : TurnEnv) (events : List LoopEvent) :
    streamedText env events = (receivedFrames events).flatMap fun f => deltaOf env (.frame f) := by
  induction events with
  | nil => rfl
  | cons e events ih =>
      rw [streamedText, List.flatMap_cons]
      cases e with
      | frame text => exact congrArg (deltaOf env (.frame text) ++ ·) ih
      | control connections => exact ih
      | idle late => exact ih

/-! ## What the wrapper writes -/

/-- The frames of the loop show its parts, each on a line. -/
def StreamTurn.Shows (s : StreamTurn AgentLine) : Prop :=
  s.frames.flatMap TurnFrame.live = s.parts.map fun part => part.text AgentLine.text ++ ['\n']

theorem StreamTurn.Shows.collect {s : StreamTurn AgentLine} (h : s.Shows)
    (part : TurnPart AgentLine) : (s.collect AgentLine.text part).Shows := by
  unfold StreamTurn.Shows StreamTurn.collect
  dsimp only
  rw [List.flatMap_append, List.map_append, h]
  rfl

theorem StreamTurn.Shows.line {env : WrapperEnv} {s : StreamTurn AgentLine} (h : s.Shows)
    (l : AgentLine) : (streamLine AgentLine.text env s l).Shows := by
  have hcount (count : Nat) :
      ({ s with listingBurstCount := count } : StreamTurn AgentLine).Shows := h
  unfold streamLine
  dsimp only
  split_ifs
  · exact h
  · exact (hcount _).collect _
  · exact (hcount _).collect _
  · exact hcount _
  · exact (hcount _).collect _
  · exact h
  · exact hcount _

/-- **The frames of a turn** show its parts. -/
theorem shows_of_ended {env : WrapperEnv} {inputs : List (WrapperInput AgentLine)}
    {s : StreamTurn AgentLine}
    (hturn : Loops.run (streamInput AgentLine.text env) StreamTurn.start inputs = .ended s) :
    s.Shows := by
  have hstep : ∀ (s : StreamTurn AgentLine) (input : WrapperInput AgentLine), s.Shows →
      (streamInput AgentLine.text env s input).Meets StreamTurn.Shows StreamTurn.Shows := by
    intro s input h
    cases input with
    | line l =>
        rw [streamInput]
        split
        · exact h
        · exact h.line l
    | silence long =>
        cases long with
        | false => exact h
        | true =>
            have hframes : (s.frames ++ [TurnFrame.thinking "ds4-agent is reasoning..."]).flatMap
                TurnFrame.live = s.frames.flatMap TurnFrame.live := by
              rw [List.flatMap_append]
              exact List.append_nil _
            exact hframes.trans h
  have hmeets := run_meets hstep (show StreamTurn.start.Shows from rfl) inputs
  rw [hturn] at hmeets
  exact hmeets

/-- A line of the agent, and what the wrapper makes of it. -/
def spokenLine : AgentLine := ⟨['h', 'i'], by decide⟩

def spokenTurn : StreamTurn AgentLine :=
  ⟨[.line spokenLine], 0, [.thinking "ds4-agent received prompt, starting...",
    .textDelta ['h', 'i', '\n']]⟩

end StarBridge
