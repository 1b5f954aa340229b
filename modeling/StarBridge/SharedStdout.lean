import StarBridge.FrameStream
import StarBridge.JsonUtils
import StarBridge.Runs

/-!
# Two threads on one stdout

Without a socket `write_frame` of the wrapper writes the header and then the payload of a
frame to stdout.  The router thread answers pings and health checks with it while the
main thread writes acks, deltas and responses, and no lock is held between the two writes.

The frames on stdout are whole iff no thread begins a frame while the other is between
its header and its payload (`frames_whole_iff`).  In socket mode header and payload go
out in one `sendall`.
-/

namespace StarBridge

open CText Framing Runs

/-! ## The writes -/

/-- The threads of the wrapper that write frames. -/
inductive FrameWriter
  | router
  | main
  deriving DecidableEq, Repr

/-- A write to stdout: the header of a frame, or its payload. -/
inductive StdoutWrite
  | header (w : FrameWriter) (body : Bytes)
  | payload (w : FrameWriter) (body : Bytes)
  deriving DecidableEq, Repr

/-- The bytes of a write. -/
def StdoutWrite.bytes : StdoutWrite → Bytes
  | .header _ body => le32 body.length
  | .payload _ body => body

/-- Stdout, and the payload that each thread has written the header of. -/
structure SharedStdout where
  written : List StdoutWrite
  between : FrameWriter → Option Bytes

/-- Stdout before any frame. -/
def SharedStdout.empty : SharedStdout := ⟨[], fun _ => none⟩

/-- A thread begins `write_frame`, or goes on with it. -/
inductive WriteEvent
  | header (w : FrameWriter) (payload : Bytes)
  | payload (w : FrameWriter)
  deriving DecidableEq, Repr

/-- One write.  A thread that is in the middle of a frame begins no other. -/
def writeStep (s : SharedStdout) : WriteEvent → SharedStdout
  | .header w payload =>
      match s.between w with
      | none =>
          { written := s.written ++ [.header w payload]
            between := Function.update s.between w (some payload) }
      | some _ => s
  | .payload w =>
      match s.between w with
      | none => s
      | some payload =>
          { written := s.written ++ [.payload w payload]
            between := Function.update s.between w none }

/-! ## Whole frames -/

/-- Frames one after another, each a header and its own payload. -/
def framesWritten (frames : List (FrameWriter × Bytes)) : List StdoutWrite :=
  frames.flatMap fun f => [.header f.1 f.2, .payload f.1 f.2]

/-- Complete frames, each header immediately followed by its own payload; the payload of
the last frame may still be to come. -/
def WholeFrames (written : List StdoutWrite) : Prop :=
  ∃ frames, written = framesWritten frames ∨
    ∃ w payload, written = framesWritten frames ++ [.header w payload]

/-- The bytes of whole frames are the stream that the bridge takes apart. -/
theorem bytes_framesWritten (frames : List (FrameWriter × Bytes)) :
    (framesWritten frames).flatMap StdoutWrite.bytes = wire (frames.map Prod.snd) := by
  induction frames with
  | nil => rfl
  | cons f rest ih =>
      have hencode : encode frameCodec f.2 = le32 f.2.length ++ f.2 := rfl
      rw [List.map_cons, wire_cons, ← ih, hencode, List.append_assoc]
      rfl

theorem framesWritten_snoc (frames : List (FrameWriter × Bytes)) (f : FrameWriter × Bytes) :
    framesWritten (frames ++ [f]) =
      (framesWritten frames ++ [.header f.1 f.2]) ++ [.payload f.1 f.2] := by
  simp [framesWritten]

/-- Complete frames do not end with a header. -/
theorem framesWritten_ne_header (frames : List (FrameWriter × Bytes)) (front : List StdoutWrite)
    (w : FrameWriter) (payload : Bytes) :
    framesWritten frames ≠ front ++ [.header w payload] := by
  intro h
  rcases List.eq_nil_or_concat' frames with rfl | ⟨before, f, rfl⟩
  · exact absurd h.symm (by simp [framesWritten])
  · rw [framesWritten_snoc] at h
    cases (List.append_inj' h rfl).2

/-- What is whole was whole one write before. -/
theorem WholeFrames.of_snoc {front : List StdoutWrite} {x : StdoutWrite}
    (h : WholeFrames (front ++ [x])) : WholeFrames front := by
  obtain ⟨frames, hall | ⟨w, payload, hlast⟩⟩ := h
  · rcases List.eq_nil_or_concat' frames with rfl | ⟨before, f, rfl⟩
    · exact absurd hall (by simp [framesWritten])
    · rw [framesWritten_snoc] at hall
      exact ⟨before, Or.inr ⟨f.1, f.2, (List.append_inj' hall rfl).1⟩⟩
  · exact ⟨frames, Or.inl (List.append_inj' hlast rfl).1⟩

/-- Two headers in a row are not whole. -/
theorem not_wholeFrames_of_two_headers {front : List StdoutWrite} {w w' : FrameWriter}
    {payload payload' : Bytes} :
    ¬ WholeFrames (front ++ [.header w payload] ++ [.header w' payload']) := by
  rintro ⟨frames, hall | ⟨v, q, hlast⟩⟩
  · exact framesWritten_ne_header frames _ _ _ hall.symm
  · exact framesWritten_ne_header frames _ _ _ (List.append_inj' hlast rfl).1.symm

/-! ## Runs -/

/-- The step begins a frame while a thread is between a header and its payload. -/
def CutsIn (s : SharedStdout) (e : WriteEvent) : Prop :=
  ∃ w payload w', e = .header w payload ∧ s.between w = none ∧ s.between w' ≠ none

/-- Stdout has complete frames, and the header of at most one more. -/
def SharedStdout.Framed (s : SharedStdout) : Prop :=
  ∃ frames, (s.written = framesWritten frames ∧ ∀ w, s.between w = none) ∨
    ∃ w payload, s.written = framesWritten frames ++ [.header w payload] ∧
      s.between = Function.update (fun _ => none) w (some payload)

theorem SharedStdout.Framed.whole {s : SharedStdout} (h : s.Framed) : WholeFrames s.written := by
  obtain ⟨frames, ⟨hall, -⟩ | ⟨w, payload, hlast, -⟩⟩ := h
  · exact ⟨frames, Or.inl hall⟩
  · exact ⟨frames, Or.inr ⟨w, payload, hlast⟩⟩

/-- A step writes at most once. -/
theorem written_writeStep (s : SharedStdout) (e : WriteEvent) :
    (writeStep s e).written = s.written ∨ ∃ x, (writeStep s e).written = s.written ++ [x] := by
  cases e with
  | header w payload =>
      simp only [writeStep]
      split
      · exact Or.inr ⟨_, rfl⟩
      · exact Or.inl rfl
  | payload w =>
      simp only [writeStep]
      split
      · exact Or.inl rfl
      · exact Or.inr ⟨_, rfl⟩

/-- **One step** that does not cut in leaves whole frames. -/
theorem SharedStdout.Framed.step {s : SharedStdout} (h : s.Framed) {e : WriteEvent}
    (hwaits : ¬ CutsIn s e) : (writeStep s e).Framed := by
  obtain ⟨frames, ⟨hall, hnone⟩ | ⟨v, q, hlast, hbetween⟩⟩ := h
  · cases e with
    | header w payload =>
        have hidle : s.between = fun _ => none := funext hnone
        simp only [writeStep, hnone w]
        refine ⟨frames, Or.inr ⟨w, payload, ?_, ?_⟩⟩
        · rw [hall]
        · rw [hidle]
    | payload w =>
        simp only [writeStep, hnone w]
        exact ⟨frames, Or.inl ⟨hall, hnone⟩⟩
  · have hv : s.between v = some q := by
      rw [hbetween, Function.update_self]
    have hothers : ∀ w, w ≠ v → s.between w = none := by
      intro w hw
      rw [hbetween, Function.update_of_ne hw]
    cases e with
    | header w payload =>
        by_cases hw : w = v
        · subst hw
          simp only [writeStep, hv]
          exact ⟨frames, Or.inr ⟨w, q, hlast, hbetween⟩⟩
        · refine absurd ⟨w, payload, v, rfl, hothers w hw, ?_⟩ hwaits
          rw [hv]
          exact Option.some_ne_none q
    | payload w =>
        by_cases hw : w = v
        · subst hw
          simp only [writeStep, hv]
          refine ⟨frames ++ [(w, q)], Or.inl ⟨?_, ?_⟩⟩
          · rw [hlast, framesWritten_snoc]
          · intro u
            show Function.update s.between w none u = none
            by_cases hu : u = w
            · rw [hu, Function.update_self]
            · rw [Function.update_of_ne hu, hothers u hu]
        · simp only [writeStep, hothers w hw]
          exact ⟨frames, Or.inr ⟨v, q, hlast, hbetween⟩⟩

/-- A step that cuts in breaks a frame. -/
theorem SharedStdout.Framed.not_whole {s : SharedStdout} (h : s.Framed) {e : WriteEvent}
    (hcuts : CutsIn s e) : ¬ WholeFrames (writeStep s e).written := by
  obtain ⟨w, payload, w', rfl, hidle, hbusy⟩ := hcuts
  obtain ⟨frames, ⟨-, hnone⟩ | ⟨v, q, hlast, -⟩⟩ := h
  · exact absurd (hnone w') hbusy
  · have hwritten : (writeStep s (.header w payload)).written =
        framesWritten frames ++ [.header v q] ++ [.header w payload] := by
      simp only [writeStep, hidle, hlast]
    rw [hwritten]
    exact not_wholeFrames_of_two_headers

/-- What a run has broken stays broken. -/
theorem WholeFrames.before_run {s : SharedStdout} {events : List WriteEvent}
    (h : WholeFrames (stateAfter writeStep s events).written) : WholeFrames s.written := by
  induction events generalizing s with
  | nil => exact h
  | cons e rest ih =>
      have hnext := ih h
      rcases written_writeStep s e with hsame | ⟨x, hmore⟩
      · rw [← hsame]
        exact hnext
      · rw [hmore] at hnext
        exact hnext.of_snoc

theorem allSteps_of_whole {s : SharedStdout} (hs : s.Framed) {events : List WriteEvent}
    (h : WholeFrames (stateAfter writeStep s events).written) :
    AllSteps writeStep (fun s e => ¬ CutsIn s e) s events := by
  induction events generalizing s with
  | nil => trivial
  | cons e rest ih =>
      have hwaits : ¬ CutsIn s e := fun hcuts => hs.not_whole hcuts (WholeFrames.before_run h)
      exact ⟨hwaits, ih (hs.step hwaits) h⟩

/-- **Whole frames, exactly**: in an interleaving the frames on stdout are whole iff no
thread begins a frame while the other is between a header and its payload. -/
theorem frames_whole_iff (events : List WriteEvent) :
    WholeFrames (stateAfter writeStep SharedStdout.empty events).written ↔
      AllSteps writeStep (fun s e => ¬ CutsIn s e) SharedStdout.empty events := by
  have hempty : SharedStdout.empty.Framed := ⟨[], Or.inl ⟨rfl, fun _ => rfl⟩⟩
  constructor
  · exact allSteps_of_whole hempty
  · intro h
    exact (stateAfter_invariant (fun s e hs hwaits => hs.step hwaits) hempty h).whole

/-- The answer to a ping, and a line of an answer, as JSON texts. -/
def pongJson : Bytes := lit "\x7b\"type\":\"pong\",\"id\":\"\",\"status\":\"ok\"\x7d"

def deltaJson : Bytes := lit "\x7b\"type\":\"text_delta\",\"id\":\"r\",\"text\":\"a\\n\"\x7d"

def pongEvents : List WriteEvent :=
  [.header .main deltaJson, .header .router pongJson, .payload .main, .payload .router]

/-- A ping is answered while the main thread is in the middle of a frame. -/
theorem pong_in_delta :
    ¬ ∀ events, WholeFrames (stateAfter writeStep SharedStdout.empty events).written := by
  intro hall
  have hwritten : (stateAfter writeStep SharedStdout.empty pongEvents).written =
        ([] ++ [.header .main deltaJson] ++ [.header .router pongJson]) ++
          [.payload .main deltaJson] ++ [.payload .router pongJson] := rfl
  have hwhole := hall pongEvents
  rw [hwritten] at hwhole
  exact not_wholeFrames_of_two_headers hwhole.of_snoc.of_snoc

end StarBridge
