import Mathlib.Data.Nat.Count
import Mathlib.Data.Set.Basic
import StarBridge.Runs
import StarBridge.ToolRunner

/-!
# The capture loop of the tool runner

`tool_runner_run` captures what its child prints in a loop: it polls both pipes,
reads once from each that has data, and asks with `waitpid` whether the child has
ended.  Two things end the loop: a `waitpid` that finds the child ended, and a
poll that times out when the budget of `timeout_ms` is used up.

The loop leaves at the first such `waitpid`, whatever is still in the pipe
(`tool_output_iff`), and only polls that time out use up the budget
(`capture_bounded_iff`).
-/

namespace StarBridge

open CText Runs

/-! ## The loop -/

/-- What `poll` reports: nothing within 50 ms, which of the pipes has data
(neither when one is only hung up), or EINTR, which leaves the two flags as they
happen to be. -/
inductive PollOutcome
  | timeout
  | ready (out err : Bool)
  | interrupted (out err : Bool)
  deriving DecidableEq, Repr

/-- `POLLIN` of the pipe of stdout. -/
def PollOutcome.out : PollOutcome → Bool
  | .timeout => false
  | .ready out _ => out
  | .interrupted out _ => out

/-- `POLLIN` of the pipe of stderr. -/
def PollOutcome.err : PollOutcome → Bool
  | .timeout => false
  | .ready _ err => err
  | .interrupted _ err => err

/-- The variables of the loop, and what it did to the child. -/
structure CaptureState where
  timeoutMs : Int
  stdoutBuf : Bytes
  stderrBuf : Bytes
  truncated : Bool
  timedOut : Bool
  exited : Bool
  killed : Bool
  reaped : Bool
  deriving DecidableEq

namespace CaptureState

/-- In front of the loop. -/
def start (timeoutMs : Int) : CaptureState := ⟨timeoutMs, [], [], false, false, false, false, false⟩

/-- The poll: a timeout uses up 50 ms, and the last of them kills the child. -/
def poll (s : CaptureState) (outcome : PollOutcome) : CaptureState :=
  if outcome = .timeout ∧ 0 < s.timeoutMs then
    if s.timeoutMs - 50 ≤ 0 then
      { s with timeoutMs := s.timeoutMs - 50, timedOut := true, killed := true, reaped := true }
    else { s with timeoutMs := s.timeoutMs - 50 }
  else s

/-- A read of stdout. -/
def readOut (s : CaptureState) (chunk : Bytes) : CaptureState :=
  if chunk = [] then s
  else
    let read := captureRead 65536 (s.stdoutBuf, s.truncated) chunk
    { s with stdoutBuf := read.1, truncated := read.2 }

/-- A read of stderr. -/
def readErr (s : CaptureState) (chunk : Bytes) : CaptureState :=
  if chunk = [] then s
  else
    let read := captureRead 8192 (s.stderrBuf, s.truncated) chunk
    { s with stderrBuf := read.1, truncated := read.2 }

/-- The `waitpid` that does not wait. -/
def waitpid (s : CaptureState) (ended : Bool) : CaptureState :=
  if ended then { s with exited := true, reaped := true } else s

/-- `result_json`. -/
def resultJson (s : CaptureState) : Bytes :=
  if cstr s.stdoutBuf = [] then lit "\x7b\x7d" else clip 65536 (cstr s.stdoutBuf)

end CaptureState

/-! ## A child that prints -/

/-- Where the loop is: in front of a poll, of the two reads (with the flags of
the poll), of `waitpid`, or behind its end. -/
inductive CapturePhase
  | poll
  | readOut (out err : Bool)
  | readErr (err : Bool)
  | wait
  | over
  deriving DecidableEq

/-- The child, its pipes and the loop; `written` is all the child has written to
stdout. -/
structure ToolSystem where
  outPipe : Bytes
  errPipe : Bytes
  written : Bytes
  childExited : Bool
  capture : CaptureState
  phase : CapturePhase
  deriving DecidableEq

/-- A step of the child or of the loop. -/
inductive ToolEvent
  | childWrites (bytes : Bytes)
  | childWritesErr (bytes : Bytes)
  | childExits
  | polls (outcome : PollOutcome)
  | reads
  | waits
  deriving DecidableEq

/-- A poll reports what is in the pipes. -/
def PollOutcome.Truthful (outcome : PollOutcome) (out err : Bytes) : Prop :=
  match outcome with
  | .timeout => out = [] ∧ err = []
  | .ready o e => (o = true ↔ out ≠ []) ∧ (e = true ↔ err ≠ [])
  | .interrupted _ _ => True

instance (outcome : PollOutcome) (out err : Bytes) : Decidable (outcome.Truthful out err) := by
  unfold PollOutcome.Truthful
  split <;> infer_instance

/-- One step.  A step that is not possible is none. -/
def toolStep (s : ToolSystem) : ToolEvent → ToolSystem
  | .childWrites bytes =>
      if s.childExited = false ∧ 0 ∉ bytes then
        { s with outPipe := s.outPipe ++ bytes, written := s.written ++ bytes }
      else s
  | .childWritesErr bytes =>
      if s.childExited = false then { s with errPipe := s.errPipe ++ bytes } else s
  | .childExits => { s with childExited := true }
  | .polls outcome =>
      if s.phase = .poll ∧ outcome.Truthful s.outPipe s.errPipe then
        let capture := s.capture.poll outcome
        if capture.timedOut then { s with capture, childExited := true, phase := .over }
        else { s with capture, phase := .readOut outcome.out outcome.err }
      else s
  | .reads =>
      match s.phase with
      | .readOut true err =>
          { s with capture := s.capture.readOut (s.outPipe.take 1024)
                   outPipe := s.outPipe.drop 1024, phase := .readErr err }
      | .readOut false err => { s with phase := .readErr err }
      | .readErr true =>
          { s with capture := s.capture.readErr (s.errPipe.take 512)
                   errPipe := s.errPipe.drop 512, phase := .wait }
      | .readErr false => { s with phase := .wait }
      | _ => s
  | .waits =>
      if s.phase = .wait then
        { s with capture := s.capture.waitpid s.childExited
                 phase := if s.childExited then .over else .poll }
      else s

namespace ToolSystem

/-- A child that has just been spawned. -/
def start (timeoutMs : Int) : ToolSystem :=
  ⟨[], [], [], false, CaptureState.start timeoutMs, .poll⟩

/-- At the end all the child wrote is in `result_json`, or one of the flags is
set. -/
def Complete (s : ToolSystem) : Prop :=
  s.phase = .over →
    s.written <+: s.capture.resultJson ∨ s.capture.truncated = true ∨ s.capture.timedOut = true

/-- A `waitpid` that finds the child ended finds its pipe empty, unless output
was cut before.  (Where nothing was read the result is a pair of braces, and what
was lost may be just that.) -/
def Drained (s : ToolSystem) (e : ToolEvent) : Prop :=
  s.phase = .wait → e = .waits → s.childExited = true →
    s.outPipe = [] ∨ s.capture.truncated = true ∨
      (s.capture.stdoutBuf = [] ∧ s.outPipe <+: lit "\x7b\x7d")

/-- While nothing was cut, the buffer and the pipe hold what the child wrote. -/
structure Sound (s : ToolSystem) : Prop where
  noZero : 0 ∉ s.written
  holds : s.capture.truncated = false → s.capture.stdoutBuf ++ s.outPipe = s.written
  room : s.capture.stdoutBuf.length < 65535
  running : s.phase ≠ .over → s.capture.timedOut = false

theorem start_sound (timeoutMs : Int) : (start timeoutMs).Sound where
  noZero := by simp [start]
  holds _ := rfl
  room := by simp [start, CaptureState.start]
  running _ := rfl

/-- A read of stdout moves bytes from the pipe to the buffer, or cuts them. -/
theorem readOut_sound {capture : CaptureState} {written chunk rest : Bytes}
    (hholds : capture.truncated = false → capture.stdoutBuf ++ (chunk ++ rest) = written)
    (hroom : capture.stdoutBuf.length < 65535) :
    ((capture.readOut chunk).truncated = false →
        (capture.readOut chunk).stdoutBuf ++ rest = written) ∧
      (capture.readOut chunk).stdoutBuf.length < 65535 ∧
      (capture.readOut chunk).timedOut = capture.timedOut := by
  unfold CaptureState.readOut captureRead
  by_cases hchunk : chunk = []
  · rw [if_pos hchunk]
    rw [hchunk, List.nil_append] at hholds
    exact ⟨hholds, hroom, rfl⟩
  rw [if_neg hchunk]
  dsimp only
  split
  · rename_i hspace
    refine ⟨(by intro hcut; cases hcut), ?_, rfl⟩
    simp only [List.length_append, List.length_take]
    omega
  · rename_i hspace
    refine ⟨fun h => ?_, ?_, rfl⟩
    · rw [List.append_assoc]
      exact hholds h
    · simp only [List.length_append]
      omega

/-- A read of stderr leaves what was read of stdout. -/
theorem readErr_keeps (capture : CaptureState) (chunk : Bytes) :
    (capture.readErr chunk).stdoutBuf = capture.stdoutBuf ∧
      ((capture.readErr chunk).truncated = false → capture.truncated = false) ∧
      (capture.readErr chunk).timedOut = capture.timedOut := by
  unfold CaptureState.readErr captureRead
  by_cases hchunk : chunk = []
  · rw [if_pos hchunk]
    exact ⟨rfl, fun h => h, rfl⟩
  rw [if_neg hchunk]
  dsimp only
  split
  · exact ⟨rfl, (by intro hcut; cases hcut), rfl⟩
  · exact ⟨rfl, fun h => h, rfl⟩

/-- A poll changes nothing but the budget and what comes of it. -/
theorem poll_keeps (capture : CaptureState) (outcome : PollOutcome) :
    (capture.poll outcome).stdoutBuf = capture.stdoutBuf ∧
      (capture.poll outcome).truncated = capture.truncated := by
  unfold CaptureState.poll
  split
  · split <;> exact ⟨rfl, rfl⟩
  · exact ⟨rfl, rfl⟩

/-- **Every step keeps the output together.** -/
theorem Sound.step {s : ToolSystem} (h : s.Sound) (e : ToolEvent) : (toolStep s e).Sound := by
  cases e with
  | childWrites bytes =>
      rw [toolStep]
      split
      · rename_i hwrites
        exact
          { noZero := fun hmem => (List.mem_append.mp hmem).elim h.noZero hwrites.2
            holds := fun hcut => by
              rw [← h.holds hcut, List.append_assoc]
            room := h.room
            running := h.running }
      · exact h
  | childWritesErr bytes =>
      rw [toolStep]
      split
      · exact ⟨h.noZero, h.holds, h.room, h.running⟩
      · exact h
  | childExits => exact ⟨h.noZero, h.holds, h.room, h.running⟩
  | polls outcome =>
      obtain ⟨hbuf, hcut⟩ := poll_keeps s.capture outcome
      rw [toolStep]
      split
      · dsimp only
        split
        · exact ⟨h.noZero, by rw [hbuf, hcut]; exact h.holds, by rw [hbuf]; exact h.room,
            fun hover => (hover rfl).elim⟩
        · rename_i hrunning
          exact ⟨h.noZero, by rw [hbuf, hcut]; exact h.holds, by rw [hbuf]; exact h.room,
            fun _ => Bool.eq_false_iff.mpr hrunning⟩
      · exact h
  | reads =>
      rw [toolStep]
      split
      · rename_i err hphase
        have hpipe : s.capture.truncated = false →
            s.capture.stdoutBuf ++ (s.outPipe.take 1024 ++ s.outPipe.drop 1024) = s.written := by
          rw [List.take_append_drop]
          exact h.holds
        obtain ⟨hholds, hroom, htimedOut⟩ := readOut_sound hpipe h.room
        exact ⟨h.noZero, hholds, hroom, fun _ => by
          rw [htimedOut]
          exact h.running (by rw [hphase]; exact CapturePhase.noConfusion)⟩
      · rename_i err hphase
        exact ⟨h.noZero, h.holds, h.room, fun _ =>
          h.running (by rw [hphase]; exact CapturePhase.noConfusion)⟩
      · rename_i hphase
        obtain ⟨hbuf, hcut, htimedOut⟩ := readErr_keeps s.capture (s.errPipe.take 512)
        exact ⟨h.noZero, fun hnot => by rw [hbuf]; exact h.holds (hcut hnot),
          by rw [hbuf]; exact h.room, fun _ => by
            rw [htimedOut]
            exact h.running (by rw [hphase]; exact CapturePhase.noConfusion)⟩
      · rename_i hphase
        exact ⟨h.noZero, h.holds, h.room, fun _ =>
          h.running (by rw [hphase]; exact CapturePhase.noConfusion)⟩
      · exact h
  | waits =>
      rw [toolStep]
      split
      · rename_i hphase
        have hrunning := h.running (by rw [hphase]; exact CapturePhase.noConfusion)
        unfold CaptureState.waitpid
        split <;> exact ⟨h.noZero, h.holds, h.room, fun _ => hrunning⟩
      · exact h

/-- A step that leads to the end decides whether the output is complete. -/
theorem complete_of_over {s : ToolSystem} (h : s.Sound) (hphase : s.phase ≠ .over)
    (e : ToolEvent) (hover : (toolStep s e).phase = .over) :
    (toolStep s e).Complete ↔ s.Drained e := by
  cases e with
  | childWrites bytes =>
      rw [toolStep] at hover
      split at hover <;> exact absurd hover hphase
  | childWritesErr bytes =>
      rw [toolStep] at hover
      split at hover <;> exact absurd hover hphase
  | childExits => exact absurd hover hphase
  | reads =>
      rw [toolStep] at hover
      split at hover
      · cases hover
      · cases hover
      · cases hover
      · cases hover
      · exact absurd hover hphase
  | polls outcome =>
      refine iff_of_true ?_ (fun _ hwaits => by cases hwaits)
      intro _
      rw [toolStep] at hover ⊢
      split at hover
      · rename_i hpoll
        rw [if_pos hpoll]
        dsimp only at hover ⊢
        split at hover
        · rename_i htimedOut
          rw [if_pos htimedOut]
          exact .inr (.inr htimedOut)
        · cases hover
      · exact absurd hover hphase
  | waits =>
      rw [toolStep] at hover
      split at hover
      · rename_i hwait
        have hexited : s.childExited = true := by
          by_contra hnot
          rw [if_neg hnot] at hover
          cases hover
        have hrunning := h.running hphase
        have hstep : toolStep s .waits =
            { s with capture := s.capture.waitpid true, phase := .over } := by
          rw [toolStep, if_pos hwait, hexited, if_pos rfl]
        rw [hstep]
        -- what is left in the pipe is what is missing in the result
        have hresult : s.capture.truncated = false →
            (s.written <+: s.capture.resultJson ↔
              s.outPipe = [] ∨ (s.capture.stdoutBuf = [] ∧ s.outPipe <+: lit "\x7b\x7d")) := by
          intro hcut
          have hholds := h.holds hcut
          have hzero : 0 ∉ s.capture.stdoutBuf := fun hmem =>
            h.noZero (hholds ▸ List.mem_append_left _ hmem)
          have hcstr : cstr s.capture.stdoutBuf = s.capture.stdoutBuf := upTo_eq_self hzero
          unfold CaptureState.resultJson
          rw [hcstr, ← hholds]
          by_cases hbuf : s.capture.stdoutBuf = []
          · rw [if_pos hbuf, hbuf, List.nil_append]
            refine ⟨fun hpre => .inr ⟨rfl, hpre⟩, ?_⟩
            rintro (hempty | ⟨-, hpre⟩)
            · rw [hempty]
              exact List.nil_prefix
            · exact hpre
          · rw [if_neg hbuf, clip_eq_self (Nat.lt_trans h.room (by decide))]
            constructor
            · intro hpre
              have hlength := hpre.length_le
              rw [List.length_append] at hlength
              exact .inl (List.length_eq_zero_iff.mp (by omega))
            · rintro (hempty | ⟨hnil, -⟩)
              · rw [hempty, List.append_nil]
              · exact absurd hnil hbuf
        constructor
        · intro hcomplete _ _ _
          rcases hcomplete rfl with hwritten | hcut | htimedOut
          · cases htruncated : s.capture.truncated with
            | true => exact .inr (.inl rfl)
            | false => exact ((hresult htruncated).mp hwritten).imp id .inr
          · exact .inr (.inl hcut)
          · exact absurd (hrunning.symm.trans htimedOut) Bool.false_ne_true
        · intro hdrained _
          cases htruncated : s.capture.truncated with
          | true => exact .inr (.inl htruncated)
          | false =>
              refine .inl ((hresult htruncated).mpr ?_)
              rcases hdrained hwait rfl hexited with hempty | hcut | hbraces
              · exact .inl hempty
              · rw [htruncated] at hcut
                cases hcut
              · exact .inr hbraces
      · exact absurd hover hphase

/-- Behind the end nothing happens. -/
theorem step_over {s : ToolSystem} (hphase : s.phase = .over) (hexited : s.childExited = true)
    (e : ToolEvent) : toolStep s e = s := by
  cases e with
  | childWrites bytes => simp [toolStep, hexited]
  | childWritesErr bytes => simp [toolStep, hexited]
  | childExits => rw [toolStep, ← hexited]
  | polls outcome => simp [toolStep, hphase]
  | reads => simp [toolStep, hphase]
  | waits => simp [toolStep, hphase]

/-- The loop ends when the child has. -/
theorem exited_of_over {s : ToolSystem} (hphase : s.phase ≠ .over) (e : ToolEvent)
    (hover : (toolStep s e).phase = .over) : (toolStep s e).childExited = true := by
  cases e with
  | childWrites bytes =>
      rw [toolStep] at hover
      split at hover <;> exact absurd hover hphase
  | childWritesErr bytes =>
      rw [toolStep] at hover
      split at hover <;> exact absurd hover hphase
  | childExits => rfl
  | reads =>
      rw [toolStep] at hover
      split at hover
      · cases hover
      · cases hover
      · cases hover
      · cases hover
      · exact absurd hover hphase
  | polls outcome =>
      rw [toolStep] at hover ⊢
      split at hover
      · rename_i hpoll
        rw [if_pos hpoll]
        dsimp only at hover ⊢
        split at hover
        · rename_i htimedOut
          rw [if_pos htimedOut]
        · cases hover
      · exact absurd hover hphase
  | waits =>
      rw [toolStep] at hover ⊢
      split at hover
      · rename_i hwait
        rw [if_pos hwait]
        by_contra hnot
        rw [if_neg hnot] at hover
        cases hover
      · exact absurd hover hphase

/-- A step that does not end the loop meets the condition. -/
theorem drained_of_not_over {s : ToolSystem} {e : ToolEvent}
    (hover : (toolStep s e).phase ≠ .over) : s.Drained e := by
  intro hwait hwaits hexited
  subst hwaits
  refine absurd ?_ hover
  rw [toolStep, if_pos hwait, hexited, if_pos rfl]

/-- The end of a run from a sound state, by the steps of the run. -/
theorem complete_iff_drained {s : ToolSystem} (h : s.Sound) (hphase : s.phase ≠ .over)
    (events : List ToolEvent) :
    (stateAfter toolStep s events).Complete ↔ AllSteps toolStep Drained s events := by
  induction events generalizing s with
  | nil => exact iff_of_true (fun hover => absurd hover hphase) trivial
  | cons e events ih =>
      rw [stateAfter_cons, AllSteps]
      by_cases hover : (toolStep s e).phase = .over
      · have hexited := exited_of_over hphase e hover
        have hrest : ∀ events, stateAfter toolStep (toolStep s e) events = toolStep s e ∧
            AllSteps toolStep Drained (toolStep s e) events := by
          intro events
          induction events with
          | nil => exact ⟨rfl, trivial⟩
          | cons e' events ih' =>
              have hstay := step_over hover hexited e'
              rw [stateAfter_cons, AllSteps, hstay]
              exact ⟨ih'.1, (fun hwait => by rw [hover] at hwait; cases hwait), ih'.2⟩
        rw [(hrest events).1, complete_of_over h hphase e hover]
        exact (and_iff_left (hrest events).2).symm
      · rw [ih (h.step e) hover]
        exact (and_iff_right (drained_of_not_over hover)).symm

/-- **What is captured.**  In every state a run reaches the output is complete
exactly when each `waitpid` of the run that finds the child ended finds its pipe
empty, or output cut before. -/
theorem tool_output_iff (timeoutMs : Int) (events : List ToolEvent) :
    (∀ front, front <+: events → (stateAfter toolStep (start timeoutMs) front).Complete) ↔
      AllSteps toolStep Drained (start timeoutMs) events := by
  have hrun := complete_iff_drained (start_sound timeoutMs) CapturePhase.noConfusion
  constructor
  · intro h
    exact (hrun events).mp (h events List.prefix_rfl)
  · rintro h front ⟨back, rfl⟩
    exact (hrun front).mpr (AllSteps.append_iff.mp h).1

/-- A child that prints and ends between a poll that timed out and `waitpid`: the
result is empty. -/
theorem output_lost_at_exit :
    ¬ (stateAfter toolStep (start 5000)
      [.polls .timeout, .reads, .reads, .childWrites (lit "hello"), .childExits,
        .waits]).Complete := by
  intro h
  exact absurd (h (by decide)) (by decide +kernel)

end ToolSystem

/-! ## A child that does not end -/

/-- One iteration: what the poll reports, and what the reads bring if there is
something to be read. -/
structure CaptureRound where
  poll : PollOutcome
  out : Bytes
  err : Bytes

namespace CaptureState

/-- The reads of an iteration. -/
def reads (s : CaptureState) (r : CaptureRound) : CaptureState :=
  let s := if r.poll.out then s.readOut r.out else s
  if r.poll.err then s.readErr r.err else s

/-- An iteration with a child that goes on. -/
def round (s : CaptureState) (r : CaptureRound) : CaptureState :=
  let s := s.poll r.poll
  if s.timedOut then s else (s.reads r).waitpid false

/-- The loop after `n` iterations, if it has not been left before. -/
def after (timeoutMs : Int) (rounds : Nat → CaptureRound) : Nat → CaptureState
  | 0 => start timeoutMs
  | n + 1 =>
      let s := after timeoutMs rounds n
      if s.timedOut then s else s.round (rounds n)

/-- The loop was left on the timeout: the child was killed and reaped. -/
def Ended (s : CaptureState) : Prop := s.timedOut = true ∧ s.killed = true ∧ s.reaped = true

/-- One number of iterations is enough for all these sequences. -/
def Bounded (timeoutMs : Int) (sequences : Set (Nat → CaptureRound)) : Prop :=
  ∃ bound, ∀ rounds ∈ sequences, (after timeoutMs rounds bound).Ended

end CaptureState

/-- How many of the first `n` polls time out. -/
def timeouts (rounds : Nat → CaptureRound) (n : Nat) : Nat :=
  Nat.count (fun i => (rounds i).poll = .timeout) n

namespace CaptureState

/-- The reads leave the budget alone. -/
theorem readOut_budget (s : CaptureState) (chunk : Bytes) :
    (s.readOut chunk).timeoutMs = s.timeoutMs ∧ (s.readOut chunk).timedOut = s.timedOut := by
  unfold readOut
  split <;> exact ⟨rfl, rfl⟩

theorem readErr_budget (s : CaptureState) (chunk : Bytes) :
    (s.readErr chunk).timeoutMs = s.timeoutMs ∧ (s.readErr chunk).timedOut = s.timedOut := by
  unfold readErr
  split <;> exact ⟨rfl, rfl⟩

theorem reads_budget (s : CaptureState) (r : CaptureRound) :
    (s.reads r).timeoutMs = s.timeoutMs ∧ (s.reads r).timedOut = s.timedOut := by
  unfold reads
  have hout : (if r.poll.out then s.readOut r.out else s).timeoutMs = s.timeoutMs ∧
      (if r.poll.out then s.readOut r.out else s).timedOut = s.timedOut := by
    split
    · exact s.readOut_budget r.out
    · exact ⟨rfl, rfl⟩
  dsimp only
  split
  · have herr := readErr_budget (if r.poll.out then s.readOut r.out else s) r.err
    exact ⟨herr.1.trans hout.1, herr.2.trans hout.2⟩
  · exact hout

/-- An iteration whose poll does not end the loop leaves what the poll left of the
budget. -/
theorem round_of_poll {s : CaptureState} {r : CaptureRound}
    (h : (s.poll r.poll).timedOut = false) :
    (s.round r).timedOut = false ∧ (s.round r).timeoutMs = (s.poll r.poll).timeoutMs := by
  unfold round
  dsimp only
  rw [if_neg (Bool.eq_false_iff.mp h)]
  obtain ⟨hbudget, htimedOut⟩ := (s.poll r.poll).reads_budget r
  exact ⟨htimedOut.trans h, hbudget⟩

/-- What an iteration does to the budget. -/
theorem round_budget {s : CaptureState} (hrunning : s.timedOut = false)
    (hpos : 0 < s.timeoutMs) (r : CaptureRound) :
    if r.poll = .timeout then
      if s.timeoutMs ≤ 50 then (s.round r).Ended
      else (s.round r).timedOut = false ∧ (s.round r).timeoutMs = s.timeoutMs - 50
    else (s.round r).timedOut = false ∧ (s.round r).timeoutMs = s.timeoutMs := by
  by_cases htimeout : r.poll = .timeout
  · rw [if_pos htimeout]
    by_cases hlast : s.timeoutMs ≤ 50
    · have hpoll : s.poll r.poll =
          { s with timeoutMs := s.timeoutMs - 50, timedOut := true, killed := true,
                   reaped := true } := by
        rw [poll, if_pos ⟨htimeout, hpos⟩, if_pos (show s.timeoutMs - 50 ≤ 0 by omega)]
      rw [if_pos hlast, round, hpoll]
      exact ⟨rfl, rfl, rfl⟩
    · have hpoll : s.poll r.poll = { s with timeoutMs := s.timeoutMs - 50 } := by
        rw [poll, if_pos ⟨htimeout, hpos⟩, if_neg (show ¬ s.timeoutMs - 50 ≤ 0 by omega)]
      have hround := round_of_poll (s := s) (r := r) (by rw [hpoll]; exact hrunning)
      rw [hpoll] at hround
      rw [if_neg hlast]
      exact hround
  · have hpoll : s.poll r.poll = s := by
      rw [poll, if_neg fun h => htimeout h.1]
    have hround := round_of_poll (s := s) (r := r) (by rw [hpoll]; exact hrunning)
    rw [hpoll] at hround
    rw [if_neg htimeout]
    exact hround

/-- Only polls that time out use up the budget. -/
theorem after_cases {timeoutMs : Int} (hpos : 0 < timeoutMs) (rounds : Nat → CaptureRound)
    (n : Nat) :
    if timeoutMs ≤ 50 * (timeouts rounds n : Int) then (after timeoutMs rounds n).Ended
    else (after timeoutMs rounds n).timedOut = false ∧
      (after timeoutMs rounds n).timeoutMs = timeoutMs - 50 * (timeouts rounds n : Int) := by
  induction n with
  | zero =>
      have hzero : timeouts rounds 0 = 0 := Nat.count_zero _
      rw [hzero, if_neg (by omega)]
      exact ⟨rfl, by simp [after, start]⟩
  | succ n ih =>
      have hcount : timeouts rounds (n + 1) =
          timeouts rounds n + if (rounds n).poll = .timeout then 1 else 0 :=
        Nat.count_succ _ n
      rw [after]
      by_cases hspent : timeoutMs ≤ 50 * (timeouts rounds n : Int)
      · rw [if_pos hspent] at ih
        have hspent' : timeoutMs ≤ 50 * (timeouts rounds (n + 1) : Int) := by
          rw [hcount]
          push_cast
          split <;> omega
        rw [if_pos hspent', if_pos ih.1]
        exact ih
      · rw [if_neg hspent] at ih
        obtain ⟨hrunning, hbudget⟩ := ih
        rw [if_neg (Bool.eq_false_iff.mp hrunning)]
        have hround := round_budget hrunning (by omega) (rounds n)
        by_cases htimeout : (rounds n).poll = .timeout
        · rw [if_pos htimeout] at hcount hround
          rw [hcount]
          push_cast
          by_cases hlast : (after timeoutMs rounds n).timeoutMs ≤ 50
          · rw [if_pos hlast] at hround
            rw [if_pos (by omega)]
            exact hround
          · rw [if_neg hlast] at hround
            rw [if_neg (by omega)]
            exact ⟨hround.1, by omega⟩
        · rw [if_neg htimeout] at hcount hround
          rw [hcount, Nat.add_zero, if_neg hspent]
          exact ⟨hround.1, by omega⟩

/-- The loop has been left once enough polls have timed out. -/
theorem ended_iff {timeoutMs : Int} (hpos : 0 < timeoutMs) (rounds : Nat → CaptureRound)
    (n : Nat) :
    (after timeoutMs rounds n).Ended ↔ timeoutMs ≤ 50 * (timeouts rounds n : Int) := by
  have hcases := after_cases hpos rounds n
  by_cases hspent : timeoutMs ≤ 50 * (timeouts rounds n : Int)
  · rw [if_pos hspent] at hcases
    exact iff_of_true hcases hspent
  · rw [if_neg hspent] at hcases
    refine iff_of_false (fun hended => ?_) hspent
    rw [hended.1] at hcases
    cases hcases.1

/-- A child that closes its output and goes on. -/
def hungUp : Nat → CaptureRound := fun _ => ⟨.ready false false, [], []⟩

theorem timeouts_hungUp (n : Nat) : timeouts hungUp n = 0 :=
  Nat.count_of_forall_not fun _ _ => PollOutcome.noConfusion

/-- **How long a run takes.**  No number of iterations is enough for all
sequences of polls; one is enough for some of them exactly when in each of these
as many polls have timed out by then as the budget has times 50 ms. -/
theorem capture_bounded_iff {timeoutMs : Int} (hpos : 0 < timeoutMs) :
    ¬ Bounded timeoutMs Set.univ ∧
      ∀ sequences, Bounded timeoutMs sequences ↔
        ∃ bound, ∀ rounds ∈ sequences, timeoutMs ≤ 50 * (timeouts rounds bound : Int) := by
  constructor
  · rintro ⟨bound, hbound⟩
    have hended := (ended_iff hpos hungUp bound).mp (hbound hungUp (Set.mem_univ _))
    rw [timeouts_hungUp] at hended
    omega
  · intro sequences
    unfold Bounded
    simp only [ended_iff hpos]

/-- The budget of `shell_command` in the sample configuration. -/
theorem capture_bounded_iff_five_seconds :
    ¬ Bounded 5000 Set.univ ∧
      ∀ sequences, Bounded 5000 sequences ↔
        ∃ bound, ∀ rounds ∈ sequences, (5000 : Int) ≤ 50 * (timeouts rounds bound : Int) :=
  capture_bounded_iff (by decide)

/-- A child that closes its output and goes on is never killed. -/
theorem hung_up_child_runs_on :
    ¬ ∃ bound, ∀ rounds : Nat → CaptureRound, (after 5000 rounds bound).Ended := by
  rintro ⟨bound, hbound⟩
  have hended := (ended_iff (by decide) hungUp bound).mp (hbound hungUp)
  rw [timeouts_hungUp] at hended
  omega

end CaptureState

end StarBridge
