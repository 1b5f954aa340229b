import StarBridge.SessionRuns
import StarBridge.TransportRuns

/-!
# Where the transports agree

An operation has no frame that needs `stdin_fd` exactly when it is `Silent`, a
condition on the state it starts in and on what it reads: a turn opens its
session without a failure, is acknowledged or plainly rejected, and meets
neither a foreign frame, nor silence until its deadline, nor a cancellation, nor
a frame that is too large.  Each phase of a turn has its own condition, and one
lemma that says so.
-/

namespace StarBridge

open CText Loops Runs

/-- No frame the engine has sent needs `stdin_fd`. -/
def EngineState.Hushed (eng : EngineState) : Prop := ∀ f ∈ eng.sent, f.needsStdin = false

/-- No frame of a list needs `stdin_fd`. -/
def HushedFrames (frames : List AgentFrame) : Prop := ∀ f ∈ frames, f.needsStdin = false

/-! ## The event loop -/

/-- The look at the control plane finds no cancellation that is the first. -/
def SilentControl (env : TurnEnv) (s : TurnState) (connections : List Bytes) : Prop :=
  env.controlPlane = true →
    s.engine.cancelled = true ∨ ∀ sent ∈ connections, isCancellation sent = false

/-- A frame with the id of the turn, with none, or of the agent's lifecycle. -/
def SilentFrame (env : TurnEnv) (frame : Bytes) : Prop :=
  let ev := nativeParseFrame env.parser frame
  ev.id = [] ∨ echoesId env frame ∨ ev.type.isLifecycle

/-- A round of the event loop that has nothing to report. -/
def SilentEvent (env : TurnEnv) (s : TurnState) : WireEvent → Prop
  | .control connections => SilentControl env s connections
  | .read (.frame text) _ => SilentFrame env text
  | .read .silent _ => 0 < s.remainingTimeout - env.pollMs s.remainingTimeout
  | .read .tooLarge _ => False

theorem hushed_append (eng : EngineState) (frame : BridgeFrame) :
    EngineState.Hushed { eng with sent := eng.sent ++ [frame] } ↔
      eng.Hushed ∧ frame.needsStdin = false := by
  unfold EngineState.Hushed
  rw [List.forall_mem_append, List.forall_mem_singleton]

/-- A report over the pipes is heard. -/
theorem not_hushed_sendError {env : TurnEnv} (hopen : env.stdinOpen = true)
    (errorType detail : Bytes) (eng : EngineState) :
    ¬ (eng.sendError env errorType detail).Hushed := by
  unfold EngineState.sendError
  rw [if_pos hopen]
  intro h
  have herror := ((hushed_append eng (.error errorType detail)).mp h).2
  cases herror

theorem engineCancel_hushed (requestId : Bytes) (eng : EngineState) :
    (engineCancel true requestId eng).Hushed ↔ eng.Hushed ∧ eng.cancelled = true := by
  unfold engineCancel
  split
  · rename_i hcancelled
    exact (and_iff_left hcancelled).symm
  · rename_i hcancelled
    constructor
    · intro h
      have hframe := ((hushed_append { eng with cancelled := true } (.cancel _)).mp h).2
      cases hframe
    · intro h
      exact absurd h.2 hcancelled

theorem handleMidturnControlPlane_hushed (codexModel requestId : Bytes) (eng : EngineState)
    (connections : List Bytes) :
    (handleMidturnControlPlane ⟨codexModel, requestId, true⟩ eng connections).Hushed ↔
      eng.Hushed ∧
        (eng.cancelled = true ∨ ∀ sent ∈ connections, isCancellation sent = false) := by
  unfold handleMidturnControlPlane
  induction connections generalizing eng with
  | nil => exact (and_iff_left (.inr fun _ h => absurd h List.not_mem_nil)).symm
  | cons sent rest ih =>
      rw [List.foldl_cons, serveMidturn_engine, ih, List.forall_mem_cons]
      cases hcancel : isCancellation sent with
      | false =>
          simp only [cond_false, true_and]
      | true =>
          have hflag : (engineCancel true requestId eng).cancelled = true := by
            unfold engineCancel
            split
            · assumption
            · rfl
          have hhushed := engineCancel_hushed requestId eng
          rw [cond_true]
          constructor
          · intro h
            exact ⟨(hhushed.mp h.1).1, .inl (hhushed.mp h.1).2⟩
          · intro h
            rcases h with ⟨hquiet, hdone | hnone⟩
            · exact ⟨hhushed.mpr ⟨hquiet, hdone⟩, .inl hflag⟩
            · cases hnone.1

section Loop

variable {env : TurnEnv} (hopen : env.stdinOpen = true) (s : TurnState)

include hopen

theorem serveControl_hushed (connections : List Bytes) :
    (s.serveControl env connections).engine.Hushed ↔
      s.engine.Hushed ∧ SilentControl env s connections := by
  unfold TurnState.serveControl SilentControl
  split
  · rename_i hplane
    have hcontrol : env.control = ⟨env.codexModel, env.requestId, true⟩ := by
      rw [TurnEnv.control, hopen]
    dsimp only
    rw [hcontrol, handleMidturnControlPlane_hushed, forall_prop_of_true hplane]
  · rename_i hplane
    exact (and_iff_left fun h => absurd h hplane).symm

theorem controlEvent_hushed (connections : List Bytes) :
    (controlEvent env s connections).Meets (fun t => t.engine.Hushed)
        (fun e => e.state.engine.Hushed) ↔
      s.engine.Hushed ∧ SilentControl env s connections := by
  rw [← serveControl_hushed hopen]
  unfold controlEvent
  dsimp only
  split
  · exact Iff.rfl
  · exact Iff.rfl

theorem idleEvent_hushed (late : List Bytes) :
    (idleEvent env s late).Meets (fun t => t.engine.Hushed)
        (fun e => e.state.engine.Hushed) ↔
      s.engine.Hushed ∧ 0 < s.remainingTimeout - env.pollMs s.remainingTimeout := by
  unfold idleEvent
  dsimp only
  split
  · rename_i hout
    constructor
    · intro h
      exact absurd h (not_hushed_sendError hopen _ _ _)
    · intro h
      exact absurd h.2 (not_lt.mpr hout)
  · rename_i hleft
    exact (and_iff_left (not_le.mp hleft)).symm

omit hopen in
/-- The event in a frame is answered through the connection, if at all. -/
theorem dispatchEvent_hushed (env : TurnEnv) (frame : Bytes) (ev : NativeEvent) :
    (dispatchEvent env s frame ev).Meets (fun t => t.engine.Hushed)
        (fun e => e.state.engine.Hushed) ↔ s.engine.Hushed := by
  have hanswers : ∀ eng, s.engine.Answers eng → (eng.Hushed ↔ s.engine.Hushed) := by
    rintro eng ⟨answers, rfl, htool⟩
    have hkept : ∀ f ∈ answers, f.needsStdin = false := by
      intro f hf
      have h := htool f hf
      cases f with
      | toolResult requestId toolName resultJson => rfl
      | toolError requestId toolName message => rfl
      | error errorType detail => exact h.elim
      | cancel requestId => exact h.elim
    unfold EngineState.Hushed
    rw [List.forall_mem_append]
    exact and_iff_left hkept
  have hengine := dispatchEvent_engine env s frame ev
  cases h : dispatchEvent env s frame ev with
  | running t =>
      rw [h] at hengine
      exact hanswers _ hengine
  | ended e =>
      rw [h] at hengine
      exact hanswers _ hengine

theorem frameEvent_hushed (frame : Bytes) :
    (frameEvent env s frame).Meets (fun t => t.engine.Hushed)
        (fun e => e.state.engine.Hushed) ↔
      s.engine.Hushed ∧ SilentFrame env frame := by
  unfold frameEvent SilentFrame
  dsimp only
  generalize nativeParseFrame env.parser frame = ev
  split
  · rename_i hforeign
    unfold foreignFrame
    split
    · rename_i hlifecycle
      exact (and_iff_left (.inr (.inr hlifecycle))).symm
    · rename_i hother
      constructor
      · intro h
        exact absurd h (not_hushed_sendError hopen _ _ _)
      · intro h
        rcases h.2 with hnone | hecho | hlifecycle
        · exact absurd hnone hforeign.1
        · exact absurd hecho hforeign.2
        · exact absurd hlifecycle hother
  · rename_i hown
    refine (dispatchEvent_hushed _ env frame ev).trans (and_iff_left ?_).symm
    by_cases hid : ev.id = []
    · exact .inl hid
    · exact .inr (.inl (not_not.mp fun hecho => hown ⟨hid, hecho⟩))

omit hopen in
/-- The test at the head of the loop writes nothing. -/
theorem settled_hushed (env : TurnEnv) (p : Progress TurnState TurnEnd) :
    (p.bind (settle env)).Meets (fun t => t.engine.Hushed) (fun e => e.state.engine.Hushed) ↔
      p.Meets (fun t => t.engine.Hushed) (fun e => e.state.engine.Hushed) := by
  cases p with
  | running t =>
      rw [Progress.bind_running]
      unfold settle
      split
      · exact Iff.rfl
      · exact Iff.rfl
  | ended e => exact Iff.rfl

theorem reads_hushed (read : WireRead) :
    (s.reads env read).engine.Hushed ↔ s.engine.Hushed ∧ read ≠ .tooLarge := by
  cases read with
  | frame text => exact (and_iff_left (by simp)).symm
  | silent => exact (and_iff_left (by simp)).symm
  | tooLarge =>
      constructor
      · intro h
        exact absurd h (not_hushed_sendError hopen _ _ _)
      · intro h
        exact absurd rfl h.2

/-- One round of the loop. -/
theorem wireEvent_hushed (e : WireEvent) :
    (wireEvent env s e).Meets (fun t => t.engine.Hushed)
        (fun e => e.state.engine.Hushed) ↔
      s.engine.Hushed ∧ SilentEvent env s e := by
  cases e with
  | control connections =>
      exact (settled_hushed env _).trans (controlEvent_hushed hopen s connections)
  | read read late =>
      cases read with
      | frame text => exact (settled_hushed env _).trans (frameEvent_hushed hopen s text)
      | silent => exact (settled_hushed env _).trans (idleEvent_hushed hopen s late)
      | tooLarge =>
          have hidle := (settled_hushed env _).trans
            (idleEvent_hushed hopen (s.reads env .tooLarge) late)
          rw [reads_hushed hopen] at hidle
          refine hidle.trans ?_
          constructor
          · intro h
            exact absurd rfl h.1.2
          · intro h
            exact h.2.elim

/-- The event loop of a turn that has nothing to report. -/
def SilentLoop (env : TurnEnv) (s : TurnState) (events : List WireEvent) : Prop :=
  (settle env (s.enter env)).Meets
    (fun t => Throughout (wireEvent env) (SilentEvent env) t events) fun _ => True

theorem wireProcessEvents_hushed (events : List WireEvent) :
    (wireProcessEvents env s events).Meets (fun t => t.engine.Hushed)
        (fun e => e.state.engine.Hushed) ↔
      s.engine.Hushed ∧ SilentLoop env s events := by
  have hrun := run_meets_iff (wireEvent_hushed hopen) (s.enter env) events
  unfold wireProcessEvents SilentLoop settle
  split
  · exact hrun
  · exact (and_iff_left trivial).symm

/-! ## The wait for the acknowledgement -/

omit hopen in
/-- A read of the wait that has nothing to report: an acknowledgement, a
rejection, or a frame that is skipped and not the last. -/
def SilentWait (env : TurnEnv) (s : Nat × TurnState) : WireRead → Prop
  | .frame ack =>
      match ackVerdict env ack with
      | none => 1 < s.1
      | some verdict => verdict.report = none
  | _ => False

theorem afterAck_hushed (e : AckEnd) :
    (s.afterAck env e).engine.Hushed ↔ s.engine.Hushed ∧ e.report = none := by
  have hreport : e.ok = true → e.report = none := by
    intro hok
    cases e with
    | accepted => rfl
    | timeout => cases hok
    | invalid => cases hok
    | busy retryMs => cases hok
    | rejected => cases hok
    | exhausted => cases hok
  unfold TurnState.afterAck
  split
  · rename_i hok
    exact (and_iff_left (hreport hok)).symm
  · cases e.report with
    | none => exact (and_iff_left rfl).symm
    | some report =>
        constructor
        · intro h
          exact absurd h (not_hushed_sendError hopen _ _ _)
        · intro h
          cases h.2

theorem ackStep_hushed (s : Nat × TurnState) (read : WireRead) :
    (ackStep env s read).Meets (fun t => t.2.engine.Hushed) (fun e => e.2.engine.Hushed) ↔
      s.2.engine.Hushed ∧ SilentWait env s read := by
  have htimeout : ∀ t : TurnState, ¬ (t.afterAck env .timeout).engine.Hushed := by
    intro t h
    cases ((afterAck_hushed hopen t .timeout).mp h).2
  cases read with
  | frame ack =>
      unfold ackStep SilentWait
      dsimp only [WireRead.text, TurnState.reads, engineReadFrame]
      cases hverdict : ackVerdict env ack with
      | none =>
          rw [ackRead_skipped hverdict]
          by_cases hlast : s.1 ≤ 1
          · rw [if_pos hlast]
            constructor
            · intro h
              cases ((afterAck_hushed hopen s.2 .exhausted).mp h).2
            · intro h
              exact absurd h.2 (not_lt.mpr hlast)
          · rw [if_neg hlast]
            exact (and_iff_left (not_le.mp hlast)).symm
      | some verdict =>
          rw [ackRead_decided hverdict]
          exact afterAck_hushed hopen s.2 verdict
  | silent =>
      constructor
      · intro h
        exact absurd h (htimeout _)
      · intro h
        exact h.2.elim
  | tooLarge =>
      constructor
      · intro h
        exact absurd h (htimeout _)
      · intro h
        exact h.2.elim

end Loop

/-- A wait and a loop that have nothing to report. -/
def SilentTalk (env : TurnEnv) (turn : FramedInput) : Prop :=
  Throughout (ackStep env) (SilentWait env) (5, turn.begun) turn.reads ∧
    ∀ e s, run (ackStep env) (5, turn.begun) turn.reads = .ended (e, s) → e.ok = true →
      SilentLoop env s turn.events

theorem talk_hushed {env : TurnEnv} (hopen : env.stdinOpen = true) (turn : FramedInput) :
    (turn.talk env).Meets (fun t => t.engine.Hushed) (fun e => e.state.engine.Hushed) ↔
      SilentTalk env turn := by
  have hbegun : turn.begun.engine.Hushed := fun _ h => absurd h List.not_mem_nil
  have hwait := run_meets_iff (ackStep_hushed hopen) (5, turn.begun) turn.reads
  unfold FramedInput.talk SilentTalk
  cases hrun : run (ackStep env) (5, turn.begun) turn.reads with
  | running s =>
      rw [hrun] at hwait
      constructor
      · intro h
        refine ⟨(hwait.mp h).2, ?_⟩
        intro e t hended
        cases hended
      · intro h
        exact hwait.mpr ⟨hbegun, h.1⟩
  | ended e =>
      obtain ⟨e, s⟩ := e
      rw [hrun] at hwait
      dsimp only
      by_cases hok : e.ok = true
      · have hloop := wireProcessEvents_hushed hopen s turn.events
        rw [if_pos hok]
        have hmap : ((wireProcessEvents env s turn.events).map id
            fun e => FramedTurn.mk (.processed e.outcome) e.state).Meets
              (fun t => t.engine.Hushed) (fun e => e.state.engine.Hushed) ↔
            (wireProcessEvents env s turn.events).Meets
              (fun t => t.engine.Hushed) (fun e => e.state.engine.Hushed) := by
          cases wireProcessEvents env s turn.events with
          | running t => exact Iff.rfl
          | ended e => exact Iff.rfl
        rw [hmap, hloop]
        constructor
        · intro h
          refine ⟨(hwait.mp h.1).2, ?_⟩
          intro e' s' hended _
          cases hended
          exact h.2
        · intro h
          exact ⟨hwait.mpr ⟨hbegun, h.1⟩, h.2 e s rfl hok⟩
      · rw [if_neg hok]
        constructor
        · intro h
          refine ⟨(hwait.mp h).2, ?_⟩
          intro e' s' hended hok'
          cases hended
          exact absurd hok' hok
        · intro h
          exact hwait.mpr ⟨hbegun, h.1⟩

/-! ## The session part of a turn -/

/-- An exchange in which the frame is sent and its answer an acceptance. -/
def Succeeds (frame : SessionFrame) (reply : AgentReply) : Prop :=
  frame.Fits ∧ reply.acknowledged = true

/-- The state of the session before can be saved, if it is to be. -/
def SilentSave (env : SessionEnv) (oldKey : Bytes) (w : SessionWorld) (t : TurnInput) : Prop :=
  ∀ stateId, w.index.lookup oldKey = some stateId → env.autoSaveKvCache = true →
    t.saveReply.acknowledged = true

/-- A switch to a session the index knows. -/
def SilentSwitch (env : SessionEnv) (key : Bytes) (w : SessionWorld) (t : TurnInput) : Prop :=
  SilentSave env (sessionKey env.workspace w.lastSessionId) w t ∧
    (env.canLoad = true →
      (w.index.lookup key).isSome ∧ t.openReply.acknowledged = true)

/-- A load of a compatible state that the index knows. -/
def SilentLoad (env : SessionEnv) (key : Bytes) (w : SessionWorld) (t : TurnInput) : Prop :=
  env.canLoad = true →
    (w.index.lookup key).isSome ∧ Compatible env w.index key ∧
      t.openReply.acknowledged = true

/-- The session that is named is the last one, or can be opened. -/
def SilentNamed (env : SessionEnv) (w : SessionWorld) (t : TurnInput) (sessionId : Bytes) :
    Prop :=
  let key := sessionKey env.workspace sessionId
  key ≠ [] →
    if w.lastSessionId = [] then SilentLoad env key (reloadIndex env w) t
    else w.lastSessionId ≠ sessionId → SilentSwitch env key (reloadIndex env w) t

/-- A session can be created. -/
def SilentCreate (env : SessionEnv) (key : Bytes) (t : TurnInput) : Prop :=
  Succeeds (.createState key env.workspace env.codexModel env.contextTokens t.metadata)
    t.openReply

/-- The default session can be loaded or created. -/
def SilentDefault (env : SessionEnv) (w : SessionWorld) (t : TurnInput) : Prop :=
  let key := sessionKey env.workspace (lit "default")
  key ≠ [] →
    match (reloadIndex env w).index.lookup key with
    | some _ => Compatible env (reloadIndex env w).index key ∧ t.openReply.acknowledged = true
    | none => SilentCreate env key t

/-- The session part of a turn has nothing to report. -/
def SilentOpening (env : SessionEnv) (w : SessionWorld) (t : TurnInput) : Prop :=
  if t.resetSession = true then
    sessionKey env.workspace (resetSessionId t) ≠ [] →
      SilentCreate env (sessionKey env.workspace (resetSessionId t)) t
  else if t.previousResponseId ≠ [] then SilentNamed env w t t.previousResponseId
  else if w.lastSessionId ≠ [] then SilentNamed env w t w.lastSessionId
  else env.canLoad = true → SilentDefault env w t

theorem hushedFrames_append (first second : List AgentFrame) :
    HushedFrames (first ++ second) ↔ HushedFrames first ∧ HushedFrames second :=
  List.forall_mem_append

theorem withReports_append (env : SessionEnv) (large : SessionFrame → Bool)
    (first second : List AgentFrame) :
    withReports env large (first ++ second) =
      withReports env large first ++ withReports env large second :=
  List.flatMap_append

section Sessions

variable {env : SessionEnv} (hopen : env.stdinOpen = true) (large : SessionFrame → Bool)

include hopen

theorem not_hushed_report (errorType detail : Bytes) :
    ¬ HushedFrames (withReports env large (engineSendError env errorType detail)) := by
  unfold engineSendError
  rw [if_pos hopen]
  intro h
  cases h (.error errorType detail) (List.mem_singleton_self _)

theorem exchange_hushed (frame : SessionFrame) (reply : AgentReply)
    (onAck : Bytes → SessionWorld → SessionWorld) (w : SessionWorld) :
    HushedFrames (withReports env large (exchange frame reply onAck w).frames) ↔
      (frame.Fits → large frame = false) := by
  rw [exchange_frames]
  by_cases hfits : frame.Fits
  · rw [if_pos hfits, forall_prop_of_true hfits]
    have hone : withReports env large [.session frame] = reported env large (.session frame) :=
      List.flatMap_singleton ..
    rw [hone]
    dsimp only [reported]
    cases large frame with
    | false => exact iff_of_true (fun f hf => by rw [List.mem_singleton.mp hf]; rfl) rfl
    | true =>
        unfold engineSendError
        rw [if_pos rfl, if_pos hopen]
        refine iff_of_false ?_ Bool.noConfusion
        intro h
        cases h (.error _ _) (List.mem_cons_of_mem _ (List.mem_singleton_self _))
  · rw [if_neg hfits]
    exact iff_of_true (fun f hf => absurd hf List.not_mem_nil) fun h => absurd h hfits

/-- A step that reports its failure. -/
theorem openOrReport_hushed {frame : SessionFrame} {reply : AgentReply}
    (hlarge : large frame = true → reply.acknowledged = false)
    (key errorType detail : Bytes) (onAck : Bytes → SessionWorld → SessionWorld)
    (w : SessionWorld) :
    HushedFrames (withReports env large
        (openOrReport env key errorType detail (exchange frame reply onAck w)).frames) ↔
      Succeeds frame reply := by
  have hexchange := exchange_hushed hopen large frame reply onAck w
  have hok := exchange_ok frame reply onAck w
  unfold openOrReport Succeeds
  split
  · rename_i h
    rw [hok, Bool.and_eq_true, decide_eq_true_eq] at h
    refine iff_of_true (hexchange.mpr fun _ => ?_) h
    by_contra hbig
    have hack := hlarge (Bool.not_eq_false _ ▸ hbig)
    rw [hack] at h
    cases h.2
  · rename_i h
    rw [hok, Bool.and_eq_true, decide_eq_true_eq] at h
    refine iff_of_false ?_ h
    rw [withReports_append, hushedFrames_append]
    exact fun hboth => not_hushed_report hopen large errorType detail hboth.2

omit hopen in
theorem openAs_frames (env : SessionEnv) (key sessionId errorType detail : Bytes)
    (step : SessionStep) :
    (openAs env key sessionId errorType detail step).frames =
      (openOrReport env key errorType detail step).frames := by
  unfold openAs openOrReport
  split
  · rfl
  · rfl

theorem openAs_hushed {frame : SessionFrame} {reply : AgentReply}
    (hlarge : large frame = true → reply.acknowledged = false)
    (key sessionId errorType detail : Bytes) (onAck : Bytes → SessionWorld → SessionWorld)
    (w : SessionWorld) :
    HushedFrames (withReports env large
        (openAs env key sessionId errorType detail (exchange frame reply onAck w)).frames) ↔
      Succeeds frame reply := by
  rw [openAs_frames]
  exact openOrReport_hushed hopen large hlarge key errorType detail onAck w

/-- The checks before a load report exactly the states that are not compatible. -/
theorem checkStored_hushed (index : SessionIndex) (key stateId what : Bytes) :
    HushedFrames (withReports env large (checkStored env index key stateId what).2) ↔
      Compatible env index key := by
  have hany : ∀ (o : Option Bytes) x, o.any (· ≠ x) = !o.all (· = x) := by
    intro o x
    cases o with
    | none => rfl
    | some y => simp
  unfold checkStored Compatible
  rw [hany, hany]
  cases (index.getWorkspace key).all (· = env.workspace) with
  | false => exact iff_of_false (not_hushed_report hopen large _ _) fun h => by cases h.1
  | true =>
      cases (index.getModelId key).all (· = env.codexModel) with
      | false => exact iff_of_false (not_hushed_report hopen large _ _) fun h => by cases h.2
      | true => exact iff_of_true (fun f hf => absurd hf List.not_mem_nil) ⟨rfl, rfl⟩

variable {t : TurnInput}
  (hsave : ∀ key stateId, large (.saveState key stateId) = true →
    t.saveReply.acknowledged = false)
  (hload : ∀ key stateId, large (.loadState key stateId) = true →
    t.openReply.acknowledged = false)
  (hswitch : ∀ fromKey key stateId, large (.switchState fromKey key stateId) = true →
    t.openReply.acknowledged = false)
  (hcreate : ∀ key root model budget metadata,
    large (.createState key root model budget metadata) = true →
      t.openReply.acknowledged = false)

include hsave in
theorem savePrevious_hushed (oldKey : Bytes) (w : SessionWorld) :
    HushedFrames (withReports env large (savePrevious env oldKey w t).2) ↔
      SilentSave env oldKey w t := by
  unfold savePrevious SilentSave
  cases hlookup : w.index.lookup oldKey with
  | none =>
      refine iff_of_true (fun f hf => absurd hf List.not_mem_nil) ?_
      intro stateId hsome
      cases hsome
  | some stateId =>
      have hfits : (SessionFrame.saveState oldKey stateId).Fits :=
        SessionFrame.fits_of_bufferSize rfl
      have hstep := openOrReport_hushed hopen large (hsave oldKey stateId) oldKey
        (lit "session_save_failure") (lit "failed to save previous session state")
        (fun _ w => w) w
      dsimp only
      by_cases hauto : env.autoSaveKvCache = true
      · rw [if_pos hauto]
        have hframes : ∀ step : SessionStep,
            step.frames ++ (if step.ok = true then [] else
              engineSendError env (lit "session_save_failure")
                (lit "failed to save previous session state")) =
            (openOrReport env oldKey (lit "session_save_failure")
              (lit "failed to save previous session state") step).frames := by
          intro step
          unfold openOrReport
          split
          · exact List.append_nil _
          · rfl
        dsimp only
        rw [hframes]
        refine hstep.trans ?_
        constructor
        · intro h stateId' _ _
          exact h.2
        · intro h
          exact ⟨hfits, h stateId rfl hauto⟩
      · rw [if_neg hauto]
        exact iff_of_true (fun f hf => absurd hf List.not_mem_nil)
          fun _ _ h => absurd h hauto

include hsave hswitch in
theorem switchSession_hushed (key : Bytes) (w : SessionWorld) :
    HushedFrames (withReports env large (switchSession env key w t).frames) ↔
      SilentSwitch env key w t := by
  have hsaved := savePrevious_hushed hopen large hsave
    (sessionKey env.workspace w.lastSessionId) w
  have hindex : (savePrevious env (sessionKey env.workspace w.lastSessionId) w t).1.index =
      w.index := (savePrevious_keeps env w t _ none).1
  unfold switchSession SilentSwitch
  dsimp only
  rw [withReports_append, hushedFrames_append, hsaved, hindex]
  refine and_congr_right fun _ => ?_
  cases w.index.lookup key with
  | none =>
      dsimp only
      split
      · rename_i hcan
        exact iff_of_false (not_hushed_report hopen large _ _) fun h => by cases (h hcan).1
      · rename_i hcan
        exact iff_of_true (fun f hf => absurd hf List.not_mem_nil) fun h => absurd h hcan
  | some stateId =>
      dsimp only
      split
      · rename_i hcan
        refine (openOrReport_hushed hopen large (hswitch _ key stateId) key _ _ _ _).trans ?_
        rw [forall_prop_of_true hcan]
        exact and_congr_left fun _ => iff_of_true (SessionFrame.fits_of_bufferSize rfl) rfl
      · rename_i hcan
        exact iff_of_true (fun f hf => absurd hf List.not_mem_nil) fun h => absurd h hcan

include hload in
theorem firstLoad_hushed (key : Bytes) (w : SessionWorld) :
    HushedFrames (withReports env large (firstLoad env key w t).frames) ↔
      SilentLoad env key w t := by
  unfold firstLoad SilentLoad
  cases w.index.lookup key with
  | none =>
      dsimp only
      split
      · rename_i hcan
        exact iff_of_false (not_hushed_report hopen large _ _) fun h => by cases (h hcan).1
      · rename_i hcan
        exact iff_of_true (fun f hf => absurd hf List.not_mem_nil) fun h => absurd h hcan
  | some stateId =>
      dsimp only
      split
      · rename_i hcan
        have hfst := checkStored_fst env w.index key stateId (lit "load saved state")
        have hchecked := checkStored_hushed hopen large w.index key stateId
          (lit "load saved state")
        generalize checkStored env w.index key stateId (lit "load saved state") = checked
          at hfst hchecked
        obtain ⟨usable, errors⟩ := checked
        dsimp only at hfst hchecked
        rw [hfst, forall_prop_of_true hcan]
        by_cases hcompatible : Compatible env w.index key
        · rw [if_pos hcompatible]
          refine (openOrReport_hushed hopen large (hload key stateId) key _ _ _ _).trans ?_
          constructor
          · intro h
            exact ⟨rfl, hcompatible, h.2⟩
          · intro h
            exact ⟨SessionFrame.fits_of_bufferSize rfl, h.2.2⟩
        · rw [if_neg hcompatible]
          exact iff_of_false (fun h => hcompatible (hchecked.mp h)) fun h => hcompatible h.2.1
      · rename_i hcan
        exact iff_of_true (fun f hf => absurd hf List.not_mem_nil) fun h => absurd h hcan

include hsave hload hswitch in
theorem beginNamed_hushed (w : SessionWorld) (sessionId : Bytes) :
    HushedFrames (withReports env large (beginNamed env w t sessionId).frames) ↔
      SilentNamed env w t sessionId := by
  have hlast : (reloadIndex env w).lastSessionId = w.lastSessionId := rfl
  have hnothing : HushedFrames (withReports env large []) :=
    fun f hf => absurd hf List.not_mem_nil
  unfold beginNamed SilentNamed
  dsimp only
  by_cases hkey : sessionKey env.workspace sessionId = []
  · rw [if_pos hkey]
    exact iff_of_true hnothing fun h => absurd hkey h
  · rw [if_neg hkey, forall_prop_of_true hkey, hlast]
    by_cases hnew : w.lastSessionId = []
    · rw [if_neg fun h => h.1 hnew, if_pos hnew, if_pos hnew]
      exact firstLoad_hushed hopen large hload _ _
    · rw [if_neg hnew, if_neg hnew]
      by_cases hsame : w.lastSessionId = sessionId
      · rw [if_neg fun h => h.2 hsame]
        exact iff_of_true hnothing fun h => absurd hsame h
      · rw [if_pos ⟨hnew, hsame⟩, forall_prop_of_true hsame]
        exact switchSession_hushed hopen large hsave hswitch _ _

include hload hcreate in
theorem beginDefault_hushed (w : SessionWorld) :
    HushedFrames (withReports env large (beginDefault env w t).frames) ↔
      SilentDefault env w t := by
  unfold beginDefault SilentDefault
  dsimp only
  by_cases hkey : sessionKey env.workspace (lit "default") = []
  · rw [if_pos hkey]
    exact iff_of_true (fun f hf => absurd hf List.not_mem_nil) fun h => absurd hkey h
  · rw [if_neg hkey, forall_prop_of_true hkey]
    generalize sessionKey env.workspace (lit "default") = key
    unfold usableDefault
    dsimp only
    rw [withReports_append, hushedFrames_append]
    cases hlookup : (reloadIndex env w).index.lookup key with
    | none =>
        refine (and_iff_right fun f hf => absurd hf List.not_mem_nil).trans ?_
        exact openAs_hushed hopen large (hcreate key _ _ _ _) _ _ _ _ _ _
    | some stateId =>
        have hfst := checkStored_fst env (reloadIndex env w).index key stateId
          (lit "restore default session")
        have hchecked := checkStored_hushed hopen large (reloadIndex env w).index key stateId
          (lit "restore default session")
        dsimp only
        rw [hchecked, hfst]
        by_cases hcompatible : Compatible env (reloadIndex env w).index key
        · rw [if_pos hcompatible]
          refine and_congr_right fun _ => ?_
          refine (openAs_hushed hopen large (hload key stateId) _ _ _ _ _ _).trans ?_
          exact and_iff_right (SessionFrame.fits_of_bufferSize rfl)
        · exact iff_of_false (fun h => hcompatible h.1) fun h => hcompatible h.1

include hsave hload hswitch hcreate in
/-- **The session part of a turn**, exactly. -/
theorem beginSession_hushed (w : SessionWorld) :
    HushedFrames (withReports env large (beginSession env w t).frames) ↔
      SilentOpening env w t := by
  have hnamed := beginNamed_hushed hopen large hsave hload hswitch w
  unfold beginSession SilentOpening
  by_cases hreset : t.resetSession = true
  · rw [if_pos hreset, if_pos hreset]
    unfold beginReset
    dsimp only
    by_cases hkey : sessionKey env.workspace (resetSessionId t) = []
    · rw [if_pos hkey]
      exact iff_of_true (fun f hf => absurd hf List.not_mem_nil) fun h => absurd hkey h
    · rw [if_neg hkey, forall_prop_of_true hkey]
      exact openAs_hushed hopen large (hcreate _ _ _ _ _) _ _ _ _ _ _
  · rw [if_neg hreset, if_neg hreset]
    by_cases hprevious : t.previousResponseId ≠ []
    · rw [if_pos hprevious, if_pos hprevious]
      exact hnamed _
    · rw [if_neg hprevious, if_neg hprevious]
      by_cases hlast : w.lastSessionId ≠ []
      · rw [if_pos hlast, if_pos hlast]
        exact hnamed _
      · rw [if_neg hlast, if_neg hlast]
        by_cases hcan : env.canLoad = true
        · rw [if_pos hcan, forall_prop_of_true hcan]
          exact beginDefault_hushed hopen large hload hcreate w
        · rw [if_neg hcan]
          exact iff_of_true (fun f hf => absurd hf List.not_mem_nil) fun h => absurd h hcan

end Sessions

/-! ## Operations -/

/-- The save at the end of a completed turn is answered by a frame that can be
read. -/
def SilentFinalSave (env : SessionEnv) (w : SessionWorld) (turn : FramedInput) : Prop :=
  ∀ f, finalSaveFrame env w = some f →
    (turn.input.finalSaveReply.ack.isNone && turn.large.finalSave) = false

/-- A turn that has nothing to report. -/
structure SilentTurn (env : SessionEnv) (engine : FramedEngine) (turn : FramedInput) : Prop where
  opening : SilentOpening env engine.world turn.input
  talk : SilentTalk (turn.turnEnv.over .stdioFramed) turn
  finalSave : ∀ e, turn.talk (turn.turnEnv.over .stdioFramed) = .ended e →
    e.outcome = .processed .completed →
      SilentFinalSave env (beginSession (env.over .stdioFramed) engine.world
        turn.input).world turn

/-- An operation that has no frame to write that needs `stdin_fd`: a turn
without anything to report, or a cancellation of what is cancelled. -/
def Silent (env : SessionEnv) (engine : FramedEngine) (op : EngineOp) : Prop :=
  engine.phase = .ready →
    match op with
    | .turn turn => SilentTurn env engine turn
    | .cancel => engine.cancelled = true
    | .sendError _ _ => False
    | .destroy _ => False

variable (env : SessionEnv)

theorem session_hushed (frames : List AgentFrame) :
    (∀ f ∈ frames.map WrittenFrame.session, f.needsStdin = false) ↔ HushedFrames frames :=
  List.forall_mem_map

theorem turn_hushed (eng : EngineState) :
    (∀ f ∈ eng.sent.map WrittenFrame.turn, f.needsStdin = false) ↔ eng.Hushed :=
  List.forall_mem_map

/-- An answer that is too large to read is no acknowledgement. -/
theorem acknowledged_of_large {reply : AgentReply} {large : Bool}
    (h : (reply.ack.isNone && large) = true) : reply.acknowledged = false := by
  unfold AgentReply.acknowledged
  cases hack : reply.ack with
  | none => rfl
  | some ack =>
      rw [hack] at h
      cases h

theorem opening_hushed (engine : FramedEngine) (turn : FramedInput) :
    HushedFrames (withReports (env.over .stdioFramed) turn.meetsLarge
        (turnBegin (env.over .stdioFramed) engine.world turn.input).frames) ↔
      SilentOpening env engine.world turn.input := by
  have hopen : (env.over .stdioFramed).stdinOpen = true := rfl
  have hsession := beginSession_hushed hopen turn.meetsLarge
    (t := turn.input) (fun _ _ h => acknowledged_of_large h)
    (fun _ _ h => acknowledged_of_large h) (fun _ _ _ h => acknowledged_of_large h)
    (fun _ _ _ _ _ h => acknowledged_of_large h) engine.world
  unfold turnBegin
  rw [withReports_append, hushedFrames_append, hsession]
  refine and_iff_left ?_
  intro f hf
  have hrequest := List.mem_singleton.mp hf
  rw [hrequest]
  rfl

theorem finalSave_hushed (turn : FramedInput) (w : SessionWorld) :
    HushedFrames (turn.save (env.over .stdioFramed) w).2 ↔ SilentFinalSave env w turn := by
  unfold FramedInput.save SilentFinalSave
  dsimp only
  rw [finalSaveFrame_sent]
  have hframe : finalSaveFrame (env.over .stdioFramed) w = finalSaveFrame env w := rfl
  rw [hframe]
  cases finalSaveFrame env w with
  | none => exact iff_of_true (fun f hf => absurd hf List.not_mem_nil) fun f hf => by cases hf
  | some f =>
      generalize (turn.input.finalSaveReply.ack.isNone && turn.large.finalSave) = large
      cases large with
      | false =>
          refine iff_of_true ?_ fun _ _ => rfl
          intro g hg
          rw [List.mem_singleton.mp hg]
          rfl
      | true =>
          refine iff_of_false ?_ fun h => Bool.noConfusion (h f rfl)
          intro h
          cases h (.error _ _) (List.mem_cons_of_mem _ (List.mem_singleton_self _))

theorem runFramed_hushed (engine : FramedEngine) (turn : FramedInput) :
    (∀ f ∈ (runFramed env .stdioFramed engine turn).written, f.needsStdin = false) ↔
      SilentTurn env engine turn := by
  have hopening := opening_hushed env engine turn
  have hopen : (turn.turnEnv.over .stdioFramed).stdinOpen = true := rfl
  have htalk := talk_hushed hopen turn
  have hworld : (turnBegin (env.over .stdioFramed) engine.world turn.input).outcome.world =
      (beginSession (env.over .stdioFramed) engine.world turn.input).world := rfl
  unfold runFramed
  dsimp only
  rw [hworld]
  cases h : turn.talk (turn.turnEnv.over .stdioFramed) with
  | running s =>
      rw [h] at htalk
      dsimp only
      rw [List.forall_mem_append, session_hushed, turn_hushed, hopening]
      constructor
      · intro hall
        refine ⟨hall.1, htalk.mp hall.2, ?_⟩
        intro e hended
        rw [h] at hended
        cases hended
      · intro hsilent
        exact ⟨hsilent.opening, htalk.mpr hsilent.talk⟩
  | ended e =>
      rw [h] at htalk
      dsimp only
      rw [List.forall_mem_append, List.forall_mem_append, session_hushed, turn_hushed,
        session_hushed, hopening]
      by_cases hdone : e.outcome = .processed .completed
      · rw [if_pos hdone, finalSave_hushed]
        constructor
        · intro hall
          refine ⟨hall.1.1, htalk.mp hall.1.2, ?_⟩
          intro e' _ _
          exact hall.2
        · intro hsilent
          exact ⟨⟨hsilent.opening, htalk.mpr hsilent.talk⟩, hsilent.finalSave e h hdone⟩
      · rw [if_neg hdone]
        constructor
        · intro hall
          refine ⟨hall.1.1, htalk.mp hall.1.2, ?_⟩
          intro e' hended hdone'
          rw [h] at hended
          cases hended
          exact absurd hdone' hdone
        · intro hsilent
          exact ⟨⟨hsilent.opening, htalk.mpr hsilent.talk⟩, fun f hf => absurd hf List.not_mem_nil⟩

theorem engineOp_hushed (engine : FramedEngine) (op : EngineOp) :
    (∀ f ∈ (engineOp env .stdioFramed engine op).written, f.needsStdin = false) ↔
      Silent env engine op := by
  unfold engineOp Silent
  by_cases hready : engine.phase = .ready
  · rw [if_pos hready, forall_prop_of_true hready]
    cases op with
    | turn turn => exact runFramed_hushed env engine turn
    | cancel =>
        have hcancel := engineCancel_hushed engine.currentRequestId
          ⟨engine.cancelled, engine.turnActive, []⟩
        refine (turn_hushed _).trans (hcancel.trans (and_iff_right ?_))
        exact fun f hf => absurd hf List.not_mem_nil
    | sendError errorType detail =>
        refine iff_of_false ?_ id
        intro h
        cases h (.session (.error errorType detail)) (List.mem_singleton_self _)
    | destroy ack =>
        refine iff_of_false ?_ id
        intro h
        cases h .shutdown List.mem_cons_self
  · rw [if_neg hready]
    exact iff_of_true (fun f hf => absurd hf List.not_mem_nil) fun h => absurd h hready

end StarBridge
