import StarBridge.Runs

/-!
# The effort tracker of the wrapper

`main` of the wrapper keeps the live ds4 session and, beside it, the reasoning effort it
was launched with.  A request with another effort restarts the session; one with
`reset_session` starts a fresh one.

A request without an effort sets the tracker back although the session goes on with its
own, and no request looks whether there is a session at all.
`effort_tracker_iff` says which runs have neither.

Efforts are whatever the frames carry, compared for equality.  The environment decides
whether a start succeeds and when the agent exits.
-/

namespace StarBridge

open Runs

variable {ε : Type*} [DecidableEq ε]

/-! ## The main loop -/

/-- A `Ds4PersistentSession`, and whether its agent runs. -/
structure Ds4Session (ε : Type*) where
  ctx : Int
  reasoningEffort : Option ε
  runtimeHome : String
  live : Bool
  deriving DecidableEq, Repr

/-- `DS4_CONTEXT_TOKENS` and what `ds4_runtime_home` returns. -/
structure WrapperMainEnv where
  contextTokensEnv : Option Int
  runtimeHome : String

/-- `resolve_context_tokens`. -/
def resolveContextTokens (env : WrapperMainEnv) (requestContextTokens : Option Int) : Int :=
  match env.contextTokensEnv with
  | some tokens => tokens
  | none =>
      match requestContextTokens with
      | some tokens => if tokens = 0 then 150000 else tokens
      | none => 150000

/-- What `handle_request` takes from a request frame. -/
structure EffortRequest (ε : Type*) where
  resetSession : Bool
  reasoningEffort : Option ε
  contextTokens : Option Int
  deriving DecidableEq, Repr

/-- What happens to the agent in the course of a request: whether a session starts, where
a reset puts its home, and whether the agent has exited in the end. -/
structure RequestFate where
  starts : Bool
  resetHome : String
  exits : Bool
  deriving DecidableEq, Repr

/-- The variables of `main`; `running` until an exception leaves it. -/
structure WrapperMain (ε : Type*) where
  session : Option (Ds4Session ε)
  currentReasoningEffort : Option ε
  running : Bool
  deriving DecidableEq, Repr

/-- What a request came to. -/
inductive RequestOutcome
  /-- The prompt was streamed; a session was started before that. -/
  | streamed (started : Bool)
  /-- The error frame `effort_change_failed`. -/
  | effortChangeFailed
  /-- An exception that nothing catches. -/
  | raised
  deriving DecidableEq, Repr

/-- A frame for the main loop, or the exit of the agent between two of them. -/
inductive WrapperMainEvent (ε : Type*)
  | request (r : EffortRequest ε) (fate : RequestFate)
  | exit
  deriving DecidableEq, Repr

/-- The agent exits. -/
def WrapperMain.exitAgent (s : WrapperMain ε) : WrapperMain ε :=
  { s with session := s.session.map fun session => { session with live := false } }

/-- `apply_effort_change`: the new session, if it starts. -/
def applyEffortChange (env : WrapperMainEnv) (current : Option (Ds4Session ε))
    (reasoningEffort : ε) (contextTokens : Option Int) (starts : Bool) :
    Option (Ds4Session ε) :=
  let runtimeHome := (current.map Ds4Session.runtimeHome).getD env.runtimeHome
  if starts then
    some { ctx := resolveContextTokens env contextTokens
           reasoningEffort := some reasoningEffort
           runtimeHome := runtimeHome
           live := true }
  else none

/-- What `main` does with a request, up to the prompt. -/
def prepareRequest (env : WrapperMainEnv) (s : WrapperMain ε) (r : EffortRequest ε)
    (fate : RequestFate) : WrapperMain ε × RequestOutcome :=
  if r.resetSession then
    let session : Ds4Session ε :=
      { ctx := resolveContextTokens env r.contextTokens
        reasoningEffort := r.reasoningEffort
        runtimeHome := fate.resetHome
        live := fate.starts }
    if fate.starts then
      ({ s with session := some session, currentReasoningEffort := r.reasoningEffort },
        .streamed true)
    else ({ s with session := some session, running := false }, .raised)
  else
    match r.reasoningEffort with
    | some effort =>
        if some effort ≠ s.currentReasoningEffort then
          match applyEffortChange env s.session effort r.contextTokens fate.starts with
          | some session =>
              ({ s with session := some session, currentReasoningEffort := some effort },
                .streamed true)
          | none => ({ s with session := none }, .effortChangeFailed)
        else (s, .streamed false)
    | none => ({ s with currentReasoningEffort := none }, .streamed false)

/-- One request, with its turn. -/
def handleRequest (env : WrapperMainEnv) (s : WrapperMain ε) (r : EffortRequest ε)
    (fate : RequestFate) : WrapperMain ε :=
  if fate.exits then (prepareRequest env s r fate).1.exitAgent else (prepareRequest env s r fate).1

/-- One step of `main`. -/
def wrapperMainStep (env : WrapperMainEnv) (s : WrapperMain ε) :
    WrapperMainEvent ε → WrapperMain ε
  | .request r fate => if s.running then handleRequest env s r fate else s
  | .exit => s.exitAgent

/-- What a step handled: the state a request came to, its outcome, and the state behind
it.  A request that ends in an exception is not handled. -/
def handledRequests (env : WrapperMainEnv) (s : WrapperMain ε) :
    WrapperMainEvent ε → List (WrapperMain ε × RequestOutcome × WrapperMain ε)
  | .request r fate =>
      if s.running ∧ (prepareRequest env s r fate).2 ≠ .raised then
        [(s, (prepareRequest env s r fate).2, handleRequest env s r fate)]
      else []
  | .exit => []

/-- `main` when the bridge has said hello and the session has started. -/
def WrapperMain.start (env : WrapperMainEnv) : WrapperMain ε :=
  ⟨some ⟨env.contextTokensEnv.getD 150000, none, env.runtimeHome, true⟩, none, true⟩

/-! ## What the tracker is for -/

/-- There is a session, and its agent runs. -/
def WrapperMain.HasLive (s : WrapperMain ε) : Prop :=
  ∃ session ∈ s.session, session.live = true

/-- The tracker says what the live session was launched with. -/
def WrapperMain.TellsTruth (s : WrapperMain ε) : Prop :=
  ∀ session ∈ s.session, session.live = true → s.currentReasoningEffort = session.reasoningEffort

/-- The request left the tracker true, and its prompt was not streamed without a session:
there was one, or one was started. -/
def WellHandled (handled : WrapperMain ε × RequestOutcome × WrapperMain ε) : Prop :=
  handled.2.2.TellsTruth ∧ (handled.2.1 = .streamed false → handled.1.HasLive)

/-- The step is a request that neither resets the session nor changes the effort, and
there is no live session; or it has no effort, the live session has one, and outlives it. -/
def NeglectsSession (s : WrapperMain ε) : WrapperMainEvent ε → Prop
  | .request r fate =>
      s.running = true ∧ r.resetSession = false ∧
        ((r.reasoningEffort = none ∨ r.reasoningEffort = s.currentReasoningEffort) ∧
            ¬ s.HasLive ∨
          r.reasoningEffort = none ∧ s.currentReasoningEffort ≠ none ∧ s.HasLive ∧
            fate.exits = false)
  | .exit => False

omit [DecidableEq ε] in
theorem tellsTruth_exitAgent (s : WrapperMain ε) : s.exitAgent.TellsTruth := by
  intro session hsession hlive
  cases hold : s.session with
  | none =>
      rw [WrapperMain.exitAgent, hold] at hsession
      cases hsession
  | some old =>
      rw [WrapperMain.exitAgent, hold] at hsession
      obtain rfl := Option.some.inj hsession
      cases hlive

omit [DecidableEq ε] in
/-- A state that tells the truth does so when its turn is over. -/
theorem WrapperMain.TellsTruth.afterTurn {s : WrapperMain ε} (h : s.TellsTruth) (exits : Bool) :
    (if exits then s.exitAgent else s).TellsTruth := by
  cases exits with
  | true => exact tellsTruth_exitAgent s
  | false => exact h

/-- The request starts a session: it resets the old one, or changes the effort. -/
def StartsSession (s : WrapperMain ε) (r : EffortRequest ε) : Prop :=
  r.resetSession = true ∨
    r.reasoningEffort ≠ none ∧ r.reasoningEffort ≠ s.currentReasoningEffort

/-- **What becomes of a request**, in cases. -/
theorem prepareRequest_cases (env : WrapperMainEnv) (s : WrapperMain ε) (r : EffortRequest ε)
    (fate : RequestFate) :
    (r.resetSession = true ∧ (prepareRequest env s r fate).2 = .raised ∧
        (prepareRequest env s r fate).1.running = false) ∨
      (StartsSession s r ∧ ((prepareRequest env s r fate).2 = .streamed true ∨
          (prepareRequest env s r fate).2 = .effortChangeFailed) ∧
        (prepareRequest env s r fate).1.TellsTruth) ∨
      (¬ StartsSession s r ∧ prepareRequest env s r fate =
        ({ s with currentReasoningEffort := r.reasoningEffort }, .streamed false)) := by
  unfold prepareRequest StartsSession
  cases hreset : r.resetSession with
  | true =>
      cases hstarts : fate.starts with
      | true =>
          refine Or.inr (Or.inl ⟨Or.inl rfl, Or.inl rfl, ?_⟩)
          intro session hsession _
          obtain rfl := Option.some.inj hsession
          rfl
      | false => exact Or.inl ⟨rfl, rfl, rfl⟩
  | false =>
      cases heffort : r.reasoningEffort with
      | none => exact Or.inr (Or.inr ⟨by simp, rfl⟩)
      | some effort =>
          by_cases hchange : some effort = s.currentReasoningEffort
          · refine Or.inr (Or.inr ⟨by simp [hchange], ?_⟩)
            simp [hchange]
          · refine Or.inr (Or.inl ⟨Or.inr ⟨by simp, hchange⟩, ?_⟩)
            cases hstarts : fate.starts with
            | true =>
                simp only [applyEffortChange, ne_eq, hchange, not_false_eq_true, if_true,
                  Bool.false_eq_true, if_false]
                refine ⟨Or.inl trivial, ?_⟩
                intro session hsession _
                obtain rfl := Option.some.inj hsession
                rfl
            | false =>
                simp only [applyEffortChange, ne_eq, hchange, not_false_eq_true, if_true,
                  Bool.false_eq_true, if_false]
                refine ⟨Or.inr trivial, ?_⟩
                intro session hsession _
                cases hsession

omit [DecidableEq ε] in
/-- A request that starts no session neglects it iff the session is not live, or the
tracker is set back under it. -/
theorem neglectsSession_iff {s : WrapperMain ε} {r : EffortRequest ε} (h : ¬ StartsSession s r)
    (hrunning : s.running = true) (fate : RequestFate) :
    NeglectsSession s (.request r fate) ↔
      ¬ s.HasLive ∨ (s.HasLive ∧ r.reasoningEffort ≠ s.currentReasoningEffort ∧
        fate.exits = false) := by
  rw [StartsSession, not_or, Bool.not_eq_true, not_and_or, not_not, not_not] at h
  obtain ⟨hreset, heffort⟩ := h
  unfold NeglectsSession
  constructor
  · rintro ⟨-, -, ⟨-, hdead⟩ | ⟨hnone, hsome, hlive, hstays⟩⟩
    · exact Or.inl hdead
    · exact Or.inr ⟨hlive, by rw [hnone]; exact hsome.symm, hstays⟩
  · rintro (hdead | ⟨hlive, hchange, hstays⟩)
    · exact ⟨hrunning, hreset, Or.inl ⟨heffort, hdead⟩⟩
    · have hnone := heffort.resolve_right hchange
      refine ⟨hrunning, hreset, Or.inr ⟨hnone, ?_, hlive, hstays⟩⟩
      rw [hnone] at hchange
      exact hchange.symm

/-- **One request** is handled well iff it does not neglect the session. -/
theorem wellHandled_iff {s : WrapperMain ε} (htruth : s.TellsTruth) (hrunning : s.running = true)
    (env : WrapperMainEnv) (r : EffortRequest ε) (fate : RequestFate)
    (hreturns : (prepareRequest env s r fate).2 ≠ .raised) :
    WellHandled (s, (prepareRequest env s r fate).2, handleRequest env s r fate) ↔
      ¬ NeglectsSession s (.request r fate) := by
  rcases prepareRequest_cases env s r fate with
    ⟨-, hraised, -⟩ | ⟨hstarts, hout, htold⟩ | ⟨hnone, hprepared⟩
  · exact absurd hraised hreturns
  · have hstarted : (prepareRequest env s r fate).2 ≠ .streamed false := by
      rcases hout with hout | hout <;> simp [hout]
    refine iff_of_true ⟨htold.afterTurn fate.exits, fun h => absurd h hstarted⟩ ?_
    rintro ⟨-, hreset, hneglects⟩
    obtain ⟨hsome, hchange⟩ := hstarts.resolve_left (by rw [hreset]; simp)
    rcases hneglects with ⟨hnone | hsame, -⟩ | ⟨hnone, -⟩
    · exact hsome hnone
    · exact hchange hsame
    · exact hsome hnone
  · rw [neglectsSession_iff hnone hrunning, WellHandled, handleRequest, hprepared]
    by_cases hlive : s.HasLive
    · obtain ⟨session, hsession, hruns⟩ := hlive
      have htold := htruth session hsession hruns
      have hhas : s.HasLive := ⟨session, hsession, hruns⟩
      rw [and_iff_left fun _ => hhas, not_or, not_not, and_iff_right hhas, not_and]
      cases hexits : fate.exits with
      | true => exact iff_of_true (tellsTruth_exitAgent _) (by simp)
      | false =>
          constructor
          · intro hafter _ hbad
            exact hbad.1 ((hafter session hsession hruns).trans htold.symm)
          · intro hkeeps session' hsession' hruns'
            have hsame : r.reasoningEffort = s.currentReasoningEffort := by
              by_contra hchange
              exact hkeeps hhas ⟨hchange, rfl⟩
            show r.reasoningEffort = session'.reasoningEffort
            rw [hsame]
            exact htruth session' hsession' hruns'
    · refine iff_of_false (fun h => hlive (h.2 rfl)) fun h => h (Or.inl hlive)

theorem of_raised {env : WrapperMainEnv} {s : WrapperMain ε} {r : EffortRequest ε}
    {fate : RequestFate} (h : (prepareRequest env s r fate).2 = .raised) :
    r.resetSession = true ∧ (prepareRequest env s r fate).1.running = false := by
  rcases prepareRequest_cases env s r fate with
    ⟨hreset, -, hstopped⟩ | ⟨-, hout | hout, -⟩ | ⟨-, hprepared⟩
  · exact ⟨hreset, hstopped⟩
  · cases hout.symm.trans h
  · cases hout.symm.trans h
  · rw [hprepared] at h
    cases h

theorem handleRequest_running (env : WrapperMainEnv) (s : WrapperMain ε) (r : EffortRequest ε)
    (fate : RequestFate) :
    (handleRequest env s r fate).running = (prepareRequest env s r fate).1.running := by
  unfold handleRequest
  split
  · rfl
  · rfl

/-- The tracker is true as long as `main` runs. -/
def WrapperMain.Tracked (s : WrapperMain ε) : Prop := s.running = true → s.TellsTruth

/-- **One step** keeps the tracker true unless it neglects the session. -/
theorem WrapperMain.Tracked.step {s : WrapperMain ε} (h : s.Tracked) (env : WrapperMainEnv)
    {e : WrapperMainEvent ε} (hcares : ¬ NeglectsSession s e) :
    (wrapperMainStep env s e).Tracked := by
  cases e with
  | exit => exact fun _ => tellsTruth_exitAgent s
  | request r fate =>
      simp only [wrapperMainStep]
      split
      · rename_i hrunning
        intro hafter
        have hreturns : (prepareRequest env s r fate).2 ≠ .raised := by
          intro hraised
          rw [handleRequest_running, (of_raised hraised).2] at hafter
          cases hafter
        exact ((wellHandled_iff (h hrunning) hrunning env r fate hreturns).mpr hcares).1
      · exact h

/-- **The tracker, exactly**: in a run of `main` every request is handled well iff none
neglects the session. -/
theorem effort_tracker_iff (env : WrapperMainEnv) (events : List (WrapperMainEvent ε)) :
    (∀ handled ∈ outputs (wrapperMainStep env) (handledRequests env)
        (WrapperMain.start env) events, WellHandled handled) ↔
      AllSteps (wrapperMainStep env) (fun s e => ¬ NeglectsSession s e)
        (WrapperMain.start env) events := by
  rw [forall_outputs_iff]
  refine AllSteps.iff_of_invariant WrapperMain.Tracked ?_ ?_ ?_
  · intro s e h
    cases e with
    | exit =>
        exact iff_of_true (fun handled hmem => absurd hmem List.not_mem_nil) id
    | request r fate =>
        rw [handledRequests]
        split
        · rename_i hhandled
          rw [List.forall_mem_singleton]
          exact wellHandled_iff (h hhandled.1) hhandled.1 env r fate hhandled.2
        · rename_i hskipped
          refine iff_of_true (fun handled hmem => absurd hmem List.not_mem_nil) ?_
          intro hneglects
          refine hskipped ⟨hneglects.1, fun hraised => ?_⟩
          cases (of_raised hraised).1.symm.trans hneglects.2.1
  · exact fun s e h hcares => h.step env hcares
  · intro _ session hsession _
    obtain rfl := Option.some.inj hsession
    rfl

/-- A request with an effort, and one without. -/
def effortThenNone : List (WrapperMainEvent String) :=
  [.request ⟨false, some "high", none⟩ ⟨true, "", false⟩,
    .request ⟨false, none, none⟩ ⟨true, "", false⟩]

/-- The session goes on with its effort, and the tracker says that it has none. -/
theorem tracker_set_back :
    ¬ ∀ (env : WrapperMainEnv) (events : List (WrapperMainEvent String)),
      ∀ handled ∈ outputs (wrapperMainStep env) (handledRequests env)
        (WrapperMain.start env) events, WellHandled handled := by
  intro hall
  let env : WrapperMainEnv := ⟨none, ""⟩
  let session : Ds4Session String := ⟨150000, some "high", "", true⟩
  have hhandled : outputs (wrapperMainStep env) (handledRequests env) (WrapperMain.start env)
      effortThenNone =
        [(WrapperMain.start env, .streamed true, ⟨some session, some "high", true⟩),
          (⟨some session, some "high", true⟩, .streamed false, ⟨some session, none, true⟩)] := by
    decide
  have hwell := hall env effortThenNone (⟨some session, some "high", true⟩, .streamed false,
    ⟨some session, none, true⟩) (by rw [hhandled]; simp)
  cases hwell.1 session rfl rfl

end StarBridge
