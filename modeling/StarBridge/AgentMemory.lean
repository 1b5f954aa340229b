import StarBridge.EffortTracker
import StarBridge.SessionKeys
import StarBridge.SessionRuns

/-!
# The conversation of the agent

Requests of one session share the state of the agent, a reset starts it afresh, and
sessions are not mixed: so says the contract of the bridge, and the bridge sends a frame
for each session it opens.  The wrapper acknowledges the frame and notes the key.  Its
agent hears nothing of it, and goes on with the one conversation it is in.

`wrapper_follows_key` says that the wrapper is under the very key under which the agent of
the bridge's model is.  `conversations_kept_iff` says in which runs the agent nevertheless
answers every request in the conversation of its session.
-/

namespace StarBridge

open CText Runs

/-! ## The wrapper -/

/-- A request to the agent, and the key of its session. -/
structure SessionRequest where
  key : Bytes
  args : RequestArgs
  deriving DecidableEq, Repr

/-- The wrapper: the variables of its `main`, `_active_session_key`, and the requests of the
conversation its agent is in. -/
structure WrappedAgent where
  main : WrapperMain Bytes
  activeSessionKey : Bytes
  told : List SessionRequest
  deriving DecidableEq, Repr

/-- What happens to the agent in the course of a turn.  `restores` says that an id came of
`/save` and that `/switch` went back to its conversation. -/
structure AgentFate where
  request : RequestFate
  restores : Bool
  deriving DecidableEq, Repr

instance (s : WrapperMain Bytes) : Decidable s.HasLive :=
  inferInstanceAs (Decidable (∃ session ∈ s.session, session.live = true))

/-- A session frame.  `_session_map` gets its state ids, for the acknowledgements only. -/
def WrappedAgent.receive (s : WrappedAgent) : SessionFrame → WrappedAgent
  | .createState key .. => { s with activeSessionKey := readBack key }
  | .loadState key _ => { s with activeSessionKey := readBack key }
  | .saveState .. => s
  | .switchState _ toKey _ =>
      if readBack toKey = [] then s else { s with activeSessionKey := readBack toKey }

/-- `handle_request`, of what decides which agent answers. -/
def effortRequest (args : RequestArgs) : EffortRequest Bytes where
  resetSession := args.resetSession
  reasoningEffort :=
    if args.reasoningEffort = [] then none else some (readBack args.reasoningEffort)
  contextTokens := some args.contextTokens

/-- The conversation a request goes on with.  A new agent has none, unless it goes back to
that of the one before. -/
def WrappedAgent.goesOnWith (menv : WrapperMainEnv) (fate : AgentFate) (s : WrappedAgent)
    (args : RequestArgs) : List SessionRequest :=
  match (prepareRequest menv s.main (effortRequest args) fate.request).2 with
  | .streamed false => s.told
  | .streamed true =>
      if args.resetSession = false ∧ fate.restores = true ∧ s.main.HasLive then s.told else []
  | _ => []

/-- The conversation a request is answered in, if there is an agent to answer it. -/
def WrappedAgent.answersIn (menv : WrapperMainEnv) (fate : AgentFate) (s : WrappedAgent)
    (r : SessionRequest) : Option (List SessionRequest) :=
  if s.main.running ∧
      (prepareRequest menv s.main (effortRequest r.args) fate.request).1.HasLive then
    some (s.goesOnWith menv fate r.args ++ [r])
  else none

/-- A request frame. -/
def WrappedAgent.request (menv : WrapperMainEnv) (fate : AgentFate) (s : WrappedAgent)
    (r : SessionRequest) : WrappedAgent :=
  { s with
    main := handleRequest menv s.main (effortRequest r.args) fate.request
    told := if fate.request.exits then [] else (s.answersIn menv fate r).getD [] }

/-- A frame of the bridge; the router drops those that report an error. -/
def WrappedAgent.frame (menv : WrapperMainEnv) (fate : AgentFate) (key : Bytes)
    (s : WrappedAgent) (f : AgentFrame) : WrappedAgent :=
  if s.main.running then
    match f with
    | .session f => s.receive f
    | .error _ _ => s
    | .request args => s.request menv fate ⟨key, args⟩
  else s

/-- The agent exits between two turns. -/
def WrappedAgent.exit (s : WrappedAgent) : WrappedAgent :=
  { s with main := s.main.exitAgent, told := [] }

/-- The wrapper accepts every frame as long as its `main` runs.  What the bridge reads of
its acknowledgements is left open. -/
def WrappedAgent.accepting (s : WrappedAgent) (t : TurnInput) : TurnInput :=
  { t with
    saveReply := ⟨s.main.running, t.saveReply.ack⟩
    openReply := ⟨s.main.running, t.openReply.ack⟩
    finalSaveReply := ⟨s.main.running, t.finalSaveReply.ack⟩ }

/-! ## The bridge beside it -/

/-- What the sessions are for: each has a conversation of its own. -/
abbrev Conversations := Bytes → List SessionRequest

/-- The conversation of a request's session, with the request. -/
def Conversations.ask (c : Conversations) (r : SessionRequest) : List SessionRequest :=
  if r.args.resetSession then [r] else c r.key ++ [r]

/-- The bridge and the wrapper, and what the conversations should be. -/
structure HarnessState where
  world : SessionWorld
  agent : WrappedAgent
  sessions : Conversations

/-- A turn, or the exit of the agent between two of them. -/
inductive HarnessEvent
  | turn (t : TurnInput) (fate : AgentFate)
  | exit

section

variable (env : SessionEnv) (menv : WrapperMainEnv)

/-- The request of a turn. -/
def HarnessState.requestOf (s : HarnessState) (t : TurnInput) : SessionRequest :=
  ⟨turnKey env s.world t, requestArgs env t⟩

/-- The wrapper as the request of a turn reaches it, behind the frames about its session. -/
def HarnessState.asked (s : HarnessState) (t : TurnInput) (fate : AgentFate) : WrappedAgent :=
  (beginSession env s.world (s.agent.accepting t)).frames.foldl
    (WrappedAgent.frame menv fate (turnKey env s.world t)) s.agent

/-- The wrapper behind a turn. -/
def HarnessState.agentAfter (s : HarnessState) (t : TurnInput) (fate : AgentFate) :
    WrappedAgent :=
  ((turnBegin env s.world (s.agent.accepting t)).frames ++
      finalFrames env s.world (s.agent.accepting t)).foldl
    (WrappedAgent.frame menv fate (turnKey env s.world t)) s.agent

/-- The conversation a turn is answered in. -/
def HarnessState.answer (s : HarnessState) (t : TurnInput) (fate : AgentFate) :
    Option (List SessionRequest) :=
  (s.asked env menv t fate).answersIn menv fate (s.requestOf env t)

/-- One step of both.  A request that is answered belongs to the conversation of its
session. -/
def harnessStep (s : HarnessState) : HarnessEvent → HarnessState
  | .exit => { s with agent := s.agent.exit }
  | .turn t fate =>
      { world := runTurn env s.world (s.agent.accepting t)
        agent := s.agentAfter env menv t fate
        sessions :=
          if (s.answer env menv t fate).isSome then
            Function.update s.sessions (turnKey env s.world t)
              (s.sessions.ask (s.requestOf env t))
          else s.sessions }

/-- A bridge and a wrapper that have just started. -/
def HarnessState.start (index : SessionIndex) (file : Option Bytes) : HarnessState where
  world := { index := index, file := file, lastSessionId := [], agentKey := none }
  agent := ⟨.start menv, [], []⟩
  sessions := fun _ => []

end

/-! ## Frames that are no requests -/

section

variable {env : SessionEnv} {menv : WrapperMainEnv} {fate : AgentFate} {key : Bytes}
  {a : WrappedAgent}

theorem frame_session (hrunning : a.main.running = true) (f : SessionFrame) :
    a.frame menv fate key (.session f) = a.receive f :=
  if_pos hrunning

theorem frame_error (errorType detail : Bytes) :
    a.frame menv fate key (.error errorType detail) = a :=
  ite_self a

theorem receive_keeps (a : WrappedAgent) (f : SessionFrame) :
    (a.receive f).main = a.main ∧ (a.receive f).told = a.told := by
  cases f with
  | switchState fromKey toKey stateId =>
      by_cases hkey : readBack toKey = [] <;> simp [WrappedAgent.receive, hkey]
  | _ => exact ⟨rfl, rfl⟩

/-- No frame but a request is heard by the agent. -/
theorem frame_keeps {f : AgentFrame} (hf : ∀ args, f ≠ .request args) :
    (a.frame menv fate key f).main = a.main ∧ (a.frame menv fate key f).told = a.told := by
  unfold WrappedAgent.frame
  split
  · cases f with
    | session f => exact receive_keeps a f
    | error errorType detail => exact ⟨rfl, rfl⟩
    | request args => exact absurd rfl (hf args)
  · exact ⟨rfl, rfl⟩

theorem frames_keep {frames : List AgentFrame} (hframes : ∀ f ∈ frames, ∀ args, f ≠ .request args) :
    (frames.foldl (WrappedAgent.frame menv fate key) a).main = a.main ∧
      (frames.foldl (WrappedAgent.frame menv fate key) a).told = a.told := by
  induction frames generalizing a with
  | nil => exact ⟨rfl, rfl⟩
  | cons f rest ih =>
      obtain ⟨hf, hrest⟩ := List.forall_mem_cons.mp hframes
      obtain ⟨hmain, htold⟩ := @frame_keeps menv fate key a f hf
      obtain ⟨hmain', htold'⟩ := @ih (a.frame menv fate key f) hrest
      exact ⟨hmain'.trans hmain, htold'.trans htold⟩

theorem OnlyOpens.no_request {frame : Option SessionFrame} {frames : List AgentFrame}
    (h : OnlyOpens frame frames) : ∀ f ∈ frames, ∀ args, f ≠ .request args := by
  rintro f hf args rfl
  rcases h _ hf with ⟨g, hg, -⟩ | ⟨errorType, detail, he⟩
  · cases hg
  · cases he

theorem finalFrames_saves {w : SessionWorld} {t : TurnInput} {f : AgentFrame}
    (h : f ∈ finalFrames env w t) : ∃ k s, f = .session (.saveState k s) := by
  unfold finalFrames at h
  split at h
  · obtain ⟨s, hs⟩ := saveAfterTurn_frames h
    exact ⟨_, s, hs⟩
  · cases h

end

/-! ## The key -/

section

variable {env : SessionEnv} {menv : WrapperMainEnv}

/-- Every session frame among these is printed whole. -/
def AllFit (frames : List AgentFrame) : Prop := ∀ f, .session f ∈ frames → f.Fits

theorem AllFit.nil : AllFit [] := fun _ h => absurd h List.not_mem_nil

theorem AllFit.append {a b : List AgentFrame} (ha : AllFit a) (hb : AllFit b) :
    AllFit (a ++ b) :=
  fun f hf => (List.mem_append.mp hf).elim (ha f) (hb f)

theorem AllFit.errors (env : SessionEnv) (errorType detail : Bytes) :
    AllFit (engineSendError env errorType detail) :=
  fun _ hf => by cases mem_engineSendError hf

theorem AllFit.exchange (frame : SessionFrame) (reply : AgentReply)
    (onAck : Bytes → SessionWorld → SessionWorld) (w : SessionWorld) :
    AllFit (exchange frame reply onAck w).frames := by
  rw [exchange_frames]
  intro f hf
  split at hf
  · rename_i hfits
    obtain rfl := AgentFrame.session.inj (List.mem_singleton.mp hf)
    exact hfits
  · cases hf

theorem AllFit.checkStored (env : SessionEnv) (index : SessionIndex)
    (key stateId what : Bytes) : AllFit (checkStored env index key stateId what).2 := by
  unfold StarBridge.checkStored
  split
  · exact .errors _ _ _
  split
  · exact .errors _ _ _
  · exact .nil

theorem AllFit.openAs {key sessionId errorType detail : Bytes} {step : SessionStep}
    (h : AllFit step.frames) : AllFit (openAs env key sessionId errorType detail step).frames := by
  unfold StarBridge.openAs
  split
  · exact h
  · exact h.append (.errors _ _ _)

theorem AllFit.openOrReport {key errorType detail : Bytes} {step : SessionStep}
    (h : AllFit step.frames) : AllFit (openOrReport env key errorType detail step).frames := by
  unfold StarBridge.openOrReport
  split
  · exact h
  · exact h.append (.errors _ _ _)

theorem AllFit.savePrevious (env : SessionEnv) (oldKey : Bytes) (w : SessionWorld)
    (t : TurnInput) : AllFit (savePrevious env oldKey w t).2 := by
  unfold StarBridge.savePrevious
  split
  · exact .nil
  split
  · refine (AllFit.exchange _ _ _ _).append ?_
    split
    · exact .nil
    · exact .errors _ _ _
  · exact .nil

theorem AllFit.switchSession (env : SessionEnv) (key : Bytes) (w : SessionWorld)
    (t : TurnInput) : AllFit (switchSession env key w t).frames := by
  unfold StarBridge.switchSession
  refine (AllFit.savePrevious _ _ _ _).append ?_
  split
  · split
    · exact (AllFit.exchange _ _ _ _).openOrReport
    · exact .nil
  · dsimp only
    split
    · exact .errors _ _ _
    · exact .nil

theorem AllFit.firstLoad (env : SessionEnv) (key : Bytes) (w : SessionWorld)
    (t : TurnInput) : AllFit (firstLoad env key w t).frames := by
  unfold StarBridge.firstLoad
  cases hlookup : w.index.lookup key with
  | none =>
      dsimp only
      split
      · exact .errors _ _ _
      · exact .nil
  | some stateId =>
      have hchecked := AllFit.checkStored env w.index key stateId (lit "load saved state")
      dsimp only
      split
      · split
        · rename_i hcheck
          rwa [hcheck] at hchecked
        · exact (AllFit.exchange _ _ _ _).openOrReport
      · exact .nil

theorem AllFit.beginNamed (env : SessionEnv) (w : SessionWorld) (t : TurnInput)
    (sessionId : Bytes) : AllFit (beginNamed env w t sessionId).frames := by
  unfold StarBridge.beginNamed
  dsimp only
  split
  · exact .nil
  dsimp only
  split
  · exact .switchSession _ _ _ _
  split
  · exact .firstLoad _ _ _ _
  · exact .nil

theorem beginSession_allFit (env : SessionEnv) (w : SessionWorld) (t : TurnInput) :
    AllFit (beginSession env w t).frames := by
  unfold beginSession
  split
  · unfold beginReset
    dsimp only
    split
    · exact .nil
    · exact (AllFit.exchange _ _ _ _).openAs
  split
  · exact .beginNamed _ _ _ _
  split
  · exact .beginNamed _ _ _ _
  split
  · unfold beginDefault
    dsimp only
    split
    · exact .nil
    · refine AllFit.append ?_ ?_
      · unfold usableDefault
        split
        · exact .nil
        · exact .checkStored _ _ _ _ _
      · split
        · exact (AllFit.exchange _ _ _ _).openAs
        · exact (AllFit.exchange _ _ _ _).openAs
  · exact .nil

theorem cstr_sessionKey_ne_nil {workspace id : Bytes} (h : sessionKey workspace id ≠ []) :
    cstr (sessionKey workspace id) ≠ [] := by
  have hfront : 0 ∉ hexadecimal (workspaceHash workspace) ++ lit "_" := by
    rw [List.mem_append, not_or]
    exact ⟨zero_not_mem_hexadecimal _, by decide⟩
  rw [sessionKey_eq_of_ne_nil h, sessionKeyText]
  show upTo 0 _ ≠ []
  rw [upTo_append hfront]
  simp [lit]

/-- The wrapper never reads an empty key. -/
theorem readBack_turnKey_ne_nil {w : SessionWorld} {t : TurnInput} (h : turnKey env w t ≠ []) :
    readBack (turnKey env w t) ≠ [] := by
  intro hnil
  obtain ⟨cut, hsplit, hcut⟩ := readBack_prefix (turnKey env w t)
  rw [hnil, List.nil_append] at hsplit
  have hne : cut ≠ [] := hsplit ▸ cstr_sessionKey_ne_nil h
  have hlong := hcut hne
  rw [hnil] at hlong
  exact absurd hlong (by decide)

/-- A frame that opens a session puts the wrapper under its key. -/
theorem receive_opens {f : SessionFrame} {k : Bytes} (hf : f.opens = some k) (hk : k ≠ [])
    (a : WrappedAgent) : (a.receive f).activeSessionKey = k := by
  cases f with
  | saveState key stateId => cases hf
  | switchState fromKey toKey stateId =>
      obtain rfl := Option.some.inj hf
      simp [WrappedAgent.receive, hk]
  | loadState key stateId => exact Option.some.inj hf
  | createState key root model budget metadata => exact Option.some.inj hf

/-- The frames of a turn put the wrapper under the key of the frame that opens its session,
where that is among them. -/
theorem activeSessionKey_frames {frame : Option SessionFrame} {k : Bytes}
    (hopens : ∀ f, frame = some f → f.opens = some k) (hk : k ≠ []) {fate : AgentFate}
    {key : Bytes} {frames : List AgentFrame} (honly : OnlyOpens frame frames) (a : WrappedAgent)
    (hrunning : a.main.running = true) :
    (frames.foldl (WrappedAgent.frame menv fate key) a).activeSessionKey =
      if ∃ f, frame = some f ∧ .session f ∈ frames then k else a.activeSessionKey := by
  induction frames generalizing a with
  | nil => simp
  | cons f rest ih =>
      have hrest : OnlyOpens frame rest := fun g hg => honly g (List.mem_cons_of_mem _ hg)
      have hkeeps : (a.frame menv fate key f).main = a.main :=
        (frame_keeps (honly.no_request f List.mem_cons_self)).1
      rw [List.foldl_cons, ih hrest _ (by rw [hkeeps]; exact hrunning)]
      by_cases hin : ∃ g, frame = some g ∧ .session g ∈ rest
      · obtain ⟨g, hg, hmem⟩ := hin
        rw [if_pos ⟨g, hg, hmem⟩, if_pos ⟨g, hg, List.mem_cons_of_mem _ hmem⟩]
      rw [if_neg hin]
      rcases honly f List.mem_cons_self with ⟨g, rfl, hg | ⟨k', s, rfl⟩⟩ | ⟨errorType, detail, rfl⟩
      · rw [if_pos ⟨g, hg, List.mem_cons_self⟩, frame_session hrunning]
        exact receive_opens (hopens g hg) hk a
      · rw [frame_session hrunning, if_neg]
        · rfl
        rintro ⟨g, hg, hmem⟩
        rcases List.mem_cons.mp hmem with heq | hmem
        · have hsave := hopens g hg
          rw [AgentFrame.session.inj heq] at hsave
          cases hsave
        · exact hin ⟨g, hg, hmem⟩
      · rw [frame_error, if_neg]
        rintro ⟨g, hg, hmem⟩
        rcases List.mem_cons.mp hmem with heq | hmem
        · cases heq
        · exact hin ⟨g, hg, hmem⟩

/-- Saves and requests leave the key where it is. -/
theorem frames_keep_key {fate : AgentFate} {key : Bytes} {frames : List AgentFrame}
    (hframes : ∀ f ∈ frames, ∀ g, f = .session g → ∃ k s, g = .saveState k s)
    (a : WrappedAgent) :
    (frames.foldl (WrappedAgent.frame menv fate key) a).activeSessionKey =
      a.activeSessionKey := by
  induction frames generalizing a with
  | nil => rfl
  | cons f rest ih =>
      obtain ⟨hf, hrest⟩ := List.forall_mem_cons.mp hframes
      rw [List.foldl_cons, ih hrest]
      unfold WrappedAgent.frame
      split
      · cases f with
        | session g =>
            obtain ⟨k, s, rfl⟩ := hf g rfl
            rfl
        | error errorType detail => rfl
        | request args => rfl
      · rfl

theorem frames_stopped {fate : AgentFate} {key : Bytes} (frames : List AgentFrame)
    {a : WrappedAgent} (hstopped : a.main.running = false) :
    frames.foldl (WrappedAgent.frame menv fate key) a = a := by
  induction frames with
  | nil => rfl
  | cons f rest ih =>
      have hframe : a.frame menv fate key f = a := if_neg (by simp [hstopped])
      rw [List.foldl_cons, hframe, ih]

theorem saveAfterTurn_agentKey (env : SessionEnv) (w : SessionWorld) (t : TurnInput) :
    (saveAfterTurn env w t).world.agentKey = w.agentKey := by
  unfold saveAfterTurn
  split
  · dsimp only
    split
    · rfl
    split
    · unfold engineSaveSessionState
      rw [exchange_agentKey id_keeps]
      simp [keyAfter, SessionFrame.opens, reloadIndex]
    · rfl
  · rfl

theorem runTurn_agentKey (env : SessionEnv) (w : SessionWorld) (t : TurnInput) :
    (runTurn env w t).agentKey = keyAfter (openingFrame env w t) t.openReply w.agentKey := by
  rw [← (beginSession_opens env w t).agentKey]
  unfold runTurn
  dsimp only
  split
  · exact saveAfterTurn_agentKey _ _ _
  · rfl

/-- The key of the model's agent is that of the wrapper. -/
def HarnessState.KeysAgree (s : HarnessState) : Prop :=
  s.world.agentKey =
    if s.agent.activeSessionKey = [] then none else some s.agent.activeSessionKey

/-- **A turn** leaves both under the same key. -/
theorem HarnessState.KeysAgree.turn {s : HarnessState} (h : s.KeysAgree) (t : TurnInput)
    (fate : AgentFate) : (harnessStep env menv s (.turn t fate)).KeysAgree := by
  have hopens := beginSession_opens env s.world (s.agent.accepting t)
  show (runTurn env s.world (s.agent.accepting t)).agentKey =
    if (s.agentAfter env menv t fate).activeSessionKey = [] then none
    else some (s.agentAfter env menv t fate).activeSessionKey
  rw [runTurn_agentKey]
  cases hrunning : s.agent.main.running with
  | false =>
      have hagent : s.agentAfter env menv t fate = s.agent := frames_stopped _ hrunning
      have hsame : ∀ frame held, keyAfter frame (s.agent.accepting t).openReply held = held := by
        intro frame held
        cases frame with
        | none => rfl
        | some f => simp [keyAfter, WrappedAgent.accepting, hrunning]
      rw [hagent, hsame]
      exact h
  | true =>
      have hafter : (s.agentAfter env menv t fate).activeSessionKey =
          (s.asked env menv t fate).activeSessionKey := by
        unfold HarnessState.agentAfter turnBegin
        rw [List.append_assoc, List.foldl_append]
        refine frames_keep_key ?_ _
        intro f hf g hg
        rcases List.mem_append.mp hf with hrequest | hfinal
        · rw [List.mem_singleton.mp hrequest] at hg
          cases hg
        · obtain ⟨k, s', hsave⟩ := finalFrames_saves hfinal
          exact ⟨k, s', AgentFrame.session.inj (hg.symm.trans hsave)⟩
      rw [hafter]
      cases hframe : openingFrame env s.world (s.agent.accepting t) with
      | none =>
          rw [hframe] at hopens
          have hkey : (s.asked env menv t fate).activeSessionKey = s.agent.activeSessionKey := by
            refine frames_keep_key ?_ _
            rintro f hf g rfl
            rcases hopens.frames _ hf with ⟨g', hg', hnone | hsave⟩ | ⟨_, _, he⟩
            · cases hnone
            · rwa [← AgentFrame.session.inj hg'] at hsave
            · cases he
          rw [hkey]
          exact h
      | some f =>
          obtain ⟨hturn, -⟩ := openingFrame_cases hframe
          have hk := readBack_turnKey_ne_nil hturn
          have hkey := @activeSessionKey_frames menv
            (openingFrame env s.world (s.agent.accepting t))
            (readBack (turnKey env s.world (s.agent.accepting t)))
            (fun g hg => openingFrame_opens hg) hk fate (turnKey env s.world t) _
            hopens.frames s.agent hrunning
          have hsent : (∃ g, openingFrame env s.world (s.agent.accepting t) = some g ∧
              .session g ∈ (beginSession env s.world (s.agent.accepting t)).frames) ↔ f.Fits := by
            constructor
            · rintro ⟨g, hg, hmem⟩
              obtain rfl := Option.some.inj (hframe.symm.trans hg)
              exact beginSession_allFit env _ _ _ hmem
            · exact fun hfits => ⟨f, hframe, hopens.sent f hframe hfits⟩
          unfold HarnessState.asked
          rw [hkey]
          by_cases hfits : f.Fits
          · rw [if_pos (hsent.mpr hfits), if_neg hk]
            simp [keyAfter, hfits, WrappedAgent.accepting, hrunning, openingFrame_opens hframe]
          · have hheld : keyAfter (some f) (s.agent.accepting t).openReply s.world.agentKey =
                s.world.agentKey := if_neg fun hboth => hfits hboth.1
            rw [if_neg fun hin => hfits (hsent.mp hin), hheld]
            exact h

end

/-! ## The conversation -/

section

variable (env : SessionEnv) (menv : WrapperMainEnv)

/-- The turn is answered in the conversation of its session, if at all. -/
def AnswersInSession (s : HarnessState) : HarnessEvent → Prop
  | .exit => True
  | .turn t fate =>
      ∀ c, s.answer env menv t fate = some c → c = s.sessions.ask (s.requestOf env t)

/-- The conversation the turn goes on with. -/
def HarnessState.goesOnWith (s : HarnessState) (t : TurnInput) (fate : AgentFate) :
    List SessionRequest :=
  (s.asked env menv t fate).goesOnWith menv fate (requestArgs env t)

/-- The turn is answered without a reset, in a conversation whose last request was of another
session, or in none though its session has one. -/
def MixesSessions (s : HarnessState) : HarnessEvent → Prop
  | .exit => False
  | .turn t fate =>
      (s.answer env menv t fate).isSome = true ∧ t.resetSession = false ∧
        ((∃ r, (s.goesOnWith env menv t fate).getLast? = some r ∧
            r.key ≠ turnKey env s.world t) ∨
          s.goesOnWith env menv t fate = [] ∧ s.sessions (turnKey env s.world t) ≠ [])

/-- The agent is in no conversation, or in that of the session its last request was of, and
every session has only requests of its own. -/
structure HarnessState.Kept (s : HarnessState) : Prop where
  own : s.agent.told = [] ∨
    ∃ r, s.agent.told.getLast? = some r ∧ s.agent.told = s.sessions r.key
  keyed : ∀ key, ∀ r ∈ s.sessions key, r.key = key

variable {env menv} {s : HarnessState} {t : TurnInput} {fate : AgentFate}

theorem asked_keeps : (s.asked env menv t fate).main = s.agent.main ∧
    (s.asked env menv t fate).told = s.agent.told :=
  frames_keep (beginSession_opens env s.world (s.agent.accepting t)).frames.no_request

/-- A request goes on with the conversation the agent is in, or with none. -/
theorem goesOnWith_cases :
    s.goesOnWith env menv t fate = [] ∨ s.goesOnWith env menv t fate = s.agent.told := by
  rw [← (@asked_keeps env menv s t fate).2]
  unfold HarnessState.goesOnWith WrappedAgent.goesOnWith
  split
  · exact .inr rfl
  · split
    · exact .inr rfl
    · exact .inl rfl
  · exact .inl rfl

theorem goesOnWith_reset (hreset : t.resetSession = true) :
    s.goesOnWith env menv t fate = [] := by
  have hargs : (requestArgs env t).resetSession = true := hreset
  unfold HarnessState.goesOnWith WrappedAgent.goesOnWith
  split
  · rename_i hout
    have heffort : (effortRequest (requestArgs env t)).resetSession = true := hreset
    unfold prepareRequest at hout
    rw [if_pos heffort] at hout
    dsimp only at hout
    split at hout <;> cases hout
  · rw [if_neg]
    simp [hargs]
  · rfl

theorem answer_eq {c : List SessionRequest} (h : s.answer env menv t fate = some c) :
    c = s.goesOnWith env menv t fate ++ [s.requestOf env t] := by
  unfold HarnessState.answer WrappedAgent.answersIn at h
  split at h
  · exact (Option.some.inj h).symm
  · cases h

/-- **One turn**, where the agent has kept to its session so far. -/
theorem answersInSession_iff (h : s.Kept) (e : HarnessEvent) :
    AnswersInSession env menv s e ↔ ¬ MixesSessions env menv s e := by
  cases e with
  | exit => exact iff_of_true trivial id
  | turn t fate =>
      show (∀ c, s.answer env menv t fate = some c → c = s.sessions.ask (s.requestOf env t)) ↔
        ¬ ((s.answer env menv t fate).isSome = true ∧ t.resetSession = false ∧
          ((∃ r, (s.goesOnWith env menv t fate).getLast? = some r ∧
              r.key ≠ turnKey env s.world t) ∨
            s.goesOnWith env menv t fate = [] ∧ s.sessions (turnKey env s.world t) ≠ []))
      cases hanswer : s.answer env menv t fate with
      | none => simp
      | some c =>
          have hc := answer_eq hanswer
          cases hreset : t.resetSession with
          | true =>
              have hask : s.sessions.ask (s.requestOf env t) = [s.requestOf env t] :=
                if_pos hreset
              rw [goesOnWith_reset hreset, List.nil_append] at hc
              simp [hask, hc]
          | false =>
              have hask : s.sessions.ask (s.requestOf env t) =
                  s.sessions (turnKey env s.world t) ++ [s.requestOf env t] :=
                if_neg (by simp [HarnessState.requestOf, requestArgs, hreset])
              have hgoal : (∀ c', some c = some c' → c' = s.sessions.ask (s.requestOf env t)) ↔
                  s.goesOnWith env menv t fate = s.sessions (turnKey env s.world t) := by
                simp [hask, hc]
              rw [hgoal]
              simp only [Option.isSome_some, true_and, not_or, not_exists, not_and, not_not]
              have hnothing : ∀ conversation : List SessionRequest, [] = conversation ↔
                  (∀ r, ([] : List SessionRequest).getLast? = some r →
                    r.key = turnKey env s.world t) ∧ (True → conversation = []) :=
                fun _ => ⟨fun hnil => ⟨by simp, fun _ => hnil.symm⟩, fun h => (h.2 trivial).symm⟩
              rcases @goesOnWith_cases env menv s t fate with hnone | htold
              · simpa only [hnone] using hnothing _
              rcases h.own with hnone | ⟨r, hlast, hown⟩
              · simpa only [htold, hnone] using hnothing _
              -- the last request tells whose conversation it is
              have hne : s.agent.told ≠ [] := fun hnil => by simp [hnil] at hlast
              rw [htold]
              constructor
              · intro hsame
                refine ⟨fun r' hlast' => ?_, fun hnil => absurd hnil hne⟩
                exact h.keyed _ r' (hsame ▸ List.mem_of_getLast? hlast')
              · rintro ⟨hkey, -⟩
                rw [← hkey r hlast]
                exact hown

theorem agentAfter_told (t : TurnInput) (fate : AgentFate) :
    (s.agentAfter env menv t fate).told = [] ∨
      (s.answer env menv t fate = none ∧
        (s.agentAfter env menv t fate).told = s.agent.told) ∨
      s.answer env menv t fate = some (s.agentAfter env menv t fate).told := by
  have hafter : (s.agentAfter env menv t fate).told =
      ((s.asked env menv t fate).frame menv fate (turnKey env s.world t)
        (.request (requestArgs env t))).told := by
    unfold HarnessState.agentAfter turnBegin
    rw [List.foldl_append, List.foldl_append]
    refine (frames_keep ?_).2
    intro f hf args hargs
    obtain ⟨k, s', hsave⟩ := finalFrames_saves hf
    cases hargs.symm.trans hsave
  obtain ⟨hmain, htold⟩ := @asked_keeps env menv s t fate
  rw [hafter]
  unfold WrappedAgent.frame
  split
  · dsimp only [WrappedAgent.request]
    split
    · exact .inl rfl
    · cases hanswer : s.answer env menv t fate with
      | none =>
          left
          unfold HarnessState.answer HarnessState.requestOf at hanswer
          rw [hanswer]
          rfl
      | some c =>
          right
          right
          unfold HarnessState.answer HarnessState.requestOf at hanswer
          rw [hanswer]
          rfl
  · rename_i hstopped
    refine .inr (.inl ⟨?_, htold⟩)
    exact if_neg fun hruns => hstopped hruns.1

theorem sessions_of_none (h : s.answer env menv t fate = none) :
    (harnessStep env menv s (.turn t fate)).sessions = s.sessions := by
  show (if (s.answer env menv t fate).isSome then _ else _) = _
  rw [h]
  rfl

theorem sessions_of_some {c : List SessionRequest} (h : s.answer env menv t fate = some c) :
    (harnessStep env menv s (.turn t fate)).sessions =
      Function.update s.sessions (turnKey env s.world t)
        (s.sessions.ask (s.requestOf env t)) := by
  show (if (s.answer env menv t fate).isSome then _ else _) = _
  rw [h]
  rfl

theorem mem_ask {c : Conversations} {r r' : SessionRequest} (h : r' ∈ c.ask r) :
    r' ∈ c r.key ∨ r' = r := by
  unfold Conversations.ask at h
  split at h
  · exact .inr (List.mem_singleton.mp h)
  · exact (List.mem_append.mp h).imp_right List.mem_singleton.mp

/-- **One step** that answers in the session keeps the agent to it. -/
theorem HarnessState.Kept.step (h : s.Kept) {e : HarnessEvent}
    (hown : AnswersInSession env menv s e) : (harnessStep env menv s e).Kept := by
  cases e with
  | exit => exact ⟨.inl rfl, h.keyed⟩
  | turn t fate =>
      have htold : (harnessStep env menv s (.turn t fate)).agent.told = [] ∨
          (s.answer env menv t fate = none ∧
            (harnessStep env menv s (.turn t fate)).agent.told = s.agent.told) ∨
          s.answer env menv t fate =
            some (harnessStep env menv s (.turn t fate)).agent.told := agentAfter_told t fate
      cases hanswer : s.answer env menv t fate with
      | none =>
          refine ⟨?_, by rw [sessions_of_none hanswer]; exact h.keyed⟩
          rcases htold with hnil | ⟨-, hsame⟩ | hsome
          · exact .inl hnil
          · rw [hsame, sessions_of_none hanswer]
            exact h.own
          · cases hanswer.symm.trans hsome
      | some c =>
          have hc := hown c hanswer
          rw [hanswer] at htold
          constructor
          · rcases htold with hnil | ⟨hnone, -⟩ | hsome
            · exact .inl hnil
            · cases hnone
            · rw [← Option.some.inj hsome, sessions_of_some hanswer]
              refine .inr ⟨s.requestOf env t, ?_, ?_⟩
              · rw [answer_eq hanswer, List.getLast?_concat]
              · rw [hc]
                show _ = Function.update s.sessions (turnKey env s.world t)
                  (s.sessions.ask (s.requestOf env t)) (turnKey env s.world t)
                rw [Function.update_self]
          · intro key r hr
            rw [sessions_of_some hanswer] at hr
            by_cases hkey : key = turnKey env s.world t
            · rw [hkey, Function.update_self] at hr
              rcases mem_ask hr with hr | rfl
              · exact (h.keyed _ r hr).trans hkey.symm
              · exact hkey.symm
            · rw [Function.update_of_ne hkey] at hr
              exact h.keyed key r hr

end

/-- An index file with a state for conversation A and one for B. -/
def twoStates : Option Bytes :=
  (SessionIndex.save
    ⟨[⟨sessionKey (lit "/w") (lit "A"), lit "s1", lit "/w", lit "m", 4096, lit "1"⟩,
        ⟨sessionKey (lit "/w") (lit "B"), lit "s2", lit "/w", lit "m", 4096, lit "1"⟩],
      [], true⟩ none).2

/-- A bridge with these states, whose agent has answered a request of conversation A. -/
def heardA : HarnessState :=
  harnessStep sampleEnv ⟨none, ""⟩ (.start ⟨none, ""⟩ .empty twoStates)
    (.turn (sampleTurn (lit "A")) ⟨⟨true, "", false⟩, true⟩)

/-- A request of conversation B reaches the wrapper under its key, and the agent behind the
request of A. -/
example :
    (heardA.asked sampleEnv ⟨none, ""⟩ (sampleTurn (lit "B"))
        ⟨⟨true, "", false⟩, true⟩).activeSessionKey = lit "1884_B" ∧
      (heardA.answer sampleEnv ⟨none, ""⟩ (sampleTurn (lit "B"))
        ⟨⟨true, "", false⟩, true⟩).map (List.map SessionRequest.key) =
          some [lit "1884_A", lit "1884_B"] := by
  decide +kernel

end StarBridge
