import StarBridge.TurnBegin

/-!
# How a turn opens its session

`openingFrame` says once which frame, if any, `turn_begin` sends to put the
agent into the turn's session, as a function of the turn and the state before
it.  `beginSession_opens` is the specification of the session part of
`turn_begin` in terms of it: which key the agent is active under afterwards,
which session the bridge takes to be open, and which frames were written.
`openingFrame_cases` lists the routes.
-/

namespace StarBridge

open CText

/-! ## The frame that opens a session -/

/-- What the index records about a key agrees with the engine. -/
def Compatible (env : SessionEnv) (index : SessionIndex) (key : Bytes) : Prop :=
  (index.getWorkspace key).all (· = env.workspace) ∧
    (index.getModelId key).all (· = env.codexModel)

instance (env : SessionEnv) (index : SessionIndex) (key : Bytes) :
    Decidable (Compatible env index key) :=
  inferInstanceAs (Decidable (_ ∧ _))

/-- The index a turn works with. -/
def turnIndex (env : SessionEnv) (w : SessionWorld) : SessionIndex :=
  w.index.load env.numberToInt w.file

/-- The session key of a turn. -/
def turnKey (env : SessionEnv) (w : SessionWorld) (t : TurnInput) : Bytes :=
  sessionKey env.workspace (effectiveSession w t)

/-- The frame that creates the turn's session anew. -/
def creationFrame (env : SessionEnv) (w : SessionWorld) (t : TurnInput) : SessionFrame :=
  .createState (turnKey env w t) env.workspace env.codexModel env.contextTokens t.metadata

/-- The turn names no session and there is none to continue. -/
def StartsDefault (w : SessionWorld) (t : TurnInput) : Prop :=
  t.resetSession = false ∧ t.previousResponseId = [] ∧ w.lastSessionId = []

instance (w : SessionWorld) (t : TurnInput) : Decidable (StartsDefault w t) :=
  inferInstanceAs (Decidable (_ ∧ _ ∧ _))

/-- The frame by which `turn_begin` asks the agent for the turn's session. -/
def openingFrame (env : SessionEnv) (w : SessionWorld) (t : TurnInput) :
    Option SessionFrame :=
  if turnKey env w t = [] then none
  else if t.resetSession then some (creationFrame env w t)
  else if ¬ env.canLoad then none
  else if StartsDefault w t then
    match (turnIndex env w).lookup (turnKey env w t) with
    | some stateId =>
        if Compatible env (turnIndex env w) (turnKey env w t) then
          some (.loadState (turnKey env w t) stateId)
        else some (creationFrame env w t)
    | none => some (creationFrame env w t)
  else
    match (turnIndex env w).lookup (turnKey env w t) with
    | some stateId =>
        if w.lastSessionId = [] then
          if Compatible env (turnIndex env w) (turnKey env w t) then
            some (.loadState (turnKey env w t) stateId)
          else none
        else if w.lastSessionId = effectiveSession w t then none
        else
          some (.switchState (sessionKey env.workspace w.lastSessionId)
            (turnKey env w t) stateId)
    | none => none

/-- The key the agent is active under after such a frame. -/
def keyAfter (frame : Option SessionFrame) (reply : AgentReply)
    (held : Option Bytes) : Option Bytes :=
  match frame with
  | some f => if f.Fits ∧ reply.accepts then f.opens <|> held else held
  | none => held

/-- The key the bridge takes to be opened by such a frame. -/
def openedUnder (frame : Option SessionFrame) (reply : AgentReply) (key : Bytes) :
    Option Bytes :=
  match frame with
  | some f => if f.Fits ∧ reply.acknowledged then some key else none
  | none => none

/-! ## What the exchanges do -/

/-- A step that keeps the last session id and the agent's key. -/
def KeepsSession (onAck : Bytes → SessionWorld → SessionWorld) : Prop :=
  ∀ ack w, (onAck ack w).lastSessionId = w.lastSessionId ∧
    (onAck ack w).agentKey = w.agentKey

theorem recordState_keeps (key workspaceRoot modelId : Bytes) (budget : Int)
    (now : Bytes) : KeepsSession (recordState key workspaceRoot modelId budget now) := by
  intro ack w
  unfold recordState
  split <;> exact ⟨rfl, rfl⟩

theorem id_keeps : KeepsSession fun _ w => w := fun _ _ => ⟨rfl, rfl⟩

theorem exchange_ok (frame : SessionFrame) (reply : AgentReply)
    (onAck : Bytes → SessionWorld → SessionWorld) (w : SessionWorld) :
    (exchange frame reply onAck w).ok = (decide frame.Fits && reply.acknowledged) := by
  unfold exchange AgentReply.acknowledged
  by_cases hfits : frame.Fits
  · cases reply.ack <;> simp [hfits]
  · simp [hfits]

theorem exchange_agentKey {onAck : Bytes → SessionWorld → SessionWorld}
    (hkeep : KeepsSession onAck) (frame : SessionFrame) (reply : AgentReply)
    (w : SessionWorld) :
    (exchange frame reply onAck w).world.agentKey =
      keyAfter (some frame) reply w.agentKey := by
  have hdeliver : (deliver frame reply w).agentKey =
      if reply.accepts then frame.opens <|> w.agentKey else w.agentKey := by
    unfold deliver
    cases hopens : frame.opens with
    | none => simp
    | some key => by_cases h : reply.accepts <;> simp [h]
  unfold exchange keyAfter
  by_cases hfits : frame.Fits
  · simp only [hfits, not_true_eq_false, if_false, true_and]
    cases reply.ack with
    | none => exact hdeliver
    | some ack => exact (hkeep ack _).2.trans hdeliver
  · simp only [hfits, not_false_eq_true, if_true, false_and, if_false]

theorem exchange_frames (frame : SessionFrame) (reply : AgentReply)
    (onAck : Bytes → SessionWorld → SessionWorld) (w : SessionWorld) :
    (exchange frame reply onAck w).frames = if frame.Fits then [.session frame] else [] := by
  unfold exchange
  by_cases hfits : frame.Fits
  · cases reply.ack <;> simp [hfits]
  · simp [hfits]

theorem exchange_sent (frame : SessionFrame) (reply : AgentReply)
    (onAck : Bytes → SessionWorld → SessionWorld) (w : SessionWorld) (f : SessionFrame)
    (hf : some frame = some f) (hfits : f.Fits) :
    AgentFrame.session f ∈ (exchange frame reply onAck w).frames := by
  obtain rfl := Option.some.inj hf
  rw [exchange_frames, if_pos hfits]
  exact List.mem_singleton_self _

/-- An error frame is neither a session frame nor a request. -/
theorem mem_engineSendError {env : SessionEnv} {errorType detail : Bytes}
    {f : AgentFrame} (h : f ∈ engineSendError env errorType detail) :
    f = .error errorType detail := by
  unfold engineSendError at h
  split at h
  · exact List.mem_singleton.mp h
  · cases h

/-- The session frames among `frames` are saves and, at most, this one; there is
no request. -/
def OnlyOpens (frame : Option SessionFrame) (frames : List AgentFrame) : Prop :=
  ∀ f ∈ frames, (∃ g, f = .session g ∧ (frame = some g ∨ ∃ k s, g = .saveState k s)) ∨
    ∃ errorType detail, f = .error errorType detail

theorem OnlyOpens.nil (frame : Option SessionFrame) : OnlyOpens frame [] := by
  simp [OnlyOpens]

theorem OnlyOpens.append {frame : Option SessionFrame} {a b : List AgentFrame}
    (ha : OnlyOpens frame a) (hb : OnlyOpens frame b) : OnlyOpens frame (a ++ b) := by
  intro f hf
  exact (List.mem_append.mp hf).elim (ha f) (hb f)

theorem OnlyOpens.errors (frame : Option SessionFrame) (env : SessionEnv)
    (errorType detail : Bytes) : OnlyOpens frame (engineSendError env errorType detail) :=
  fun _ hf => .inr ⟨_, _, mem_engineSendError hf⟩

theorem OnlyOpens.exchange (frame : SessionFrame) (reply : AgentReply)
    (onAck : Bytes → SessionWorld → SessionWorld) (w : SessionWorld) :
    OnlyOpens (some frame) (StarBridge.exchange frame reply onAck w).frames := by
  rw [exchange_frames]
  intro f hf
  split at hf
  · exact .inl ⟨frame, List.mem_singleton.mp hf, .inl rfl⟩
  · cases hf

theorem OnlyOpens.save {key stateId : Bytes} (frame : Option SessionFrame)
    (reply : AgentReply) (w : SessionWorld) :
    OnlyOpens frame (engineSaveSessionState key stateId reply w).frames := by
  unfold engineSaveSessionState
  rw [exchange_frames]
  intro f hf
  split at hf
  · exact .inl ⟨_, List.mem_singleton.mp hf, .inr ⟨_, _, rfl⟩⟩
  · cases hf

/-! ## The session part of `turn_begin` -/

/-- What a block of `turn_begin` does when `frame` is the frame it sends to open
a session with `key`. -/
structure Opens (frame : Option SessionFrame) (reply : AgentReply) (key : Bytes)
    (held : Option Bytes) (o : SessionOutcome) : Prop where
  agentKey : o.world.agentKey = keyAfter frame reply held
  opened : o.opened = openedUnder frame reply key
  frames : OnlyOpens frame o.frames
  sent : ∀ f, frame = some f → f.Fits → .session f ∈ o.frames

/-- A block that sends nothing. -/
theorem Opens.none {reply : AgentReply} {key : Bytes} {held : Option Bytes}
    {o : SessionOutcome} (hkey : o.world.agentKey = held) (hopened : o.opened = none)
    (hframes : OnlyOpens none o.frames) : Opens none reply key held o :=
  ⟨hkey, hopened, hframes, fun _ h => by cases h⟩

/-- Frames written before the block, and a last session id set after it, change
nothing of this. -/
theorem Opens.around {frame : Option SessionFrame} {reply : AgentReply} {key : Bytes}
    {held : Option Bytes} {o : SessionOutcome} (h : Opens frame reply key held o)
    {before : List AgentFrame} (hbefore : OnlyOpens frame before) :
    Opens frame reply key held { o with frames := before ++ o.frames } :=
  ⟨h.agentKey, h.opened, hbefore.append h.frames,
    fun f hf hfits => List.mem_append_right _ (h.sent f hf hfits)⟩

theorem Opens.setLast {frame : Option SessionFrame} {reply : AgentReply} {key : Bytes}
    {held : Option Bytes} {o : SessionOutcome} (h : Opens frame reply key held o)
    (sessionId : Bytes) :
    Opens frame reply key held
      { o with world := { o.world with lastSessionId := sessionId } } :=
  ⟨h.agentKey, h.opened, h.frames, h.sent⟩

variable {env : SessionEnv} {w : SessionWorld} {t : TurnInput}

/-- A block that sends one frame, opens its session if the agent accepts, and
writes nothing but errors behind the frame. -/
theorem Opens.of_exchange {onAck : Bytes → SessionWorld → SessionWorld}
    (hkeep : KeepsSession onAck) (frame : SessionFrame) (reply : AgentReply) (key : Bytes)
    {o : SessionOutcome} {errors : List AgentFrame}
    (hkey : o.world.agentKey = (exchange frame reply onAck w).world.agentKey)
    (hopened : o.opened = if (exchange frame reply onAck w).ok then some key else Option.none)
    (hframes : o.frames = (exchange frame reply onAck w).frames ++ errors)
    (herrors : OnlyOpens (some frame) errors) :
    Opens (some frame) reply key w.agentKey o where
  agentKey := hkey.trans (exchange_agentKey hkeep frame reply w)
  opened := by
    rw [hopened, exchange_ok]
    simp [openedUnder]
  frames := by
    rw [hframes]
    exact (OnlyOpens.exchange frame reply onAck w).append herrors
  sent := by
    intro f hf hfits
    rw [hframes]
    exact List.mem_append_left _ (exchange_sent frame reply onAck w f hf hfits)

/-- A block that sends one frame and sets the last session id on success. -/
theorem openAs_opens {onAck : Bytes → SessionWorld → SessionWorld}
    (hkeep : KeepsSession onAck) (frame : SessionFrame) (reply : AgentReply)
    (key sessionId errorType detail : Bytes) :
    Opens (some frame) reply key w.agentKey
      (openAs env key sessionId errorType detail (exchange frame reply onAck w)) := by
  unfold openAs
  split
  · rename_i hok
    exact .of_exchange hkeep frame reply key rfl (if_pos hok).symm (List.append_nil _).symm
      (.nil _)
  · rename_i hok
    exact .of_exchange hkeep frame reply key rfl (if_neg hok).symm rfl (.errors _ _ _ _)

/-- A block that sends one frame and leaves the last session id alone. -/
theorem openOrReport_opens {onAck : Bytes → SessionWorld → SessionWorld}
    (hkeep : KeepsSession onAck) (frame : SessionFrame) (reply : AgentReply)
    (key errorType detail : Bytes) :
    Opens (some frame) reply key w.agentKey
      (openOrReport env key errorType detail (exchange frame reply onAck w)) := by
  unfold openOrReport
  split
  · rename_i hok
    exact .of_exchange hkeep frame reply key rfl (if_pos hok).symm (List.append_nil _).symm
      (.nil _)
  · rename_i hok
    exact .of_exchange hkeep frame reply key rfl (if_neg hok).symm rfl (.errors _ _ _ _)

/-- The checks before a load pass exactly the compatible states. -/
theorem checkStored_fst (env : SessionEnv) (index : SessionIndex) (key stateId what : Bytes) :
    (checkStored env index key stateId what).1 =
      if Compatible env index key then some stateId else none := by
  have hany : ∀ (o : Option Bytes) x, o.any (· ≠ x) = !o.all (· = x) := by
    intro o x
    cases o <;> simp
  by_cases hws : (index.getWorkspace key).all (· = env.workspace) <;>
    by_cases hmodel : (index.getModelId key).all (· = env.codexModel) <;>
    simp only [checkStored, Compatible, hany] <;> simp [hws, hmodel]

theorem checkStored_frames (env : SessionEnv) (frame : Option SessionFrame) (index : SessionIndex)
    (key stateId what : Bytes) :
    OnlyOpens frame (checkStored env index key stateId what).2 := by
  unfold checkStored
  split_ifs
  · exact .errors _ _ _ _
  · exact .errors _ _ _ _
  · exact .nil _

theorem exchange_index (frame : SessionFrame) (reply : AgentReply) (w : SessionWorld) :
    (exchange frame reply (fun _ w => w) w).world.index = w.index := by
  have hdeliver : (deliver frame reply w).index = w.index := by
    unfold deliver
    split
    · split <;> rfl
    · rfl
  unfold exchange
  split
  · rfl
  · dsimp only
    split <;> exact hdeliver

/-- Saving the previous session's state keeps the index, the last session id and
the agent's key. -/
theorem savePrevious_keeps (env : SessionEnv) (w : SessionWorld) (t : TurnInput)
    (oldKey : Bytes) (frame : Option SessionFrame) :
    (savePrevious env oldKey w t).1.index = w.index ∧
      (savePrevious env oldKey w t).1.agentKey = w.agentKey ∧
      OnlyOpens frame (savePrevious env oldKey w t).2 := by
  unfold savePrevious
  split
  · exact ⟨rfl, rfl, .nil _⟩
  split
  · refine ⟨exchange_index _ _ _, ?_, ?_⟩
    · refine (exchange_agentKey id_keeps _ _ _).trans ?_
      simp [keyAfter, SessionFrame.opens]
    · refine (OnlyOpens.save frame _ _).append ?_
      split
      · exact .nil _
      · exact .errors _ _ _ _
  · exact ⟨rfl, rfl, .nil _⟩

theorem engineLoad_opens (sessionId stateId now : Bytes) (reply : AgentReply)
    (key errorType detail : Bytes) :
    Opens (some (.loadState key stateId)) reply key w.agentKey
      (openAs env key sessionId errorType detail
        (engineLoadSessionState key stateId now reply w)) :=
  openAs_opens (recordState_keeps _ _ _ _ _) _ _ _ _ _ _

theorem engineCreate_opens (sessionId metadata now : Bytes) (reply : AgentReply)
    (key errorType detail : Bytes) :
    Opens (some (.createState key env.workspace env.codexModel env.contextTokens metadata))
      reply key w.agentKey
      (openAs env key sessionId errorType detail
        (engineCreateSessionState env key metadata now reply w)) :=
  openAs_opens (recordState_keeps _ _ _ _ _) _ _ _ _ _ _

theorem beginReset_opens (ht : t.resetSession = true) :
    Opens (openingFrame env w t) t.openReply (turnKey env w t) w.agentKey
      (beginReset env w t) := by
  have hkey : turnKey env w t = sessionKey env.workspace (resetSessionId t) := by
    simp [turnKey, effectiveSession, ht]
  unfold beginReset
  by_cases hnil : turnKey env w t = []
  · have hnone : openingFrame env w t = none := by simp [openingFrame, hnil]
    rw [hnone]
    simp only [← hkey, if_pos hnil]
    exact .none rfl rfl (.nil _)
  · have hsome : openingFrame env w t = some (creationFrame env w t) := by
      simp [openingFrame, hnil, ht]
    rw [hsome]
    simp only [← hkey, if_neg hnil, creationFrame]
    exact engineCreate_opens _ _ _ _ _ _ _

theorem beginDefault_opens (hstart : StartsDefault w t) (hload : env.canLoad = true) :
    Opens (openingFrame env w t) t.openReply (turnKey env w t) w.agentKey
      (beginDefault env w t) := by
  have hkey : turnKey env w t = sessionKey env.workspace (lit "default") := by
    simp [turnKey, effectiveSession, hstart.1, hstart.2.1, hstart.2.2]
  have hindex : (reloadIndex env w).index = turnIndex env w := rfl
  have hagent : (reloadIndex env w).agentKey = w.agentKey := rfl
  unfold beginDefault
  by_cases hnil : turnKey env w t = []
  · have hnone : openingFrame env w t = none := by simp [openingFrame, hnil]
    rw [hnone]
    simp only [← hkey, if_pos hnil]
    exact .none rfl rfl (.nil _)
  simp only [← hkey, if_neg hnil, openingFrame, hstart.1, hload, if_pos hstart, hindex,
    creationFrame, Bool.false_eq_true, if_false, not_true_eq_false]
  generalize reloadIndex env w = w' at hagent
  rw [← hagent]
  generalize turnKey env w t = key
  generalize turnIndex env w = index
  cases hlookup : index.lookup key with
  | none =>
      simp only [usableDefault, hlookup]
      exact (engineCreate_opens _ _ _ _ _ _ _).around (.nil _)
  | some stateId =>
      have hfst := checkStored_fst env index key stateId
        (lit "restore default session")
      have hframes := fun frame => checkStored_frames env frame index key
        stateId (lit "restore default session")
      by_cases hcompat : Compatible env index key
      · rw [if_pos hcompat] at hfst
        simp only [usableDefault, hlookup, if_pos hcompat, hfst]
        exact (engineLoad_opens _ _ _ _ _ _ _).around (hframes _)
      · rw [if_neg hcompat] at hfst
        simp only [usableDefault, hlookup, if_neg hcompat, hfst]
        exact (engineCreate_opens _ _ _ _ _ _ _).around (hframes _)

/-- The frame of a session switch. -/
def switchFrame (env : SessionEnv) (w : SessionWorld) (index : SessionIndex)
    (key : Bytes) : Option SessionFrame :=
  if env.canLoad then
    (index.lookup key).map fun stateId =>
      .switchState (sessionKey env.workspace w.lastSessionId) key stateId
  else none

theorem switchSession_opens (key : Bytes) :
    Opens (switchFrame env w w.index key) t.openReply key w.agentKey
      (switchSession env key w t) := by
  obtain ⟨hindex, hagent, hsaves⟩ := savePrevious_keeps env w t
    (sessionKey env.workspace w.lastSessionId) (switchFrame env w w.index key)
  unfold switchSession
  dsimp only
  rw [hindex]
  refine Opens.around ?_ hsaves
  rw [← hagent]
  cases hlookup : w.index.lookup key with
  | none =>
      have hnone : switchFrame env w w.index key = none := by
        simp [switchFrame, hlookup]
      rw [hnone]
      refine .none rfl rfl ?_
      dsimp only
      split
      · exact .errors _ _ _ _
      · exact .nil _
  | some stateId =>
      by_cases hload : env.canLoad
      · have hsome : switchFrame env w w.index key =
            some (.switchState (sessionKey env.workspace w.lastSessionId) key stateId) := by
          simp [switchFrame, hlookup, hload]
        rw [hsome]
        simp only [hload, if_true]
        exact openOrReport_opens id_keeps _ _ _ _ _
      · have hnone : switchFrame env w w.index key = none := by
          simp [switchFrame, hload]
        rw [hnone]
        simp only [hload]
        exact .none rfl rfl (.nil _)

/-- The frame of a first load. -/
def firstLoadFrame (env : SessionEnv) (index : SessionIndex) (key : Bytes) :
    Option SessionFrame :=
  if env.canLoad ∧ Compatible env index key then
    (index.lookup key).map fun stateId => .loadState key stateId
  else none

theorem firstLoad_opens (key : Bytes) :
    Opens (firstLoadFrame env w.index key) t.openReply key w.agentKey
      (firstLoad env key w t) := by
  unfold firstLoad
  cases hlookup : w.index.lookup key with
  | none =>
      have hnone : firstLoadFrame env w.index key = none := by
        simp [firstLoadFrame, hlookup]
      rw [hnone]
      refine .none rfl rfl ?_
      dsimp only
      split
      · exact .errors _ _ _ _
      · exact .nil _
  | some stateId =>
      have hfst := checkStored_fst env w.index key stateId (lit "load saved state")
      have hframes := checkStored_frames env none w.index key stateId
        (lit "load saved state")
      by_cases hload : env.canLoad
      · simp only [hload, if_true]
        generalize checkStored env w.index key stateId (lit "load saved state") = checked
          at hfst hframes
        obtain ⟨checked, errors⟩ := checked
        by_cases hcompat : Compatible env w.index key
        · obtain rfl : checked = some stateId := by simpa [hcompat] using hfst
          have hsome : firstLoadFrame env w.index key = some (.loadState key stateId) := by
            simp [firstLoadFrame, hlookup, hload, hcompat]
          rw [hsome]
          exact openOrReport_opens (recordState_keeps _ _ _ _ _) _ _ _ _ _
        · obtain rfl : checked = none := by simpa [hcompat] using hfst
          have hnone : firstLoadFrame env w.index key = none := by
            simp [firstLoadFrame, hcompat]
          rw [hnone]
          exact .none rfl rfl hframes
      · have hnone : firstLoadFrame env w.index key = none := by
          simp [firstLoadFrame, hload]
        rw [hnone]
        simp only [hload]
        exact .none rfl rfl (.nil _)

theorem beginNamed_opens (env : SessionEnv) (hreset : t.resetSession = false) (hnot : ¬ StartsDefault w t) :
    Opens (openingFrame env w t) t.openReply (turnKey env w t) w.agentKey
      (beginNamed env w t (effectiveSession w t)) := by
  unfold beginNamed
  have hkey : turnKey env w t = sessionKey env.workspace (effectiveSession w t) := rfl
  by_cases hnil : turnKey env w t = []
  · have hnone : openingFrame env w t = none := by simp [openingFrame, hnil]
    rw [hnone]
    simp only [← hkey, if_pos hnil]
    exact .none rfl rfl (.nil _)
  have hindex : (reloadIndex env w).index = turnIndex env w := rfl
  have hagent : (reloadIndex env w).agentKey = w.agentKey := rfl
  have hlast : (reloadIndex env w).lastSessionId = w.lastSessionId := rfl
  simp only [← hkey, if_neg hnil]
  refine Opens.setLast ?_ _
  generalize reloadIndex env w = w' at hindex hagent hlast
  rw [hlast, ← hagent]
  by_cases hfirst : w.lastSessionId = []
  · have hframe : openingFrame env w t = firstLoadFrame env w'.index (turnKey env w t) := by
      simp only [openingFrame, firstLoadFrame, if_neg hnil, hreset, if_neg hnot, hfirst,
        hindex]
      cases (turnIndex env w).lookup (turnKey env w t) <;> by_cases hload : env.canLoad <;>
        by_cases hcompat : Compatible env (turnIndex env w) (turnKey env w t) <;>
        simp [hload, hcompat]
    rw [hframe, if_neg (by simp [hfirst]), if_pos hfirst]
    exact firstLoad_opens _
  by_cases hsame : w.lastSessionId = effectiveSession w t
  · have hnone : openingFrame env w t = none := by
      simp only [openingFrame, if_neg hnil, hreset, if_neg hnot, if_neg hfirst, if_pos hsame]
      cases (turnIndex env w).lookup (turnKey env w t) <;> simp
    rw [hnone, if_neg (by simp [← hsame]), if_neg hfirst]
    exact .none rfl rfl (.nil _)
  · have hframe : openingFrame env w t = switchFrame env w' w'.index (turnKey env w t) := by
      simp only [openingFrame, switchFrame, if_neg hnil, hreset, if_neg hnot, if_neg hfirst,
        if_neg hsame, hindex, hlast]
      cases (turnIndex env w).lookup (turnKey env w t) <;> by_cases hload : env.canLoad <;>
        simp [hload]
    rw [hframe, if_pos ⟨hfirst, hsame⟩]
    exact switchSession_opens _

/-- **The session part of `turn_begin`.**  It asks the agent for the turn's
session by `openingFrame` and by no other frame. -/
theorem beginSession_opens (env : SessionEnv) (w : SessionWorld) (t : TurnInput) :
    Opens (openingFrame env w t) t.openReply (turnKey env w t) w.agentKey
      (beginSession env w t) := by
  unfold beginSession
  by_cases hreset : t.resetSession = true
  · rw [if_pos hreset]
    exact beginReset_opens hreset
  rw [Bool.not_eq_true] at hreset
  by_cases hprev : t.previousResponseId = []
  · by_cases hlast : w.lastSessionId = []
    · have hstart : StartsDefault w t := ⟨hreset, hprev, hlast⟩
      by_cases hload : env.canLoad = true
      · simp only [hreset, hprev, hlast, hload, Bool.false_eq_true, if_false, ne_eq,
          not_true_eq_false, if_true]
        exact beginDefault_opens hstart hload
      · have hnone : openingFrame env w t = none := by
          simp [openingFrame, hreset, hload]
        rw [hnone]
        simp only [hreset, hprev, hlast, hload, Bool.false_eq_true, if_false, ne_eq,
          not_true_eq_false]
        exact .none rfl rfl (.nil _)
    · have heff : effectiveSession w t = w.lastSessionId := by
        simp [effectiveSession, hreset, hprev, hlast]
      have hnamed := beginNamed_opens env hreset
        (fun h : StartsDefault w t => hlast h.2.2)
      rw [heff] at hnamed
      simpa [hreset, hprev, hlast] using hnamed
  · have heff : effectiveSession w t = t.previousResponseId := by
      simp [effectiveSession, hreset, hprev]
    have hnamed := beginNamed_opens env hreset
      (fun h : StartsDefault w t => hprev h.2.1)
    rw [heff] at hnamed
    simpa [hreset, hprev] using hnamed

/-- Which frame opens the session of a turn: a creation for a reset or for the
default session, a load of a compatible state, or a switch. -/
theorem openingFrame_cases {f : SessionFrame} (h : openingFrame env w t = some f) :
    turnKey env w t ≠ [] ∧
      ((f = creationFrame env w t ∧ (t.resetSession = true ∨ StartsDefault w t)) ∨
        (∃ stateId, (turnIndex env w).lookup (turnKey env w t) = some stateId ∧
          f = .loadState (turnKey env w t) stateId ∧
          Compatible env (turnIndex env w) (turnKey env w t)) ∨
        (∃ stateId, (turnIndex env w).lookup (turnKey env w t) = some stateId ∧
          f = .switchState (sessionKey env.workspace w.lastSessionId)
            (turnKey env w t) stateId)) := by
  unfold openingFrame at h
  by_cases hkey : turnKey env w t = []
  · simp [hkey] at h
  refine ⟨hkey, ?_⟩
  rw [if_neg hkey] at h
  split at h
  · exact .inl ⟨(Option.some.inj h).symm, .inl ‹_›⟩
  split at h
  · cases h
  split at h
  · split at h
    · split at h
      · exact .inr (.inl ⟨_, ‹_›, (Option.some.inj h).symm, ‹_›⟩)
      · exact .inl ⟨(Option.some.inj h).symm, .inr ‹_›⟩
    · exact .inl ⟨(Option.some.inj h).symm, .inr ‹_›⟩
  · split at h
    · split at h
      · split at h
        · exact .inr (.inl ⟨_, ‹_›, (Option.some.inj h).symm, ‹_›⟩)
        · cases h
      split at h
      · cases h
      · exact .inr (.inr ⟨_, ‹_›, (Option.some.inj h).symm⟩)
    · cases h

/-- The opening frame carries the key of the turn. -/
theorem openingFrame_opens {f : SessionFrame} (h : openingFrame env w t = some f) :
    f.opens = some (readBack (turnKey env w t)) := by
  obtain ⟨-, ⟨rfl, -⟩ | ⟨stateId, -, rfl, -⟩ | ⟨stateId, -, rfl⟩⟩ := openingFrame_cases h <;>
    rfl

end StarBridge
