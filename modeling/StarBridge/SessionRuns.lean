import StarBridge.Runs
import StarBridge.SessionOpening

/-!
# Sessions over runs of turns

Three laws of session handling, each settled exactly: for every state and every
turn, the law holds of the turn iff a condition on that state and that turn
does, and so for every run.

* the request of a turn reaches the agent in the turn's session;
* a session is filed under the key it was opened with;
* only states made for the engine's workspace and model are opened.
-/

namespace StarBridge

open CText Runs

variable {env : SessionEnv} {w : SessionWorld} {t : TurnInput}

/-! ## Session isolation -/

/-- When the request of a turn goes out the agent is active under the key of
the turn's session; and without a request `turn_begin` returns false. -/
def IsolatesSession (env : SessionEnv) (w : SessionWorld) (t : TurnInput) : Prop :=
  (.request (requestArgs env t) ∈ (turnBegin env w t).frames →
      (turnBegin env w t).outcome.world.agentKey = some (turnKey env w t)) ∧
    (.request (requestArgs env t) ∉ (turnBegin env w t).frames →
      (turnBegin env w t).returned = false)

/-- The agent accepts a frame that opens the turn's session and carries its key
whole, or it accepts none and is active under that key already. -/
def ReachesTurnKey (env : SessionEnv) (w : SessionWorld) (t : TurnInput) : Prop :=
  (∃ f, openingFrame env w t = some f ∧ f.Fits ∧ t.openReply.accepts = true ∧
      readBack (turnKey env w t) = turnKey env w t) ∨
    (w.agentKey = some (turnKey env w t) ∧
      ¬ ∃ f, openingFrame env w t = some f ∧ f.Fits ∧ t.openReply.accepts = true)

/-- One turn, exactly. -/
theorem isolatesSession_iff (env : SessionEnv) (w : SessionWorld) (t : TurnInput) :
    IsolatesSession env w t ↔ ReachesTurnKey env w t := by
  have hsent : AgentFrame.request (requestArgs env t) ∈ (turnBegin env w t).frames :=
    List.mem_append_right _ (List.mem_singleton_self _)
  have hkey : (turnBegin env w t).outcome.world.agentKey =
      keyAfter (openingFrame env w t) t.openReply w.agentKey :=
    (beginSession_opens env w t).agentKey
  have hiso : IsolatesSession env w t ↔
      keyAfter (openingFrame env w t) t.openReply w.agentKey = some (turnKey env w t) := by
    simp [IsolatesSession, hsent, hkey]
  rw [hiso, ReachesTurnKey]
  cases hframe : openingFrame env w t with
  | none => simp [keyAfter]
  | some f =>
      by_cases hgo : f.Fits ∧ t.openReply.accepts = true
      · simp [keyAfter, hgo, openingFrame_opens hframe]
      · have hstay : keyAfter (some f) t.openReply w.agentKey = w.agentKey := by
          simp only [keyAfter, if_neg hgo]
        rw [hstay]
        constructor
        · rintro h
          refine .inr ⟨h, ?_⟩
          rintro ⟨g, hg, hfits⟩
          exact hgo (Option.some.inj hg ▸ hfits)
        · rintro (⟨g, hg, hfits, haccepts, -⟩ | ⟨h, -⟩)
          · exact absurd ⟨Option.some.inj hg ▸ hfits, haccepts⟩ hgo
          · exact h

/-- A bridge for workspace `/w` and model `m`, with sessions on. -/
def sampleEnv : SessionEnv :=
  { workspace := lit "/w", codexModel := lit "m", contextTokens := 4096
    autoLoadProjectSession := true, kvCachePolicy := lit "per_session"
    autoSaveKvCache := true, autoLoadResumeSession := true, hideToolTranscripts := true
    stdinOpen := true, numberToInt := fun _ => 4096 }

/-- A bridge that has just started, over this index file. -/
def freshWorld (file : Option Bytes) : SessionWorld :=
  { index := .empty, file := file, lastSessionId := [], agentKey := none }

/-- An accepted request, with the state id the agent reports. -/
def acceptedReply : AgentReply :=
  ⟨true, some (lit "\x7b\"type\":\"ack\",\"status\":\"accepted\",\"state_id\":\"s1\"\x7d")⟩

/-- A turn for this session id in which the agent accepts everything. -/
def sampleTurn (previousResponseId : Bytes) : TurnInput :=
  { requestNumber := 1, input := lit "hi", previousResponseId := previousResponseId
    reasoningEffort := [], resetSession := false, toolHistory := []
    resetSeconds := 0, resetNanoseconds := 0, metadata := lit "\x7b\x7d", now := lit "7"
    saveReply := acceptedReply, openReply := acceptedReply, completes := true
    finalSaveReply := acceptedReply }

theorem openAs_last {key sessionId errorType detail : Bytes} {step : SessionStep}
    {k : Bytes} (h : (openAs env key sessionId errorType detail step).opened = some k) :
    (openAs env key sessionId errorType detail step).world.lastSessionId =
      clip 256 sessionId := by
  unfold openAs at h ⊢
  split
  · rfl
  · rename_i hfail
    rw [if_neg hfail] at h
    cases h

/-- A session id with a key is short enough to be kept as the last one. -/
theorem clip_of_sessionKey {workspaceRoot sessionId : Bytes}
    (h : sessionKey workspaceRoot sessionId ≠ []) : clip 256 sessionId = sessionId := by
  unfold sessionKey at h
  split at h
  · rename_i hlen
    refine clip_eq_self ?_
    simp only [sessionKeyText, List.length_append] at hlen
    omega
  · exact absurd rfl h

/-- A key is never the key of itself. -/
theorem sessionKey_self_ne {workspaceRoot key : Bytes} (h : key ≠ []) :
    sessionKey workspaceRoot key ≠ key := by
  intro heq
  rcases sessionKey_cases workspaceRoot key with hnil | htext
  · exact h (heq.symm.trans hnil)
  · have hlen := congrArg List.length (htext.symm.trans heq)
    simp only [sessionKeyText, List.length_append] at hlen
    have hone : (lit "_").length = 1 := rfl
    omega

/-- The turn creates the default session. -/
def CreatesDefault (env : SessionEnv) (w : SessionWorld) (t : TurnInput) : Prop :=
  StartsDefault w t ∧ openingFrame env w t = some (creationFrame env w t) ∧
    (creationFrame env w t).Fits ∧ t.openReply.acknowledged = true

theorem clip_sessionKey (workspaceRoot sessionId : Bytes) :
    clip 256 (sessionKey workspaceRoot sessionId) = sessionKey workspaceRoot sessionId := by
  unfold sessionKey
  split
  · exact clip_eq_self ‹_›
  · exact clip_nil _

theorem beginReset_last {k : Bytes} (hreset : t.resetSession = true)
    (hkey : turnKey env w t ≠ []) (h : (beginReset env w t).opened = some k) :
    (beginReset env w t).world.lastSessionId = effectiveSession w t := by
  have heff : effectiveSession w t = resetSessionId t := by
    simp [effectiveSession, hreset]
  have hreset' : sessionKey env.workspace (resetSessionId t) ≠ [] := by
    rwa [← heff]
  unfold beginReset at h ⊢
  simp only [if_neg hreset'] at h ⊢
  rw [openAs_last h, heff]
  exact clip_of_sessionKey hreset'

theorem beginDefault_last {k : Bytes} (hstart : StartsDefault w t)
    (hload : env.canLoad = true) (hkey : turnKey env w t ≠ [])
    (h : (beginDefault env w t).opened = some k) :
    (beginDefault env w t).world.lastSessionId =
      if openingFrame env w t = some (creationFrame env w t) then turnKey env w t
      else effectiveSession w t := by
  have heff : effectiveSession w t = lit "default" := by
    simp [effectiveSession, hstart.1, hstart.2.1, hstart.2.2]
  have hturn : turnKey env w t = sessionKey env.workspace (lit "default") := by
    rw [turnKey, heff]
  have hindex : (reloadIndex env w).index = turnIndex env w := rfl
  have hclip : clip 256 (turnKey env w t) = turnKey env w t := clip_sessionKey _ _
  unfold beginDefault at h ⊢
  simp only [← hturn, if_neg hkey, openingFrame, hstart.1, hload, if_pos hstart, hindex,
    creationFrame, Bool.false_eq_true, if_false, not_true_eq_false] at h ⊢
  cases hlookup : (turnIndex env w).lookup (turnKey env w t) with
  | none =>
      simp only [usableDefault, hlookup, if_true] at h ⊢
      rw [openAs_last h, hclip]
  | some stateId =>
      have hfst := checkStored_fst env (turnIndex env w) (turnKey env w t) stateId
        (lit "restore default session")
      by_cases hcompat : Compatible env (turnIndex env w) (turnKey env w t)
      · rw [if_pos hcompat] at hfst
        simp only [usableDefault, hlookup, if_pos hcompat, hfst] at h ⊢
        rw [openAs_last h, if_neg (by simp), heff]
        rfl
      · rw [if_neg hcompat] at hfst
        simp only [usableDefault, hlookup, if_neg hcompat, hfst, if_true] at h ⊢
        rw [openAs_last h, hclip]

theorem beginNamed_last (sessionId : Bytes) (hkey : sessionKey env.workspace sessionId ≠ []) :
    (beginNamed env w t sessionId).world.lastSessionId = sessionId := by
  unfold beginNamed
  simp only [if_neg hkey]
  exact clip_of_sessionKey hkey

/-- After a turn that opened a session, the last session id is the id the
session's key was made from, or that key itself when the default session was
created. -/
theorem lastSessionId_of_opened {k : Bytes} (h : (beginSession env w t).opened = some k) :
    k = turnKey env w t ∧ turnKey env w t ≠ [] ∧
      (beginSession env w t).world.lastSessionId =
        if StartsDefault w t ∧ openingFrame env w t = some (creationFrame env w t) then
          turnKey env w t
        else effectiveSession w t := by
  obtain ⟨f, hframe, hk⟩ : ∃ f, openingFrame env w t = some f ∧ k = turnKey env w t := by
    have hopens := (beginSession_opens env w t).opened
    rw [h] at hopens
    unfold openedUnder at hopens
    split at hopens
    · split at hopens
      · exact ⟨_, ‹_›, Option.some.inj hopens⟩
      · cases hopens
    · cases hopens
  have hkey := (openingFrame_cases hframe).1
  refine ⟨hk, hkey, ?_⟩
  unfold beginSession at h ⊢
  by_cases hreset : t.resetSession = true
  · have hnot : ¬ StartsDefault w t := fun hs => by simp [hs.1] at hreset
    simp only [hreset, if_true, hnot, false_and, if_false] at h ⊢
    exact beginReset_last hreset hkey h
  rw [if_neg hreset] at h ⊢
  by_cases hprev : t.previousResponseId = []
  · by_cases hlast : w.lastSessionId = []
    · have hstart : StartsDefault w t := ⟨by simpa using hreset, hprev, hlast⟩
      have hload : env.canLoad = true := by
        by_contra hno
        simp [openingFrame, hreset, hno] at hframe
      simp only [hprev, hlast, hload, hstart, ne_eq, not_true_eq_false, if_false, if_true,
        true_and] at h ⊢
      exact beginDefault_last hstart hload hkey h
    · have hnot : ¬ StartsDefault w t := fun hs => hlast hs.2.2
      have heff : effectiveSession w t = w.lastSessionId := by
        simp [effectiveSession, hreset, hprev, hlast]
      rw [turnKey, heff] at hkey
      simp only [hprev, hlast, hnot, ne_eq, not_true_eq_false, not_false_eq_true, if_false,
        if_true, false_and, heff]
      exact beginNamed_last _ hkey
  · have hnot : ¬ StartsDefault w t := fun hs => hprev hs.2.1
    have heff : effectiveSession w t = t.previousResponseId := by
      simp [effectiveSession, hreset, hprev]
    rw [turnKey, heff] at hkey
    simp only [hprev, hnot, ne_eq, not_false_eq_true, if_false, if_true, false_and, heff]
    exact beginNamed_last _ hkey

/-- When `turn_begin` opened a session, the key made from the last session id is
the key it opened it under, and the save at the end of the turn is filed there
too. -/
def FilesUnderOpenedKey (env : SessionEnv) (w : SessionWorld) (t : TurnInput) : Prop :=
  ∀ k, (turnBegin env w t).outcome.opened = some k →
    sessionKey env.workspace (turnBegin env w t).outcome.world.lastSessionId = k ∧
      ∀ k' s, .session (.saveState k' s) ∈ finalFrames env w t → k' = k

/-- The end-of-turn save goes under the key of the last session id. -/
theorem saveAfterTurn_frames {f : AgentFrame} (h : f ∈ (saveAfterTurn env w t).frames) :
    ∃ s, f = .session (.saveState (sessionKey env.workspace w.lastSessionId) s) := by
  unfold saveAfterTurn at h
  split at h
  · dsimp only at h
    split at h
    · cases h
    split at h
    · unfold engineSaveSessionState at h
      rw [exchange_frames] at h
      split at h
      · exact ⟨_, List.mem_singleton.mp h⟩
      · cases h
    · cases h
  · cases h

/-- One turn, exactly. -/
theorem filesUnderOpenedKey_iff (env : SessionEnv) (w : SessionWorld) (t : TurnInput) :
    FilesUnderOpenedKey env w t ↔ ¬ CreatesDefault env w t := by
  have hout : (turnBegin env w t).outcome = beginSession env w t := rfl
  unfold FilesUnderOpenedKey
  rw [hout]
  constructor
  · rintro hfiles ⟨hstart, hframe, hfits, hack⟩
    have hopened : (beginSession env w t).opened = some (turnKey env w t) := by
      rw [(beginSession_opens env w t).opened, hframe]
      simp [openedUnder, hfits, hack]
    obtain ⟨-, hkey, hlast⟩ := lastSessionId_of_opened hopened
    rw [if_pos ⟨hstart, hframe⟩] at hlast
    have hsame := (hfiles _ hopened).1
    rw [hlast] at hsame
    exact sessionKey_self_ne hkey hsame
  · intro hnot k hopened
    obtain ⟨rfl, hkey, hlast⟩ := lastSessionId_of_opened hopened
    have hcreates : ¬ (StartsDefault w t ∧
        openingFrame env w t = some (creationFrame env w t)) := by
      rintro ⟨hstart, hframe⟩
      have := (beginSession_opens env w t).opened
      rw [hopened, hframe] at this
      by_cases hgo : (creationFrame env w t).Fits ∧ t.openReply.acknowledged = true
      · exact hnot ⟨hstart, hframe, hgo.1, hgo.2⟩
      · simp only [openedUnder, if_neg hgo] at this
        cases this
    rw [if_neg hcreates] at hlast
    have hagree : sessionKey env.workspace (beginSession env w t).world.lastSessionId =
        turnKey env w t := by
      rw [hlast]
      rfl
    refine ⟨hagree, fun k' s hsave => ?_⟩
    unfold finalFrames at hsave
    split at hsave
    · obtain ⟨s', hs'⟩ := saveAfterTurn_frames hsave
      have hk' : k' = sessionKey env.workspace
          (turnBegin env w t).outcome.world.lastSessionId := by
        simpa using (SessionFrame.saveState.inj (AgentFrame.session.inj hs')).1
      rw [hk']
      exact hagree
    · cases hsave

/-- A load or switch frame for the state of an index entry. -/
def NamesState (f : SessionFrame) (e : SessionIndexEntry) : Prop :=
  f = .loadState e.key e.stateId ∨ ∃ fromKey, f = .switchState fromKey e.key e.stateId

/-- The workspace and model recorded with a state, where they are, are the
engine's. -/
def MadeHere (env : SessionEnv) (e : SessionIndexEntry) : Prop :=
  (e.workspaceRoot ≠ [] → e.workspaceRoot = env.workspace) ∧
    (e.modelId ≠ [] → e.modelId = env.codexModel)

/-- No frame of the turn loads or switches to a state made for another workspace
or model. -/
def OpensOnlyCompatible (env : SessionEnv) (w : SessionWorld) (t : TurnInput) : Prop :=
  ∀ f e, .session f ∈ (turnBegin env w t).frames ++ finalFrames env w t →
    (turnIndex env w).find e.key = some e → NamesState f e → MadeHere env e

/-- The turn switches to a session whose recorded workspace or model is not the
engine's. -/
def SwitchesToIncompatible (env : SessionEnv) (w : SessionWorld) (t : TurnInput) : Prop :=
  (∃ fromKey stateId,
      openingFrame env w t = some (.switchState fromKey (turnKey env w t) stateId)) ∧
    ¬ Compatible env (turnIndex env w) (turnKey env w t)

theorem find_key {index : SessionIndex} {key : Bytes} {e : SessionIndexEntry}
    (h : index.find key = some e) : e.key = key := by
  simpa using List.find?_some h

/-- The checks look at the entry a key stands for. -/
theorem compatible_iff {index : SessionIndex} {key : Bytes} {e : SessionIndexEntry}
    (h : index.find key = some e) : Compatible env index key ↔ MadeHere env e := by
  have hfield : ∀ field x : Bytes,
      (SessionIndex.nonEmpty field).all (· = x) = true ↔ (field ≠ [] → field = x) := by
    intro field x
    by_cases hnil : field = [] <;> simp [SessionIndex.nonEmpty, hnil]
  simp [Compatible, MadeHere, SessionIndex.getWorkspace, SessionIndex.getModelId, h, hfield]

/-- The session frames of a turn are saves and, at most, its opening frame. -/
theorem mem_turn_frames {f : SessionFrame}
    (h : .session f ∈ (turnBegin env w t).frames ++ finalFrames env w t) :
    openingFrame env w t = some f ∨ ∃ k s, f = .saveState k s := by
  rcases List.mem_append.mp h with hbegin | hfinal
  · rcases List.mem_append.mp hbegin with hsession | hrequest
    · rcases (beginSession_opens env w t).frames _ hsession with ⟨g, hg, hcase⟩ | ⟨_, _, hf⟩
      · obtain rfl := AgentFrame.session.inj hg
        exact hcase
      · cases hf
    · simp at hrequest
  · unfold finalFrames at hfinal
    split at hfinal
    · obtain ⟨s, hs⟩ := saveAfterTurn_frames hfinal
      exact .inr ⟨_, s, AgentFrame.session.inj hs⟩
    · cases hfinal

/-- One turn, exactly. -/
theorem opensOnlyCompatible_iff (env : SessionEnv) (w : SessionWorld) (t : TurnInput) :
    OpensOnlyCompatible env w t ↔ ¬ SwitchesToIncompatible env w t := by
  constructor
  · rintro honly ⟨⟨fromKey, stateId, hframe⟩, hnot⟩
    -- the switch frame is sent, and names the entry that fails the checks
    have hsent := (beginSession_opens env w t).sent _ hframe
      (SessionFrame.fits_of_bufferSize rfl)
    obtain ⟨-, ⟨hf, -⟩ | ⟨_, -, hf, -⟩ | ⟨s, hlookup, hf⟩⟩ := openingFrame_cases hframe
    · cases hf
    · cases hf
    obtain ⟨e, hfind, he⟩ := Option.map_eq_some_iff.mp hlookup
    have hkey := find_key hfind
    have hs : stateId = e.stateId := (SessionFrame.switchState.inj hf).2.2.trans he.symm
    have hmade := honly (.switchState fromKey (turnKey env w t) stateId) e
      (List.mem_append_left _ (List.mem_append_left _ hsent)) (hkey.symm ▸ hfind)
      (.inr ⟨fromKey, by rw [hkey, hs]⟩)
    exact hnot ((compatible_iff hfind).mpr hmade)
  · intro hno f e hmem hfind hnames
    rcases mem_turn_frames hmem with hframe | ⟨k, s, rfl⟩
    · obtain ⟨-, ⟨rfl, -⟩ | ⟨stateId, -, rfl, hcompat⟩ | ⟨stateId, -, rfl⟩⟩ :=
        openingFrame_cases hframe
      · rcases hnames with h | ⟨_, h⟩ <;> cases h
      · rcases hnames with h | ⟨_, h⟩
        · have hkey := (SessionFrame.loadState.inj h).1
          exact (compatible_iff (hkey ▸ hfind)).mp hcompat
        · cases h
      · rcases hnames with h | ⟨_, h⟩
        · cases h
        · have hkey := (SessionFrame.switchState.inj h).2.1
          by_contra hbad
          exact hno ⟨⟨_, _, hframe⟩, fun hcompat =>
            hbad ((compatible_iff (hkey ▸ hfind)).mp hcompat)⟩
    · rcases hnames with h | ⟨_, h⟩ <;> cases h

/-- An index file from a bridge that ran another model, with a state for
conversation B. -/
def otherModelFile : Option Bytes :=
  (SessionIndex.save
    ⟨[⟨sessionKey (lit "/w") (lit "B"), lit "s2", lit "/w", lit "other", 4096, lit "1"⟩],
      [], true⟩ none).2

end StarBridge
