import StarBridge.TurnBegin

/-!
# The errors of `turn_begin`

`turn_begin` tells the agent of what goes wrong with a session in error frames, and
sends its request all the same.  Both texts of such a frame are literals of the
source; `turnBegin_noticed` lists them for every turn.
-/

namespace StarBridge

open CText

/-- The error frames of `turn_begin`. -/
def sessionNotices : List (Bytes × Bytes) :=
  [(lit "session_create_failure", lit "failed to create fresh session state"),
    (lit "session_incompatible_state",
      lit "workspace mismatch: cannot " ++ lit "restore default session"),
    (lit "session_incompatible_state",
      lit "model mismatch: cannot " ++ lit "restore default session"),
    (lit "session_corrupt_state",
      lit "failed to load default session: native agent returned error"),
    (lit "session_create_failure", lit "failed to create default session state"),
    (lit "session_save_failure", lit "failed to save previous session state"),
    (lit "session_switch_failure", lit "native agent failed to switch session state"),
    (lit "session_state_missing", lit "target session state not found in index"),
    (lit "session_incompatible_state",
      lit "workspace mismatch: cannot " ++ lit "load saved state"),
    (lit "session_incompatible_state",
      lit "model mismatch: cannot " ++ lit "load saved state"),
    (lit "session_corrupt_state", lit "failed to load KV cache: native agent returned error"),
    (lit "session_state_missing", lit "no saved state found for this session")]

/-- Of the error frames only those of `turn_begin`. -/
def Noticed (frames : List AgentFrame) : Prop :=
  ∀ errorType detail, .error errorType detail ∈ frames → (errorType, detail) ∈ sessionNotices

theorem exchange_noticed (frame : SessionFrame) (reply : AgentReply)
    (onAck : Bytes → SessionWorld → SessionWorld) (world : SessionWorld) :
    Noticed (exchange frame reply onAck world).frames := by
  intro a b h
  unfold exchange at h
  grind

theorem noticed_nil : Noticed [] := fun _ _ h => by cases h

theorem Noticed.append {front behind : List AgentFrame} (hfront : Noticed front)
    (hbehind : Noticed behind) : Noticed (front ++ behind) := by
  intro errorType detail h
  rcases List.mem_append.mp h with h | h
  · exact hfront _ _ h
  · exact hbehind _ _ h

section

variable {env : SessionEnv} {errorType detail : Bytes}

theorem noticed_sendError (h : (errorType, detail) ∈ sessionNotices) :
    Noticed (engineSendError env errorType detail) := by
  intro a b hmem
  unfold engineSendError at hmem
  split_ifs at hmem
  · cases List.mem_singleton.mp hmem
    exact h
  · cases hmem

theorem openAs_noticed {key sessionId : Bytes} {step : SessionStep} (hstep : Noticed step.frames)
    (h : (errorType, detail) ∈ sessionNotices) :
    Noticed (openAs env key sessionId errorType detail step).frames := by
  unfold openAs
  split_ifs
  · exact hstep
  · exact hstep.append (noticed_sendError h)

theorem openOrReport_noticed {key : Bytes} {step : SessionStep} (hstep : Noticed step.frames)
    (h : (errorType, detail) ∈ sessionNotices) :
    Noticed (openOrReport env key errorType detail step).frames := by
  unfold openOrReport
  split_ifs
  · exact hstep
  · exact hstep.append (noticed_sendError h)

end

section

variable (env : SessionEnv) (w : SessionWorld) (t : TurnInput)

theorem checkStored_noticed (index : SessionIndex) (key stateId : Bytes) {what : Bytes}
    (h : what = lit "restore default session" ∨ what = lit "load saved state") :
    Noticed (checkStored env index key stateId what).2 := by
  have hall : ∀ what ∈ [lit "restore default session", lit "load saved state"],
      ∀ mismatch ∈ [lit "workspace mismatch: cannot ", lit "model mismatch: cannot "],
        (lit "session_incompatible_state", mismatch ++ what) ∈ sessionNotices := by
    decide
  have hwhat : what ∈ [lit "restore default session", lit "load saved state"] := by
    simpa using h
  unfold checkStored
  split_ifs
  · exact noticed_sendError (hall what hwhat _ (by simp))
  · exact noticed_sendError (hall what hwhat _ (by simp))
  · exact noticed_nil

theorem beginReset_noticed : Noticed (beginReset env w t).frames := by
  unfold beginReset
  dsimp only
  split_ifs
  · exact noticed_nil
  · exact openAs_noticed (exchange_noticed _ _ _ _) (by simp [sessionNotices])

theorem beginDefault_noticed : Noticed (beginDefault env w t).frames := by
  unfold beginDefault usableDefault
  dsimp only
  split_ifs
  · exact noticed_nil
  refine Noticed.append ?_ ?_
  · split
    · exact noticed_nil
    · exact checkStored_noticed env _ _ _ (Or.inl rfl)
  · split
    · exact openAs_noticed (exchange_noticed _ _ _ _) (by simp [sessionNotices])
    · exact openAs_noticed (exchange_noticed _ _ _ _) (by simp [sessionNotices])

theorem savePrevious_noticed (oldKey : Bytes) : Noticed (savePrevious env oldKey w t).2 := by
  unfold savePrevious
  split
  · exact noticed_nil
  · split_ifs
    · refine (exchange_noticed _ _ _ _).append ?_
      split_ifs
      · exact noticed_nil
      · exact noticed_sendError (by simp [sessionNotices])
    · exact noticed_nil

theorem missing_noticed {detail : Bytes} (h : (lit "session_state_missing", detail) ∈ sessionNotices) :
    Noticed (if env.canLoad then engineSendError env (lit "session_state_missing") detail
      else []) := by
  split_ifs
  · exact noticed_sendError h
  · exact noticed_nil

theorem switchSession_noticed (key : Bytes) : Noticed (switchSession env key w t).frames := by
  unfold switchSession
  refine Noticed.append (savePrevious_noticed _ _ _ _) ?_
  split
  · split_ifs
    · exact openOrReport_noticed (exchange_noticed _ _ _ _) (by simp [sessionNotices])
    · exact noticed_nil
  · exact missing_noticed env (by simp [sessionNotices])

theorem firstLoad_noticed (key : Bytes) : Noticed (firstLoad env key w t).frames := by
  unfold firstLoad
  split
  · rename_i stateId _
    have hchecked := checkStored_noticed env w.index key stateId (Or.inr rfl)
    split_ifs
    · split
      · rename_i heq
        rw [heq] at hchecked
        exact hchecked
      · exact openOrReport_noticed (exchange_noticed _ _ _ _) (by simp [sessionNotices])
    · exact noticed_nil
  · exact missing_noticed env (by simp [sessionNotices])

theorem beginNamed_noticed (sessionId : Bytes) :
    Noticed (beginNamed env w t sessionId).frames := by
  unfold beginNamed
  dsimp only
  split_ifs
  · exact noticed_nil
  · exact switchSession_noticed _ _ _ _
  · exact firstLoad_noticed _ _ _ _
  · exact noticed_nil

theorem beginSession_noticed : Noticed (beginSession env w t).frames := by
  unfold beginSession
  split_ifs
  · exact beginReset_noticed _ _ _
  · exact beginNamed_noticed _ _ _ _
  · exact beginNamed_noticed _ _ _ _
  · exact beginDefault_noticed _ _ _
  · exact noticed_nil

/-- **The errors `turn_begin` reports** are these, and no others. -/
theorem turnBegin_noticed : Noticed (turnBegin env w t).frames := by
  refine (beginSession_noticed env w t).append ?_
  intro errorType detail h
  cases List.mem_singleton.mp h

/-- The save behind a turn reports none. -/
theorem finalFrames_noticed : Noticed (finalFrames env w t) := by
  unfold finalFrames saveAfterTurn
  split_ifs
  · dsimp only
    split_ifs
    · exact noticed_nil
    · split
      · exact exchange_noticed _ _ _ _
      · exact noticed_nil
  · exact noticed_nil
  · exact noticed_nil

end

end StarBridge
