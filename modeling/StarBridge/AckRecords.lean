import StarBridge.IndexFile
import StarBridge.SessionRuns

/-!
# What the index records of an acknowledgement

`engine_load_session_state` and `engine_create_session_state` look twice at the
frame they read: for the two texts of an acceptance, and for the state id behind
the first `"state_id":"`.  The state id is recorded whether or not the frame is
an acceptance, and an acceptance without that exact text records nothing.
-/

namespace StarBridge

open CText

/-- A call that may record a state id, for the key of a session. -/
inductive RecordingOp
  | load (stateId : Bytes)
  | create (metadata : Bytes)
  deriving DecidableEq, Repr

namespace RecordingOp

/-- The frame the call writes. -/
def frame (env : SessionEnv) (key : Bytes) : RecordingOp → SessionFrame
  | load stateId => .loadState key stateId
  | create metadata =>
      .createState key env.workspace env.codexModel env.contextTokens metadata

/-- The call. -/
def step (env : SessionEnv) (key now : Bytes) (reply : AgentReply) (w : SessionWorld) :
    RecordingOp → SessionStep
  | load stateId => engineLoadSessionState key stateId now reply w
  | create metadata => engineCreateSessionState env key metadata now reply w

/-- The workspace, model and budget that go into the index with the state id. -/
def recorded (env : SessionEnv) : RecordingOp → Bytes × Bytes × Int
  | load _ => ([], [], 0)
  | create _ => (env.workspace, env.codexModel, env.contextTokens)

/-- The index with a state id recorded. -/
def updated (env : SessionEnv) (key now stateId : Bytes) (index : SessionIndex)
    (op : RecordingOp) : SessionIndex :=
  index.update key stateId (op.recorded env).1 (op.recorded env).2.1 (op.recorded env).2.2 now

end RecordingOp

/-- The acknowledgement is a JSON object with this state id. -/
def CarriesStateId (ack stateId : Bytes) : Prop :=
  ∃ obj, CJson.parse ack = some obj ∧ CJson.stringField obj (lit "state_id") = some stateId

/-- The index records exactly what is accepted: a call that fails leaves index
and file alone, and a created state is found under its key. -/
structure RecordsExactly (env : SessionEnv) (key now : Bytes) (reply : AgentReply)
    (w : SessionWorld) (op : RecordingOp) : Prop where
  failed : (op.step env key now reply w).ok = false →
    (op.step env key now reply w).world.index.entries = w.index.entries ∧
      (op.step env key now reply w).world.file = w.file
  created : (∃ metadata, op = .create metadata) → (op.step env key now reply w).ok = true →
    ∀ ack stateId, reply.ack = some ack → CarriesStateId ack stateId → stateId ≠ [] →
      (op.step env key now reply w).world.index.lookup key = some stateId

/-- Recording the state id makes no difference: its entry is as the call would
make it, or there is no room for one, and the file is up to date or need not
be. -/
def AlreadyRecorded (env : SessionEnv) (key now stateId : Bytes) (w : SessionWorld)
    (op : RecordingOp) : Prop :=
  match w.index.find key with
  | some e =>
      SessionIndex.overwriteEntry stateId (op.recorded env).1 (op.recorded env).2.1
          (op.recorded env).2.2 now e = e ∧
        w.file = some (SessionIndex.fileText w.index.entries)
  | none =>
      SessionIndex.maxEntries ≤ w.index.entries.length ∧
        (w.index.dirty = true → w.file = some (SessionIndex.fileText w.index.entries))

/-- The state id is found in the acknowledgement as it is, fits its entry, and
there is an entry or room for one. -/
def FoundWhole (key stateId ack : Bytes) (index : SessionIndex) : Prop :=
  match ackStateId ack with
  | some found => clip 128 found = stateId ∧ index.updateOk key = true
  | none => index.lookup key = some stateId

/-- What an acknowledgement has to be like for the index to record exactly what
is accepted. -/
structure AckRecords (env : SessionEnv) (key now ack : Bytes) (w : SessionWorld)
    (op : RecordingOp) : Prop where
  rejected : ackAccepted ack = false → ∀ stateId, ackStateId ack = some stateId →
    AlreadyRecorded env key now stateId w op
  accepted : (∃ metadata, op = .create metadata) → ackAccepted ack = true →
    ∀ stateId, CarriesStateId ack stateId → stateId ≠ [] → FoundWhole key stateId ack w.index

/-- A session key fits the key field of an entry. -/
theorem sessionKey_length_lt (workspaceRoot sessionId : Bytes) :
    (sessionKey workspaceRoot sessionId).length < 256 := by
  unfold sessionKey
  split
  · assumption
  · exact Nat.zero_lt_succ _

/-- The two calls are one exchange. -/
theorem recordingOp_step (env : SessionEnv) (key now : Bytes) (reply : AgentReply)
    (w : SessionWorld) (op : RecordingOp) :
    op.step env key now reply w =
      exchange (op.frame env key) reply
        (recordState key (op.recorded env).1 (op.recorded env).2.1 (op.recorded env).2.2 now)
        w := by
  cases op with
  | load stateId => rfl
  | create metadata => rfl

/-- What the agent does with a frame is not in the index. -/
theorem deliver_keeps (frame : SessionFrame) (reply : AgentReply) (w : SessionWorld) :
    (deliver frame reply w).index = w.index ∧ (deliver frame reply w).file = w.file := by
  unfold deliver
  split
  · split
    · exact ⟨rfl, rfl⟩
    · exact ⟨rfl, rfl⟩
  · exact ⟨rfl, rfl⟩

/-- A call that reads no answer, or does not get to write its frame, leaves index
and file alone. -/
theorem step_unread {env : SessionEnv} {key : Bytes} {reply : AgentReply} {op : RecordingOp}
    (now : Bytes) (w : SessionWorld) (h : (op.frame env key).Fits → reply.ack = none) :
    (op.step env key now reply w).ok = false ∧
      (op.step env key now reply w).world.index = w.index ∧
      (op.step env key now reply w).world.file = w.file := by
  have hkept := deliver_keeps (op.frame env key) reply w
  rw [recordingOp_step]
  unfold exchange
  by_cases hfits : (op.frame env key).Fits
  · rw [if_neg (not_not.mpr hfits), h hfits]
    exact ⟨rfl, hkept⟩
  · rw [if_pos hfits]
    exact ⟨rfl, rfl, rfl⟩

/-- A call that reads an answer records the state id in it, whatever the
answer. -/
theorem step_read {env : SessionEnv} {key ack : Bytes} {reply : AgentReply} {op : RecordingOp}
    (now : Bytes) (w : SessionWorld) (hfits : (op.frame env key).Fits) (hack : reply.ack = some ack) :
    (op.step env key now reply w).ok = ackAccepted ack ∧
      (op.step env key now reply w).world.index =
        (match ackStateId ack with
          | none => w.index
          | some stateId => ((op.updated env key now stateId w.index).save w.file).1) ∧
      (op.step env key now reply w).world.file =
        (match ackStateId ack with
          | none => w.file
          | some stateId => ((op.updated env key now stateId w.index).save w.file).2) := by
  have hkept := deliver_keeps (op.frame env key) reply w
  rw [recordingOp_step]
  unfold exchange
  rw [if_neg (not_not.mpr hfits), hack]
  unfold recordState
  dsimp only
  cases ackStateId ack with
  | none => exact ⟨rfl, hkept⟩
  | some stateId =>
      dsimp only
      rw [hkept.1, hkept.2]
      exact ⟨rfl, rfl, rfl⟩

theorem save_entries (index : SessionIndex) (file : Option Bytes) :
    (index.save file).1.entries = index.entries := by
  unfold SessionIndex.save
  split
  · rfl
  · rfl

theorem save_lookup (index : SessionIndex) (file : Option Bytes) (key : Bytes) :
    (index.save file).1.lookup key = index.lookup key := by
  unfold SessionIndex.lookup SessionIndex.find
  rw [save_entries]

/-- Recording a state id changes neither index nor file iff both have it. -/
theorem updated_unchanged_iff (env : SessionEnv) (key now stateId : Bytes) (w : SessionWorld)
    (op : RecordingOp) :
    (((op.updated env key now stateId w.index).save w.file).1.entries = w.index.entries ∧
        ((op.updated env key now stateId w.index).save w.file).2 = w.file) ↔
      AlreadyRecorded env key now stateId w op := by
  rw [save_entries]
  unfold AlreadyRecorded RecordingOp.updated
  rcases w.index.update_cases key stateId (op.recorded env).1 (op.recorded env).2.1
    (op.recorded env).2.2 now with ⟨before, e, behind, hsplit, hbefore, hkey, -, hupdate⟩ |
    ⟨hnone, hroom, -, hupdate⟩ | ⟨hnone, hfull, -, hupdate⟩
  · have hfind : w.index.find key = some e := by
      rw [SessionIndex.find, hsplit]
      exact SessionIndex.find?_behind hbefore hkey
    rw [hupdate, hfind]
    unfold SessionIndex.save SessionIndex.fileText
    rw [if_pos rfl, hsplit]
    dsimp only
    rw [List.append_cancel_left_eq, List.cons_eq_cons]
    constructor
    · intro h
      obtain ⟨⟨hsame, -⟩, hfile⟩ := h
      rw [hsame] at hfile
      exact ⟨hsame, hfile.symm⟩
    · intro h
      obtain ⟨hsame, hfile⟩ := h
      rw [hsame]
      exact ⟨⟨rfl, rfl⟩, hfile.symm⟩
  · rw [hupdate, hnone]
    refine iff_of_false ?_ ?_
    · intro h
      have hlen := congrArg List.length h.1
      rw [List.length_append, List.length_singleton] at hlen
      omega
    · intro h
      exact absurd h.1 (Nat.not_le.mpr hroom)
  · rw [hupdate, hnone]
    dsimp only
    have hsaved : (w.index.save w.file).2 = w.file ↔
        (w.index.dirty = true → w.file = some (SessionIndex.fileText w.index.entries)) := by
      unfold SessionIndex.save SessionIndex.fileText
      by_cases hdirty : w.index.dirty = true
      · rw [if_pos hdirty]
        exact ⟨fun h _ => h.symm, fun h => (h hdirty).symm⟩
      · rw [if_neg hdirty]
        exact iff_of_true rfl fun h => absurd h hdirty
    rw [hsaved]
    exact ⟨fun h => ⟨hfull, h.2⟩, fun h => ⟨rfl, h.2⟩⟩

/-- Where a created state is found. -/
theorem updated_lookup_iff (env : SessionEnv) {key : Bytes} (hkey : key.length < 256)
    (now stateId found : Bytes) (w : SessionWorld) (op : RecordingOp) :
    ((op.updated env key now found w.index).save w.file).1.lookup key = some stateId ↔
      clip 128 found = stateId ∧ w.index.updateOk key = true := by
  rw [save_lookup, RecordingOp.updated]
  by_cases hok : w.index.updateOk key = true
  · rw [SessionIndex.lookup_update hkey _ _ _ _ _ hok, Option.some_inj]
    exact (and_iff_left hok).symm
  · refine iff_of_false ?_ fun h => hok h.2
    rcases w.index.update_cases key found (op.recorded env).1 (op.recorded env).2.1
      (op.recorded env).2.2 now with ⟨_, _, _, -, -, -, hok', -⟩ | ⟨-, -, hok', -⟩ |
      ⟨hnone, -, -, hupdate⟩
    · exact absurd hok' hok
    · exact absurd hok' hok
    · rw [hupdate, SessionIndex.lookup, hnone]
      intro h
      cases h

/-- **The index records exactly what is accepted**, exactly: iff every answer
that is read is rejected without news, or accepted with its state id in
plain sight. -/
theorem records_exactly_iff (env : SessionEnv) (sessionId now : Bytes) (reply : AgentReply)
    (w : SessionWorld) (op : RecordingOp) :
    RecordsExactly env (sessionKey env.workspace sessionId) now reply w op ↔
      ((op.frame env (sessionKey env.workspace sessionId)).Fits → ∀ ack, reply.ack = some ack →
        AckRecords env (sessionKey env.workspace sessionId) now ack w op) := by
  have hkey := sessionKey_length_lt env.workspace sessionId
  generalize sessionKey env.workspace sessionId = key at hkey
  by_cases hread : (op.frame env key).Fits → reply.ack = none
  · obtain ⟨hfailed, hindex, hfile⟩ := step_unread now w hread
    refine iff_of_true ⟨?_, ?_⟩ ?_
    · intro _
      exact ⟨congrArg _ hindex, hfile⟩
    · intro _ hok
      rw [hfailed] at hok
      cases hok
    · intro hfits ack hack
      rw [hread hfits] at hack
      cases hack
  · obtain ⟨hfits, hsome⟩ := Classical.not_imp.mp hread
    obtain ⟨ack, hack⟩ := Option.ne_none_iff_exists'.mp hsome
    obtain ⟨hok, hindex, hfile⟩ := step_read now w hfits hack
    have hrejected : ((op.step env key now reply w).world.index.entries = w.index.entries ∧
          (op.step env key now reply w).world.file = w.file) ↔
        ∀ stateId, ackStateId ack = some stateId →
          AlreadyRecorded env key now stateId w op := by
      rw [hindex, hfile]
      cases hid : ackStateId ack with
      | none => exact iff_of_true ⟨rfl, rfl⟩ fun stateId h => by cases h
      | some found =>
          refine (updated_unchanged_iff env key now found w op).trans ⟨?_, fun h => h found rfl⟩
          intro h stateId hsame
          cases hsame
          exact h
    have haccepted : ∀ stateId,
        (op.step env key now reply w).world.index.lookup key = some stateId ↔
          FoundWhole key stateId ack w.index := by
      intro stateId
      rw [hindex, FoundWhole]
      cases ackStateId ack with
      | none => exact Iff.rfl
      | some found => exact updated_lookup_iff env hkey now stateId found w op
    constructor
    · intro h _ ack' hack'
      obtain rfl : ack = ack' := Option.some.inj (hack.symm.trans hack')
      refine ⟨?_, ?_⟩
      · intro hreject
        exact hrejected.mp (h.failed (hok.trans hreject))
      · intro hcreate haccept stateId hcarries hne
        exact (haccepted stateId).mp (h.created hcreate (hok.trans haccept) ack stateId hack
          hcarries hne)
    · intro h
      have hrecords := h hfits ack hack
      refine ⟨?_, ?_⟩
      · intro hreject
        exact hrejected.mpr (hrecords.rejected (hok.symm.trans hreject))
      · intro hcreate haccept ack' stateId hack' hcarries hne
        obtain rfl : ack = ack' := Option.some.inj (hack.symm.trans hack')
        exact (haccepted stateId).mpr
          (hrecords.accepted hcreate (hok.symm.trans haccept) stateId hcarries hne)

/-- An acknowledgement that rejects a load and names a state id: the call fails,
and the state id is in the index. -/
theorem rejection_is_recorded :
    ¬ RecordsExactly sampleEnv (sessionKey (lit "/w") (lit "s")) (lit "7")
      ⟨false, some (lit "\x7b\"type\":\"ack\",\"status\":\"rejected\",\"state_id\":\"x\"\x7d")⟩
      (freshWorld none) (.load (lit "old")) := by
  intro h
  have hunchanged := h.failed (by decide +kernel)
  revert hunchanged
  decide +kernel

end StarBridge
