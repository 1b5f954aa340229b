import StarBridge.ToolRunner
import StarBridge.TurnLoop

/-!
# The commands of a turn

The event loop hands a tool intent to the runner after the policy has looked at
it, and the runner looks again.  Whatever the agent sends, the processes that the
calls of a turn spawn are shells for the commands it was allowed to name.
-/

namespace StarBridge

open CText Loops

/-- The processes the calls of a turn spawn, each call with what it meets. -/
def turnSpawns (cfg : ToolConfig) (worlds : List ToolWorld) (calls : List (Bytes × Bytes)) :
    List Spawn :=
  (worlds.zip calls).filterMap fun (world, call) => (toolRunnerRun cfg world call.1 call.2).2

/-- Every call of the runner has passed the policy. -/
def Permitted (s : TurnState) : Prop :=
  ∀ call ∈ s.toolRuns, toolPolicyRefusal call.1 call.2 = none

theorem Permitted.of_toolRuns {s t : TurnState} (h : Permitted s) (hruns : t.toolRuns = s.toolRuns) :
    Permitted t := by
  intro call hcall
  rw [hruns] at hcall
  exact h call hcall

/-- Only a tool intent calls the runner, behind the policy. -/
theorem answerTool_permitted (env : TurnEnv) {s : TurnState} (h : Permitted s)
    (toolName toolArgs : Bytes) : Permitted (answerTool env s toolName toolArgs) := by
  unfold answerTool
  cases hrefusal : toolPolicyRefusal toolName toolArgs with
  | some kind => exact h.of_toolRuns rfl
  | none =>
      intro call hcall
      rcases List.mem_append.mp hcall with hcall | hcall
      · exact h call hcall
      · rw [List.mem_singleton.mp hcall]
        exact hrefusal

theorem dispatchEvent_permitted (env : TurnEnv) {s : TurnState} (h : Permitted s) (frame : Bytes)
    (ev : NativeEvent) :
    (dispatchEvent env s frame ev).Meets Permitted fun e => Permitted e.state := by
  unfold dispatchEvent
  split
  · rename_i text _ _ _ _
    obtain ⟨outBuf, stream, htext⟩ := textDeltaFrame_keeps env s text
    rw [htext]
    exact h.of_toolRuns rfl
  · exact h.of_toolRuns rfl
  · exact h
  · exact h.of_toolRuns rfl
  · rename_i toolName toolArgs _ _
    unfold toolIntentFrame
    dsimp only
    split
    · exact h.of_toolRuns rfl
    · have hcounted : Permitted s.countTool := h.of_toolRuns rfl
      exact (answerTool_permitted env hcounted toolName toolArgs).of_toolRuns rfl
  · rename_i text promptTokens completionTokens _ _
    obtain ⟨stream, metrics, hresponse⟩ :=
      responseFrame_keeps env s text promptTokens completionTokens
    rw [hresponse]
    exact h.of_toolRuns rfl
  · split
    · exact h.of_toolRuns rfl
    · exact h.of_toolRuns rfl
  · exact h.of_toolRuns rfl

/-- The test at the head of the loop calls nothing. -/
theorem settle_permitted (env : TurnEnv) {s : TurnState} (h : Permitted s) :
    (settle env s).Meets Permitted fun e => Permitted e.state := by
  unfold settle
  split
  · exact h
  · exact h.of_toolRuns rfl

theorem serveControl_toolRuns (env : TurnEnv) (connections : List Bytes) (s : TurnState) :
    (s.serveControl env connections).toolRuns = s.toolRuns := by
  unfold TurnState.serveControl
  split
  · rfl
  · rfl

/-- **One round** calls the runner behind the policy alone. -/
theorem turnEvent_permitted (env : TurnEnv) (s : TurnState) (e : LoopEvent) (h : Permitted s) :
    (turnEvent env s e).Meets Permitted fun e => Permitted e.state := by
  unfold turnEvent
  refine Progress.Meets.bind (I := Permitted) ?_ fun t ht => settle_permitted env ht
  cases e with
  | control connections =>
      have hserved := h.of_toolRuns (serveControl_toolRuns env connections s)
      dsimp only
      unfold controlEvent
      dsimp only
      split
      · exact hserved.of_toolRuns rfl
      · exact hserved
  | frame text =>
      dsimp only
      unfold frameEvent
      dsimp only
      have hbeat : Permitted { s.beat with remainingTimeout := env.fullTimeout } :=
        h.of_toolRuns rfl
      split
      · unfold foreignFrame
        dsimp only
        split
        · exact hbeat
        · exact hbeat.of_toolRuns rfl
      · exact dispatchEvent_permitted env hbeat _ _
  | idle late =>
      dsimp only
      unfold idleEvent
      dsimp only
      split
      · refine h.of_toolRuns ?_
        exact serveControl_toolRuns env late _
      · exact h.of_toolRuns rfl

/-- A turn calls the runner behind the policy alone. -/
theorem turnProcessEvents_permitted (env : TurnEnv) {s : TurnState} (h : Permitted s)
    (events : List LoopEvent) :
    (turnProcessEvents env s events).Meets Permitted fun e => Permitted e.state := by
  have hentered : Permitted (s.enter env) := h.of_toolRuns rfl
  exact (settle_permitted env hentered).bind fun t ht =>
    run_meets (fun s e hs => turnEvent_permitted env s e hs) ht events

/-- What a spawned process is to be: the shell, with the command of a call that was
allowed to name one. -/
def AllowedSpawn (cfg : ToolConfig) (calls : List (Bytes × Bytes)) (spawn : Spawn) : Prop :=
  ∃ toolArgs command, (lit "shell_command", toolArgs) ∈ calls ∧
    cfg.shellCommandEnabled = true ∧
    toolPolicyArgsValid (lit "shell_command") toolArgs = true ∧ IsCommand toolArgs command ∧
    spawn.prog = lit "sh" ∧ spawn.argv = [lit "sh", lit "-c", command]

/-- Every process comes from a call. -/
theorem mem_turnSpawns {cfg : ToolConfig} {worlds : List ToolWorld}
    {calls : List (Bytes × Bytes)} {spawn : Spawn} (h : spawn ∈ turnSpawns cfg worlds calls) :
    ∃ world, ∃ call ∈ calls, (toolRunnerRun cfg world call.1 call.2).2 = some spawn := by
  obtain ⟨⟨world, call⟩, hmem, hrun⟩ := List.mem_filterMap.mp h
  exact ⟨world, call, (List.of_mem_zip hmem).2, hrun⟩

theorem turnSpawns_allowed (cfg : ToolConfig) (worlds : List ToolWorld)
    (calls : List (Bytes × Bytes)) :
    ∀ spawn ∈ turnSpawns cfg worlds calls, AllowedSpawn cfg calls spawn := by
  intro spawn hspawn
  obtain ⟨world, call, hcall, hrun⟩ := mem_turnSpawns hspawn
  obtain ⟨hname, henabled, hvalid, command, hcommand, hprog, hargv⟩ := toolRunnerRun_spawn hrun
  rw [hname] at hvalid
  refine ⟨call.2, command, ?_, henabled, hvalid, hcommand, hprog, hargv⟩
  rw [← hname]
  exact hcall

end StarBridge
