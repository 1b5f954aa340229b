import StarBridge.JsonSpelling
import StarBridge.Redaction
import StarBridge.ToolPolicy

/-!
# The tool runner

`tool_runner_run` refuses, hands the call to a registered callback, or spawns a
shell with the command it reads out of the arguments.  The policy has read them
before with a scanner of its own; `extract_of_valid` says that both scanners
and the JSON grammar agree on what the command is.
-/

namespace StarBridge

open CText

/-- The part of the configuration the runner is given. -/
structure ToolConfig where
  shellCommandEnabled : Bool
  agentEnv : Bytes
  browserStateDir : Bytes
  preferredBrowser : Bytes
  deriving DecidableEq, Repr

/-- What the runner sees of a child: what each `read` of its pipes returned, and
how it ended. -/
structure ToolChild where
  reads : List Bytes
  errReads : List Bytes
  timedOut : Bool
  exitCode : Int
  deriving DecidableEq, Repr

/-- What a registered callback returns: its verdict, the result and the text for
`stderr_text`. -/
abbrev ToolAppCallback := Bytes → Bytes → Bool × Bytes × Bytes

/-- What the runner meets: the callback, the text of an error of `pipe`, and the
child or the text of an error of `posix_spawnp`. -/
structure ToolWorld where
  appCallback : Option ToolAppCallback
  pipeError : Option Bytes
  child : Except Bytes ToolChild

/-- A call of `posix_spawnp`. -/
structure Spawn where
  prog : Bytes
  argv : List Bytes
  envp : List Bytes
  deriving DecidableEq, Repr

/-- `ToolRunResult`. -/
structure ToolRunResult where
  toolName : Bytes := []
  resultJson : Bytes := []
  stderrText : Bytes := []
  exitCode : Int := 0
  timedOut : Bool := false
  denied : Bool := false
  truncated : Bool := false
  ok : Bool := false
  deriving DecidableEq, Repr

/-! ## The command -/

/-- `extract_object_string_field`, given the room for the value. -/
def extractObjectStringField (maxLen : Nat) (json field : Bytes) : Option Bytes := do
  let p ← expectByte 123 (skipWs json)
  let (key, p) ← decodeJsonStringValue 64 p
  if key = field then
    let p ← expectByte 58 (skipWs p)
    let (value, p) ← decodeJsonStringValue maxLen p
    let p ← expectByte 125 (skipWs p)
    if p = [] ∧ value ≠ [] then some value else none
  else none

/-- The payload of `build_command_args`. -/
def buildPayload (toolName argumentJson : Bytes) : Bytes :=
  if toolName = lit "shell_command" then
    (extractObjectStringField 4096 argumentJson (lit "command")).getD []
  else clip 4096 argumentJson

/-! ## The capture -/

/-- One `read` of a pipe into a buffer of `size` bytes, and whether it was cut. -/
def captureRead (size : Nat) (state : Bytes × Bool) (chunk : Bytes) : Bytes × Bool :=
  let space := size - state.1.length - 1
  if space ≤ chunk.length then (state.1 ++ chunk.take (space - 1), true)
  else (state.1 ++ chunk, state.2)

/-- What the reads left in the buffer. -/
def capture (size : Nat) (reads : List Bytes) : Bytes × Bool :=
  reads.foldl (captureRead size) ([], false)

/-- The text that replaces `stderr_text` when the result speaks of a missing
dependency. -/
def missingDependency (resultJson : Bytes) : Option Bytes :=
  if occurs (lit "Search unavailable") resultJson then
    some (lit "missing Google Search credentials or axios dependency")
  else if occurs (lit "No axios dependency available") resultJson then
    some (lit "missing Playwright and axios dependencies")
  else if occurs (lit "Playwright dependency is not installed.") resultJson then
    some (lit "missing Playwright dependency")
  else none

/-- The environment of the child. -/
def childEnvironment (cfg : ToolConfig) : List Bytes :=
  [lit "PATH=/opt/homebrew/bin:/opt/homebrew/sbin:/usr/local/bin:/usr/bin:/bin:/sbin"] ++
    (if cfg.agentEnv = [] then [] else [clip 4096 cfg.agentEnv]) ++
    (if cfg.browserStateDir = [] then []
      else [clip 1152 (lit "PLAYWRIGHT_BROWSERS_PATH=" ++ cfg.browserStateDir)]) ++
    (if cfg.preferredBrowser = [] then []
      else [clip 128 (lit "PREFERRED_BROWSER=" ++ cfg.preferredBrowser)])

/-- The result of a child. -/
def ToolChild.result (child : ToolChild) (toolName : Bytes) : ToolRunResult :=
  let stdout := capture 65536 child.reads
  let stderr := capture 8192 child.errReads
  let resultJson := if cstr stdout.1 = [] then lit "\x7b\x7d" else clip 65536 (cstr stdout.1)
  let stderrText := toolRunnerRedactSecrets (clip 8192 (cstr stderr.1))
  { toolName := clip 64 toolName
    resultJson
    stderrText := (missingDependency resultJson).getD stderrText
    exitCode := if child.timedOut then -1 else child.exitCode
    timedOut := child.timedOut
    truncated := stdout.2 || stderr.2
    ok := !child.timedOut }

/-! ## The runner -/

/-- `tool_runner_run`: the result, of which `ok` is what it returns, and the
process it spawned. -/
def toolRunnerRun (cfg : ToolConfig) (world : ToolWorld) (toolName argumentJson : Bytes) :
    ToolRunResult × Option Spawn :=
  let out : ToolRunResult := { toolName := clip 64 toolName }
  if toolName = [] then ({}, none)
  else if toolPolicyIsDenied toolName then ({ out with denied := true }, none)
  else if toolName = lit "shell_command" ∧ ¬ cfg.shellCommandEnabled then
    ({ out with denied := true, stderrText := lit "shell_command disabled by policy" }, none)
  else if ¬ toolPolicyArgsValid toolName argumentJson then (out, none)
  else if toolName = lit "google_search" ∨ toolName = lit "browse_url" then
    ({ out with
        exitCode := 1
        stderrText := clip 8192 (lit "tool '" ++ toolName ++
          lit "' not supported by bridge; agent handles browsing natively") }, none)
  else if toolName = lit "shell_command" then
    match world.pipeError with
    | some message => ({ out with stderrText := clip 8192 (lit "pipe failed: " ++ message) }, none)
    | none =>
        let spawn : Spawn :=
          ⟨lit "sh", [lit "sh", lit "-c", buildPayload toolName argumentJson],
            childEnvironment cfg⟩
        match world.child with
        | .error message =>
            ({ out with stderrText := clip 8192 (lit "spawn failed: " ++ message) }, some spawn)
        | .ok child => (child.result toolName, some spawn)
  else
    let called := world.appCallback.map fun callback => callback toolName argumentJson
    match called with
    | some (true, result, stderr) =>
        ({ out with resultJson := clip 65536 (cstr result), stderrText := clip 8192 (cstr stderr), ok := true },
          none)
    | _ =>
        let out := { out with resultJson := (called.map fun (c : Bool × Bytes × Bytes) => clip 65536 (cstr c.2.1)).getD [] }
        match world.pipeError with
        | some message =>
            ({ out with stderrText := clip 8192 (lit "pipe failed: " ++ message) }, none)
        | none =>
            ({ out with
                exitCode := 1
                stderrText := clip 8192 (lit "tool '" ++ toolName ++
                  lit "' not supported by bridge") }, none)

/-! ## The scanners agree -/

/-- One step of the scanner, when it does not fail. -/
theorem decodeStringFrom_cases {maxLen : Nat} {s : Bytes} {i : Nat} {value left : Bytes}
    (h : decodeStringFrom maxLen s i = some (value, left)) :
    (s = 34 :: left ∧ value = []) ∨
      (∃ e b rest value', s = 92 :: e :: rest ∧ CJson.simpleEscape e = some b ∧
        ¬ maxLen ≤ i + 2 ∧ decodeStringFrom maxLen rest (i + 1) = some (value', left) ∧
        value = b :: value') ∨
      ∃ c rest value', s = c :: rest ∧ c ≠ 34 ∧ c ≠ 92 ∧ ¬ (c < 32 ∨ maxLen ≤ i + 1) ∧
        decodeStringFrom maxLen rest (i + 1) = some (value', left) ∧ value = c :: value' := by
  cases s with
  | nil => cases h
  | cons c rest =>
      by_cases hquote : c = 34
      · rw [decodeStringFrom.eq_def] at h
        dsimp only at h
        rw [if_pos hquote] at h
        cases h
        exact Or.inl ⟨by rw [hquote], rfl⟩
      by_cases hmark : c = 92
      · subst hmark
        cases rest with
        | nil =>
            rw [decodeStringFrom.eq_def] at h
            cases h
        | cons e rest =>
            rw [decodeStringFrom.eq_def] at h
            dsimp only at h
            rw [if_neg hquote, if_pos rfl] at h
            cases hescape : CJson.simpleEscape e with
            | none =>
                rw [hescape] at h
                cases h
            | some b =>
                rw [hescape] at h
                dsimp only at h
                split_ifs at h with hroom
                obtain ⟨⟨value', left'⟩, hrest, heq⟩ := Option.map_eq_some_iff.mp h
                cases heq
                exact Or.inr (Or.inl ⟨e, b, rest, value', rfl, hescape, hroom, hrest, rfl⟩)
      · rw [decodeStringFrom.eq_def] at h
        dsimp only at h
        rw [if_neg hquote, if_neg hmark] at h
        split_ifs at h with hroom
        obtain ⟨⟨value', left'⟩, hrest, heq⟩ := Option.map_eq_some_iff.mp h
        cases heq
        exact Or.inr (Or.inr ⟨c, rest, value', rfl, hquote, hmark, hroom, hrest, rfl⟩)

/-- A buffer with more room takes the same value. -/
theorem decodeStringFrom_mono {small large : Nat} (hle : small ≤ large) {s : Bytes} {i : Nat}
    {value left : Bytes} (h : decodeStringFrom small s i = some (value, left)) :
    decodeStringFrom large s i = some (value, left) := by
  induction value generalizing s i with
  | nil =>
      rcases decodeStringFrom_cases h with ⟨rfl, -⟩ | ⟨e, b, rest, value', -, -, -, -, hnil⟩ |
        ⟨c, rest, value', -, -, -, -, -, hnil⟩
      · rw [decodeStringFrom.eq_def]
        dsimp only
        rw [if_pos rfl]
      · cases hnil
      · cases hnil
  | cons b value ih =>
      rcases decodeStringFrom_cases h with ⟨-, hnil⟩ |
        ⟨e, b', rest, value', rfl, hescape, hroom, hrest, heq⟩ |
        ⟨c, rest, value', rfl, hquote, hmark, hroom, hrest, heq⟩
      · cases hnil
      · cases heq
        rw [decodeStringFrom.eq_def]
        dsimp only
        rw [if_neg (by decide), if_pos rfl, hescape]
        dsimp only
        rw [if_neg (by omega), ih hrest]
        rfl
      · cases heq
        rw [decodeStringFrom.eq_def]
        dsimp only
        rw [if_neg hquote, if_neg hmark, if_neg fun hstop => hroom (hstop.imp_right hle.trans),
          ih hrest]
        rfl

/-- What the scanner takes is a string of the grammar. -/
theorem readString_of_decodeStringFrom {maxLen : Nat} {s : Bytes} {i : Nat} {value left : Bytes}
    (h : decodeStringFrom maxLen s i = some (value, left)) :
    JsonGrammar.readString s = some (value, left) := by
  have hsymbols : ∃ ys, JsonGrammar.symbols s = some (ys, left) ∧
      ∀ zs, JsonGrammar.join (ys ++ zs) = value ++ JsonGrammar.join zs := by
    induction value generalizing s i with
    | nil =>
        rcases decodeStringFrom_cases h with ⟨rfl, -⟩ | ⟨e, b, rest, value', -, -, -, -, hnil⟩ |
          ⟨c, rest, value', -, -, -, -, -, hnil⟩
        · exact ⟨[], JsonGrammar.symbols_quote left, fun _ => rfl⟩
        · cases hnil
        · cases hnil
    | cons b value ih =>
        rcases decodeStringFrom_cases h with ⟨-, hnil⟩ |
          ⟨e, b', rest, value', rfl, hescape, -, hrest, heq⟩ |
          ⟨c, rest, value', rfl, hquote, hmark, hroom, hrest, heq⟩
        · cases hnil
        · cases heq
          obtain ⟨ys, hys, hjoin⟩ := ih hrest
          have hletter : e ≠ 117 := by
            rintro rfl
            cases hescape
          refine ⟨.byte b :: ys, ?_, fun zs => ?_⟩
          · rw [JsonGrammar.symbols_short hletter (shortEscape_of_simpleEscape hescape), hys]
            rfl
          · rw [List.cons_append, JsonGrammar.join_cons (Or.inl rfl), hjoin]
            rfl
        · cases heq
          obtain ⟨ys, hys, hjoin⟩ := ih hrest
          have hbyte : 32 ≤ b ∧ b ≠ 34 ∧ b ≠ 92 :=
            ⟨UInt8.not_lt.mp fun hlt => hroom (Or.inl hlt), hquote, hmark⟩
          refine ⟨.byte b :: ys, ?_, fun zs => ?_⟩
          · rw [JsonGrammar.symbols_byte hbyte, hys]
            rfl
          · rw [List.cons_append, JsonGrammar.join_cons (Or.inl rfl), hjoin]
            rfl
  obtain ⟨ys, hys, hjoin⟩ := hsymbols
  have hwhole := hjoin []
  rw [List.append_nil, JsonGrammar.join, List.append_nil] at hwhole
  rw [JsonGrammar.readString, hys]
  simp [hwhole]

theorem expectByte_eq_some {c : UInt8} {s p : Bytes} (h : expectByte c s = some p) :
    ∃ rest, s = c :: rest ∧ p = skipWs rest := by
  cases s with
  | nil => cases h
  | cons d rest =>
      rw [expectByte] at h
      split_ifs at h with hd
      cases h
      exact ⟨rest, by rw [hd], rfl⟩

theorem decodeJsonStringValue_eq_some {maxLen : Nat} {s value left : Bytes}
    (h : decodeJsonStringValue maxLen s = some (value, left)) :
    ∃ rest, s = 34 :: rest ∧ decodeStringFrom maxLen rest 0 = some (value, left) := by
  cases s with
  | nil => cases h
  | cons d rest =>
      rw [decodeJsonStringValue] at h
      split_ifs at h with hd
      exact ⟨rest, by rw [hd], h⟩

/-- The scanners skip what the grammar skips. -/
theorem skipWs_eq_skip (s : Bytes) : skipWs s = JsonGrammar.skip s := by
  unfold skipWs JsonGrammar.skip
  congr 1
  funext c
  simp only [JsonGrammar.isBlank, Bool.decide_or]
  cases decide (c = 32) <;> cases decide (c = 9) <;> cases decide (c = 10) <;>
    cases decide (c = 13) <;> rfl

/-- The pieces of an object with one string field. -/
structure HasField (maxLen : Nat) (json field value : Bytes) (p₁ p₂ p₃ p₄ p₅ : Bytes) : Prop where
  opens : skipWs json = 123 :: p₁
  reads_key : decodeJsonStringValue 64 (skipWs p₁) = some (field, p₂)
  colon : skipWs p₂ = 58 :: p₃
  reads_value : decodeJsonStringValue maxLen (skipWs p₃) = some (value, p₄)
  closes : skipWs p₄ = 125 :: p₅
  ends : skipWs p₅ = []
  nonempty : value ≠ []

/-- What `extract_object_string_field` has read, piece by piece. -/
theorem extract_eq_some {maxLen : Nat} {json field value : Bytes}
    (h : extractObjectStringField maxLen json field = some value) :
    ∃ p₁ p₂ p₃ p₄ p₅, HasField maxLen json field value p₁ p₂ p₃ p₄ p₅ := by
  unfold extractObjectStringField at h
  obtain ⟨p, hopen, h⟩ := Option.bind_eq_some_iff.mp h
  obtain ⟨⟨key, p₂⟩, hkey, h⟩ := Option.bind_eq_some_iff.mp h
  dsimp only at h
  split_ifs at h with hname
  obtain ⟨p', hcolon, h⟩ := Option.bind_eq_some_iff.mp h
  obtain ⟨⟨value', p₄⟩, hvalue, h⟩ := Option.bind_eq_some_iff.mp h
  obtain ⟨p'', hclose, h⟩ := Option.bind_eq_some_iff.mp h
  dsimp only at h
  split_ifs at h with hend
  cases h
  subst hname
  obtain ⟨p₁, hp₁, rfl⟩ := expectByte_eq_some hopen
  obtain ⟨p₃, hp₃, rfl⟩ := expectByte_eq_some hcolon
  obtain ⟨p₅, hp₅, rfl⟩ := expectByte_eq_some hclose
  exact ⟨p₁, p₂, p₃, p₄, p₅, hp₁, hkey, hp₃, hvalue, hp₅, hend.1, hend.2⟩

theorem HasField.extract {maxLen : Nat} {json field value p₁ p₂ p₃ p₄ p₅ : Bytes}
    (h : HasField maxLen json field value p₁ p₂ p₃ p₄ p₅) :
    extractObjectStringField maxLen json field = some value := by
  have hexpect : ∀ (c : UInt8) (rest : Bytes), expectByte c (c :: rest) = some (skipWs rest) :=
    fun c rest => if_pos rfl
  unfold extractObjectStringField
  rw [h.opens, hexpect]
  simp only [Option.bind_eq_bind, Option.bind_some, h.reads_key, if_true, h.colon, hexpect, h.reads_value,
    h.closes, h.ends]
  rw [if_pos ⟨trivial, h.nonempty⟩]

/-- A larger buffer meets the same pieces. -/
theorem HasField.mono {small large : Nat} (hle : small ≤ large)
    {json field value p₁ p₂ p₃ p₄ p₅ : Bytes}
    (h : HasField small json field value p₁ p₂ p₃ p₄ p₅) :
    HasField large json field value p₁ p₂ p₃ p₄ p₅ := by
  obtain ⟨rest, hrest, hdecode⟩ := decodeJsonStringValue_eq_some h.reads_value
  refine { h with reads_value := ?_ }
  rw [hrest, decodeJsonStringValue, if_pos rfl]
  exact decodeStringFrom_mono hle hdecode

/-- The policy takes what can be extracted into its own buffer. -/
theorem toolArgsExactObjectField_eq (json field : Bytes) :
    toolArgsExactObjectField json field = (extractObjectStringField 2048 json field).isSome := by
  unfold toolArgsExactObjectField extractObjectStringField
  cases expectByte 123 (skipWs json) with
  | none => rfl
  | some p =>
      simp only [Option.bind_eq_bind, Option.bind_some]
      cases decodeJsonStringValue 64 p with
      | none => rfl
      | some r =>
          simp only [Option.bind_some]
          split_ifs
          · cases expectByte 58 (skipWs r.2) with
            | none => rfl
            | some p =>
                simp only [Option.bind_some]
                cases decodeJsonStringValue 2048 p with
                | none => rfl
                | some r =>
                    simp only [Option.bind_some]
                    cases expectByte 125 (skipWs r.2) with
                    | none => rfl
                    | some p =>
                        simp only [Option.bind_some]
                        by_cases hend : p = [] ∧ r.1 ≠ []
                        · simp [hend]
                        · simp [hend]
          · rfl

/-- The field is a member of the object the grammar reads. -/
theorem HasField.isJson {maxLen : Nat} {json field value p₁ p₂ p₃ p₄ p₅ : Bytes}
    (h : HasField maxLen json field value p₁ p₂ p₃ p₄ p₅) :
    JsonGrammar.IsJson json (.object [(field, .string value)]) := by
  obtain ⟨k, hk, hkey⟩ := decodeJsonStringValue_eq_some h.reads_key
  obtain ⟨v, hv, hvalue⟩ := decodeJsonStringValue_eq_some h.reads_value
  have hnamed : JsonGrammar.Named p₁ field p₃ :=
    ⟨_, _, by rw [← skipWs_eq_skip, hk], readString_of_decodeStringFrom hkey,
      by rw [← skipWs_eq_skip, h.colon]⟩
  refine ⟨p₅, ?_, by rw [← skipWs_eq_skip, h.ends]⟩
  rw [← skipWs_eq_skip, h.opens]
  have hread : JsonGrammar.Reads (JsonGrammar.skip p₃) (.value (.string value)) p₄ := by
    rw [← skipWs_eq_skip, hv]
    exact .string rfl (readString_of_decodeStringFrom hvalue)
  exact .object rfl (.lastMember hnamed hread (by rw [← skipWs_eq_skip, h.closes]))

/-- The command of a call: the value of the one member of its arguments. -/
def IsCommand (argumentJson command : Bytes) : Prop :=
  JsonGrammar.IsJson argumentJson (.object [(lit "command", .string command)])

/-- **The scanners agree**: what the policy lets through is an object with a
command, and the runner extracts that command. -/
theorem extract_of_valid {argumentJson : Bytes}
    (h : toolPolicyArgsValid (lit "shell_command") argumentJson = true) :
    ∃ command, buildPayload (lit "shell_command") argumentJson = command ∧
      IsCommand argumentJson command := by
  have hvalid : toolArgsExactObjectField argumentJson (lit "command") = true := by
    have hne : lit "shell_command" ≠ [] ∧ lit "shell_command" ≠ lit "google_search" ∧
        lit "shell_command" ≠ lit "browse_url" := by decide
    unfold toolPolicyArgsValid at h
    split_ifs at h with hempty hsearch hbrowse hshell
    · exact absurd hsearch hne.2.1
    · exact absurd hbrowse hne.2.2
    · exact h
    · exact absurd rfl hshell
  rw [toolArgsExactObjectField_eq] at hvalid
  obtain ⟨command, hcommand⟩ := Option.isSome_iff_exists.mp hvalid
  obtain ⟨p₁, p₂, p₃, p₄, p₅, hfield⟩ := extract_eq_some hcommand
  have hlarge : HasField 4096 argumentJson (lit "command") command p₁ p₂ p₃ p₄ p₅ :=
    hfield.mono (by decide)
  refine ⟨command, ?_, hfield.isJson⟩
  rw [buildPayload, if_pos rfl, hlarge.extract]
  rfl

/-! ## What is spawned -/

/-- **A process is spawned** for `shell_command` alone, where it is enabled and its
arguments have passed the policy, and it is the shell with the command. -/
theorem toolRunnerRun_spawn {cfg : ToolConfig} {world : ToolWorld}
    {toolName argumentJson : Bytes} {spawn : Spawn}
    (h : (toolRunnerRun cfg world toolName argumentJson).2 = some spawn) :
    toolName = lit "shell_command" ∧ cfg.shellCommandEnabled = true ∧
      toolPolicyArgsValid toolName argumentJson = true ∧
      ∃ command, IsCommand argumentJson command ∧ spawn.prog = lit "sh" ∧
        spawn.argv = [lit "sh", lit "-c", command] := by
  unfold toolRunnerRun at h
  dsimp only at h
  split_ifs at h with hempty hdenied hdisabled hvalid hbrowse hshell
  · cases hpipe : world.pipeError with
    | some message => simp [hpipe] at h
    | none =>
        have hspawn : spawn = ⟨lit "sh", [lit "sh", lit "-c", buildPayload toolName argumentJson],
            childEnvironment cfg⟩ := by
          cases hchild : world.child with
          | error message =>
              simp only [hpipe, hchild, Option.some.injEq] at h
              exact h.symm
          | ok child =>
              simp only [hpipe, hchild, Option.some.injEq] at h
              exact h.symm
        have henabled : cfg.shellCommandEnabled = true := by
          by_contra hoff
          exact hdisabled ⟨hshell, hoff⟩
        have hpassed : toolPolicyArgsValid toolName argumentJson = true := by
          simpa using hvalid
        subst hshell
        obtain ⟨command, hcommand, hjson⟩ := extract_of_valid hpassed
        refine ⟨rfl, henabled, hpassed, command, hjson, by rw [hspawn], ?_⟩
        rw [hspawn, hcommand]
  · split at h
    · cases h
    · cases hpipe : world.pipeError with
      | some message => simp [hpipe] at h
      | none => simp [hpipe] at h

/-- What the runner leaves is a text in its buffer. -/
theorem toolRunnerRun_resultJson (cfg : ToolConfig) (world : ToolWorld)
    (toolName argumentJson : Bytes) :
    ∃ text, (toolRunnerRun cfg world toolName argumentJson).1.resultJson =
      clip 65536 (cstr text) := by
  have hnil : ∃ text, ([] : Bytes) = clip 65536 (cstr text) := ⟨[], rfl⟩
  have hchild : ∀ child : ToolChild,
      ∃ text, (child.result toolName).resultJson = clip 65536 (cstr text) := by
    intro child
    unfold ToolChild.result
    dsimp only
    split_ifs
    · exact ⟨lit "\x7b\x7d", by decide⟩
    · exact ⟨_, rfl⟩
  unfold toolRunnerRun
  dsimp only
  split_ifs
  all_goals try exact hnil
  · cases world.pipeError with
    | some message => exact hnil
    | none =>
        cases world.child with
        | error message => exact hnil
        | ok child => exact hchild child
  · cases world.appCallback with
    | none =>
        cases world.pipeError with
        | some message => exact hnil
        | none => exact hnil
    | some callback =>
        rcases hresult : callback toolName argumentJson with ⟨_ | _, result, stderr⟩
        · cases world.pipeError with
          | some message => exact ⟨result, by simp [hresult]⟩
          | none => exact ⟨result, by simp [hresult]⟩
        · exact ⟨result, by simp [hresult]⟩

end StarBridge
