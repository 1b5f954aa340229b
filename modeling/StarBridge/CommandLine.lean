import StarBridge.Settings
import StarBridge.TurnAck

/-!
# The command line

`main` goes over its arguments five times: for the options that the early commands need,
for an early command, for the configuration file, for the settings that flags override, and
once more for `-p`.  The settings loop is written over an arbitrary state, so that the
settings an argument list amounts to are read off the loop itself (`flagLoop_eq_foldl`),
and what the loop leaves in a field is the last of them (`foldl_setting`).
-/

namespace StarBridge

open CText CJson

/-! ## Numbers in arguments -/

/-- `atoi`, which is `(int)strtol(text, NULL, 10)`: `strtol` stops at the ends of `long`. -/
def argInt (text : Bytes) : Int :=
  (max (-9223372036854775808) (min 9223372036854775807 (atoi text))).bmod 4294967296

/-! ## The early loops -/

/-- What the first loop of `main` looks for. -/
structure EarlyScan where
  noConfig : Bool
  configPath : Bytes
  cliPPort : Int
  dryRun : Bool
  deriving DecidableEq, Repr

/-- The state of the first loop before it. -/
def EarlyScan.start : EarlyScan := ⟨false, lit "config.json", 0, false⟩

/-- The tests for `-p` and `--dry-run` at an argument. -/
def EarlyScan.test (s : EarlyScan) (arg : Bytes) (behind : List Bytes) : EarlyScan :=
  let s := match behind with
    | value :: _ => if arg = lit "-p" then { s with cliPPort := argInt value } else s
    | [] => s
  if arg = lit "--dry-run" then { s with dryRun := true } else s

/-- The first loop of `main`.  Behind `--config` the tests that follow look at its value. -/
def earlyScan : EarlyScan → List Bytes → EarlyScan
  | s, [] => s
  | s, [arg] => (if arg = lit "--no-config" then { s with noConfig := true } else s).test arg []
  | s, arg :: value :: rest =>
      if arg = lit "--no-config" then
        earlyScan (EarlyScan.test { s with noConfig := true } arg (value :: rest)) (value :: rest)
      else if arg = lit "--config" then
        earlyScan (EarlyScan.test { s with configPath := value } value rest) rest
      else earlyScan (s.test arg (value :: rest)) (value :: rest)

/-- The commands `main` carries out before anything else. -/
inductive EarlyCommand
  | help
  | version
  | generateConfig (outDir : Bytes)
  | install
  | disable
  | status
  | doctor (agentPath : Option Bytes)
  deriving DecidableEq, Repr

/-- The argument behind a command, unless it is an option. -/
def operand : List Bytes → Option Bytes
  | value :: _ => if value.head? = some 45 then none else some value
  | [] => none

/-- The second loop of `main`, which ends at the first command. -/
def earlyCommand : List Bytes → Option EarlyCommand
  | [] => none
  | arg :: rest =>
      if arg = lit "--help" then some .help
      else if arg = lit "--version" then some .version
      else if arg = lit "--generate-config" then
        some (.generateConfig ((operand rest).getD (lit ".")))
      else if arg = lit "--install" then some .install
      else if arg = lit "--disable" then some .disable
      else if arg = lit "--status" then some .status
      else if arg = lit "--doctor" ∨ arg = lit "doctor" then some (.doctor (operand rest))
      else earlyCommand rest

/-- The third loop of `main`: whether `--no-config` is there, which ends it, and the path. -/
def configScan : Bytes → List Bytes → Bool × Bytes
  | path, [] => (false, path)
  | path, [arg] => (arg = lit "--no-config", path)
  | path, arg :: value :: rest =>
      if arg = lit "--no-config" then (true, path)
      else if arg = lit "--config" then configScan value rest
      else configScan path (value :: rest)

/-- The last loop of `main`: the number behind the first `-p`. -/
def pFlagPort : List Bytes → Int
  | arg :: value :: rest =>
      if arg = lit "-p" then argInt value else pFlagPort (value :: rest)
  | _ => 0

/-- The arguments that stand behind a `-p`. -/
def pFlags : List Bytes → List Bytes
  | arg :: value :: rest =>
      if arg = lit "-p" then value :: pFlags (value :: rest) else pFlags (value :: rest)
  | _ => []

theorem config_ne_p : lit "--config" ≠ lit "-p" := by decide

theorem EarlyScan.test_noConfig (s : EarlyScan) (arg : Bytes) (behind : List Bytes) :
    (s.test arg behind).noConfig = s.noConfig := by
  cases behind <;> simp only [EarlyScan.test] <;> split_ifs <;> rfl

theorem EarlyScan.test_configPath (s : EarlyScan) (arg : Bytes) (behind : List Bytes) :
    (s.test arg behind).configPath = s.configPath := by
  cases behind <;> simp only [EarlyScan.test] <;> split_ifs <;> rfl

theorem EarlyScan.test_cliPPort (s : EarlyScan) (arg value : Bytes) (rest : List Bytes) :
    (s.test arg (value :: rest)).cliPPort =
      if arg = lit "-p" then argInt value else s.cliPPort := by
  simp only [EarlyScan.test]
  split_ifs <;> rfl

theorem EarlyScan.test_nil_cliPPort (s : EarlyScan) (arg : Bytes) :
    (s.test arg []).cliPPort = s.cliPPort := by
  simp only [EarlyScan.test]
  split_ifs <;> rfl

/-- The number a scan from `port` ends with over the arguments behind a `-p`. -/
def lastPort (port : Int) (values : List Bytes) : Int :=
  (values.getLast?.map argInt).getD port

theorem lastPort_cons (port : Int) (value : Bytes) (values : List Bytes) :
    lastPort port (value :: values) = lastPort (argInt value) values := by
  cases h : values.getLast? <;> simp [lastPort, List.getLast?_cons, h]

/-- The number of the last `-p`, wherever it stands, is what the first loop takes. -/
theorem earlyScan_cliPPort (s : EarlyScan) (args : List Bytes) :
    (earlyScan s args).cliPPort = lastPort s.cliPPort (pFlags args) := by
  have hstep : ∀ (s : EarlyScan) (arg : Bytes) (behind : List Bytes),
      lastPort (s.test arg behind).cliPPort (pFlags behind) =
        lastPort s.cliPPort (pFlags (arg :: behind)) := by
    intro s arg behind
    cases behind with
    | nil => rw [EarlyScan.test_nil_cliPPort]; rfl
    | cons value rest =>
        rw [EarlyScan.test_cliPPort, pFlags]
        split_ifs with harg
        · exact (lastPort_cons s.cliPPort value (pFlags (value :: rest))).symm
        · rfl
  induction s, args using earlyScan.induct with
  | case1 s => rfl
  | case2 s arg =>
      rw [earlyScan, EarlyScan.test_nil_cliPPort]
      split_ifs <;> rfl
  | case3 s value rest ih =>
      rw [earlyScan, if_pos rfl, ih, hstep]
  | case4 s value rest hno ih =>
      rw [earlyScan, if_neg hno, if_pos rfl, ih, hstep, pFlags, if_neg config_ne_p]
  | case5 s arg value rest hno hconfig ih =>
      rw [earlyScan, if_neg hno, if_neg hconfig, ih, hstep]

/-- The first and the third loop agree on the configuration file. -/
theorem earlyScan_config (s : EarlyScan) (args : List Bytes) :
    ((earlyScan s args).noConfig = (s.noConfig || (configScan s.configPath args).1)) ∧
      ((configScan s.configPath args).1 = false →
        (earlyScan s args).configPath = (configScan s.configPath args).2) := by
  induction s, args using earlyScan.induct with
  | case1 s => simp [earlyScan, configScan]
  | case2 s arg =>
      rw [earlyScan, EarlyScan.test_noConfig, EarlyScan.test_configPath, configScan]
      split_ifs with harg <;> simp [harg]
  | case3 s value rest ih =>
      rw [EarlyScan.test_noConfig] at ih
      simp [earlyScan, configScan, ih.1]
  | case4 s value rest hno ih =>
      rw [EarlyScan.test_noConfig, EarlyScan.test_configPath] at ih
      rw [earlyScan, if_neg hno, if_pos rfl, configScan, if_neg hno, if_pos rfl]
      exact ih
  | case5 s arg value rest hno hconfig ih =>
      rw [EarlyScan.test_noConfig, EarlyScan.test_configPath] at ih
      rw [earlyScan, if_neg hno, if_neg hconfig, configScan, if_neg hno, if_neg hconfig]
      exact ih

/-- The last loop takes the first `-p`. -/
theorem pFlagPort_eq (args : List Bytes) :
    pFlagPort args = ((pFlags args).head?.map argInt).getD 0 := by
  induction args using pFlagPort.induct with
  | case1 value rest => simp [pFlagPort, pFlags]
  | case2 arg value rest harg ih => rw [pFlagPort, if_neg harg, ih, pFlags, if_neg harg]
  | case3 args h =>
      match args, h with
      | [], _ => rfl
      | [arg], _ => rfl
      | arg :: value :: rest, h => exact absurd rfl (h arg value rest)

/-! ## The settings loop -/

/-- The options that take a value, in the order in which the loop tests for them. -/
inductive ValueOption
  | nativeTransport
  | nativeSocketPath
  | udsConnectTimeoutMs
  | udsOwnerMode
  | helloTimeoutMs
  | modelLoadTimeoutMs
  | turnResponseTimeoutMs
  | modelReasoningEffort
  | maxOutputBuffer
  | maxOutputChars
  | maxTurnEvents
  deriving DecidableEq, Repr

/-- What an option is called on the command line. -/
def ValueOption.name : ValueOption → Bytes
  | .nativeTransport => lit "--native-transport"
  | .nativeSocketPath => lit "--native-socket-path"
  | .udsConnectTimeoutMs => lit "--uds-connect-timeout-ms"
  | .udsOwnerMode => lit "--uds-owner-mode"
  | .helloTimeoutMs => lit "--hello-timeout-ms"
  | .modelLoadTimeoutMs => lit "--model-load-timeout-ms"
  | .turnResponseTimeoutMs => lit "--turn-response-timeout-ms"
  | .modelReasoningEffort => lit "--model-reasoning-effort"
  | .maxOutputBuffer => lit "--max-output-buffer"
  | .maxOutputChars => lit "--max-output-chars"
  | .maxTurnEvents => lit "--max-turn-events"

def valueOptions : List ValueOption :=
  [.nativeTransport, .nativeSocketPath, .udsConnectTimeoutMs, .udsOwnerMode, .helloTimeoutMs,
    .modelLoadTimeoutMs, .turnResponseTimeoutMs, .modelReasoningEffort, .maxOutputBuffer,
    .maxOutputChars, .maxTurnEvents]

/-- A setting on the command line. -/
inductive Setting
  | port (value : Bytes)
  | framed
  | option (o : ValueOption) (value : Bytes)
  deriving DecidableEq, Repr

/-- What the settings loop assigns. -/
def Setting.apply (cfg : BridgeConfig) : Setting → BridgeConfig
  | .port value => { cfg with serverPort := argInt value }
  | .framed => { cfg with useFramedProtocol := true }
  | .option .nativeTransport value => { cfg with nativeTransport := clip 16 value }
  | .option .nativeSocketPath value => { cfg with nativeSocketPath := clip 1024 value }
  | .option .udsConnectTimeoutMs value => { cfg with udsConnectTimeoutMs := argInt value }
  | .option .udsOwnerMode value => { cfg with udsOwnerMode := clip 32 value }
  | .option .helloTimeoutMs value => { cfg with helloTimeoutMs := argInt value }
  | .option .modelLoadTimeoutMs value => { cfg with modelLoadTimeoutMs := argInt value }
  | .option .turnResponseTimeoutMs value => { cfg with responseTimeoutMs := argInt value }
  | .option .modelReasoningEffort value => { cfg with modelReasoningEffort := clip 32 value }
  | .option .maxOutputBuffer value => { cfg with maxOutputBuffer := argInt value }
  | .option .maxOutputChars value => { cfg with maxOutputChars := argInt value }
  | .option .maxTurnEvents value => { cfg with maxTurnEvents := argInt value }

section Loop

variable {σ τ : Type} (set : σ → Setting → σ)

/-- The test for one option.  It leaves the loop at the value, where the tests for the
options behind it go on. -/
def optionTest (s : σ × List Bytes) (o : ValueOption) : σ × List Bytes :=
  match s.2 with
  | arg :: value :: rest =>
      if arg = o.name then (set s.1 (.option o value), value :: rest) else s
  | _ => s

/-- The test for `-p`, which leaves the loop where it is. -/
def portTest (s : σ) : List Bytes → σ
  | arg :: value :: _ => if arg = lit "-p" then set s (.port value) else s
  | _ => s

/-- The body of the settings loop. -/
def flagTurn (s : σ) (args : List Bytes) : σ × List Bytes :=
  let s := portTest set s args
  let s := if args.head? = some (lit "--framed") then set s .framed else s
  valueOptions.foldl (optionTest set) (s, args)

/-- The settings loop of `main`. -/
def flagLoop : Nat → σ → List Bytes → σ
  | 0, s, _ => s
  | fuel + 1, s, args =>
      if args = [] then s
      else flagLoop fuel (flagTurn set s args).1 ((flagTurn set s args).2.drop 1)

/-- A turn of the loop only ever goes on. -/
theorem flagTurn_suffix (s : σ) (args : List Bytes) : (flagTurn set s args).2 <:+ args := by
  have hfold : ∀ (options : List ValueOption) (s : σ × List Bytes),
      (options.foldl (optionTest set) s).2 <:+ s.2 := by
    intro options
    induction options with
    | nil => exact fun s => List.suffix_refl s.2
    | cons o options ih =>
        intro s
        apply (ih (optionTest set s o)).trans
        unfold optionTest
        split
        case h_1 arg value rest hargs =>
          split_ifs
          · exact hargs ▸ List.suffix_cons arg (value :: rest)
          · exact List.suffix_refl s.2
        case h_2 => exact List.suffix_refl s.2
  unfold flagTurn
  exact hfold valueOptions (_, args)

/-- The loop ends within as many turns as there are arguments. -/
theorem flagLoop_fuel (fuel : Nat) (s : σ) (args : List Bytes) (h : args.length ≤ fuel) :
    flagLoop set fuel s args = flagLoop set args.length s args := by
  induction fuel using Nat.strong_induction_on generalizing s args with
  | h fuel ih =>
      cases args with
      | nil => cases fuel <;> simp [flagLoop]
      | cons arg rest =>
          obtain ⟨fuel, rfl⟩ := Nat.exists_eq_add_of_lt (Nat.lt_of_lt_of_le Nat.succ_pos' h)
          have hshort : ((flagTurn set s (arg :: rest)).2.drop 1).length ≤ rest.length := by
            have hlength := (flagTurn_suffix set s (arg :: rest)).length_le
            rw [List.length_drop]
            grind
          simp only [Nat.zero_add, List.length_cons, flagLoop, List.cons_ne_nil, if_false] at h ⊢
          rw [ih fuel (by omega) _ _ (by omega), ih rest.length (by omega) _ _ hshort]

variable {set} {set' : τ → Setting → τ}

/-- Loops over two states stay related when the settings keep them so. -/
theorem flagLoop_map {f : σ → τ} (h : ∀ s x, f (set s x) = set' (f s) x) (fuel : Nat) (s : σ)
    (args : List Bytes) : f (flagLoop set fuel s args) = flagLoop set' fuel (f s) args := by
  have hoption : ∀ (s : σ × List Bytes) (o : ValueOption),
      Prod.map f id (optionTest set s o) = optionTest set' (Prod.map f id s) o := by
    intro s o
    obtain ⟨s, args⟩ := s
    match args with
    | [] => rfl
    | [_] => rfl
    | arg :: value :: rest =>
        by_cases harg : arg = o.name <;> simp [optionTest, harg, h]
  have hfold : ∀ (options : List ValueOption) (s : σ × List Bytes),
      Prod.map f id (options.foldl (optionTest set) s) =
        options.foldl (optionTest set') (Prod.map f id s) := by
    intro options
    induction options with
    | nil => exact fun s => rfl
    | cons o options ih =>
        intro s
        rw [List.foldl_cons, List.foldl_cons, ih, hoption]
  have hport : ∀ (s : σ) (args : List Bytes), f (portTest set s args) =
      portTest set' (f s) args := by
    intro s args
    match args with
    | [] => rfl
    | [_] => rfl
    | arg :: value :: rest => simp only [portTest]; split_ifs <;> simp [h]
  have hturn : ∀ (s : σ) (args : List Bytes),
      Prod.map f id (flagTurn set s args) = flagTurn set' (f s) args := by
    intro s args
    rw [flagTurn, hfold, flagTurn, ← hport]
    split_ifs <;> simp [Prod.map, h]
  induction fuel generalizing s args with
  | zero => rfl
  | succ fuel ih =>
      rw [flagLoop, flagLoop, ← hturn]
      split_ifs
      · rfl
      · exact ih _ _

end Loop

/-- What the settings loop makes of a configuration. -/
def applyFlags (cfg : BridgeConfig) (args : List Bytes) : BridgeConfig :=
  flagLoop Setting.apply args.length cfg args

/-- The settings that an argument list amounts to, in order. -/
def settings (args : List Bytes) : List Setting :=
  flagLoop (fun l x => l ++ [x]) args.length [] args

/-- The loop applies the settings one by one. -/
theorem applyFlags_eq_foldl (cfg : BridgeConfig) (args : List Bytes) :
    applyFlags cfg args = (settings args).foldl Setting.apply cfg := by
  rw [applyFlags, settings]
  exact (flagLoop_map (fun l x => List.foldl_concat Setting.apply cfg x l) args.length [] args).symm

/-- A field that settings either give or leave has its last setting in the end. -/
theorem foldl_setting {β : Type} {field : BridgeConfig → β} {pick : Setting → Option β}
    (h : ∀ x cfg, field (x.apply cfg) = (pick x).getD (field cfg)) (l : List Setting)
    (cfg : BridgeConfig) :
    field (l.foldl Setting.apply cfg) = ((l.filterMap pick).getLast?).getD (field cfg) := by
  induction l generalizing cfg with
  | nil => rfl
  | cons x l ih =>
      rw [List.foldl_cons, ih, h]
      cases hpick : pick x <;> simp [hpick, List.getLast?_cons]

end StarBridge
