import StarBridge.CommandLine

/-!
# The start of the bridge

`main` from the arguments, the environment and the files to `start_codex_api_server`.  What
the operating system answers is a `Host`; what starting the agent comes to is one of its
answers.  `main_serves` says what the configuration is that the server runs with: what was
loaded, with the flags and `PORT` over it, and the transport resolved.
-/

namespace StarBridge

open CText CJson

/-- What `stat` tells of a file. -/
structure FileStat where
  isDir : Bool
  ownerExec : Bool
  ownerRead : Bool
  worldWritable : Bool
  sticky : Bool
  rootOwned : Bool
  deriving DecidableEq, Repr

/-- What `main` finds outside its arguments. -/
structure Host where
  /-- `getenv("PORT")`. -/
  port : Option Bytes
  file : Bytes → Option Bytes
  codexToml : Option Bytes
  /-- What a JSON number amounts to as an `int`. -/
  numberToInt : Bytes → Int
  realpath : Bytes → Option Bytes
  cwd : Option Bytes
  stat : Bytes → Option FileStat
  pid : Nat
  findBundledDs4Wrapper : Bool
  findVenvPython : Bool
  validateDs4AgentPreflight : Bytes → Bytes → Bool
  /-- `engine_init`, the hello exchange and the wait for the agent, with the agent's command. -/
  agentReady : Bytes → BridgeConfig → Bool

variable (host : Host)

/-- `PORT` where it is set and not empty. -/
def Host.portEnv : Option Int :=
  match host.port with
  | some text => if text = [] then none else some (argInt text)
  | none => none

/-! ## The port of the early commands -/

/-- The port that the first loop takes from the file. -/
def earlyFilePort (s : EarlyScan) : Int :=
  if s.noConfig then 8080
  else
    match loadConfigFromFile host.numberToInt (host.file s.configPath) (initGlobalConfig 8080) with
    | some cfg => if 0 < cfg.serverPort then cfg.serverPort else 8080
    | none => 8080

/-- `early_port`. -/
def earlyPort (args : List Bytes) : Int :=
  let s := earlyScan .start args
  if 0 < s.cliPPort then s.cliPPort
  else
    match host.portEnv with
    | some port => if 0 < port then port else 8080
    | none => earlyFilePort host s

/-! ## The configuration of a normal run -/

/-- The file the normal run loads, parsed. -/
def Host.configFile (args : List Bytes) : Option CJson :=
  if (configScan (lit "config.json") args).1 then none
  else configObject (host.file (configScan (lit "config.json") args).2)

/-- The configuration before the flags, or the errors of `config_validate_all`. -/
def loadedConfig (args : List Bytes) : Except (List Bytes) BridgeConfig :=
  let cfg := initGlobalConfig (host.portEnv.getD 8080)
  let (noConfig, path) := configScan (lit "config.json") args
  if noConfig then .ok cfg
  else
    match loadConfigFromFile host.numberToInt (host.file path) cfg with
    | none => .ok (readCodexTomlReasoningEffort host.codexToml cfg)
    | some loaded =>
        if configValidateAll loaded = [] then
          .ok (readCodexTomlReasoningEffort host.codexToml loaded)
        else .error (configValidateAll loaded)

/-- `PORT` over what is configured, unless the first `-p` has a number. -/
def overridePort (args : List Bytes) (cfg : BridgeConfig) : BridgeConfig :=
  match host.portEnv with
  | some port =>
      if 0 < port ∧ pFlagPort args = 0 then { cfg with serverPort := port } else cfg
  | none => cfg

/-- The configuration with the flags and `PORT` over what was loaded. -/
def overriddenConfig (args : List Bytes) (loaded : BridgeConfig) : BridgeConfig :=
  overridePort host args (applyFlags loaded args)

/-! ## The socket and the transport -/

/-- The workspace that the second argument names. -/
def workspaceArg : List Bytes → Bytes
  | _ :: workspace :: _ => if workspace.head? = some 45 then lit "." else workspace
  | _ => lit "."

/-- `resolve_native_socket_path`. -/
def resolveNativeSocketPath (workspace : Bytes) (cfg : BridgeConfig) : BridgeConfig :=
  let path := cfg.nativeSocketPath
  if path = [] then cfg
  else
    let resolved :=
      if path.head? = some 47 then path
      else
        match host.realpath (if workspace = [] then lit "." else workspace), host.cwd with
        | some base, _ => clip 1024 (base ++ 47 :: path)
        | none, some cwd => clip 1024 (cwd ++ 47 :: path)
        | none, none => path
    { cfg with nativeSocketPath := clip 1024 resolved }

/-- `validate_native_socket_path`. -/
def validateNativeSocketPath (path : Bytes) : Option Bytes :=
  if path = [] then some (lit "native_socket_path_empty")
  else if 103 < path.length then some (lit "native_socket_path_too_long")
  else
    match host.stat path with
    | none => none
    | some st =>
        if st.isDir then some (lit "native_socket_path_is_directory")
        else if st.rootOwned then some (lit "native_socket_path_root_owned")
        else if st.worldWritable then some (lit "native_socket_path_world_writable")
        else none

/-- The directory part of a path. -/
def parentDir (path : Bytes) : Bytes :=
  let dir := (path.reverse.dropWhile (· ≠ 47)).drop 1
  if dir = [] then [47] else dir.reverse

/-- `validate_socket_parent_dir`. -/
def validateSocketParentDir (path : Bytes) : Option Bytes :=
  if path = [] then none
  else
    match host.stat (parentDir path) with
    | none => some (lit "native_socket_parent_dir_missing")
    | some st =>
        if !st.ownerExec then some (lit "native_socket_parent_dir_not_searchable")
        else if !st.ownerRead then some (lit "native_socket_parent_dir_not_readable")
        else if st.worldWritable && !st.sticky then
          some (lit "native_socket_parent_dir_world_writable_no_sticky")
        else if st.rootOwned then some (lit "native_socket_parent_dir_root_owned")
        else none

/-- The two checks, made when a path is set. -/
def socketError (path : Bytes) : Option Bytes :=
  if path = [] then none
  else
    match validateNativeSocketPath host path with
    | some reason => some reason
    | none => validateSocketParentDir host path

/-- How `main` resolves `native_transport`. -/
def resolveTransport (cfg : BridgeConfig) : BridgeConfig :=
  let transport :=
    if cfg.nativeTransport = lit "auto" then
      if cfg.nativeSocketPath = [] then lit "stdio_framed" else lit "uds"
    else cfg.nativeTransport
  if transport = lit "stdio" then
    { cfg with nativeTransport := transport, useFramedProtocol := false }
  else if transport = lit "uds" ∨ transport = lit "stdio_framed" then
    { cfg with nativeTransport := transport, useFramedProtocol := true }
  else { cfg with nativeTransport := lit "stdio_framed" }

/-- `path_basename`. -/
def pathBasename (path : Bytes) : Bytes := (path.reverse.takeWhile (· ≠ 47)).reverse

/-- Whether `main` puts the ds4 wrapper before the agent. -/
def usesDs4Wrapper (agent : Bytes) : Bool :=
  pathBasename agent = lit "ds4-agent" && host.findBundledDs4Wrapper

/-- What the ds4 wrapper needs in the configuration. -/
def ds4Config (cfg : BridgeConfig) : BridgeConfig :=
  { cfg with
    nativeSocketPath := clip 1024 (lit "/tmp/ds4-bridge-uds-" ++ decimal host.pid ++ lit ".sock")
    nativeTransport := lit "uds"
    useFramedProtocol := true
    udsOwnerMode := lit "launch_and_connect" }

/-! ## The main function -/

/-- How `main` ends, or the call of `start_codex_api_server`. -/
inductive MainResult
  | help
  | version
  | generateConfig (outDir : Bytes) (port : Int)
  | install (dryRun : Bool) (port : Int)
  | disable (dryRun : Bool)
  | status
  | doctor (agentPath : Option Bytes) (configPath : Bytes) (noConfig : Bool) (port : Int)
  | usage
  | configInvalid (errors : List Bytes)
  | socketInvalid (reason : Bytes)
  | venvMissing
  | preflightFailed
  | agentFailed
  | serves (cfg : BridgeConfig)
  deriving DecidableEq, Repr

/-- What an early command does. -/
def EarlyCommand.run (args : List Bytes) : EarlyCommand → MainResult
  | .help => .help
  | .version => .version
  | .generateConfig outDir => .generateConfig outDir (earlyPort host args)
  | .install => .install (earlyScan .start args).dryRun (earlyPort host args)
  | .disable => .disable (earlyScan .start args).dryRun
  | .status => .status
  | .doctor agentPath =>
      .doctor agentPath (earlyScan .start args).configPath (earlyScan .start args).noConfig
        (earlyPort host args)

/-- `main` from the resolved transport on. -/
def startAgent (agent : Bytes) (cfg : BridgeConfig) : MainResult :=
  if usesDs4Wrapper host agent then
    if !host.findVenvPython then .venvMissing
    else if !host.validateDs4AgentPreflight agent cfg.modelPath then .preflightFailed
    else if host.agentReady agent (ds4Config host cfg) then .serves (ds4Config host cfg)
    else .agentFailed
  else if host.agentReady agent cfg then .serves cfg
  else .agentFailed

/-- `main` from the overridden configuration on. -/
def startOverridden (args : List Bytes) (agent : Bytes) (cfg : BridgeConfig) : MainResult :=
  let cfg := resolveNativeSocketPath host (workspaceArg args) cfg
  match socketError host cfg.nativeSocketPath with
  | some reason => .socketInvalid reason
  | none => startAgent host agent (resolveTransport cfg)

/-- `main`, with the arguments behind the program's name. -/
def main (args : List Bytes) : MainResult :=
  match earlyCommand args with
  | some command => command.run host args
  | none =>
      match args with
      | [] => .usage
      | agent :: _ =>
          match loadedConfig host args with
          | .error errors => .configInvalid errors
          | .ok loaded => startOverridden host args agent (overriddenConfig host args loaded)

/-! ## What the server runs with -/

theorem resolveNativeSocketPath_spec (workspace : Bytes) (cfg : BridgeConfig) :
    ∃ path, resolveNativeSocketPath host workspace cfg = { cfg with nativeSocketPath := path } := by
  by_cases hempty : cfg.nativeSocketPath = []
  · exact ⟨cfg.nativeSocketPath, if_pos hempty⟩
  · exact ⟨_, if_neg hempty⟩

/-- Whatever transport is asked for, a valid one is taken. -/
theorem resolveTransport_spec (cfg : BridgeConfig) :
    ∃ transport framed, transport ∈ validTransports ∧
      resolveTransport cfg =
        { cfg with nativeTransport := transport, useFramedProtocol := framed } := by
  unfold resolveTransport
  generalize (if cfg.nativeTransport = lit "auto" then
    if cfg.nativeSocketPath = [] then lit "stdio_framed" else lit "uds"
    else cfg.nativeTransport) = transport
  dsimp only
  split_ifs with hstdio hframed
  · exact ⟨transport, false, by simp [hstdio, validTransports], rfl⟩
  · refine ⟨transport, true, ?_, rfl⟩
    obtain rfl | rfl := hframed <;> simp [validTransports]
  · exact ⟨lit "stdio_framed", cfg.useFramedProtocol, by simp [validTransports], rfl⟩

/-- Whether the ds4 wrapper runs in front of the agent. -/
def wrapperUsed (args : List Bytes) : Bool := args.head?.any (usesDs4Wrapper host)

/-- What agent is started decides on the transport and the socket, and on nothing else. -/
theorem startAgent_serves {agent : Bytes} {cfg served : BridgeConfig}
    (h : startAgent host agent cfg = .serves served) :
    served = if usesDs4Wrapper host agent then ds4Config host cfg else cfg := by
  unfold startAgent at h
  split_ifs at h ⊢ <;> simp_all

variable {host} in
/-- **The configuration the server runs with**: what was loaded, with the flags and `PORT`
over it, but for the transport and its socket. -/
theorem main_serves {args : List Bytes} {cfg : BridgeConfig}
    (h : main host args = .serves cfg) :
    ∃ loaded, loadedConfig host args = .ok loaded ∧ cfg.nativeTransport ∈ validTransports ∧
      cfg = { overriddenConfig host args loaded with
        nativeTransport := cfg.nativeTransport
        nativeSocketPath := cfg.nativeSocketPath
        useFramedProtocol := cfg.useFramedProtocol
        udsOwnerMode :=
          if wrapperUsed host args then lit "launch_and_connect"
          else (overriddenConfig host args loaded).udsOwnerMode } := by
  unfold main at h
  split at h
  case h_1 command hcommand => cases command <;> simp [EarlyCommand.run] at h
  case h_2 =>
    split at h
    case h_1 => exact absurd h (by simp)
    case h_2 agent rest hcommand =>
      split at h
      case h_1 => exact absurd h (by simp)
      case h_2 loaded hloaded =>
        refine ⟨loaded, hloaded, ?_⟩
        unfold startOverridden at h
        dsimp only at h
        split at h
        case h_1 => exact absurd h (by simp)
        case h_2 =>
          obtain ⟨path, hpath⟩ := resolveNativeSocketPath_spec host (workspaceArg (agent :: rest))
            (overriddenConfig host (agent :: rest) loaded)
          obtain ⟨transport, framed, hvalid, htransport⟩ := resolveTransport_spec
            { overriddenConfig host (agent :: rest) loaded with nativeSocketPath := path }
          rw [hpath, htransport] at h
          have hserved := startAgent_serves host h
          have hused : wrapperUsed host (agent :: rest) = usesDs4Wrapper host agent := rfl
          rw [hused, hserved]
          cases usesDs4Wrapper host agent with
          | true => exact ⟨by simp [ds4Config, validTransports], rfl⟩
          | false => exact ⟨hvalid, rfl⟩

end StarBridge
