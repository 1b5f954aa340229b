import StarBridge.Startup

/-!
# Where the port comes from

`early_port` is what `--install` and `--generate-config` write, and a normal run binds what
the configuration has in the end.  Both read `-p`, `PORT` and `config.json`, each with tests
of its own: the last `-p` or the one the settings loop obeys, `PORT` where it is positive or
where it is not empty, `-p 0` as no port or as one.  `ports_agree_iff` says for which sources
the two agree.
-/

namespace StarBridge

open CText CJson

/-! ## The sources -/

/-- The number a member of an object has. -/
def intMember (numberToInt : Bytes → Int) (obj : CJson) (key : Bytes) : Option Int :=
  match getObjectItem obj key with
  | some (.number literal) => some (numberToInt literal)
  | _ => none

/-- The number that `config.json` has for a key, where the normal run loads it. -/
def Host.fileInt (host : Host) (args : List Bytes) (key : Bytes) : Option Int :=
  (host.configFile args).bind fun obj => intMember host.numberToInt obj key

/-- The port that a setting gives. -/
def Setting.asPort : Setting → Option Int
  | .port value => some (argInt value)
  | _ => none

/-- What the arguments, the environment and the file say about the port. -/
structure PortSources where
  /-- The number of the first `-p`, 0 without one. -/
  first : Int
  /-- The number of the last `-p`, 0 without one. -/
  last : Int
  /-- The number of the last `-p` that is not the value of another option. -/
  obeyed : Option Int
  env : Option Int
  file : Option Int
  deriving DecidableEq, Repr

def portSources (host : Host) (args : List Bytes) : PortSources where
  first := ((pFlags args).head?.map argInt).getD 0
  last := lastPort 0 (pFlags args)
  obeyed := ((settings args).filterMap Setting.asPort).getLast?
  env := host.portEnv
  file := host.fileInt args (lit "port")

/-- The port that `bind` is given: `htons((uint16_t)port)`. -/
def boundPort (port : Int) : Int := port % 65536

/-! ## The two ports -/

theorem parseIntValue_eq (numberToInt : Bytes → Int) (obj : CJson) (key : Bytes)
    (fallback : Int) :
    parseIntValue numberToInt obj key fallback = (intMember numberToInt obj key).getD fallback := by
  unfold parseIntValue intMember
  cases getObjectItem obj key with
  | none => rfl
  | some value => cases value <;> rfl

/-- The first loop reads the file that the normal run loads. -/
theorem earlyFilePort_eq (host : Host) (args : List Bytes) :
    earlyFilePort host (earlyScan .start args) =
      if 0 < (portSources host args).file.getD 8080 then (portSources host args).file.getD 8080
      else 8080 := by
  obtain ⟨hno, hpath⟩ := earlyScan_config .start args
  have hstart : EarlyScan.start.configPath = lit "config.json" := rfl
  rw [hstart] at hno hpath
  unfold earlyFilePort
  rw [hno, portSources, Host.fileInt, Host.configFile]
  cases hconfig : (configScan (lit "config.json") args).1 with
  | true => rfl
  | false =>
      rw [hpath hconfig, loadConfigFromFile]
      cases configObject (host.file (configScan (lit "config.json") args).2) with
      | none => rfl
      | some obj =>
          show (if 0 < parseIntValue host.numberToInt obj (lit "port") 8080 then
            parseIntValue host.numberToInt obj (lit "port") 8080 else 8080) = _
          rw [parseIntValue_eq]
          rfl

/-- The early port, source by source. -/
theorem earlyPort_eq (host : Host) (args : List Bytes) :
    earlyPort host args =
      if 0 < (portSources host args).last then (portSources host args).last
      else
        match (portSources host args).env with
        | some port => if 0 < port then port else 8080
        | none =>
            if 0 < (portSources host args).file.getD 8080 then
              (portSources host args).file.getD 8080
            else 8080 := by
  have hlast : (earlyScan .start args).cliPPort = (portSources host args).last :=
    earlyScan_cliPPort .start args
  have henv : (portSources host args).env = host.portEnv := rfl
  cases hport : host.portEnv <;> simp only [earlyPort, hlast, earlyFilePort_eq, henv, hport]

variable {host : Host} {args : List Bytes} {loaded cfg : BridgeConfig}

/-- What is loaded is what the file has over the defaults, checked, with the effort of the
desktop application. -/
theorem loadedConfig_cases (h : loadedConfig host args = .ok loaded) :
    ∃ base, (loaded = base ∨ loaded = readCodexTomlReasoningEffort host.codexToml base) ∧
      ((host.configFile args = none ∧ base = initGlobalConfig (host.portEnv.getD 8080)) ∨
        ∃ obj, host.configFile args = some obj ∧ base.InRange ∧
          base = (initGlobalConfig (host.portEnv.getD 8080)).takeOver host.numberToInt obj) := by
  unfold loadedConfig at h
  unfold Host.configFile
  cases hconfig : (configScan (lit "config.json") args).1 with
  | true =>
      simp only [hconfig, if_true, Except.ok.injEq] at h
      exact ⟨loaded, Or.inl rfl, Or.inl ⟨by simp, h.symm⟩⟩
  | false =>
      simp only [hconfig, Bool.false_eq_true, if_false, loadConfigFromFile] at h ⊢
      cases hobject : configObject (host.file (configScan (lit "config.json") args).2) with
      | none =>
          simp only [hobject, Option.map_none, Except.ok.injEq] at h
          exact ⟨_, Or.inr h.symm, Or.inl ⟨rfl, rfl⟩⟩
      | some obj =>
          simp only [hobject, Option.map_some] at h
          split_ifs at h with hvalid
          · simp only [Except.ok.injEq] at h
            exact ⟨_, Or.inr h.symm, Or.inr
              ⟨obj, rfl, (configValidateAll_eq_nil_iff _).mp hvalid, rfl⟩⟩

/-- A number of the configuration is the file's, or its default. -/
theorem loadedConfig_int (h : loadedConfig host args = .ok loaded) {field : BridgeConfig → Int}
    {key : Bytes}
    (htake : ∀ cfg n obj, field (BridgeConfig.takeOver cfg n obj) =
      parseIntValue n obj key (field cfg))
    (heffort : ∀ cfg effort, field { cfg with modelReasoningEffort := effort } = field cfg) :
    field loaded =
      (host.fileInt args key).getD (field (initGlobalConfig (host.portEnv.getD 8080))) := by
  have htoml : ∀ cfg, field (readCodexTomlReasoningEffort host.codexToml cfg) = field cfg := by
    intro cfg
    unfold readCodexTomlReasoningEffort
    split
    · split_ifs
      · exact heffort cfg _
      · rfl
    · rfl
  obtain ⟨base, hloaded, hbase⟩ := loadedConfig_cases h
  have hfield : field loaded = field base := by
    obtain rfl | rfl := hloaded
    · rfl
    · exact htoml base
  rw [hfield, Host.fileInt]
  obtain ⟨hfile, rfl⟩ | ⟨obj, hfile, -, rfl⟩ := hbase
  · simp [hfile]
  · rw [htake, parseIntValue_eq, hfile]
    rfl

/-- A file that is loaded leaves a port in range. -/
theorem loadedConfig_port (h : loadedConfig host args = .ok loaded) :
    loaded.serverPort = (portSources host args).file.getD (host.portEnv.getD 8080) ∧
      ((host.configFile args).isSome = true →
        1 ≤ loaded.serverPort ∧ loaded.serverPort ≤ 65535) := by
  refine ⟨loadedConfig_int h (fun _ _ _ => rfl) (fun _ _ => rfl), fun hfile => ?_⟩
  obtain ⟨base, hloaded, hbase⟩ := loadedConfig_cases h
  have hport : loaded.serverPort = base.serverPort := by
    obtain rfl | rfl := hloaded
    · rfl
    · unfold readCodexTomlReasoningEffort
      split <;> [split; skip] <;> rfl
  obtain ⟨hnone, -⟩ | ⟨obj, -, hrange, -⟩ := hbase
  · exact absurd hfile (by simp [hnone])
  · exact hport ▸ hrange.serverPort

/-- The port of a normal run, source by source. -/
theorem serves_port (h : main host args = .serves cfg) :
    let s := portSources host args
    cfg.serverPort =
        (match s.env with
        | some port =>
            if 0 < port ∧ s.first = 0 then port else s.obeyed.getD (s.file.getD port)
        | none => s.obeyed.getD (s.file.getD 8080)) ∧
      ((host.configFile args).isSome = true →
        1 ≤ s.file.getD (s.env.getD 8080) ∧ s.file.getD (s.env.getD 8080) ≤ 65535) := by
  obtain ⟨loaded, hloaded, -, hcfg⟩ := main_serves h
  obtain ⟨hport, hrange⟩ := loadedConfig_port hloaded
  have hflags : (applyFlags loaded args).serverPort =
      (portSources host args).obeyed.getD loaded.serverPort := by
    have hpick : ∀ (x : Setting) (cfg : BridgeConfig),
        (x.apply cfg).serverPort = x.asPort.getD cfg.serverPort := by
      intro x cfg
      cases x with
      | port value => rfl
      | framed => rfl
      | option o value => cases o <;> rfl
    rw [applyFlags_eq_foldl]
    exact foldl_setting hpick (settings args) loaded
  dsimp only
  constructor
  · rw [hcfg]
    show (overriddenConfig host args loaded).serverPort = _
    rw [overriddenConfig, overridePort, pFlagPort_eq]
    have henv : (portSources host args).env = host.portEnv := rfl
    rw [henv]
    cases hpEnv : host.portEnv with
    | none => rw [hflags, hport, hpEnv]; rfl
    | some port =>
        dsimp only
        rw [apply_ite BridgeConfig.serverPort, hflags, hport, hpEnv]
        rfl
  · intro hfile
    exact hport ▸ hrange hfile

/-- A number of the file is the number of a file that is loaded. -/
theorem configFile_isSome {key : Bytes} {n : Int} (h : host.fileInt args key = some n) :
    (host.configFile args).isSome = true := by
  unfold Host.fileInt at h
  cases hfile : host.configFile args with
  | none => simp [hfile] at h
  | some obj => rfl

/-! ## Agreement -/

/-- The sources for which the two ports agree.  A `PORT` that governs the normal run has to
govern the early commands, and a `-p` that governs it has to be the last and positive, or the
same by chance; a `PORT` that is no number hides the file from the early commands. -/
def PortSources.Agree (s : PortSources) : Prop :=
  match s.env with
  | none =>
      match s.obeyed with
      | some port => boundPort port = if 0 < s.last then s.last else s.file.getD 8080
      | none => 0 < s.last → s.last = s.file.getD 8080
  | some env =>
      if 0 < env ∧ s.first = 0 then
        if 0 < s.last then boundPort env = s.last else env ≤ 65535
      else
        boundPort (s.obeyed.getD (s.file.getD env)) =
          if 0 < s.last then s.last else if 0 < env then env else 8080

/-- **Port agreement.**  The port that the early commands write is the one that a normal run
with the same inputs binds exactly when the sources agree. -/
theorem ports_agree_iff (h : main host args = .serves cfg) :
    earlyPort host args = boundPort cfg.serverPort ↔ (portSources host args).Agree := by
  obtain ⟨hport, hrange⟩ := serves_port h
  have hfile : ∀ port, (portSources host args).file = some port → 1 ≤ port ∧ port ≤ 65535 := by
    intro port hport
    have hloaded := hrange (configFile_isSome hport)
    rwa [hport] at hloaded
  rw [earlyPort_eq, hport]
  generalize portSources host args = s at hfile
  obtain ⟨first, last, obeyed, env, file⟩ := s
  dsimp only [PortSources.Agree] at hfile ⊢
  have hdefault : 1 ≤ file.getD 8080 ∧ file.getD 8080 ≤ 65535 := by
    cases file with
    | none => simp
    | some port => exact hfile port rfl
  unfold boundPort
  cases env with
  | none => cases obeyed <;> simp only [Option.getD_some, Option.getD_none] <;> grind
  | some port => dsimp only; split_ifs <;> grind

/-- A host without files, where the agent starts. -/
def bareHost (port : Option Bytes) : Host where
  port := port
  file := fun _ => none
  codexToml := none
  numberToInt := argInt
  realpath := fun _ => none
  cwd := none
  stat := fun _ => none
  pid := 1
  findBundledDs4Wrapper := false
  findVenvPython := false
  validateDs4AgentPreflight := fun _ _ => false
  agentReady := fun _ _ => true

/-- What the server runs with there without flags. -/
def bareConfig (port : Int) : BridgeConfig :=
  { initGlobalConfig port with nativeTransport := lit "stdio_framed", useFramedProtocol := true }

theorem ports_agree_iff_bare :
    main (bareHost none) [lit "agent"] = .serves (bareConfig 8080) ∧
      (earlyPort (bareHost none) [lit "agent"] = boundPort (bareConfig 8080).serverPort ↔
        (portSources (bareHost none) [lit "agent"]).Agree) :=
  have h : main (bareHost none) [lit "agent"] = .serves (bareConfig 8080) := by decide +kernel
  ⟨h, ports_agree_iff h⟩

/-- With a word for `PORT` and no file the early commands write 8080, and the normal run
binds port 0. -/
theorem ports_disagree :
    ¬ ∀ (host : Host) (args : List Bytes) (cfg : BridgeConfig),
      main host args = .serves cfg → earlyPort host args = boundPort cfg.serverPort := by
  intro h
  have hserves : main (bareHost (some (lit "dev"))) [lit "agent"] = .serves (bareConfig 0) := by
    decide +kernel
  exact absurd (h _ _ _ hserves) (by decide +kernel)

end StarBridge
