import StarBridge.PortSources

/-!
# What is checked before the server starts

`config_validate_all` runs once, on what `config.json` gives, when that can be loaded.  Flags
and `PORT` come after it, and it does not look at `max_output_buffer`, whose size the buffers
of a turn have.  `settings_safe_iff` says for which inputs the server nevertheless runs with
settings in range.
-/

namespace StarBridge

open CText CJson

/-! ## What a flag leaves -/

/-- The value that a setting gives an option. -/
def Setting.valueOf (o : ValueOption) : Setting → Option Bytes
  | .option o' value => if o' = o then some value else none
  | _ => none

/-- The last value of an option on the command line. -/
def lastValue (o : ValueOption) (args : List Bytes) : Option Bytes :=
  ((settings args).filterMap (Setting.valueOf o)).getLast?

/-- A field that one option gives has its last value in the end. -/
theorem applyFlags_value {β : Type} {field : BridgeConfig → β} {o : ValueOption}
    {read : Bytes → β}
    (h : ∀ x cfg, field (Setting.apply cfg x) = ((x.valueOf o).map read).getD (field cfg))
    (cfg : BridgeConfig) (args : List Bytes) :
    field (applyFlags cfg args) = ((lastValue o args).map read).getD (field cfg) := by
  rw [applyFlags_eq_foldl, foldl_setting h, lastValue, ← List.getLast?_map, List.map_filterMap]

/-- A field that no option gives is left alone. -/
theorem applyFlags_keeps {β : Type} {field : BridgeConfig → β}
    (h : ∀ cfg x, field (Setting.apply cfg x) = field cfg) (cfg : BridgeConfig)
    (args : List Bytes) : field (applyFlags cfg args) = field cfg := by
  rw [applyFlags_eq_foldl]
  induction settings args generalizing cfg with
  | nil => rfl
  | cons x l ih => exact (ih (x.apply cfg)).trans (h cfg x)

/-- A configuration without what flags, `PORT` and the transport can change. -/
def BridgeConfig.fixed (cfg : BridgeConfig) : BridgeConfig :=
  { cfg with
    serverPort := 0
    useFramedProtocol := false
    nativeTransport := []
    nativeSocketPath := []
    udsConnectTimeoutMs := 0
    udsOwnerMode := []
    helloTimeoutMs := 0
    modelLoadTimeoutMs := 0
    responseTimeoutMs := 0
    modelReasoningEffort := []
    maxOutputBuffer := 0
    maxOutputChars := 0
    maxTurnEvents := 0 }

/-- The fields that flags give, as far as they are checked, and the buffer. -/
theorem applyFlags_fields (cfg : BridgeConfig) (args : List Bytes) :
    (applyFlags cfg args).udsConnectTimeoutMs =
        ((lastValue .udsConnectTimeoutMs args).map argInt).getD cfg.udsConnectTimeoutMs ∧
      (applyFlags cfg args).helloTimeoutMs =
        ((lastValue .helloTimeoutMs args).map argInt).getD cfg.helloTimeoutMs ∧
      (applyFlags cfg args).modelLoadTimeoutMs =
        ((lastValue .modelLoadTimeoutMs args).map argInt).getD cfg.modelLoadTimeoutMs ∧
      (applyFlags cfg args).responseTimeoutMs =
        ((lastValue .turnResponseTimeoutMs args).map argInt).getD cfg.responseTimeoutMs ∧
      (applyFlags cfg args).udsOwnerMode =
        ((lastValue .udsOwnerMode args).map (clip 32)).getD cfg.udsOwnerMode ∧
      (applyFlags cfg args).modelReasoningEffort =
        ((lastValue .modelReasoningEffort args).map (clip 32)).getD cfg.modelReasoningEffort ∧
      (applyFlags cfg args).maxOutputBuffer =
        ((lastValue .maxOutputBuffer args).map argInt).getD cfg.maxOutputBuffer := by
  refine ⟨applyFlags_value ?_ cfg args, applyFlags_value ?_ cfg args,
    applyFlags_value ?_ cfg args, applyFlags_value ?_ cfg args, applyFlags_value ?_ cfg args,
    applyFlags_value ?_ cfg args, applyFlags_value ?_ cfg args⟩
  all_goals
    intro x cfg
    cases x with
    | port value => rfl
    | framed => rfl
    | option o value => cases o <;> rfl

theorem applyFlags_fixed (cfg : BridgeConfig) (args : List Bytes) :
    (applyFlags cfg args).fixed = cfg.fixed := by
  refine applyFlags_keeps ?_ cfg args
  intro cfg x
  cases x with
  | port value => rfl
  | framed => rfl
  | option o value => cases o <;> rfl

/-! ## Safe settings -/

/-- `(size_t)` of an `int`. -/
def sizeOfInt (n : Int) : Nat := if 0 ≤ n then n.toNat else 18446744073709551616 - n.natAbs

/-- The accesses that the sizes of the turn and response buffers have to allow: the first
and the last byte of `out_buf`, and the byte of `content` at `max_output_chars` when the
text is longer than that. -/
structure BridgeConfig.AccessesInRange (cfg : BridgeConfig) : Prop where
  first : 0 < sizeOfInt cfg.maxOutputBuffer
  last : sizeOfInt cfg.maxOutputBuffer - 1 < sizeOfInt cfg.maxOutputBuffer
  chars : ∀ content : Bytes, content.length < sizeOfInt cfg.maxOutputBuffer →
    0 < cfg.maxOutputChars → sizeOfInt cfg.maxOutputChars < content.length →
    sizeOfInt cfg.maxOutputChars < sizeOfInt cfg.maxOutputBuffer

/-- A configuration that is safe to serve with. -/
structure BridgeConfig.Safe (cfg : BridgeConfig) : Prop where
  serverPort : 1 ≤ cfg.serverPort ∧ cfg.serverPort ≤ 65535
  checks : configValidateAll cfg = []
  maxOutputBuffer : 1 ≤ cfg.maxOutputBuffer
  accesses : cfg.AccessesInRange

theorem accessesInRange_of_pos {cfg : BridgeConfig} (h : 1 ≤ cfg.maxOutputBuffer) :
    cfg.AccessesInRange := by
  have hsize : 0 < sizeOfInt cfg.maxOutputBuffer := by
    rw [sizeOfInt, if_pos (by omega)]
    omega
  exact ⟨hsize, Nat.sub_lt hsize Nat.one_pos, fun content hfits _ hlong => hlong.trans hfits⟩

/-- Safe is in range with a buffer. -/
theorem safe_iff (cfg : BridgeConfig) : cfg.Safe ↔ cfg.InRange ∧ 1 ≤ cfg.maxOutputBuffer := by
  constructor
  · intro h
    exact ⟨(configValidateAll_eq_nil_iff cfg).mp h.checks, h.maxOutputBuffer⟩
  · rintro ⟨hrange, hbuffer⟩
    exact ⟨hrange.serverPort, (configValidateAll_eq_nil_iff cfg).mpr hrange, hbuffer,
      accessesInRange_of_pos hbuffer⟩

/-! ## Which inputs lead to them -/

/-- The sources of the port that give one in range, with a file loaded or not.  A loaded
file vouches for the port that no flag and no `PORT` overrides. -/
def PortSources.Sound (s : PortSources) (loaded : Bool) : Prop :=
  match s.env with
  | some env =>
      if 0 < env ∧ s.first = 0 then env ≤ 65535
      else
        match s.obeyed with
        | some port => 1 ≤ port ∧ port ≤ 65535
        | none => loaded = true ∨ (1 ≤ env ∧ env ≤ 65535)
  | none => ∀ port, s.obeyed = some port → 1 ≤ port ∧ port ≤ 65535

/-- The options for times. -/
def timeoutOptions : List ValueOption :=
  [.udsConnectTimeoutMs, .helloTimeoutMs, .modelLoadTimeoutMs, .turnResponseTimeoutMs]

/-- The inputs whose flags, `PORT` and buffer are in range. -/
structure SoundInputs (host : Host) (args : List Bytes) : Prop where
  port : (portSources host args).Sound (host.configFile args).isSome
  timeouts : ∀ o ∈ timeoutOptions, ∀ value, lastValue o args = some value → 0 ≤ argInt value
  owner : wrapperUsed host args = true ∨
    ∀ value, lastValue .udsOwnerMode args = some value → clip 32 value ∈ validOwnerModes
  effort : ∀ value, lastValue .modelReasoningEffort args = some value →
    clip 32 value ∈ validEffort
  buffer : 1 ≤ ((lastValue .maxOutputBuffer args).map argInt).getD
    ((host.fileInt args (lit "max_output_buffer")).getD 262144)

variable {host : Host} {args : List Bytes} {loaded cfg : BridgeConfig}

/-- Whatever is loaded is in range but for the port. -/
theorem loadedConfig_inRange (h : loadedConfig host args = .ok loaded) :
    BridgeConfig.InRange { loaded with serverPort := 8080 } := by
  have hport : (1 : Int) ≤ 8080 ∧ (8080 : Int) ≤ 65535 := by decide
  obtain ⟨base, hloaded, hbase⟩ := loadedConfig_cases h
  have hrange : BridgeConfig.InRange { base with serverPort := 8080 } := by
    obtain ⟨-, rfl⟩ | ⟨obj, -, hrange, -⟩ := hbase
    · exact initGlobalConfig_inRange hport
    · exact { hrange with serverPort := hport }
  obtain rfl | rfl := hloaded
  · exact hrange
  · have htoml := readCodexTomlReasoningEffort_inRange hrange host.codexToml
    have hcomm : { readCodexTomlReasoningEffort host.codexToml base with serverPort := 8080 } =
        readCodexTomlReasoningEffort host.codexToml { base with serverPort := 8080 } := by
      unfold readCodexTomlReasoningEffort
      split <;> [split; skip] <;> rfl
    exact hcomm ▸ htoml

/-- A property of a value that a flag may replace. -/
theorem getD_map_iff {α β : Type} {P : β → Prop} {read : α → β} {default : β} (h : P default)
    (o : Option α) : P ((o.map read).getD default) ↔ ∀ value, o = some value → P (read value) := by
  cases o <;> simp [h]

/-- The port is in range when its sources are sound. -/
theorem serves_port_iff (h : main host args = .serves cfg) :
    (1 ≤ cfg.serverPort ∧ cfg.serverPort ≤ 65535) ↔
      (portSources host args).Sound (host.configFile args).isSome := by
  obtain ⟨hport, hfile⟩ := serves_port h
  have hnone : (host.configFile args).isSome = false → (portSources host args).file = none := by
    intro hno
    by_contra hsome
    obtain ⟨n, hn⟩ := Option.ne_none_iff_exists'.mp hsome
    exact absurd (configFile_isSome hn) (by simp [hno])
  rw [hport]
  generalize portSources host args = s at hfile hnone
  generalize (host.configFile args).isSome = isLoaded at hfile hnone
  obtain ⟨first, last, obeyed, env, file⟩ := s
  unfold PortSources.Sound
  dsimp only at hfile hnone ⊢
  cases env with
  | none =>
      cases obeyed with
      | some port => simp
      | none => cases isLoaded <;> simp_all
  | some env =>
      dsimp only
      split_ifs with hgoverns
      · omega
      · cases obeyed with
        | some port => simp
        | none => cases isLoaded <;> simp_all

/-- What the flags cannot change is in range as it was loaded. -/
theorem inRange_iff_of_fixed {base : BridgeConfig} (hfixed : cfg.fixed = base.fixed)
    (hbase : base.InRange) (htransport : cfg.nativeTransport ∈ validTransports) :
    cfg.InRange ↔ (1 ≤ cfg.serverPort ∧ cfg.serverPort ≤ 65535) ∧
      (0 ≤ cfg.udsConnectTimeoutMs ∧ 0 ≤ cfg.helloTimeoutMs ∧ 0 ≤ cfg.modelLoadTimeoutMs ∧
        0 ≤ cfg.responseTimeoutMs) ∧
      cfg.udsOwnerMode ∈ validOwnerModes ∧ cfg.modelReasoningEffort ∈ validEffort := by
  have keeps : ∀ {β : Type} (field : BridgeConfig → β), field cfg.fixed = field base.fixed :=
    fun field => congrArg field hfixed
  constructor
  · intro h
    exact ⟨h.serverPort, ⟨h.udsConnectTimeoutMs, h.helloTimeoutMs, h.modelLoadTimeoutMs,
      h.responseTimeoutMs⟩, h.udsOwnerMode, h.modelReasoningEffort⟩
  · rintro ⟨port, ⟨connect, hello, load, response⟩, owner, effort⟩
    have hsearch : cfg.googleSearchTimeoutMs = base.googleSearchTimeoutMs :=
      keeps BridgeConfig.googleSearchTimeoutMs
    have hbrowse : cfg.browseUrlTimeoutMs = base.browseUrlTimeoutMs :=
      keeps BridgeConfig.browseUrlTimeoutMs
    have hshell : cfg.shellCommandTimeoutMs = base.shellCommandTimeoutMs :=
      keeps BridgeConfig.shellCommandTimeoutMs
    have hbackoff : cfg.udsReconnectBackoffMs = base.udsReconnectBackoffMs :=
      keeps BridgeConfig.udsReconnectBackoffMs
    have hchunk : cfg.maxBufferChunk = base.maxBufferChunk := keeps BridgeConfig.maxBufferChunk
    have hsize : cfg.maxRequestSize = base.maxRequestSize := keeps BridgeConfig.maxRequestSize
    have hinput : cfg.maxRequestInputBytes = base.maxRequestInputBytes :=
      keeps BridgeConfig.maxRequestInputBytes
    have hcontext : cfg.contextTokens = base.contextTokens := keeps BridgeConfig.contextTokens
    have hhistory : cfg.maxHistoryEntries = base.maxHistoryEntries :=
      keeps BridgeConfig.maxHistoryEntries
    have hattempts : cfg.udsReconnectMaxAttempts = base.udsReconnectMaxAttempts :=
      keeps BridgeConfig.udsReconnectMaxAttempts
    have hpolicy : cfg.kvCachePolicy = base.kvCachePolicy := keeps BridgeConfig.kvCachePolicy
    exact ⟨port, connect, hello, load, response, hsearch ▸ hbase.googleSearchTimeoutMs,
      hbrowse ▸ hbase.browseUrlTimeoutMs, hshell ▸ hbase.shellCommandTimeoutMs,
      hbackoff ▸ hbase.udsReconnectBackoffMs, hchunk ▸ hbase.maxBufferChunk,
      hsize ▸ hbase.maxRequestSize, hinput ▸ hbase.maxRequestInputBytes,
      hcontext ▸ hbase.contextTokens, hhistory ▸ hbase.maxHistoryEntries,
      hattempts ▸ hbase.udsReconnectMaxAttempts, htransport, owner,
      hpolicy ▸ hbase.kvCachePolicy, effort⟩

/-- **Only validated settings reach the server** exactly when the flags, `PORT` and the
buffer of the file are in range themselves. -/
theorem settings_safe_iff (h : main host args = .serves cfg) :
    cfg.Safe ↔ SoundInputs host args := by
  obtain ⟨loaded, hloaded, htransport, hcfg⟩ := main_serves h
  have hrange := loadedConfig_inRange hloaded
  have hbuffer : loaded.maxOutputBuffer =
      (host.fileInt args (lit "max_output_buffer")).getD 262144 :=
    loadedConfig_int hloaded (fun _ _ _ => rfl) (fun _ _ => rfl)
  have hoverride : ∃ port, overriddenConfig host args loaded =
      { applyFlags loaded args with serverPort := port } := by
    unfold overriddenConfig overridePort
    split <;> [split; skip] <;> exact ⟨_, rfl⟩
  obtain ⟨port, hport⟩ := hoverride
  rw [hport] at hcfg
  obtain ⟨hconnect, hhello, hload, hresponse, howner, heffort, hout⟩ :=
    applyFlags_fields loaded args
  have hfixed : cfg.fixed = BridgeConfig.fixed { loaded with serverPort := 8080 } := by
    rw [hcfg]
    exact applyFlags_fixed loaded args
  have hmode : cfg.udsOwnerMode = if wrapperUsed host args then lit "launch_and_connect"
      else (applyFlags loaded args).udsOwnerMode := congrArg BridgeConfig.udsOwnerMode hcfg
  have howns : cfg.udsOwnerMode ∈ validOwnerModes ↔ wrapperUsed host args = true ∨
      ∀ value, lastValue .udsOwnerMode args = some value → clip 32 value ∈ validOwnerModes := by
    rw [hmode]
    cases wrapperUsed host args with
    | true => simp [validOwnerModes]
    | false =>
        rw [if_neg (by simp), howner, getD_map_iff hrange.udsOwnerMode]
        simp
  have hthinks : cfg.modelReasoningEffort ∈ validEffort ↔ ∀ value,
      lastValue .modelReasoningEffort args = some value → clip 32 value ∈ validEffort := by
    rw [(congrArg BridgeConfig.modelReasoningEffort hcfg).trans heffort]
    exact getD_map_iff hrange.modelReasoningEffort _
  have htimes : (0 ≤ cfg.udsConnectTimeoutMs ∧ 0 ≤ cfg.helloTimeoutMs ∧
      0 ≤ cfg.modelLoadTimeoutMs ∧ 0 ≤ cfg.responseTimeoutMs) ↔ ∀ o ∈ timeoutOptions,
        ∀ value, lastValue o args = some value → 0 ≤ argInt value := by
    rw [(congrArg BridgeConfig.udsConnectTimeoutMs hcfg).trans hconnect,
      (congrArg BridgeConfig.helloTimeoutMs hcfg).trans hhello,
      (congrArg BridgeConfig.modelLoadTimeoutMs hcfg).trans hload,
      (congrArg BridgeConfig.responseTimeoutMs hcfg).trans hresponse,
      getD_map_iff (P := (0 ≤ ·)) hrange.udsConnectTimeoutMs,
      getD_map_iff (P := (0 ≤ ·)) hrange.helloTimeoutMs,
      getD_map_iff (P := (0 ≤ ·)) hrange.modelLoadTimeoutMs,
      getD_map_iff (P := (0 ≤ ·)) hrange.responseTimeoutMs]
    simp [timeoutOptions]
  have hsize : cfg.maxOutputBuffer = ((lastValue .maxOutputBuffer args).map argInt).getD
      ((host.fileInt args (lit "max_output_buffer")).getD 262144) := by
    rw [(congrArg BridgeConfig.maxOutputBuffer hcfg).trans hout, hbuffer]
  rw [safe_iff, inRange_iff_of_fixed hfixed hrange htransport, serves_port_iff h, htimes, howns,
    hthinks, hsize]
  constructor
  · rintro ⟨⟨hport, htimes, howner, heffort⟩, hbuffer⟩
    exact ⟨hport, htimes, howner, heffort, hbuffer⟩
  · intro hsound
    exact ⟨⟨hsound.port, hsound.timeouts, hsound.owner, hsound.effort⟩, hsound.buffer⟩

theorem settings_safe_iff_bare :
    main (bareHost none) [lit "agent"] = .serves (bareConfig 8080) ∧
      ((bareConfig 8080).Safe ↔ SoundInputs (bareHost none) [lit "agent"]) :=
  have h : main (bareHost none) [lit "agent"] = .serves (bareConfig 8080) := by decide +kernel
  ⟨h, settings_safe_iff h⟩

/-- A flag sets the buffer to no byte at all, after everything has been checked. -/
theorem settings_unsafe :
    ¬ ∀ (host : Host) (args : List Bytes) (cfg : BridgeConfig),
      main host args = .serves cfg → cfg.Safe := by
  intro h
  have hserves : main (bareHost none) [lit "agent", lit "--max-output-buffer", lit "0"] =
      .serves { bareConfig 8080 with maxOutputBuffer := 0 } := by
    decide +kernel
  exact absurd (h _ _ _ hserves).maxOutputBuffer (by decide)

end StarBridge
