import StarBridge.CJson
import StarBridge.SessionIndex

/-!
# Settings and their checks

`init_global_config` gives every setting its default, `load_config_from_file` takes over
what a JSON file has for it, and `config_validate_all` says which settings are out of their
range.  `configValidateAll_eq_nil_iff` reads the checks as a property of a configuration;
the defaults have it for every port in range.
-/

namespace StarBridge

open CText CJson

/-- The settings that `main` sets, checks or decides by. -/
structure BridgeConfig where
  serverPort : Int
  maxBufferChunk : Int
  useFramedProtocol : Bool
  kvCachePolicy : Bytes
  contextTokens : Int
  modelPath : Bytes
  googleSearchTimeoutMs : Int
  browseUrlTimeoutMs : Int
  shellCommandTimeoutMs : Int
  responseTimeoutMs : Int
  maxHistoryEntries : Int
  maxRequestSize : Int
  maxRequestInputBytes : Int
  nativeTransport : Bytes
  nativeSocketPath : Bytes
  udsConnectTimeoutMs : Int
  helloTimeoutMs : Int
  modelLoadTimeoutMs : Int
  udsReconnectMaxAttempts : Int
  udsReconnectBackoffMs : Int
  udsOwnerMode : Bytes
  modelReasoningEffort : Bytes
  maxOutputBuffer : Int
  maxOutputChars : Int
  maxTurnEvents : Int
  deriving DecidableEq, Repr

/-- `init_global_config`. -/
def initGlobalConfig (defaultPort : Int) : BridgeConfig where
  serverPort := defaultPort
  maxBufferChunk := 32768
  useFramedProtocol := false
  kvCachePolicy := lit "per_session"
  contextTokens := 150000
  modelPath := []
  googleSearchTimeoutMs := 5000
  browseUrlTimeoutMs := 5000
  shellCommandTimeoutMs := 5000
  responseTimeoutMs := 60000
  maxHistoryEntries := 20
  maxRequestSize := 1048576
  maxRequestInputBytes := 8 * 1024 * 1024
  nativeTransport := lit "auto"
  nativeSocketPath := []
  udsConnectTimeoutMs := 15000
  helloTimeoutMs := 10000
  modelLoadTimeoutMs := 120000
  udsReconnectMaxAttempts := 3
  udsReconnectBackoffMs := 2000
  udsOwnerMode := lit "connect_existing"
  modelReasoningEffort := lit "medium"
  maxOutputBuffer := 262144
  maxOutputChars := 0
  maxTurnEvents := 65536

/-! ## The configuration file -/

/-- `parse_int_value`, given what a number literal amounts to as an `int`. -/
def parseIntValue (numberToInt : Bytes → Int) (obj : CJson) (key : Bytes) (fallback : Int) : Int :=
  match getObjectItem obj key with
  | some (.number literal) => numberToInt literal
  | _ => fallback

/-- `parse_bool_value`. -/
def parseBoolValue (obj : CJson) (key : Bytes) (fallback : Bool) : Bool :=
  match getObjectItem obj key with
  | some (.bool value) => value
  | _ => fallback

/-- `CONFIG_FILE_MAX_BYTES`. -/
def configFileMaxBytes : Nat := 512 * 1024

/-- The value `load_config_from_file` parses, when the file is there and not too large. -/
def configObject (file : Option Bytes) : Option CJson :=
  match file with
  | none => none
  | some text => if configFileMaxBytes < text.length then none else parse text

/-- What `load_config_from_file` takes over from a parsed file. -/
def BridgeConfig.takeOver (cfg : BridgeConfig) (numberToInt : Bytes → Int) (obj : CJson) :
    BridgeConfig where
  serverPort := parseIntValue numberToInt obj (lit "port") cfg.serverPort
  maxBufferChunk := parseIntValue numberToInt obj (lit "max_buffer_chunk") cfg.maxBufferChunk
  contextTokens := parseIntValue numberToInt obj (lit "context_tokens") cfg.contextTokens
  responseTimeoutMs :=
    parseIntValue numberToInt obj (lit "response_timeout_ms") cfg.responseTimeoutMs
  useFramedProtocol := parseBoolValue obj (lit "use_framed_protocol") cfg.useFramedProtocol
  kvCachePolicy := getString obj (lit "kv_cache_policy") cfg.kvCachePolicy 32
  modelPath := getString obj (lit "model_path") cfg.modelPath 1024
  googleSearchTimeoutMs :=
    parseIntValue numberToInt obj (lit "google_search_timeout_ms") cfg.googleSearchTimeoutMs
  browseUrlTimeoutMs :=
    parseIntValue numberToInt obj (lit "browse_url_timeout_ms") cfg.browseUrlTimeoutMs
  shellCommandTimeoutMs :=
    parseIntValue numberToInt obj (lit "shell_command_timeout_ms") cfg.shellCommandTimeoutMs
  maxHistoryEntries :=
    parseIntValue numberToInt obj (lit "max_history_entries") cfg.maxHistoryEntries
  maxRequestSize := parseIntValue numberToInt obj (lit "max_request_size") cfg.maxRequestSize
  maxRequestInputBytes :=
    parseIntValue numberToInt obj (lit "max_request_input_bytes") cfg.maxRequestInputBytes
  nativeTransport := getString obj (lit "native_transport") cfg.nativeTransport 16
  nativeSocketPath := getString obj (lit "native_socket_path") cfg.nativeSocketPath 1024
  udsConnectTimeoutMs :=
    parseIntValue numberToInt obj (lit "uds_connect_timeout_ms") cfg.udsConnectTimeoutMs
  helloTimeoutMs := parseIntValue numberToInt obj (lit "hello_timeout_ms") cfg.helloTimeoutMs
  modelLoadTimeoutMs :=
    parseIntValue numberToInt obj (lit "model_load_timeout_ms") cfg.modelLoadTimeoutMs
  udsReconnectMaxAttempts :=
    parseIntValue numberToInt obj (lit "uds_reconnect_max_attempts") cfg.udsReconnectMaxAttempts
  udsReconnectBackoffMs :=
    parseIntValue numberToInt obj (lit "uds_reconnect_backoff_ms") cfg.udsReconnectBackoffMs
  udsOwnerMode := getString obj (lit "uds_owner_mode") cfg.udsOwnerMode 32
  modelReasoningEffort :=
    getString obj (lit "model_reasoning_effort") cfg.modelReasoningEffort 32
  maxOutputBuffer := parseIntValue numberToInt obj (lit "max_output_buffer") cfg.maxOutputBuffer
  maxOutputChars := parseIntValue numberToInt obj (lit "max_output_chars") cfg.maxOutputChars
  maxTurnEvents := parseIntValue numberToInt obj (lit "max_turn_events") cfg.maxTurnEvents

/-- `load_config_from_file`: the new configuration, unless it returns false. -/
def loadConfigFromFile (numberToInt : Bytes → Int) (file : Option Bytes) (cfg : BridgeConfig) :
    Option BridgeConfig :=
  (configObject file).map fun obj => cfg.takeOver numberToInt obj

/-! ## Validation -/

/-- What `%d` prints. -/
def printInt (n : Int) : Bytes :=
  if n < 0 then 45 :: decimal n.natAbs else decimal n.natAbs

/-- The check that a value is not negative. -/
def negative (field : String) (value : Int) : List Bytes :=
  if value < 0 then [lit field ++ lit " negative (" ++ printInt value ++ lit ")"] else []

/-- The check that a value is not below its minimum. -/
def tooSmall (field : String) (value minimum : Int) : List Bytes :=
  if value < minimum then
    [lit field ++ [32] ++ printInt value ++ lit " too small (minimum " ++ printInt minimum ++ lit ")"]
  else []

/-- The check that a value is not above its maximum. -/
def tooLarge (field : String) (value maximum : Int) : List Bytes :=
  if maximum < value then
    [lit field ++ [32] ++ printInt value ++ lit " too large (maximum " ++ printInt maximum ++ lit ")"]
  else []

/-- The check that a value is one of a list. -/
def notAmong (field : String) (value : Bytes) (valid : List Bytes) : List Bytes :=
  if value ∈ valid then []
  else [lit field ++ lit " '" ++ value ++ lit "' invalid (must be " ++
    [124].intercalate valid ++ lit ")"]

def validTransports : List Bytes := [lit "auto", lit "uds", lit "stdio_framed", lit "stdio"]

def validOwnerModes : List Bytes :=
  [lit "connect_existing", lit "launch_and_connect", lit "bridge_listen"]

def validKvPolicies : List Bytes := [lit "per_session", lit "global", lit "disabled"]

def validEffort : List Bytes := [lit "low", lit "medium", lit "high", lit "extra high"]

/-- `config_add_error`: 32 errors of 127 bytes have room. -/
def configAddError (errors : List Bytes) (message : Bytes) : List Bytes :=
  if 32 ≤ errors.length then errors else errors ++ [clip 128 message]

/-- The checks of `config_validate_all`, in order. -/
def configChecks (cfg : BridgeConfig) : List (List Bytes) :=
  [if cfg.serverPort < 1 ∨ 65535 < cfg.serverPort then
      [lit "port " ++ printInt cfg.serverPort ++ lit " out of range (1-65535)"]
    else [],
    negative "uds_connect_timeout_ms" cfg.udsConnectTimeoutMs,
    negative "hello_timeout_ms" cfg.helloTimeoutMs,
    negative "model_load_timeout_ms" cfg.modelLoadTimeoutMs,
    negative "response_timeout_ms" cfg.responseTimeoutMs,
    negative "google_search_timeout_ms" cfg.googleSearchTimeoutMs,
    negative "browse_url_timeout_ms" cfg.browseUrlTimeoutMs,
    negative "shell_command_timeout_ms" cfg.shellCommandTimeoutMs,
    negative "uds_reconnect_backoff_ms" cfg.udsReconnectBackoffMs,
    tooSmall "max_buffer_chunk" cfg.maxBufferChunk 64,
    tooLarge "max_buffer_chunk" cfg.maxBufferChunk 10485760,
    tooSmall "max_request_size" cfg.maxRequestSize 1024,
    tooLarge "max_request_size" cfg.maxRequestSize 104857600,
    tooSmall "max_request_input_bytes" cfg.maxRequestInputBytes 1024,
    tooLarge "max_request_input_bytes" cfg.maxRequestInputBytes 104857600,
    tooSmall "context_tokens" cfg.contextTokens 1024,
    tooLarge "context_tokens" cfg.contextTokens 10000000,
    negative "max_history_entries" cfg.maxHistoryEntries,
    tooLarge "max_history_entries" cfg.maxHistoryEntries 1000,
    negative "uds_reconnect_max_attempts" cfg.udsReconnectMaxAttempts,
    tooLarge "uds_reconnect_max_attempts" cfg.udsReconnectMaxAttempts 100,
    notAmong "native_transport" cfg.nativeTransport validTransports,
    notAmong "uds_owner_mode" cfg.udsOwnerMode validOwnerModes,
    notAmong "kv_cache_policy" cfg.kvCachePolicy validKvPolicies,
    notAmong "model_reasoning_effort" cfg.modelReasoningEffort validEffort]

/-- `config_validate_all`: the errors it reports. -/
def configValidateAll (cfg : BridgeConfig) : List Bytes :=
  (configChecks cfg).flatten.foldl configAddError []

/-- Every setting that `config_validate_all` looks at is in its range. -/
structure BridgeConfig.InRange (cfg : BridgeConfig) : Prop where
  serverPort : 1 ≤ cfg.serverPort ∧ cfg.serverPort ≤ 65535
  udsConnectTimeoutMs : 0 ≤ cfg.udsConnectTimeoutMs
  helloTimeoutMs : 0 ≤ cfg.helloTimeoutMs
  modelLoadTimeoutMs : 0 ≤ cfg.modelLoadTimeoutMs
  responseTimeoutMs : 0 ≤ cfg.responseTimeoutMs
  googleSearchTimeoutMs : 0 ≤ cfg.googleSearchTimeoutMs
  browseUrlTimeoutMs : 0 ≤ cfg.browseUrlTimeoutMs
  shellCommandTimeoutMs : 0 ≤ cfg.shellCommandTimeoutMs
  udsReconnectBackoffMs : 0 ≤ cfg.udsReconnectBackoffMs
  maxBufferChunk : 64 ≤ cfg.maxBufferChunk ∧ cfg.maxBufferChunk ≤ 10485760
  maxRequestSize : 1024 ≤ cfg.maxRequestSize ∧ cfg.maxRequestSize ≤ 104857600
  maxRequestInputBytes :
    1024 ≤ cfg.maxRequestInputBytes ∧ cfg.maxRequestInputBytes ≤ 104857600
  contextTokens : 1024 ≤ cfg.contextTokens ∧ cfg.contextTokens ≤ 10000000
  maxHistoryEntries : 0 ≤ cfg.maxHistoryEntries ∧ cfg.maxHistoryEntries ≤ 1000
  udsReconnectMaxAttempts :
    0 ≤ cfg.udsReconnectMaxAttempts ∧ cfg.udsReconnectMaxAttempts ≤ 100
  nativeTransport : cfg.nativeTransport ∈ validTransports
  udsOwnerMode : cfg.udsOwnerMode ∈ validOwnerModes
  kvCachePolicy : cfg.kvCachePolicy ∈ validKvPolicies
  modelReasoningEffort : cfg.modelReasoningEffort ∈ validEffort

theorem negative_eq_nil_iff {field : String} {value : Int} :
    negative field value = [] ↔ 0 ≤ value := by
  simp [negative]

theorem tooSmall_eq_nil_iff {field : String} {value minimum : Int} :
    tooSmall field value minimum = [] ↔ minimum ≤ value := by
  simp [tooSmall]

theorem tooLarge_eq_nil_iff {field : String} {value maximum : Int} :
    tooLarge field value maximum = [] ↔ value ≤ maximum := by
  simp [tooLarge]

theorem notAmong_eq_nil_iff {field : String} {value : Bytes} {valid : List Bytes} :
    notAmong field value valid = [] ↔ value ∈ valid := by
  simp [notAmong]

/-- The first error is kept, so that no error means no message. -/
theorem foldl_configAddError_eq_nil_iff (messages : List Bytes) :
    messages.foldl configAddError [] = [] ↔ messages = [] := by
  have hkeeps : ∀ (messages : List Bytes) (errors : List Bytes), errors ≠ [] →
      messages.foldl configAddError errors ≠ [] := by
    intro messages
    induction messages with
    | nil => exact fun errors h => h
    | cons message messages ih =>
        intro errors h
        apply ih
        unfold configAddError
        split
        · exact h
        · simp
  cases messages with
  | nil => simp
  | cons message messages =>
      simpa using hkeeps messages (configAddError [] message) (by simp [configAddError])

/-- `config_validate_all` finds nothing exactly when every setting is in its range. -/
theorem configValidateAll_eq_nil_iff (cfg : BridgeConfig) :
    configValidateAll cfg = [] ↔ cfg.InRange := by
  have hport : (if cfg.serverPort < 1 ∨ 65535 < cfg.serverPort then
      [lit "port " ++ printInt cfg.serverPort ++ lit " out of range (1-65535)"] else []) = [] ↔
        1 ≤ cfg.serverPort ∧ cfg.serverPort ≤ 65535 := by
    simp
  rw [configValidateAll, foldl_configAddError_eq_nil_iff, List.flatten_eq_nil_iff]
  simp only [configChecks, List.forall_mem_cons, hport, negative_eq_nil_iff,
    tooSmall_eq_nil_iff, tooLarge_eq_nil_iff, notAmong_eq_nil_iff]
  constructor
  · rintro ⟨port, connect, hello, load, response, search, browse, shell, backoff, chunkMin,
      chunkMax, sizeMin, sizeMax, inputMin, inputMax, contextMin, contextMax, historyMin,
      historyMax, attemptsMin, attemptsMax, transport, owner, policy, effort, -⟩
    exact ⟨port, connect, hello, load, response, search, browse, shell, backoff,
      ⟨chunkMin, chunkMax⟩, ⟨sizeMin, sizeMax⟩, ⟨inputMin, inputMax⟩,
      ⟨contextMin, contextMax⟩, ⟨historyMin, historyMax⟩, ⟨attemptsMin, attemptsMax⟩,
      transport, owner, policy, effort⟩
  · intro h
    exact ⟨h.serverPort, h.udsConnectTimeoutMs, h.helloTimeoutMs, h.modelLoadTimeoutMs,
      h.responseTimeoutMs, h.googleSearchTimeoutMs, h.browseUrlTimeoutMs,
      h.shellCommandTimeoutMs, h.udsReconnectBackoffMs, h.maxBufferChunk.1, h.maxBufferChunk.2,
      h.maxRequestSize.1, h.maxRequestSize.2, h.maxRequestInputBytes.1,
      h.maxRequestInputBytes.2, h.contextTokens.1, h.contextTokens.2, h.maxHistoryEntries.1,
      h.maxHistoryEntries.2, h.udsReconnectMaxAttempts.1, h.udsReconnectMaxAttempts.2,
      h.nativeTransport, h.udsOwnerMode, h.kvCachePolicy, h.modelReasoningEffort, by simp⟩

/-- The defaults are in range when the port is. -/
theorem initGlobalConfig_inRange {port : Int} (h : 1 ≤ port ∧ port ≤ 65535) :
    (initGlobalConfig port).InRange := by
  constructor
  case serverPort => exact h
  all_goals simp [initGlobalConfig, validTransports, validOwnerModes, validKvPolicies, validEffort]

/-! ## The effort of the desktop application -/

/-- `fgets`: the line it puts into a buffer of `size` bytes, and what follows it. -/
def fgets (size : Nat) (text : Bytes) : Bytes × Bytes :=
  let front := text.take (size - 1)
  let line := front.takeWhile (· ≠ 10)
  let got := if line.length < front.length then line ++ [10] else front
  (got, text.drop got.length)

/-- Blanks in front of a value. -/
def skipBlanks (text : Bytes) : Bytes := text.dropWhile fun c => c = 32 || c = 9

/-- The value that a line with the key has between its quotes. -/
def quotedEffort (trimmed : Bytes) : Option Bytes :=
  match after [61] trimmed with
  | none => none
  | some value =>
      match skipBlanks value with
      | 34 :: quoted => if 34 ∈ quoted then some ((upTo 34 quoted).take 31) else none
      | _ => none

/-- The loop of `read_codex_toml_reasoning_effort`: the first line with the key ends it. -/
def findEffort : Nat → Bytes → Option Bytes
  | 0, _ => none
  | fuel + 1, text =>
      if text = [] then none
      else
        let (line, rest) := fgets 256 text
        let trimmed := skipBlanks (cstr line)
        if trimmed = [] ∨ trimmed.head? ∈ [some 35, some 10, some 13] then findEffort fuel rest
        else if (lit "model_reasoning_effort").isPrefixOf trimmed then quotedEffort trimmed
        else findEffort fuel rest

/-- `read_codex_toml_reasoning_effort`, with the file as far as it can be read. -/
def readCodexTomlReasoningEffort (toml : Option Bytes) (cfg : BridgeConfig) : BridgeConfig :=
  match toml.bind fun text => findEffort text.length text with
  | some value =>
      if value ∈ validEffort then { cfg with modelReasoningEffort := clip 32 value } else cfg
  | none => cfg

/-- An effort that is valid has room in its buffer. -/
theorem clip_validEffort {value : Bytes} (h : value ∈ validEffort) : clip 32 value = value := by
  apply clip_eq_self
  simp only [validEffort, List.mem_cons, List.not_mem_nil, or_false] at h
  obtain rfl | rfl | rfl | rfl := h <;> simp [lit]

/-- Whatever the file holds, every setting stays in its range. -/
theorem readCodexTomlReasoningEffort_inRange {cfg : BridgeConfig} (h : cfg.InRange)
    (toml : Option Bytes) : (readCodexTomlReasoningEffort toml cfg).InRange := by
  unfold readCodexTomlReasoningEffort
  split
  · split
    case isTrue hvalid => exact { h with modelReasoningEffort := by rwa [clip_validEffort hvalid] }
    case isFalse => exact h
  · exact h

end StarBridge
