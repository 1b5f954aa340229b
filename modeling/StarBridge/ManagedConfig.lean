import Mathlib.Data.Int.Basic
import StarBridge.JsonText
import StarBridge.SectionBlocks

/-!
# The managed section of Codex's configuration

`star_bridge` puts a section of its own between two marker lines into
`~/.codex/config.toml`, and takes it out again.  Earlier versions used other
marker lines, which are still recognised.

Three functions look for markers, each in its own way: `find_managed_block` for
a current opening marker and only then for a legacy one,
`remove_all_managed_sections` for whichever comes first, and
`disable_managed_config` for a current one alone.  All of them work on C
strings, whatever follows a terminator in the file.
-/

namespace StarBridge

open CText Sections

/-! ## Markers -/

/-- `MANAGED_BEGIN`. -/
def managedBegin : Bytes := lit "# --- BEGIN star_bridge-managed ---\n"

/-- `MANAGED_END`. -/
def managedEnd : Bytes := lit "# --- END star_bridge-managed ---\n"

/-- `LEGACY_MANAGED_BEGIN`. -/
def legacyManagedBegin : Bytes := lit "# --- BEGIN bridge-managed ---\n"

/-- `LEGACY_MANAGED_END`. -/
def legacyManagedEnd : Bytes := lit "# --- END bridge-managed ---\n"

/-- `strstr`, as an offset. -/
def locate (pattern text : Bytes) : Option Nat :=
  if occurs pattern text then some (before pattern text).length else none

/-- The first of two places, of which either may be missing. -/
def earliest : Option Nat → Option Nat → Option Nat
  | none, b => b
  | some a, some b => if b < a then some b else some a
  | some a, none => some a

/-- `find_managed_block`: where the block begins. -/
def findManagedBlock (buf : Bytes) : Option Nat :=
  match (locate managedBegin buf).or (locate legacyManagedBegin buf) with
  | none => none
  | some start =>
      if occurs managedEnd (buf.drop start) || occurs legacyManagedEnd (buf.drop start) then
        some start
      else none

/-- A line break or a carriage return. -/
def isLineBreak (c : UInt8) : Bool := c = 10 || c = 13

/-- The loop of `remove_all_managed_sections`, at `pos`. -/
def removeSections : Nat → Bytes → Bytes
  | 0, _ => []
  | fuel + 1, pos =>
      match earliest (locate managedBegin pos) (locate legacyManagedBegin pos) with
      | none => pos
      | some start =>
          let fromBegin := pos.drop start
          pos.take start ++
            match earliest (locate managedEnd fromBegin) (locate legacyManagedEnd fromBegin) with
            | none => fromBegin
            | some stop =>
                let fromEnd := fromBegin.drop stop
                let rest :=
                  if managedEnd.isPrefixOf fromEnd then fromEnd.drop managedEnd.length
                  else fromEnd.drop legacyManagedEnd.length
                removeSections fuel (rest.dropWhile isLineBreak)

/-- `remove_all_managed_sections`. -/
def removeAllManagedSections (buf : Bytes) : Bytes := removeSections (buf.length + 1) buf

/-! ## The block -/

/-- What the block is built from: the home directory and the configured effort,
each a single line. -/
structure ManagedSettings where
  home : Option Bytes
  effort : Bytes
  home_line : ∀ dir ∈ home, 0 ∉ dir ∧ 10 ∉ dir
  effort_line : 0 ∉ effort ∧ 10 ∉ effort
  effort_lt : effort.length < 32

/-- The path of the model catalog, in its buffer of 1024 bytes. -/
def ManagedSettings.catalogPath (settings : ManagedSettings) : Bytes :=
  clip 1024
    (match settings.home with
    | some (c :: dir) => c :: dir ++ lit "/.codex/custom_catalog.json"
    | _ => lit "~/.codex/custom_catalog.json")

/-- The lines between the markers. -/
def ManagedSettings.bodyLines (settings : ManagedSettings) (port : Int32) : List Bytes :=
  [lit "# This section is managed by star_bridge. Do not edit manually.",
    lit "#",
    lit "model = \"star-bridge-ds4\"",
    lit "model_provider = \"star-bridge-local\"",
    lit "",
    lit "# Force the Desktop UI picker to load our local model catalog",
    lit "model_catalog_json = \"" ++ settings.catalogPath ++ lit "\"",
    lit "",
    lit "[model_providers.star-bridge-local]",
    lit "name = \"Star Bridge Local\"",
    lit "base_url = \"http://127.0.0.1:" ++
      signedDecimal (if 0 < port then port.toInt else 8080) ++ lit "/v1\"",
    lit "wire_api = \"responses\"",
    lit "streaming = true",
    lit "response_timeout_ms = 60000",
    lit "context_tokens = 150000",
    lit "max_request_size = 131072",
    lit "requires_openai_auth = false",
    lit "supports_websockets = false",
    lit "#",
    lit "# Reasoning effort control: Codex Desktop may update this via UI.",
    lit "# Valid values: low, medium, high, extra high",
    lit "model_reasoning_effort = \"" ++
      (if settings.effort = [] then lit "medium" else settings.effort) ++ lit "\""]

/-- Lines as a text. -/
def joinLines (lines : List Bytes) : Bytes := lines.flatMap (· ++ [10])

/-- `build_managed_block`, in its buffer of 3072 bytes. -/
def buildManagedBlock (settings : ManagedSettings) (port : Int32) : Bytes :=
  clip 3072 (managedBegin ++ joinLines (settings.bodyLines port) ++ managedEnd)

/-! ## Displaced sections -/

/-- The end of the text behind its last line break. -/
def lineStart (front : Bytes) : Bytes := (front.reverse.takeWhile (· ≠ 10)).reverse

/-- The rest of a section behind its header: up to the next line that opens one. -/
def sectionRest (rest : Bytes) : Bytes :=
  if occurs (lit "\n[") rest then before (lit "\n[") rest ++ [10] else rest

/-- The first section with the header, or with the legacy one if there is none. -/
def displacedSection (header legacyHeader text : Bytes) : Bytes :=
  let found := if occurs header text then header else legacyHeader
  match after found text with
  | none => []
  | some rest => lineStart (before found text) ++ found ++ sectionRest rest

/-- `[model "star-bridge-ds4"]`. -/
def modelHeader : Bytes := lit "[model \"star-bridge-ds4\"]"

/-- `[model "ds4-unix-bridge"]`. -/
def legacyModelHeader : Bytes := lit "[model \"ds4-unix-bridge\"]"

/-- `[provider "star-bridge-local"]`. -/
def providerHeader : Bytes := lit "[provider \"star-bridge-local\"]"

/-- `[provider "dwarfstar-bridge"]`. -/
def legacyProviderHeader : Bytes := lit "[provider \"dwarfstar-bridge\"]"

/-- `extract_displaced_keys`, given the text in front of the block: empty where it
returns NULL. -/
def extractDisplacedKeys (text : Bytes) : Bytes :=
  displacedSection modelHeader legacyModelHeader text ++
    displacedSection providerHeader legacyProviderHeader text

/-! ## The commands -/

/-- `config.toml` and its backup. -/
structure CodexFiles where
  config : Option Bytes
  backup : Option Bytes
  deriving DecidableEq, Repr

/-- `read_file`: nothing for an empty file, and of the others what C sees as a
string. -/
def readFile (file : Option Bytes) : Option Bytes :=
  file.bind fun content => if content = [] then none else some (cstr content)

/-- A line break behind a text that does not end in one. -/
def endLine (text : Bytes) : Bytes :=
  if text ≠ [] ∧ text.getLast? ≠ some 10 then text ++ [10] else text

/-- `install_managed_config`: what it returns, and the files. -/
def installManagedConfig (settings : ManagedSettings) (dryRun : Bool) (serverPort : Int32)
    (files : CodexFiles) : Bool × CodexFiles :=
  let port := if serverPort ≤ 0 then 8080 else serverPort
  let existing := readFile files.config
  if dryRun then (true, files)
  else
    match existing with
    | some text =>
        let cleaned := removeAllManagedSections text
        (true, ⟨some (endLine cleaned ++ buildManagedBlock settings port), some cleaned⟩)
    | none => (true, { files with config := some (buildManagedBlock settings port) })

/-- `disable_managed_config`: what it returns, and the files. -/
def disableManagedConfig (dryRun : Bool) (files : CodexFiles) : Bool × CodexFiles :=
  match readFile files.config with
  | none => (false, files)
  | some existing =>
      if ¬ occurs managedBegin existing then (false, files)
      else if dryRun then (true, files)
      else
        let backup := some existing
        let cleaned := removeAllManagedSections existing
        let displaced :=
          match readFile backup with
          | some text => extractDisplacedKeys (before managedBegin text)
          | none => []
        let content := if displaced = [] then cleaned else endLine cleaned ++ displaced
        if content = [] then (true, ⟨none, backup⟩)
        else (true, ⟨some content, backup⟩)

/-- `managed_config_status`. -/
def managedConfigStatus (files : CodexFiles) : Bool :=
  match readFile files.config with
  | none => false
  | some existing => (findManagedBlock existing).isSome

end StarBridge
