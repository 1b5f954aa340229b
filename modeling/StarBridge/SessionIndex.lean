import StarBridge.CJson

/-!
# Session keys and the session index

A session is known to the agent by its key: a hash of the workspace and the
session id.  The bridge keeps an index from keys to the state ids the agent
reported, with the workspace and model each state was made for, and mirrors it
in a JSON file that a later process reads back.

`load_session_index` fills the slots of a static array without clearing them,
so a record without a field keeps what an earlier occupant of its slot had;
`SessionIndex.stale` holds the slots behind the live ones for that reason.
-/

namespace StarBridge

open CText

/-- A number in decimal, as `%d` prints it. -/
def decimal (n : Nat) : Bytes := (Nat.toDigits 10 n).map fun c => UInt8.ofNat c.toNat

/-- `%d` of a signed number. -/
def signedDecimal (n : Int) : Bytes :=
  if n < 0 then 45 :: decimal n.natAbs else decimal n.natAbs

/-- A number in hexadecimal, as `%lx` prints it. -/
def hexadecimal (n : Nat) : Bytes :=
  (Nat.toDigits 16 n).map fun c => UInt8.ofNat c.toNat

theorem length_hexadecimal_le {n k : Nat} (hk : 0 < k) (h : n < 16 ^ k) :
    (hexadecimal n).length ≤ k := by
  rw [hexadecimal, List.length_map]
  exact (Nat.length_toDigits_le_iff (by decide) hk).mpr h

/-! ## Session keys -/

/-- The hash of `compute_session_key`, in an `unsigned long` of 64 bits. -/
def workspaceHash (workspaceRoot : Bytes) : Nat :=
  workspaceRoot.foldl (fun h c => (h * 131 + c.toNat) % 2 ^ 64) 0

/-- The text `compute_session_key` prints into its 256-byte buffer. -/
def sessionKeyText (workspaceRoot sessionId : Bytes) : Bytes :=
  hexadecimal (workspaceHash workspaceRoot) ++ lit "_" ++ sessionId

/-- `compute_session_key`, and `session_key_for` with a buffer of at least 256
bytes: the empty key when the text does not fit. -/
def sessionKey (workspaceRoot sessionId : Bytes) : Bytes :=
  if (sessionKeyText workspaceRoot sessionId).length < 256 then
    sessionKeyText workspaceRoot sessionId
  else []

/-! ## The index -/

/-- `SessionIndexEntry`. -/
structure SessionIndexEntry where
  key : Bytes
  stateId : Bytes
  workspaceRoot : Bytes
  modelId : Bytes
  contextBudget : Int
  updatedAt : Bytes
  deriving DecidableEq, Repr

/-- A slot nothing was written to. -/
def SessionIndexEntry.blank : SessionIndexEntry := ⟨[], [], [], [], 0, []⟩

/-- `s_index`: the live entries, the slots behind them, and `s_index_dirty`. -/
structure SessionIndex where
  entries : List SessionIndexEntry
  stale : List SessionIndexEntry
  dirty : Bool
  deriving DecidableEq, Repr

namespace SessionIndex

/-- `SESSION_INDEX_MAX_ENTRIES`. -/
def maxEntries : Nat := 64

/-- The index before anything is loaded. -/
def empty : SessionIndex := ⟨[], [], false⟩

/-- All slots, live ones first. -/
def slots (index : SessionIndex) : List SessionIndexEntry := index.entries ++ index.stale

/-- One record of the file over the slot it lands in. -/
def readEntry (numberToInt : Bytes → Int) (record : CJson)
    (slot : SessionIndexEntry) : SessionIndexEntry :=
  { key := record.getString (lit "key") slot.key 256
    stateId := record.getString (lit "state_id") slot.stateId 128
    workspaceRoot := record.getString (lit "workspace_root") slot.workspaceRoot 1024
    modelId := record.getString (lit "model_id") slot.modelId 128
    contextBudget := record.getInt numberToInt (lit "context_budget")
    updatedAt := record.getString (lit "updated_at") slot.updatedAt 32 }

/-- Records over the slots they land in; slots run out as blank ones. -/
def readEntries (numberToInt : Bytes → Int) :
    List CJson → List SessionIndexEntry → List SessionIndexEntry
  | [], _ => []
  | record :: rest, slots =>
      readEntry numberToInt record (slots.headD .blank) ::
        readEntries numberToInt rest slots.tail

/-- `load_session_index`: at most 32767 bytes of the file are read. -/
def load (numberToInt : Bytes → Int) (file : Option Bytes) (index : SessionIndex) :
    SessionIndex :=
  let records := do
    let text ← file
    let obj ← CJson.parse (text.take 32767)
    obj.getArray (lit "entries")
  match records with
  | none => ⟨[], index.slots, false⟩
  | some records =>
      let records := records.take maxEntries
      ⟨readEntries numberToInt records index.slots, index.slots.drop records.length,
        false⟩

/-- The entry a key stands for: the first that has it. -/
def find (index : SessionIndex) (key : Bytes) : Option SessionIndexEntry :=
  index.entries.find? fun e => e.key = key

/-- `session_index_lookup`. -/
def lookup (index : SessionIndex) (key : Bytes) : Option Bytes :=
  (index.find key).map (·.stateId)

/-- A field that is NULL to its caller when empty. -/
def nonEmpty (field : Bytes) : Option Bytes := if field = [] then none else some field

/-- `session_index_get_workspace`. -/
def getWorkspace (index : SessionIndex) (key : Bytes) : Option Bytes :=
  (index.find key).bind fun e => nonEmpty e.workspaceRoot

/-- `session_index_get_model_id`. -/
def getModelId (index : SessionIndex) (key : Bytes) : Option Bytes :=
  (index.find key).bind fun e => nonEmpty e.modelId

/-- An argument over a field: an empty one leaves the field alone. -/
def overwrite (field argument : Bytes) (size : Nat) : Bytes :=
  if argument = [] then field else clip size argument

/-- What `session_index_update` does to the first entry with its key. -/
def updateFirst (key : Bytes) (update : SessionIndexEntry → SessionIndexEntry) :
    List SessionIndexEntry → Option (List SessionIndexEntry)
  | [] => none
  | e :: rest =>
      if e.key = key then some (update e :: rest)
      else (updateFirst key update rest).map (e :: ·)

/-- `session_index_update`, at time `now`. -/
def update (index : SessionIndex) (key stateId workspaceRoot modelId : Bytes)
    (contextBudget : Int) (now : Bytes) : SessionIndex :=
  let updated := updateFirst key
    (fun e =>
      { e with
        stateId := clip 128 stateId
        workspaceRoot := overwrite e.workspaceRoot workspaceRoot 1024
        modelId := overwrite e.modelId modelId 128
        contextBudget := if 0 < contextBudget then contextBudget else e.contextBudget
        updatedAt := clip 32 now })
    index.entries
  match updated with
  | some entries => { index with entries := entries, dirty := true }
  | none =>
      if maxEntries ≤ index.entries.length then index
      else
        { entries := index.entries ++
            [{ key := clip 256 key
               stateId := clip 128 stateId
               workspaceRoot := clip 1024 workspaceRoot
               modelId := clip 128 modelId
               contextBudget := contextBudget
               updatedAt := clip 32 now }]
          stale := index.stale.tail
          dirty := true }

/-- One line of the file. -/
def renderEntry (e : SessionIndexEntry) : Bytes :=
  lit "  \x7b\"key\":\"" ++ jsonEscape e.key 512 ++
    lit "\",\"state_id\":\"" ++ jsonEscape e.stateId 512 ++
    lit "\",\"workspace_root\":\"" ++ jsonEscape e.workspaceRoot 512 ++
    lit "\",\"model_id\":\"" ++ jsonEscape e.modelId 512 ++
    lit "\",\"context_budget\":" ++ signedDecimal e.contextBudget ++
    lit ",\"updated_at\":\"" ++ jsonEscape e.updatedAt 512 ++ lit "\"\x7d"

/-- The lines of the file, with commas between them. -/
def renderEntries : List SessionIndexEntry → Bytes
  | [] => []
  | [e] => renderEntry e ++ lit "\n"
  | e :: rest => renderEntry e ++ lit ",\n" ++ renderEntries rest

/-- `save_session_index`: the file afterwards and the index with its flag
cleared. -/
def save (index : SessionIndex) (file : Option Bytes) : SessionIndex × Option Bytes :=
  if index.dirty then
    ({ index with dirty := false },
      some (lit "\x7b\"entries\":[\n" ++ renderEntries index.entries ++ lit "]\x7d\n"))
  else (index, file)

end SessionIndex

/-! ## Keys -/

/-- A key is empty or it is the text it was meant to be. -/
theorem sessionKey_cases (workspaceRoot sessionId : Bytes) :
    sessionKey workspaceRoot sessionId = [] ∨
      sessionKey workspaceRoot sessionId = sessionKeyText workspaceRoot sessionId := by
  unfold sessionKey
  split
  · exact .inr rfl
  · exact .inl rfl

end StarBridge
