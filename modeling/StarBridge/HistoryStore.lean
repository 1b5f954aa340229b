import StarBridge.IndexRuns
import StarBridge.RingBuffers
import StarBridge.ToolHistory

/-!
# The store of the tool history

`tool_history_append` keeps a line twice: its bytes behind those of the lines before it,
in a buffer of 2048, and as an entry in an array of at most 64.  Either drops what is
oldest, by its own arithmetic, and the limit of the array may change between two lines.
What the array dropped is counted in an `int`.

`Tracks` is what holds of the store after every sequence of calls, against a log of the
lines since the last reset; `tool_history_window_iff` says how long the store and the
array that is printed from it are a window on these lines.
-/

namespace StarBridge

open CText Runs RingBuffer

/-! ## The store -/

/-- `g_history_entries`, `g_history_max`, `g_history_drop_count` and `g_tool_history`. -/
structure HistoryStore where
  entries : List ToolHistoryEntry
  max : Nat
  dropCount : Int32
  raw : Bytes

/-- The store before the first call. -/
def HistoryStore.initial : HistoryStore := ⟨[], 20, 0, []⟩

/-- `g_history_max`, as a line sets it from `max_history_entries`. -/
def historyMax (maxHistoryEntries : Int) : Nat :=
  min (if 0 < maxHistoryEntries then maxHistoryEntries.toNat else 20) 64

theorem mem_after {stop c : UInt8} {text rest : Bytes} (h : after [stop] text = some rest)
    (hc : c ∈ rest) : c ∈ text := by
  rw [← before_append_after h]
  exact List.mem_append_right _ hc

theorem zero_not_mem_clip {text : Bytes} (h : 0 ∉ text) (size : Nat) : 0 ∉ clip size text :=
  fun hmem => h (List.mem_of_mem_take hmem)

/-- The tool of a line: what is behind the first blank of its first 1023 bytes. -/
def lineTool (line : Bytes) : Option Bytes := after [32] (clip 1024 line)

theorem zero_not_mem_lineTool {line tool : Bytes} (hline : 0 ∉ line)
    (h : lineTool line = some tool) : 0 ∉ tool :=
  fun hmem => zero_not_mem_clip hline 1024 (mem_after h hmem)

/-- The arguments of a line: what is behind the second blank. -/
def lineDetail (tool : Bytes) : Bytes := (after [32] tool).getD []

theorem zero_not_mem_lineDetail {tool : Bytes} (h : 0 ∉ tool) : 0 ∉ lineDetail tool := by
  unfold lineDetail
  cases hafter : after [32] tool with
  | none => exact List.not_mem_nil
  | some detail => exact fun hmem => h (mem_after hafter hmem)

/-- The entry that `tool_history_append` makes of a line. -/
def historyEntry (line : CString) : Option ToolHistoryEntry :=
  match h : lineTool line.val with
  | none => none
  | some tool =>
      have hzero := zero_not_mem_lineTool line.property h
      some
        { toolName := clip 64 (upTo 32 tool)
          args := clip 256 (lineDetail tool)
          status := if occurs (lit "TOOL_ERROR") line.val then .error else .ok
          name_holds :=
            .clip (by decide) fun hmem => hzero ((List.takeWhile_sublist _).subset hmem)
          args_holds := .clip (by decide) (zero_not_mem_lineDetail hzero) }

/-- `tool_history_append`, with the value of `max_history_entries`. -/
def toolHistoryAppend (maxHistoryEntries : Int) (line : CString) (s : HistoryStore) :
    HistoryStore :=
  if line.val = [] then s
  else if 2048 ≤ line.val.length + 1 then { s with raw := clip 2048 line.val }
  else
    let drop := s.raw.length + line.val.length + 1 - 2048
    let kept :=
      if 2048 ≤ s.raw.length + line.val.length + 1 then
        if s.raw.length ≤ drop then [] else s.raw.drop drop
      else s.raw
    let max := historyMax maxHistoryEntries
    match historyEntry line with
    | none => { s with raw := kept ++ line.val, max := max }
    | some e =>
        let evict := if max ≤ s.entries.length then s.entries.length - max + 1 else 0
        { entries := s.entries.drop evict ++ [e]
          max := max
          dropCount := s.dropCount + Int32.ofNat evict
          raw := kept ++ line.val }

/-- `tool_history_reset`. -/
def toolHistoryReset (s : HistoryStore) : HistoryStore :=
  { s with entries := [], dropCount := 0, raw := [] }

namespace HistoryStore

variable (s : HistoryStore)

def startIndex : Nat := if 12 < s.entries.length then s.entries.length - 12 else 0

/-- The entries that are printed. -/
def shown : List ToolHistoryEntry := s.entries.drop s.startIndex

/-- `dropped_count`. -/
def droppedCount : Int32 := s.dropCount + Int32.ofNat s.startIndex

/-- What is said of the entries that are not. -/
def droppedText : Bytes :=
  if 0 < s.droppedCount ∧ 0 < s.entries.length then
    lit "\x7b\"truncated\":true,\"dropped\":" ++ decimal s.droppedCount.toInt.toNat ++
      lit "\x7d,"
  else []

/-- `tool_history_build_json` of the store. -/
def buildJson : Draft UInt8 :=
  let alloc := s.max * 1024 + 512
  let d := Draft.start.print alloc (lit "[")
  let d := if s.droppedText = [] then d else d.print alloc s.droppedText
  (printToolEntries alloc true s.shown d).print alloc (lit "]")

end HistoryStore

/-- The store prints the history that it holds, while the count fits. -/
theorem HistoryStore.buildJson_eq {s : HistoryStore} {h : ToolHistory}
    (hentries : s.entries = h.entries) (hmax : s.max = h.max)
    (hdropped : s.dropCount = Int32.ofNat h.dropCount) : s.buildJson = toolHistoryBuildJson h := by
  have hbound := h.dropped_int
  have hle := h.entries_le
  have hcap := h.max_le
  have hstart : s.startIndex = h.startIndex := by
    rw [startIndex, ToolHistory.startIndex, hentries]
  have hshort : h.dropCount + h.startIndex < 2 ^ 31 := by
    unfold ToolHistory.startIndex
    split_ifs <;> omega
  have hint : s.droppedCount.toInt = (h.dropCount + h.startIndex : Nat) := by
    rw [droppedCount, hdropped, hstart, ← Int32.ofNat_add]
    exact Int32.toInt_ofNat_of_lt hshort
  have hpos : 0 < s.droppedCount ↔ 0 < h.dropCount + h.startIndex := by
    have hzero : (0 : Int32).toInt = 0 := rfl
    rw [Int32.lt_iff_toInt_lt, hint, hzero]
    omega
  have htext : s.droppedText = h.droppedText := by
    unfold droppedText ToolHistory.droppedText
    simp only [hpos, hint, hentries, Int.toNat_natCast]
  have hshown : s.shown = h.shown := by
    rw [shown, ToolHistory.shown, hentries, hstart]
  unfold buildJson toolHistoryBuildJson
  rw [htext, hshown, hmax]

/-! ## The log -/

/-- A line that is kept both as bytes and as an entry. -/
structure HistoryLine where
  text : CString
  short : text.val.length ≤ 2046
  blank : 32 ∈ text.val.take 1023

theorem HistoryLine.isSome_entry (line : HistoryLine) :
    (historyEntry line.text).isSome = true := by
  have hoccurs : occurs [32] (clip 1024 line.text.val) = true := by
    rw [occurs_iff, List.singleton_infix_iff]
    exact line.blank
  have htool : (lineTool line.text.val).isSome = true := hoccurs
  unfold historyEntry
  split
  · next hnone => rw [hnone] at htool; cases htool
  · rfl

/-- The entry of a line. -/
def HistoryLine.entry (line : HistoryLine) : ToolHistoryEntry :=
  (historyEntry line.text).get line.isSome_entry

theorem HistoryLine.historyEntry_eq (line : HistoryLine) :
    historyEntry line.text = some line.entry :=
  (Option.some_get _).symm

inductive HistoryCall
  | append (maxHistoryEntries : Int) (line : HistoryLine)
  | reset

/-- What was appended since the last reset, how many entries of it a window holds that
never grows beyond the limit, and the limit. -/
structure HistoryLog where
  lines : List HistoryLine
  held : Nat
  limit : Nat

namespace HistoryLog

def initial : HistoryLog := ⟨[], 0, 20⟩

def step (log : HistoryLog) : HistoryCall → HistoryLog
  | .append maxHistoryEntries line =>
      let limit := historyMax maxHistoryEntries
      ⟨log.lines ++ [line], min (log.held + 1) limit, limit⟩
  | .reset => ⟨[], 0, log.limit⟩

variable (log : HistoryLog)

def entries : List ToolHistoryEntry := log.lines.map HistoryLine.entry

def bytes : Bytes := log.lines.flatMap fun line => line.text.val

end HistoryLog

def HistoryStore.step (s : HistoryStore) : HistoryCall → HistoryStore
  | .append maxHistoryEntries line => toolHistoryAppend maxHistoryEntries line.text s
  | .reset => toolHistoryReset s

/-- The store and the log after the same calls. -/
structure Tracks (log : HistoryLog) (s : HistoryStore) : Prop where
  entries : s.entries = keepLast log.held log.entries
  held_le : log.held ≤ log.lines.length
  held_pos : log.lines ≠ [] → 0 < log.held
  held_limit : log.held ≤ log.limit
  max : s.max = log.limit
  limit_pos : 0 < log.limit
  limit_le : log.limit ≤ 64
  dropped : s.dropCount = Int32.ofNat (log.lines.length - log.held)
  raw : s.raw = keepLast 2047 log.bytes

theorem historyMax_pos (maxHistoryEntries : Int) : 0 < historyMax maxHistoryEntries := by
  unfold historyMax
  split_ifs <;> omega

theorem historyMax_le (maxHistoryEntries : Int) : historyMax maxHistoryEntries ≤ 64 :=
  Nat.min_le_right _ _

section

variable {α : Type*}

theorem drop_keepLast {n : Nat} {l : List α} (h : n ≤ l.length) (k : Nat) :
    (keepLast n l).drop k = keepLast (n - k) l := by
  unfold keepLast
  rw [List.drop_drop]
  by_cases hk : k ≤ n
  · congr 1
    omega
  · rw [List.drop_of_length_le (by omega), List.drop_of_length_le (by omega)]

theorem keepLast_concat {n : Nat} {l : List α} (h : n ≤ l.length) (x : α) :
    keepLast (n + 1) (l ++ [x]) = keepLast n l ++ [x] := by
  unfold keepLast
  rw [List.length_append, List.length_singleton, List.drop_append_of_le_length (by omega)]
  congr 2
  omega

/-- **The bytes**: what is dropped makes room for the line and no more. -/
theorem keepLast_room {n : Nat} {raw line : List α} (hline : line.length < n) :
    (if n + 1 ≤ raw.length + line.length + 1 then
        if raw.length ≤ raw.length + line.length + 1 - (n + 1) then []
        else raw.drop (raw.length + line.length + 1 - (n + 1))
      else raw) ++ line = keepLast n (raw ++ line) := by
  unfold keepLast
  rw [List.length_append]
  split_ifs with hfull hall
  · omega
  · rw [List.drop_append_of_le_length (by omega)]
    congr 2
    omega
  · rw [show raw.length + line.length - n = 0 by omega, List.drop_zero]

end

theorem Tracks.length_entries {log : HistoryLog} {s : HistoryStore} (h : Tracks log s) :
    s.entries.length = log.held := by
  have hle := h.held_le
  rw [h.entries, length_keepLast, HistoryLog.entries, List.length_map]
  omega

/-- **One call.** -/
theorem Tracks.step {log : HistoryLog} {s : HistoryStore} (h : Tracks log s)
    (call : HistoryCall) : Tracks (log.step call) (s.step call) := by
  cases call with
  | reset =>
      exact
        { entries := rfl
          held_le := Nat.le_refl 0
          held_pos := fun hne => absurd rfl hne
          held_limit := Nat.zero_le _
          max := h.max
          limit_pos := h.limit_pos
          limit_le := h.limit_le
          dropped := rfl
          raw := (keepLast_eq_self (Nat.zero_le _)).symm }
  | append maxHistoryEntries line =>
      have hpos := historyMax_pos maxHistoryEntries
      have hle := historyMax_le maxHistoryEntries
      have hline := line.short
      have hnonempty : line.text.val ≠ [] := by
        intro hnil
        have hblank := line.blank
        rw [hnil] at hblank
        cases hblank
      have hlong : ¬ 2048 ≤ line.text.val.length + 1 := by omega
      have hheld := h.length_entries
      have hroom : _ = keepLast 2047 (s.raw ++ line.text.val) :=
        keepLast_room (show line.text.val.length < 2047 by omega)
      rw [h.raw, keepLast_append] at hroom
      have happend : s.step (.append maxHistoryEntries line) =
          { entries := s.entries.drop (if historyMax maxHistoryEntries ≤ s.entries.length then
              s.entries.length - historyMax maxHistoryEntries + 1 else 0) ++ [line.entry]
            max := historyMax maxHistoryEntries
            dropCount := s.dropCount +
              Int32.ofNat (if historyMax maxHistoryEntries ≤ s.entries.length then
                s.entries.length - historyMax maxHistoryEntries + 1 else 0)
            raw := keepLast 2047 (log.bytes ++ line.text.val) } := by
        unfold HistoryStore.step toolHistoryAppend
        simp only [if_neg hnonempty, if_neg hlong, line.historyEntry_eq]
        rw [← hroom, ← h.raw]
      have hheld_le := h.held_le
      rw [happend, hheld]
      generalize hevict : (if historyMax maxHistoryEntries ≤ log.held then
        log.held - historyMax maxHistoryEntries + 1 else 0) = evict
      have hkept : min (log.held + 1) (historyMax maxHistoryEntries) = log.held - evict + 1 ∧
          evict ≤ log.held := by
        split_ifs at hevict <;> omega
      refine
        { entries := ?_
          held_le := ?_
          held_pos := fun _ => ?_
          held_limit := Nat.min_le_right _ _
          max := rfl
          limit_pos := hpos
          limit_le := hle
          dropped := ?_
          raw := ?_ }
      · have hentries : log.held ≤ log.entries.length := by
          rw [HistoryLog.entries, List.length_map]
          exact hheld_le
        simp only [HistoryLog.step, HistoryLog.entries, List.map_append, List.map_singleton]
        rw [hkept.1, keepLast_concat (by rw [List.length_map]; omega), h.entries,
          drop_keepLast hentries]
        rfl
      · simp only [HistoryLog.step, List.length_append, List.length_singleton]
        omega
      · simp only [HistoryLog.step]
        omega
      · simp only [HistoryLog.step, List.length_append, List.length_singleton]
        rw [h.dropped, ← Int32.ofNat_add, hkept.1]
        congr 1
        omega
      · simp only [HistoryLog.step, HistoryLog.bytes, List.flatMap_append,
          List.flatMap_singleton]

theorem tracks_initial : Tracks .initial .initial where
  entries := rfl
  held_le := Nat.le_refl 0
  held_pos := fun hne => absurd rfl hne
  held_limit := Nat.zero_le _
  max := rfl
  limit_pos := by decide
  limit_le := by decide
  dropped := rfl
  raw := (keepLast_eq_self (Nat.zero_le _)).symm

/-- The log after a sequence of calls. -/
def logAfter (calls : List HistoryCall) : HistoryLog :=
  stateAfter HistoryLog.step .initial calls

/-- The store after a sequence of calls. -/
def storeAfter (calls : List HistoryCall) : HistoryStore :=
  stateAfter HistoryStore.step .initial calls

/-- **Every sequence of calls.** -/
theorem tracks_after (calls : List HistoryCall) : Tracks (logAfter calls) (storeAfter calls) := by
  induction calls using List.reverseRecOn with
  | nil => exact tracks_initial
  | append_singleton calls call ih =>
      unfold logAfter storeAfter at ih ⊢
      rw [stateAfter_append, stateAfter_append]
      exact ih.step call

/-! ## The array -/

/-- What an array says of entries that it leaves out. -/
def noticeText (dropped : Nat) : Bytes :=
  if 0 < dropped then
    lit "\x7b\"truncated\":true,\"dropped\":" ++ decimal dropped ++ lit "\x7d,"
  else []

/-- The array that shows these entries and says how many it leaves out. -/
def windowText (dropped : Nat) (shown : List ToolHistoryEntry) : Bytes :=
  lit "[" ++ noticeText dropped ++ joinEntries shown ++ lit "]"

theorem decimal_injective {m n : Nat} (h : decimal m = decimal n) : m = n := by
  rw [← CJson.foldl_decimal m, ← CJson.foldl_decimal n, h]

theorem noticeText_injective {m n : Nat} (h : noticeText m = noticeText n) : m = n := by
  have hne : ∀ k, lit "\x7b\"truncated\":true,\"dropped\":" ++ decimal k ++ lit "\x7d," ≠ [] := by
    intro k hnil
    exact CJson.decimal_ne_nil k (by simp_all)
  unfold noticeText at h
  split_ifs at h with hm hn hn
  · exact decimal_injective (List.append_cancel_left (List.append_cancel_right h))
  · exact absurd h (hne m)
  · exact absurd h.symm (hne n)
  · omega

namespace HistoryStore

variable (s : HistoryStore)

/-- The number in the array, 0 where there is none. -/
def saidDropped : Nat :=
  if 0 < s.droppedCount ∧ 0 < s.entries.length then s.droppedCount.toInt.toNat else 0

theorem saidDropped_lt : s.saidDropped < 2 ^ 31 := by
  have hlt := s.droppedCount.toInt_lt
  unfold saidDropped
  split_ifs <;> omega

theorem droppedText_eq : s.droppedText = noticeText s.saidDropped := by
  unfold droppedText noticeText saidDropped
  by_cases h : 0 < s.droppedCount ∧ 0 < s.entries.length
  · have hpos : 0 < s.droppedCount.toInt := by simpa using Int32.lt_iff_toInt_lt.mp h.1
    rw [if_pos h, if_pos h, if_pos (by omega)]
  · rw [if_neg h, if_neg h, if_neg (Nat.lt_irrefl 0)]

theorem length_noticeText_le {n : Nat} (h : n < 2 ^ 31) : (noticeText n).length ≤ 40 := by
  have hopen : (lit "\x7b\"truncated\":true,\"dropped\":").length = 28 := length_lit _
  have hclose : (lit "\x7d,").length = 2 := length_lit _
  have hnumber := CJson.length_decimal_le (by decide) (show n < 10 ^ 10 by omega)
  unfold noticeText
  split_ifs
  · simp only [List.length_append, hopen, hclose]
    omega
  · exact Nat.zero_le _

end HistoryStore

/-- The array of a store that has followed a log. -/
theorem Tracks.text_buildJson {log : HistoryLog} {s : HistoryStore} (h : Tracks log s) :
    s.buildJson.text =
      windowText s.saidDropped (keepLast (min 12 s.entries.length) log.entries) := by
  have hlength := h.length_entries
  have hle := h.held_le
  have hlimit := h.held_limit
  have hshown : s.shown = keepLast (min 12 s.entries.length) log.entries := by
    rw [HistoryStore.shown, h.entries,
      drop_keepLast (by rw [HistoryLog.entries, List.length_map]; exact hle), ← h.entries, hlength]
    congr 1
    unfold HistoryStore.startIndex
    split_ifs <;> omega
  have hpos : 0 < s.max := by
    rw [h.max]
    exact h.limit_pos
  have hdropped : s.droppedText.length ≤ 40 := by
    rw [s.droppedText_eq]
    exact HistoryStore.length_noticeText_le s.saidDropped_lt
  have hcount : s.shown.length ≤ s.max := by
    rw [HistoryStore.shown, List.length_drop, h.max]
    omega
  have hwhole := whole_printToolArray s.shown hpos hdropped
  rw [entriesPrinted_eq hdropped hcount] at hwhole
  rw [windowText, ← hshown, ← s.droppedText_eq]
  exact hwhole.text_eq

/-- The number in the array is right as long as it is an `int`. -/
theorem Tracks.saidDropped_iff {log : HistoryLog} {s : HistoryStore} (h : Tracks log s) :
    s.saidDropped + min 12 s.entries.length = log.lines.length ↔
      log.lines.length < 2 ^ 31 + min 12 log.held := by
  have hlength := h.length_entries
  have hle := h.held_le
  have hcount : s.droppedCount = Int32.ofNat (log.lines.length - min 12 log.held) := by
    unfold HistoryStore.droppedCount HistoryStore.startIndex
    rw [h.dropped, ← Int32.ofNat_add, hlength]
    congr 1
    split_ifs <;> omega
  constructor
  · intro hsum
    have hlt := s.saidDropped_lt
    omega
  · intro hsmall
    have hint : s.droppedCount.toInt = (log.lines.length - min 12 log.held : Nat) := by
      rw [hcount]
      exact Int32.toInt_ofNat_of_lt (by omega)
    have hpos : 0 < s.droppedCount ↔ 0 < log.lines.length - min 12 log.held := by
      rw [Int32.lt_iff_toInt_lt, hint]
      simp
    have hheld : log.lines.length ≠ 0 → 0 < log.held := fun hne =>
      h.held_pos (List.length_pos_iff.mp (Nat.pos_of_ne_zero hne))
    unfold HistoryStore.saidDropped
    simp only [hpos, hint, hlength]
    split_ifs <;> omega

/-! ## The window -/

/-- The store is a window on the lines since the last reset. -/
structure IsWindow (log : HistoryLog) (s : HistoryStore) : Prop where
  count : s.entries.length ≤ min log.limit 64
  recent : s.entries <:+ log.entries
  -- the last twelve entries, and how many are left out
  array : ∃ dropped,
    s.buildJson.text = windowText dropped (keepLast (min 12 s.entries.length) log.entries) ∧
      dropped + min 12 s.entries.length = log.lines.length
  raw : s.raw = keepLast (min log.bytes.length 2047) log.bytes

/-- **The window**: after every sequence of calls the store is one exactly as long as the
number of lines that the array leaves out is an `int`. -/
theorem tool_history_window_iff (calls : List HistoryCall) :
    IsWindow (logAfter calls) (storeAfter calls) ↔
      (logAfter calls).lines.length < 2 ^ 31 + min 12 (logAfter calls).held := by
  have h := tracks_after calls
  generalize logAfter calls = log at h ⊢
  generalize storeAfter calls = s at h ⊢
  rw [← h.saidDropped_iff]
  constructor
  · intro hwindow
    obtain ⟨dropped, htext, hsum⟩ := hwindow.array
    rw [h.text_buildJson, windowText, windowText] at htext
    have hnotice := List.append_cancel_left
      (List.append_cancel_right (List.append_cancel_right htext))
    rw [noticeText_injective hnotice]
    exact hsum
  · intro hsum
    refine
      { count := ?_
        recent := ?_
        array := ⟨_, h.text_buildJson, hsum⟩
        raw := ?_ }
    · rw [h.length_entries]
      exact Nat.le_min.mpr ⟨h.held_limit, h.held_limit.trans h.limit_le⟩
    · rw [h.entries]
      exact List.drop_suffix _ _
    · have hcut : log.bytes.length - 2047 =
          log.bytes.length - min log.bytes.length 2047 := by omega
      rw [h.raw, keepLast, keepLast, hcut]

theorem length_lines_replicate (maxHistoryEntries : Int) (line : HistoryLine) (n : Nat) :
    (logAfter (List.replicate n (.append maxHistoryEntries line))).lines.length = n := by
  induction n with
  | zero => rfl
  | succ n ih =>
      unfold logAfter at ih ⊢
      rw [List.replicate_succ', stateAfter_append, stateAfter_cons, stateAfter_nil,
        HistoryLog.step, List.length_append, ih, List.length_singleton]

/-- A line of the tool `read`. -/
def readToolLine : HistoryLine where
  text := ⟨lit "TOOL_RESULT read \x7b\x7d\n", by decide +kernel⟩
  short := by decide +kernel
  blank := by decide +kernel

/-- Behind 2^31 + 12 lines the array says nothing of the 2^31 that it leaves out. -/
theorem tool_history_window_fails :
    ¬ ∀ calls, IsWindow (logAfter calls) (storeAfter calls) := by
  intro h
  have hsmall := (tool_history_window_iff _).mp
    (h (List.replicate (2 ^ 31 + 12) (.append 20 readToolLine)))
  rw [length_lines_replicate] at hsmall
  omega

end StarBridge
