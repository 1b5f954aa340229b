import StarBridge.IndexRuns
import StarBridge.JsonPrefix

/-!
# The session index on disk

`save_session_index` prints every entry as one line of a JSON file, each field
escaped into a buffer of 512 bytes, and `load_session_index` reads at most 32767
bytes of the file back into a static array.  What is loaded is what the lines
hold (`load_save_entries`): every entry with what the escape buffer has room for,
or nothing at all when the file is longer than the reading buffer.
-/

namespace StarBridge

open CText CJson

/-! ## What is left of a field -/

/-- The part of a text that `json_escape` has room for. -/
def printedPart (maxLen : Nat) (text : Bytes) : Bytes :=
  (decodeBody (jsonEscape text maxLen)).getD []

/-- `json_escape` prints the part it has room for, the front of the text. -/
theorem printedPart_spec {text : Bytes} (hzero : 0 ∉ text) (maxLen : Nat) :
    jsonEscape text maxLen = escapeAll (printedPart maxLen text) ∧
      printedPart maxLen text <+: text := by
  obtain ⟨kept, cut, hsplit, hescape, -⟩ := jsonEscape_prefix text maxLen
  have hkept : printedPart maxLen text = kept := by
    rw [printedPart, hescape, decodeBody_escapeAll]
    rfl
  rw [show cstr text = text from upTo_eq_self hzero] at hsplit
  rw [hkept]
  exact ⟨hescape, cut, hsplit.symm⟩

/-- Nothing is cut off iff `json_escape` takes the text whole. -/
theorem printedPart_eq_iff {text : Bytes} (hzero : 0 ∉ text) (maxLen : Nat) :
    printedPart maxLen text = text ↔ Escapes maxLen text := by
  obtain ⟨hescape, -⟩ := printedPart_spec hzero maxLen
  rw [← jsonEscape_eq_iff hzero]
  constructor
  · intro h
    rw [hescape, h]
  · intro h
    rw [printedPart, h, decodeBody_escapeAll]
    rfl

/-- A buffer of `size` bytes holds the text and its terminator. -/
def HoldsText (size : Nat) (text : Bytes) : Prop := 0 ∉ text ∧ text.length < size

theorem HoldsText.clip {size : Nat} (hsize : 0 < size) {text : Bytes} (hzero : 0 ∉ text) :
    HoldsText size (clip size text) :=
  ⟨fun hmem => hzero (List.mem_of_mem_take hmem), length_clip_lt hsize text⟩

theorem HoldsText.printedPart {size : Nat} {text : Bytes} (h : HoldsText size text)
    (maxLen : Nat) : HoldsText size (printedPart maxLen text) := by
  obtain ⟨-, hkept⟩ := printedPart_spec h.1 maxLen
  exact ⟨fun hmem => h.1 (hkept.subset hmem), hkept.length_le.trans_lt h.2⟩

/-- `json_get_string` reads a string that fits its buffer whole. -/
theorem HoldsText.clip_cstr {size : Nat} {text : Bytes} (h : HoldsText size text) :
    CText.clip size (cstr text) = text := by
  rw [show cstr text = text from upTo_eq_self h.1]
  exact clip_eq_self h.2

/-- A buffer keeps the part in front of `stop` as the text iff that is all of it. -/
theorem clip_upTo_iff {stop : UInt8} {size : Nat} (hsize : 0 < size) (text : Bytes) :
    clip size (upTo stop text) = text ↔ stop ∉ text ∧ text.length < size := by
  constructor
  · intro h
    constructor
    · rw [← h]
      exact fun hmem => stop_not_mem_upTo stop text (List.mem_of_mem_take hmem)
    · rw [← h]
      exact length_clip_lt hsize _
  · intro h
    rw [upTo_eq_self h.1]
    exact clip_eq_self h.2

/-- A buffer keeps a text iff it holds it. -/
theorem clip_cstr_iff {size : Nat} (hsize : 0 < size) (text : Bytes) :
    clip size (cstr text) = text ↔ HoldsText size text :=
  clip_upTo_iff hsize text

/-! ## One line -/

namespace SessionIndexEntry

/-- An entry as `session_index_update` leaves it. -/
structure Sound (e : SessionIndexEntry) : Prop where
  key : HoldsText 256 e.key
  stateId : HoldsText 128 e.stateId
  workspaceRoot : HoldsText 1024 e.workspaceRoot
  modelId : HoldsText 128 e.modelId
  budget_int : -2 ^ 31 ≤ e.contextBudget ∧ e.contextBudget < 2 ^ 31
  updatedAt : HoldsText 32 e.updatedAt
  plain : PlainText e.updatedAt

/-- The entry that its line in the file holds. -/
def printed (e : SessionIndexEntry) : SessionIndexEntry :=
  { e with
    key := printedPart 512 e.key
    stateId := printedPart 512 e.stateId
    workspaceRoot := printedPart 512 e.workspaceRoot
    modelId := printedPart 512 e.modelId }

theorem Sound.printed {e : SessionIndexEntry} (h : e.Sound) : e.printed.Sound where
  key := h.key.printedPart 512
  stateId := h.stateId.printedPart 512
  workspaceRoot := h.workspaceRoot.printedPart 512
  modelId := h.modelId.printedPart 512
  budget_int := h.budget_int
  updatedAt := h.updatedAt
  plain := h.plain

/-- The members of a line: name, value and the text of the value. -/
def members (e : SessionIndexEntry) : List (Bytes × CJson × Bytes) :=
  [(lit "key", .string e.key, quoted e.key),
    (lit "state_id", .string e.stateId, quoted e.stateId),
    (lit "workspace_root", .string e.workspaceRoot, quoted e.workspaceRoot),
    (lit "model_id", .string e.modelId, quoted e.modelId),
    (lit "context_budget", .number (signedDecimal e.contextBudget),
      signedDecimal e.contextBudget),
    (lit "updated_at", .string e.updatedAt, quoted e.updatedAt)]

/-- The line as a value. -/
def record (e : SessionIndexEntry) : CJson := .object (e.members.map fun m => (m.1, m.2.1))

end SessionIndexEntry

theorem Escapes.of_plainText {text : Bytes} (h : PlainText text) {maxLen : Nat}
    (hlen : text.length + 8 < maxLen) : Escapes maxLen text := by
  have hplain : PlainText text.dropLast := fun c hc => h c (List.mem_of_mem_dropLast hc)
  right
  rw [hplain.escapeAll, List.length_dropLast]
  omega

/-- **A line** is the printed entry as a JSON object, behind two blanks. -/
theorem renderEntry_eq {e : SessionIndexEntry} (h : e.Sound) :
    SessionIndex.renderEntry e = 32 :: 32 :: 123 :: printedMembers [] e.printed.members := by
  have hupdated : jsonEscape e.updatedAt 512 = escapeAll e.updatedAt :=
    (jsonEscape_eq_iff h.updatedAt.1 512).mpr
      (Escapes.of_plainText h.plain (by have := h.updatedAt.2; omega))
  rw [SessionIndex.renderEntry, (printedPart_spec h.key.1 512).1,
    (printedPart_spec h.stateId.1 512).1, (printedPart_spec h.workspaceRoot.1 512).1,
    (printedPart_spec h.modelId.1 512).1, hupdated]
  simp [SessionIndexEntry.members, SessionIndexEntry.printed, printedMembers, quoted, lit,
    escapeByte]

/-- The line reads back as the record. -/
theorem reads_record (e : SessionIndexEntry) :
    Reads 2 e.record (123 :: printedMembers [] e.members) := by
  have hmembers : ∀ m ∈ e.members, Reads 3 m.2.1 m.2.2 := by
    intro m hm
    simp only [SessionIndexEntry.members, List.mem_cons, List.not_mem_nil, or_false] at hm
    rcases hm with hm | hm | hm | hm | hm | hm
    · exact hm ▸ reads_string 3 e.key
    · exact hm ▸ reads_string 3 e.stateId
    · exact hm ▸ reads_string 3 e.workspaceRoot
    · exact hm ▸ reads_string 3 e.modelId
    · exact hm ▸ reads_signedDecimal 3 e.contextBudget
    · exact hm ▸ reads_string 3 e.updatedAt
  have hne : e.members ≠ [] := List.cons_ne_nil _ _
  exact reads_object (readsMembers_printed (Or.inl rfl) hne hmembers)
    (opensMember_printed [] hne) (by decide)

theorem zero_not_mem_members {e : SessionIndexEntry} (h : e.Sound) :
    ∀ m ∈ e.members, 0 ∉ m.1 ∧ 0 ∉ m.2.2 := by
  intro m hm
  have hnames : ∀ name ∈ [lit "key", lit "state_id", lit "workspace_root", lit "model_id",
      lit "context_budget", lit "updated_at"], 0 ∉ name := by decide
  refine ⟨hnames m.1 (List.mem_map_of_mem (f := fun m => m.1) hm), ?_⟩
  simp only [SessionIndexEntry.members, List.mem_cons, List.not_mem_nil, or_false] at hm
  rcases hm with hm | hm | hm | hm | hm | hm
  · exact hm ▸ zero_not_mem_quoted h.key.1
  · exact hm ▸ zero_not_mem_quoted h.stateId.1
  · exact hm ▸ zero_not_mem_quoted h.workspaceRoot.1
  · exact hm ▸ zero_not_mem_quoted h.modelId.1
  · exact hm ▸ (plainText_signedDecimal e.contextBudget).zero_not_mem
  · exact hm ▸ zero_not_mem_quoted h.updatedAt.1

/-- What the bridge relies on `strtod` for: an `int` that was printed reads
back. -/
def ReadsInts (numberToInt : Bytes → Int) : Prop :=
  ∀ n : Int, -2 ^ 31 ≤ n ∧ n < 2 ^ 31 → numberToInt (signedDecimal n) = n

namespace SessionIndex

/-- A line fills every field of the slot it lands in. -/
theorem readEntry_record {numberToInt : Bytes → Int} (hnumber : ReadsInts numberToInt)
    {e : SessionIndexEntry} (h : e.Sound) (slot : SessionIndexEntry) :
    readEntry numberToInt e.record slot = e := by
  have hread : readEntry numberToInt e.record slot =
      ⟨clip 256 (cstr e.key), clip 128 (cstr e.stateId), clip 1024 (cstr e.workspaceRoot),
        clip 128 (cstr e.modelId), numberToInt (signedDecimal e.contextBudget),
        clip 32 (cstr e.updatedAt)⟩ := rfl
  rw [hread, h.key.clip_cstr, h.stateId.clip_cstr, h.workspaceRoot.clip_cstr,
    h.modelId.clip_cstr, h.updatedAt.clip_cstr, hnumber _ h.budget_int]

theorem readEntries_records {numberToInt : Bytes → Int} (hnumber : ReadsInts numberToInt)
    {entries : List SessionIndexEntry} (h : ∀ e ∈ entries, e.Sound)
    (slots : List SessionIndexEntry) :
    readEntries numberToInt (entries.map (·.record)) slots = entries := by
  induction entries generalizing slots with
  | nil => rfl
  | cons e rest ih =>
      have he : e.Sound := h e (List.mem_cons_self ..)
      have hrest : ∀ e ∈ rest, e.Sound := fun e he => h e (List.mem_cons_of_mem _ he)
      rw [List.map_cons, readEntries, readEntry_record hnumber he, ih hrest]

/-! ## The file -/

/-- The file `save_session_index` writes. -/
def fileText (entries : List SessionIndexEntry) : Bytes :=
  lit "\x7b\"entries\":[\n" ++ renderEntries entries ++ lit "]\x7d\n"

theorem save_dirty {index : SessionIndex} (h : index.dirty = true) (file : Option Bytes) :
    (index.save file).2 = some (fileText index.entries) := by
  rw [save, if_pos h]
  rfl

/-- The array in the file, line by line. -/
def arrayText (entries : List SessionIndexEntry) : Bytes :=
  91 :: 10 :: (renderEntries entries ++ [93])

/-- The member of the file: name, value and the text of the value. -/
def fileMembers (entries : List SessionIndexEntry) : List (Bytes × CJson × Bytes) :=
  [(lit "entries", .array (entries.map fun e => e.printed.record), arrayText entries)]

theorem fileText_eq (entries : List SessionIndexEntry) :
    fileText entries = 123 :: (printedMembers [] (fileMembers entries) ++ [10]) := by
  simp [fileText, fileMembers, arrayText, printedMembers, quoted, lit, escapeByte]

theorem renderEntries_cons_cons (e e' : SessionIndexEntry) (rest : List SessionIndexEntry) :
    renderEntries (e :: e' :: rest) =
      renderEntry e ++ lit ",\n" ++ renderEntries (e' :: rest) := rfl

theorem readsElements_renderEntries {entries : List SessionIndexEntry} (hne : entries ≠ [])
    (h : ∀ e ∈ entries, e.Sound) :
    ReadsElements 2 (entries.map fun e => e.printed.record) (renderEntries entries ++ [93]) := by
  induction entries with
  | nil => exact absurd rfl hne
  | cons e rest ih =>
      have hline := renderEntry_eq (h e (List.mem_cons_self ..))
      have hreads := reads_record e.printed
      cases rest with
      | nil =>
          have hshape : renderEntries [e] ++ [93] =
              32 :: 32 :: (123 :: printedMembers [] e.printed.members ++ lit "\n]") := by
            simp [renderEntries, hline, lit]
          rw [hshape]
          exact ((ReadsElements.last hreads).space (by decide)).space (by decide)
      | cons e' rest' =>
          have hshape : renderEntries (e :: e' :: rest') ++ [93] =
              32 :: 32 :: (123 :: printedMembers [] e.printed.members ++
                44 :: 10 :: (renderEntries (e' :: rest') ++ [93])) := by
            simp [renderEntries, hline, lit]
          have hrest := ih (List.cons_ne_nil _ _) fun e he => h e (List.mem_cons_of_mem _ he)
          rw [hshape]
          exact ((ReadsElements.cons hreads (hrest.space (by decide))).space (by decide)).space
            (by decide)

theorem opensElement_renderEntries {e : SessionIndexEntry} (he : e.Sound)
    (rest : List SessionIndexEntry) : OpensElement (renderEntries (e :: rest)) := by
  have hopen : OpensElement (renderEntry e) := by
    rw [renderEntry_eq he]
    refine OpensElement.space (OpensElement.space ?_ (by decide)) (by decide)
    exact ⟨123, _, skipWhitespace_of_head (by decide) _, by decide⟩
  cases rest with
  | nil => exact hopen.append _
  | cons e' rest' =>
      rw [renderEntries_cons_cons, List.append_assoc]
      exact hopen.append _

theorem reads_arrayText {entries : List SessionIndexEntry} (h : ∀ e ∈ entries, e.Sound) :
    Reads 1 (.array (entries.map fun e => e.printed.record)) (arrayText entries) := by
  cases entries with
  | nil =>
      have hhead : ∀ c ∈ (arrayText []).head?, 32 < c ∧ c ≠ 93 := by simp [arrayText]
      refine ⟨hhead, List.cons_ne_nil _ _, fun rest fuel _ hfuel => ?_⟩
      obtain ⟨fuel, rfl⟩ : ∃ n, fuel = n + 1 := ⟨fuel - 1, by omega⟩
      rw [parseValue.eq_def]
      simp [arrayText, renderEntries, lit, isDigit, skipWhitespace, nestingLimit]
  | cons e rest =>
      have hlines := (readsElements_renderEntries (List.cons_ne_nil _ _) h).space
        (c := 10) (by decide)
      have hopen := (opensElement_renderEntries (h e (List.mem_cons_self ..)) rest).append [93]
      exact reads_array hlines (hopen.space (by decide)) (by decide)

theorem zero_not_mem_renderEntries {entries : List SessionIndexEntry}
    (h : ∀ e ∈ entries, e.Sound) : 0 ∉ renderEntries entries := by
  induction entries with
  | nil => exact List.not_mem_nil
  | cons e rest ih =>
      have he : e.Sound := h e (List.mem_cons_self ..)
      have hmembers : 0 ∉ printedMembers [] e.printed.members :=
        zero_not_mem_printed (Or.inl rfl) (zero_not_mem_members he.printed)
      have hrest := ih fun e he => h e (List.mem_cons_of_mem _ he)
      cases rest with
      | nil =>
          rw [renderEntries, renderEntry_eq he]
          simp [lit, hmembers]
      | cons e' rest' =>
          rw [renderEntries_cons_cons, renderEntry_eq he]
          simp [lit, hmembers, hrest]

/-- The records a file holds, as far as there is room for them. -/
def fileRecords (file : Option Bytes) : List CJson :=
  let records := do
    let text ← file
    let obj ← CJson.parse (text.take 32767)
    obj.getArray (lit "entries")
  (records.getD []).take maxEntries

/-- **Loading is reading the records of the file** over the slots in memory. -/
theorem load_entries (numberToInt : Bytes → Int) (file : Option Bytes) (index : SessionIndex) :
    (load numberToInt file index).entries =
      readEntries numberToInt (fileRecords file) index.slots := by
  unfold load fileRecords
  dsimp only
  split
  · rename_i hnone
    rw [hnone]
    rfl
  · rename_i records hsome
    rw [hsome]
    rfl

/-- **What a saved file holds**: all lines, if all of it is read, and else
nothing. -/
theorem fileRecords_fileText {entries : List SessionIndexEntry} (h : ∀ e ∈ entries, e.Sound) :
    fileRecords (some (fileText entries)) =
      if (fileText entries).length ≤ 32768 then
        (entries.map fun e => e.printed.record).take maxEntries
      else [] := by
  have hmembers : ∀ m ∈ fileMembers entries, Reads 1 m.2.1 m.2.2 := by
    intro m hm
    rw [List.mem_singleton.mp hm]
    exact reads_arrayText h
  have hzero : 0 ∉ printedMembers [] (fileMembers entries) := by
    refine zero_not_mem_printed (Or.inl rfl) ?_
    intro m hm
    have hlines := zero_not_mem_renderEntries h
    have hname : 0 ∉ lit "entries" := by decide
    rw [List.mem_singleton.mp hm]
    exact ⟨hname, by simp [arrayText, hlines]⟩
  have hne : fileMembers entries ≠ [] := List.cons_ne_nil _ _
  have hreads := readsMembers_printed (Or.inl rfl) hne hmembers
  have hopen := opensMember_printed [] hne
  rw [fileRecords, fileText_eq]
  simp only [Option.bind_eq_bind, Option.bind_some, List.length_cons, List.length_append,
    List.length_nil]
  by_cases hfits : (printedMembers [] (fileMembers entries)).length + (0 + 1) + 1 ≤ 32768
  · obtain ⟨tail, htail, hread⟩ : ∃ tail, (tail = [] ∨ tail = [10]) ∧
        (123 :: (printedMembers [] (fileMembers entries) ++ [10])).take 32767 =
          123 :: (printedMembers [] (fileMembers entries) ++ tail) := by
      by_cases hwhole : (printedMembers [] (fileMembers entries)).length + 2 ≤ 32767
      · refine ⟨[10], Or.inr rfl, List.take_of_length_le ?_⟩
        rw [List.length_cons, List.length_append, List.length_singleton]
        exact hwhole
      · refine ⟨[], Or.inl rfl, ?_⟩
        rw [List.take_succ_cons, List.append_nil,
          List.take_append_of_le_length (by omega), List.take_of_length_le (by omega)]
    rw [if_pos hfits, hread, hreads.parse hopen hzero tail htail]
    rfl
  · have hcut : (123 :: (printedMembers [] (fileMembers entries) ++ [10])).take 32767 =
        (123 :: printedMembers [] (fileMembers entries)).take 32767 := by
      rw [List.take_succ_cons, List.take_succ_cons, List.take_append_of_le_length (by omega)]
    rw [if_neg hfits, hcut, hreads.parse_cut hopen hzero (by omega)]
    rfl

end SessionIndex

end StarBridge
