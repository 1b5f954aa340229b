import StarBridge.IndexFile
import StarBridge.TurnAck

/-!
# The session index survives a restart

`turn_begin` loads the index from its file on every turn, so what
`save_session_index` wrote is all that is left of it.  An index comes back as it
was iff `json_escape` takes all of its fields whole into 512 bytes and the file
is no longer than what `load_session_index` reads; and what is loaded depends on
the file alone iff every record in it has all of its string members, for a
missing one keeps what the slot had before.
-/

namespace StarBridge

open CText CJson Runs

/-! ## What calls leave in the index -/

namespace SessionIndex

/-- An index as calls of `session_index_update` leave it. -/
structure Written (index : SessionIndex) : Prop where
  sound : ∀ e ∈ index.entries, e.Sound
  bounded : index.entries.length ≤ maxEntries
  dirty : index.entries ≠ [] → index.dirty = true

theorem written_empty : empty.Written where
  sound := fun _ he => absurd he List.not_mem_nil
  bounded := Nat.zero_le _
  dirty := fun hne => absurd rfl hne

/-- An argument over a field leaves a text that fits. -/
theorem holdsText_overwrite {size : Nat} (hsize : 0 < size) {field argument : Bytes}
    (hfield : HoldsText size field) (hargument : 0 ∉ argument) :
    HoldsText size (overwrite field argument size) := by
  unfold overwrite
  split
  · exact hfield
  · exact HoldsText.clip hsize hargument

theorem sound_overwriteEntry {e : SessionIndexEntry} (h : e.Sound) (c : UpdateCall) :
    (overwriteEntry c.stateId.val c.workspaceRoot.val c.modelId.val c.contextBudget
      (signedDecimal c.time) e).Sound where
  key := h.key
  stateId := HoldsText.clip (by decide) c.stateId.property
  workspaceRoot := holdsText_overwrite (by decide) h.workspaceRoot c.workspaceRoot.property
  modelId := holdsText_overwrite (by decide) h.modelId c.modelId.property
  budget_int := by
    rw [overwriteEntry]
    dsimp only
    split
    · exact c.budget_int
    · exact h.budget_int
  updatedAt := HoldsText.clip (by decide) (plainText_signedDecimal c.time).zero_not_mem
  plain := (plainText_signedDecimal c.time).clip 32

theorem sound_newEntry (c : UpdateCall) :
    (newEntry c.key.val c.stateId.val c.workspaceRoot.val c.modelId.val c.contextBudget
      (signedDecimal c.time)).Sound where
  key := HoldsText.clip (by decide) c.key.property
  stateId := HoldsText.clip (by decide) c.stateId.property
  workspaceRoot := HoldsText.clip (by decide) c.workspaceRoot.property
  modelId := HoldsText.clip (by decide) c.modelId.property
  budget_int := c.budget_int
  updatedAt := HoldsText.clip (by decide) (plainText_signedDecimal c.time).zero_not_mem
  plain := (plainText_signedDecimal c.time).clip 32

/-- A call keeps the index as calls leave it. -/
theorem Written.apply {index : SessionIndex} (h : index.Written) (c : UpdateCall) :
    (index.apply c).Written := by
  rcases index.update_cases c.key.val c.stateId.val c.workspaceRoot.val c.modelId.val
    c.contextBudget (signedDecimal c.time) with
    ⟨before, e, behind, hsplit, -, -, -, happly⟩ | ⟨-, hroom, -, happly⟩ | ⟨-, -, -, happly⟩
  · have hsound := h.sound
    have hbounded := h.bounded
    rw [hsplit] at hsound hbounded
    rw [SessionIndex.apply, happly]
    refine ⟨?_, ?_, fun _ => rfl⟩
    · intro e' he'
      rcases List.mem_append.mp he' with hfront | hback
      · exact hsound e' (List.mem_append_left _ hfront)
      rcases List.mem_cons.mp hback with hsame | hback
      · rw [hsame]
        exact sound_overwriteEntry (hsound e (by simp)) c
      · exact hsound e' (by simp [hback])
    · rw [List.length_append, List.length_cons] at hbounded ⊢
      exact hbounded
  · rw [SessionIndex.apply, happly]
    refine ⟨?_, ?_, fun _ => rfl⟩
    · intro e he
      rcases List.mem_append.mp he with hold | hnew
      · exact h.sound e hold
      · rw [List.mem_singleton.mp hnew]
        exact sound_newEntry c
    · rw [List.length_append, List.length_singleton]
      exact hroom
  · rw [SessionIndex.apply, happly]
    exact h

/-- After a call there is an entry. -/
theorem apply_ne_nil {index : SessionIndex} (c : UpdateCall) :
    (index.apply c).entries ≠ [] := by
  rcases index.update_cases c.key.val c.stateId.val c.workspaceRoot.val c.modelId.val
    c.contextBudget (signedDecimal c.time) with
    ⟨before, e, behind, -, -, -, -, happly⟩ | ⟨-, -, -, happly⟩ | ⟨-, hfull, -, happly⟩
  · rw [SessionIndex.apply, happly]
    simp
  · rw [SessionIndex.apply, happly]
    simp
  · rw [SessionIndex.apply, happly]
    intro hnil
    rw [hnil] at hfull
    exact absurd hfull (by decide)

/-- The index after calls on an empty one. -/
def reached (calls : List UpdateCall) : SessionIndex :=
  stateAfter SessionIndex.apply empty calls

theorem written_reached (calls : List UpdateCall) : (reached calls).Written := by
  have hstep : ∀ index c, Written index → Written (SessionIndex.apply index c) :=
    fun _ c h => h.apply c
  exact stateAfter_invariant_of_step hstep written_empty calls

theorem reached_ne_nil {calls : List UpdateCall} (hne : calls ≠ []) :
    (reached calls).entries ≠ [] := by
  rw [← List.dropLast_append_getLast hne, reached, stateAfter_append]
  exact apply_ne_nil _

end SessionIndex

/-! ## What comes back -/

/-- The four fields that may be long come through the escape buffer whole. -/
structure EscapesWhole (e : SessionIndexEntry) : Prop where
  key : Escapes 512 e.key
  stateId : Escapes 512 e.stateId
  workspaceRoot : Escapes 512 e.workspaceRoot
  modelId : Escapes 512 e.modelId

/-- A line holds its entry iff the four fields do not lengthen too much. -/
theorem printed_eq_iff {e : SessionIndexEntry} (h : e.Sound) :
    e.printed = e ↔ EscapesWhole e := by
  have hkey := printedPart_eq_iff h.key.1 512
  have hstate := printedPart_eq_iff h.stateId.1 512
  have hroot := printedPart_eq_iff h.workspaceRoot.1 512
  have hmodel := printedPart_eq_iff h.modelId.1 512
  constructor
  · intro hsame
    exact ⟨hkey.mp (congrArg (·.key) hsame), hstate.mp (congrArg (·.stateId) hsame),
      hroot.mp (congrArg (·.workspaceRoot) hsame), hmodel.mp (congrArg (·.modelId) hsame)⟩
  · intro hwhole
    rw [SessionIndexEntry.printed, hkey.mpr hwhole.key, hstate.mpr hwhole.stateId,
      hroot.mpr hwhole.workspaceRoot, hmodel.mpr hwhole.modelId]

/-- The length of a line and its end, were every field escaped whole. -/
def recordLength (e : SessionIndexEntry) : Nat :=
  (escapeAll e.key).length + (escapeAll e.stateId).length +
    (escapeAll e.workspaceRoot).length + (escapeAll e.modelId).length +
    (signedDecimal e.contextBudget).length + e.updatedAt.length + 96

/-- The length of the file, were every field escaped whole. -/
def fileLength (entries : List SessionIndexEntry) : Nat := 15 + (entries.map recordLength).sum

theorem length_renderEntry {e : SessionIndexEntry} (h : e.Sound) (hwhole : EscapesWhole e) :
    (SessionIndex.renderEntry e).length + 2 = recordLength e := by
  have hupdated : jsonEscape e.updatedAt 512 = e.updatedAt := by
    rw [(jsonEscape_eq_iff h.updatedAt.1 512).mpr
      (Escapes.of_plainText h.plain (by have := h.updatedAt.2; omega)), h.plain.escapeAll]
  rw [SessionIndex.renderEntry, (jsonEscape_eq_iff h.key.1 512).mpr hwhole.key,
    (jsonEscape_eq_iff h.stateId.1 512).mpr hwhole.stateId,
    (jsonEscape_eq_iff h.workspaceRoot.1 512).mpr hwhole.workspaceRoot,
    (jsonEscape_eq_iff h.modelId.1 512).mpr hwhole.modelId, hupdated, recordLength]
  simp only [lit, List.length_append, List.length_map, String.length_toList]
  have hconstants : "  \x7b\"key\":\"".length + "\",\"state_id\":\"".length +
      "\",\"workspace_root\":\"".length + "\",\"model_id\":\"".length +
      "\",\"context_budget\":".length + ",\"updated_at\":\"".length +
      "\"\x7d".length = 94 := by decide
  omega

namespace SessionIndex

theorem length_renderEntries {entries : List SessionIndexEntry} (hne : entries ≠ [])
    (h : ∀ e ∈ entries, e.Sound) (hwhole : ∀ e ∈ entries, EscapesWhole e) :
    (renderEntries entries).length + 1 = (entries.map recordLength).sum := by
  induction entries with
  | nil => exact absurd rfl hne
  | cons e rest ih =>
      have hline := length_renderEntry (h e (List.mem_cons_self ..)) (hwhole e (List.mem_cons_self ..))
      cases rest with
      | nil =>
          have hbreak : (lit "\n").length = 1 := rfl
          simp only [renderEntries, List.length_append, hbreak, List.map_cons, List.map_nil,
            List.sum_cons, List.sum_nil]
          omega
      | cons e' rest' =>
          have hbreak : (lit ",\n").length = 2 := rfl
          have hrest := ih (List.cons_ne_nil _ _) (fun e he => h e (List.mem_cons_of_mem _ he))
            fun e he => hwhole e (List.mem_cons_of_mem _ he)
          rw [renderEntries_cons_cons, List.length_append, List.length_append, hbreak,
            List.map_cons, List.sum_cons]
          omega

theorem length_fileText {entries : List SessionIndexEntry} (hne : entries ≠ [])
    (h : ∀ e ∈ entries, e.Sound) (hwhole : ∀ e ∈ entries, EscapesWhole e) :
    (fileText entries).length = fileLength entries := by
  have hlines := length_renderEntries hne h hwhole
  have hfront : (lit "\x7b\"entries\":[\n").length = 13 := rfl
  have hback : (lit "]\x7d\n").length = 3 := rfl
  rw [fileText, List.length_append, List.length_append, hfront, hback, fileLength]
  omega

/-- What load gets out of a saved file. -/
theorem load_fileText {numberToInt : Bytes → Int} (hnumber : ReadsInts numberToInt)
    {index : SessionIndex} (h : index.Written) (previous : SessionIndex) :
    (load numberToInt (some (fileText index.entries)) previous).entries =
      if (fileText index.entries).length ≤ 32768 then
        index.entries.map fun e => e.printed
      else [] := by
  have hprinted : ∀ e ∈ index.entries.map fun e => e.printed, e.Sound := by
    intro e he
    obtain ⟨e', he', heq⟩ := List.mem_map.mp he
    exact heq ▸ (h.sound e' he').printed
  have hrecords : (index.entries.map fun e => e.printed.record) =
      (index.entries.map fun e => e.printed).map (·.record) := by
    rw [List.map_map]
    rfl
  have hbounded : (index.entries.map fun e => e.printed.record).length ≤ maxEntries := by
    rw [List.length_map]
    exact h.bounded
  rw [load_entries, fileRecords_fileText h.sound]
  split
  · rw [List.take_of_length_le hbounded, hrecords, readEntries_records hnumber hprinted]
  · rfl

/-- Every field escapes whole, and the file is no longer than what is read. -/
structure Storable (entries : List SessionIndexEntry) : Prop where
  whole : ∀ e ∈ entries, EscapesWhole e
  room : fileLength entries ≤ 32768

/-- **A saved index comes back** iff it is storable. -/
theorem load_fileText_iff {numberToInt : Bytes → Int} (hnumber : ReadsInts numberToInt)
    {index : SessionIndex} (h : index.Written) (hne : index.entries ≠ [])
    (previous : SessionIndex) :
    (load numberToInt (some (fileText index.entries)) previous).entries = index.entries ↔
      Storable index.entries := by
  rw [load_fileText hnumber h]
  constructor
  · intro hsame
    by_cases hfits : (fileText index.entries).length ≤ 32768
    · rw [if_pos hfits] at hsame
      have hwhole : ∀ e ∈ index.entries, EscapesWhole e := by
        have hprinted := List.map_inj_left.mp (hsame.trans (List.map_id index.entries).symm)
        exact fun e he => (printed_eq_iff (h.sound e he)).mp (hprinted e he)
      exact ⟨hwhole, length_fileText hne h.sound hwhole ▸ hfits⟩
    · rw [if_neg hfits] at hsame
      exact absurd hsame.symm hne
  · intro hstorable
    rw [if_pos (length_fileText hne h.sound hstorable.whole ▸ hstorable.room)]
    have hprinted : ∀ e ∈ index.entries, e.printed = id e := fun e he =>
      (printed_eq_iff (h.sound e he)).mpr (hstorable.whole e he)
    rw [List.map_congr_left hprinted, List.map_id]

/-- Saving and loading brings the entries back that calls have made. -/
def RoundTrips (numberToInt : Bytes → Int) (calls : List UpdateCall) (file : Option Bytes)
    (previous : SessionIndex) : Prop :=
  (load numberToInt ((reached calls).save file).2 previous).entries = (reached calls).entries

/-- The entries can be stored; without a call nothing is saved, and the file
that is there must have no records. -/
def Persists (calls : List UpdateCall) (file : Option Bytes) : Prop :=
  (calls = [] ∧ fileRecords file = []) ∨ (calls ≠ [] ∧ Storable (reached calls).entries)

theorem roundTrips_iff {numberToInt : Bytes → Int} (hnumber : ReadsInts numberToInt)
    (calls : List UpdateCall) (file : Option Bytes) (previous : SessionIndex) :
    RoundTrips numberToInt calls file previous ↔ Persists calls file := by
  by_cases hcalls : calls = []
  · subst hcalls
    have hsave : ((reached []).save file).2 = file := rfl
    have hentries : (reached []).entries = [] := rfl
    rw [RoundTrips, hsave, hentries, load_entries, Persists]
    constructor
    · intro hnone
      refine Or.inl ⟨rfl, ?_⟩
      cases hrecords : fileRecords file with
      | nil => rfl
      | cons record rest =>
          rw [hrecords, readEntries] at hnone
          cases hnone
    · intro hpersists
      rcases hpersists with ⟨-, hnone⟩ | ⟨hne, -⟩
      · rw [hnone]
        rfl
      · exact absurd rfl hne
  · have hwritten := written_reached calls
    have hne := reached_ne_nil hcalls
    rw [RoundTrips, save_dirty (hwritten.dirty hne), load_fileText_iff hnumber hwritten hne,
      Persists]
    constructor
    · exact fun hstorable => Or.inr ⟨hcalls, hstorable⟩
    · intro hpersists
      rcases hpersists with ⟨hnil, -⟩ | ⟨-, hstorable⟩
      · exact absurd hnil hcalls
      · exact hstorable

/-! ## The file alone -/

/-- What is loaded does not depend on what was in memory. -/
def FileAlone (numberToInt : Bytes → Int) (file : Option Bytes) : Prop :=
  ∀ previous previous' : SessionIndex,
    (load numberToInt file previous).entries = (load numberToInt file previous').entries

/-- A record with all the string members of a line. -/
structure Complete (record : CJson) : Prop where
  key : (record.stringField (lit "key")).isSome
  stateId : (record.stringField (lit "state_id")).isSome
  workspaceRoot : (record.stringField (lit "workspace_root")).isSome
  modelId : (record.stringField (lit "model_id")).isSome
  updatedAt : (record.stringField (lit "updated_at")).isSome

/-- A slot with something in every field. -/
def occupied : SessionIndexEntry := ⟨[97], [97], [97], [97], 0, [97]⟩

theorem getString_of_isSome {record : CJson} {name : Bytes}
    (h : (record.stringField name).isSome) (dest dest' : Bytes) (maxLen : Nat) :
    record.getString name dest maxLen = record.getString name dest' maxLen := by
  obtain ⟨value, hvalue⟩ := Option.isSome_iff_exists.mp h
  rw [getString, getString, hvalue]

theorem isSome_of_getString {record : CJson} {name : Bytes} {maxLen : Nat}
    (h : record.getString name [97] maxLen = record.getString name [] maxLen) :
    (record.stringField name).isSome := by
  cases hvalue : record.stringField name with
  | none =>
      rw [getString, getString, hvalue] at h
      cases h
  | some value => rfl

theorem Complete.readEntry {record : CJson} (h : Complete record) (numberToInt : Bytes → Int)
    (slot slot' : SessionIndexEntry) :
    readEntry numberToInt record slot = readEntry numberToInt record slot' := by
  rw [SessionIndex.readEntry, SessionIndex.readEntry,
    getString_of_isSome h.key slot.key slot'.key,
    getString_of_isSome h.stateId slot.stateId slot'.stateId,
    getString_of_isSome h.workspaceRoot slot.workspaceRoot slot'.workspaceRoot,
    getString_of_isSome h.modelId slot.modelId slot'.modelId,
    getString_of_isSome h.updatedAt slot.updatedAt slot'.updatedAt]

theorem complete_of_readEntry {numberToInt : Bytes → Int} {record : CJson}
    (h : readEntry numberToInt record occupied = readEntry numberToInt record .blank) :
    Complete record where
  key := isSome_of_getString (congrArg (·.key) h)
  stateId := isSome_of_getString (congrArg (·.stateId) h)
  workspaceRoot := isSome_of_getString (congrArg (·.workspaceRoot) h)
  modelId := isSome_of_getString (congrArg (·.modelId) h)
  updatedAt := isSome_of_getString (congrArg (·.updatedAt) h)

/-- The slots matter iff some record leaves a field of its slot alone. -/
theorem readEntries_slots_iff (numberToInt : Bytes → Int) (records : List CJson) :
    (∀ slots slots', readEntries numberToInt records slots =
        readEntries numberToInt records slots') ↔ ∀ record ∈ records, Complete record := by
  induction records with
  | nil => simp [readEntries]
  | cons record rest ih =>
      rw [List.forall_mem_cons, ← ih]
      constructor
      · intro h
        refine ⟨?_, ?_⟩
        · exact complete_of_readEntry (List.cons.inj (h [occupied] [.blank])).1
        · intro slots slots'
          exact (List.cons.inj (h (.blank :: slots) (.blank :: slots'))).2
      · intro h slots slots'
        rw [readEntries, readEntries, h.1.readEntry numberToInt _ (slots'.headD .blank),
          h.2 slots.tail slots'.tail]

/-- **The memory does not matter** iff every record is complete. -/
theorem fileAlone_iff (numberToInt : Bytes → Int) (file : Option Bytes) :
    FileAlone numberToInt file ↔ ∀ record ∈ fileRecords file, Complete record := by
  rw [← readEntries_slots_iff numberToInt]
  constructor
  · intro h slots slots'
    have hslots : ∀ slots, SessionIndex.slots ⟨slots, [], false⟩ = slots := fun slots =>
      List.append_nil slots
    have hsame := h ⟨slots, [], false⟩ ⟨slots', [], false⟩
    rwa [load_entries, load_entries, hslots, hslots] at hsame
  · intro h previous previous'
    rw [load_entries, load_entries]
    exact h previous.slots previous'.slots

/-! ## Persistence -/

section

variable {numberToInt : Bytes → Int} (hnumber : ReadsInts numberToInt)

include hnumber

/-- **Persistence of the session index**, exactly.  What calls have made comes
back from the file iff it can be stored, and what is loaded depends on the file
alone iff its records are complete. -/
theorem index_persists_iff :
    (∀ calls file previous,
        RoundTrips numberToInt calls file previous ↔ Persists calls file) ∧
      ∀ file, FileAlone numberToInt file ↔ ∀ record ∈ fileRecords file, Complete record :=
  ⟨roundTrips_iff hnumber, fileAlone_iff numberToInt⟩

end

end SessionIndex

/-- `atoi` reads what `%d` prints. -/
theorem readsInts_atoi : ReadsInts atoi := by
  intro n _
  have hdigits : ∀ c ∈ decimal n.natAbs, isDigit c = true := fun c => isDigit_of_mem_decimal
  have htake : (decimal n.natAbs).takeWhile isDigit = decimal n.natAbs :=
    List.takeWhile_eq_self_iff.mpr hdigits
  unfold signedDecimal
  split
  · rename_i hneg
    have hspace : (45 :: decimal n.natAbs).dropWhile isSpace = 45 :: decimal n.natAbs := rfl
    have hsign : signSpan (45 :: decimal n.natAbs) = [45] := rfl
    simp only [atoi, hspace, hsign, List.length_singleton, List.drop_succ_cons, List.drop_zero,
      htake, foldl_decimal, if_true]
    omega
  · rename_i hpos
    obtain ⟨c, more, hcons⟩ := List.exists_cons_of_ne_nil (decimal_ne_nil n.natAbs)
    have hc : isDigit c = true := hdigits c (by simp [hcons])
    have hrange : 48 ≤ c.toNat ∧ c.toNat ≤ 57 := by
      simpa [isDigit, UInt8.le_iff_toNat_le] using hc
    have hne : ∀ d : UInt8, d.toNat < 48 → c ≠ d := by
      intro d hd hcd
      rw [hcd] at hrange
      omega
    have hspace : (decimal n.natAbs).dropWhile isSpace = decimal n.natAbs := by
      have hnot : isSpace c = false := by
        have hhigh : ¬ c ≤ 13 := by
          intro hle
          have := UInt8.le_iff_toNat_le.mp hle
          have hthirteen : (13 : UInt8).toNat = 13 := rfl
          omega
        simp [isSpace, hne 32 (by decide), hhigh]
      rw [hcons, List.dropWhile_cons, hnot]
      rfl
    have hsign : signSpan (decimal n.natAbs) = [] := by
      simp [hcons, signSpan, hne 43 (by decide), hne 45 (by decide)]
    have hplus : ([] : Bytes) ≠ [45] := List.nil_eq.not.mpr (List.cons_ne_nil _ _)
    simp only [atoi, hspace, hsign, List.length_nil, List.drop_zero, htake, foldl_decimal,
      if_neg hplus]
    omega

namespace SessionIndex

/-- The theorem at a reader of numbers that does what is asked of it. -/
theorem index_persists_iff_atoi :
    ReadsInts atoi ∧
      (∀ calls file previous, RoundTrips atoi calls file previous ↔ Persists calls file) ∧
        ∀ file, FileAlone atoi file ↔ ∀ record ∈ fileRecords file, Complete record :=
  ⟨readsInts_atoi, index_persists_iff readsInts_atoi⟩

/-- The index after one call. -/
theorem reached_singleton (c : UpdateCall) :
    (reached [c]).entries =
      [newEntry c.key.val c.stateId.val c.workspaceRoot.val c.modelId.val c.contextBudget
        (signedDecimal c.time)] := rfl

/-- A workspace of `n` bytes. -/
def letters (n : Nat) : CString :=
  ⟨List.replicate n 97, fun hmem => absurd (List.eq_of_mem_replicate hmem) (by decide)⟩

/-- The session of a workspace of 600 bytes, less than its entry has room
for. -/
def deepWorkspace : UpdateCall :=
  ⟨⟨lit "k", by decide +kernel⟩, ⟨lit "s", by decide +kernel⟩, letters 600,
    ⟨[], List.not_mem_nil⟩, 0, 0, by decide +kernel⟩

/-- A workspace of 600 bytes comes back without its end, and a record without
members keeps what was in its slot. -/
theorem index_persists_fails :
    ¬ RoundTrips atoi [deepWorkspace] none empty ∧
      ¬ FileAlone atoi (some (lit "\x7b\"entries\":[\x7b\x7d]\x7d")) := by
  refine ⟨?_, ?_⟩
  · rw [roundTrips_iff readsInts_atoi]
    intro hpersists
    rcases hpersists with ⟨hnil, -⟩ | ⟨-, hstorable⟩
    · cases hnil
    have hwhole := hstorable.whole
    rw [reached_singleton] at hwhole
    have hroot : Escapes 512 (clip 1024 (letters 600).val) :=
      (hwhole _ (List.mem_singleton_self _)).workspaceRoot
    have hplain : PlainText (clip 1024 (letters 600).val).dropLast := by
      intro c hc
      rw [List.eq_of_mem_replicate (List.mem_of_mem_take (List.mem_of_mem_dropLast hc))]
      decide
    have hlen : (letters 600).val.length = 600 := List.length_replicate
    rcases hroot with hnil | hfits
    · have hshort := congrArg List.length hnil
      rw [clip_eq_self (by rw [hlen]; decide), hlen] at hshort
      exact absurd hshort (by decide)
    · rw [hplain.escapeAll, List.length_dropLast, clip_eq_self (by rw [hlen]; decide),
        hlen] at hfits
      exact absurd hfits (by decide)
  · rw [fileAlone_iff]
    intro h
    have hmissing : false ∈ (fileRecords (some (lit "\x7b\"entries\":[\x7b\x7d]\x7d"))).map
        fun record => (record.stringField (lit "key")).isSome := by decide +kernel
    obtain ⟨record, hrecord, hnone⟩ := List.mem_map.mp hmissing
    rw [(h record hrecord).key] at hnone
    cases hnone

end SessionIndex

end StarBridge
