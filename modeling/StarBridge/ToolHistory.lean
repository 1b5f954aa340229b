import StarBridge.ControlFrames
import StarBridge.Drafts
import StarBridge.JsonStrings
import StarBridge.Utf8

/-!
# The tool history

The bridge remembers the tool calls of a turn and prints the last twelve as a JSON
array.  Names and arguments pass a loop each: quotes and backslashes are escaped,
the newline in arguments, and every other control character stands in the array as
it is.  The loops stop by a count of bytes, which can part a character.

The array is printed whole (`whole_toolHistoryBuildJson`).  It is JSON iff no control
character stands in a string of it (`json_prints`, `unbroken_of_walk`), and UTF-8 iff
what its entries show is (`valid_json_iff`).
-/

namespace StarBridge

open CText

/-! ## The entries -/

inductive ToolStatus
  | ok
  | error
  | denied
  | timeout
  | unknown
  deriving DecidableEq, Repr

/-- `tool_status_to_string`. -/
def toolStatusToString : ToolStatus → Bytes
  | .ok => lit "ok"
  | .error => lit "error"
  | .denied => lit "denied"
  | .timeout => lit "timeout"
  | .unknown => lit "unknown"

structure ToolHistoryEntry where
  toolName : Bytes
  args : Bytes
  status : ToolStatus
  name_holds : HoldsText 64 toolName
  args_holds : HoldsText 256 args

/-- A byte as the loop over the arguments writes it. -/
def escapeArg (c : UInt8) : Bytes :=
  if c = 34 ∨ c = 92 then [92, c] else if c = 10 then [92, 110] else [c]

/-- A loop of `tool_history_build_json`, with `ai` bytes of its buffer written. -/
def escapeToolText (code : UInt8 → Bytes) (size : Nat) : Bytes → Nat → Bytes
  | [], _ => []
  | c :: rest, ai =>
      if ai + 5 < size then
        code c ++ escapeToolText code size rest (ai + (code c).length)
      else []

/-- The part of the text that such a loop comes to. -/
def toolTextPart (code : UInt8 → Bytes) (size : Nat) : Bytes → Nat → Bytes
  | [], _ => []
  | c :: rest, ai =>
      if ai + 5 < size then c :: toolTextPart code size rest (ai + (code c).length) else []

namespace ToolHistoryEntry

variable (e : ToolHistoryEntry)

/-- `name_esc`. -/
def nameEsc : Bytes := escapeToolText escapeMark 128 e.toolName 0

/-- `args_esc`. -/
def argsEsc : Bytes := escapeToolText escapeArg 160 e.args 0

/-- The entry as it is printed. -/
def text : Bytes :=
  lit "\x7b\"tool\":\"" ++ e.nameEsc ++ lit "\",\"args\":\"" ++ e.argsEsc ++
    lit "\",\"status\":\"" ++ toolStatusToString e.status ++ lit "\"\x7d"

/-- The part of the name that is in the entry. -/
def shownName : Bytes := toolTextPart escapeMark 128 e.toolName 0

/-- The part of the arguments that is in the entry. -/
def shownArgs : Bytes := toolTextPart escapeArg 160 e.args 0

/-- What the entry shows has no control characters but newlines in the
arguments. -/
structure Unbroken : Prop where
  name : ∀ c ∈ e.shownName, 32 ≤ c
  args : ∀ c ∈ e.shownArgs, c = 10 ∨ 32 ≤ c

/-- What the entry shows is UTF-8. -/
structure ValidText : Prop where
  name : Utf8.Valid e.shownName
  args : Utf8.Valid e.shownArgs

end ToolHistoryEntry

/-- The ring buffer: its entries, `g_history_max` and `g_history_drop_count`. -/
structure ToolHistory where
  entries : List ToolHistoryEntry
  max : Nat
  dropCount : Nat
  max_pos : 0 < max
  max_le : max ≤ 64
  entries_le : entries.length ≤ max
  dropped_int : dropCount + 64 < 2 ^ 31

namespace ToolHistory

variable (h : ToolHistory)

def startIndex : Nat := if 12 < h.entries.length then h.entries.length - 12 else 0

/-- The entries that are printed. -/
def shown : List ToolHistoryEntry := h.entries.drop h.startIndex

/-- What is said of the entries that are not. -/
def droppedText : Bytes :=
  if 0 < h.dropCount + h.startIndex ∧ 0 < h.entries.length then
    lit "\x7b\"truncated\":true,\"dropped\":" ++ decimal (h.dropCount + h.startIndex) ++
      lit "\x7d,"
  else []

end ToolHistory

/-- The loop over the entries. -/
def printToolEntries (alloc : Nat) : Bool → List ToolHistoryEntry → Draft UInt8 → Draft UInt8
  | _, [], d => d
  | first, e :: rest, d =>
      if d.off + 512 < alloc then
        let d := if first then d else d.print alloc (lit ",")
        printToolEntries alloc false rest (d.print alloc e.text)
      else d

/-- `tool_history_build_json`. -/
def toolHistoryBuildJson (h : ToolHistory) : Draft UInt8 :=
  let alloc := h.max * 1024 + 512
  let d := Draft.start.print alloc (lit "[")
  let d := if h.droppedText = [] then d else d.print alloc h.droppedText
  (printToolEntries alloc true h.shown d).print alloc (lit "]")

/-! ## The loops -/

section

variable {code : UInt8 → Bytes}

theorem escapeToolText_eq (size : Nat) (text : Bytes) (ai : Nat) :
    escapeToolText code size text ai = (toolTextPart code size text ai).flatMap code := by
  induction text generalizing ai with
  | nil => rfl
  | cons c rest ih =>
      rw [escapeToolText, toolTextPart]
      by_cases hroom : ai + 5 < size
      · rw [if_pos hroom, if_pos hroom, List.flatMap_cons, ih]
      · rw [if_neg hroom, if_neg hroom]
        rfl

theorem length_escapeToolText_le (hcode : ∀ c, (code c).length ≤ 2) {size : Nat} (text : Bytes)
    {ai : Nat} (hai : ai + 4 ≤ size) :
    (escapeToolText code size text ai).length + ai + 4 ≤ size := by
  induction text generalizing ai with
  | nil => rwa [escapeToolText, List.length_nil, Nat.zero_add]
  | cons c rest ih =>
      have hlen := hcode c
      rw [escapeToolText]
      by_cases hroom : ai + 5 < size
      · have hrest : (escapeToolText code size rest (ai + (code c).length)).length +
            (ai + (code c).length) + 4 ≤ size := ih (by omega)
        rw [if_pos hroom, List.length_append]
        omega
      · rw [if_neg hroom, List.length_nil, Nat.zero_add]
        exact hai

end

theorem length_escapeMark_le (c : UInt8) : (escapeMark c).length ≤ 2 := by
  unfold escapeMark
  split_ifs <;> simp

theorem length_escapeArg_le (c : UInt8) : (escapeArg c).length ≤ 2 := by
  unfold escapeArg
  split_ifs <;> simp

theorem spells_escapeArg {c : UInt8} (h : c = 10 ∨ 32 ≤ c) : JsonGrammar.Spells escapeArg c := by
  by_cases hmark : c = 34 ∨ c = 92
  · rcases hmark with rfl | rfl
    · exact JsonGrammar.spells_short (e := 34) (by decide) rfl rfl
    · exact JsonGrammar.spells_short (e := 92) (by decide) rfl rfl
  by_cases hnewline : c = 10
  · subst hnewline
    exact JsonGrammar.spells_short (e := 110) (by decide) rfl rfl
  · refine JsonGrammar.spells_byte ⟨h.resolve_left hnewline, not_or.mp hmark⟩ ?_
    rw [escapeArg, if_neg hmark, if_neg hnewline]

theorem codesAscii_escapeMark (c : UInt8) : Utf8.CodesAscii escapeMark c := by
  by_cases hmark : c = 34 ∨ c = 92
  · rcases hmark with rfl | rfl
    · exact ⟨fun _ => by decide, fun h => absurd h (by decide)⟩
    · exact ⟨fun _ => by decide, fun h => absurd h (by decide)⟩
  · have hsame : escapeMark c = [c] := if_neg hmark
    refine ⟨fun hlow => ?_, fun _ => hsame⟩
    rw [hsame]
    exact ⟨fun d hd => List.mem_singleton.mp hd ▸ hlow, List.cons_ne_nil _ _⟩

theorem codesAscii_escapeArg (c : UInt8) : Utf8.CodesAscii escapeArg c := by
  by_cases hnewline : c = 10
  · subst hnewline
    exact ⟨fun _ => by decide, fun h => absurd h (by decide)⟩
  · have hsame : escapeArg c = escapeMark c := by
      rw [escapeArg, escapeMark, if_neg hnewline]
    have hmark := codesAscii_escapeMark c
    constructor
    · rw [hsame]
      exact hmark.low
    · rw [hsame]
      exact hmark.high

/-! ## Going through an entry -/

/-- A code that gets through exactly the good bytes of a string. -/
def Passes (code : UInt8 → Bytes) (good : UInt8 → Prop) : Prop :=
  ∀ c, (good c → JsonGrammar.walk .inside (code c) = some .inside) ∧
    (¬ good c → JsonGrammar.walk .inside (code c) = none)

theorem passes_escapeMark : Passes escapeMark fun c => 32 ≤ c := by
  intro c
  by_cases hmark : c = 34 ∨ c = 92
  · rcases hmark with rfl | rfl
    · exact ⟨fun _ => by decide, fun h => absurd (by decide) h⟩
    · exact ⟨fun _ => by decide, fun h => absurd (by decide) h⟩
  · rw [not_or] at hmark
    have hsame : escapeMark c = [c] := if_neg (not_or.mpr hmark)
    rw [hsame, JsonGrammar.walk_cons, JsonGrammar.Spot.step, if_neg hmark.1, if_neg hmark.2]
    constructor
    · intro h
      rw [if_neg (UInt8.not_lt.mpr h)]
      rfl
    · intro h
      rw [if_pos (UInt8.not_le.mp h)]
      rfl

theorem passes_escapeArg : Passes escapeArg fun c => c = 10 ∨ 32 ≤ c := by
  intro c
  by_cases hnewline : c = 10
  · subst hnewline
    exact ⟨fun _ => by decide, fun h => absurd (Or.inl rfl) h⟩
  · have hsame : escapeArg c = escapeMark c := by
      rw [escapeArg, escapeMark, if_neg hnewline]
    rw [hsame]
    simpa [hnewline] using passes_escapeMark c

theorem Passes.walk_flatMap {code : UInt8 → Bytes} {good : UInt8 → Prop} (h : Passes code good)
    {text rest : Bytes}
    (hwalk : (JsonGrammar.walk .inside (text.flatMap code ++ rest)).isSome = true) :
    (∀ c ∈ text, good c) ∧ (JsonGrammar.walk .inside rest).isSome = true := by
  induction text with
  | nil => exact ⟨fun c hc => absurd hc List.not_mem_nil, hwalk⟩
  | cons c text ih =>
      rw [List.flatMap_cons, List.append_assoc, JsonGrammar.walk_append] at hwalk
      by_cases hgood : good c
      · rw [(h c).1 hgood] at hwalk
        obtain ⟨hall, hrest⟩ := ih hwalk
        exact ⟨List.forall_mem_cons.mpr ⟨hgood, hall⟩, hrest⟩
      · rw [(h c).2 hgood] at hwalk
        cases hwalk

theorem plain_toolStatus (status : ToolStatus) :
    JsonGrammar.Plain (toolStatusToString status) := by
  cases status <;> decide

namespace ToolHistoryEntry

variable (e : ToolHistoryEntry)

theorem nameEsc_eq : e.nameEsc = e.shownName.flatMap escapeMark := escapeToolText_eq ..

theorem argsEsc_eq : e.argsEsc = e.shownArgs.flatMap escapeArg := escapeToolText_eq ..

theorem length_text_le : e.text.length ≤ 320 := by
  have hname : e.nameEsc.length + 0 + 4 ≤ 128 :=
    length_escapeToolText_le length_escapeMark_le e.toolName (show 0 + 4 ≤ 128 by decide)
  have hargs : e.argsEsc.length + 0 + 4 ≤ 160 :=
    length_escapeToolText_le length_escapeArg_le e.args (show 0 + 4 ≤ 160 by decide)
  have hstatus : ∀ status, (toolStatusToString status).length ≤ 7 := by
    intro status
    cases status <;> decide
  have hopen : (lit "\x7b\"tool\":\"").length = 9 := length_lit _
  have hmiddle : (lit "\",\"args\":\"").length = 10 := length_lit _
  have hlast : (lit "\",\"status\":\"").length = 12 := length_lit _
  have hclose : (lit "\"\x7d").length = 2 := length_lit _
  have hshort := hstatus e.status
  unfold text
  simp only [List.length_append, hopen, hmiddle, hlast, hclose]
  omega

/-- The entry, string by string. -/
theorem text_eq (rest : Bytes) : e.text ++ rest =
    lit "\x7b\"tool\":" ++ 34 :: (e.shownName.flatMap escapeMark ++ (lit "\",\"args\":" ++
      34 :: (e.shownArgs.flatMap escapeArg ++ (lit "\",\"status\":\"" ++
        (toolStatusToString e.status ++ (lit "\"\x7d" ++ rest)))))) := by
  have hname : lit "\x7b\"tool\":\"" = lit "\x7b\"tool\":" ++ [34] := by
    repeat rw [lit_ofList]
    rfl
  have hargs : lit "\",\"args\":\"" = lit "\",\"args\":" ++ [34] := by
    repeat rw [lit_ofList]
    rfl
  rw [text, hname, hargs, nameEsc_eq, argsEsc_eq]
  simp only [List.append_assoc, List.cons_append, List.nil_append]

/-- **Through an entry** one comes only if no control character stands in its
strings. -/
theorem unbroken_of_walk {rest : Bytes}
    (h : (JsonGrammar.walk .outside (e.text ++ rest)).isSome = true) :
    e.Unbroken ∧ (JsonGrammar.walk .outside rest).isSome = true := by
  have hopen : JsonGrammar.walk .outside (lit "\x7b\"tool\":") = some .outside := by
    decide
  have hmiddle : JsonGrammar.walk .inside (lit "\",\"args\":") = some .outside := by
    decide
  have hlast : ∀ status, JsonGrammar.walk .inside
      (lit "\",\"status\":\"" ++ (toolStatusToString status ++ lit "\"\x7d")) =
        some .outside := by
    intro status
    cases status <;> decide
  have hstep : JsonGrammar.Spot.step .outside 34 = some .inside := rfl
  rw [text_eq, JsonGrammar.walk_append_of_eq hopen, JsonGrammar.walk_cons, hstep] at h
  obtain ⟨hname, h⟩ := passes_escapeMark.walk_flatMap h
  rw [JsonGrammar.walk_append_of_eq hmiddle, JsonGrammar.walk_cons, hstep] at h
  obtain ⟨hargs, h⟩ := passes_escapeArg.walk_flatMap h
  rw [← List.append_assoc (toolStatusToString _), ← List.append_assoc,
    JsonGrammar.walk_append_of_eq (hlast e.status)] at h
  exact ⟨⟨hname, hargs⟩, h⟩

/-- An entry without such characters, as an object. -/
theorem prints_text (h : e.Unbroken) : ∃ v, JsonGrammar.Prints e.text v := by
  have hname : ∀ rest, JsonGrammar.readString (e.shownName.flatMap escapeMark ++ 34 :: rest) =
      some (e.shownName, rest) :=
    JsonGrammar.readString_flatMap fun c hc => spells_escapeMark (h.name c hc)
  have hargs : ∀ rest, JsonGrammar.readString (e.shownArgs.flatMap escapeArg ++ 34 :: rest) =
      some (e.shownArgs, rest) :=
    JsonGrammar.readString_flatMap fun c hc => spells_escapeArg (h.args c hc)
  have hshape : e.text = JsonGrammar.Member.object
      [.ofInside (lit "tool") (plain_lit (by decide)) hname,
        .ofInside (lit "args") (plain_lit (by decide)) hargs,
        fixedMember (lit "status") (toolStatusToString e.status) plain_status
          (plain_toolStatus e.status)] := by
    have hopen : lit "\x7b\"tool\":" = 123 :: (JsonGrammar.quote (lit "tool") ++ [58]) := by
      repeat rw [lit_ofList]
      rfl
    have hmiddle : lit "\",\"args\":" =
        34 :: 44 :: (JsonGrammar.quote (lit "args") ++ [58]) := by
      repeat rw [lit_ofList]
      rfl
    have hlast : lit "\",\"status\":\"" =
        34 :: 44 :: (JsonGrammar.quote (lit "status") ++ [58, 34]) := by
      repeat rw [lit_ofList]
      rfl
    have hclose : lit "\"\x7d" = [34, 125] := by
      repeat rw [lit_ofList]
      rfl
    rw [← List.append_nil e.text, text_eq, hopen, hmiddle, hlast, hclose]
    simp [JsonGrammar.Member.object, JsonGrammar.Member.ofInside, JsonGrammar.Member.led,
      fixedMember, JsonGrammar.quote]
  rw [hshape]
  exact ⟨_, JsonGrammar.Member.prints_object_of_members _⟩

end ToolHistoryEntry

theorem ascii_status (status : ToolStatus) : Utf8.Ascii (toolStatusToString status) := by
  cases status <;> decide

theorem ToolHistoryEntry.valid_text_iff (e : ToolHistoryEntry) :
    Utf8.Valid e.text ↔ e.ValidText := by
  have hopen : Utf8.Ascii (lit "\x7b\"tool\":\"") := by decide
  have hmiddle : Utf8.Ascii (lit "\",\"args\":\"") ∧ lit "\",\"args\":\"" ≠ [] := by
    decide
  have hlast : Utf8.Ascii (lit "\",\"status\":\"" ++
      (toolStatusToString e.status ++ lit "\"\x7d")) := by
    have hends : Utf8.Ascii (lit "\",\"status\":\"") ∧ Utf8.Ascii (lit "\"\x7d") := by
      decide
    intro c hc
    rcases List.mem_append.mp hc with hc | hc
    · exact hends.1 c hc
    · rcases List.mem_append.mp hc with hc | hc
      · exact ascii_status e.status c hc
      · exact hends.2 c hc
  have hne : lit "\",\"status\":\"" ++ (toolStatusToString e.status ++ lit "\"\x7d") ≠ [] := by
    rw [lit_ofList]
    exact List.cons_ne_nil _ _
  have hargs : Utf8.Valid (e.argsEsc ++ (lit "\",\"status\":\"" ++
      (toolStatusToString e.status ++ lit "\"\x7d"))) ↔
        Utf8.Valid e.argsEsc ∧ Utf8.Valid [] := by
    rw [← hlast.valid_between_iff hne, List.append_nil]
  unfold ToolHistoryEntry.text
  simp only [List.append_assoc]
  rw [hopen.valid_append_iff, hmiddle.1.valid_between_iff hmiddle.2, hargs, e.nameEsc_eq,
    e.argsEsc_eq, Utf8.valid_flatMap_iff fun c _ => codesAscii_escapeMark c,
    Utf8.valid_flatMap_iff fun c _ => codesAscii_escapeArg c]
  constructor
  · intro h
    exact ⟨h.1, h.2.1⟩
  · intro h
    exact ⟨h.name, h.args, Utf8.valid_nil⟩

theorem ascii_decimal (n : Nat) : Utf8.Ascii (decimal n) := by
  intro c hc
  have hdigit := CJson.isDigit_of_mem_decimal hc
  rw [UInt8.lt_iff_toNat_lt]
  simp only [CJson.isDigit, Bool.and_eq_true, decide_eq_true_eq, UInt8.le_iff_toNat_le] at hdigit
  exact Nat.lt_of_le_of_lt hdigit.2 (by decide)

/-! ## Through an array -/

theorem listed_cons_cons (text text' : Bytes) (texts : List Bytes) :
    JsonGrammar.listed (text :: text' :: texts) =
      text ++ 44 :: JsonGrammar.listed (text' :: texts) := by
  rw [JsonGrammar.listed]
  intro heq
  cases heq

/-- Entries with commas between them. -/
def joinEntries : List ToolHistoryEntry → Bytes
  | [] => []
  | e :: rest => e.text ++ rest.flatMap fun e => 44 :: e.text

/-- Values behind the first of an array. -/
theorem listed_cons (text : Bytes) (texts : List Bytes) :
    JsonGrammar.listed (text :: texts) =
      text ++ (texts.flatMap (fun text => 44 :: text) ++ [93]) := by
  induction texts generalizing text with
  | nil => rfl
  | cons text' texts ih =>
      rw [JsonGrammar.listed, ih, List.flatMap_cons]
      · simp
      · intro heq
        cases heq

theorem listed_entries (entries : List ToolHistoryEntry) :
    JsonGrammar.listed (entries.map ToolHistoryEntry.text) = joinEntries entries ++ [93] := by
  cases entries with
  | nil => rfl
  | cons e rest =>
      rw [List.map_cons, listed_cons, List.flatMap_map, joinEntries, List.append_assoc]

/-- Behind other values, entries without control characters are an array. -/
theorem prints_listed {front : List Bytes} {entries : List ToolHistoryEntry}
    (hfront : ∀ text ∈ front, ∃ v, JsonGrammar.Prints text v)
    (hunbroken : ∀ e ∈ entries, e.Unbroken) :
    ∃ items, JsonGrammar.Prints
      (91 :: JsonGrammar.listed (front ++ entries.map ToolHistoryEntry.text)) (.array items) := by
  by_cases hnil : front ++ entries.map ToolHistoryEntry.text = []
  · rw [hnil]
    exact ⟨_, JsonGrammar.prints_emptyArray⟩
  · refine JsonGrammar.exists_prints_listed (fun text htext => ?_) hnil
    rcases List.mem_append.mp htext with htext | htext
    · exact hfront text htext
    · obtain ⟨e, he, rfl⟩ := List.mem_map.mp htext
      exact e.prints_text (hunbroken e he)

/-- Behind other values, the entries of an array. -/
theorem unbroken_of_walk_listed {front : List Bytes} {entries : List ToolHistoryEntry}
    {rest : Bytes} (hfront : ∀ text ∈ front, ∃ v, JsonGrammar.Prints text v)
    (hwalk : (JsonGrammar.walk .outside (JsonGrammar.listed
      (front ++ entries.map ToolHistoryEntry.text) ++ rest)).isSome = true) :
    ∀ e ∈ entries, e.Unbroken := by
  have hcomma : JsonGrammar.Spot.step .outside 44 = some .outside := rfl
  induction front with
  | cons text front ih =>
      obtain ⟨⟨v, hv⟩, hrest⟩ := List.forall_mem_cons.mp hfront
      rw [List.cons_append] at hwalk
      cases hbehind : front ++ entries.map ToolHistoryEntry.text with
      | nil =>
          rw [List.map_eq_nil_iff.mp (List.append_eq_nil_iff.mp hbehind).2]
          exact fun e he => absurd he List.not_mem_nil
      | cons text' texts =>
          rw [hbehind, listed_cons_cons, List.append_assoc,
            JsonGrammar.walk_append_of_eq hv.walk, List.cons_append, JsonGrammar.walk_cons,
            hcomma, ← hbehind] at hwalk
          exact ih hrest hwalk
  | nil =>
      rw [List.nil_append] at hwalk
      clear hfront
      induction entries with
      | nil => exact fun e he => absurd he List.not_mem_nil
      | cons e entries ih =>
          cases entries with
          | nil =>
              rw [List.map_singleton, JsonGrammar.listed, List.append_assoc] at hwalk
              rw [List.forall_mem_singleton]
              exact (e.unbroken_of_walk hwalk).1
          | cons e' entries =>
              rw [List.map_cons, List.map_cons, listed_cons_cons, List.append_assoc] at hwalk
              obtain ⟨hfirst, hbehind⟩ := e.unbroken_of_walk hwalk
              exact List.forall_mem_cons.mpr ⟨hfirst, ih hbehind⟩

/-- Behind other values, the texts of the entries. -/
theorem valid_listed_iff {front : List Bytes} {entries : List ToolHistoryEntry}
    (hfront : ∀ text ∈ front, Utf8.Ascii text) :
    Utf8.Valid (JsonGrammar.listed (front ++ entries.map ToolHistoryEntry.text)) ↔
      ∀ e ∈ entries, e.ValidText := by
  have hclose : Utf8.Valid [93] := Utf8.valid_singleton (by decide)
  induction front with
  | cons text front ih =>
      obtain ⟨hascii, hrest⟩ := List.forall_mem_cons.mp hfront
      refine Iff.trans ?_ (ih hrest)
      rw [List.cons_append]
      cases hbehind : front ++ entries.map ToolHistoryEntry.text with
      | nil =>
          exact iff_of_true (hascii.valid_append_iff.mpr hclose) hclose
      | cons text' texts =>
          rw [listed_cons_cons, hascii.valid_append_iff,
            Utf8.valid_cons_iff (show (44 : UInt8) < 128 by decide)]
  | nil =>
      rw [List.nil_append]
      clear hfront
      induction entries with
      | nil => exact iff_of_true hclose fun e he => absurd he List.not_mem_nil
      | cons e entries ih =>
          refine Iff.trans ?_ (List.forall_mem_cons.trans (and_congr_right fun _ => ih.symm)).symm
          rw [← e.valid_text_iff]
          cases entries with
          | nil =>
              rw [List.map_singleton, JsonGrammar.listed,
                Utf8.valid_append_cons_iff (show (93 : UInt8) < 128 by decide)]
              exact and_congr_right fun _ => iff_of_true Utf8.valid_nil hclose
          | cons e' entries =>
              rw [List.map_cons, List.map_cons, listed_cons_cons,
                Utf8.valid_append_cons_iff (show (44 : UInt8) < 128 by decide)]

/-! ## The array -/

/-- The members of what is said of the entries that are left out. -/
def noticeMembers (dropped : Nat) : List JsonGrammar.Member :=
  [.ofBool (lit "truncated") (plain_lit (by decide)) true,
    .ofNumber (lit "dropped") (plain_lit (by decide)) (isNumber_decimal dropped)]

theorem notice_eq (dropped : Nat) :
    lit "\x7b\"truncated\":true,\"dropped\":" ++ decimal dropped ++ lit "\x7d," =
      JsonGrammar.Member.object (noticeMembers dropped) ++ [44] := by
  have hopen : lit "\x7b\"truncated\":true,\"dropped\":" =
      123 :: (JsonGrammar.quote (lit "truncated") ++ 58 :: (JsonGrammar.boolText true ++
        44 :: (JsonGrammar.quote (lit "dropped") ++ [58]))) := by
    repeat rw [lit_ofList]
    rfl
  have hclose : lit "\x7d," = [125, 44] := by
    repeat rw [lit_ofList]
    rfl
  rw [hopen, hclose]
  simp [noticeMembers, JsonGrammar.Member.object, JsonGrammar.Member.led,
    JsonGrammar.Member.ofBool, JsonGrammar.Member.ofNumber, JsonGrammar.quote]

theorem ascii_notice (dropped : Nat) :
    Utf8.Ascii (JsonGrammar.Member.object (noticeMembers dropped)) := by
  have hends : Utf8.Ascii (lit "\x7b\"truncated\":true,\"dropped\":") ∧
      Utf8.Ascii (lit "\x7d,") := by decide
  intro c hc
  have hmem : c ∈ lit "\x7b\"truncated\":true,\"dropped\":" ++ decimal dropped ++ lit "\x7d," :=
    notice_eq dropped ▸ List.mem_append_left _ hc
  rcases List.mem_append.mp hmem with hmem | hmem
  · rcases List.mem_append.mp hmem with hmem | hmem
    · exact hends.1 c hmem
    · exact ascii_decimal _ c hmem
  · exact hends.2 c hmem

namespace ToolHistory

variable (h : ToolHistory)

/-- The members of what the array says of the entries that it leaves out. -/
def droppedMembers : List JsonGrammar.Member :=
  [.ofBool (lit "truncated") (plain_lit (by decide)) true,
    .ofNumber (lit "dropped") (plain_lit (by decide))
      (isNumber_decimal (h.dropCount + h.startIndex))]

/-- The values that are printed. -/
def texts : List Bytes :=
  (if h.droppedText = [] then [] else [JsonGrammar.Member.object h.droppedMembers]) ++
    h.shown.map ToolHistoryEntry.text

/-- The array. -/
def json : Bytes := 91 :: JsonGrammar.listed h.texts

theorem droppedText_cases :
    h.droppedText = [] ∨
      h.droppedText = JsonGrammar.Member.object h.droppedMembers ++ [44] ∧ h.shown ≠ [] := by
  unfold droppedText
  by_cases hdropped : 0 < h.dropCount + h.startIndex ∧ 0 < h.entries.length
  · rw [if_pos hdropped]
    refine Or.inr ⟨notice_eq _, ?_⟩
    intro hnil
    have hle := List.drop_eq_nil_iff.mp hnil
    unfold startIndex at hle
    split_ifs at hle <;> omega
  · exact Or.inl (if_neg hdropped)

theorem length_droppedText_le : h.droppedText.length ≤ 40 := by
  have hopen : (lit "\x7b\"truncated\":true,\"dropped\":").length = 28 := length_lit _
  have hclose : (lit "\x7d,").length = 2 := length_lit _
  have hbound := h.dropped_int
  have hentries := h.entries_le
  have hmax := h.max_le
  have hnumber : (decimal (h.dropCount + h.startIndex)).length ≤ 10 := by
    rw [decimal, List.length_map]
    refine (Nat.length_toDigits_le_iff (by decide) (by decide)).mpr ?_
    unfold startIndex
    split_ifs <;> omega
  unfold droppedText
  split_ifs
  · simp only [List.length_append, hopen, hclose]
    omega
  · exact Nat.zero_le _

end ToolHistory

/-- The entries that the loop comes to behind its first, with `off` bytes printed. -/
def entriesBehind (alloc : Nat) : Nat → List ToolHistoryEntry → List ToolHistoryEntry
  | _, [] => []
  | off, e :: rest =>
      if off + 512 < alloc then e :: entriesBehind alloc (off + (44 :: e.text).length) rest else []

theorem entriesBehind_eq {alloc off : Nat} {entries : List ToolHistoryEntry}
    (hroom : off + 321 * entries.length + 512 < alloc) :
    entriesBehind alloc off entries = entries := by
  induction entries generalizing off with
  | nil => rfl
  | cons e rest ih =>
      have hshort := e.length_text_le
      rw [List.length_cons] at hroom
      rw [entriesBehind, if_pos (by omega), ih (by rw [List.length_cons]; omega)]

/-- The loop behind its first entry: what it comes to is printed whole, and some room is
left. -/
theorem printToolEntries_whole {alloc : Nat} {d : Draft UInt8} {done : Bytes}
    (entries : List ToolHistoryEntry) (hwhole : d.Whole done) (hroom : done.length + 191 < alloc) :
    (printToolEntries alloc false entries d).Whole
        (done ++ (entriesBehind alloc done.length entries).flatMap fun e => 44 :: e.text) ∧
      (done ++ (entriesBehind alloc done.length entries).flatMap fun e => 44 :: e.text).length +
        191 < alloc := by
  induction entries generalizing d done with
  | nil =>
      rw [entriesBehind, List.flatMap_nil, List.append_nil]
      exact ⟨hwhole, hroom⟩
  | cons e rest ih =>
      have hshort := e.length_text_le
      have hcomma : lit "," = [44] := by
        rw [lit_ofList]
        rfl
      rw [printToolEntries, entriesBehind, hwhole.off_eq]
      by_cases hmore : done.length + 512 < alloc
      · have hlen : (done ++ 44 :: e.text).length = done.length + (e.text.length + 1) := by
          rw [List.length_append, List.length_cons]
        have hprinted : ((d.print alloc (lit ",")).print alloc e.text).Whole
            (done ++ 44 :: e.text) := by
          have hfirst := hwhole.print (lit ",")
            (show done.length + (lit ",").length < alloc by
              rw [hcomma, List.length_singleton]; omega)
          rw [← List.singleton_append, ← hcomma, ← List.append_assoc]
          refine hfirst.print e.text ?_
          rw [List.length_append, hcomma, List.length_singleton]
          omega
        have hrest := ih hprinted (by rw [hlen]; omega)
        rw [if_pos hmore, if_pos hmore, List.flatMap_cons, ← List.append_assoc,
          ← List.length_append]
        exact hrest
      · rw [if_neg hmore, if_neg hmore, List.flatMap_nil, List.append_nil]
        exact ⟨hwhole, hroom⟩

/-- The entries that an array comes to. -/
def entriesPrinted (max : Nat) (dropped : Bytes) :
    List ToolHistoryEntry → List ToolHistoryEntry
  | [] => []
  | e :: rest =>
      e :: entriesBehind (max * 1024 + 512) (1 + dropped.length + e.text.length) rest

/-- These are all, as long as the allocation is made for as many. -/
theorem entriesPrinted_eq {max : Nat} {dropped : Bytes} {entries : List ToolHistoryEntry}
    (hdropped : dropped.length ≤ 40) (hcount : entries.length ≤ max) :
    entriesPrinted max dropped entries = entries := by
  cases entries with
  | nil => rfl
  | cons e rest =>
      have hshort := e.length_text_le
      rw [List.length_cons] at hcount
      rw [entriesPrinted, entriesBehind_eq (by omega)]

/-- **An array is printed whole**, with the entries that it comes to. -/
theorem whole_printToolArray {max : Nat} {dropped : Bytes} (entries : List ToolHistoryEntry)
    (hpos : 0 < max) (hdropped : dropped.length ≤ 40) :
    ((printToolEntries (max * 1024 + 512) true entries
      (if dropped = [] then Draft.start.print (max * 1024 + 512) (lit "[")
        else (Draft.start.print (max * 1024 + 512) (lit "[")).print (max * 1024 + 512)
          dropped)).print (max * 1024 + 512) (lit "]")).Whole
      (lit "[" ++ dropped ++ joinEntries (entriesPrinted max dropped entries) ++ lit "]") := by
  have hopen : lit "[" = [91] := by
    rw [lit_ofList]
    rfl
  have hstart : (Draft.start.print (max * 1024 + 512) (lit "[")).Whole (lit "[") := by
    refine Draft.whole_start.print _ ?_
    rw [hopen, List.length_nil, List.length_singleton]
    omega
  have hfront : (if dropped = [] then Draft.start.print (max * 1024 + 512) (lit "[")
      else (Draft.start.print (max * 1024 + 512) (lit "[")).print (max * 1024 + 512)
        dropped).Whole (lit "[" ++ dropped) := by
    by_cases hnil : dropped = []
    · rw [if_pos hnil, hnil, List.append_nil]
      exact hstart
    · rw [if_neg hnil]
      refine hstart.print _ ?_
      rw [hopen, List.length_singleton]
      omega
  have hdone : (lit "[" ++ dropped).length = 1 + dropped.length := by
    rw [List.length_append, hopen, List.length_singleton]
  have hclose : (lit "]").length = 1 := length_lit _
  cases entries with
  | nil =>
      rw [entriesPrinted, joinEntries, List.append_nil]
      refine hfront.print _ ?_
      omega
  | cons e rest =>
      have hshort := e.length_text_le
      have hlen : (lit "[" ++ dropped ++ e.text).length = 1 + dropped.length + e.text.length := by
        rw [List.length_append, hdone]
      have hfirst := hfront.print e.text (show _ < max * 1024 + 512 by omega)
      obtain ⟨hwhole, hroom⟩ := printToolEntries_whole rest hfirst
        (show _ < max * 1024 + 512 by omega)
      rw [hlen] at hwhole hroom
      rw [printToolEntries, if_pos (by rw [hfront.off_eq]; omega), entriesPrinted, joinEntries,
        ← List.append_assoc]
      exact hwhole.print _ (by omega)

namespace ToolHistory

variable (h : ToolHistory)

theorem length_shown_le : h.shown.length ≤ h.max := by
  have hle := h.entries_le
  rw [shown, List.length_drop]
  omega

/-- The array, front to back. -/
theorem json_eq : h.json = lit "[" ++ h.droppedText ++
    joinEntries h.shown ++ lit "]" := by
  have hopen : lit "[" = [91] := by
    rw [lit_ofList]
    rfl
  have hclose : lit "]" = [93] := by
    rw [lit_ofList]
    rfl
  rw [json, texts, hopen, hclose]
  rcases h.droppedText_cases with hnone | ⟨hsome, hne⟩
  · rw [if_pos hnone, hnone, List.nil_append, listed_entries]
    simp
  · have hcut : h.droppedText ≠ [] := by
      rw [hsome]
      simp
    obtain ⟨e, rest, hshown⟩ := List.exists_cons_of_ne_nil hne
    rw [if_neg hcut, hsome, hshown, List.map_cons, List.singleton_append, listed_cons_cons,
      ← List.map_cons, listed_entries]
    simp

/-- Only the array of no entries is empty. -/
theorem json_eq_empty_iff : h.json = lit "[]" ↔ h.shown = [] := by
  have hempty : lit "[]" = [91, 93] := by
    rw [lit_ofList]
    rfl
  constructor
  · intro heq
    by_contra hne
    obtain ⟨e, rest, hshown⟩ := List.exists_cons_of_ne_nil hne
    have hlength := congrArg List.length heq
    have hopen : (lit "\x7b\"tool\":\"").length = 9 := length_lit _
    rw [json_eq, hshown, hempty] at hlength
    simp only [joinEntries, ToolHistoryEntry.text, List.length_append, hopen,
      List.length_cons, List.length_nil] at hlength
    omega
  · intro hnil
    have hdropped : h.droppedText = [] :=
      h.droppedText_cases.resolve_right fun hcase => hcase.2 hnil
    rw [json, texts, if_pos hdropped, hnil, hempty]
    rfl

/-- **The array is printed whole**: the allocation is never in its way. -/
theorem whole_toolHistoryBuildJson : (toolHistoryBuildJson h).Whole h.json := by
  have hwhole := whole_printToolArray h.shown h.max_pos h.length_droppedText_le
  rw [entriesPrinted_eq h.length_droppedText_le h.length_shown_le, ← json_eq] at hwhole
  exact hwhole

/-- What the array says of the entries that it leaves out. -/
theorem front_cases {text : Bytes}
    (htext : text ∈ if h.droppedText = [] then []
      else [JsonGrammar.Member.object h.droppedMembers]) :
    text = JsonGrammar.Member.object h.droppedMembers := by
  split_ifs at htext
  · cases htext
  · exact List.mem_singleton.mp htext

/-- An array of entries without control characters is one. -/
theorem json_prints (hunbroken : ∀ e ∈ h.shown, e.Unbroken) :
    ∃ items, JsonGrammar.Prints h.json (.array items) := by
  rw [json, texts]
  refine prints_listed (fun text htext => ?_) hunbroken
  rw [h.front_cases htext]
  exact ⟨_, JsonGrammar.Member.prints_object_of_members _⟩

/-- **Through the array** one comes only if no string of it has a control
character. -/
theorem unbroken_of_walk {rest : Bytes}
    (hwalk : (JsonGrammar.walk .outside (h.json ++ rest)).isSome = true) :
    ∀ e ∈ h.shown, e.Unbroken := by
  have hopen : JsonGrammar.walk .outside [91] = some .outside := by decide
  rw [json, List.cons_append, ← List.singleton_append, JsonGrammar.walk_append_of_eq hopen,
    texts] at hwalk
  refine unbroken_of_walk_listed (fun text htext => ?_) hwalk
  rw [h.front_cases htext]
  exact ⟨_, JsonGrammar.Member.prints_object_of_members _⟩

/-- **The array is UTF-8** iff what its entries show is. -/
theorem valid_json_iff : Utf8.Valid h.json ↔ ∀ e ∈ h.shown, e.ValidText := by
  rw [json, Utf8.valid_cons_iff (show (91 : UInt8) < 128 by decide), texts]
  refine valid_listed_iff fun text htext => ?_
  rw [h.front_cases htext]
  exact ascii_notice _

end ToolHistory

end StarBridge
