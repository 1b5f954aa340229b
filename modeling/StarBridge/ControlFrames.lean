import StarBridge.IndexFile
import StarBridge.JsonSpelling
import StarBridge.SessionState

/-!
# Control frames

The hello frame and the frame that creates a session state are printed with
`snprintf` around texts of three kinds: escaped by `json_escape` into a buffer,
escaped by a loop of `build_session_metadata_json` that knows of quotes and
backslashes alone, or not escaped at all.  The workspace and the model id go
into the frames in two of these ways.

`control_frames_iff` says exactly when both frames are JSON and hold what they
were given.
-/

namespace StarBridge

open CText

/-! ## The frames -/

/-- The text of the hello frame. -/
def helloText (workspaceRoot : Bytes) : Bytes :=
  lit "\x7b\"type\":\"hello\",\"role\":\"bridge\",\"bridge_version\":\"1.0.0\"," ++
    lit "\"protocol_versions\":[1],\"harness_id\":\"codex.responses\",\"workspace_root\":\"" ++
    workspaceRoot ++
    lit "\",\"accepted_events\":[\"response\",\"error\",\"status\",\"log\"]," ++
    lit "\"max_frame_bytes\":16777216\x7d"

/-- `engine_send_hello`: the frame it writes, if there is room for it. -/
def engineSendHello (workspaceRoot : Bytes) : Option Bytes :=
  if (helloText workspaceRoot).length < 4096 then some (helloText workspaceRoot) else none

/-- A byte as the loops of `build_session_metadata_json` write it. -/
def escapeMark (c : UInt8) : Bytes := if c = 34 ∨ c = 92 then [92, c] else [c]

/-- Such a loop, with `i` bytes of its buffer written. -/
def escapeMarksFrom (size : Nat) : Bytes → Nat → Bytes
  | [], _ => []
  | c :: rest, i =>
      if i < size - 4 then
        escapeMark c ++ escapeMarksFrom size rest (i + (escapeMark c).length)
      else []

/-- What a loop leaves in a buffer of `size` bytes. -/
def escapeMarks (size : Nat) (text : Bytes) : Bytes := escapeMarksFrom size (cstr text) 0

/-- What `build_session_metadata_json` prints, each in the buffer it comes from,
and the clock. -/
structure SessionInfo where
  workspace : Bytes
  gitRemote : Bytes
  gitBranch : Bytes
  gitHead : Bytes
  codexModel : Bytes
  lastResponseId : Bytes
  kvCacheDir : Bytes
  seconds : Int64
  nanoseconds : Int64
  workspace_holds : HoldsText 1024 workspace
  remote_holds : HoldsText 256 gitRemote
  branch_holds : HoldsText 256 gitBranch
  head_holds : HoldsText 64 gitHead
  model_holds : HoldsText 128 codexModel
  response_string : 0 ∉ lastResponseId
  cache_holds : HoldsText 1024 kvCacheDir

namespace SessionInfo

variable (s : SessionInfo)

/-- The clock as it is printed, in a buffer of 64 bytes. -/
def timeText : Bytes :=
  clip 64 (signedDecimal s.seconds.toInt ++ [46] ++ signedDecimal s.nanoseconds.toInt)

/-- The text of the metadata. -/
def metadataText : Bytes :=
  lit "\x7b\"workspace_root\":\"" ++ s.workspace ++
    lit "\",\"git_remote\":\"" ++ escapeMarks 512 s.gitRemote ++
    lit "\",\"git_branch\":\"" ++ escapeMarks 256 s.gitBranch ++
    lit "\",\"git_head\":\"" ++ escapeMarks 128 s.gitHead ++
    lit "\",\"model_id\":\"" ++ s.codexModel ++
    lit "\",\"created_at\":\"" ++ s.timeText ++
    lit "\",\"updated_at\":\"" ++ s.timeText ++
    lit "\",\"last_response_id\":\"" ++ s.lastResponseId ++
    lit "\",\"cache_path\":\"" ++ escapeMarks 1024 s.kvCacheDir ++ lit "\"\x7d"

/-- `build_session_metadata_json`, in the buffer of its callers. -/
def buildSessionMetadataJson : Bytes := clip 4096 s.metadataText

/-- The frame for a new session state. -/
def createFrame (key : Bytes) (contextBudget : Int32) : SessionFrame :=
  .createState key s.workspace s.codexModel contextBudget.toInt s.buildSessionMetadataJson

/-- `engine_create_session_state`: the frame it writes, if there is room for it. -/
def engineCreateFrame (key : Bytes) (contextBudget : Int32) : Option Bytes :=
  if (s.createFrame key contextBudget).Fits then some (s.createFrame key contextBudget).text
  else none

/-- What the metadata is to say. -/
def given : List (Bytes × Bytes) :=
  [(lit "workspace_root", s.workspace), (lit "git_remote", s.gitRemote),
    (lit "git_branch", s.gitBranch), (lit "git_head", s.gitHead),
    (lit "model_id", s.codexModel), (lit "created_at", s.timeText),
    (lit "updated_at", s.timeText), (lit "last_response_id", s.lastResponseId),
    (lit "cache_path", s.kvCacheDir)]

end SessionInfo

/-! ## The loops of the metadata -/

/-- A text without control characters that a loop writes whole. -/
structure Marked (size : Nat) (text : Bytes) : Prop where
  no_control : ∀ c ∈ text, 32 ≤ c
  whole : text = [] ∨ (text.dropLast.flatMap escapeMark).length < size - 4

/-- A loop writes the front of its text, the whole of it iff there is room in front
of the last byte. -/
theorem escapeMarksFrom_spec (size : Nat) (text : Bytes) (i : Nat) :
    ∃ kept, kept <+: text ∧ escapeMarksFrom size text i = kept.flatMap escapeMark ∧
      (kept = text ↔ text = [] ∨ i + (text.dropLast.flatMap escapeMark).length < size - 4) := by
  induction text generalizing i with
  | nil => exact ⟨[], List.nil_prefix, rfl, by simp⟩
  | cons c rest ih =>
      by_cases hroom : i < size - 4
      · obtain ⟨kept, hprefix, hwritten, hwhole⟩ := ih (i + (escapeMark c).length)
        refine ⟨c :: kept, List.cons_prefix_cons.mpr ⟨rfl, hprefix⟩, ?_, ?_⟩
        · rw [escapeMarksFrom, if_pos hroom, hwritten]
          rfl
        · rw [List.cons.injEq, hwhole]
          cases rest with
          | nil => simpa using hroom
          | cons d more =>
              rw [List.dropLast_cons_cons, List.flatMap_cons, List.length_append]
              simp [Nat.add_assoc]
      · refine ⟨[], List.nil_prefix, by rw [escapeMarksFrom, if_neg hroom]; rfl, ?_⟩
        refine iff_of_false (List.cons_ne_nil _ _).symm ?_
        intro h
        rcases h with h | h
        · cases h
        · omega

theorem spells_escapeMark {c : UInt8} (h : 32 ≤ c) : JsonGrammar.Spells escapeMark c := by
  by_cases hmark : c = 34 ∨ c = 92
  · rcases hmark with rfl | rfl
    · exact JsonGrammar.spells_short (e := 34) (by decide) rfl rfl
    · exact JsonGrammar.spells_short (e := 92) (by decide) rfl rfl
  · rw [not_or] at hmark
    refine JsonGrammar.spells_byte ⟨h, hmark⟩ ?_
    rw [escapeMark, if_neg (not_or.mpr hmark)]

/-- A text has a first control character, or none. -/
theorem control_cases (text : Bytes) :
    (∀ c ∈ text, 32 ≤ c) ∨
      ∃ front c back, text = front ++ c :: back ∧ (∀ d ∈ front, 32 ≤ d) ∧ c < 32 := by
  induction text with
  | nil => exact Or.inl fun c hc => absurd hc List.not_mem_nil
  | cons c rest ih =>
      by_cases hcontrol : c < 32
      · exact Or.inr ⟨[], c, rest, rfl, fun d hd => absurd hd List.not_mem_nil, hcontrol⟩
      have hc : 32 ≤ c := UInt8.not_lt.mp hcontrol
      rcases ih with hall | ⟨front, d, back, hrest, hfront, hd⟩
      · refine Or.inl fun d hd => ?_
        rcases List.mem_cons.mp hd with rfl | hd
        · exact hc
        · exact hall d hd
      · refine Or.inr ⟨c :: front, d, back, by rw [hrest]; rfl, fun e he => ?_, hd⟩
        rcases List.mem_cons.mp he with rfl | he
        · exact hc
        · exact hfront e he

/-- **What a loop wrote** reads back as its text iff the text has no control
character and was written whole. -/
theorem readString_escapeMarks_iff {size : Nat} {text rest left : Bytes} (hzero : 0 ∉ text) :
    JsonGrammar.readString (escapeMarks size text ++ 34 :: rest) = some (text, left) ↔
      Marked size text ∧ left = rest := by
  obtain ⟨kept, hprefix, hwritten, hwhole⟩ := escapeMarksFrom_spec size text 0
  rw [Nat.zero_add] at hwhole
  rw [escapeMarks, show cstr text = text from upTo_eq_self hzero, hwritten]
  rcases control_cases kept with hall | ⟨front, c, back, hkept, hfront, hc⟩
  · rw [JsonGrammar.readString_flatMap fun c hc => spells_escapeMark (hall c hc)]
    constructor
    · intro h
      cases h
      exact ⟨⟨hall, hwhole.mp rfl⟩, rfl⟩
    · rintro ⟨hmarked, rfl⟩
      rw [hwhole.mpr hmarked.whole]
  · have hsingle : escapeMark c = [c] := by
      have hne : ¬ (c = 34 ∨ c = 92) := by
        rintro (rfl | rfl)
        · exact absurd hc (by decide)
        · exact absurd hc (by decide)
      rw [escapeMark, if_neg hne]
    have hnone := JsonGrammar.readString_control (fun d hd => spells_escapeMark (hfront d hd)) hc
      (back.flatMap escapeMark ++ 34 :: rest)
    have hshape : kept.flatMap escapeMark ++ 34 :: rest =
        front.flatMap escapeMark ++ c :: (back.flatMap escapeMark ++ 34 :: rest) := by
      rw [hkept, List.flatMap_append, List.flatMap_cons, hsingle]
      simp
    rw [hshape, hnone]
    refine iff_of_false (by simp) ?_
    rintro ⟨hmarked, -⟩
    have hin : c ∈ text := hprefix.subset (hkept ▸ by simp)
    exact absurd hc (UInt8.not_lt.mpr (hmarked.no_control c hin))

/-- What is written whole. -/
theorem Marked.escapeMarks_eq {size : Nat} {text : Bytes} (h : Marked size text)
    (hzero : 0 ∉ text) : escapeMarks size text = text.flatMap escapeMark := by
  obtain ⟨kept, -, hwritten, hwhole⟩ := escapeMarksFrom_spec size text 0
  rw [Nat.zero_add] at hwhole
  rw [escapeMarks, show cstr text = text from upTo_eq_self hzero, hwritten, hwhole.mpr h.whole]

/-! ## The members of the frames -/

/-- A member that a loop wrote. -/
def markedField (name : Bytes) (size : Nat) (text : Bytes) (hname : JsonGrammar.IsName name)
    (hzero : 0 ∉ text) : JsonGrammar.Field where
  name := name
  inside := escapeMarks size text
  given := text
  good := Marked size text
  isName := hname
  reads := fun h _ => (readString_escapeMarks_iff hzero).mpr ⟨h, rfl⟩
  only := fun _ hread _ => ((readString_escapeMarks_iff hzero).mp hread).1

/-- A member that `json_escape` wrote. -/
def escapedField (name : Bytes) (maxLen : Nat) (text : Bytes) (hname : JsonGrammar.IsName name)
    (hzero : 0 ∉ text) : JsonGrammar.Field where
  name := name
  inside := jsonEscape text maxLen
  given := text
  good := Escapes maxLen text
  isName := hname
  reads := by
    intro h rest
    rw [(jsonEscape_eq_iff hzero maxLen).mpr h]
    exact readString_escapeAll text rest
  only := by
    intro s left _ hread _
    obtain ⟨kept, hkept, hwhole⟩ := readString_jsonEscape hzero maxLen
    rw [hkept] at hread
    cases hread
    exact hwhole.mp rfl

namespace SessionInfo

variable (s : SessionInfo)

/-- The members of the metadata but the last. -/
def metadataFields : List JsonGrammar.Field :=
  [.raw (lit "workspace_root") s.workspace (isName_lit (by decide) (by decide)),
    markedField (lit "git_remote") 512 s.gitRemote (isName_lit (by decide) (by decide))
      s.remote_holds.1,
    markedField (lit "git_branch") 256 s.gitBranch (isName_lit (by decide) (by decide))
      s.branch_holds.1,
    markedField (lit "git_head") 128 s.gitHead (isName_lit (by decide) (by decide)) s.head_holds.1,
    .raw (lit "model_id") s.codexModel (isName_lit (by decide) (by decide)),
    .raw (lit "created_at") s.timeText (isName_lit (by decide) (by decide)),
    .raw (lit "updated_at") s.timeText (isName_lit (by decide) (by decide)),
    .raw (lit "last_response_id") s.lastResponseId (isName_lit (by decide) (by decide))]

theorem metadataText_eq : s.metadataText = 123 :: JsonGrammar.Field.printed s.metadataFields
    (JsonGrammar.quote (lit "cache_path") ++
      58 :: (JsonGrammar.quote (escapeMarks 1024 s.kvCacheDir) ++ [125])) := by
  have hopens : lit "\x7b\"workspace_root\":\"" =
      123 :: (JsonGrammar.quote (lit "workspace_root") ++ [58, 34]) := by
    repeat rw [lit_ofList]
    rfl
  have hremote : lit "\",\"git_remote\":\"" =
      34 :: 44 :: (JsonGrammar.quote (lit "git_remote") ++ [58, 34]) := by
    repeat rw [lit_ofList]
    rfl
  have hbranch : lit "\",\"git_branch\":\"" =
      34 :: 44 :: (JsonGrammar.quote (lit "git_branch") ++ [58, 34]) := by
    repeat rw [lit_ofList]
    rfl
  have hhead : lit "\",\"git_head\":\"" =
      34 :: 44 :: (JsonGrammar.quote (lit "git_head") ++ [58, 34]) := by
    repeat rw [lit_ofList]
    rfl
  have hmodel : lit "\",\"model_id\":\"" =
      34 :: 44 :: (JsonGrammar.quote (lit "model_id") ++ [58, 34]) := by
    repeat rw [lit_ofList]
    rfl
  have hcreated : lit "\",\"created_at\":\"" =
      34 :: 44 :: (JsonGrammar.quote (lit "created_at") ++ [58, 34]) := by
    repeat rw [lit_ofList]
    rfl
  have hupdated : lit "\",\"updated_at\":\"" =
      34 :: 44 :: (JsonGrammar.quote (lit "updated_at") ++ [58, 34]) := by
    repeat rw [lit_ofList]
    rfl
  have hresponse : lit "\",\"last_response_id\":\"" =
      34 :: 44 :: (JsonGrammar.quote (lit "last_response_id") ++ [58, 34]) := by
    repeat rw [lit_ofList]
    rfl
  have hcache : lit "\",\"cache_path\":\"" =
      34 :: 44 :: (JsonGrammar.quote (lit "cache_path") ++ [58, 34]) := by
    repeat rw [lit_ofList]
    rfl
  have hcloses : lit "\"\x7d" = [34, 125] := by
    repeat rw [lit_ofList]
    rfl
  have hquote : ∀ text : Bytes, JsonGrammar.quote text = 34 :: (text ++ [34]) := fun _ => rfl
  unfold metadataText
  simp only [hopens, hremote, hbranch, hhead, hmodel, hcreated, hupdated, hresponse, hcache,
    hcloses, metadataFields, JsonGrammar.Field.printed, hquote, JsonGrammar.Field.raw,
    markedField, List.append_assoc, List.cons_append, List.nil_append]

/-- The metadata is spelled right. -/
structure Spelled : Prop where
  workspace : JsonGrammar.Plain s.workspace
  remote : Marked 512 s.gitRemote
  branch : Marked 256 s.gitBranch
  head : Marked 128 s.gitHead
  model : JsonGrammar.Plain s.codexModel
  response : JsonGrammar.Plain s.lastResponseId
  cache : Marked 1024 s.kvCacheDir

theorem plain_timeText : JsonGrammar.Plain s.timeText := by
  have hnumber : ∀ n : Int, JsonGrammar.Plain (signedDecimal n) := fun n =>
    plain_of_plainText (CJson.plainText_signedDecimal n)
  intro c hc
  rcases List.mem_append.mp (List.mem_of_mem_take hc) with hc | hc
  · rcases List.mem_append.mp hc with hc | hc
    · exact hnumber _ c hc
    · rw [List.mem_singleton.mp hc]
      decide
  · exact hnumber _ c hc

/-- The metadata as a value. -/
def metadataValue : JsonGrammar.Value :=
  .object (s.given.map fun p => (p.1, .string p.2))

theorem metadataFields_names : s.metadataFields.map (·.name) =
    [lit "workspace_root", lit "git_remote", lit "git_branch", lit "git_head", lit "model_id",
      lit "created_at", lit "updated_at", lit "last_response_id"] := rfl

theorem metadataFields_nodup : (s.metadataFields.map (·.name)).Nodup := by
  rw [metadataFields_names]
  decide

theorem metadataFields_good_iff :
    (∀ f ∈ s.metadataFields, f.good) ↔
      JsonGrammar.Plain s.workspace ∧ Marked 512 s.gitRemote ∧ Marked 256 s.gitBranch ∧
        Marked 128 s.gitHead ∧ JsonGrammar.Plain s.codexModel ∧
        JsonGrammar.Plain s.lastResponseId := by
  have htime := s.plain_timeText
  simp [metadataFields, JsonGrammar.Field.raw, markedField, htime]

theorem given_eq :
    s.given = s.metadataFields.map (fun f => (f.name, f.given)) ++
      [(lit "cache_path", s.kvCacheDir)] := rfl

theorem metadataValue_eq :
    s.metadataValue = .object (JsonGrammar.Field.members s.metadataFields ++
      [(lit "cache_path", .string s.kvCacheDir)]) := rfl

/-- **The metadata says what it is to say** iff it is spelled right. -/
theorem reads_metadata_iff {rest left : Bytes} {v : JsonGrammar.Value} :
    (JsonGrammar.Reads (s.metadataText ++ rest) (.value v) left ∧
        ∃ fields, v = .object fields ∧
          ∀ p ∈ s.given, JsonGrammar.lookup p.1 fields = some (.string p.2)) ↔
      s.Spelled ∧ v = s.metadataValue ∧ left = rest := by
  have hopens : JsonGrammar.OpensName (JsonGrammar.quote (lit "cache_path") ++
      58 :: (JsonGrammar.quote (escapeMarks 1024 s.kvCacheDir) ++ 125 :: rest)) :=
    ⟨99, _, rfl, by decide⟩
  have hname : JsonGrammar.Plain (lit "cache_path") := plain_lit (by decide)
  have hother : lit "cache_path" ∉ s.metadataFields.map (·.name) := by
    rw [metadataFields_names]
    decide
  have htext : s.metadataText ++ rest = 123 :: JsonGrammar.Field.printed s.metadataFields
      (JsonGrammar.quote (lit "cache_path") ++
        58 :: (JsonGrammar.quote (escapeMarks 1024 s.kvCacheDir) ++ 125 :: rest)) := by
    rw [metadataText_eq, List.cons_append, JsonGrammar.Field.printed_append]
    simp
  have hinside : JsonGrammar.quote (escapeMarks 1024 s.kvCacheDir) ++ 125 :: rest =
      34 :: (escapeMarks 1024 s.kvCacheDir ++ 34 :: 125 :: rest) := by
    simp [JsonGrammar.quote]
  rw [htext]
  constructor
  · intro h
    obtain ⟨hread, fields, rfl, hgiven⟩ := h
    rcases JsonGrammar.reads_brace_iff.mp hread with ⟨hnil, -⟩ | ⟨ms, hms, hmembers⟩
    · cases hnil
      have hfirst := hgiven _ List.mem_cons_self
      cases hfirst
    cases hms
    have hfields : ∀ f ∈ s.metadataFields,
        JsonGrammar.lookup f.name fields = some (.string f.given) := by
      intro f hf
      refine hgiven (f.name, f.given) ?_
      rw [given_eq]
      exact List.mem_append_left _ (List.mem_map_of_mem (f := fun f => (f.name, f.given)) hf)
    have hcache := hgiven (lit "cache_path", s.kvCacheDir) (by rw [given_eq]; simp)
    obtain ⟨hgood, ms', rfl, htail⟩ :=
      (JsonGrammar.Field.reads_iff s.metadataFields_nodup hopens).mp ⟨hmembers, hfields⟩
    obtain ⟨v, left', ms'', hvalue, rfl, hnext⟩ :=
      JsonGrammar.reads_members_value hname htail
    rw [JsonGrammar.Field.lookup_behind hother, JsonGrammar.lookup_cons_self] at hcache
    cases hcache
    rw [hinside, JsonGrammar.skip_cons (by decide)] at hvalue
    obtain ⟨text, htext', hstring⟩ := JsonGrammar.reads_quote_iff.mp hvalue
    cases htext'
    obtain ⟨hmarked, rfl⟩ := (readString_escapeMarks_iff s.cache_holds.1).mp hstring
    rw [JsonGrammar.skip_cons (by decide)] at hnext
    rcases hnext with ⟨hclose, rfl⟩ | ⟨s', hcomma, -⟩
    · cases hclose
      obtain ⟨h₁, h₂, h₃, h₄, h₅, h₆⟩ := s.metadataFields_good_iff.mp hgood
      exact ⟨⟨h₁, h₂, h₃, h₄, h₅, h₆, hmarked⟩, rfl, rfl⟩
    · exact (JsonGrammar.cons_ne (by decide) hcomma).elim
  · intro h
    obtain ⟨hspelled, rfl, rfl⟩ := h
    have hgood := s.metadataFields_good_iff.mpr ⟨hspelled.workspace, hspelled.remote,
      hspelled.branch, hspelled.head, hspelled.model, hspelled.response⟩
    have hcache : JsonGrammar.Prints (JsonGrammar.quote (escapeMarks 1024 s.kvCacheDir))
        (.string s.kvCacheDir) := JsonGrammar.prints_string fun rest =>
      (readString_escapeMarks_iff s.cache_holds.1).mpr ⟨hspelled.cache, rfl⟩
    have hlast := (JsonGrammar.reads_lastMember_iff hname hcache).mpr
      (⟨rfl, rfl⟩ : _ ∧ left = left)
    obtain ⟨hmembers, hfields⟩ :=
      (JsonGrammar.Field.reads_iff s.metadataFields_nodup hopens).mpr ⟨hgood, _, rfl, hlast⟩
    refine ⟨.object rfl hmembers, _, s.metadataValue_eq, ?_⟩
    intro p hp
    rw [given_eq] at hp
    rcases List.mem_append.mp hp with hp | hp
    · obtain ⟨f, hf, rfl⟩ := List.mem_map.mp hp
      exact hfields f hf
    · rw [List.mem_singleton.mp hp, JsonGrammar.Field.lookup_behind hother,
        JsonGrammar.lookup_cons_self]

end SessionInfo

/-! ## The hello frame -/

/-- The members in front of the workspace. -/
def helloMembers : List JsonGrammar.Member :=
  [fixedMember (lit "type") (lit "hello") plain_type (plain_lit (by decide)),
    fixedMember (lit "role") (lit "bridge") plain_role (plain_lit (by decide)),
    fixedMember (lit "bridge_version") (lit "1.0.0") (plain_lit (by decide))
      (plain_lit (by decide)),
    ⟨lit "protocol_versions", 91 :: (decimal 1 ++ [93]), .array [.number (decimal 1)],
      by decide +kernel, JsonGrammar.prints_singleton (JsonGrammar.prints_number
        (isNumber_decimal 1))⟩,
    fixedMember (lit "harness_id") (lit "codex.responses") (plain_lit (by decide))
      (plain_lit (by decide))]

/-- The events the bridge accepts. -/
def helloEvents : List Bytes := [lit "response", lit "error", lit "status", lit "log"]

theorem plain_helloEvents : ∀ event ∈ helloEvents, JsonGrammar.Plain event := by
  decide

/-- The member behind the workspace. -/
def helloTail : Bytes :=
  JsonGrammar.quote (lit "accepted_events") ++ 58 :: (91 :: JsonGrammar.quoteAll helloEvents ++
    44 :: (JsonGrammar.quote (lit "max_frame_bytes") ++ 58 :: (decimal 16777216 ++ [125])))

/-- The workspace in the hello frame. -/
def helloField (workspaceRoot : Bytes) : JsonGrammar.Field :=
  .raw (lit "workspace_root") workspaceRoot (isName_lit (by decide) (by decide))

theorem helloText_eq (workspaceRoot : Bytes) :
    helloText workspaceRoot = 123 :: JsonGrammar.Member.printed helloMembers
      (JsonGrammar.Field.printed [helloField workspaceRoot] helloTail) := by
  have hfront : lit "\x7b\"type\":\"hello\",\"role\":\"bridge\",\"bridge_version\":\"1.0.0\"," ++
      lit "\"protocol_versions\":[1],\"harness_id\":\"codex.responses\",\"workspace_root\":\"" =
      123 :: (JsonGrammar.Member.printed helloMembers
        (JsonGrammar.quote (lit "workspace_root") ++ [58, 34])) := by
    repeat rw [lit_ofList]
    rfl
  have hback : lit "\",\"accepted_events\":[\"response\",\"error\",\"status\",\"log\"]," ++
      lit "\"max_frame_bytes\":16777216\x7d" = 34 :: 44 :: helloTail := by
    repeat rw [lit_ofList]
    rfl
  unfold helloText
  rw [hfront, List.append_assoc _ _ (lit _), hback]
  simp only [JsonGrammar.Member.printed_append, List.cons_append, JsonGrammar.Field.printed,
    helloField, JsonGrammar.Field.raw, JsonGrammar.quote, List.append_assoc, List.nil_append]

theorem length_helloText (workspaceRoot : Bytes) :
    (helloText workspaceRoot).length = workspaceRoot.length + 213 := by
  have hfront : (lit "\x7b\"type\":\"hello\",\"role\":\"bridge\",\"bridge_version\":\"1.0.0\"," ++
      lit "\"protocol_versions\":[1],\"harness_id\":\"codex.responses\",\"workspace_root\":\"").length =
      130 := by
    repeat rw [lit_ofList]
    rfl
  have hback : (lit "\",\"accepted_events\":[\"response\",\"error\",\"status\",\"log\"]," ++
      lit "\"max_frame_bytes\":16777216\x7d").length = 83 := by
    repeat rw [lit_ofList]
    rfl
  unfold helloText
  rw [List.append_assoc _ _ (lit _), List.length_append, List.length_append, hfront, hback]
  omega

/-- The hello frame is JSON and names the workspace. -/
def HelloFaithful (workspaceRoot : Bytes) : Prop :=
  ∃ text ms, engineSendHello workspaceRoot = some text ∧
    JsonGrammar.IsJson text (.object ms) ∧
    JsonGrammar.lookup (lit "workspace_root") ms = some (.string workspaceRoot)

theorem opensName_helloTail : JsonGrammar.OpensName helloTail :=
  ⟨97, _, rfl, by decide⟩

theorem reads_helloTail : ∃ ms, JsonGrammar.Reads helloTail (.members ms) [] := by
  have hevents := JsonGrammar.prints_strings plain_helloEvents (List.cons_ne_nil _ _)
  have hlimit := JsonGrammar.prints_number (isNumber_decimal 16777216)
  have hlast := (JsonGrammar.reads_lastMember_iff
    (show JsonGrammar.Plain (lit "max_frame_bytes") from plain_lit (by decide)) hlimit).mpr (⟨rfl, rfl⟩ : _ ∧ [] = [])
  exact ⟨_, (JsonGrammar.reads_member_iff (plain_lit (by decide)) hevents).mpr ⟨_, rfl, hlast⟩⟩

theorem helloFaithful_iff {workspaceRoot : Bytes} (hlen : workspaceRoot.length < 1024) :
    HelloFaithful workspaceRoot ↔ JsonGrammar.Plain workspaceRoot := by
  have hsend : engineSendHello workspaceRoot = some (helloText workspaceRoot) := by
    refine if_pos ?_
    rw [length_helloText]
    omega
  have hnames : ([helloField workspaceRoot].map (·.name)).Nodup := List.pairwise_singleton _ _
  have hother : lit "workspace_root" ∉ helloMembers.map (·.name) := by decide
  have hobject : ∀ {v}, JsonGrammar.IsJson (helloText workspaceRoot) v ↔
      ∃ ms left, v = .object ms ∧
        JsonGrammar.Reads (JsonGrammar.Member.printed helloMembers
          (JsonGrammar.Field.printed [helloField workspaceRoot] helloTail)) (.members ms) left ∧
        JsonGrammar.skip left = [] := by
    rw [helloText_eq]
    exact JsonGrammar.isJson_brace_iff ⟨_, rfl⟩
  constructor
  · intro h
    obtain ⟨text, ms, htext, hjson, hroot⟩ := h
    rw [hsend] at htext
    cases htext
    obtain ⟨ms', left, hms, hmembers, -⟩ := hobject.mp hjson
    cases hms
    obtain ⟨ms', rfl, hfield⟩ := JsonGrammar.Member.reads_iff.mp hmembers
    rw [JsonGrammar.Member.lookup_behind hother] at hroot
    obtain ⟨hgood, -⟩ := (JsonGrammar.Field.reads_iff hnames opensName_helloTail).mp
      ⟨hfield, fun f hf => by rw [List.mem_singleton.mp hf]; exact hroot⟩
    exact hgood _ List.mem_cons_self
  · intro h
    obtain ⟨ms, htail⟩ := reads_helloTail
    have hgood : ∀ f ∈ [helloField workspaceRoot], f.good := by
      intro f hf
      rw [List.mem_singleton.mp hf]
      exact h
    obtain ⟨hfield, hroot⟩ := (JsonGrammar.Field.reads_iff hnames opensName_helloTail).mpr
      ⟨hgood, ms, rfl, htail⟩
    refine ⟨_, _, hsend, hobject.mpr ⟨_, [], rfl,
      JsonGrammar.Member.reads_iff.mpr ⟨_, rfl, hfield⟩, rfl⟩, ?_⟩
    rw [JsonGrammar.Member.lookup_behind hother]
    exact hroot _ List.mem_cons_self

/-! ## The create frame -/

namespace SessionInfo

variable (s : SessionInfo)

/-- The escaped members of the create frame. -/
def createFields {key : Bytes} (hkey : 0 ∉ key) : List JsonGrammar.Field :=
  [escapedField (lit "key") 256 key (isName_lit (by decide) (by decide)) hkey,
    escapedField (lit "project_root") 512 s.workspace (isName_lit (by decide) (by decide))
      s.workspace_holds.1,
    escapedField (lit "model_id") 256 s.codexModel (isName_lit (by decide) (by decide))
      s.model_holds.1]

/-- The member in front of them. -/
def createMembers : List JsonGrammar.Member :=
  [fixedMember (lit "type") (lit "create_state") plain_type (plain_lit (by decide))]

/-- The member behind them. -/
def budgetMembers (contextBudget : Int32) : List JsonGrammar.Member :=
  [⟨lit "context_budget", signedDecimal contextBudget.toInt,
    .number (signedDecimal contextBudget.toInt), plain_lit (by decide),
    JsonGrammar.prints_number (isNumber_signedDecimal _)⟩]

/-- What stands behind the escaped members. -/
def createTail (contextBudget : Int32) (metadata : Bytes) : Bytes :=
  JsonGrammar.Member.printed (budgetMembers contextBudget)
    (JsonGrammar.quote (lit "metadata") ++ 58 :: (metadata ++ [125]))

theorem text_createFrame {key : Bytes} (hkey : 0 ∉ key) (contextBudget : Int32) :
    (s.createFrame key contextBudget).text =
      123 :: JsonGrammar.Member.printed createMembers
        (JsonGrammar.Field.printed (s.createFields hkey)
          (createTail contextBudget s.buildSessionMetadataJson)) := by
  have hopens : lit "\x7b\"type\":\"create_state\",\"key\":\"" =
      123 :: (JsonGrammar.quote (lit "type") ++
        58 :: (JsonGrammar.quote (lit "create_state") ++
          44 :: (JsonGrammar.quote (lit "key") ++ [58, 34]))) := by
    repeat rw [lit_ofList]
    rfl
  have hroot : lit "\",\"project_root\":\"" =
      34 :: 44 :: (JsonGrammar.quote (lit "project_root") ++ [58, 34]) := by
    repeat rw [lit_ofList]
    rfl
  have hmodel : lit "\",\"model_id\":\"" =
      34 :: 44 :: (JsonGrammar.quote (lit "model_id") ++ [58, 34]) := by
    repeat rw [lit_ofList]
    rfl
  have hbudget : lit "\",\"context_budget\":" =
      34 :: 44 :: (JsonGrammar.quote (lit "context_budget") ++ [58]) := by
    repeat rw [lit_ofList]
    rfl
  have hmetadata : lit ",\"metadata\":" =
      44 :: (JsonGrammar.quote (lit "metadata") ++ [58]) := by
    repeat rw [lit_ofList]
    rfl
  have hcloses : lit "\x7d" = [125] := by
    repeat rw [lit_ofList]
    rfl
  have hquote : ∀ text : Bytes, JsonGrammar.quote text = 34 :: (text ++ [34]) := fun _ => rfl
  unfold createFrame SessionFrame.text createFields createTail
  simp only [hopens, hroot, hmodel, hbudget, hmetadata, hcloses, JsonGrammar.Field.printed,
    createMembers, budgetMembers, fixedMember, JsonGrammar.Member.printed, hquote, escapedField,
    List.append_assoc, List.cons_append, List.nil_append]

theorem createFields_names {key : Bytes} (hkey : 0 ∉ key) :
    (s.createFields hkey).map (·.name) = [lit "key", lit "project_root", lit "model_id"] := rfl

theorem createFields_good_iff {key : Bytes} (hkey : 0 ∉ key) :
    (∀ f ∈ s.createFields hkey, f.good) ↔
      Escapes 256 key ∧ Escapes 512 s.workspace ∧ Escapes 256 s.codexModel := by
  simp [createFields, escapedField]

/-- The create frame is JSON and holds what it was given. -/
def CreateFaithful (key : Bytes) (contextBudget : Int32) : Prop :=
  ∃ text ms fields, s.engineCreateFrame key contextBudget = some text ∧
    JsonGrammar.IsJson text (.object ms) ∧
    JsonGrammar.lookup (lit "key") ms = some (.string key) ∧
    JsonGrammar.lookup (lit "project_root") ms = some (.string s.workspace) ∧
    JsonGrammar.lookup (lit "model_id") ms = some (.string s.codexModel) ∧
    JsonGrammar.lookup (lit "metadata") ms = some (.object fields) ∧
    ∀ p ∈ s.given, JsonGrammar.lookup p.1 fields = some (.string p.2)

/-- A frame that fits has its metadata whole. -/
theorem buildSessionMetadataJson_eq {key : Bytes} {contextBudget : Int32}
    (hfits : (s.createFrame key contextBudget).Fits) :
    s.buildSessionMetadataJson = s.metadataText := by
  have hlen : s.buildSessionMetadataJson.length < 1536 := by
    refine Nat.lt_of_le_of_lt ?_ (show _ < 1536 from hfits)
    unfold createFrame SessionFrame.text
    simp only [List.length_append]
    omega
  refine clip_eq_self ?_
  by_contra hlong
  rw [buildSessionMetadataJson, clip, List.length_take] at hlen
  omega

/-- The bytes of a create frame and its metadata that are not fixed. -/
def room (key : Bytes) (contextBudget : Int32) : Nat :=
  (escapeAll key).length + (escapeAll s.workspace).length + (escapeAll s.codexModel).length +
    (signedDecimal contextBudget.toInt).length + s.workspace.length +
    (s.gitRemote.flatMap escapeMark).length + (s.gitBranch.flatMap escapeMark).length +
    (s.gitHead.flatMap escapeMark).length + s.codexModel.length + 2 * s.timeText.length +
    s.lastResponseId.length + (s.kvCacheDir.flatMap escapeMark).length

theorem length_metadataText (h : s.Spelled) :
    s.metadataText.length = s.workspace.length + (s.gitRemote.flatMap escapeMark).length +
      (s.gitBranch.flatMap escapeMark).length + (s.gitHead.flatMap escapeMark).length +
      s.codexModel.length + 2 * s.timeText.length + s.lastResponseId.length +
      (s.kvCacheDir.flatMap escapeMark).length + 151 := by
  have hopens : (lit "\x7b\"workspace_root\":\"").length = 19 := length_lit _
  have hremote : (lit "\",\"git_remote\":\"").length = 16 := length_lit _
  have hbranch : (lit "\",\"git_branch\":\"").length = 16 := length_lit _
  have hhead : (lit "\",\"git_head\":\"").length = 14 := length_lit _
  have hmodel : (lit "\",\"model_id\":\"").length = 14 := length_lit _
  have hcreated : (lit "\",\"created_at\":\"").length = 16 := length_lit _
  have hupdated : (lit "\",\"updated_at\":\"").length = 16 := length_lit _
  have hresponse : (lit "\",\"last_response_id\":\"").length = 22 := length_lit _
  have hcache : (lit "\",\"cache_path\":\"").length = 16 := length_lit _
  have hcloses : (lit "\"\x7d").length = 2 := length_lit _
  unfold metadataText
  rw [h.remote.escapeMarks_eq s.remote_holds.1, h.branch.escapeMarks_eq s.branch_holds.1,
    h.head.escapeMarks_eq s.head_holds.1, h.cache.escapeMarks_eq s.cache_holds.1]
  simp only [List.length_append, hopens, hremote, hbranch, hhead, hmodel, hcreated, hupdated,
    hresponse, hcache, hcloses]
  omega

/-- A create frame takes its bytes and 245 fixed ones. -/
theorem length_createFrame {key : Bytes} (hkey : 0 ∉ key) (contextBudget : Int32)
    (h : s.Spelled) (hwhole : Escapes 256 key ∧ Escapes 512 s.workspace ∧
      Escapes 256 s.codexModel) (hmeta : s.buildSessionMetadataJson = s.metadataText) :
    (s.createFrame key contextBudget).text.length = s.room key contextBudget + 245 := by
  have hopens : (lit "\x7b\"type\":\"create_state\",\"key\":\"").length = 30 := length_lit _
  have hroot : (lit "\",\"project_root\":\"").length = 18 := length_lit _
  have hmodel : (lit "\",\"model_id\":\"").length = 14 := length_lit _
  have hbudget : (lit "\",\"context_budget\":").length = 19 := length_lit _
  have hmetadata : (lit ",\"metadata\":").length = 12 := length_lit _
  have hcloses : (lit "\x7d").length = 1 := length_lit _
  obtain ⟨hwholeKey, hwholeRoot, hwholeModel⟩ := hwhole
  unfold createFrame SessionFrame.text room
  simp only
  rw [(jsonEscape_eq_iff hkey 256).mpr hwholeKey,
    (jsonEscape_eq_iff s.workspace_holds.1 512).mpr hwholeRoot,
    (jsonEscape_eq_iff s.model_holds.1 256).mpr hwholeModel, hmeta]
  simp only [List.length_append, hopens, hroot, hmodel, hbudget, hmetadata, hcloses,
    s.length_metadataText h]
  omega

/-- The fields come through: they are spelled right in the metadata, escaped whole
and have room in the frame. -/
structure Sendable (key : Bytes) (contextBudget : Int32) : Prop where
  spelled : s.Spelled
  key_whole : Escapes 256 key
  workspace_whole : Escapes 512 s.workspace
  model_whole : Escapes 256 s.codexModel
  fits : s.room key contextBudget + 245 < 1536

theorem opensName_createTail (contextBudget : Int32) (metadata : Bytes) :
    JsonGrammar.OpensName (createTail contextBudget metadata) :=
  ⟨99, _, rfl, by decide⟩

theorem skip_metadataText (rest : Bytes) :
    JsonGrammar.skip (s.metadataText ++ rest) = s.metadataText ++ rest := by
  rw [metadataText_eq, List.cons_append]
  exact JsonGrammar.skip_cons (by decide) _

/-- The metadata as the last member. -/
theorem reads_metadataMember_iff {ms : List (Bytes × JsonGrammar.Value)} {left : Bytes} :
    (JsonGrammar.Reads (JsonGrammar.quote (lit "metadata") ++ 58 :: (s.metadataText ++ [125]))
          (.members ms) left ∧
        ∃ fields, JsonGrammar.lookup (lit "metadata") ms = some (.object fields) ∧
          ∀ p ∈ s.given, JsonGrammar.lookup p.1 fields = some (.string p.2)) ↔
      s.Spelled ∧ ms = [(lit "metadata", s.metadataValue)] ∧ left = [] := by
  have hname : JsonGrammar.Plain (lit "metadata") := plain_lit (by decide)
  have hclose : JsonGrammar.skip [125] = [125] := JsonGrammar.skip_cons (by decide) []
  constructor
  · intro h
    obtain ⟨hread, fields, hlookup, hgiven⟩ := h
    obtain ⟨v, left', ms', hvalue, rfl, hnext⟩ := JsonGrammar.reads_members_value hname hread
    rw [JsonGrammar.lookup_cons_self] at hlookup
    cases hlookup
    rw [skip_metadataText] at hvalue
    obtain ⟨hspelled, hv, rfl⟩ := s.reads_metadata_iff.mp ⟨hvalue, fields, rfl, hgiven⟩
    rw [hclose] at hnext
    rcases hnext with ⟨hend, rfl⟩ | ⟨s', hcomma, -⟩
    · cases hend
      exact ⟨hspelled, by rw [hv], rfl⟩
    · exact (JsonGrammar.cons_ne (by decide) hcomma).elim
  · intro h
    obtain ⟨hspelled, rfl, rfl⟩ := h
    have hsame : ([125] : Bytes) = [125] := rfl
    obtain ⟨hvalue, fields, hfields, hgiven⟩ := s.reads_metadata_iff.mpr ⟨hspelled, rfl, hsame⟩
    refine ⟨.lastMember (JsonGrammar.named_quote hname _) ?_ hclose, fields, ?_, hgiven⟩
    · rw [skip_metadataText]
      exact hvalue
    · rw [JsonGrammar.lookup_cons_self, hfields]

theorem engineCreateFrame_eq_some_iff {key text : Bytes} {contextBudget : Int32} :
    s.engineCreateFrame key contextBudget = some text ↔
      (s.createFrame key contextBudget).Fits ∧ (s.createFrame key contextBudget).text = text := by
  unfold engineCreateFrame
  split_ifs with hfits
  · simp [hfits]
  · simp [hfits]

theorem createFaithful_iff {key : Bytes} (hkey : 0 ∉ key) (contextBudget : Int32) :
    s.CreateFaithful key contextBudget ↔ s.Sendable key contextBudget := by
  have hnames : ((s.createFields hkey).map (·.name)).Nodup := by
    rw [createFields_names]
    decide
  have hopens := opensName_createTail contextBudget s.metadataText
  have hbudget : lit "metadata" ∉ (budgetMembers contextBudget).map (·.name) := by
    show lit "metadata" ∉ [lit "context_budget"]
    decide
  have htype : ∀ name ∈ [lit "key", lit "project_root", lit "model_id", lit "metadata"],
      name ∉ createMembers.map (·.name) := by
    decide
  have hmetadata : lit "metadata" ∉ (s.createFields hkey).map (·.name) := by
    rw [createFields_names]
    decide
  have hobject : ∀ {v}, s.buildSessionMetadataJson = s.metadataText →
      (JsonGrammar.IsJson (s.createFrame key contextBudget).text v ↔
        ∃ ms left, v = .object ms ∧
          JsonGrammar.Reads (JsonGrammar.Member.printed createMembers
            (JsonGrammar.Field.printed (s.createFields hkey)
              (createTail contextBudget s.metadataText))) (.members ms) left ∧
          JsonGrammar.skip left = []) := by
    intro v hmeta
    rw [s.text_createFrame hkey contextBudget, hmeta]
    exact JsonGrammar.isJson_brace_iff ⟨_, rfl⟩
  constructor
  · intro h
    obtain ⟨text, ms, fields, htext, hjson, hk, hroot, hmodel, hmeta, hgiven⟩ := h
    obtain ⟨hfits, rfl⟩ := s.engineCreateFrame_eq_some_iff.mp htext
    have hwhole := s.buildSessionMetadataJson_eq hfits
    obtain ⟨ms', left, hms, hmembers, -⟩ := (hobject hwhole).mp hjson
    cases hms
    obtain ⟨ms', rfl, hfield⟩ := JsonGrammar.Member.reads_iff.mp hmembers
    rw [JsonGrammar.Member.lookup_behind (htype _ (by simp))] at hk hroot hmodel hmeta
    have hall : ∀ f ∈ s.createFields hkey,
        JsonGrammar.lookup f.name ms' = some (.string f.given) := by
      intro f hf
      simp only [createFields, List.mem_cons, List.not_mem_nil, or_false] at hf
      rcases hf with rfl | rfl | rfl
      · exact hk
      · exact hroot
      · exact hmodel
    obtain ⟨hgood, ms'', rfl, htail⟩ :=
      (JsonGrammar.Field.reads_iff hnames hopens).mp ⟨hfield, hall⟩
    rw [JsonGrammar.Field.lookup_behind hmetadata] at hmeta
    obtain ⟨ms'', rfl, hlast⟩ := JsonGrammar.Member.reads_iff.mp htail
    rw [JsonGrammar.Member.lookup_behind hbudget] at hmeta
    obtain ⟨hspelled, -, -⟩ := s.reads_metadataMember_iff.mp ⟨hlast, fields, hmeta, hgiven⟩
    have hescapes := (s.createFields_good_iff hkey).mp hgood
    refine ⟨hspelled, hescapes.1, hescapes.2.1, hescapes.2.2, ?_⟩
    rw [← s.length_createFrame hkey contextBudget hspelled hescapes hwhole]
    exact hfits
  · intro h
    have hescapes := And.intro h.key_whole (And.intro h.workspace_whole h.model_whole)
    have hwhole : s.buildSessionMetadataJson = s.metadataText := by
      refine clip_eq_self ?_
      have hroom := h.fits
      rw [s.length_metadataText h.spelled]
      unfold room at hroom
      omega
    have hfits : (s.createFrame key contextBudget).Fits := by
      show _ < 1536
      rw [s.length_createFrame hkey contextBudget h.spelled hescapes hwhole]
      exact h.fits
    obtain ⟨hlast, fields, hmeta, hgiven⟩ :=
      s.reads_metadataMember_iff.mpr ⟨h.spelled, rfl, rfl⟩
    have htail : ∃ ms, JsonGrammar.Reads (createTail contextBudget s.metadataText)
        (.members (JsonGrammar.Member.values (budgetMembers contextBudget) ++ ms)) [] ∧
        ms = [(lit "metadata", s.metadataValue)] :=
      ⟨_, JsonGrammar.Member.reads_iff.mpr ⟨_, rfl, hlast⟩, rfl⟩
    obtain ⟨_, htail, rfl⟩ := htail
    obtain ⟨hfield, hall⟩ := (JsonGrammar.Field.reads_iff hnames hopens).mpr
      ⟨(s.createFields_good_iff hkey).mpr hescapes, _, rfl, htail⟩
    refine ⟨_, _, fields, s.engineCreateFrame_eq_some_iff.mpr ⟨hfits, rfl⟩,
      (hobject hwhole).mpr ⟨_, [], rfl, JsonGrammar.Member.reads_iff.mpr ⟨_, rfl, hfield⟩, rfl⟩,
      ?_, ?_, ?_, ?_, hgiven⟩
    · rw [JsonGrammar.Member.lookup_behind (htype _ (by simp))]
      exact hall _ List.mem_cons_self
    · rw [JsonGrammar.Member.lookup_behind (htype _ (by simp))]
      exact hall _ (List.mem_cons_of_mem _ List.mem_cons_self)
    · rw [JsonGrammar.Member.lookup_behind (htype _ (by simp))]
      exact hall _ (List.mem_cons_of_mem _ (List.mem_cons_of_mem _ List.mem_cons_self))
    · rw [JsonGrammar.Member.lookup_behind (htype _ (by simp)),
        JsonGrammar.Field.lookup_behind hmetadata, JsonGrammar.Member.lookup_behind hbudget]
      exact hmeta

end SessionInfo

/-- **Both frames say what they were given** exactly if it is sendable. -/
theorem control_frames_iff (s : SessionInfo) {key : Bytes} (hkey : 0 ∉ key)
    (contextBudget : Int32) :
    (HelloFaithful s.workspace ∧ s.CreateFaithful key contextBudget) ↔
      s.Sendable key contextBudget := by
  rw [s.createFaithful_iff hkey, helloFaithful_iff s.workspace_holds.2]
  exact ⟨fun h => h.2, fun h => ⟨h.spelled.workspace, h⟩⟩

/-- A session in a workspace, with little else to say. -/
def sessionIn (workspace : Bytes) (h : HoldsText 1024 workspace) : SessionInfo where
  workspace := workspace
  gitRemote := []
  gitBranch := lit "main"
  gitHead := []
  codexModel := lit "local"
  lastResponseId := []
  kvCacheDir := lit "/tmp/kv"
  seconds := 5
  nanoseconds := 7
  workspace_holds := h
  remote_holds := ⟨by decide, by decide⟩
  branch_holds := ⟨by decide, by decide⟩
  head_holds := ⟨by decide, by decide⟩
  model_holds := ⟨by decide, by decide⟩
  response_string := by decide
  cache_holds := ⟨by decide, by decide⟩

theorem control_frames_iff_example :
    HelloFaithful (lit "/home/a") ∧
      (sessionIn (lit "/home/a") ⟨by decide, by decide⟩).CreateFaithful (lit "k") 4096 := by
  refine (control_frames_iff (sessionIn (lit "/home/a") ⟨by decide, by decide⟩)
    (by decide : 0 ∉ lit "k") 4096).mpr ?_
  refine ⟨⟨?_, ⟨?_, ?_⟩, ⟨?_, ?_⟩, ⟨?_, ?_⟩, ?_, ?_, ⟨?_, ?_⟩⟩, ?_, ?_, ?_, ?_⟩ <;> decide +kernel

/-- A quote in the workspace ends the string it is printed in. -/
theorem control_frames_fail :
    ¬ (HelloFaithful (lit "/home/a\"b") ∧
      (sessionIn (lit "/home/a\"b") ⟨by decide, by decide⟩).CreateFaithful (lit "k") 4096) := by
  intro h
  have hplain := (helloFaithful_iff (by decide +kernel)).mp h.1
  exact absurd hplain (by decide +kernel)

end StarBridge
