import StarBridge.FrameSending
import StarBridge.RequestFrame
import StarBridge.SessionKeys
import StarBridge.SessionNotices
import StarBridge.SessionRuns
import StarBridge.ToolHistory

/-!
# What the wrapper makes of the frames

A thread of the wrapper reads the frames of `turn_begin`.  It decodes each as UTF-8,
reads it as JSON, and ends for good when either raises.  The builders of the frames
escape what JSON asks them to, in buffers of their own, and none of them knows of
UTF-8: a byte from 128 on goes through as it is, and a buffer ends between any two
bytes.

`router_reads_iff` says for every run which turns the thread survives with the values
that the bridge put in.
-/

namespace StarBridge

open CText Runs

/-! ## The wrapper -/

/-- `read_frame`, from the payload on: `json.loads(payload.decode("utf-8"))`, on whose
value `.get` is called. -/
structure ReadFrame (payload : Bytes) (decoded : List (Bytes × JsonGrammar.Value)) : Prop where
  utf8 : Utf8.Valid payload
  json : JsonGrammar.IsJson payload (.object decoded)

/-- `decoded.get(name)`; of members with one name a `dict` keeps the last. -/
def dictGet (decoded : List (Bytes × JsonGrammar.Value)) (name : Bytes) :
    Option JsonGrammar.Value :=
  JsonGrammar.lookup name decoded.reverse

/-- `BridgeFrameRouter._run`: frame after frame, and never past one that raises. -/
inductive RouterRuns : List Bytes → List (List (Bytes × JsonGrammar.Value)) → Prop
  | waits : RouterRuns [] []
  | reads {payload decoded payloads more} (hread : ReadFrame payload decoded)
      (hmore : RouterRuns payloads more) : RouterRuns (payload :: payloads) (decoded :: more)

/-! ## What it is given -/

/-- `engine_send_error`, in its buffers. -/
def errorText (errorType detail : Bytes) : Bytes :=
  clip 1024 (lit "\x7b\"type\":\"error\",\"error_type\":\"" ++ errorType ++
    lit "\",\"detail\":\"" ++ escapeMarks 512 detail ++ lit "\"\x7d")

/-- The payload of a frame. -/
def AgentFrame.text : AgentFrame → Bytes
  | .session frame => frame.text
  | .error errorType detail => errorText errorType detail
  | .request args => (frameBuildRequest args).text

/-- A text that is put in, unless it is empty. -/
def putIn (text : Bytes) : Option JsonGrammar.Value :=
  if text = [] then none else some (.string text)

/-- The wrapper has the values of the request. -/
structure RequestArgs.Obtained (args : RequestArgs)
    (decoded : List (Bytes × JsonGrammar.Value)) : Prop where
  id : dictGet decoded (lit "id") = some (.string args.requestId)
  previous : dictGet decoded (lit "previous_response_id") = putIn args.previousResponseId
  effort : dictGet decoded (lit "reasoning_effort") = putIn args.reasoningEffort
  tokens : dictGet decoded (lit "context_tokens") =
    some (.number (signedDecimal args.contextTokens))
  reset : dictGet decoded (lit "reset_session") = some (.bool args.resetSession)

def AgentFrame.Obtained : AgentFrame → List (Bytes × JsonGrammar.Value) → Prop
  | .request args, decoded => args.Obtained decoded
  | _, _ => True

/-- The thread reads all of the frames, and every request with its values. -/
def RouterReads (frames : List AgentFrame) : Prop :=
  ∃ decoded, RouterRuns (frames.map AgentFrame.text) decoded ∧
    List.Forall₂ AgentFrame.Obtained frames decoded

/-- A frame that is read with its values. -/
def AgentFrame.Read (f : AgentFrame) : Prop := ∃ decoded, ReadFrame f.text decoded ∧ f.Obtained decoded

theorem routerReads_iff (frames : List AgentFrame) :
    RouterReads frames ↔ ∀ f ∈ frames, f.Read := by
  induction frames with
  | nil => exact iff_of_true ⟨[], .waits, .nil⟩ fun f hf => absurd hf List.not_mem_nil
  | cons f frames ih =>
      rw [List.forall_mem_cons, ← ih]
      constructor
      · intro h
        obtain ⟨decoded, hruns, hobtained⟩ := h
        cases hruns with
        | reads hread hmore =>
            cases hobtained with
            | cons hfirst hrest => exact ⟨⟨_, hread, hfirst⟩, ⟨_, hmore, hrest⟩⟩
      · intro h
        obtain ⟨⟨first, hread, hfirst⟩, ⟨decoded, hmore, hrest⟩⟩ := h
        exact ⟨first :: decoded, .reads hread hmore, .cons hfirst hrest⟩

/-! ## UTF-8 of the members -/

/-- The part of a text that `json_escape` has room for. -/
def escapedPart (maxLen : Nat) (text : Bytes) : Bytes :=
  (CJson.decodeBody (jsonEscape text maxLen)).getD []

theorem jsonEscape_eq_escapedPart (maxLen : Nat) (text : Bytes) :
    jsonEscape text maxLen = escapeAll (escapedPart maxLen text) := by
  obtain ⟨kept, cut, -, hescape, -⟩ := jsonEscape_prefix text maxLen
  rw [escapedPart, hescape, CJson.decodeBody_escapeAll]
  rfl

theorem escapedPart_eq_iff {maxLen : Nat} {text : Bytes} (hzero : 0 ∉ text) :
    escapedPart maxLen text = text ↔ Escapes maxLen text := by
  obtain ⟨kept, hread, hwhole⟩ := readString_jsonEscape hzero maxLen
  have hpart := hread []
  rw [jsonEscape_eq_escapedPart, readString_escapeAll] at hpart
  cases hpart
  exact hwhole

theorem codesAscii_escapeByte (c : UInt8) : Utf8.CodesAscii escapeByte c := by
  constructor
  · intro hlow
    have hall : ∀ n < 128, Utf8.Ascii (escapeByte (UInt8.ofNat n)) ∧
        escapeByte (UInt8.ofNat n) ≠ [] := by decide
    have hbyte := hall c.toNat (UInt8.lt_iff_toNat_lt.mp hlow)
    rwa [UInt8.ofNat_toNat] at hbyte
  · intro hhigh
    have hall : ∀ n < 256, 128 ≤ n → escapeByte (UInt8.ofNat n) = [UInt8.ofNat n] := by
      decide +kernel
    have hbyte := hall c.toNat c.toNat_lt (UInt8.le_iff_toNat_le.mp hhigh)
    rwa [UInt8.ofNat_toNat] at hbyte

theorem codesAscii_escapeInput {c : UInt8} (h : isKept c = true) :
    Utf8.CodesAscii escapeInputByte c := by
  constructor
  · intro hlow
    have hall : ∀ n < 128, isKept (UInt8.ofNat n) = true →
        Utf8.Ascii (escapeInputByte (UInt8.ofNat n)) ∧ escapeInputByte (UInt8.ofNat n) ≠ [] := by
      decide
    have hbyte := hall c.toNat (UInt8.lt_iff_toNat_lt.mp hlow)
    rw [UInt8.ofNat_toNat] at hbyte
    exact hbyte h
  · intro hhigh
    have hall : ∀ n < 256, 128 ≤ n → escapeInputByte (UInt8.ofNat n) = [UInt8.ofNat n] := by
      decide +kernel
    have hbyte := hall c.toNat c.toNat_lt (UInt8.le_iff_toNat_le.mp hhigh)
    rwa [UInt8.ofNat_toNat] at hbyte

theorem valid_quote_iff (inside : Bytes) :
    Utf8.Valid (JsonGrammar.quote inside) ↔ Utf8.Valid inside := by
  rw [JsonGrammar.quote, Utf8.valid_cons_iff (show (34 : UInt8) < 128 by decide),
    Utf8.valid_append_cons_iff (show (34 : UInt8) < 128 by decide)]
  exact and_iff_left Utf8.valid_nil

theorem valid_jsonEscape_iff (maxLen : Nat) (text : Bytes) :
    Utf8.Valid (jsonEscape text maxLen) ↔ Utf8.Valid (escapedPart maxLen text) := by
  rw [jsonEscape_eq_escapedPart]
  exact Utf8.valid_flatMap_iff fun c _ => codesAscii_escapeByte c

theorem valid_escapeInput_iff (text : Bytes) :
    Utf8.Valid (text.flatMap escapeInputByte) ↔ Utf8.Valid (text.filter isKept) := by
  rw [flatMap_escapeInput_filter]
  exact Utf8.valid_flatMap_iff fun c hc => codesAscii_escapeInput (List.mem_filter.mp hc).2

/-- A member, whatever stands behind it. -/
theorem valid_member_iff {name : Bytes} (hname : Utf8.Ascii name) {c : UInt8} (hc : c < 128)
    (text rest : Bytes) :
    Utf8.Valid (JsonGrammar.quote name ++ 58 :: (text ++ c :: rest)) ↔
      Utf8.Valid text ∧ Utf8.Valid rest := by
  rw [Utf8.valid_append_cons_iff (show (58 : UInt8) < 128 by decide), valid_quote_iff,
    Utf8.valid_append_cons_iff hc]
  exact and_iff_right hname.valid

/-- **A frame is UTF-8** iff the text of every member is. -/
theorem valid_printed_iff {ms : List JsonGrammar.Member}
    (hnames : ∀ m ∈ ms, Utf8.Ascii m.name) (tail : Bytes) :
    Utf8.Valid (JsonGrammar.Member.printed ms tail) ↔
      (∀ m ∈ ms, Utf8.Valid m.text) ∧ Utf8.Valid tail := by
  induction ms with
  | nil => simp [JsonGrammar.Member.printed]
  | cons m ms ih =>
      rw [List.forall_mem_cons] at hnames
      rw [JsonGrammar.Member.printed, valid_member_iff hnames.1 (by decide), ih hnames.2,
        List.forall_mem_cons, and_assoc]

/-- Members, the last of them apart. -/
theorem valid_frame_iff {ms : List JsonGrammar.Member} {name : Bytes}
    (hnames : ∀ m ∈ ms, Utf8.Ascii m.name) (hname : Utf8.Ascii name) (last : Bytes) :
    Utf8.Valid (123 :: JsonGrammar.Member.printed ms
        (JsonGrammar.quote name ++ 58 :: (last ++ [125]))) ↔
      (∀ m ∈ ms, Utf8.Valid m.text) ∧ Utf8.Valid last := by
  rw [Utf8.valid_cons_iff (show (123 : UInt8) < 128 by decide), valid_printed_iff hnames,
    valid_member_iff hname (by decide)]
  exact and_congr_right fun _ => and_iff_left Utf8.valid_nil

/-! ## Values by their names -/

/-- Where no name comes twice it makes no difference which member a `dict` keeps. -/
theorem dictGet_of_mem {decoded : List (Bytes × JsonGrammar.Value)} {name : Bytes}
    {v : JsonGrammar.Value} (hnodup : (decoded.map Prod.fst).Nodup) (h : (name, v) ∈ decoded) :
    dictGet decoded name = some v := by
  refine JsonGrammar.lookup_of_mem ?_ (List.mem_reverse.mpr h)
  rw [List.map_reverse]
  exact List.pairwise_reverse.mpr (hnodup.imp Ne.symm)

theorem dictGet_of_not_mem {decoded : List (Bytes × JsonGrammar.Value)} {name : Bytes}
    (h : name ∉ decoded.map Prod.fst) : dictGet decoded name = none := by
  refine JsonGrammar.lookup_of_not_mem ?_
  rwa [List.map_reverse, List.mem_reverse]

namespace RequestArgs

variable (args : RequestArgs)

/-- The members of the frame but the tool history. -/
def allMembers : List JsonGrammar.Member := typeMember :: args.members

theorem names_allMembers :
    (JsonGrammar.Member.values args.allMembers).map Prod.fst =
      [lit "type", lit "id", lit "input"] ++
        ((if args.reasoningEffort = [] then [] else [lit "reasoning_effort"]) ++
          (if args.previousResponseId = [] then [] else [lit "previous_response_id"])) ++
        [lit "auto_load_resume_session", lit "context_tokens", lit "reset_session",
          lit "tool_permission_mode", lit "do_not_prompt_for_read_only_tools",
          lit "accepted_events"] := by
  unfold allMembers members innerMembers optionalMembers shownMembers
  split_ifs
  all_goals rfl

/-- No name comes twice, with or without a tool history. -/
theorem nodup_names (more : List Bytes) (hmore : more = [] ∨ more = [lit "tool_history"]) :
    ((JsonGrammar.Member.values args.allMembers).map Prod.fst ++ more).Nodup := by
  rw [names_allMembers]
  rcases hmore with rfl | rfl
  · split_ifs
    all_goals decide
  · split_ifs
    all_goals decide

/-- A member that is left out is not there. -/
theorem absent {more : List (Bytes × JsonGrammar.Value)}
    (hmore : more.map Prod.fst = [] ∨ more.map Prod.fst = [lit "tool_history"]) :
    (args.previousResponseId = [] → lit "previous_response_id" ∉
        (JsonGrammar.Member.values args.allMembers ++ more).map Prod.fst) ∧
      (args.reasoningEffort = [] → lit "reasoning_effort" ∉
        (JsonGrammar.Member.values args.allMembers ++ more).map Prod.fst) := by
  rw [List.map_append, names_allMembers]
  constructor
  all_goals
    intro hnil
    rw [if_pos hnil]
    rcases hmore with hmore | hmore
    all_goals
      rw [hmore]
      split_ifs
      all_goals decide

/-- The values of the frame are the values put in, but for what `json_escape` had no
room for. -/
theorem obtained_iff (h : args.Passed) {more : List (Bytes × JsonGrammar.Value)}
    (hmore : more.map Prod.fst = [] ∨ more.map Prod.fst = [lit "tool_history"]) :
    args.Obtained (JsonGrammar.Member.values args.allMembers ++ more) ↔
      Escapes 256 args.requestId ∧ Escapes 256 args.previousResponseId ∧
        Escapes 256 args.reasoningEffort := by
  have hnodup := args.nodup_names _ hmore
  rw [← List.map_append] at hnodup
  have hvalue : ∀ m ∈ args.allMembers,
      dictGet (JsonGrammar.Member.values args.allMembers ++ more) m.name = some m.value :=
    fun m hm => dictGet_of_mem hnodup (List.mem_append_left _
      (List.mem_map_of_mem (f := fun m : JsonGrammar.Member => (m.name, m.value)) hm))
  have hid := hvalue args.idMember (by simp [allMembers, members, innerMembers])
  have hsettings : ∀ m ∈ args.settingMembers,
      dictGet (JsonGrammar.Member.values args.allMembers ++ more) m.name = some m.value :=
    fun m hm => hvalue m (by simp [allMembers, members, innerMembers, hm])
  have hshown : ∀ (name text : Bytes) (hname : JsonGrammar.Plain name), 0 ∉ text →
      (∀ m ∈ shownMembers name text hname, m ∈ args.allMembers) →
      (text = [] → name ∉ (JsonGrammar.Member.values args.allMembers ++ more).map Prod.fst) →
      (dictGet (JsonGrammar.Member.values args.allMembers ++ more) name = putIn text ↔
        Escapes 256 text) := by
    intro name text hname hzero hmem hout
    by_cases hnil : text = []
    · rw [dictGet_of_not_mem (hout hnil), putIn, if_pos hnil]
      exact iff_of_true rfl (Or.inl hnil)
    · have hget := hvalue (escapedMember name text hname)
        (hmem _ (by rw [shownMembers, if_neg hnil]; exact List.mem_singleton.mpr rfl))
      rw [show dictGet _ name = some (JsonGrammar.Value.string (readBack text)) from hget, putIn,
        if_neg hnil, ← escapedPart_eq_iff hzero, Option.some_inj, JsonGrammar.Value.string.injEq]
      rfl
  have hidIff : dictGet (JsonGrammar.Member.values args.allMembers ++ more) (lit "id") =
      some (.string args.requestId) ↔ Escapes 256 args.requestId := by
    rw [show dictGet _ (lit "id") = some (JsonGrammar.Value.string (readBack args.requestId)) from
        hid, ← escapedPart_eq_iff h.requestId, Option.some_inj, JsonGrammar.Value.string.injEq]
    rfl
  obtain ⟨houtPrevious, houtEffort⟩ := args.absent hmore
  have hprevious := hshown (lit "previous_response_id") args.previousResponseId
    plain_previousResponseId h.previousResponseId
    (fun m hm => by simp [allMembers, members, innerMembers, optionalMembers, hm]) houtPrevious
  have heffort := hshown (lit "reasoning_effort") args.reasoningEffort
    (plain_lit (by decide)) h.reasoningEffort
    (fun m hm => by simp [allMembers, members, innerMembers, optionalMembers, hm]) houtEffort
  have htokens := hsettings _ (List.mem_cons_of_mem _ List.mem_cons_self)
  have hreset := hsettings _ (List.mem_cons_of_mem _ (List.mem_cons_of_mem _ List.mem_cons_self))
  constructor
  · intro hobtained
    exact ⟨hidIff.mp hobtained.id, hprevious.mp hobtained.previous, heffort.mp hobtained.effort⟩
  · intro hescapes
    obtain ⟨hid, hprev, heff⟩ := hescapes
    exact ⟨hidIff.mpr hid, hprevious.mpr hprev, heffort.mpr heff, htokens, hreset⟩

end RequestArgs

/-! ## The request -/

/-- Members that are printed right are gone through. -/
theorem walk_printed (ms : List JsonGrammar.Member) (tail : Bytes) :
    JsonGrammar.walk .outside (JsonGrammar.Member.printed ms tail) =
      JsonGrammar.walk .outside tail := by
  have hcolon : JsonGrammar.walk .outside [58] = some .outside := by decide
  have hcomma : JsonGrammar.walk .outside [44] = some .outside := by decide
  induction ms with
  | nil => rfl
  | cons m ms ih =>
      rw [JsonGrammar.Member.printed, JsonGrammar.walk_append_of_eq m.plain.prints.walk,
        ← List.singleton_append, JsonGrammar.walk_append_of_eq hcolon,
        JsonGrammar.walk_append_of_eq m.prints.walk, ← List.singleton_append,
        JsonGrammar.walk_append_of_eq hcomma, ih]

theorem ascii_signedDecimal (n : Int) : Utf8.Ascii (signedDecimal n) := by
  unfold signedDecimal
  split_ifs
  · intro c hc
    rcases List.mem_cons.mp hc with rfl | hc
    · decide
    · exact ascii_decimal _ c hc
  · exact ascii_decimal _

namespace RequestArgs

variable (args : RequestArgs)

theorem ascii_names : ∀ m ∈ args.allMembers, Utf8.Ascii m.name := by
  have hnames : ∀ name ∈ (JsonGrammar.Member.values args.allMembers).map Prod.fst,
      Utf8.Ascii name := by
    rw [names_allMembers]
    split_ifs
    all_goals decide
  intro m hm
  refine hnames m.name ?_
  rw [JsonGrammar.Member.values, List.map_map]
  exact List.mem_map_of_mem (f := fun m : JsonGrammar.Member => m.name) hm

theorem valid_shown_iff (name text : Bytes) (hname : JsonGrammar.Plain name) :
    (∀ m ∈ shownMembers name text hname, Utf8.Valid m.text) ↔
      Utf8.Valid (escapedPart 256 text) := by
  unfold shownMembers
  split_ifs with hnil
  · subst hnil
    exact iff_of_true (fun m hm => absurd hm List.not_mem_nil) Utf8.valid_nil
  · rw [List.forall_mem_singleton, ← valid_jsonEscape_iff]
    exact valid_quote_iff _

/-- The members are UTF-8 as far as what was put in is. -/
theorem valid_members_iff :
    (∀ m ∈ args.allMembers, Utf8.Valid m.text) ↔
      Utf8.Valid (escapedPart 256 args.requestId) ∧ Utf8.Valid (args.input.filter isKept) ∧
        Utf8.Valid (escapedPart 256 args.reasoningEffort) ∧
        Utf8.Valid (escapedPart 256 args.previousResponseId) := by
  have hbool : ∀ b, Utf8.Ascii (JsonGrammar.boolText b) := by decide
  have htype : Utf8.Valid typeMember.text :=
    Utf8.Ascii.valid (show Utf8.Ascii (JsonGrammar.quote (lit "request")) by decide)
  have hmodes : ∀ m ∈ modeMembers ++ [eventsMember], Utf8.Ascii m.text := by decide
  have hfixed : ∀ m ∈ args.settingMembers ++ (modeMembers ++ [eventsMember]),
      Utf8.Valid m.text := by
    rw [List.forall_mem_append]
    refine ⟨List.forall_mem_cons.mpr ⟨(hbool _).valid, List.forall_mem_cons.mpr
      ⟨(ascii_signedDecimal _).valid, List.forall_mem_singleton.mpr (hbool _).valid⟩⟩, ?_⟩
    exact fun m hm => (hmodes m hm).valid
  have hid : Utf8.Valid args.idMember.text ↔ Utf8.Valid (escapedPart 256 args.requestId) :=
    (valid_quote_iff _).trans (valid_jsonEscape_iff _ _)
  have hinput : Utf8.Valid args.inputMember.text ↔ Utf8.Valid (args.input.filter isKept) :=
    (valid_quote_iff _).trans (valid_escapeInput_iff _)
  have hshape : args.allMembers = typeMember :: args.idMember :: args.inputMember ::
      (shownMembers (lit "reasoning_effort") args.reasoningEffort (plain_lit (by decide)) ++
        (shownMembers (lit "previous_response_id") args.previousResponseId
          plain_previousResponseId ++
          (args.settingMembers ++ (modeMembers ++ [eventsMember])))) := by
    simp [allMembers, members, innerMembers, optionalMembers]
  rw [hshape, List.forall_mem_cons, List.forall_mem_cons, List.forall_mem_cons,
    List.forall_mem_append, List.forall_mem_append, valid_shown_iff, valid_shown_iff, hid, hinput]
  constructor
  · intro h
    obtain ⟨-, hid, hinput, heffort, hprevious, -⟩ := h
    exact ⟨hid, hinput, heffort, hprevious⟩
  · intro h
    obtain ⟨hid, hinput, heffort, hprevious⟩ := h
    exact ⟨htype, hid, hinput, heffort, hprevious, hfixed⟩

/-- What is put into the frame can be read: it is UTF-8, and none of the three texts
that `json_escape` prints is cut. -/
structure Legible : Prop where
  id : Escapes 256 args.requestId ∧ Utf8.Valid args.requestId
  input : Utf8.Valid (args.input.filter isKept)
  previous : Escapes 256 args.previousResponseId ∧ Utf8.Valid args.previousResponseId
  effort : Escapes 256 args.reasoningEffort ∧ Utf8.Valid args.reasoningEffort

/-- The condition from what the frame shows. -/
theorem legible_iff (h : args.Passed) :
    (∀ m ∈ args.allMembers, Utf8.Valid m.text) ∧ (Escapes 256 args.requestId ∧
        Escapes 256 args.previousResponseId ∧ Escapes 256 args.reasoningEffort) ↔
      args.Legible := by
  have hpart : ∀ {text : Bytes}, 0 ∉ text → Escapes 256 text →
      (Utf8.Valid (escapedPart 256 text) ↔ Utf8.Valid text) := by
    intro text hzero hescapes
    rw [(escapedPart_eq_iff hzero).mpr hescapes]
  rw [valid_members_iff]
  constructor
  · intro hread
    obtain ⟨⟨hid, hinput, heffort, hprevious⟩, hidFits, hpreviousFits, heffortFits⟩ := hread
    exact ⟨⟨hidFits, (hpart h.requestId hidFits).mp hid⟩, hinput,
      ⟨hpreviousFits, (hpart h.previousResponseId hpreviousFits).mp hprevious⟩,
      ⟨heffortFits, (hpart h.reasoningEffort heffortFits).mp heffort⟩⟩
  · intro hlegible
    refine ⟨⟨(hpart h.requestId hlegible.id.1).mpr hlegible.id.2, hlegible.input,
      (hpart h.reasoningEffort hlegible.effort.1).mpr hlegible.effort.2,
      (hpart h.previousResponseId hlegible.previous.1).mpr hlegible.previous.2⟩,
      hlegible.id.1, hlegible.previous.1, hlegible.effort.1⟩

/-- The frame without a tool history. -/
theorem valid_text_of_none (h : args.Passed) (hnone : historyPrinted args.toolHistory = none) :
    Utf8.Valid (frameBuildRequest args).text ↔ ∀ m ∈ args.allMembers, Utf8.Valid m.text := by
  have hall : args.allMembers = (typeMember :: args.innerMembers) ++ [eventsMember] := rfl
  have hnames := args.ascii_names
  rw [hall] at hnames ⊢
  rw [List.forall_mem_append] at hnames ⊢
  rw [(whole_frameBuildRequest h).text_eq, args.text_of_none hnone,
    valid_frame_iff hnames.1 (hnames.2 _ (List.mem_singleton.mpr rfl)), List.forall_mem_singleton]

/-- The frame with one. -/
theorem valid_text_of_some (h : args.Passed) {history : Bytes}
    (hsome : historyPrinted args.toolHistory = some history) :
    Utf8.Valid (frameBuildRequest args).text ↔
      (∀ m ∈ args.allMembers, Utf8.Valid m.text) ∧ Utf8.Valid history := by
  rw [(whole_frameBuildRequest h).text_eq, args.text_of_some hsome]
  exact valid_frame_iff args.ascii_names (show Utf8.Ascii (lit "tool_history") by decide) _

/-- **A request without a tool history.** -/
theorem read_iff_of_none (h : args.Passed) (hnone : historyPrinted args.toolHistory = none) :
    (AgentFrame.request args).Read ↔ args.Legible := by
  have htext : (AgentFrame.request args).text =
      123 :: JsonGrammar.Member.printed (typeMember :: args.innerMembers)
        (JsonGrammar.quote eventsMember.name ++ 58 :: (eventsMember.text ++ [125])) :=
    (whole_frameBuildRequest h).text_eq.trans (args.text_of_none hnone)
  have hall : args.allMembers = (typeMember :: args.innerMembers) ++ [eventsMember] := rfl
  have hjson : JsonGrammar.IsJson (AgentFrame.request args).text
      (.object (JsonGrammar.Member.values args.allMembers ++ [])) := by
    rw [htext, List.append_nil, hall, JsonGrammar.Member.values, List.map_append]
    exact isJson_printed eventsMember.plain eventsMember.prints.isJson
  have hvalid : Utf8.Valid (AgentFrame.request args).text ↔
      ∀ m ∈ args.allMembers, Utf8.Valid m.text := args.valid_text_of_none h hnone
  have hobtained := args.obtained_iff h (Or.inl (List.map_nil (f := Prod.fst)))
  rw [← args.legible_iff h, ← hobtained, ← hvalid]
  constructor
  · intro hread
    obtain ⟨decoded, hread, hvalues⟩ := hread
    cases hread.json.unique hjson
    exact ⟨hread.utf8, hvalues⟩
  · intro hread
    exact ⟨_, ⟨hread.1, hjson⟩, hread.2⟩

/-- **A request with a tool history.** -/
theorem read_iff_of_some (h : args.Passed) {history : ToolHistory}
    (hsome : historyPrinted args.toolHistory = some history.json) :
    (AgentFrame.request args).Read ↔
      args.Legible ∧ ∀ e ∈ history.shown, e.Unbroken ∧ e.ValidText := by
  have hname : JsonGrammar.Plain (lit "tool_history") := plain_lit (by decide)
  have htext : (AgentFrame.request args).text =
      123 :: JsonGrammar.Member.printed args.allMembers
        (JsonGrammar.quote (lit "tool_history") ++ 58 :: (history.json ++ [125])) :=
    (whole_frameBuildRequest h).text_eq.trans (args.text_of_some hsome)
  have hvalid : Utf8.Valid (AgentFrame.request args).text ↔
      (∀ m ∈ args.allMembers, Utf8.Valid m.text) ∧ ∀ e ∈ history.shown, e.ValidText := by
    rw [← history.valid_json_iff]
    exact args.valid_text_of_some h hsome
  have hunbroken : ∀ {v}, JsonGrammar.IsJson (AgentFrame.request args).text v →
      ∀ e ∈ history.shown, e.Unbroken := by
    intro v hjson
    have hopen : JsonGrammar.walk .outside [123] = some .outside := by decide
    have hcolon : JsonGrammar.walk .outside [58] = some .outside := by decide
    have hwalk := hjson.walk
    rw [htext, ← List.singleton_append, JsonGrammar.walk_append_of_eq hopen, walk_printed,
      JsonGrammar.walk_append_of_eq hname.prints.walk, ← List.singleton_append,
      JsonGrammar.walk_append_of_eq hcolon] at hwalk
    exact history.unbroken_of_walk (by rw [hwalk]; rfl)
  have hjson : ∀ {v}, JsonGrammar.IsJson history.json v →
      JsonGrammar.IsJson (AgentFrame.request args).text
        (.object (JsonGrammar.Member.values args.allMembers ++ [(lit "tool_history", v)])) := by
    intro v hv
    rw [htext]
    exact isJson_printed hname hv
  have hobtained : ∀ v, args.Obtained
      (JsonGrammar.Member.values args.allMembers ++ [(lit "tool_history", v)]) ↔ _ :=
    fun v => args.obtained_iff h (Or.inr rfl)
  rw [← args.legible_iff h]
  constructor
  · intro hread
    obtain ⟨decoded, hread, hvalues⟩ := hread
    have hentries := hunbroken hread.json
    obtain ⟨items, hitems⟩ := history.json_prints hentries
    cases hread.json.unique (hjson hitems.isJson)
    obtain ⟨hmembers, hshown⟩ := hvalid.mp hread.utf8
    exact ⟨⟨hmembers, (hobtained _).mp hvalues⟩, fun e he => ⟨hentries e he, hshown e he⟩⟩
  · intro hlegible
    obtain ⟨⟨hmembers, hescapes⟩, hentries⟩ := hlegible
    obtain ⟨items, hitems⟩ := history.json_prints fun e he => (hentries e he).1
    exact ⟨_, ⟨hvalid.mpr ⟨hmembers, fun e he => (hentries e he).2⟩, hjson hitems.isJson⟩,
      (hobtained _).mpr hescapes⟩

end RequestArgs

/-! ## Session frames and errors -/

/-- The metadata can stand as the value of a member. -/
def StandsAsMember (metadata : Bytes) : Prop :=
  ∃ v, JsonGrammar.IsJson (lit "\x7b\"metadata\":" ++ metadata ++ lit "\x7d") v

/-- What is put into a session frame can be read: it is UTF-8 as far as `json_escape`
has room for it. -/
def SessionFrame.Legible : SessionFrame → Prop
  | .loadState key stateId | .saveState key stateId =>
      Utf8.Valid (escapedPart 256 key) ∧ Utf8.Valid (escapedPart 256 stateId)
  | .switchState fromKey toKey stateId =>
      Utf8.Valid (escapedPart 256 fromKey) ∧ Utf8.Valid (escapedPart 256 toKey) ∧
        Utf8.Valid (escapedPart 256 stateId)
  | .createState key projectRoot modelId _ metadata =>
      Utf8.Valid (escapedPart 256 key) ∧ Utf8.Valid (escapedPart 512 projectRoot) ∧
        Utf8.Valid (escapedPart 256 modelId) ∧ Utf8.Valid metadata ∧ StandsAsMember metadata

theorem readString_escapedPart (maxLen : Nat) (text rest : Bytes) :
    JsonGrammar.readString (jsonEscape text maxLen ++ 34 :: rest) =
      some (escapedPart maxLen text, rest) := by
  rw [jsonEscape_eq_escapedPart]
  exact readString_escapeAll (escapedPart maxLen text) rest

/-- A member that `json_escape` printed into a buffer of any size. -/
def partMember (name : Bytes) (maxLen : Nat) (text : Bytes) (hname : JsonGrammar.Plain name) :
    JsonGrammar.Member :=
  .ofInside name hname (readString_escapedPart maxLen text)

theorem valid_partMember_iff {name : Bytes} (maxLen : Nat) (text : Bytes)
    (hname : JsonGrammar.Plain name) :
    Utf8.Valid (partMember name maxLen text hname).text ↔ Utf8.Valid (escapedPart maxLen text) :=
  (valid_quote_iff _).trans (valid_jsonEscape_iff _ _)

/-- A frame whose members are all printed right is read iff it is UTF-8. -/
theorem read_members_iff {m last : JsonGrammar.Member} {ms : List JsonGrammar.Member}
    (hnames : ∀ m' ∈ m :: ms, Utf8.Ascii m'.name) (hlast : Utf8.Ascii last.name) :
    (∃ decoded, ReadFrame (123 :: JsonGrammar.Member.printed (m :: ms)
        (JsonGrammar.quote last.name ++ 58 :: (last.text ++ [125]))) decoded) ↔
      (∀ m' ∈ m :: ms, Utf8.Valid m'.text) ∧ Utf8.Valid last.text := by
  rw [← valid_frame_iff hnames hlast]
  constructor
  · intro h
    obtain ⟨decoded, hread⟩ := h
    exact hread.utf8
  · intro h
    exact ⟨_, h, isJson_printed last.plain last.prints.isJson⟩

/-- The type of a session frame. -/
def typeOf (kind : Bytes) (hkind : JsonGrammar.Plain kind) : JsonGrammar.Member :=
  fixedMember (lit "type") kind plain_type hkind

theorem ascii_names_of {ms : List JsonGrammar.Member} {names : List Bytes}
    (hnames : ms.map (·.name) = names) (hascii : ∀ name ∈ names, Utf8.Ascii name) :
    ∀ m ∈ ms, Utf8.Ascii m.name :=
  fun _ hm => hascii _ (hnames ▸ List.mem_map_of_mem hm)

/-- A frame with a key and a state id. -/
theorem read_stateFrame_iff (kind : Bytes) {front : Bytes} (hkind : JsonGrammar.Plain kind)
    (hascii : Utf8.Ascii kind)
    (hfront : front = 123 :: (JsonGrammar.quote (lit "type") ++
      58 :: (JsonGrammar.quote kind ++ 44 :: (JsonGrammar.quote (lit "key") ++ [58, 34]))))
    (key stateId : Bytes) :
    (∃ decoded, ReadFrame (front ++ jsonEscape key 256 ++ lit "\",\"state_id\":\"" ++
        jsonEscape stateId 256 ++ lit "\"\x7d") decoded) ↔
      Utf8.Valid (escapedPart 256 key) ∧ Utf8.Valid (escapedPart 256 stateId) := by
  have hkey : JsonGrammar.Plain (lit "key") := plain_lit (by decide)
  have hname : JsonGrammar.Plain (lit "state_id") := plain_lit (by decide)
  have hstate : lit "\",\"state_id\":\"" =
      34 :: 44 :: (JsonGrammar.quote (lit "state_id") ++ [58, 34]) := by
    repeat rw [lit_ofList]
    rfl
  have hclose : lit "\"\x7d" = [34, 125] := by
    repeat rw [lit_ofList]
    rfl
  have hshape : front ++ jsonEscape key 256 ++ lit "\",\"state_id\":\"" ++
      jsonEscape stateId 256 ++ lit "\"\x7d" =
      123 :: JsonGrammar.Member.printed
        [typeOf kind hkind, partMember (lit "key") 256 key hkey]
        (JsonGrammar.quote (partMember (lit "state_id") 256 stateId hname).name ++
          58 :: ((partMember (lit "state_id") 256 stateId hname).text ++ [125])) := by
    rw [hfront, hstate, hclose]
    simp [JsonGrammar.Member.printed, typeOf, fixedMember, partMember,
      JsonGrammar.Member.ofInside, JsonGrammar.quote]
  have hnames : ∀ m ∈ [typeOf kind hkind, partMember (lit "key") 256 key hkey],
      Utf8.Ascii m.name := ascii_names_of rfl
    (show ∀ name ∈ [lit "type", lit "key"], Utf8.Ascii name by decide)
  rw [hshape, read_members_iff hnames (show Utf8.Ascii (lit "state_id") by decide),
    List.forall_mem_cons, List.forall_mem_singleton, valid_partMember_iff, valid_partMember_iff]
  have htype : Utf8.Valid (typeOf kind hkind).text := (valid_quote_iff _).mpr hascii.valid
  exact and_congr_left fun _ => and_iff_right htype

theorem read_switchFrame_iff (fromKey toKey stateId : Bytes) :
    (∃ decoded, ReadFrame (SessionFrame.switchState fromKey toKey stateId).text decoded) ↔
      (SessionFrame.switchState fromKey toKey stateId).Legible := by
  have hkind : JsonGrammar.Plain (lit "switch_state") := plain_lit (by decide)
  have hfrom : JsonGrammar.Plain (lit "from_key") := plain_lit (by decide)
  have hto : JsonGrammar.Plain (lit "to_key") := plain_lit (by decide)
  have hname : JsonGrammar.Plain (lit "state_id") := plain_lit (by decide)
  have hopen : lit "\x7b\"type\":\"switch_state\",\"from_key\":\"" =
      123 :: (JsonGrammar.quote (lit "type") ++ 58 :: (JsonGrammar.quote (lit "switch_state") ++
        44 :: (JsonGrammar.quote (lit "from_key") ++ [58, 34]))) := by
    repeat rw [lit_ofList]
    rfl
  have hmiddle : lit "\",\"to_key\":\"" =
      34 :: 44 :: (JsonGrammar.quote (lit "to_key") ++ [58, 34]) := by
    repeat rw [lit_ofList]
    rfl
  have hstate : lit "\",\"state_id\":\"" =
      34 :: 44 :: (JsonGrammar.quote (lit "state_id") ++ [58, 34]) := by
    repeat rw [lit_ofList]
    rfl
  have hclose : lit "\"\x7d" = [34, 125] := by
    repeat rw [lit_ofList]
    rfl
  have hshape : (SessionFrame.switchState fromKey toKey stateId).text =
      123 :: JsonGrammar.Member.printed
        [typeOf (lit "switch_state") hkind, partMember (lit "from_key") 256 fromKey hfrom,
          partMember (lit "to_key") 256 toKey hto]
        (JsonGrammar.quote (partMember (lit "state_id") 256 stateId hname).name ++
          58 :: ((partMember (lit "state_id") 256 stateId hname).text ++ [125])) := by
    rw [SessionFrame.text, hopen, hmiddle, hstate, hclose]
    simp [JsonGrammar.Member.printed, typeOf, fixedMember, partMember,
      JsonGrammar.Member.ofInside, JsonGrammar.quote]
  have hnames : ∀ m ∈ [typeOf (lit "switch_state") hkind,
      partMember (lit "from_key") 256 fromKey hfrom, partMember (lit "to_key") 256 toKey hto],
      Utf8.Ascii m.name := ascii_names_of rfl
    (show ∀ name ∈ [lit "type", lit "from_key", lit "to_key"], Utf8.Ascii name by decide)
  have htype : Utf8.Valid (typeOf (lit "switch_state") hkind).text :=
    (valid_quote_iff _).mpr (Utf8.Ascii.valid (by decide))
  rw [hshape, read_members_iff hnames (show Utf8.Ascii (lit "state_id") by decide),
    List.forall_mem_cons, List.forall_mem_cons, List.forall_mem_singleton, valid_partMember_iff,
    valid_partMember_iff, valid_partMember_iff]
  unfold SessionFrame.Legible
  tauto

/-- The metadata is read in the frame as it is on its own. -/
theorem standsAsMember_iff (metadata : Bytes) :
    StandsAsMember metadata ↔ ∃ ms left, JsonGrammar.Reads
      (JsonGrammar.quote (lit "metadata") ++ 58 :: (metadata ++ [125])) (.members ms) left ∧
        JsonGrammar.skip left = [] := by
  have hopen : lit "\x7b\"metadata\":" = 123 :: (JsonGrammar.quote (lit "metadata") ++ [58]) := by
    repeat rw [lit_ofList]
    rfl
  have hclose : lit "\x7d" = [125] := by
    rw [lit_ofList]
    rfl
  have hshape : lit "\x7b\"metadata\":" ++ metadata ++ lit "\x7d" =
      123 :: (JsonGrammar.quote (lit "metadata") ++ 58 :: (metadata ++ [125])) := by
    rw [hopen, hclose]
    simp
  unfold StandsAsMember
  rw [hshape]
  have hobject : ∀ {v}, JsonGrammar.IsJson
      (123 :: (JsonGrammar.quote (lit "metadata") ++ 58 :: (metadata ++ [125]))) v ↔ _ :=
    JsonGrammar.isJson_brace_iff ⟨_, rfl⟩
  constructor
  · intro h
    obtain ⟨v, hjson⟩ := h
    obtain ⟨ms, left, -, hread⟩ := hobject.mp hjson
    exact ⟨ms, left, hread⟩
  · intro h
    obtain ⟨ms, left, hread⟩ := h
    exact ⟨_, hobject.mpr ⟨ms, left, rfl, hread⟩⟩

theorem read_createFrame_iff (key projectRoot modelId : Bytes) (budget : Int)
    (metadata : Bytes) :
    (∃ decoded, ReadFrame
        (SessionFrame.createState key projectRoot modelId budget metadata).text decoded) ↔
      (SessionFrame.createState key projectRoot modelId budget metadata).Legible := by
  have hkind : JsonGrammar.Plain (lit "create_state") := plain_lit (by decide)
  have hkey : JsonGrammar.Plain (lit "key") := plain_lit (by decide)
  have hroot : JsonGrammar.Plain (lit "project_root") := plain_lit (by decide)
  have hmodel : JsonGrammar.Plain (lit "model_id") := plain_lit (by decide)
  have hbudget : JsonGrammar.Plain (lit "context_budget") := plain_lit (by decide)
  have hopenText : lit "\x7b\"type\":\"create_state\",\"key\":\"" =
      123 :: (JsonGrammar.quote (lit "type") ++ 58 :: (JsonGrammar.quote (lit "create_state") ++
        44 :: (JsonGrammar.quote (lit "key") ++ [58, 34]))) := by
    repeat rw [lit_ofList]
    rfl
  have hrootText : lit "\",\"project_root\":\"" =
      34 :: 44 :: (JsonGrammar.quote (lit "project_root") ++ [58, 34]) := by
    repeat rw [lit_ofList]
    rfl
  have hmodelText : lit "\",\"model_id\":\"" =
      34 :: 44 :: (JsonGrammar.quote (lit "model_id") ++ [58, 34]) := by
    repeat rw [lit_ofList]
    rfl
  have hbudgetText : lit "\",\"context_budget\":" =
      34 :: 44 :: (JsonGrammar.quote (lit "context_budget") ++ [58]) := by
    repeat rw [lit_ofList]
    rfl
  have hmetadataText : lit ",\"metadata\":" =
      44 :: (JsonGrammar.quote (lit "metadata") ++ [58]) := by
    repeat rw [lit_ofList]
    rfl
  have hclose : lit "\x7d" = [125] := by
    rw [lit_ofList]
    rfl
  obtain ⟨front, hmembers⟩ : ∃ front, [partMember (lit "key") 256 key hkey,
      partMember (lit "project_root") 512 projectRoot hroot,
      partMember (lit "model_id") 256 modelId hmodel,
      .ofNumber (lit "context_budget") hbudget (isNumber_signedDecimal budget)] = front :=
    ⟨_, rfl⟩
  have hshape : (SessionFrame.createState key projectRoot modelId budget metadata).text =
      123 :: JsonGrammar.Member.printed (typeOf (lit "create_state") hkind :: front)
        (JsonGrammar.quote (lit "metadata") ++ 58 :: (metadata ++ [125])) := by
    rw [SessionFrame.text, hopenText, hrootText, hmodelText, hbudgetText, hmetadataText, hclose,
      ← hmembers]
    simp [JsonGrammar.Member.printed, typeOf, fixedMember, partMember,
      JsonGrammar.Member.ofInside, JsonGrammar.Member.ofNumber, JsonGrammar.quote]
  have hnames : ∀ m ∈ typeOf (lit "create_state") hkind :: front, Utf8.Ascii m.name := by
    rw [← hmembers]
    exact ascii_names_of rfl (show ∀ name ∈ [lit "type", lit "key", lit "project_root",
      lit "model_id", lit "context_budget"], Utf8.Ascii name by decide)
  have hvalid : Utf8.Valid (SessionFrame.createState key projectRoot modelId budget metadata).text ↔
      Utf8.Valid (escapedPart 256 key) ∧ Utf8.Valid (escapedPart 512 projectRoot) ∧
        Utf8.Valid (escapedPart 256 modelId) ∧ Utf8.Valid metadata := by
    have htype : Utf8.Valid (typeOf (lit "create_state") hkind).text :=
      (valid_quote_iff _).mpr (Utf8.Ascii.valid (by decide))
    have hnumber : Utf8.Valid (JsonGrammar.Member.ofNumber (lit "context_budget") hbudget
        (isNumber_signedDecimal budget)).text := (ascii_signedDecimal budget).valid
    rw [hshape, valid_frame_iff hnames (show Utf8.Ascii (lit "metadata") by decide),
      ← hmembers, List.forall_mem_cons, List.forall_mem_cons, List.forall_mem_cons,
      List.forall_mem_cons, List.forall_mem_singleton, valid_partMember_iff,
      valid_partMember_iff, valid_partMember_iff]
    tauto
  have hobject : ∀ v, JsonGrammar.IsJson
      (SessionFrame.createState key projectRoot modelId budget metadata).text v ↔
        ∃ ms left, v = .object (JsonGrammar.Member.values
            (typeOf (lit "create_state") hkind :: front) ++ ms) ∧
          JsonGrammar.Reads (JsonGrammar.quote (lit "metadata") ++ 58 :: (metadata ++ [125]))
            (.members ms) left ∧ JsonGrammar.skip left = [] := by
    intro v
    rw [hshape]
    exact JsonGrammar.Member.isJson_printed_iff
  constructor
  · intro h
    obtain ⟨decoded, hread⟩ := h
    obtain ⟨hkey, hroot, hmodel, hmetadata⟩ := hvalid.mp hread.utf8
    obtain ⟨ms, left, -, htail⟩ := (hobject _).mp hread.json
    exact ⟨hkey, hroot, hmodel, hmetadata, (standsAsMember_iff _).mpr ⟨ms, left, htail⟩⟩
  · intro h
    obtain ⟨hkey, hroot, hmodel, hmetadata, hstands⟩ := h
    obtain ⟨ms, left, htail⟩ := (standsAsMember_iff _).mp hstands
    exact ⟨_, hvalid.mpr ⟨hkey, hroot, hmodel, hmetadata⟩,
      (hobject _).mpr ⟨ms, left, rfl, htail⟩⟩

/-- **A session frame** is read iff what is put into it can be. -/
theorem session_read_iff (f : SessionFrame) : (AgentFrame.session f).Read ↔ f.Legible := by
  have hread : (AgentFrame.session f).Read ↔ ∃ decoded, ReadFrame f.text decoded :=
    exists_congr fun _ => and_iff_left trivial
  rw [hread]
  cases f with
  | loadState key stateId =>
      refine read_stateFrame_iff (lit "load_state") (plain_lit (by decide))
        (by decide) ?_ key stateId
      repeat rw [lit_ofList]
      rfl
  | saveState key stateId =>
      refine read_stateFrame_iff (lit "save_state") (plain_lit (by decide))
        (by decide) ?_ key stateId
      repeat rw [lit_ofList]
      rfl
  | switchState fromKey toKey stateId => exact read_switchFrame_iff fromKey toKey stateId
  | createState key projectRoot modelId budget metadata =>
      exact read_createFrame_iff key projectRoot modelId budget metadata

/-- The errors of `turn_begin` are always read. -/
theorem notice_read {errorType detail : Bytes} (h : (errorType, detail) ∈ sessionNotices) :
    (AgentFrame.error errorType detail).Read := by
  have hnotice : ∀ n ∈ sessionNotices, (JsonGrammar.Plain n.1 ∧ Utf8.Ascii n.1) ∧
      (JsonGrammar.Plain n.2 ∧ Utf8.Ascii n.2) ∧ escapeMarks 512 n.2 = n.2 ∧
        n.1.length + n.2.length < 512 := by decide
  obtain ⟨⟨htype, htypeAscii⟩, ⟨hdetail, hdetailAscii⟩, hsame, hshort⟩ := hnotice _ h
  have herror : JsonGrammar.Plain (lit "error") := plain_error
  have hname : JsonGrammar.Plain (lit "error_type") := plain_lit (by decide)
  have hopen : lit "\x7b\"type\":\"error\",\"error_type\":\"" =
      123 :: (JsonGrammar.quote (lit "type") ++ 58 :: (JsonGrammar.quote (lit "error") ++
        44 :: (JsonGrammar.quote (lit "error_type") ++ [58, 34]))) := by
    repeat rw [lit_ofList]
    rfl
  have hmiddle : lit "\",\"detail\":\"" =
      34 :: 44 :: (JsonGrammar.quote (lit "detail") ++ [58, 34]) := by
    repeat rw [lit_ofList]
    rfl
  have hclose : lit "\"\x7d" = [34, 125] := by
    repeat rw [lit_ofList]
    rfl
  have hlength : (lit "\x7b\"type\":\"error\",\"error_type\":\"" ++ errorType ++
      lit "\",\"detail\":\"" ++ detail ++ lit "\"\x7d").length < 1024 := by
    have hopenLength : (lit "\x7b\"type\":\"error\",\"error_type\":\"").length = 30 :=
      length_lit _
    have hmiddleLength : (lit "\",\"detail\":\"").length = 12 := length_lit _
    have hcloseLength : (lit "\"\x7d").length = 2 := length_lit _
    have hsum : errorType.length + detail.length < 512 := hshort
    simp only [List.length_append, hopenLength, hmiddleLength, hcloseLength]
    omega
  have hshape : (AgentFrame.error errorType detail).text =
      123 :: JsonGrammar.Member.printed
        [typeOf (lit "error") herror, fixedMember (lit "error_type") errorType hname htype]
        (JsonGrammar.quote (fixedMember (lit "detail") detail (plain_lit (by decide)) hdetail).name ++
          58 :: ((fixedMember (lit "detail") detail (plain_lit (by decide)) hdetail).text ++
            [125])) := by
    rw [AgentFrame.text, errorText, show escapeMarks 512 detail = detail from hsame,
      clip_eq_self hlength, hopen, hmiddle, hclose]
    simp [JsonGrammar.Member.printed, typeOf, fixedMember, JsonGrammar.quote]
  have hnames : ∀ m ∈ [typeOf (lit "error") herror,
      fixedMember (lit "error_type") errorType hname htype], Utf8.Ascii m.name :=
    ascii_names_of rfl (show ∀ name ∈ [lit "type", lit "error_type"], Utf8.Ascii name by
      decide)
  have hmembers : ∀ m ∈ [typeOf (lit "error") herror,
      fixedMember (lit "error_type") errorType hname htype], Utf8.Valid m.text :=
    List.forall_mem_cons.mpr ⟨(valid_quote_iff _).mpr (Utf8.Ascii.valid (by decide)),
      List.forall_mem_singleton.mpr ((valid_quote_iff _).mpr htypeAscii.valid)⟩
  have hlast : Utf8.Valid (fixedMember (lit "detail") detail (plain_lit (by decide)) hdetail).text :=
    (valid_quote_iff detail).mpr hdetailAscii.valid
  obtain ⟨decoded, hread⟩ := (read_members_iff hnames
    (show Utf8.Ascii (lit "detail") by decide)).mpr ⟨hmembers, hlast⟩
  exact ⟨decoded, hshape ▸ hread, trivial⟩

/-! ## Turns -/

/-- What a turn is given, in the types C has for it; the tool history is the text
that `tool_history_build_json` makes of the ring buffer. -/
structure GivenTurn where
  input : TurnInput
  history : ToolHistory
  history_json : input.toolHistory = (toolHistoryBuildJson history).text
  number_long : input.requestNumber < 2 ^ 64
  input_string : 0 ∉ input.input
  previous_string : 0 ∉ input.previousResponseId
  effort_string : 0 ∉ input.reasoningEffort

/-- The configuration, with its `int`. -/
structure GivenEnv where
  env : SessionEnv
  tokens_int : ∃ tokens : Int32, env.contextTokens = tokens.toInt

/-- The frames of a turn, as far as `frame_write` does not refuse them. -/
def turnFrames (env : SessionEnv) (w : SessionWorld) (t : TurnInput) : List AgentFrame :=
  ((turnBegin env w t).frames ++ finalFrames env w t).filter fun f =>
    f.text.length ≤ frameMaxPayload

/-- The frames of a run of turns. -/
def runFrames (env : SessionEnv) : SessionWorld → List GivenTurn → List AgentFrame
  | _, [] => []
  | w, t :: turns => turnFrames env w t.input ++ runFrames env (runTurn env w t.input) turns

/-- What the request says can be read. -/
structure LegibleRequest (env : SessionEnv) (t : GivenTurn) : Prop where
  input : Utf8.Valid (t.input.input.filter isKept)
  previous : Escapes 256 t.input.previousResponseId ∧ Utf8.Valid t.input.previousResponseId
  effort : Escapes 256 t.input.reasoningEffort ∧ Utf8.Valid t.input.reasoningEffort
  history : env.hideToolTranscripts = false →
    ∀ e ∈ t.history.shown, e.Unbroken ∧ e.ValidText

/-- What the frames of a turn say can be read. -/
structure LegibleTurn (env : SessionEnv) (w : SessionWorld) (t : GivenTurn) : Prop where
  request : .request (requestArgs env t.input) ∈ turnFrames env w t.input → LegibleRequest env t
  sessions : ∀ f, .session f ∈ turnFrames env w t.input → f.Legible

/-- The id of a request is short and plain. -/
theorem requestId_legible {number : Nat} (h : number < 2 ^ 64) :
    0 ∉ lit "req-" ++ decimal number ∧ Escapes 256 (lit "req-" ++ decimal number) ∧
      Utf8.Valid (lit "req-" ++ decimal number) := by
  have hfront : CJson.PlainText (lit "req-") ∧ Utf8.Ascii (lit "req-") := by decide
  have hplain : CJson.PlainText (lit "req-" ++ decimal number) := by
    intro c hc
    rcases List.mem_append.mp hc with hc | hc
    · exact hfront.1 c hc
    · exact CJson.plainText_decimal number c hc
  have hlength : (decimal number).length ≤ 20 := by
    rw [decimal, List.length_map]
    exact (Nat.length_toDigits_le_iff (by decide) (by decide)).mpr (by omega)
  refine ⟨hplain.zero_not_mem, Escapes.of_plainText hplain ?_, ?_⟩
  · rw [List.length_append, show (lit "req-").length = 4 from length_lit _]
    omega
  · exact hfront.2.valid.append (ascii_decimal number).valid

theorem requestArgs_passed (env : GivenEnv) (t : GivenTurn) :
    (requestArgs env.env t.input).Passed where
  requestId := (requestId_legible t.number_long).1
  input := t.input_string
  reasoningEffort := t.effort_string
  previousResponseId := t.previous_string
  contextTokens := env.tokens_int

/-- The tool history of a request is the array, unless it is hidden or empty. -/
theorem historyPrinted_requestArgs (env : SessionEnv) (t : GivenTurn) :
    historyPrinted (requestArgs env t.input).toolHistory =
      if env.hideToolTranscripts = true ∨ t.history.shown = [] then none
      else some t.history.json := by
  have hjson : t.input.toolHistory = t.history.json :=
    t.history_json.trans t.history.whole_toolHistoryBuildJson.text_eq
  have hne : t.history.json ≠ [] := List.cons_ne_nil _ _
  have hempty := t.history.json_eq_empty_iff
  unfold requestArgs
  dsimp only
  rw [hjson]
  by_cases hnone : env.hideToolTranscripts = true ∨ t.history.shown = []
  · rw [if_pos hnone, if_pos (hnone.imp_right fun hnil => Or.inr (hempty.mpr hnil))]
    rfl
  · rw [not_or] at hnone
    have hfull : t.history.json ≠ lit "[]" := fun heq => hnone.2 (hempty.mp heq)
    rw [if_neg (not_or.mpr hnone), if_neg (by simp [hnone.1, hne, hfull]), historyPrinted,
      Option.filter_some, if_pos (by simp [hne, hfull])]

/-- **A request** is read with its values iff what it says can be read. -/
theorem request_read_iff (env : GivenEnv) (t : GivenTurn) :
    (AgentFrame.request (requestArgs env.env t.input)).Read ↔ LegibleRequest env.env t := by
  have hpassed := requestArgs_passed env t
  have hprinted := historyPrinted_requestArgs env.env t
  have hid := (requestId_legible t.number_long).2
  have hlegible : (requestArgs env.env t.input).Legible ↔
      Utf8.Valid (t.input.input.filter isKept) ∧
        (Escapes 256 t.input.previousResponseId ∧ Utf8.Valid t.input.previousResponseId) ∧
        (Escapes 256 t.input.reasoningEffort ∧ Utf8.Valid t.input.reasoningEffort) := by
    constructor
    · intro h
      exact ⟨h.input, h.previous, h.effort⟩
    · intro h
      exact ⟨hid, h.1, h.2.1, h.2.2⟩
  by_cases hnone : env.env.hideToolTranscripts = true ∨ t.history.shown = []
  · rw [if_pos hnone] at hprinted
    rw [RequestArgs.read_iff_of_none _ hpassed hprinted, hlegible]
    constructor
    · intro h
      refine ⟨h.1, h.2.1, h.2.2, fun hshown e he => ?_⟩
      rcases hnone with hhidden | hnil
      · rw [hhidden] at hshown
        cases hshown
      · rw [hnil] at he
        cases he
    · intro h
      exact ⟨h.input, h.previous, h.effort⟩
  · rw [if_neg hnone] at hprinted
    rw [RequestArgs.read_iff_of_some _ hpassed hprinted, hlegible]
    constructor
    · intro h
      exact ⟨h.1.1, h.1.2.1, h.1.2.2, fun _ => h.2⟩
    · intro h
      have hshown : env.env.hideToolTranscripts = false := by
        rw [not_or] at hnone
        exact Bool.not_eq_true _ ▸ hnone.1
      exact ⟨⟨h.input, h.previous, h.effort⟩, h.history hshown⟩

/-- **A turn**: every frame of it is read with its values iff what it says can be
read. -/
theorem turn_read_iff (env : GivenEnv) (w : SessionWorld) (t : GivenTurn) :
    (∀ f ∈ turnFrames env.env w t.input, f.Read) ↔ LegibleTurn env.env w t := by
  constructor
  · intro h
    exact ⟨fun hmem => (request_read_iff env t).mp (h _ hmem),
      fun f hf => (session_read_iff f).mp (h _ hf)⟩
  · intro h f hf
    have hmem := (List.mem_filter.mp hf).1
    cases f with
    | session f => exact (session_read_iff f).mpr (h.sessions f hf)
    | error errorType detail =>
        refine notice_read ?_
        rcases List.mem_append.mp hmem with hmem | hmem
        · exact turnBegin_noticed env.env w t.input _ _ hmem
        · exact finalFrames_noticed env.env w t.input _ _ hmem
    | request args =>
        have hargs : args = requestArgs env.env t.input := by
          rcases List.mem_append.mp hmem with hmem | hmem
          · rcases List.mem_append.mp hmem with hmem | hmem
            · rcases (beginSession_opens env.env w t.input).frames _ hmem with
                ⟨g, hg, -⟩ | ⟨_, _, hg⟩
              · cases hg
              · cases hg
            · exact AgentFrame.request.inj (List.mem_singleton.mp hmem)
          · unfold finalFrames at hmem
            split_ifs at hmem
            · obtain ⟨stateId, hsave⟩ := saveAfterTurn_frames hmem
              cases hsave
            · cases hmem
        subst hargs
        exact (request_read_iff env t).mpr (h.request hf)

theorem no_effort_string : 0 ∉ ([] : Bytes) := List.not_mem_nil

/-- A turn of the compact route whose conversation has the id of one byte that no
UTF-8 text has. -/
def strayTurn : GivenTurn where
  input :=
    { requestNumber := 1
      input := lit "Compact the conversation context. previous_response_id=" ++ [255] ++
        lit " reasoning_effort=none"
      previousResponseId := [255], reasoningEffort := [], resetSession := false
      toolHistory := lit "[]", resetSeconds := 0, resetNanoseconds := 0, metadata := [], now := []
      saveReply := ⟨false, none⟩, openReply := ⟨false, none⟩, completes := false
      finalSaveReply := ⟨false, none⟩ }
  history := ⟨[], 20, 0, by decide, by decide, by decide, by decide⟩
  history_json := by decide +kernel
  number_long := by decide
  input_string := by decide +kernel
  previous_string := by decide +kernel
  effort_string := no_effort_string

end StarBridge
