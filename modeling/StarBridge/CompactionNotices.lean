import StarBridge.AnswerBytes

/-!
# Compaction notices of the wrapper

The ds4 wrapper shortens long directory listings and very long answers, and tells the
bridge so by an event frame, "so bridge can turn into compaction notice (like
native)".  Its frames have the kind of the notice in a member `event` and the type
`event`; the bridge looks at the type.

`notices_do_not_cross` says that no such frame is read as a compaction, whatever was
shortened: the turn passes over it as over a ping.
-/

namespace StarBridge

open CText Loops

/-! ## What the wrapper shortens -/

/-- A line or a text in the wrapper: its code points. -/
abbrev PyStr := List Char

/-- `str.isspace` of one character. -/
def isPySpace (c : Char) : Bool :=
  (9 ≤ c.toNat && c.toNat ≤ 13) || (28 ≤ c.toNat && c.toNat ≤ 32) || c.toNat == 133 ||
    c.toNat == 160 || c.toNat == 5760 || (8192 ≤ c.toNat && c.toNat ≤ 8202) ||
    c.toNat == 8232 || c.toNat == 8233 || c.toNat == 8239 || c.toNat == 8287 || c.toNat == 12288

/-- `str.strip`. -/
def PyStr.strip (s : PyStr) : PyStr :=
  ((s.dropWhile isPySpace).reverse.dropWhile isPySpace).reverse

/-- `str.split`. -/
def PyStr.split (s : PyStr) : List PyStr :=
  (s.splitOnP isPySpace).filter fun word => !word.isEmpty

/-- `_looks_like_listing_line`. -/
def looksLikeListingLine (line : PyStr) : Bool :=
  let l := PyStr.strip line
  !l.isEmpty &&
    (["drwx", "-rw", "total ", "ls:", "find:"].any (fun front => front.toList.isPrefixOf l) ||
      (["/", ".sh", ".py", ".c", ".md", ".log", ".sock", ".json"].any
          (fun part => decide (part.toList <:+: l)) &&
        decide (2 ≤ (PyStr.split l).length)))

/-- The frame `write_frame` makes of a compaction notice; its messages have nothing in
them that JSON escapes. -/
def noticeFrame (message : Bytes) : Bytes :=
  lit "\x7b\"type\":\"event\",\"event\":\"compaction.summary\",\"message\":\"" ++ message ++
    lit "\"\x7d"

/-- The notice for a listing of so many lines. -/
def listingNotice (burst : Nat) : Bytes :=
  lit "Compacted large directory listing (" ++ decimal burst ++
    lit " lines) for output limits/readability."

/-- The notice for an answer of so many characters. -/
def outputNotice (chars : Nat) : Bytes :=
  lit "Compacted very large accumulated review output (" ++ decimal chars ++
    lit " chars) for transport."

/-- The line that stands for a listing. -/
def listingSummary (burst : List PyStr) : PyStr :=
  let sample := burst.take 5 ++ ["...".toList] ++ burst.drop (burst.length - 3)
  "[compacted listing: ".toList ++ burst.length.repr.toList ++ " entries; e.g. ".toList ++
    List.intercalate "; ".toList (sample.filter fun s => !s.isEmpty) ++ " ]".toList

/-- The loop of `_compact_dir_listings`: the frames it writes and the lines it leaves.
Where a line is no listing line the loop does not get past it, and leaves nothing. -/
def compactFrom (lines : List PyStr) : List Bytes × Option (List PyStr) :=
  if lines = [] then ([], some [])
  else
    let burst := lines.takeWhile looksLikeListingLine
    if _hburst : burst = [] then ([], none)
    else
      let rest := compactFrom (lines.drop burst.length)
      if 15 < burst.length then
        (noticeFrame (listingNotice burst.length) :: rest.1, rest.2.map (listingSummary burst :: ·))
      else (rest.1, rest.2.map (burst ++ ·))
termination_by lines.length
decreasing_by
  have hpos : 0 < burst.length := List.length_pos_iff.mpr _hburst
  have hle : burst.length ≤ lines.length :=
    (List.takeWhile_prefix (l := lines) looksLikeListingLine).length_le
  show (lines.drop burst.length).length < lines.length
  rw [List.length_drop]
  omega

/-- `_compact_dir_listings`, with the value of `DS4_MAX_LISTING_LINES`. -/
def compactDirListings (maxLines : Int) (lines : List PyStr) : List Bytes × Option (List PyStr) :=
  if lines = [] ∨ (lines.length : Int) ≤ maxLines then ([], some lines) else compactFrom lines

/-- What `main` does with the text of a turn before it writes the response. -/
def compactOutput (fullOutput : PyStr) : List Bytes × PyStr :=
  if 20000 < fullOutput.length then
    ([noticeFrame (outputNotice fullOutput.length)],
      fullOutput.take 8000 ++ "\n\n[... large exploration output compacted ...]\n\n".toList ++
        fullOutput.drop (fullOutput.length - 8000))
  else ([], fullOutput)

/-- A notice the wrapper writes, for the lines of a turn or for its text. -/
def IsNotice (message : Bytes) : Prop :=
  (∃ maxLines lines, noticeFrame message ∈ (compactDirListings maxLines lines).1) ∨
    ∃ fullOutput, noticeFrame message ∈ (compactOutput fullOutput).1

/-- A turn with nothing but a long listing is told in one notice. -/
theorem compactDirListings_listing {maxLines : Int} {lines : List PyStr}
    (hmax : maxLines < lines.length) (hlong : 15 < lines.length)
    (hall : ∀ line ∈ lines, looksLikeListingLine line = true) :
    (compactDirListings maxLines lines).1 = [noticeFrame (listingNotice lines.length)] := by
  have hne : lines ≠ [] := List.length_pos_iff.mp (by omega)
  have hburst : lines.takeWhile looksLikeListingLine = lines := List.takeWhile_eq_self_iff.mpr hall
  have hdone : compactFrom [] = ([], some []) := by
    rw [compactFrom]
    rfl
  have hshort : ¬ (lines = [] ∨ (lines.length : Int) ≤ maxLines) := by
    rintro (hnil | hle)
    · exact hne hnil
    · omega
  rw [compactDirListings, if_neg hshort, compactFrom, if_neg hne]
  dsimp only
  rw [hburst, dif_neg hne, if_pos hlong, List.drop_length, hdone]

/-! ## The frames -/

theorem plainText_append {front rest : Bytes} (hfront : CJson.PlainText front)
    (hrest : CJson.PlainText rest) : CJson.PlainText (front ++ rest) :=
  List.forall_mem_append.mpr ⟨hfront, hrest⟩

theorem plainText_listingNotice (burst : Nat) : CJson.PlainText (listingNotice burst) :=
  plainText_append (plainText_append (by decide) (CJson.plainText_decimal burst))
    (by decide)

theorem plainText_outputNotice (chars : Nat) : CJson.PlainText (outputNotice chars) :=
  plainText_append (plainText_append (by decide) (CJson.plainText_decimal chars))
    (by decide)

/-- A message is the one its frame was made for. -/
theorem noticeFrame_inj {message message' : Bytes}
    (h : noticeFrame message = noticeFrame message') : message = message' :=
  List.append_cancel_left (List.append_cancel_right h)

/-- The frames of the loop are notices for listings. -/
theorem compactFrom_frames (lines : List PyStr) :
    ∀ frame ∈ (compactFrom lines).1, ∃ burst, frame = noticeFrame (listingNotice burst) := by
  induction lines using compactFrom.induct with
  | case1 =>
      rw [compactFrom]
      simp
  | case2 lines hne burst hburst =>
      rw [compactFrom, if_neg hne]
      simp [burst, hburst]
  | case3 lines hne burst hburst hlong ih =>
      rw [compactFrom, if_neg hne]
      dsimp only
      rw [dif_neg hburst, if_pos hlong]
      exact List.forall_mem_cons.mpr ⟨⟨_, rfl⟩, ih⟩
  | case4 lines hne burst hburst hshort ih =>
      rw [compactFrom, if_neg hne]
      dsimp only
      rw [dif_neg hburst, if_neg hshort]
      exact ih

/-- What notices say: how long a listing was, or an answer. -/
theorem isNotice_cases {message : Bytes} (h : IsNotice message) :
    (∃ burst, message = listingNotice burst) ∨ ∃ chars, message = outputNotice chars := by
  rcases h with ⟨maxLines, lines, hframe⟩ | ⟨fullOutput, hframe⟩
  · unfold compactDirListings at hframe
    split at hframe
    · cases hframe
    · obtain ⟨burst, heq⟩ := compactFrom_frames lines _ hframe
      exact Or.inl ⟨burst, noticeFrame_inj heq⟩
  · unfold compactOutput at hframe
    split at hframe
    · exact Or.inr ⟨_, noticeFrame_inj (List.mem_singleton.mp hframe)⟩
    · cases hframe

theorem plainText_of_isNotice {message : Bytes} (h : IsNotice message) :
    CJson.PlainText message := by
  rcases isNotice_cases h with ⟨burst, rfl⟩ | ⟨chars, rfl⟩
  · exact plainText_listingNotice burst
  · exact plainText_outputNotice chars

/-- How the bridge parses the frame of a notice. -/
theorem parse_noticeFrame {message : Bytes} (h : CJson.PlainText message) :
    CJson.parse (noticeFrame message) =
      some (.object [(lit "type", .string (lit "event")),
        (lit "event", .string (lit "compaction.summary")), (lit "message", .string message)]) := by
  let members : List (Bytes × CJson × Bytes) :=
    [(lit "type", .string (lit "event"), CJson.quoted (lit "event")),
      (lit "event", .string (lit "compaction.summary"), CJson.quoted (lit "compaction.summary")),
      (lit "message", .string message, CJson.quoted message)]
  have hprinted : noticeFrame message = 123 :: CJson.printedMembers [] members := by
    simp [noticeFrame, members, CJson.printedMembers, CJson.quoted, h.escapeAll, lit, escapeByte]
  have hreads : ∀ m ∈ members, CJson.Reads 1 m.2.1 m.2.2 := by
    simp only [members, List.forall_mem_cons, List.not_mem_nil, false_implies,
      implies_true, and_true]
    exact ⟨CJson.reads_string _ _, CJson.reads_string _ _, CJson.reads_string _ _⟩
  have hplain : ∀ m ∈ members, 0 ∉ m.1 ∧ 0 ∉ m.2.2 := by
    simp only [members, List.forall_mem_cons, List.not_mem_nil, false_implies,
      implies_true, and_true]
    exact ⟨⟨by decide, by decide⟩, ⟨by decide, by decide⟩,
      ⟨by decide, CJson.zero_not_mem_quoted h.zero_not_mem⟩⟩
  have hparse := CJson.parse_printedMembers (Or.inl (rfl : ([] : Bytes) = []))
    (by simp [members]) hreads hplain
  rw [List.nil_append, List.append_nil, ← hprinted] at hparse
  exact hparse

/-- **What the bridge makes of a notice**: an event of a type it does not know. -/
theorem nativeParseFrame_noticeFrame (parser : ParserEnv) {message : Bytes}
    (h : CJson.PlainText message) :
    (nativeParseFrame parser (noticeFrame message)).type = .unknown ∧
      (nativeParseFrame parser (noticeFrame message)).id = [] := by
  unfold nativeParseFrame
  rw [parse_noticeFrame h]
  exact ⟨rfl, rfl⟩

/-- The frame has the text by which the event loop tells events apart. -/
theorem isEventTagged_noticeFrame {message : Bytes} (h : CJson.PlainText message) :
    isEventTagged (noticeFrame message) = true := by
  have hsplit : noticeFrame message = lit "\x7b" ++ lit "\"type\":\"event\"" ++
      (lit ",\"event\":\"compaction.summary\",\"message\":\"" ++ message ++ lit "\"\x7d") := by
    simp [noticeFrame, lit]
  have hzero : 0 ∉ noticeFrame message := by
    rw [noticeFrame, List.mem_append, List.mem_append]
    rintro ((hmem | hmem) | hmem)
    · exact absurd hmem (by decide)
    · exact h.zero_not_mem hmem
    · exact absurd hmem (by decide)
  rw [isEventTagged, occurs_iff, show cstr (noticeFrame message) = _ from upTo_eq_self hzero]
  exact ⟨_, _, hsplit.symm⟩

/-! ## In a turn -/

/-- A notice crosses the protocol: its frame is read as a compaction, and wherever a
turn that returns true has read it, its message is in the text of that turn. -/
structure NoticeCrosses (env : TurnEnv) (message : Bytes) : Prop where
  classified : (nativeParseFrame env.parser (noticeFrame message)).type = .compaction
  delivered : ∀ stream before after r,
    (∃ s, turnProcessEvents env (freshTurn stream) before = .running s) →
    turnProcessEvents env (freshTurn stream) (before ++ .frame (noticeFrame message) :: after) =
      .ended r → r.outcome.ok = true → occurs message r.state.outBuf = true

/-- A turn passes over a notice: it counts it, and takes it for a sign of life. -/
theorem turnEvent_notice (env : TurnEnv) (s : TurnState) {message : Bytes}
    (h : CJson.PlainText message) :
    turnEvent env s (.frame (noticeFrame message)) =
      settle env { s.beat with remainingTimeout := env.fullTimeout }.count := by
  obtain ⟨htype, hid⟩ := nativeParseFrame_noticeFrame env.parser h
  have hmine : ¬ IsForeign env (noticeFrame message) := fun hforeign => hforeign.1 hid
  show (frameEvent env s (noticeFrame message)).bind (settle env) = _
  rw [frameEvent_of_mine hmine]
  unfold dispatchEvent
  rw [htype]
  dsimp only
  rw [if_pos (Or.inl (isEventTagged_noticeFrame h)), Progress.bind_running]

/-- **No notice crosses the protocol.**  Whatever the wrapper has shortened, the frame
that says so is not read as a compaction, and a turn goes on from it with the text and
the notices it had. -/
theorem notices_do_not_cross (env : TurnEnv) {message : Bytes} (h : IsNotice message) :
    ¬ NoticeCrosses env message ∧
      ∀ s s', turnEvent env s (.frame (noticeFrame message)) = .running s' →
        s'.outBuf = s.outBuf ∧ s'.eventPrefix = s.eventPrefix := by
  have hplain := plainText_of_isNotice h
  refine ⟨fun hcrosses => ?_, fun s s' hround => ?_⟩
  · have htype := (nativeParseFrame_noticeFrame env.parser hplain).1
    exact nomatch htype.symm.trans hcrosses.classified
  · rw [turnEvent_notice env s hplain] at hround
    obtain ⟨rfl, -⟩ := settle_eq_running hround
    exact ⟨rfl, rfl⟩

/-- A listing of 101 files. -/
def fileListing : List PyStr := List.replicate 101 "-rw a".toList

theorem fileListing_frames :
    (compactDirListings 100 fileListing).1 = [noticeFrame (listingNotice 101)] := by
  have hall : ∀ line ∈ fileListing, looksLikeListingLine line = true := by
    intro line hline
    rw [List.eq_of_mem_replicate hline]
    decide
  have hlength : fileListing.length = 101 := List.length_replicate
  have hmax : (100 : Int) < fileListing.length := by
    rw [hlength]
    decide
  have hframes := compactDirListings_listing hmax (by omega) hall
  rw [hlength] at hframes
  exact hframes

/-- The notice for it reaches no text. -/
theorem notices_do_not_cross_listing :
    IsNotice (listingNotice 101) ∧ ¬ NoticeCrosses sampleTurnEnv (listingNotice 101) := by
  have hnotice : IsNotice (listingNotice 101) :=
    Or.inl ⟨100, fileListing, fileListing_frames ▸ List.mem_singleton_self _⟩
  exact ⟨hnotice, (notices_do_not_cross sampleTurnEnv hnotice).1⟩

/-- The wrapper writes a notice for the listing, and the bridge takes it for an event
of a type it does not know. -/
theorem listing_notice_unknown :
    ∃ message, noticeFrame message ∈ (compactDirListings 100 fileListing).1 ∧
      ¬ NoticeCrosses sampleTurnEnv message := by
  refine ⟨listingNotice 101, fileListing_frames ▸ List.mem_singleton_self _, fun hcrosses => ?_⟩
  have htype :=
    (nativeParseFrame_noticeFrame sampleTurnEnv.parser (plainText_listingNotice 101)).1
  exact nomatch htype.symm.trans hcrosses.classified

end StarBridge
