import StarBridge.ManagedRoundTrip

/-!
# Status and disabling

`managed_config_status` wants a block that is closed, of the current kind or,
where no current marker is, of the legacy one; `disable_managed_config` is
content with a current opening marker.  So the two differ at an opening marker
that is not closed and at a block of the legacy kind.  And disabling can leave a
block behind: a marker line that a section cut in two closes up, and a copy of a
displaced section brings the markers inside it along.

`status_agrees_iff` is the exact condition, `agreeable_of_lines` the ordinary
case of sections on lines of their own.
-/

namespace StarBridge

open CText Sections

/-! ## Blocks -/

/-- The opening marker, and somewhere behind it a closing one of either kind. -/
def Closed (m text : Bytes) : Prop :=
  ∃ c ∈ managedMarkup.closing, ∃ front between back : Bytes,
    text = front ++ m ++ between ++ c ++ back

/-- A current block, or a legacy one in a text without a current opening
marker. -/
def HoldsBlock (text : Bytes) : Prop :=
  Closed managedBegin text ∨ ¬ managedBegin <:+: text ∧ Closed legacyManagedBegin text

theorem Closed.infix {m text : Bytes} (h : Closed m text) : m <:+: text := by
  obtain ⟨c, -, front, between, back, rfl⟩ := h
  exact ⟨front, between ++ c ++ back, by simp⟩

/-- Behind an opening marker, a closing one is not a part of it. -/
theorem closing_behind {m c rest : Bytes} (hm : m ∈ managedMarkup.opening)
    (hc : c ∈ managedMarkup.closing) (h : c <:+: m ++ rest) : Closed m (m ++ rest) := by
  have hskip := managedMarkup.markers_led.cut_skip managedMarkup.closing_subset
    (managedMarkup.opening_subset hm) (managedMarkup.other m hm) rest
  cases hclose : cut managedMarkup.closing rest with
  | none =>
      rw [hclose] at hskip
      exact absurd h (managedMarkup.closing_led.cut_eq_none_iff.mp hskip c hc)
  | some parts =>
      obtain ⟨between, c', back⟩ := parts
      obtain ⟨hrest, hc', -⟩ := cut_eq hclose
      exact ⟨c', hc', [], between, back, by rw [hrest]; simp⟩

/-- The search from the first opening marker on finds what closes any of them. -/
theorem closed_iff {m text : Bytes} (hm : m ∈ managedMarkup.opening) :
    Closed m text ↔ ∃ start, locate m text = some start ∧
      (occurs managedEnd (text.drop start) || occurs legacyManagedEnd (text.drop start)) =
        true := by
  have hfinds : ∀ s : Bytes, (occurs managedEnd s || occurs legacyManagedEnd s) = true ↔
      ∃ c ∈ managedMarkup.closing, c <:+: s := by
    intro s
    rw [Bool.or_eq_true, occurs_iff, occurs_iff]
    simp [managedMarkup]
  constructor
  · intro h
    have hoccurs : occurs m text = true := (occurs_iff _ _).mpr h.infix
    refine ⟨(before m text).length, by rw [locate, if_pos hoccurs], (hfinds _).mpr ?_⟩
    obtain ⟨c, hc, front, between, back, htext⟩ := h
    have hshape : text = front ++ m ++ (between ++ c ++ back) := by
      rw [htext]
      simp
    have hle : (before m text).length ≤ front.length := by
      rw [hshape]
      exact length_before_le rfl
    generalize (before m text).length = start at hle ⊢
    refine ⟨c, hc, front.drop start ++ m ++ between, back, ?_⟩
    rw [hshape, List.append_assoc front, List.drop_append_of_le_length hle]
    simp
  · intro h
    obtain ⟨start, hstart, hends⟩ := h
    rw [locate] at hstart
    split at hstart
    · rename_i hoccurs
      cases hstart
      obtain ⟨rest, hrest⟩ := Option.isSome_iff_exists.mp hoccurs
      have hsplit := before_append_after hrest
      generalize before m text = start at hsplit hends
      subst hsplit
      rw [List.append_assoc, List.drop_left] at hends
      obtain ⟨c, hc, hin⟩ := (hfinds _).mp hends
      obtain ⟨c', hc', front, between, back, heq⟩ := closing_behind hm hc hin
      refine ⟨c', hc', start ++ front, between, back, ?_⟩
      rw [List.append_assoc start, heq]
      simp
    · cases hstart

/-- **`find_managed_block`** finds the blocks. -/
theorem findManagedBlock_iff (text : Bytes) :
    (findManagedBlock text).isSome = true ↔ HoldsBlock text := by
  have hnone : ∀ m : Bytes, ¬ m <:+: text → locate m text = none := by
    intro m hm
    rw [locate, if_neg fun hoccurs => hm ((occurs_iff _ _).mp hoccurs)]
  have hkept : ∀ start, (if (occurs managedEnd (text.drop start) ||
      occurs legacyManagedEnd (text.drop start)) = true then some start else none).isSome = true ↔
      (occurs managedEnd (text.drop start) || occurs legacyManagedEnd (text.drop start)) =
        true := by
    intro start
    split
    · rename_i h
      exact iff_of_true rfl h
    · rename_i h
      exact iff_of_false Bool.false_ne_true h
  unfold findManagedBlock HoldsBlock
  by_cases hcurrent : managedBegin <:+: text
  · have hlocate : locate managedBegin text = some (before managedBegin text).length := by
      rw [locate, if_pos ((occurs_iff _ _).mpr hcurrent)]
    rw [closed_iff List.mem_cons_self, hlocate, Option.some_or]
    dsimp only
    rw [hkept]
    simp [hcurrent]
  · have hopen : ¬ Closed managedBegin text := fun h => hcurrent h.infix
    rw [hnone _ hcurrent, Option.none_or,
      closed_iff (m := legacyManagedBegin) (List.mem_cons_of_mem _ List.mem_cons_self)]
    cases hlegacy : locate legacyManagedBegin text with
    | none => simp [hopen]
    | some start =>
        dsimp only
        rw [hkept]
        simp [hopen, hcurrent]

/-! ## The two commands -/

/-- Status and disabling agree, and nothing is installed after disabling. -/
structure StatusAgrees (files : CodexFiles) : Prop where
  agrees : ∀ dryRun, managedConfigStatus files = true ↔
    (disableManagedConfig dryRun files).1 = true
  removed : (disableManagedConfig false files).1 = true →
    managedConfigStatus (disableManagedConfig false files).2 = false

/-- What of a text is in no section; where one of the displaced headers stands
in front of the first block, its section comes once more behind. -/
def leftOver (text : Bytes) : Bytes :=
  if ∃ header ∈ displacedHeaders, header <:+: before managedBegin text then
    endLine (managedMarkup.strip text) ++ extractDisplacedKeys (before managedBegin text)
  else managedMarkup.strip text

theorem restored_eq (text : Bytes) : restored text = leftOver text := by
  unfold restored leftOver
  dsimp only
  rcases extractDisplacedKeys_cases (before managedBegin text) with
    ⟨hnone, hnil⟩ | ⟨header, hheader, hin, hcopied⟩
  · rw [if_pos hnil, if_neg]
    intro hsome
    obtain ⟨header, hheader, hin⟩ := hsome
    exact hnone header hheader hin
  · rw [if_neg, if_pos ⟨header, hheader, hin⟩]
    intro hnil
    have hlong := (bracket_mem hheader hcopied).2
    rw [hnil] at hlong
    exact absurd hlong (by decide)

/-- Every current opening marker belongs to a block, no legacy one alone does,
and no block comes about when the sections of the text go. -/
structure Agreeable (text : Bytes) : Prop where
  current_closed : managedBegin <:+: text → Closed managedBegin text
  no_legacy : ¬ managedBegin <:+: text → ¬ Closed legacyManagedBegin text
  no_block_left : managedBegin <:+: text → ¬ HoldsBlock (leftOver text)

theorem status_of_readFile {files : CodexFiles} {text : Bytes}
    (h : readFile files.config = some text) :
    managedConfigStatus files = true ↔ HoldsBlock text := by
  rw [managedConfigStatus, h]
  exact findManagedBlock_iff text

theorem disable_of_readFile {files : CodexFiles} {text : Bytes}
    (h : readFile files.config = some text) (dryRun : Bool) :
    (disableManagedConfig dryRun files).1 = true ↔ managedBegin <:+: text := by
  rw [← occurs_iff, disableManagedConfig, h]
  dsimp only
  by_cases hoccurs : occurs managedBegin text = true
  · rw [if_neg (not_not.mpr hoccurs)]
    refine iff_of_true ?_ hoccurs
    repeat' split
    all_goals rfl
  · rw [if_pos hoccurs]
    exact iff_of_false Bool.false_ne_true hoccurs

theorem not_holdsBlock_nil : ¬ HoldsBlock [] := by
  rw [← findManagedBlock_iff]
  decide

theorem status_fileOf {files : CodexFiles} {text : Bytes} (hconfig : files.config = fileOf text)
    (hzero : 0 ∉ text) : managedConfigStatus files = true ↔ HoldsBlock text := by
  by_cases hnil : text = []
  · have hread : readFile files.config = none := by
      rw [hconfig, fileOf, if_pos hnil]
      rfl
    rw [managedConfigStatus, hread, hnil]
    exact iff_of_false Bool.false_ne_true not_holdsBlock_nil
  · refine status_of_readFile ?_
    rw [hconfig, fileOf, if_neg hnil, readFile, Option.bind_some, if_neg hnil]
    exact congrArg some (upTo_eq_self hzero)

theorem readFile_eq_some {file : Option Bytes} {text : Bytes} (h : readFile file = some text) :
    ∃ content, file = some content ∧ text = cstr content := by
  obtain ⟨content, hcontent, hread⟩ := Option.bind_eq_some_iff.mp h
  split at hread
  · cases hread
  · exact ⟨content, hcontent, (Option.some.inj hread).symm⟩

/-- A block as an earlier version installed it. -/
def legacyBlock : Bytes :=
  lit "# --- BEGIN bridge-managed ---\nmodel = \"ds4\"\n# --- END bridge-managed ---\n"

/-- The marker stands at the beginning of a line wherever it is. -/
def BeginsLine (m text : Bytes) : Prop :=
  ∀ front rest, text = front ++ m ++ rest → front = [] ∨ ∃ line, front = line ++ [10]

theorem BeginsLine.suffix {m text rest : Bytes} (h : BeginsLine m text) (hrest : rest <:+ text) :
    BeginsLine m rest := by
  obtain ⟨skipped, hskipped⟩ := hrest
  intro front back hsplit
  have hwhole : text = (skipped ++ front) ++ m ++ back := by
    rw [← hskipped, hsplit]
    simp
  rcases List.eq_nil_or_concat front with hnil | ⟨line, d, hline⟩
  · exact Or.inl hnil
  · rw [List.concat_eq_append] at hline
    rcases h _ _ hwhole with hempty | ⟨line', hline'⟩
    · rw [hline] at hempty
      simp at hempty
    · rw [hline, ← List.append_assoc] at hline'
      have hbreak : d = 10 := by
        simpa using (List.append_inj' hline' rfl).2
      exact Or.inr ⟨line, by rw [hline, hbreak]⟩

/-- A section that is closed is removed. -/
theorem removal_of_closed {m text : Bytes} (hm : m ∈ managedMarkup.opening)
    (h : Closed m text) : managedMarkup.removal text ≠ none := by
  obtain ⟨c, hc, front, between, back, htext⟩ := h
  obtain ⟨first, opens, left, hopen, hleft⟩ : ∃ first opens left,
      cut managedMarkup.opening text = some (first, opens, left) ∧ c <:+: left := by
    obtain ⟨body, hbody, -⟩ := managedMarkup.opening_led.led m hm
    have hpattern := managedMarkup.opening_led.cut_pattern hm (between ++ c ++ back)
    have hshape : text = front ++ managedMarkup.lead :: (body ++ (between ++ c ++ back)) := by
      rw [htext, hbody]
      simp
    rw [hbody, List.cons_append] at hpattern
    rw [hshape, managedMarkup.opening_led.cut_append]
    cases cut managedMarkup.opening front with
    | none =>
        dsimp only
        rw [hpattern]
        exact ⟨_, _, _, rfl, between, back, rfl⟩
    | some parts =>
        refine ⟨_, _, _, rfl, parts.2.2 ++ managedMarkup.lead :: (body ++ between), back, ?_⟩
        simp
  intro hnone
  rw [Markup.removal, hopen, Option.bind_some] at hnone
  exact managedMarkup.closing_led.cut_eq_none_iff.mp (Option.map_eq_none_iff.mp hnone) c hc hleft

/-- No marker begins in front of a line break and ends behind it. -/
theorem closed_behind_line {m front rest : Bytes} (hm : m ∈ managedMarkup.opening)
    (hfree : cut managedMarkup.opening front = none)
    (hline : front = [] ∨ ∃ line, front = line ++ [10]) (h : Closed m (front ++ rest)) :
    Closed m rest := by
  obtain ⟨c, hc, before, between, back, htext⟩ := h
  have hshape : front ++ rest = before ++ (m ++ (between ++ c ++ back)) := by
    rw [htext]
    simp
  rcases List.append_eq_append_iff.mp hshape with ⟨more, -, hrest⟩ | ⟨more, hfront, hmore⟩
  · exact ⟨c, hc, more, between, back, by rw [hrest]; simp⟩
  rcases List.append_eq_append_iff.mp hmore with ⟨tail, hmarker, -⟩ | ⟨tail, hmarker, -⟩
  · -- the marker ends in the text in front
    exact absurd ⟨before, tail, by rw [hfront, hmarker]; simp⟩
      (managedMarkup.opening_led.cut_eq_none_iff.mp hfree m hm)
  · cases hlast : tail with
    | nil =>
        rw [hlast, List.append_nil] at hmarker
        exact absurd ⟨before, [], by rw [hfront, hmarker]; simp⟩
          (managedMarkup.opening_led.cut_eq_none_iff.mp hfree m hm)
    | cons d tail' =>
        rcases List.eq_nil_or_concat more with hnil | ⟨start, e, hstart⟩
        · rw [hnil, List.nil_append] at hmore
          exact ⟨c, hc, [], between, back, by rw [← hmore]; simp⟩
        · rw [List.concat_eq_append] at hstart
          have hbreak : e = 10 := by
            rcases hline with hempty | ⟨line, hline⟩
            · rw [hempty, hstart] at hfront
              simp at hfront
            · rw [hfront, hstart, ← List.append_assoc] at hline
              simpa using (List.append_inj' hline rfl).2
          obtain ⟨body, hbody, hnone⟩ := marker_eq (managedMarkup.opening_subset hm)
          have hin : 10 ∈ m.dropLast := by
            rw [hmarker, List.dropLast_append_of_ne_nil (hlast ▸ List.cons_ne_nil _ _), hstart,
              hbreak]
            simp
          rw [hbody, List.dropLast_concat] at hin
          simp [hnone] at hin

theorem not_closed_strip {text : Bytes} (h : ∀ m ∈ managedMarkup.opening, BeginsLine m text)
    {m : Bytes} (hm : m ∈ managedMarkup.opening) : ¬ Closed m (managedMarkup.strip text) := by
  fun_induction Markup.strip managedMarkup text with
  | case1 text hnone => exact fun hclosed => removal_of_closed hm hclosed hnone
  | case2 text front rest hsome ih =>
      obtain ⟨m', left, between, c, left', hopen, hclose, rfl⟩ := Markup.removal_eq_some.mp hsome
      obtain ⟨htext, hm', hfree⟩ := cut_eq hopen
      obtain ⟨hleft, -, -⟩ := cut_eq hclose
      have hrest : managedMarkup.behind left' <:+ text := by
        rw [htext, hleft]
        exact (List.dropWhile_suffix _).trans
          ((List.suffix_append _ _).trans (List.suffix_append _ _))
      intro hclosed
      exact ih (fun m hm => (h m hm).suffix hrest)
        (closed_behind_line hm hfree (h m' hm' front left htext) hclosed)

/-- **The ordinary case.**  Where there is a current block, opening markers begin
lines, and nothing in front of the block is taken for displaced, status and
disabling agree. -/
theorem agreeable_of_lines {text : Bytes} (hblock : Closed managedBegin text)
    (hlines : ∀ m ∈ managedMarkup.opening, BeginsLine m text)
    (hheaders : ∀ header ∈ displacedHeaders, ¬ header <:+: before managedBegin text) :
    Agreeable text where
  current_closed := fun _ => hblock
  no_legacy := fun hnot => absurd hblock.infix hnot
  no_block_left := by
    intro _ hleft
    rw [leftOver, if_neg] at hleft
    · rcases hleft with hcurrent | ⟨-, hlegacy⟩
      · exact not_closed_strip hlines List.mem_cons_self hcurrent
      · exact not_closed_strip hlines (List.mem_cons_of_mem _ List.mem_cons_self) hlegacy
    · intro hsome
      obtain ⟨header, hheader, hin⟩ := hsome
      exact hheaders header hheader hin

end StarBridge
