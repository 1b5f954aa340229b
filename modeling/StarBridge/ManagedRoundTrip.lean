import StarBridge.ManagedInstall

/-!
# Installing and disabling again

`disable_managed_config` removes the sections and appends copies of the
sections it believes to have been displaced, which it looks for in front of the
block.  Installation displaces nothing, though: such sections are still there,
and come out twice.  So a file comes back from an installation and its undoing,
up to a line break at the end, iff it has none of these sections, no terminator,
and does not end in a marker line that lacks its line break
(`round_trip_iff`).
-/

namespace StarBridge

open CText Sections

/-! ## Displaced sections -/

/-- The headers `extract_displaced_keys` looks for. -/
def displacedHeaders : List Bytes :=
  [modelHeader, legacyModelHeader, providerHeader, legacyProviderHeader]

theorem header_spec {header : Bytes} (h : header ∈ displacedHeaders) :
    (∃ more, header = 91 :: more) ∧ 2 ≤ header.length ∧ 10 ∉ header ∧ 0 ∉ header := by
  have hall : ∀ header ∈ displacedHeaders,
      header = 91 :: header.tail ∧ 2 ≤ header.length ∧ 10 ∉ header ∧ 0 ∉ header := by
    decide
  exact ⟨⟨header.tail, (hall header h).1⟩, (hall header h).2⟩

/-- No section is copied iff neither header is there, and else its header is. -/
theorem displacedSection_cases (header legacyHeader text : Bytes) :
    (¬ header <:+: text ∧ ¬ legacyHeader <:+: text ∧
        displacedSection header legacyHeader text = []) ∨
      ∃ found, (found = header ∨ found = legacyHeader) ∧ found <:+: text ∧
        found <:+: displacedSection header legacyHeader text := by
  unfold displacedSection
  dsimp only
  by_cases hheader : occurs header text = true
  · obtain ⟨rest, hrest⟩ := Option.isSome_iff_exists.mp hheader
    refine Or.inr ⟨header, Or.inl rfl, (occurs_iff _ _).mp hheader, ?_⟩
    rw [if_pos hheader, hrest]
    exact ⟨_, _, rfl⟩
  · rw [if_neg hheader]
    have hnot : ¬ header <:+: text := fun hin => hheader ((occurs_iff _ _).mpr hin)
    cases hafter : after legacyHeader text with
    | none =>
        refine Or.inl ⟨hnot, ?_, rfl⟩
        intro hin
        have hoccurs := (occurs_iff _ _).mpr hin
        rw [occurs, hafter] at hoccurs
        cases hoccurs
    | some rest =>
        have hoccurs : occurs legacyHeader text = true := by rw [occurs, hafter]; rfl
        exact Or.inr ⟨legacyHeader, Or.inr rfl, (occurs_iff _ _).mp hoccurs, _, _, rfl⟩

/-- **Nothing is copied** iff none of the headers is there; and what is copied
has its header. -/
theorem extractDisplacedKeys_cases (text : Bytes) :
    ((∀ header ∈ displacedHeaders, ¬ header <:+: text) ∧ extractDisplacedKeys text = []) ∨
      ∃ header ∈ displacedHeaders, header <:+: text ∧
        header <:+: extractDisplacedKeys text := by
  unfold extractDisplacedKeys
  rcases displacedSection_cases modelHeader legacyModelHeader text with
    ⟨hmodel, hlegacyModel, hnone⟩ | ⟨found, hfound, hin, hcopied⟩
  · rcases displacedSection_cases providerHeader legacyProviderHeader text with
      ⟨hprovider, hlegacyProvider, hnone'⟩ | ⟨found, hfound, hin, hcopied⟩
    · refine Or.inl ⟨?_, by rw [hnone, hnone']; rfl⟩
      intro header hheader
      simp only [displacedHeaders, List.mem_cons, List.not_mem_nil, or_false] at hheader
      rcases hheader with rfl | rfl | rfl | rfl
      · exact hmodel
      · exact hlegacyModel
      · exact hprovider
      · exact hlegacyProvider
    · refine Or.inr ⟨found, ?_, hin, hcopied.trans (List.suffix_append _ _).isInfix⟩
      rcases hfound with rfl | rfl
      · simp [displacedHeaders]
      · simp [displacedHeaders]
  · refine Or.inr ⟨found, ?_, hin, hcopied.trans (List.prefix_append _ _).isInfix⟩
    rcases hfound with rfl | rfl
    · simp [displacedHeaders]
    · simp [displacedHeaders]

theorem mem_of_mem_displacedSection {header legacyHeader text : Bytes} {c : UInt8}
    (hbreak : c ≠ 10) (hheader : c ∉ header) (hlegacy : c ∉ legacyHeader)
    (h : c ∈ displacedSection header legacyHeader text) : c ∈ text := by
  unfold displacedSection at h
  dsimp only at h
  have hfound : c ∉ if occurs header text = true then header else legacyHeader := by
    split
    · exact hheader
    · exact hlegacy
  generalize (if occurs header text = true then header else legacyHeader) = found at h hfound
  cases hafter : after found text with
  | none =>
      rw [hafter] at h
      cases h
  | some rest =>
      rw [hafter] at h
      have hsplit := before_append_after hafter
      rcases List.mem_append.mp h with h | h
      · rcases List.mem_append.mp h with h | h
        · have hfront : c ∈ before found text := by
            have hin := (List.takeWhile_sublist _).subset (List.mem_reverse.mp h)
            exact List.mem_reverse.mp hin
          exact (before_isFront found text).subset hfront
        · exact absurd h hfound
      · have hrest : c ∈ rest := by
          unfold sectionRest at h
          split at h
          · rcases List.mem_append.mp h with h | h
            · exact (before_isFront _ rest).subset h
            · exact absurd (List.mem_singleton.mp h) hbreak
          · exact h
        rw [← hsplit]
        exact List.mem_append_right _ hrest

theorem zero_not_mem_extractDisplacedKeys {text : Bytes} (h : 0 ∉ text) :
    0 ∉ extractDisplacedKeys text := by
  have hheaders : ∀ header ∈ displacedHeaders, 0 ∉ header := fun header hmem =>
    (header_spec hmem).2.2.2
  intro hmem
  refine h ?_
  rcases List.mem_append.mp hmem with hmem | hmem
  · exact mem_of_mem_displacedSection (by decide) (hheaders _ (by simp [displacedHeaders]))
      (hheaders _ (by simp [displacedHeaders])) hmem
  · exact mem_of_mem_displacedSection (by decide) (hheaders _ (by simp [displacedHeaders]))
      (hheaders _ (by simp [displacedHeaders])) hmem

/-! ## Disabling -/

/-- What disabling makes of the text C sees in the file. -/
def restored (text : Bytes) : Bytes :=
  let displaced := extractDisplacedKeys (before managedBegin text)
  let cleaned := managedMarkup.strip text
  if displaced = [] then cleaned else endLine cleaned ++ displaced

/-- A file with the text, or none for an empty one. -/
def fileOf (text : Bytes) : Option Bytes := if text = [] then none else some text

/-- The files after a disabling. -/
def afterDisable (files : CodexFiles) : CodexFiles := (disableManagedConfig false files).2

/-- **What disabling does**, where it finds a block. -/
theorem disable_config {files : CodexFiles} {content : Bytes} (h : files.config = some content)
    (hfound : occurs managedBegin (cstr content) = true) :
    (afterDisable files).config = fileOf (restored (cstr content)) := by
  have hne : content ≠ [] := by
    rintro rfl
    exact absurd hfound (by decide)
  have htext : cstr content ≠ [] := by
    intro hnil
    rw [hnil] at hfound
    exact absurd hfound (by decide)
  have hcstr : cstr (cstr content) = cstr content := upTo_eq_self (stop_not_mem_upTo 0 content)
  have hread : readFile files.config = some (cstr content) := by
    rw [readFile, h, Option.bind_some, if_neg hne]
  have hbackup : readFile (some (cstr content)) = some (cstr content) := by
    rw [readFile, Option.bind_some, if_neg htext, hcstr]
  unfold afterDisable disableManagedConfig
  rw [hread]
  dsimp only
  rw [if_neg (not_not.mpr hfound), hbackup, removeAllManagedSections_eq]
  rw [if_neg (by decide), fileOf, restored]
  dsimp only
  split
  · split
    · rfl
    · rfl
  · split
    · rfl
    · rfl

/-! ## The round trip -/

/-- What is in front of the first place of a pattern. -/
theorem before_of_cut {pattern : Bytes} {s front p rest : Bytes}
    (h : cut [pattern] s = some (front, p, rest)) : before pattern s = front := by
  induction s generalizing front with
  | nil => cases h
  | cons c s ih =>
      rw [cut] at h
      rw [before]
      by_cases hprefix : pattern.isPrefixOf (c :: s) = true
      · have hfind : [pattern].find? (·.isPrefixOf (c :: s)) = some pattern :=
          List.find?_cons_of_pos hprefix
        rw [hfind] at h
        rw [if_pos hprefix]
        cases h
        rfl
      · have hfind : [pattern].find? (·.isPrefixOf (c :: s)) = none := by
          simp [List.find?, hprefix]
        rw [hfind] at h
        rw [if_neg hprefix]
        obtain ⟨⟨front', p', rest'⟩, hcut, heq⟩ := Option.map_eq_some_iff.mp h
        cases heq
        rw [ih hcut]

theorem infix_endLine {pattern text : Bytes} (hbreak : 10 ∉ pattern) (hne : pattern ≠ [])
    (h : pattern <:+: endLine text) : pattern <:+: text := by
  rcases endLine_cases text with heq | ⟨-, -, heq⟩
  · rwa [heq] at h
  · rw [heq] at h
    obtain ⟨front, back, hsplit⟩ := h
    rcases List.eq_nil_or_concat back with hback | ⟨back', d, hback⟩
    · -- the pattern would end in the line break
      rw [hback, List.append_nil] at hsplit
      have hlast := congrArg List.getLast? hsplit
      rw [List.getLast?_append_of_ne_nil _ hne, List.getLast?_concat] at hlast
      exact absurd (List.mem_of_getLast? hlast) hbreak
    · rw [hback, List.concat_eq_append, ← List.append_assoc] at hsplit
      exact ⟨front, back', (List.append_inj' hsplit rfl).1⟩

/-- The same text, but for a line break at the end. -/
def SameText (result : Option Bytes) (content : Bytes) : Prop :=
  result = some content ∨ result = some (content ++ [10]) ∨
    ∃ text, result = some text ∧ content = text ++ [10]

/-- The file comes back from an installation and its undoing. -/
def RoundTripped (settings : ManagedSettings) (serverPort : Int32) (backup : Option Bytes)
    (content : Bytes) : Prop :=
  SameText (afterDisable (afterInstall settings serverPort ⟨some content, backup⟩)).config
    content

/-- The file has no terminator, no marker line in the making at its end, and none
of the sections that are taken for displaced. -/
structure Restorable (content : Bytes) : Prop where
  no_terminator : 0 ∉ content
  no_opening : NoOpening (endLine content)
  no_header : ∀ header ∈ displacedHeaders, ¬ header <:+: content

theorem SameText.length {text content : Bytes} (h : SameText (fileOf text) content) :
    text.length ≤ content.length + 1 ∧ content.length ≤ text.length + 1 := by
  unfold SameText fileOf at h
  rcases h with h | h | ⟨text', h, hcontent⟩
  · split at h
    · cases h
    · cases h
      omega
  · split at h
    · cases h
    · cases h
      rw [List.length_append, List.length_singleton]
      omega
  · split at h
    · cases h
    · cases h
      rw [hcontent, List.length_append, List.length_singleton]
      omega

/-- A byte that is no line break is as often in both texts. -/
theorem SameText.count_eq {text content : Bytes} (h : SameText (fileOf text) content) {c : UInt8}
    (hc : c ≠ 10) : text.count c = content.count c := by
  have hbreak : ∀ text : Bytes, (text ++ [10]).count c = text.count c := by
    intro text
    rw [List.count_append, List.count_singleton, beq_eq_false_iff_ne.mpr hc.symm]
    rfl
  unfold SameText fileOf at h
  rcases h with h | h | ⟨text', h, hcontent⟩
  · split at h
    · cases h
    · cases h
      rfl
  · split at h
    · cases h
    · cases h
      exact hbreak content
  · split at h
    · cases h
    · cases h
      rw [hcontent, hbreak]

theorem count_endLine {c : UInt8} (hc : c ≠ 10) (text : Bytes) :
    (endLine text).count c = text.count c := by
  rcases endLine_cases text with h | ⟨-, -, h⟩
  · rw [h]
  · rw [h, List.count_append, List.count_singleton, beq_eq_false_iff_ne.mpr hc.symm]
    rfl

/-- What is copied opens with a bracket, and is longer than a line break. -/
theorem bracket_mem {header text : Bytes} (hheader : header ∈ displacedHeaders)
    (hin : header <:+: text) : 0 < text.count 91 ∧ 2 ≤ text.length := by
  obtain ⟨⟨more, hmore⟩, hlong, -⟩ := header_spec hheader
  have hmem : 91 ∈ header := hmore ▸ List.mem_cons_self
  exact ⟨List.count_pos_iff.mpr (hin.subset hmem), hlong.trans hin.length_le⟩

section

variable (settings : ManagedSettings) (serverPort : Int32)

/-- The files after installing and disabling. -/
theorem round_trip_config (backup : Option Bytes) (content : Bytes) :
    (afterDisable (afterInstall settings serverPort ⟨some content, backup⟩)).config =
      fileOf (restored (installed settings serverPort (cstr content))) := by
  have hconfig : CodexFiles.config ⟨some content, backup⟩ = some content := rfl
  have hinstall := install_config settings serverPort hconfig
  have hzero : 0 ∉ installed settings serverPort (cstr content) :=
    zero_not_mem_installed settings serverPort (stop_not_mem_upTo 0 content)
  have hcstr : cstr (installed settings serverPort (cstr content)) =
      installed settings serverPort (cstr content) := upTo_eq_self hzero
  have hfound : occurs managedBegin (cstr (installed settings serverPort (cstr content))) =
      true := by
    rw [hcstr, occurs_iff]
    have hblock : managedBegin <:+: (managedBlock settings (effectivePort serverPort)).text :=
      ⟨[], _, (List.append_assoc _ _ _).symm⟩
    exact hblock.trans (List.suffix_append _ _).isInfix
  rw [disable_config hinstall hfound, hcstr]

theorem zero_not_mem_restored {text : Bytes} (h : 0 ∉ text) : 0 ∉ restored text := by
  have hstrip : 0 ∉ managedMarkup.strip text := fun hmem =>
    h ((managedMarkup.strip_sublist text).subset hmem)
  have hbefore : 0 ∉ before managedBegin text := fun hmem =>
    h ((before_isFront managedBegin text).subset hmem)
  unfold restored
  dsimp only
  split
  · exact hstrip
  · intro hmem
    rcases List.mem_append.mp hmem with hmem | hmem
    · exact hstrip (mem_of_mem_endLine (by decide) hmem)
    · exact zero_not_mem_extractDisplacedKeys hbefore hmem

/-- Without an opening marker the copies come behind the text as it was. -/
theorem restored_of_noOpening {text : Bytes}
    (hfree : NoOpening (endLine (managedMarkup.strip text))) :
    restored (installed settings serverPort text) =
      endLine (managedMarkup.strip text) ++
        extractDisplacedKeys (endLine (managedMarkup.strip text)) := by
  have hmem : managedBegin ∈ managedMarkup.markers := List.mem_cons_self
  have hsubset : [managedBegin] ⊆ managedMarkup.markers := by
    intro m hm
    exact List.mem_singleton.mp hm ▸ hmem
  have hled := managedMarkup.markers_led.subset hsubset
  have hblock := managedMarkup.markers_led.cut_some_subset hsubset
    (managedBlock settings (effectivePort serverPort)).cut_markers (List.mem_singleton_self _)
  have hnone : cut [managedBegin] (endLine (managedMarkup.strip text)) = none := by
    refine hled.cut_eq_none_iff.mpr ?_
    intro m hm
    exact List.mem_singleton.mp hm ▸ hfree managedBegin List.mem_cons_self
  have hcut : cut [managedBegin] (installed settings serverPort text) =
      some (endLine (managedMarkup.strip text) ++ [], managedBegin,
        joinLines (settings.bodyLines (effectivePort serverPort)) ++ managedEnd) := by
    rw [installed, (managedBlock settings (effectivePort serverPort)).cut_append hled, hnone]
    dsimp only
    rw [hblock]
    rfl
  have hbefore : before managedBegin (installed settings serverPort text) =
      endLine (managedMarkup.strip text) := by
    rw [before_of_cut hcut, List.append_nil]
  have hstrip : managedMarkup.strip (installed settings serverPort text) =
      endLine (managedMarkup.strip text) :=
    (managedBlock settings (effectivePort serverPort)).strip_append hfree.cut
  unfold restored
  dsimp only
  rw [hbefore, hstrip, endLine_endLine]
  split
  · rename_i hnil
    rw [hnil, List.append_nil]
  · rfl

/-- **A marker line in the making is lost.**  It is taken for the beginning of the
block, and nothing that is copied can stand for it. -/
theorem not_sameText_of_opening {content front m : Bytes} (hm : m ∈ managedMarkup.opening)
    (hfront : cut managedMarkup.opening front = none)
    (hline : endLine (managedMarkup.strip content) = front ++ m)
    (hcontent : content ++ [10] = front ++ m) :
    ¬ SameText (fileOf (restored (installed settings serverPort content))) content := by
  intro hsame
  have hlong := opening_length hm
  have hbracket : m.count 91 = 0 := by
    have hall : ∀ m ∈ managedMarkup.opening, m.count 91 = 0 := by decide
    exact hall m hm
  have hopen : cut managedMarkup.opening (front ++ m) = some (front, m, []) := by
    have hcut : cut managedMarkup.opening (front ++ m ++ []) = some (front, m, []) :=
      managedMarkup.opening_led.cut_eq_some hfront hm
    rwa [List.append_nil] at hcut
  have hremoval : managedMarkup.removal (front ++ m) = none := by
    rw [Markup.removal, hopen]
    rfl
  have hstrip : managedMarkup.strip (installed settings serverPort content) = front := by
    rw [installed, hline, Markup.strip_eq, Markup.Block.removal_append, hremoval, hopen]
    dsimp only
    rw [Markup.strip_of_free rfl, List.append_nil]
  have hlength := congrArg List.length hcontent
  have hcount := congrArg (List.count 91) hcontent
  rw [List.length_append, List.length_append, List.length_singleton] at hlength
  rw [List.count_append, List.count_append, hbracket] at hcount
  have hbreak : List.count 91 [(10 : UInt8)] = 0 := by decide
  have hnear := hsame.length
  have hsamecount := hsame.count_eq (show (91 : UInt8) ≠ 10 by decide)
  rw [restored, hstrip] at hnear hsamecount
  rcases extractDisplacedKeys_cases
    (before managedBegin (installed settings serverPort content)) with
    ⟨-, hnil⟩ | ⟨header, hheader, -, hcopied⟩
  · rw [if_pos hnil] at hnear
    omega
  · have hsome := bracket_mem hheader hcopied
    have hne : extractDisplacedKeys
        (before managedBegin (installed settings serverPort content)) ≠ [] := by
      intro hnil
      rw [hnil] at hsome
      exact absurd hsome.2 (by decide)
    rw [if_neg hne, List.count_append, count_endLine (by decide)] at hsamecount
    omega

variable (backup : Option Bytes) {content : Bytes}
  (hplain : ∀ m ∈ managedMarkup.markers, ¬ m <:+: content)

include hplain

/-- **Installing and disabling is the identity** up to a line break at the end,
exactly. -/
theorem round_trip_iff (hne : content ≠ []) :
    RoundTripped settings serverPort backup content ↔ Restorable content := by
  rw [RoundTripped, round_trip_config]
  by_cases hzero : 0 ∈ content
  · refine iff_of_false ?_ fun h => h.no_terminator hzero
    intro hsame
    have hnone : 0 ∉ restored (installed settings serverPort (cstr content)) :=
      zero_not_mem_restored
        (zero_not_mem_installed settings serverPort (stop_not_mem_upTo 0 content))
    have hcount := hsame.count_eq (show (0 : UInt8) ≠ 10 by decide)
    rw [List.count_eq_zero_of_not_mem hnone] at hcount
    exact List.count_eq_zero.mp hcount.symm hzero
  have hcstr : cstr content = content := upTo_eq_self hzero
  have hfree : cut managedMarkup.opening content = none :=
    managedMarkup.opening_led.cut_eq_none_iff.mpr fun m hm =>
      hplain m (managedMarkup.opening_subset hm)
  have hstrip : managedMarkup.strip content = content := Markup.strip_of_free hfree
  rw [hcstr]
  by_cases hopening : NoOpening (endLine content)
  · rw [restored_of_noOpening settings serverPort (hstrip.symm ▸ hopening), hstrip]
    constructor
    · intro hsame
      refine ⟨hzero, hopening, ?_⟩
      rcases extractDisplacedKeys_cases (endLine content) with
        ⟨hnone, -⟩ | ⟨header, hheader, -, hcopied⟩
      · exact fun header hheader hin => hnone header hheader
          (hin.trans (prefix_endLine content).isInfix)
      · -- a copy is more than a line break
        have hlong := (bracket_mem hheader hcopied).2
        have hlength := hsame.length.1
        have hline := (prefix_endLine content).length_le
        rw [List.length_append] at hlength
        omega
    · intro hrestorable
      rcases extractDisplacedKeys_cases (endLine content) with
        ⟨-, hnil⟩ | ⟨header, hheader, hin, -⟩
      · rw [hnil, List.append_nil]
        rcases endLine_cases content with hline | ⟨-, -, hline⟩
        · rw [hline, fileOf, if_neg hne]
          exact Or.inl rfl
        · rw [hline, fileOf, if_neg (by simp)]
          exact Or.inr (Or.inl rfl)
      · obtain ⟨⟨more, hmore⟩, -, hbreak, -⟩ := header_spec hheader
        have hin' := infix_endLine hbreak (hmore ▸ List.cons_ne_nil _ _) hin
        exact absurd hin' (hrestorable.no_header header hheader)
  · refine iff_of_false ?_ fun h => hopening h.no_opening
    rcases endLine_cases content with hline | ⟨-, -, hline⟩
    · rw [hline] at hopening
      exact absurd (fun m hm => hplain m (managedMarkup.opening_subset hm)) hopening
    · obtain ⟨⟨front, m, rest⟩, hcut⟩ : ∃ parts,
          cut managedMarkup.opening (endLine content) = some parts := by
        rw [← Option.ne_none_iff_exists']
        exact fun hnone => hopening (managedMarkup.opening_led.cut_eq_none_iff.mp hnone)
      obtain ⟨hsplit, hm, hfront⟩ := cut_eq hcut
      rcases List.eq_nil_or_concat rest with hrest | ⟨rest', d, hrest⟩
      · rw [hrest, List.append_nil] at hsplit
        exact not_sameText_of_opening settings serverPort hm hfront (hstrip.symm ▸ hsplit)
          (hline ▸ hsplit)
      · -- a marker that ends before the last byte is in the text itself
        rw [hline, hrest, List.concat_eq_append, ← List.append_assoc] at hsplit
        exact absurd ⟨front, rest', (List.append_inj' hsplit rfl).1.symm⟩
          (hplain m (managedMarkup.opening_subset hm))

end

/-- A configuration without markers and without the sections that are looked
for. -/
def plainConfig : Bytes := lit "model = \"o3\"\n"

/-- The theorem at an ordinary configuration. -/
theorem round_trip_iff_plain :
    plainConfig ≠ [] ∧ (∀ m ∈ managedMarkup.markers, ¬ m <:+: plainConfig) ∧
      (RoundTripped plainSettings 8080 none plainConfig ↔ Restorable plainConfig) := by
  have hplain : ∀ m ∈ managedMarkup.markers, ¬ m <:+: plainConfig := by decide +kernel
  have hne : plainConfig ≠ [] := by decide +kernel
  exact ⟨hne, hplain, round_trip_iff plainSettings 8080 none hplain hne⟩

/-- A configuration with a model section of the bridge's name. -/
def ownModel : Bytes := lit "[model \"star-bridge-ds4\"]\nprovider = \"mine\"\n"

/-- The section comes out twice. -/
theorem round_trip_doubles_section : ¬ RoundTripped plainSettings 8080 none ownModel := by
  have hcstr : cstr ownModel = ownModel := by decide +kernel
  have hstrip : managedMarkup.strip ownModel = ownModel := by
    rw [← removeAllManagedSections_eq]
    decide +kernel
  have hfree : NoOpening (endLine (managedMarkup.strip ownModel)) := by
    rw [hstrip, NoOpening]
    decide +kernel
  intro hsame
  rw [RoundTripped, round_trip_config, hcstr,
    restored_of_noOpening plainSettings 8080 hfree, hstrip] at hsame
  have hlength := hsame.length.1
  revert hlength
  decide +kernel

end StarBridge
