import StarBridge.ManagedText

/-!
# Installing the managed section

`install_managed_config` removes what it takes for managed sections and appends
a fresh block.  Installing twice is installing once, and no byte of the user's
text is lost, iff no opening marker stands outside the complete sections of the
file and the file has no terminator (`install_safe_iff`): an opening marker
that is left there takes the text behind it along at the next installation.
-/

namespace StarBridge

open CText Sections

/-! ## Line ends -/

theorem endLine_cases (text : Bytes) :
    endLine text = text ∨
      text ≠ [] ∧ text.getLast? ≠ some 10 ∧ endLine text = text ++ [10] := by
  unfold endLine
  split
  · rename_i h
    exact Or.inr ⟨h.1, h.2, rfl⟩
  · exact Or.inl rfl

theorem prefix_endLine (text : Bytes) : text <+: endLine text := by
  rcases endLine_cases text with h | ⟨-, -, h⟩
  · rw [h]
  · rw [h]
    exact List.prefix_append _ _

theorem length_endLine_le (text : Bytes) : (endLine text).length ≤ text.length + 1 := by
  rcases endLine_cases text with h | ⟨-, -, h⟩
  · rw [h]
    exact Nat.le_succ _
  · rw [h, List.length_append]
    rfl

theorem endLine_endLine (text : Bytes) : endLine (endLine text) = endLine text := by
  rcases endLine_cases text with h | ⟨-, -, h⟩
  · rw [h, h]
  · rw [h, endLine, if_neg]
    intro hno
    exact hno.2 (by simp)

theorem mem_of_mem_endLine {c : UInt8} (hc : c ≠ 10) {text : Bytes} (h : c ∈ endLine text) :
    c ∈ text := by
  rcases endLine_cases text with heq | ⟨-, -, heq⟩
  · rwa [heq] at h
  · rw [heq] at h
    rcases List.mem_append.mp h with h | h
    · exact h
    · exact absurd (List.mem_singleton.mp h) hc

/-! ## Terminators -/

theorem stops_zero : managedMarkup.Stops 0 where
  not_blank := rfl
  not_mem := by decide

theorem zero_not_mem_joinLines {lines : List Bytes} (h : ∀ line ∈ lines, 0 ∉ line) :
    0 ∉ joinLines lines := by
  intro hmem
  obtain ⟨line, hline, hin⟩ := List.mem_flatMap.mp hmem
  rcases List.mem_append.mp hin with hin | hin
  · exact h line hline hin
  · exact absurd (List.mem_singleton.mp hin) (by decide)

theorem zero_not_mem_block (settings : ManagedSettings) (port : Int32) :
    0 ∉ (managedBlock settings port).text := by
  have hbody := zero_not_mem_joinLines
    fun line h => (bodyLines_plain settings port line h).1.zero_not_mem
  have hopens : 0 ∉ managedBegin := by decide
  have hcloses : 0 ∉ managedEnd := by decide
  simp [managedBlock, Markup.Block.text, hbody, hopens, hcloses]

/-! ## One installation -/

/-- The port the block names. -/
def effectivePort (serverPort : Int32) : Int32 := if serverPort ≤ 0 then 8080 else serverPort

/-- What an installation makes of the text C sees in the file. -/
def installed (settings : ManagedSettings) (serverPort : Int32) (text : Bytes) : Bytes :=
  endLine (managedMarkup.strip text) ++
    (managedBlock settings (effectivePort serverPort)).text

/-- The files after an installation. -/
def afterInstall (settings : ManagedSettings) (serverPort : Int32) (files : CodexFiles) :
    CodexFiles :=
  (installManagedConfig settings false serverPort files).2

theorem cstr_nil : cstr [] = [] := rfl

theorem install_config (settings : ManagedSettings) (serverPort : Int32) {files : CodexFiles}
    {content : Bytes} (h : files.config = some content) :
    (afterInstall settings serverPort files).config =
      some (installed settings serverPort (cstr content)) := by
  unfold afterInstall installManagedConfig readFile installed effectivePort
  rw [h, Option.bind_some]
  by_cases hnil : content = []
  · subst hnil
    have hstrip : managedMarkup.strip [] = [] := Markup.strip_of_free rfl
    rw [cstr_nil, hstrip, ← buildManagedBlock_eq]
    rfl
  · rw [if_neg hnil, ← removeAllManagedSections_eq, ← buildManagedBlock_eq]
    rfl

theorem zero_not_mem_installed (settings : ManagedSettings) (serverPort : Int32)
    {text : Bytes} (h : 0 ∉ text) : 0 ∉ installed settings serverPort text := by
  intro hmem
  rcases List.mem_append.mp hmem with hmem | hmem
  · exact h ((managedMarkup.strip_sublist text).subset (mem_of_mem_endLine (by decide) hmem))
  · exact zero_not_mem_block settings _ hmem

theorem install_twice_config (settings : ManagedSettings) (serverPort : Int32)
    {files : CodexFiles} {content : Bytes} (h : files.config = some content) :
    (afterInstall settings serverPort (afterInstall settings serverPort files)).config =
      some (installed settings serverPort (installed settings serverPort (cstr content))) := by
  have hzero : 0 ∉ installed settings serverPort (cstr content) :=
    zero_not_mem_installed settings serverPort (stop_not_mem_upTo 0 content)
  rw [install_config settings serverPort (install_config settings serverPort h),
    show cstr (installed settings serverPort (cstr content)) = _ from upTo_eq_self hzero]

/-! ## Two installations -/

/-- No opening marker begins in the text. -/
def NoOpening (text : Bytes) : Prop := ∀ m ∈ managedMarkup.opening, ¬ m <:+: text

theorem NoOpening.cut {text : Bytes} (h : NoOpening text) :
    cut managedMarkup.opening text = none :=
  managedMarkup.opening_led.cut_eq_none_iff.mpr h

theorem opening_length {m : Bytes} (hm : m ∈ managedMarkup.opening) : 31 ≤ m.length := by
  have hall : ∀ m ∈ managedMarkup.opening, 31 ≤ m.length := by decide
  exact hall m hm

section

variable (settings : ManagedSettings) (serverPort : Int32)

/-- A text without opening markers stays as it is in front of the block. -/
theorem strip_installed {text : Bytes} (h : NoOpening (endLine (managedMarkup.strip text))) :
    installed settings serverPort (installed settings serverPort text) =
      installed settings serverPort text := by
  have hstrip : managedMarkup.strip (installed settings serverPort text) =
      endLine (managedMarkup.strip text) :=
    (managedBlock settings (effectivePort serverPort)).strip_append h.cut
  conv_lhs => rw [installed, hstrip, endLine_endLine]
  rfl

/-- **An opening marker that is left takes the text behind it along.** -/
theorem installed_ne {text m : Bytes} (hm : m ∈ managedMarkup.opening)
    (hin : m <:+: endLine (managedMarkup.strip text)) :
    installed settings serverPort (installed settings serverPort text) ≠
      installed settings serverPort text := by
  intro hsame
  obtain ⟨⟨before, m', rest⟩, hopen⟩ : ∃ parts,
      cut managedMarkup.opening (endLine (managedMarkup.strip text)) = some parts := by
    rw [← Option.ne_none_iff_exists']
    exact fun hnone => managedMarkup.opening_led.cut_eq_none_iff.mp hnone m hm hin
  have hshort := ((managedBlock settings (effectivePort serverPort)).length_strip_append
    (endLine (managedMarkup.strip text))).2 before m' rest hopen
  have hlong := opening_length (cut_eq hopen).2.1
  have hline := length_endLine_le (managedMarkup.strip (installed settings serverPort text))
  have hlen := congrArg List.length hsame
  rw [installed, List.length_append, installed, List.length_append] at hlen
  rw [installed] at hline
  omega

/-- What stands outside the sections of the file stands, in order, outside those
of the result: the lines of the block itself are not the user's. -/
def Survives (content result : Bytes) : Prop :=
  (managedMarkup.outside content).Sublist (managedMarkup.outside result)

/-- Installing twice is installing once, leaves one section, and loses nothing. -/
structure SafeInstall (content : Bytes) (files : CodexFiles) : Prop where
  idempotent : (afterInstall settings serverPort (afterInstall settings serverPort files)).config =
    (afterInstall settings serverPort files).config
  once : ∃ result, (afterInstall settings serverPort files).config = some result ∧
    managedMarkup.sections result = 1 ∧ Survives content result
  twice : ∃ result,
    (afterInstall settings serverPort (afterInstall settings serverPort files)).config =
      some result ∧ Survives content result

/-- The file has no terminator, and outside its complete sections no opening
marker, not even one that lacks its line break at the end. -/
structure ClosedSections (content : Bytes) : Prop where
  no_terminator : 0 ∉ content
  closed : NoOpening (endLine (managedMarkup.outside content))

theorem NoOpening.outside_strip {text : Bytes}
    (h : NoOpening (endLine (managedMarkup.outside text))) :
    managedMarkup.strip text = managedMarkup.outside text := by
  rcases managedMarkup.strip_eq_outside_or text with heq | ⟨m, hm, hin, -⟩
  · exact heq
  · exact absurd (hin.trans (prefix_endLine _).isInfix) (h m hm)

/-- **Installation is safe**, exactly. -/
theorem install_safe_iff (content : Bytes) (backup : Option Bytes) :
    SafeInstall settings serverPort content ⟨some content, backup⟩ ↔ ClosedSections content := by
  have hconfig : CodexFiles.config ⟨some content, backup⟩ = some content := rfl
  have honce := install_config settings serverPort hconfig
  have htwice := install_twice_config settings serverPort hconfig
  constructor
  · intro hsafe
    have hsame := hsafe.idempotent
    rw [htwice, honce] at hsame
    have hleft : ∀ m ∈ managedMarkup.opening,
        ¬ m <:+: endLine (managedMarkup.strip (cstr content)) := fun m hm hin =>
      installed_ne settings serverPort hm hin (Option.some.inj hsame)
    obtain ⟨result, hresult, -, hkept⟩ := hsafe.once
    rw [honce] at hresult
    cases hresult
    have hnozero : 0 ∉ content := by
      intro hzero
      by_cases hout : 0 ∈ managedMarkup.outside content
      · have hin := (managedMarkup.outside_sublist _).subset (hkept.subset hout)
        exact zero_not_mem_installed settings serverPort (stop_not_mem_upTo 0 content) hin
      · obtain ⟨m, hm, hin⟩ :=
          (Markup.Unclosed.of_stop stops_zero hzero hout).opening_in_strip
        exact hleft m hm (hin.trans (prefix_endLine _).isInfix)
    have hcstr : cstr content = content := upTo_eq_self hnozero
    rw [hcstr] at hleft hkept
    refine ⟨hnozero, ?_⟩
    rcases managedMarkup.strip_eq_outside_or content with heq | ⟨m, hm, -, hlost⟩
    · rw [← heq]
      exact hleft
    · -- the marker is lost, and the block adds nothing outside that could stand for it
      have hlen := hkept.length_le
      rw [installed, Markup.Block.outside_append] at hlen
      have houtside := (managedMarkup.outside_sublist
        (endLine (managedMarkup.strip content))).length_le
      have hline := length_endLine_le (managedMarkup.strip content)
      have hlong := opening_length hm
      omega
  · intro hclosed
    have hcstr : cstr content = content := upTo_eq_self hclosed.no_terminator
    have hstrip := hclosed.closed.outside_strip
    have hfree : NoOpening (endLine (managedMarkup.strip content)) := hstrip ▸ hclosed.closed
    have hagain := strip_installed settings serverPort hfree
    have hkept : Survives content (installed settings serverPort content) := by
      rw [Survives, installed, Markup.Block.outside_append, Markup.outside_of_free hfree.cut,
        hstrip]
      exact (prefix_endLine _).sublist
    have hone : managedMarkup.sections (installed settings serverPort content) = 1 := by
      rw [installed, Markup.Block.sections_append, Markup.sections_of_free hfree.cut]
    rw [hcstr] at honce htwice
    refine ⟨?_, ⟨_, honce, hone, hkept⟩, ⟨_, htwice, hagain.symm ▸ hkept⟩⟩
    rw [htwice, honce, hagain]

end

/-- Settings of a home without a directory and the default effort. -/
def plainSettings : ManagedSettings :=
  ⟨none, [], fun _ h => absurd h (by simp), by decide, by decide⟩

/-- A marker line without the one that closes it, and a setting of the user
behind it. -/
def openedByHand : Bytes := lit "# --- BEGIN star_bridge-managed ---\nmodel = \"o3\"\n"

/-- The setting behind the marker line is lost at the second installation. -/
theorem install_safe_fails :
    ¬ SafeInstall plainSettings 8080 openedByHand ⟨some openedByHand, none⟩ := by
  intro h
  have hconfig : CodexFiles.config ⟨some openedByHand, none⟩ = some openedByHand := rfl
  have hsame := h.idempotent
  rw [install_twice_config _ _ hconfig, install_config _ _ hconfig] at hsame
  have hleft : managedBegin <:+: endLine (managedMarkup.strip (cstr openedByHand)) := by
    rw [← removeAllManagedSections_eq]
    decide +kernel
  exact installed_ne plainSettings 8080 List.mem_cons_self hleft (Option.some.inj hsame)

end StarBridge
