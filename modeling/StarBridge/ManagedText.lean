import StarBridge.ManagedConfig

/-!
# The configuration as a text with sections

The marker lines of `config.toml` are a markup in the sense of `Sections`, and
`remove_all_managed_sections` is its `strip` (`removeAllManagedSections_eq`).
The block that is installed is one section of it (`managedBlock`): no marker
stands between its marker lines, for no line there ends in a dash.
-/

namespace StarBridge

open CText Sections

/-- The markers of the configuration file. -/
def managedMarkup : Markup UInt8 where
  opening := [managedBegin, legacyManagedBegin]
  closing := [managedEnd, legacyManagedEnd]
  blank := isLineBreak
  lead := 35
  led := by
    have hled : ∀ p ∈ [managedBegin, legacyManagedBegin] ++ [managedEnd, legacyManagedEnd],
        p = 35 :: p.tail ∧ 35 ∉ p.tail := by
      rw [managedBegin, legacyManagedBegin, managedEnd, legacyManagedEnd]
      repeat rw [lit_ofList]
      decide +kernel
    refine ⟨fun p hp => ⟨p.tail, hled p hp⟩, ?_⟩
    rw [managedBegin, legacyManagedBegin, managedEnd, legacyManagedEnd]
    repeat rw [lit_ofList]
    decide +kernel
  other := by
    rw [managedBegin, legacyManagedBegin, managedEnd, legacyManagedEnd]
    repeat rw [lit_ofList]
    decide +kernel
  lead_not_blank := by decide

/-! ## Where the code looks for markers -/

theorem locate_nil {pattern : Bytes} (hne : pattern ≠ []) : locate pattern [] = none := by
  have hnone : occurs pattern [] = false := by
    rw [occurs, after, if_neg hne]
    rfl
  rw [locate, hnone]
  rfl

theorem locate_cons (pattern : Bytes) (c : UInt8) (s : Bytes) :
    locate pattern (c :: s) =
      if pattern.isPrefixOf (c :: s) then some 0 else (locate pattern s).map (· + 1) := by
  unfold locate occurs
  rw [after, before]
  by_cases hprefix : pattern.isPrefixOf (c :: s) = true
  · rw [if_pos hprefix, if_pos hprefix, if_pos hprefix]
    rfl
  · rw [if_neg hprefix, if_neg hprefix, if_neg hprefix]
    cases after pattern s with
    | none => rfl
    | some rest => rfl

/-- The earlier of two markers is the first of either. -/
theorem earliest_locate {p q : Bytes} (hp : p ≠ []) (hq : q ≠ []) (hpq : ¬ p <+: q)
    (hqp : ¬ q <+: p) (s : Bytes) :
    earliest (locate p s) (locate q s) = (cut [p, q] s).map fun parts => parts.1.length := by
  induction s with
  | nil =>
      rw [locate_nil hp, locate_nil hq]
      rfl
  | cons c s ih =>
      rw [locate_cons, locate_cons, cut]
      by_cases hpre : p.isPrefixOf (c :: s) = true
      · have hnot : ¬ q.isPrefixOf (c :: s) = true := by
          intro hpre'
          rcases List.prefix_or_prefix_of_prefix (List.isPrefixOf_iff_prefix.mp hpre)
            (List.isPrefixOf_iff_prefix.mp hpre') with hle | hle
          · exact hpq hle
          · exact hqp hle
        have hfind : [p, q].find? (·.isPrefixOf (c :: s)) = some p := List.find?_cons_of_pos hpre
        rw [if_pos hpre, if_neg hnot, hfind]
        cases locate q s with
        | none => rfl
        | some n => rfl
      by_cases hpre' : q.isPrefixOf (c :: s) = true
      · have hfind : [p, q].find? (·.isPrefixOf (c :: s)) = some q := by
          simp [List.find?, hpre, hpre']
        rw [if_neg hpre, if_pos hpre', hfind]
        cases locate p s with
        | none => rfl
        | some n => rfl
      · have hfind : [p, q].find? (·.isPrefixOf (c :: s)) = none := by
          simp [List.find?, hpre, hpre']
        rw [if_neg hpre, if_neg hpre', hfind]
        dsimp only
        rw [Option.map_map]
        have hshift : earliest ((locate p s).map (· + 1)) ((locate q s).map (· + 1)) =
            (earliest (locate p s) (locate q s)).map (· + 1) := by
          cases locate p s with
          | none => rfl
          | some a =>
              cases locate q s with
              | none => rfl
              | some b =>
                  simp only [earliest, Option.map_some, Nat.add_lt_add_iff_right]
                  split
                  · rfl
                  · rfl
        rw [hshift, ih, Option.map_map]
        rfl

theorem earliest_opening (s : Bytes) :
    earliest (locate managedBegin s) (locate legacyManagedBegin s) =
      (cut managedMarkup.opening s).map fun parts => parts.1.length :=
  earliest_locate (by decide) (by decide) (by decide) (by decide) s

theorem earliest_closing (s : Bytes) :
    earliest (locate managedEnd s) (locate legacyManagedEnd s) =
      (cut managedMarkup.closing s).map fun parts => parts.1.length :=
  earliest_locate (by decide) (by decide) (by decide) (by decide) s

/-- What follows the marker that was found. -/
theorem drop_closing {c : Bytes} (hc : c ∈ managedMarkup.closing) (rest : Bytes) :
    (if managedEnd.isPrefixOf (c ++ rest) then (c ++ rest).drop managedEnd.length
      else (c ++ rest).drop legacyManagedEnd.length) = rest := by
  rcases List.mem_cons.mp hc with hc | hc
  · rw [hc, if_pos (List.isPrefixOf_iff_prefix.mpr (List.prefix_append _ _)), List.drop_left]
  · have hlegacy : c = legacyManagedEnd := List.mem_singleton.mp hc
    have hnot : ¬ managedEnd.isPrefixOf (legacyManagedEnd ++ rest) = true := by
      intro hpre
      rcases List.prefix_or_prefix_of_prefix (List.isPrefixOf_iff_prefix.mp hpre)
        (List.prefix_append legacyManagedEnd rest) with hle | hle
      · exact absurd hle (by decide)
      · exact absurd hle (by decide)
    rw [hlegacy, if_neg hnot, List.drop_left]

/-- **The loop removes the sections.** -/
theorem removeSections_eq {fuel : Nat} {pos : Bytes} (hfuel : pos.length < fuel) :
    removeSections fuel pos = managedMarkup.strip pos := by
  induction fuel generalizing pos with
  | zero => exact absurd hfuel (Nat.not_lt_zero _)
  | succ fuel ih =>
      rw [removeSections, earliest_opening]
      cases hopen : cut managedMarkup.opening pos with
      | none =>
          rw [Markup.strip_of_free hopen]
          rfl
      | some parts =>
          obtain ⟨front, m, left⟩ := parts
          obtain ⟨hpos, hm, -⟩ := cut_eq hopen
          have htake : pos.take front.length = front := by
            rw [hpos, List.append_assoc, List.take_left]
          have hdrop : pos.drop front.length = m ++ left := by
            rw [hpos, List.append_assoc, List.drop_left]
          have hskip := managedMarkup.markers_led.cut_skip managedMarkup.closing_subset
            (managedMarkup.opening_subset hm) (managedMarkup.other m hm) left
          rw [Option.map_some]
          dsimp only
          rw [htake, hdrop, earliest_closing, hskip]
          cases hclose : cut managedMarkup.closing left with
          | none =>
              have hnone : managedMarkup.removal pos = none := by
                rw [Markup.removal, hopen, Option.bind_some]
                dsimp only
                rw [hclose, Option.map_none]
              rw [Markup.strip_eq, hnone, hpos, List.append_assoc]
              rfl
          | some parts =>
              obtain ⟨between, c, rest⟩ := parts
              obtain ⟨hleft, hc, -⟩ := cut_eq hclose
              have hsome := Markup.removal_eq_some.mpr
                ⟨m, left, between, c, rest, hopen, hclose, rfl⟩
              have hstop : (m ++ left).drop (m ++ between).length = c ++ rest := by
                rw [hleft, List.append_assoc between, ← List.append_assoc m, List.drop_left]
              have hlt := Markup.removal_lt hsome
              rw [Option.map_some, Option.map_some]
              dsimp only
              rw [hstop, drop_closing hc, Markup.strip_eq, hsome]
              dsimp only
              rw [← ih (by omega)]
              rfl

/-- **`remove_all_managed_sections` is `strip`.** -/
theorem removeAllManagedSections_eq (buf : Bytes) :
    removeAllManagedSections buf = managedMarkup.strip buf :=
  removeSections_eq (Nat.lt_succ_self _)

/-! ## The installed block -/

/-- A marker in a text of lines ends one of them. -/
theorem suffix_of_infix_joinLines {m : Bytes} (hm : m ≠ []) (hbreak : 10 ∉ m)
    {lines : List Bytes} (hlines : ∀ line ∈ lines, 10 ∉ line)
    (hin : m ++ [10] <:+: joinLines lines) : ∃ line ∈ lines, m <:+ line := by
  have hspan : ∀ {a b x y : Bytes}, 10 ∉ a → 10 ∉ b → a ++ 10 :: x = b ++ 10 :: y → a = b := by
    intro a b x y ha hb heq
    have hcut := congrArg (upTo 10) heq
    rwa [upTo_append ha, upTo_append hb, show ∀ z : Bytes, upTo 10 (10 :: z) = [] from
      fun z => by simp [upTo], List.append_nil, show upTo (10 : UInt8) (10 :: y) = [] from
      by simp [upTo], List.append_nil] at hcut
  induction lines with
  | nil =>
      have hnil := List.eq_nil_of_infix_nil hin
      exact absurd hnil (by simp)
  | cons line rest ih =>
      obtain ⟨front, back, heq⟩ := hin
      have hshape : front ++ (m ++ 10 :: back) = line ++ (10 :: joinLines rest) := by
        simpa [joinLines] using heq
      rcases List.append_eq_append_iff.mp hshape with ⟨more, hline, hmore⟩ | ⟨more, hfront, hmore⟩
      · have hfree : 10 ∉ more := fun h =>
          hlines line List.mem_cons_self (hline ▸ List.mem_append_right _ h)
        have hsame := hspan hbreak hfree hmore
        exact ⟨line, List.mem_cons_self, hline ▸ hsame ▸ List.suffix_append _ _⟩
      · cases more with
        | nil =>
            obtain ⟨c, m', rfl⟩ := List.exists_cons_of_ne_nil hm
            rw [List.nil_append, List.cons_append] at hmore
            exact absurd (List.cons.inj hmore).1 (fun h => hbreak (h ▸ List.mem_cons_self))
        | cons d more =>
            obtain ⟨-, hrest⟩ := List.cons.inj (hmore.trans (List.cons_append ..))
            have hin' : m ++ [10] <:+: joinLines rest :=
              ⟨more, back, by rw [hrest]; simp⟩
            obtain ⟨line', hmem, hsuffix⟩ :=
              ih (fun line h => hlines line (List.mem_cons_of_mem _ h)) hin'
            exact ⟨line', List.mem_cons_of_mem _ hmem, hsuffix⟩

/-- Every marker is a dash and a line break behind something. -/
theorem marker_eq {m : Bytes} (hm : m ∈ managedMarkup.markers) :
    ∃ front, m = front ++ [45] ++ [10] ∧ 10 ∉ front := by
  have hall : ∀ m ∈ managedMarkup.markers,
      m = m.dropLast.dropLast ++ [45] ++ [10] ∧ 10 ∉ m.dropLast.dropLast := by
    simp only [Markup.markers, managedMarkup]
    rw [managedBegin, legacyManagedBegin, managedEnd, legacyManagedEnd]
    repeat rw [lit_ofList]
    decide
  exact ⟨m.dropLast.dropLast, hall m hm⟩

/-- Neither a terminator nor a line break. -/
def OneLine (text : Bytes) : Prop := ∀ c ∈ text, c ≠ 0 ∧ c ≠ 10

instance (text : Bytes) : Decidable (OneLine text) := List.decidableBAll _ text

theorem OneLine.zero_not_mem {text : Bytes} (h : OneLine text) : 0 ∉ text :=
  fun hmem => (h 0 hmem).1 rfl

theorem OneLine.break_not_mem {text : Bytes} (h : OneLine text) : 10 ∉ text :=
  fun hmem => (h 10 hmem).2 rfl

theorem OneLine.of_not_mem {text : Bytes} (h : 0 ∉ text ∧ 10 ∉ text) : OneLine text :=
  fun _ hc => ⟨fun heq => h.1 (heq ▸ hc), fun heq => h.2 (heq ▸ hc)⟩

theorem OneLine.append {front back : Bytes} (hfront : OneLine front) (hback : OneLine back) :
    OneLine (front ++ back) :=
  fun c hc => (List.mem_append.mp hc).elim (hfront c) (hback c)

/-- A literal is a line when its characters are those of one. -/
theorem oneLine_lit {cs : List Char}
    (h : cs.all fun c => UInt8.ofNat c.toNat ≠ 0 && UInt8.ofNat c.toNat ≠ 10) :
    OneLine (lit (String.ofList cs)) := by
  intro c hc
  rw [lit_ofList] at hc
  obtain ⟨d, hd, rfl⟩ := List.mem_map.mp hc
  simpa using List.all_eq_true.mp h d hd

theorem fixed_line {cs : List Char}
    (h : cs.all fun c => UInt8.ofNat c.toNat ≠ 0 && UInt8.ofNat c.toNat ≠ 10)
    (hlast : cs.getLast?.map (fun c => UInt8.ofNat c.toNat) ≠ some 45) :
    OneLine (lit (String.ofList cs)) ∧ (lit (String.ofList cs)).getLast? ≠ some 45 := by
  refine ⟨oneLine_lit h, ?_⟩
  rw [lit_ofList, List.getLast?_map]
  exact hlast

theorem quote_line : OneLine (lit "\"") ∧ (lit "\"").getLast? = some 34 :=
  ⟨oneLine_lit (by decide), rfl⟩

/-- Lines none of which ends in a dash hold no marker. -/
theorem joinLines_free {lines : List Bytes}
    (h : ∀ line ∈ lines, OneLine line ∧ line.getLast? ≠ some 45) :
    cut managedMarkup.markers (joinLines lines) = none := by
  refine managedMarkup.markers_led.cut_eq_none_iff.mpr ?_
  intro m hm hin
  obtain ⟨front, rfl, hfront⟩ := marker_eq hm
  have hbreak : 10 ∉ front ++ [45] := by simp [hfront]
  obtain ⟨line, hline, hsuffix⟩ :=
    suffix_of_infix_joinLines (by simp) hbreak (fun line h' => (h line h').1.break_not_mem) hin
  obtain ⟨more, rfl⟩ := hsuffix
  exact (h _ hline).2 (by simp)

theorem oneLine_catalogPath (settings : ManagedSettings) : OneLine settings.catalogPath := by
  have hpath : OneLine (lit "/.codex/custom_catalog.json") :=
    oneLine_lit (by decide)
  have hdefault : OneLine (lit "~/.codex/custom_catalog.json") :=
    oneLine_lit (by decide)
  intro d hd
  have hin := List.mem_of_mem_take hd
  split at hin
  · rename_i c dir hhome
    exact (OneLine.of_not_mem (settings.home_line _ hhome)).append hpath d hin
  · exact hdefault d hin

/-- A line that ends in a quote. -/
theorem quoted_line {front text back : Bytes} (hfront : OneLine front) (htext : OneLine text)
    (hback : OneLine back ∧ back.getLast? = some 34) :
    OneLine (front ++ text ++ back) ∧ (front ++ text ++ back).getLast? ≠ some 45 := by
  refine ⟨(hfront.append htext).append hback.1, ?_⟩
  rw [List.getLast?_append, hback.2]
  simp

theorem oneLine_signedDecimal (n : Int) : OneLine (signedDecimal n) := by
  intro c hc
  have hplain := CJson.plainText_signedDecimal n c hc
  refine ⟨hplain.1, fun heq => ?_⟩
  rw [heq] at hplain
  exact absurd hplain.2 (by decide)

theorem oneLine_effort (settings : ManagedSettings) :
    OneLine (if settings.effort = [] then lit "medium" else settings.effort) := by
  split
  · exact oneLine_lit (by decide)
  · exact OneLine.of_not_mem settings.effort_line

/-- No line of the body ends in a dash. -/
theorem bodyLines_plain (settings : ManagedSettings) (port : Int32) :
    ∀ line ∈ settings.bodyLines port, OneLine line ∧ line.getLast? ≠ some 45 := by
  simp only [ManagedSettings.bodyLines, List.forall_mem_cons]
  refine ⟨fixed_line (by decide) (by decide), fixed_line (by decide) (by decide),
    fixed_line (by decide) (by decide), fixed_line (by decide) (by decide),
    fixed_line (by decide) (by decide), fixed_line (by decide) (by decide), ?_,
    fixed_line (by decide) (by decide), fixed_line (by decide) (by decide),
    fixed_line (by decide) (by decide), ?_, fixed_line (by decide) (by decide),
    fixed_line (by decide) (by decide), fixed_line (by decide) (by decide),
    fixed_line (by decide) (by decide), fixed_line (by decide) (by decide),
    fixed_line (by decide) (by decide), fixed_line (by decide) (by decide),
    fixed_line (by decide) (by decide), fixed_line (by decide) (by decide),
    fixed_line (by decide) (by decide), ?_, ?_⟩
  · exact quoted_line (oneLine_lit (by decide)) (oneLine_catalogPath settings) quote_line
  · exact quoted_line (oneLine_lit (by decide)) (oneLine_signedDecimal _)
      ⟨oneLine_lit (by decide), rfl⟩
  · exact quoted_line (oneLine_lit (by decide)) (oneLine_effort settings) quote_line
  · exact fun line h => absurd h List.not_mem_nil

theorem length_joinLines (lines : List Bytes) :
    (joinLines lines).length = ((lines.map List.length).map (· + 1)).sum := by
  induction lines with
  | nil => rfl
  | cons line rest ih =>
      rw [joinLines, List.flatMap_cons, List.length_append, ← joinLines, ih, List.length_append]
      rfl

/-- The block fits its buffer. -/
theorem length_block_lt (settings : ManagedSettings) (port : Int32) :
    (managedBegin ++ joinLines (settings.bodyLines port) ++ managedEnd).length < 3072 := by
  have hlengths : (settings.bodyLines port).map List.length =
      [63, 1, 25, 36, 0, 61, 22 + settings.catalogPath.length + 1, 0, 35, 26,
        29 + (signedDecimal (if 0 < port then port.toInt else 8080)).length + 4, 22, 16, 27, 23,
        25, 28, 27, 1, 65, 45,
        26 + (if settings.effort = [] then lit "medium" else settings.effort).length + 1] := by
    have hcatalog : (lit "model_catalog_json = \"").length = 22 := length_lit _
    have hurl : (lit "base_url = \"http://127.0.0.1:").length = 29 := length_lit _
    have hversion : (lit "/v1\"").length = 4 := length_lit _
    have heffort : (lit "model_reasoning_effort = \"").length = 26 := length_lit _
    have hquote : (lit "\"").length = 1 := length_lit _
    simp only [ManagedSettings.bodyLines, List.map_cons, List.map_nil, List.length_append,
      hcatalog, hurl, hversion, heffort, hquote, List.cons.injEq, and_true, true_and]
    exact ⟨length_lit _, length_lit _, length_lit _, length_lit _, length_lit _, length_lit _,
      length_lit _, length_lit _, length_lit _, length_lit _, length_lit _, length_lit _,
      length_lit _, length_lit _, length_lit _, length_lit _, length_lit _, length_lit _,
      length_lit _⟩
  have hcatalog : settings.catalogPath.length < 1024 := length_clip_lt (by decide) _
  have hport : (signedDecimal (if 0 < port then port.toInt else 8080)).length ≤ 11 := by
    split
    · exact CJson.length_int32_le port
    · exact CJson.length_signedDecimal_le (k := 10) (by decide) (by decide)
  have heffort : (if settings.effort = [] then lit "medium" else settings.effort).length < 32 := by
    split
    · exact (length_lit _).trans_lt (by decide)
    · exact settings.effort_lt
  have hopens : managedBegin.length = 36 := length_lit _
  have hcloses : managedEnd.length = 34 := length_lit _
  rw [List.length_append, List.length_append, length_joinLines, hlengths, hopens, hcloses]
  simp only [List.map_cons, List.map_nil, List.sum_cons, List.sum_nil]
  omega

/-- **The block that is installed**, as a section. -/
def managedBlock (settings : ManagedSettings) (port : Int32) : managedMarkup.Block where
  opens := managedBegin
  body := joinLines (settings.bodyLines port)
  closes := managedEnd
  opens_mem := List.mem_cons_self
  closes_mem := List.mem_cons_self
  body_free := joinLines_free (bodyLines_plain settings port)

theorem buildManagedBlock_eq (settings : ManagedSettings) (port : Int32) :
    buildManagedBlock settings port = (managedBlock settings port).text :=
  clip_eq_self (length_block_lt settings port)

end StarBridge
