import StarBridge.JsonText

/-!
# A value that is over does not depend on what follows it

The parser reads forward and never looks back, so a value it takes off a text it
takes off every longer text as well, once something stands behind it that no
number goes on with (`parse_settled`).  A printed object that is cut off before
its closing brace therefore does not parse at all (`ReadsMembers.parse_cut`).
-/

namespace StarBridge

open CText

namespace CJson

/-- A byte no number goes on with: white space, a comma or a closing bracket. -/
def Closes (c : UInt8) : Prop := c ≤ 32 ∨ c = 44 ∨ c = 93 ∨ c = 125

/-- Something closes the value in front of the text. -/
def Closed (left : Bytes) : Prop := ∃ c ∈ left.head?, Closes c

theorem Closes.not_digit {c : UInt8} (h : Closes c) : isDigit c = false := by
  rcases h with h | h | h | h
  · have hlow : ¬ 48 ≤ c := fun hc => absurd (UInt8.le_trans hc h) (by decide)
    simp [isDigit, hlow]
  · subst h
    rfl
  · subst h
    rfl
  · subst h
    rfl

theorem Closes.ne {c d : UInt8} (h : Closes c) (hd : 32 < d ∧ d ≠ 44 ∧ d ≠ 93 ∧ d ≠ 125) :
    c ≠ d := by
  intro hcd
  subst hcd
  rcases h with h | h | h | h
  · exact absurd hd.1 (UInt8.not_lt.mpr h)
  · exact hd.2.1 h
  · exact hd.2.2.1 h
  · exact hd.2.2.2 h

/-- White space is skipped alike in front of what there is. -/
theorem skipWhitespace_append {s : Bytes} {c : UInt8} {rest : Bytes}
    (h : skipWhitespace s = c :: rest) (more : Bytes) :
    skipWhitespace (s ++ more) = c :: (rest ++ more) := by
  induction s with
  | nil => cases h
  | cons d s ih =>
      unfold skipWhitespace at h ih ⊢
      rw [List.dropWhile_cons] at h
      rw [List.cons_append, List.dropWhile_cons]
      by_cases hd : decide (d ≤ 32) = true
      · rw [if_pos hd] at h ⊢
        exact ih h
      · rw [if_neg hd] at h ⊢
        cases h
        rfl

/-- What closes a value is found behind white space. -/
theorem closed_of_skipWhitespace {s : Bytes} {c : UInt8} {rest : Bytes}
    (h : skipWhitespace s = c :: rest) (hc : Closes c) : Closed s := by
  cases s with
  | nil => cases h
  | cons d s =>
      refine ⟨d, rfl, ?_⟩
      unfold skipWhitespace at h
      rw [List.dropWhile_cons] at h
      by_cases hd : d ≤ 32
      · exact Or.inl hd
      · rw [if_neg (by simpa using hd)] at h
        cases h
        exact hc

/-! ## Strings and numbers -/

theorem stringSpan_append {s body left : Bytes} (h : stringSpan s = some (body, left))
    (more : Bytes) : stringSpan (s ++ more) = some (body, left ++ more) := by
  fun_induction stringSpan s generalizing body with
  | case1 => cases h
  | case2 =>
      cases h
      exact stringSpan_quote (left ++ more)
  | case3 => cases h
  | case4 e rest _ ih =>
      obtain ⟨⟨body', left'⟩, hspan, heq⟩ := Option.map_eq_some_iff.mp h
      cases heq
      rw [List.cons_append, List.cons_append, stringSpan_pair, ih hspan]
      rfl
  | case5 c rest hquote hplain ih =>
      obtain ⟨⟨body', left'⟩, hspan, heq⟩ := Option.map_eq_some_iff.mp h
      cases heq
      rw [List.cons_append, stringSpan_plain hquote hplain, ih hspan]
      rfl

theorem parseString_append {s text left : Bytes} (h : parseString s = some (text, left))
    (more : Bytes) : parseString (s ++ more) = some (text, left ++ more) := by
  cases s with
  | nil => cases h
  | cons c rest =>
      unfold parseString at h
      rw [List.cons_append, parseString]
      dsimp only at h
      by_cases hquote : c = 34
      · have hopen : ¬ c ≠ 34 := not_not.mpr hquote
        rw [if_neg hopen] at h ⊢
        cases hspan : stringSpan rest with
        | none =>
            rw [hspan] at h
            cases h
        | some pair =>
            obtain ⟨body, left'⟩ := pair
            rw [hspan] at h
            rw [stringSpan_append hspan more]
            obtain ⟨text', htext, heq⟩ := Option.map_eq_some_iff.mp h
            cases heq
            exact Option.map_eq_some_iff.mpr ⟨_, htext, rfl⟩
      · rw [if_pos hquote] at h
        cases h

/-- The number at the front of a text does not depend on what follows a byte it
does not go on with. -/
theorem numberSpan_stop {c : UInt8} (hc : Closes c) (text rest rest' : Bytes) :
    numberSpan (text ++ c :: rest) = numberSpan (text ++ c :: rest') := by
  have hsign : ∀ text rest rest', signSpan (text ++ c :: rest) = signSpan (text ++ c :: rest') := by
    intro text rest rest'
    cases text with
    | nil => rfl
    | cons d text => rfl
  have hsign_le : ∀ text rest, (signSpan (text ++ c :: rest)).length ≤ text.length := by
    intro text rest
    cases text with
    | nil =>
        have hplus := hc.ne (d := 43) (by decide)
        have hminus := hc.ne (d := 45) (by decide)
        simp [signSpan, hplus, hminus]
    | cons d text =>
        simp only [List.cons_append, signSpan, List.length_cons]
        split
        · simp
        · simp
  have hdigits : ∀ text rest, (text ++ c :: rest).takeWhile isDigit = text.takeWhile isDigit :=
    fun text rest => takeWhile_stop hc.not_digit text rest
  have hdigits_le : ∀ text : Bytes, (text.takeWhile isDigit).length ≤ text.length :=
    fun text => (List.takeWhile_sublist _).length_le
  have hfraction : ∀ text rest rest',
      fractionSpan (text ++ c :: rest) = fractionSpan (text ++ c :: rest') := by
    intro text rest rest'
    cases text with
    | nil =>
        have hpoint := hc.ne (d := 46) (by decide)
        simp [fractionSpan, hpoint]
    | cons d text => simp only [List.cons_append, fractionSpan, hdigits]
  have hfraction_le : ∀ text rest, (fractionSpan (text ++ c :: rest)).length ≤ text.length := by
    intro text rest
    cases text with
    | nil =>
        have hpoint := hc.ne (d := 46) (by decide)
        simp [fractionSpan, hpoint]
    | cons d text =>
        simp only [List.cons_append, fractionSpan, hdigits, List.length_cons]
        split
        · have := hdigits_le text
          simp only [List.length_cons]
          omega
        · exact Nat.zero_le _
  have hdrop : ∀ (text rest : Bytes) {n : Nat}, n ≤ text.length →
      (text ++ c :: rest).drop n = text.drop n ++ c :: rest :=
    fun text rest n hn => List.drop_append_of_le_length hn
  have hexponent : ∀ text rest rest',
      exponentSpan (text ++ c :: rest) = exponentSpan (text ++ c :: rest') := by
    intro text rest rest'
    cases text with
    | nil =>
        have hlower := hc.ne (d := 101) (by decide)
        have hupper := hc.ne (d := 69) (by decide)
        simp [exponentSpan, hlower, hupper]
    | cons d text =>
        simp only [List.cons_append, exponentSpan]
        rw [hdrop text rest (hsign_le text rest), hdrop text rest' (hsign_le text rest'),
          hdigits, hdigits, hsign text rest rest']
  have hmantissa : (signSpan (text ++ c :: rest) ++
      (text.drop (signSpan (text ++ c :: rest)).length).takeWhile isDigit).length ≤
        text.length := by
    have hsign_le := hsign_le text rest
    have hdigits_le := hdigits_le (text.drop (signSpan (text ++ c :: rest)).length)
    rw [List.length_append]
    rw [List.length_drop] at hdigits_le
    omega
  have hwhole : (signSpan (text ++ c :: rest) ++
      (text.drop (signSpan (text ++ c :: rest)).length).takeWhile isDigit ++
      fractionSpan (text.drop (signSpan (text ++ c :: rest) ++
        (text.drop (signSpan (text ++ c :: rest)).length).takeWhile isDigit).length ++
          c :: rest)).length ≤ text.length := by
    have hfraction_le := hfraction_le (text.drop (signSpan (text ++ c :: rest) ++
        (text.drop (signSpan (text ++ c :: rest)).length).takeWhile isDigit).length) rest
    rw [List.length_append]
    rw [List.length_drop] at hfraction_le
    omega
  unfold numberSpan
  dsimp only
  rw [← hsign text rest rest', hdrop text rest (hsign_le text rest), hdigits,
    hdrop text rest' (hsign_le text rest), hdigits, hdrop text rest hmantissa,
    hdrop text rest' hmantissa, ← hfraction _ rest rest', hdrop text rest hwhole,
    hdrop text rest' hwhole, hexponent _ rest rest']

theorem parseNumber_append {s left : Bytes} {v : CJson} (h : parseNumber s = some (v, left))
    (hclosed : Closed left) (more : Bytes) :
    parseNumber (s ++ more) = some (v, left ++ more) := by
  obtain ⟨literal, hspan, heq⟩ := Option.map_eq_some_iff.mp h
  obtain ⟨hv, hleft⟩ := Prod.mk.inj heq
  obtain ⟨c, hhead, hc⟩ := hclosed
  cases left with
  | nil => cases hhead
  | cons d rest =>
      cases hhead
      have hsplit : s = s.take literal.length ++ c :: rest := by
        rw [← hleft, List.take_append_drop]
      have hlen : literal.length ≤ s.length := by
        by_contra hlong
        rw [List.drop_eq_nil_of_le (by omega)] at hleft
        cases hleft
      have hmore : s ++ more = s.take literal.length ++ c :: (rest ++ more) := by
        conv_lhs => rw [hsplit]
        rw [List.append_assoc, List.cons_append]
      have hspan' : numberSpan (s ++ more) = some literal := by
        rw [hmore, numberSpan_stop hc _ _ rest, ← hsplit, hspan]
      rw [parseNumber, hspan', Option.map_some, hv, List.drop_append_of_le_length hlen, hleft]

/-! ## Values -/

/-- A parser whose results stand when the text goes on. -/
def Settled {β : Type} (parser : Bytes → Option (β × Bytes)) : Prop :=
  ∀ s v left, parser s = some (v, left) → ∀ more, parser (s ++ more) = some (v, left ++ more)

theorem Settled.map {β γ : Type} {parser : Bytes → Option (β × Bytes)} (h : Settled parser)
    {s left : Bytes} {wrap : β → γ} {v : γ}
    (hmap : ((parser s).map fun (v, left) => (wrap v, left)) = some (v, left)) (more : Bytes) :
    ((parser (s ++ more)).map fun (v, left) => (wrap v, left)) = some (v, left ++ more) := by
  obtain ⟨⟨inner, left'⟩, hinner, heq⟩ := Option.map_eq_some_iff.mp hmap
  obtain ⟨hv, hleft⟩ := Prod.mk.inj heq
  rw [h s inner left' hinner more, Option.map_some]
  exact congrArg some (Prod.ext hv (congrArg (· ++ more) hleft))

/-- Something closes the value, or the value closes itself. -/
def Over (s left : Bytes) : Prop := Closed left ∨ s.head? = some 123

theorem parseValue_settled {fuel depth : Nat}
    (hElements : ∀ depth, Settled (parseElements fuel depth))
    (hMembers : ∀ depth, Settled (parseMembers fuel depth)) {s left : Bytes} {v : CJson}
    (h : parseValue (fuel + 1) depth s = some (v, left)) (hover : Over s left) (more : Bytes) :
    parseValue (fuel + 1) depth (s ++ more) = some (v, left ++ more) := by
  have hlonger : ∀ pattern : Bytes, pattern.isPrefixOf s = true →
      pattern.isPrefixOf (s ++ more) = true := fun pattern hpre =>
    List.isPrefixOf_iff_prefix.mpr
      ((List.isPrefixOf_iff_prefix.mp hpre).trans (List.prefix_append s more))
  have hdrop : ∀ pattern : Bytes, pattern.isPrefixOf s = true →
      (s ++ more).drop pattern.length = s.drop pattern.length ++ more := fun pattern hpre =>
    List.drop_append_of_le_length (List.isPrefixOf_iff_prefix.mp hpre).length_le
  have hother : ∀ (pattern : Bytes) (p c : UInt8) (rest : Bytes), s = c :: rest →
      pattern.head? = some p → p ≠ c → ¬ pattern.isPrefixOf (s ++ more) = true := by
    intro pattern p c rest hs hp hne hpre
    cases pattern with
    | nil => cases hp
    | cons q pattern =>
        cases hp
        rw [hs, List.cons_append] at hpre
        simp [List.isPrefixOf, hne] at hpre
  unfold parseValue at h ⊢
  by_cases hnull : (lit "null").isPrefixOf s = true
  · rw [if_pos hnull] at h
    rw [if_pos (hlonger _ hnull)]
    cases h
    exact congrArg (fun left => some (CJson.null, left)) (hdrop (lit "null") hnull)
  rw [if_neg hnull] at h
  by_cases hfalse : (lit "false").isPrefixOf s = true
  · rw [if_pos hfalse] at h
    have hnull' : ¬ (lit "null").isPrefixOf (s ++ more) = true := by
      obtain ⟨rest, hrest⟩ := List.isPrefixOf_iff_prefix.mp hfalse
      exact hother _ 110 102 _ hrest.symm rfl (by decide)
    rw [if_neg hnull', if_pos (hlonger _ hfalse)]
    cases h
    exact congrArg (fun left => some (CJson.bool false, left)) (hdrop (lit "false") hfalse)
  rw [if_neg hfalse] at h
  by_cases htrue : (lit "true").isPrefixOf s = true
  · rw [if_pos htrue] at h
    obtain ⟨rest, hrest⟩ := List.isPrefixOf_iff_prefix.mp htrue
    rw [if_neg (hother (lit "null") 110 116 _ hrest.symm rfl (by decide)),
      if_neg (hother (lit "false") 102 116 _ hrest.symm rfl (by decide)),
      if_pos (hlonger _ htrue)]
    cases h
    exact congrArg (fun left => some (CJson.bool true, left)) (hdrop (lit "true") htrue)
  rw [if_neg htrue] at h
  cases s with
  | nil => cases h
  | cons c rest =>
      dsimp only at h
      have hopens : ∀ {d : UInt8}, c = d → (110 ≠ d ∧ 102 ≠ d ∧ 116 ≠ d) →
          ¬ (lit "null").isPrefixOf (c :: rest ++ more) = true ∧
            ¬ (lit "false").isPrefixOf (c :: rest ++ more) = true ∧
            ¬ (lit "true").isPrefixOf (c :: rest ++ more) = true := by
        intro d hd hne
        subst hd
        exact ⟨hother (lit "null") 110 c rest rfl rfl hne.1,
          hother (lit "false") 102 c rest rfl rfl hne.2.1,
          hother (lit "true") 116 c rest rfl rfl hne.2.2⟩
      by_cases hquote : c = 34
      · obtain ⟨hn, hf, ht⟩ := hopens hquote (by decide)
        rw [if_neg hn, if_neg hf, if_neg ht, List.cons_append]
        dsimp only
        rw [if_pos hquote] at h ⊢
        exact Settled.map (fun _ _ _ => parseString_append) h more
      rw [if_neg hquote] at h
      by_cases hnumber : c = 45 ∨ isDigit c
      · rw [if_pos hnumber] at h
        have hne : ∀ d : UInt8, d ≠ 45 → isDigit d = false → d ≠ c := by
          intro d hminus hdigit hdc
          subst hdc
          rcases hnumber with hc | hc
          · exact hminus hc
          · rw [hdigit] at hc
            cases hc
        rw [if_neg (hother (lit "null") 110 c rest rfl rfl (hne 110 (by decide) (by decide))),
          if_neg (hother (lit "false") 102 c rest rfl rfl (hne 102 (by decide) (by decide))),
          if_neg (hother (lit "true") 116 c rest rfl rfl (hne 116 (by decide) (by decide))),
          List.cons_append]
        dsimp only
        rw [if_neg hquote, if_pos hnumber]
        rcases hover with hclosed | hbrace
        · exact parseNumber_append h hclosed more
        · exact absurd (Option.some.inj hbrace).symm (hne 123 (by decide) (by decide))
      rw [if_neg hnumber] at h
      by_cases harray : c = 91
      · obtain ⟨hn, hf, ht⟩ := hopens harray (by decide)
        rw [if_neg hn, if_neg hf, if_neg ht, List.cons_append]
        dsimp only
        rw [if_neg hquote, if_neg hnumber]
        rw [if_pos harray] at h ⊢
        by_cases hdeep : nestingLimit ≤ depth
        · rw [if_pos hdeep] at h
          cases h
        rw [if_neg hdeep] at h ⊢
        cases hrest : skipWhitespace rest with
        | nil =>
            rw [hrest] at h
            cases h
        | cons d inner =>
            rw [hrest] at h
            rw [skipWhitespace_append hrest more]
            dsimp only at h ⊢
            by_cases hclose : d = 93
            · rw [if_pos hclose] at h ⊢
              cases h
              rfl
            · rw [if_neg hclose] at h ⊢
              exact (hElements (depth + 1)).map h more
      rw [if_neg harray] at h
      by_cases hobject : c = 123
      · obtain ⟨hn, hf, ht⟩ := hopens hobject (by decide)
        rw [if_neg hn, if_neg hf, if_neg ht, List.cons_append]
        dsimp only
        rw [if_neg hquote, if_neg hnumber, if_neg harray]
        rw [if_pos hobject] at h ⊢
        by_cases hdeep : nestingLimit ≤ depth
        · rw [if_pos hdeep] at h
          cases h
        rw [if_neg hdeep] at h ⊢
        cases hrest : skipWhitespace rest with
        | nil =>
            rw [hrest] at h
            cases h
        | cons d inner =>
            rw [hrest] at h
            rw [skipWhitespace_append hrest more]
            dsimp only at h ⊢
            by_cases hclose : d = 125
            · rw [if_pos hclose] at h ⊢
              cases h
              rfl
            · rw [if_neg hclose] at h ⊢
              exact (hMembers (depth + 1)).map h more
      rw [if_neg hobject] at h
      cases h

/-- White space in front of a value is skipped alike. -/
theorem skipWhitespace_value {fuel depth : Nat} {s left : Bytes} {v : CJson}
    (h : parseValue fuel depth (skipWhitespace s) = some (v, left)) (more : Bytes) :
    skipWhitespace (s ++ more) = skipWhitespace s ++ more := by
  cases hs : skipWhitespace s with
  | nil =>
      rw [hs] at h
      cases fuel with
      | zero =>
          rw [parseValue] at h
          cases h
      | succ fuel =>
          simp [parseValue, lit] at h
  | cons c rest => exact skipWhitespace_append hs more

/-- What the parser of values has to be for the loops around it: its result
stands once something closes the value. -/
def ValueSettled (fuel depth : Nat) : Prop :=
  ∀ s v left, parseValue fuel depth s = some (v, left) → Over s left →
    ∀ more, parseValue fuel depth (s ++ more) = some (v, left ++ more)

theorem parseElements_settled {fuel depth : Nat} (hValue : ValueSettled fuel depth)
    (hElements : Settled (parseElements fuel depth)) :
    Settled (parseElements (fuel + 1) depth) := by
  intro s vs left h more
  unfold parseElements at h ⊢
  cases hitem : parseValue fuel depth (skipWhitespace s) with
  | none =>
      rw [hitem] at h
      cases h
  | some pair =>
      obtain ⟨item, left₁⟩ := pair
      rw [hitem] at h
      dsimp only at h
      cases hrest : skipWhitespace left₁ with
      | nil =>
          rw [hrest] at h
          cases h
      | cons c rest =>
          rw [hrest] at h
          dsimp only at h
          have hitem' : Closes c → parseValue fuel depth (skipWhitespace (s ++ more)) =
              some (item, left₁ ++ more) := by
            intro hc
            rw [skipWhitespace_value hitem more]
            exact hValue _ item left₁ hitem (Or.inl (closed_of_skipWhitespace hrest hc)) more
          by_cases hcomma : c = 44
          · rw [hitem' (Or.inr (Or.inl hcomma))]
            dsimp only
            rw [skipWhitespace_append hrest more]
            dsimp only
            rw [if_pos hcomma] at h ⊢
            exact hElements.map h more
          rw [if_neg hcomma] at h
          by_cases hclose : c = 93
          · rw [hitem' (Or.inr (Or.inr (Or.inl hclose)))]
            dsimp only
            rw [skipWhitespace_append hrest more]
            dsimp only
            rw [if_neg hcomma]
            rw [if_pos hclose] at h ⊢
            cases h
            rfl
          · rw [if_neg hclose] at h
            cases h

theorem parseMembers_settled {fuel depth : Nat} (hValue : ValueSettled fuel depth)
    (hMembers : Settled (parseMembers fuel depth)) :
    Settled (parseMembers (fuel + 1) depth) := by
  intro s ms left h more
  unfold parseMembers at h ⊢
  cases hname : parseString (skipWhitespace s) with
  | none =>
      rw [hname] at h
      cases h
  | some pair =>
  obtain ⟨name, afterName⟩ := pair
  rw [hname] at h
  dsimp only at h
  cases hcolon : skipWhitespace afterName with
  | nil =>
      rw [hcolon] at h
      cases h
  | cons colon afterColon =>
  rw [hcolon] at h
  dsimp only at h
  by_cases hne : colon ≠ 58
  · rw [if_pos hne] at h
    cases h
  rw [if_neg hne] at h
  cases hvalue : parseValue fuel depth (skipWhitespace afterColon) with
  | none =>
      rw [hvalue] at h
      cases h
  | some pair =>
  obtain ⟨value, left₁⟩ := pair
  rw [hvalue] at h
  dsimp only at h
  cases hrest : skipWhitespace left₁ with
  | nil =>
      rw [hrest] at h
      cases h
  | cons c rest =>
  rw [hrest] at h
  dsimp only at h
  have hname' : parseString (skipWhitespace (s ++ more)) = some (name, afterName ++ more) := by
    cases hs : skipWhitespace s with
    | nil =>
        rw [hs] at hname
        cases hname
    | cons d opened =>
        rw [skipWhitespace_append hs more, ← List.cons_append, ← hs]
        exact parseString_append hname more
  have hvalue' : Closes c → parseValue fuel depth (skipWhitespace (afterColon ++ more)) =
      some (value, left₁ ++ more) := by
    intro hc
    rw [skipWhitespace_value hvalue more]
    exact hValue _ value left₁ hvalue (Or.inl (closed_of_skipWhitespace hrest hc)) more
  rw [hname']
  dsimp only
  rw [skipWhitespace_append hcolon more]
  dsimp only
  rw [if_neg hne]
  by_cases hcomma : c = 44
  · rw [hvalue' (Or.inr (Or.inl hcomma))]
    dsimp only
    rw [skipWhitespace_append hrest more]
    dsimp only
    rw [if_pos hcomma] at h ⊢
    exact hMembers.map h more
  rw [if_neg hcomma] at h
  by_cases hclose : c = 125
  · rw [hvalue' (Or.inr (Or.inr (Or.inr hclose)))]
    dsimp only
    rw [skipWhitespace_append hrest more]
    dsimp only
    rw [if_neg hcomma]
    rw [if_pos hclose] at h ⊢
    cases h
    rfl
  · rw [if_neg hclose] at h
    cases h

/-- **A value that is over stands.**  Whatever follows it, the parser takes it
off the text and leaves what followed. -/
theorem parse_settled (fuel : Nat) :
    (∀ depth, ValueSettled fuel depth) ∧ (∀ depth, Settled (parseElements fuel depth)) ∧
      (∀ depth, Settled (parseMembers fuel depth)) := by
  induction fuel with
  | zero => simp [ValueSettled, Settled, parseValue, parseElements, parseMembers]
  | succ fuel ih =>
      obtain ⟨ihValue, ihElements, ihMembers⟩ := ih
      refine ⟨?_, ?_, ?_⟩
      · intro depth s v left h hover more
        exact parseValue_settled ihElements ihMembers h hover more
      · intro depth
        exact parseElements_settled (ihValue depth) (ihElements depth)
      · intro depth
        exact parseMembers_settled (ihValue depth) (ihMembers depth)

/-- **A value cut short.**  A text whose first value is an object does not parse
when it is cut before the closing brace. -/
theorem parseValue_cut {fuel depth : Nat} {s more left : Bytes} {v : CJson}
    (hbrace : s.head? = some 123) (h : parseValue fuel depth (s ++ more) = some (v, left))
    (hcut : left.length < more.length) : parseValue fuel depth s = none := by
  cases hparse : parseValue fuel depth s with
  | none => rfl
  | some pair =>
      obtain ⟨w, left'⟩ := pair
      have hstands := (parse_settled fuel).1 depth s w left' hparse (Or.inr hbrace) more
      rw [h] at hstands
      obtain ⟨-, hleft⟩ := Prod.mk.inj (Option.some.inj hstands)
      rw [hleft, List.length_append] at hcut
      omega

/-- **A printed object cut short does not parse.** -/
theorem ReadsMembers.parse_cut {members : List (Bytes × CJson)} {text : Bytes}
    (h : ReadsMembers 1 members text) (hopen : OpensMember text) (hzero : 0 ∉ text) {n : Nat}
    (hn : n ≤ text.length) : CJson.parse ((123 :: text).take n) = none := by
  cases n with
  | zero => simp [CJson.parse, cstr, upTo, skipBom, skipWhitespace, parseValue, lit]
  | succ n =>
      rw [List.take_succ_cons]
      have hcut : 0 ∉ 123 :: text.take n := by
        intro hmem
        rcases List.mem_cons.mp hmem with hmem | hmem
        · exact absurd hmem (by decide)
        · exact hzero (List.mem_of_mem_take hmem)
      have hcstr : cstr (123 :: text.take n) = 123 :: text.take n := upTo_eq_self hcut
      have hbom : skipBom (123 :: text.take n) = 123 :: text.take n := by
        simp [skipBom]
      have hobject : Reads 0 (.object members) (123 :: text) := reads_object h hopen (by decide)
      have hwhole := hobject.2.2 [] (2 * (text.length + 1) + 1) (by simp [Stops])
        (by simp only [List.length_cons, List.length_nil]; omega)
      have hsplit : 123 :: text ++ [] = (123 :: text.take n) ++ text.drop n := by
        rw [List.append_nil, List.cons_append, List.take_append_drop]
      rw [hsplit] at hwhole
      have hnone := parseValue_cut rfl hwhole (by rw [List.length_drop, List.length_nil]; omega)
      rw [parseValue_fuel (by simp only [List.length_cons, List.length_take]; omega)] at hnone
      rw [CJson.parse, hcstr, hbom, skipWhitespace_of_head (by decide)]
      exact Option.map_eq_none_iff.mpr hnone

end CJson

end StarBridge
