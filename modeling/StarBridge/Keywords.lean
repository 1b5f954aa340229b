import StarBridge.IndexRuns

/-!
# Keywords in a text

The capability router looks for words that stand by themselves: no letter, digit or
underscore is next to them.  A word may be looked for alone or, within a window, behind
another one.

`countKeyword_pos_iff` and `hasCooccurrence_iff` say what the loops find, for every text.
-/

namespace StarBridge

open CText

/-- A byte that belongs to a word. -/
def isWordByte (c : UInt8) : Bool :=
  (48 ≤ c && c ≤ 57) || (65 ≤ c && c ≤ 90) || (97 ≤ c && c ≤ 122) || c == 95

/-- `str_at_delimited`. -/
def strAtDelimited (text : Bytes) (pos : Nat) (word : Bytes) : Bool :=
  text.getD (pos + word.length - 1) 0 ≠ 0 && word.isPrefixOf (text.drop pos) &&
    (pos = 0 || !isWordByte (text.getD (pos - 1) 0)) &&
    (text.getD (pos + word.length) 0 = 0 || !isWordByte (text.getD (pos + word.length) 0))

/-- `count_keyword`, from the position `i` on. -/
def countKeywordFrom (text : Bytes) (len : Nat) (word : Bytes) (i : Nat) : Nat :=
  if i + word.length ≤ len then
    if strAtDelimited text i word then
      countKeywordFrom text len word (i + (word.length - 1) + 1) + 1
    else countKeywordFrom text len word (i + 1)
  else 0
termination_by len + 1 - i

/-- `count_keyword`. -/
def countKeyword (text : Bytes) (len : Nat) (word : Bytes) : Nat :=
  countKeywordFrom text len word 0

/-- `has_cooccurrence`. -/
def hasCooccurrence (text : Bytes) (len : Nat) (word₁ word₂ : Bytes) (window : Nat) : Bool :=
  (List.range (len + 1)).any fun i =>
    i + word₁.length ≤ len && strAtDelimited text i word₁ &&
      let start := i + word₁.length
      let stop := min (start + window) len
      (List.range (len + 1)).any fun j =>
        start ≤ j && j + word₂.length ≤ stop && strAtDelimited text j word₂

/-! ## What they look for -/

/-- Nothing of a word is next to what stands between the two texts. -/
structure Delimits (front back : Bytes) : Prop where
  before : ∀ c ∈ front.getLast?, isWordByte c = false
  behind : ∀ c ∈ back.head?, isWordByte c = false

/-- The word stands in the text by itself. -/
def Mentions (word text : Bytes) : Prop :=
  ∃ front back, text = front ++ (word ++ back) ∧ Delimits front back

/-- The second word stands behind the first and ends within the window. -/
def Near (window : Nat) (word₁ word₂ text : Bytes) : Prop :=
  ∃ front between back, text = front ++ (word₁ ++ (between ++ (word₂ ++ back))) ∧
    between.length + word₂.length ≤ window ∧
    Delimits front (between ++ (word₂ ++ back)) ∧ Delimits (front ++ (word₁ ++ between)) back

section

variable {text word front back : Bytes}

/-- At a position where the word is, the check is for what is next to it. -/
theorem strAtDelimited_append (hzero : 0 ∉ front ++ (word ++ back)) (hne : word ≠ []) :
    strAtDelimited (front ++ (word ++ back)) front.length word = true ↔ Delimits front back := by
  have hlast : (front ++ (word ++ back)).getD (front.length + word.length - 1) 0 ≠ 0 := by
    have hpos := List.length_pos_iff.mpr hne
    have hin : front.length + word.length - 1 < (front ++ (word ++ back)).length := by
      simp only [List.length_append]
      omega
    rw [List.getD_eq_getElem?_getD, List.getElem?_eq_getElem hin, Option.getD_some]
    exact fun heq => hzero (heq ▸ List.getElem_mem hin)
  have hbehind : (front ++ (word ++ back)).getD (front.length + word.length) 0 =
      back.head?.getD 0 := by
    rw [← List.append_assoc, ← List.length_append, List.getD_eq_getElem?_getD,
      List.getElem?_append_right (Nat.le_refl _), Nat.sub_self, List.head?_eq_getElem?]
  have hbefore : front ≠ [] →
      (front ++ (word ++ back)).getD (front.length - 1) 0 = front.getLast?.getD 0 := by
    intro hfront
    have hpos := List.length_pos_iff.mpr hfront
    rw [List.getD_eq_getElem?_getD, List.getElem?_append_left (by omega),
      List.getLast?_eq_getElem?]
  have hprefix : word.isPrefixOf ((front ++ (word ++ back)).drop front.length) = true := by
    simp
  have hnonzero : ∀ c ∈ back, c ≠ 0 := by
    rintro c hc rfl
    simp [hc] at hzero
  unfold strAtDelimited
  rw [hbehind, hprefix]
  simp only [hlast, ne_eq, not_false_eq_true, decide_true, Bool.true_and, Bool.and_eq_true,
    Bool.or_eq_true, decide_eq_true_eq, Bool.not_eq_true']
  refine Iff.trans (and_congr ?_ ?_) ⟨fun h => ⟨h.1, h.2⟩, fun h => ⟨h.before, h.behind⟩⟩
  · cases front using List.reverseRecOn with
    | nil => simp
    | append_singleton front c => 
      rw [hbefore (by simp)]
      simp
  · cases back with
    | nil => simp
    | cons c back => simpa using fun heq => absurd heq (hnonzero c List.mem_cons_self)

/-- A word of its own, by its position. -/
theorem strAtDelimited_iff (hzero : 0 ∉ text) (hne : word ≠ []) (pos : Nat) :
    strAtDelimited text pos word = true ↔
      ∃ front back, text = front ++ (word ++ back) ∧ front.length = pos ∧
        Delimits front back := by
  constructor
  · intro h
    have hprefix : word <+: text.drop pos := by
      unfold strAtDelimited at h
      simp only [Bool.and_eq_true] at h
      exact List.isPrefixOf_iff_prefix.mp h.1.1.2
    obtain ⟨back, hback⟩ := hprefix
    have hlt : pos < text.length := by
      by_contra hle
      rw [List.drop_of_length_le (Nat.not_lt.mp hle)] at hback
      exact hne (List.append_eq_nil_iff.mp hback).1
    have htext : text = text.take pos ++ (word ++ back) := by
      rw [hback, List.take_append_drop]
    have hlength : (text.take pos).length = pos := List.length_take_of_le (Nat.le_of_lt hlt)
    refine ⟨text.take pos, back, htext, hlength, ?_⟩
    apply (strAtDelimited_append (htext ▸ hzero) hne).mp
    rw [← htext, hlength]
    exact h
  · intro h
    obtain ⟨front, back, rfl, rfl, hdelimits⟩ := h
    exact (strAtDelimited_append hzero hne).mpr hdelimits

/-- The count starts at the first position where the word stands by itself. -/
theorem countKeywordFrom_pos_iff (len i : Nat) :
    0 < countKeywordFrom text len word i ↔
      ∃ j, i ≤ j ∧ j + word.length ≤ len ∧ strAtDelimited text j word = true := by
  fun_induction countKeywordFrom text len word i with
  | case1 i hle hat ih => exact iff_of_true (Nat.succ_pos _) ⟨i, Nat.le_refl i, hle, hat⟩
  | case2 i hle hat ih =>
      rw [ih]
      constructor
      · intro h
        obtain ⟨j, hij, hj⟩ := h
        exact ⟨j, by omega, hj⟩
      · intro h
        obtain ⟨j, hij, hlej, hatj⟩ := h
        have hne : i ≠ j := by
          rintro rfl
          exact hat hatj
        exact ⟨j, by omega, hlej, hatj⟩
  | case3 i hle =>
      refine iff_of_false (by omega) ?_
      intro h
      obtain ⟨j, hij, hlej, -⟩ := h
      omega

/-- **The count finds a word** iff it stands in the text by itself. -/
theorem countKeyword_pos_iff (hzero : 0 ∉ text) (hne : word ≠ []) :
    0 < countKeyword text text.length word ↔ Mentions word text := by
  unfold countKeyword Mentions
  rw [countKeywordFrom_pos_iff]
  constructor
  · intro h
    obtain ⟨j, -, -, hat⟩ := h
    obtain ⟨front, back, htext, -, hdelimits⟩ := (strAtDelimited_iff hzero hne j).mp hat
    exact ⟨front, back, htext, hdelimits⟩
  · intro h
    obtain ⟨front, back, htext, hdelimits⟩ := h
    refine ⟨front.length, Nat.zero_le _, ?_, ?_⟩
    · rw [htext]
      simp only [List.length_append]
      omega
    · exact (strAtDelimited_iff hzero hne _).mpr ⟨front, back, htext, rfl, hdelimits⟩

/-- **The search for two words** finds them iff they are near one another. -/
theorem hasCooccurrence_iff {word₁ word₂ : Bytes} (hzero : 0 ∉ text) (hne₁ : word₁ ≠ [])
    (hne₂ : word₂ ≠ []) (window : Nat) :
    hasCooccurrence text text.length word₁ word₂ window = true ↔
      Near window word₁ word₂ text := by
  unfold hasCooccurrence
  simp only [List.any_eq_true, List.mem_range, Bool.and_eq_true, decide_eq_true_eq]
  constructor
  · intro h
    obtain ⟨i, -, ⟨hi, hat₁⟩, j, -, ⟨hstart, hstop⟩, hat₂⟩ := h
    obtain ⟨front, behind, htext, rfl, hfirst⟩ := (strAtDelimited_iff hzero hne₁ i).mp hat₁
    obtain ⟨ahead, back, htext', rfl, hsecond⟩ := (strAtDelimited_iff hzero hne₂ j).mp hat₂
    -- the second word begins behind the first
    have hfront : front ++ word₁ <+: text := ⟨behind, by rw [htext, List.append_assoc]⟩
    have hahead : ahead <+: text := ⟨word₂ ++ back, htext'.symm⟩
    obtain ⟨between, rfl⟩ : front ++ word₁ <+: ahead := by
      apply List.prefix_of_prefix_length_le hfront hahead
      rw [List.length_append]
      exact hstart
    have hbehind : behind = between ++ (word₂ ++ back) := by
      rw [htext] at htext'
      simpa using htext'
    subst hbehind
    refine ⟨front, between, back, htext, ?_, hfirst, by simpa using hsecond⟩
    simp only [List.length_append] at hstop
    omega
  · intro h
    obtain ⟨front, between, back, htext, hwindow, hfirst, hsecond⟩ := h
    have hlength := congrArg List.length htext
    simp only [List.length_append] at hlength
    refine ⟨front.length, by omega, ⟨by omega, ?_⟩,
      (front ++ (word₁ ++ between)).length, ?_, ⟨?_, ?_⟩, ?_⟩
    · exact (strAtDelimited_iff hzero hne₁ _).mpr ⟨front, _, htext, rfl, hfirst⟩
    · simp only [List.length_append]
      omega
    · simp only [List.length_append]
      omega
    · simp only [List.length_append]
      omega
    · exact (strAtDelimited_iff hzero hne₂ _).mpr ⟨_, back, by simpa using htext, rfl, hsecond⟩

end

end StarBridge
