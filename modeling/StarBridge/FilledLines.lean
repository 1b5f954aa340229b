import Mathlib.Tactic.Common

/-!
# Lines with something in them

A text is split into lines at its stops.  `filled` counts the lines that have more in
them than blanks.

* `infix_append_cons_iff`: a word without a stop lies on one side of it;
* `filled_append_cons`: the lines are counted on each side of a stop;
* `filled_blank_append` and `filled_append_blank`: blanks around a text do not count.
-/

namespace FilledLines

variable {α : Type*}

/-- A word in which `z` does not occur lies before `z` or behind it. -/
theorem infix_append_cons_iff {word front back : List α} {z : α} (h : z ∉ word) :
    word <:+: front ++ z :: back ↔ word <:+: front ∨ word <:+: back := by
  constructor
  · intro hin
    rcases List.infix_append_iff.mp hin with hfront | hback | ⟨left, right, hsplit, hleft, hright⟩
    · exact Or.inl hfront
    · rcases List.infix_cons_iff.mp hback with hstart | hrest
      · cases word with
        | nil => exact Or.inl List.nil_infix
        | cons c word =>
            have hhead := (List.cons_prefix_cons.mp hstart).1
            exact absurd (hhead ▸ List.mem_cons_self) h
      · exact Or.inr hrest
    · cases right with
      | nil =>
          rw [List.append_nil] at hsplit
          exact Or.inl (hsplit ▸ hleft.isInfix)
      | cons c right =>
          have hhead := (List.cons_prefix_cons.mp hright).1
          rw [hsplit, ← hhead] at h
          exact absurd (List.mem_append_right _ List.mem_cons_self) h
  · rintro (hfront | hback)
    · exact hfront.trans (List.prefix_append _ _).isInfix
    · exact hback.trans ((List.suffix_cons _ _).trans (List.suffix_append _ _)).isInfix

variable (stop blank : α → Bool)

/-- Something is in the line. -/
def hasText (line : List α) : Bool := line.any fun c => !blank c

/-- The number of lines with something in them. -/
def filled (text : List α) : Nat := ((text.splitOnP stop).filter (hasText blank)).length

/-- Something is in the first line. -/
def startsFilled (text : List α) : Bool := hasText blank ((text.splitOnP stop).headD [])

variable {stop blank} {front back text : List α} {c : α}

theorem filled_append_cons (h : stop c = true) :
    filled stop blank (front ++ c :: back) = filled stop blank front + filled stop blank back := by
  unfold filled
  rw [List.splitOnP_append_cons front back h, List.filter_append, List.length_append]

theorem startsFilled_cons :
    startsFilled stop blank (c :: text) = (!stop c && (!blank c || startsFilled stop blank text)) := by
  obtain ⟨line, lines, hlines⟩ := List.exists_cons_of_ne_nil (List.splitOnP_ne_nil stop text)
  unfold startsFilled
  rw [List.splitOnP_cons_eq_if_modifyHead, hlines]
  cases hstop : stop c <;> simp [hasText]

/-- A character counts where it is the first one in its line. -/
theorem filled_cons :
    filled stop blank (c :: text) =
      if stop c || blank c || startsFilled stop blank text then filled stop blank text
      else filled stop blank text + 1 := by
  obtain ⟨line, lines, hlines⟩ := List.exists_cons_of_ne_nil (List.splitOnP_ne_nil stop text)
  unfold filled startsFilled
  rw [List.splitOnP_cons_eq_if_modifyHead, hlines]
  cases hstop : stop c with
  | true => simp [List.filter_cons, hasText]
  | false =>
      cases hblank : blank c <;> cases hline : hasText blank line <;>
        simp_all [List.filter_cons, hasText]

/-- Blanks before a text add no line. -/
theorem filled_blank_append (h : ∀ c ∈ front, blank c = true) :
    filled stop blank (front ++ text) = filled stop blank text := by
  induction front with
  | nil => rfl
  | cons c front ih =>
      obtain ⟨hc, hfront⟩ := List.forall_mem_cons.mp h
      rw [List.cons_append, filled_cons, hc, Bool.or_true, Bool.true_or]
      exact ih hfront

theorem filled_nil : filled stop blank [] = 0 := rfl

theorem filled_of_blank (h : ∀ c ∈ text, blank c = true) : filled stop blank text = 0 := by
  have hblank : filled stop blank (text ++ []) = filled stop blank [] := filled_blank_append h
  rwa [List.append_nil, filled_nil] at hblank

theorem startsFilled_of_blank (h : ∀ c ∈ text, blank c = true) :
    startsFilled stop blank text = false := by
  induction text with
  | nil => rfl
  | cons c text ih =>
      obtain ⟨hc, htext⟩ := List.forall_mem_cons.mp h
      rw [startsFilled_cons, hc, ih htext]
      simp

theorem startsFilled_append_blank (h : ∀ c ∈ back, blank c = true) :
    startsFilled stop blank (text ++ back) = startsFilled stop blank text := by
  induction text with
  | nil => exact startsFilled_of_blank h
  | cons c text ih => rw [List.cons_append, startsFilled_cons, startsFilled_cons, ih]

/-- Blanks behind a text add no line. -/
theorem filled_append_blank (h : ∀ c ∈ back, blank c = true) :
    filled stop blank (text ++ back) = filled stop blank text := by
  induction text with
  | nil => exact filled_of_blank h
  | cons c text ih =>
      rw [List.cons_append, filled_cons, filled_cons, ih, startsFilled_append_blank h]

end FilledLines
