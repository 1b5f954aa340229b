import Mathlib.Data.List.Infix
import Mathlib.Data.List.TakeWhile
import Mathlib.Tactic.Common

/-!
# Text as C keeps it

A C string is what its buffer holds up to a terminator; a fixed buffer keeps
what fits in front of one; and `strstr` finds the first occurrence of one text
in another.  The alphabet and the terminator are arbitrary.
-/

namespace CText

variable {α : Type*}

/-- What `snprintf("%s")` leaves of a text in a buffer of `size` elements. -/
def clip (size : Nat) (text : List α) : List α := text.take (size - 1)

theorem clip_eq_self {size : Nat} {text : List α} (h : text.length < size) :
    clip size text = text :=
  List.take_of_length_le (by omega)

@[simp] theorem clip_nil (size : Nat) : clip size ([] : List α) = [] := by
  simp [clip]

theorem length_clip_lt {size : Nat} (hsize : 0 < size) (text : List α) :
    (clip size text).length < size := by
  rw [clip, List.length_take]
  omega

/-- A scan that stops at a byte does not depend on what follows it. -/
theorem takeWhile_stop {p : α → Bool} {stop : α} (h : p stop = false) (text rest : List α) :
    (text ++ stop :: rest).takeWhile p = text.takeWhile p := by
  induction text with
  | nil => rw [List.nil_append, List.takeWhile_cons_of_neg (by simp [h]), List.takeWhile_nil]
  | cons c text ih =>
      rw [List.cons_append, List.takeWhile_cons, List.takeWhile_cons, ih]

theorem dropWhile_stop {p : α → Bool} {stop : α} (h : p stop = false) (text rest : List α) :
    (text ++ stop :: rest).dropWhile p = text.dropWhile p ++ stop :: rest := by
  induction text with
  | nil => rw [List.nil_append, List.dropWhile_cons_of_neg (by simp [h]), List.dropWhile_nil]; rfl
  | cons c text ih =>
      rw [List.cons_append, List.dropWhile_cons, List.dropWhile_cons]
      split
      · exact ih
      · rfl

/-! ## Texts in order -/

/-- The texts occur whole in `text`, one behind the other. -/
def InOrder : List (List α) → List α → Prop
  | [], _ => True
  | t :: ts, text => ∃ front rest, text = front ++ (t ++ rest) ∧ InOrder ts rest

theorem inOrder_singleton {t text : List α} : InOrder [t] text ↔ t <:+: text := by
  constructor
  · rintro ⟨front, rest, rfl, -⟩
    rw [← List.append_assoc]
    exact ⟨front, rest, rfl⟩
  · rintro ⟨front, rest, rfl⟩
    exact ⟨front, rest, List.append_assoc front t rest, trivial⟩

/-- What stands around a text does not matter. -/
theorem InOrder.widen {ts : List (List α)} {text : List α} (h : InOrder ts text)
    (front back : List α) : InOrder ts (front ++ (text ++ back)) := by
  induction ts generalizing text front with
  | nil => trivial
  | cons t ts ih =>
      obtain ⟨before, rest, rfl, hrest⟩ := h
      refine ⟨front ++ before, rest ++ back, ?_, ih hrest []⟩
      rw [List.append_assoc, List.append_assoc, List.append_assoc]

/-- The texts of two stretches occur in order in the two together. -/
theorem InOrder.append {ts us : List (List α)} {first second : List α} (h : InOrder ts first)
    (h' : InOrder us second) : InOrder (ts ++ us) (first ++ second) := by
  induction ts generalizing first with
  | nil =>
      have hwide := h'.widen first []
      rw [List.append_nil] at hwide
      exact hwide
  | cons t ts ih =>
      obtain ⟨before, rest, rfl, hrest⟩ := h
      refine ⟨before, rest ++ second, ?_, ih hrest⟩
      rw [List.append_assoc, List.append_assoc]

/-- Empty texts occur anywhere. -/
theorem inOrder_of_empty {ts : List (List α)} (h : ∀ t ∈ ts, t = []) (text : List α) :
    InOrder ts text := by
  induction ts generalizing text with
  | nil => trivial
  | cons t ts ih =>
      rw [List.forall_mem_cons] at h
      obtain ⟨rfl, hrest⟩ := h
      exact ⟨[], text, rfl, ih hrest text⟩

/-! ## Stopping and searching -/

variable [DecidableEq α]

/-- Everything before the first `stop`: a C string, or what `strchr` skips. -/
def upTo (stop : α) (buffer : List α) : List α := buffer.takeWhile (· ≠ stop)

/-- What follows the first occurrence of `pattern`. -/
def after (pattern : List α) : List α → Option (List α)
  | [] => if pattern = [] then some [] else none
  | c :: rest =>
      if pattern.isPrefixOf (c :: rest) then
        some ((c :: rest).drop pattern.length)
      else after pattern rest

/-- What precedes the first occurrence of `pattern`, or the whole text. -/
def before (pattern : List α) : List α → List α
  | [] => []
  | c :: rest => if pattern.isPrefixOf (c :: rest) then [] else c :: before pattern rest

/-- `strstr(text, pattern) != NULL`. -/
def occurs (pattern text : List α) : Bool := (after pattern text).isSome

/-- `after` succeeds on the texts that contain the pattern. -/
theorem occurs_iff (pattern text : List α) :
    occurs pattern text = true ↔ pattern <:+: text := by
  unfold occurs
  induction text with
  | nil => by_cases h : pattern = [] <;> simp [after, h]
  | cons c rest ih =>
      by_cases hpre : pattern.isPrefixOf (c :: rest) = true
      · have hinfix := (List.isPrefixOf_iff_prefix.mp hpre).isInfix
        simp [after, hpre, hinfix]
      · have hnot : ¬ pattern <+: c :: rest := fun h =>
          hpre (List.isPrefixOf_iff_prefix.mpr h)
        simp only [after, if_neg hpre, ih, List.infix_cons_iff, hnot, false_or]

/-- A C string has no terminator inside. -/
theorem stop_not_mem_upTo (stop : α) (buffer : List α) : stop ∉ upTo stop buffer :=
  fun h => by simpa using List.mem_takeWhile_imp h

/-- A text without terminators is its own C string. -/
theorem upTo_eq_self {stop : α} {text : List α} (h : stop ∉ text) :
    upTo stop text = text := by
  refine List.takeWhile_eq_self_iff.mpr ?_
  intro c hc
  have hne : c ≠ stop := by
    rintro rfl
    exact h hc
  simpa using hne

/-- A text without terminators is kept in front of what follows it. -/
theorem upTo_append {stop : α} {text : List α} (h : stop ∉ text) (rest : List α) :
    upTo stop (text ++ rest) = text ++ upTo stop rest := by
  refine List.takeWhile_append_of_pos ?_
  intro c hc
  have hne : c ≠ stop := by
    rintro rfl
    exact h hc
  simpa using hne

theorem upTo_cons {stop c : α} (h : c ≠ stop) (rest : List α) :
    upTo stop (c :: rest) = c :: upTo stop rest := by
  simp [upTo, h]

theorem isPrefixOf_append_iff {pattern text : List α} (h : pattern.length ≤ text.length)
    (more : List α) :
    pattern.isPrefixOf (text ++ more) = true ↔ pattern.isPrefixOf text = true := by
  rw [List.isPrefixOf_iff_prefix, List.isPrefixOf_iff_prefix]
  constructor
  · intro hpre
    exact List.prefix_of_prefix_length_le hpre (List.prefix_append text more) h
  · intro hpre
    exact hpre.trans (List.prefix_append text more)

theorem length_le_of_occurs {pattern text : List α} (h : occurs pattern text = true) :
    pattern.length ≤ text.length :=
  ((occurs_iff pattern text).mp h).length_le

/-- The first occurrence stays the first when the text goes on. -/
theorem after_append {pattern text rest : List α} (h : after pattern text = some rest)
    (more : List α) : after pattern (text ++ more) = some (rest ++ more) := by
  induction text with
  | nil =>
      have hnil : pattern = [] := by
        by_contra hne
        rw [after, if_neg hne] at h
        cases h
      rw [after, if_pos hnil] at h
      cases h
      subst hnil
      cases more <;> simp [after]
  | cons c text ih =>
      have hoccurs : occurs pattern (c :: text) = true := by rw [occurs, h]; rfl
      have hsame := isPrefixOf_append_iff (length_le_of_occurs hoccurs) more
      rw [List.cons_append] at hsame ⊢
      rw [after]
      by_cases hpre : pattern.isPrefixOf (c :: text) = true
      · rw [after, if_pos hpre] at h
        cases h
        have hlength := (List.isPrefixOf_iff_prefix.mp hpre).length_le
        rw [if_pos (hsame.mpr hpre), ← List.cons_append, List.drop_append_of_le_length hlength]
      · rw [after, if_neg hpre] at h
        rw [if_neg fun hlonger => hpre (hsame.mp hlonger)]
        exact ih h

/-- What precedes the first occurrence stays the same when the text goes on. -/
theorem before_append {pattern text : List α} (h : occurs pattern text = true)
    (more : List α) : before pattern (text ++ more) = before pattern text := by
  induction text with
  | nil =>
      have hnil : pattern = [] := by
        by_contra hne
        rw [occurs, after, if_neg hne] at h
        cases h
      subst hnil
      cases more <;> simp [before]
  | cons c text ih =>
      have hsame := isPrefixOf_append_iff (length_le_of_occurs h) more
      rw [List.cons_append] at hsame ⊢
      rw [before, before]
      by_cases hpre : pattern.isPrefixOf (c :: text) = true
      · rw [if_pos hpre, if_pos (hsame.mpr hpre)]
      · rw [if_neg hpre, if_neg fun hlonger => hpre (hsame.mp hlonger), ih]
        rw [occurs, after, if_neg hpre] at h
        exact h

/-- What does not start inside a piece is behind it. -/
theorem after_skip {pattern piece rest : List α}
    (h : ∀ back, back <:+ piece → back ≠ [] → ¬ pattern <+: back ++ rest) :
    after pattern (piece ++ rest) = after pattern rest ∧
      before pattern (piece ++ rest) = piece ++ before pattern rest := by
  induction piece with
  | nil => exact ⟨rfl, rfl⟩
  | cons c piece ih =>
      have hhead : ¬ pattern.isPrefixOf (c :: (piece ++ rest)) = true := fun hp =>
        h (c :: piece) (List.suffix_refl _) (List.cons_ne_nil _ _)
          (List.isPrefixOf_iff_prefix.mp hp)
      obtain ⟨hafter, hbefore⟩ := ih fun back hback =>
        h back (hback.trans (List.suffix_cons c piece))
      rw [List.cons_append, after, if_neg hhead, before, if_neg hhead, hafter, hbefore]
      exact ⟨rfl, rfl⟩

omit [DecidableEq α] in
/-- A pattern without `sep` does not reach over one. -/
theorem prefix_of_prefix_cons {sep : α} {pattern start more : List α} (hsep : sep ∉ pattern)
    (h : pattern <+: start ++ sep :: more) : pattern <+: start := by
  rcases Nat.lt_or_ge start.length pattern.length with hlt | hle
  · have hcut : start ++ [sep] <+: start ++ sep :: more := ⟨more, by simp⟩
    have hinside : start ++ [sep] <+: pattern := by
      refine List.prefix_of_prefix_length_le hcut h ?_
      rw [List.length_append, List.length_singleton]
      exact hlt
    exact absurd (hinside.subset (List.mem_append_right _ List.mem_cons_self)) hsep
  · exact List.prefix_of_prefix_length_le h (List.prefix_append _ _) hle

/-- A pattern without `sep` that is not in front of one is behind it. -/
theorem skip_append_cons {sep : α} {pattern text : List α} (hsep : sep ∉ pattern)
    (h : occurs pattern text = false) (more : List α) :
    after pattern (text ++ sep :: more) = after pattern more ∧
      before pattern (text ++ sep :: more) = text ++ sep :: before pattern more := by
  have hnot : ∀ back, back <:+ text ++ [sep] → back ≠ [] → ¬ pattern <+: back ++ more := by
    intro back hback hne hprefix
    obtain ⟨start, rfl, hstart⟩ := (List.suffix_concat_iff.mp hback).resolve_left hne
    rw [List.append_assoc] at hprefix
    have hinfix := (prefix_of_prefix_cons hsep hprefix).isInfix.trans hstart.isInfix
    rw [(occurs_iff pattern text).mpr hinfix] at h
    cases h
  have hskip := after_skip hnot
  rwa [List.append_assoc, List.append_assoc] at hskip

/-- A pattern without `sep` occurs on one side of it. -/
theorem occurs_append_cons {sep : α} {pattern : List α} (hsep : sep ∉ pattern)
    (text more : List α) :
    occurs pattern (text ++ sep :: more) = (occurs pattern text || occurs pattern more) := by
  cases h : occurs pattern text with
  | true =>
      have hinfix := (occurs_iff pattern text).mp h
      rw [Bool.true_or, occurs_iff]
      exact hinfix.trans (List.prefix_append _ _).isInfix
  | false =>
      rw [Bool.false_or]
      unfold occurs
      rw [(skip_append_cons hsep h more).1]

/-- What precedes the first occurrence is the beginning of the text. -/
theorem before_isFront (pattern text : List α) : before pattern text <+: text := by
  induction text with
  | nil => exact List.prefix_refl []
  | cons c text ih =>
      rw [before]
      split
      · exact List.nil_prefix
      · exact List.prefix_cons_inj c |>.mpr ih

/-- A text is cut at the first occurrence into three. -/
theorem before_append_after {pattern text rest : List α}
    (h : after pattern text = some rest) : before pattern text ++ pattern ++ rest = text := by
  induction text with
  | nil =>
      by_cases hnil : pattern = []
      · rw [after, if_pos hnil] at h
        cases h
        subst hnil
        rfl
      · rw [after, if_neg hnil] at h
        cases h
  | cons c text ih =>
      by_cases hpre : pattern.isPrefixOf (c :: text) = true
      · rw [after, if_pos hpre] at h
        cases h
        rw [before, if_pos hpre, List.nil_append]
        exact (List.prefix_append_drop (List.isPrefixOf_iff_prefix.mp hpre)).symm
      · rw [after, if_neg hpre] at h
        rw [before, if_neg hpre, List.cons_append, List.cons_append, ih h]

/-- The first occurrence is in front of every other. -/
theorem length_before_le {pattern text front back : List α}
    (h : text = front ++ pattern ++ back) : (before pattern text).length ≤ front.length := by
  have hoccurs : occurs pattern (front ++ pattern) = true :=
    (occurs_iff _ _).mpr (List.suffix_append _ _).isInfix
  rw [h, before_append hoccurs]
  obtain ⟨rest, hrest⟩ := Option.isSome_iff_exists.mp hoccurs
  have hcut := congrArg List.length (before_append_after hrest)
  simp only [List.length_append] at hcut
  omega

/-- A pattern has arrived once its first occurrence has. -/
theorem occurs_take_iff (pattern text : List α) (n : Nat) :
    occurs pattern (text.take n) = true ↔
      occurs pattern text = true ∧ (before pattern text).length + pattern.length ≤ n := by
  constructor
  · intro h
    have hwhole : occurs pattern (text.take n ++ text.drop n) = true := by
      cases hafter : after pattern (text.take n) with
      | none => rw [occurs, hafter] at h; cases h
      | some rest => rw [occurs, after_append hafter]; rfl
    have hsame := before_append h (text.drop n)
    rw [List.take_append_drop] at hwhole hsame
    refine ⟨hwhole, ?_⟩
    obtain ⟨rest, hafter⟩ := Option.isSome_iff_exists.mp h
    have hcut := congrArg List.length (before_append_after hafter)
    rw [List.length_append, List.length_append] at hcut
    have hn := List.length_take_le n text
    rw [hsame]
    omega
  · rintro ⟨h, hn⟩
    obtain ⟨rest, hafter⟩ := Option.isSome_iff_exists.mp h
    have hcut := before_append_after hafter
    rw [occurs_iff]
    have hpiece : before pattern text ++ pattern <+: text.take n := by
      rw [List.prefix_take_iff]
      refine ⟨⟨rest, hcut⟩, ?_⟩
      rw [List.length_append]
      exact hn
    exact (List.suffix_append _ _).isInfix.trans hpiece.isInfix

end CText
