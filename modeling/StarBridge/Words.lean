import Mathlib.Data.List.TakeWhile
import Mathlib.Tactic.Common

/-!
# Words

The words of a text are its longest parts without blanks.  `words` takes a text apart and
`unwords` puts words together, with one separator between them.

* `words_append_cons`: a blank parts the words before it from those behind it;
* `words_unwords`: words that were put together are found again;
* `head?_unwords_words`: a text begins with the same symbol when its blanks are set right.
-/

namespace Words

variable {α : Type*}

/-- The words of a text. -/
def words (blank : α → Bool) (text : List α) : List (List α) :=
  (text.splitOnP blank).filter fun word => !word.isEmpty

/-- Words with a separator between them. -/
def unwords (sep : α) : List (List α) → List α
  | [] => []
  | [word] => word
  | word :: rest => word ++ sep :: unwords sep rest

variable {blank : α → Bool}

/-- A text in which something stands, but no blank. -/
structure IsWord (blank : α → Bool) (word : List α) : Prop where
  ne_nil : word ≠ []
  not_blank : ∀ x ∈ word, blank x = false

/-! ## Taking apart -/

@[simp] theorem words_nil : words blank [] = [] := by simp [words]

theorem words_of_isWord {word : List α} (h : IsWord blank word) : words blank word = [word] := by
  have hne := h.ne_nil
  unfold words
  rw [List.splitOnP_eq_singleton h.not_blank]
  simp [hne]

/-- **A blank parts the words.** -/
theorem words_append_cons {b : α} (hb : blank b = true) (front back : List α) :
    words blank (front ++ b :: back) = words blank front ++ words blank back := by
  unfold words
  rw [List.splitOnP_append_cons front back hb, List.filter_append]

/-- **Word by word.**  A property of a text, from a text without blanks and a first blank. -/
theorem word_induction {motive : List α → Prop}
    (last : ∀ text, (∀ x ∈ text, blank x = false) → motive text)
    (part : ∀ front b back, (∀ x ∈ front, blank x = false) → blank b = true → motive back →
      motive (front ++ b :: back))
    (text : List α) : motive text := by
  induction hlength : text.length using Nat.strongRecOn generalizing text with
  | ind n ih =>
      have hsplit := List.takeWhile_append_dropWhile (p := fun x => !blank x) (l := text)
      have hfront : ∀ x ∈ text.takeWhile fun x => !blank x, blank x = false := fun x hx => by
        simpa using List.mem_takeWhile_imp hx
      cases hrest : text.dropWhile fun x => !blank x with
      | nil =>
          rw [hrest, List.append_nil] at hsplit
          exact last text (hsplit ▸ hfront)
      | cons b back =>
          have hb := List.head?_dropWhile_not (fun x => !blank x) text
          rw [hrest] at hb hsplit
          rw [← hsplit]
          refine part _ b back hfront (by simpa using hb) (ih back.length ?_ back rfl)
          rw [← hlength, ← hsplit, List.length_append, List.length_cons]
          omega

theorem isWord_of_mem_words {text word : List α} (h : word ∈ words blank text) :
    IsWord blank word := by
  induction text using @word_induction α blank with
  | last text hfree =>
      by_cases hne : text = []
      · rw [hne, words_nil] at h
        cases h
      · rw [words_of_isWord ⟨hne, hfree⟩] at h
        rw [List.mem_singleton.mp h]
        exact ⟨hne, hfree⟩
  | part front b back hfree hb ih =>
      rw [words_append_cons hb] at h
      rcases List.mem_append.mp h with hfront | hback
      · by_cases hne : front = []
        · rw [hne, words_nil] at hfront
          cases hfront
        · rw [words_of_isWord ⟨hne, hfree⟩] at hfront
          rw [List.mem_singleton.mp hfront]
          exact ⟨hne, hfree⟩
      · exact ih hback

/-! ## Putting together -/

variable {sep : α}

theorem unwords_cons_of_ne_nil (word : List α) {rest : List (List α)} (h : rest ≠ []) :
    unwords sep (word :: rest) = word ++ sep :: unwords sep rest := by
  cases rest with
  | nil => exact absurd rfl h
  | cons _ _ => rfl

/-- **What was put together** is taken apart into the same words. -/
theorem words_unwords (hsep : blank sep = true) {ws : List (List α)}
    (h : ∀ word ∈ ws, IsWord blank word) : words blank (unwords sep ws) = ws := by
  induction ws with
  | nil => exact words_nil
  | cons word rest ih =>
      have hword := words_of_isWord (h word List.mem_cons_self)
      have hrest := ih fun word hmem => h word (List.mem_cons_of_mem _ hmem)
      by_cases hne : rest = []
      · rw [hne]
        exact hword
      · rw [unwords_cons_of_ne_nil word hne, words_append_cons hsep, hword, hrest]
        rfl

/-- Between the words there are only separators. -/
theorem mem_unwords {x : α} {ws : List (List α)} (h : x ∈ unwords sep ws) :
    x = sep ∨ ∃ word ∈ ws, x ∈ word := by
  induction ws with
  | nil => cases h
  | cons word rest ih =>
      by_cases hne : rest = []
      · rw [hne] at h
        exact .inr ⟨word, List.mem_cons_self, h⟩
      · rw [unwords_cons_of_ne_nil word hne] at h
        rcases List.mem_append.mp h with hfront | hback
        · exact .inr ⟨word, List.mem_cons_self, hfront⟩
        · rcases List.mem_cons.mp hback with hsep | hrest
          · exact .inl hsep
          · obtain hsep | ⟨w, hw, hin⟩ := ih hrest
            · exact .inl hsep
            · exact .inr ⟨w, List.mem_cons_of_mem _ hw, hin⟩

theorem head?_unwords_cons {word : List α} (h : word ≠ []) (rest : List (List α)) :
    (unwords sep (word :: rest)).head? = word.head? := by
  by_cases hne : rest = []
  · rw [hne]
    rfl
  · obtain ⟨x, word, rfl⟩ := List.exists_cons_of_ne_nil h
    rw [unwords_cons_of_ne_nil _ hne]
    rfl

/-- **The first symbol** of the words is the first of the text that is not blank. -/
theorem head?_unwords_words (text : List α) :
    (unwords sep (words blank text)).head? = (text.dropWhile blank).head? := by
  have hfront : ∀ {front : List α} (back : List α), (∀ x ∈ front, blank x = false) → front ≠ [] →
      ((front ++ back).dropWhile blank).head? = front.head? := by
    intro front back hfree hne
    obtain ⟨x, front, rfl⟩ := List.exists_cons_of_ne_nil hne
    have hx := hfree x List.mem_cons_self
    rw [List.cons_append, List.dropWhile_cons_of_neg (by simp [hx])]
    rfl
  induction text using @word_induction α blank with
  | last text hfree =>
      by_cases hne : text = []
      · rw [hne, words_nil]
        rfl
      · have hhead := hfront [] hfree hne
        rw [List.append_nil] at hhead
        rw [words_of_isWord ⟨hne, hfree⟩, hhead]
        rfl
  | part front b back hfree hb ih =>
      rw [words_append_cons hb]
      by_cases hne : front = []
      · rw [hne, words_nil, List.nil_append, List.nil_append, List.dropWhile_cons_of_pos hb, ih]
      · rw [words_of_isWord ⟨hne, hfree⟩, List.singleton_append, head?_unwords_cons hne,
          hfront _ hfree hne]

end Words
