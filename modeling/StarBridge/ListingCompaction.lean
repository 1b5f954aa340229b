import StarBridge.CompactionNotices
import StarBridge.WhileLoops

/-!
# Compaction of directory listings

`_compact_dir_listings` goes through the lines of a turn: a long run of listing lines
becomes one line that says how many they were, a short one stays.  `KeepsAnswer` is what
a caller wants of the result.

The loop moves on by the listing lines it finds, so a line that is none stops it for
ever.  It ends, and keeps the answer, iff there are no more lines than the limit or
nothing but listing lines (`compaction_ends_iff`).
-/

namespace StarBridge

open CText WhileLoop

variable {α : Type*} (textOf : α → PyStr)

/-! ## The loop -/

/-- A line of the result: one of the lines, or the summary of a run of them. -/
inductive ListingEntry (α : Type*)
  | kept (line : α)
  | summary (burst : List α)
  deriving DecidableEq, Repr

/-- What an entry reads. -/
def ListingEntry.text : ListingEntry α → PyStr
  | .kept line => textOf line
  | .summary burst => listingSummary (burst.map textOf)

/-- The lines an entry stands for. -/
def ListingEntry.lines : ListingEntry α → List α
  | .kept line => [line]
  | .summary burst => burst

/-- The variables of the loop, and the frames it has written. -/
structure ListingLoop (α : Type*) where
  i : Nat
  compacted : List (ListingEntry α)
  notices : List Bytes

/-- The lines from `i` on up to the first that is no listing line. -/
def burstAt (lines : List α) (i : Nat) : List α :=
  (lines.drop i).takeWhile fun line => looksLikeListingLine (textOf line)

/-- A round of the outer loop. -/
def listingRound (lines : List α) (s : ListingLoop α) : ListingLoop α :=
  let burst := burstAt textOf lines s.i
  if 15 < burst.length then
    { i := s.i + burst.length
      compacted := s.compacted ++ [.summary burst]
      notices := s.notices ++ [noticeFrame (listingNotice burst.length)] }
  else
    { s with i := s.i + burst.length, compacted := s.compacted ++ burst.map .kept }

/-- The condition of the outer loop. -/
def ListingLoop.More (lines : List α) (s : ListingLoop α) : Prop := s.i < lines.length

instance (lines : List α) : DecidablePred (ListingLoop.More lines) :=
  fun s => inferInstanceAs (Decidable (s.i < lines.length))

/-- `_compact_dir_listings` returns, and returns these entries. -/
def CompactsTo (maxLines : Int) (lines : List α) (entries : List (ListingEntry α)) : Prop :=
  if lines = [] ∨ (lines.length : Int) ≤ maxLines then entries = lines.map .kept
  else ∃ s, Leaves (ListingLoop.More lines) (listingRound textOf lines) ⟨0, [], []⟩ s ∧ entries = s.compacted

/-! ## When it returns -/

/-- Every line is a listing line. -/
def AllListing (lines : List α) : Prop := ∀ line ∈ lines, looksLikeListingLine (textOf line) = true

instance (lines : List α) : Decidable (AllListing textOf lines) :=
  inferInstanceAs (Decidable (∀ line ∈ lines, looksLikeListingLine (textOf line) = true))

variable {textOf}

theorem burstAt_zero_of_all {lines : List α} (h : AllListing textOf lines) :
    burstAt textOf lines 0 = lines := by
  rw [burstAt, List.drop_zero]
  exact List.takeWhile_eq_self_iff.mpr h

/-- Behind a burst comes the end, or a line that is no listing line. -/
theorem burstAt_behind (lines : List α) :
    burstAt textOf lines (burstAt textOf lines 0).length = [] := by
  have hsplit : (burstAt textOf lines 0).length =
      (lines.takeWhile fun line => looksLikeListingLine (textOf line)).length := by
    rw [burstAt, List.drop_zero]
  have hdrop : lines.drop (burstAt textOf lines 0).length =
      lines.dropWhile fun line => looksLikeListingLine (textOf line) := by
    rw [hsplit]
    conv_lhs =>
      arg 2
      rw [← @List.takeWhile_append_dropWhile _ (fun line => looksLikeListingLine (textOf line)) lines]
    exact List.drop_left
  rw [burstAt, hdrop]
  cases hrest : lines.dropWhile fun line => looksLikeListingLine (textOf line) with
  | nil => rfl
  | cons line rest =>
      have hnot := List.head?_dropWhile_not (fun line => looksLikeListingLine (textOf line)) lines
      rw [hrest] at hnot
      exact List.takeWhile_cons_of_neg (by simpa using hnot)

/-- Where a burst is empty, a round changes nothing. -/
theorem listingRound_of_no_burst {lines : List α} {s : ListingLoop α}
    (h : burstAt textOf lines s.i = []) : listingRound textOf lines s = s := by
  simp [listingRound, h]

theorem listingRound_i (lines : List α) (s : ListingLoop α) :
    (listingRound textOf lines s).i = s.i + (burstAt textOf lines s.i).length := by
  simp only [listingRound]
  split <;> rfl

/-- What the first round makes of a list of listing lines only. -/
def listingEntries (lines : List α) : List (ListingEntry α) :=
  if 15 < lines.length then [.summary lines] else lines.map .kept

/-- **The loop ends** iff there are only listing lines. -/
theorem leaves_listing_iff {lines : List α} (hne : lines ≠ []) {s : ListingLoop α} :
    Leaves (ListingLoop.More lines) (listingRound textOf lines) ⟨0, [], []⟩ s ↔
      AllListing textOf lines ∧ s = listingRound textOf lines ⟨0, [], []⟩ := by
  have hfirst : ListingLoop.More lines ⟨0, [], []⟩ := List.length_pos_iff.mpr hne
  rw [leaves_body_iff hfirst]
  have hround : (listingRound textOf lines ⟨0, [], []⟩).i = (burstAt textOf lines 0).length := by
    rw [listingRound_i]
    exact Nat.zero_add _
  by_cases hall : AllListing textOf lines
  · have hend : ¬ ListingLoop.More lines (listingRound textOf lines ⟨0, [], []⟩) := by
      rw [ListingLoop.More, hround, burstAt_zero_of_all hall]
      exact Nat.lt_irrefl _
    rw [leaves_iff_of_not_guard hend, and_iff_right hall]
  · have hmore : ListingLoop.More lines (listingRound textOf lines ⟨0, [], []⟩) := by
      rw [ListingLoop.More, hround, burstAt, List.drop_zero]
      have hopens := List.takeWhile_prefix (l := lines)
        fun line => looksLikeListingLine (textOf line)
      refine lt_of_le_of_ne hopens.length_le fun hlength => hall ?_
      exact List.takeWhile_eq_self_iff.mp (hopens.eq_of_length hlength)
    have hstuck : listingRound textOf lines (listingRound textOf lines ⟨0, [], []⟩) =
        listingRound textOf lines ⟨0, [], []⟩ := by
      refine listingRound_of_no_burst ?_
      rw [hround]
      exact burstAt_behind lines
    exact iff_of_false (not_leaves_of_stuck hmore hstuck) fun h => hall h.1

/-- **What the function returns**, and when. -/
theorem compactsTo_iff {maxLines : Int} {lines : List α} {entries : List (ListingEntry α)} :
    CompactsTo textOf maxLines lines entries ↔
      ((lines.length : Int) ≤ maxLines ∧ entries = lines.map .kept) ∨
        ¬ (lines.length : Int) ≤ maxLines ∧ AllListing textOf lines ∧
          entries = listingEntries lines := by
  unfold CompactsTo
  by_cases hshort : (lines.length : Int) ≤ maxLines
  · rw [if_pos (Or.inr hshort)]
    simp [hshort]
  · by_cases hne : lines = []
    · subst hne
      have hnegative : maxLines < 0 := by simpa using hshort
      simp [AllListing, listingEntries, not_le.mpr hnegative]
    · rw [if_neg (by simp [hne, hshort])]
      simp only [leaves_listing_iff hne, hshort, false_and, false_or, not_false_eq_true, true_and]
      constructor
      · rintro ⟨s, ⟨hall, rfl⟩, rfl⟩
        refine ⟨hall, ?_⟩
        simp only [listingRound, burstAt_zero_of_all hall, listingEntries]
        split <;> simp
      · rintro ⟨hall, rfl⟩
        refine ⟨_, ⟨hall, rfl⟩, ?_⟩
        simp only [listingRound, burstAt_zero_of_all hall, listingEntries]
        split <;> simp

/-! ## What it is for -/

/-- What a summary of so many lines begins with. -/
def summaryHead (length : Nat) : PyStr :=
  "[compacted listing: ".toList ++ length.repr.toList ++ " entries".toList

/-- A summary says how long the run was. -/
def StatesLength (summary : PyStr) (length : Nat) : Prop := summaryHead length <+: summary

/-- Lines stay, in order, but for runs of more than 15 listing lines, each of which may
be replaced by one line that says how long it was. -/
inductive KeepsAnswer : List PyStr → List PyStr → Prop
  | nil : KeepsAnswer [] []
  | keep {lines out : List PyStr} (line : PyStr) (h : KeepsAnswer lines out) :
      KeepsAnswer (line :: lines) (line :: out)
  | replace {run lines out : List PyStr} {summary : PyStr} (hlong : 15 < run.length)
      (hlisting : AllListing id run) (hstates : StatesLength summary run.length)
      (h : KeepsAnswer lines out) : KeepsAnswer (run ++ lines) (summary :: out)

/-- What is no listing line is still there, in order. -/
theorem KeepsAnswer.sublist {lines out : List PyStr} (h : KeepsAnswer lines out) :
    List.Sublist (lines.filter fun line => !looksLikeListingLine line) out := by
  induction h with
  | nil => exact List.Sublist.refl _
  | keep line _ ih =>
      rw [List.filter_cons]
      split
      · exact ih.cons_cons line
      · exact ih.cons line
  | replace _ hlisting _ _ ih =>
      rw [List.filter_append, List.filter_eq_nil_iff.mpr, List.nil_append]
      · exact ih.cons _
      · intro line hline
        simpa using hlisting line hline

theorem keepsAnswer_refl (lines : List PyStr) : KeepsAnswer lines lines := by
  induction lines with
  | nil => exact .nil
  | cons line rest ih => exact .keep line ih

theorem statesLength_listingSummary (burst : List PyStr) :
    StatesLength (listingSummary burst) burst.length := by
  unfold StatesLength summaryHead listingSummary
  simp only [List.append_assoc, List.prefix_append_right_inj]
  exact ⟨_, rfl⟩

/-- What the function returns keeps the answer. -/
theorem keepsAnswer_listingEntries {lines : List PyStr} (h : AllListing id lines) :
    KeepsAnswer lines ((listingEntries lines).map (ListingEntry.text id)) := by
  unfold listingEntries
  split
  · rename_i hlong
    have hone : KeepsAnswer (lines ++ []) [listingSummary lines] :=
      .replace hlong h (statesLength_listingSummary lines) .nil
    rw [List.append_nil] at hone
    simpa [ListingEntry.text] using hone
  · simpa [ListingEntry.text, Function.comp_def] using keepsAnswer_refl lines

/-- **Compaction, exactly**: it ends and keeps the answer iff there are no more lines
than the limit, or every line is a listing line. -/
theorem compaction_ends_iff (maxLines : Int) (lines : List PyStr) :
    (∃ entries, CompactsTo id maxLines lines entries ∧
      KeepsAnswer lines (entries.map (ListingEntry.text id))) ↔
      (lines.length : Int) ≤ maxLines ∨ AllListing id lines := by
  constructor
  · rintro ⟨entries, hends, -⟩
    rcases compactsTo_iff.mp hends with ⟨hshort, -⟩ | ⟨-, hall, -⟩
    · exact Or.inl hshort
    · exact Or.inr hall
  · intro h
    by_cases hshort : (lines.length : Int) ≤ maxLines
    · refine ⟨lines.map .kept, compactsTo_iff.mpr (Or.inl ⟨hshort, rfl⟩), ?_⟩
      simpa [ListingEntry.text, Function.comp_def] using keepsAnswer_refl lines
    · have hall := h.resolve_left hshort
      exact ⟨listingEntries lines, compactsTo_iff.mpr (Or.inr ⟨hshort, hall, rfl⟩),
        keepsAnswer_listingEntries hall⟩

/-- A long answer in plain words. -/
def plainAnswer : List PyStr := List.replicate 101 "ok".toList

/-- The loop does not get past the first line of a long answer. -/
theorem long_answer_never_compacted :
    ¬ ∀ (maxLines : Int) (lines : List PyStr), ∃ entries, CompactsTo id maxLines lines entries ∧
      KeepsAnswer lines (entries.map (ListingEntry.text id)) := by
  intro hall
  obtain ⟨entries, hends, -⟩ := hall 100 plainAnswer
  have hlength : plainAnswer.length = 101 := List.length_replicate
  rcases compactsTo_iff.mp hends with ⟨hshort, -⟩ | ⟨-, hlisting, -⟩
  · rw [hlength] at hshort
    exact absurd hshort (by decide)
  · exact absurd (hlisting "ok".toList (by simp [plainAnswer])) (by decide)

/-! ## The function by recursion -/

/-- Where the first line is no listing line, `compactFrom` leaves nothing. -/
theorem compactFrom_snd_of_no_burst {lines : List PyStr} (hne : lines ≠ [])
    (h : lines.takeWhile looksLikeListingLine = []) : (compactFrom lines).2 = none := by
  rw [compactFrom, if_neg hne]
  dsimp only
  rw [dif_pos h]

/-- The lines that `compactFrom` leaves. -/
theorem compactFrom_snd (lines : List PyStr) :
    (compactFrom lines).2 =
      if AllListing id lines then some ((listingEntries lines).map (ListingEntry.text id))
      else none := by
  by_cases hne : lines = []
  · rw [hne, compactFrom, if_pos rfl]
    rfl
  · by_cases hall : AllListing id lines
    · have hburst : lines.takeWhile looksLikeListingLine = lines :=
        List.takeWhile_eq_self_iff.mpr hall
      have hdone : compactFrom [] = ([], some []) := by
        rw [compactFrom]
        rfl
      rw [compactFrom, if_neg hne, if_pos hall]
      dsimp only
      rw [hburst, dif_neg hne, List.drop_length, hdone, listingEntries]
      split
      · simp [ListingEntry.text]
      · simp [ListingEntry.text, Function.comp_def]
    · rw [if_neg hall]
      by_cases hburst : lines.takeWhile looksLikeListingLine = []
      · exact compactFrom_snd_of_no_burst hne hburst
      · have hbehind := @burstAt_behind _ id lines
        have hrest : (compactFrom (lines.drop (lines.takeWhile looksLikeListingLine).length)).2 =
            none := by
          refine compactFrom_snd_of_no_burst ?_ hbehind
          intro hnil
          have hopens := List.takeWhile_prefix (l := lines) looksLikeListingLine
          have hlength := le_antisymm hopens.length_le (List.drop_eq_nil_iff.mp hnil)
          exact hall (List.takeWhile_eq_self_iff.mp (hopens.eq_of_length hlength))
        rw [compactFrom, if_neg hne]
        dsimp only
        rw [dif_neg hburst]
        split
        · rw [hrest]
          rfl
        · rw [hrest]
          rfl

/-- The function as `CompactsTo` has it, and by recursion over the lines. -/
theorem compactDirListings_snd_iff (maxLines : Int) (lines out : List PyStr) :
    (compactDirListings maxLines lines).2 = some out ↔
      ∃ entries, CompactsTo id maxLines lines entries ∧
        out = entries.map (ListingEntry.text id) := by
  have hkept : (lines.map ListingEntry.kept).map (ListingEntry.text id) = lines := by
    simp [ListingEntry.text, Function.comp_def]
  simp only [compactsTo_iff]
  unfold compactDirListings
  by_cases hshort : (lines.length : Int) ≤ maxLines
  · rw [if_pos (Or.inr hshort)]
    simp [hshort, hkept, eq_comm]
  · by_cases hne : lines = []
    · subst hne
      have hall : AllListing id ([] : List PyStr) := fun line h => absurd h List.not_mem_nil
      have hnegative : maxLines < 0 := by simpa using hshort
      simp [hall, listingEntries, not_le.mpr hnegative, eq_comm]
    · rw [if_neg (by simp [hne, hshort]), compactFrom_snd]
      simp [hshort, eq_comm]

end StarBridge
