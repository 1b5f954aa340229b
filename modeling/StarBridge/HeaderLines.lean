import StarBridge.HttpRequest

/-!
# The lines of a request

A request whose headers have arrived is a request line, the lines of its header
fields and a body; `exists_headedRequest` says that every text with a blank
line is one.  `findHeaderValue_eq` says which of the lines `find_header_value`
takes: the first that reads like the field, the request line among them, and the
value it returns runs on behind that line.
-/

namespace StarBridge

open CText

/-! ## Lines -/

/-- Lines, each with its line break, in front of a blank line and a body. -/
def linesText (lines : List Bytes) (body : Bytes) : Bytes :=
  lines.flatMap (· ++ crlf) ++ (crlf ++ body)

theorem linesText_nil (body : Bytes) : linesText [] body = crlf ++ body := rfl

theorem linesText_cons (line : Bytes) (lines : List Bytes) (body : Bytes) :
    linesText (line :: lines) body = line ++ (crlf ++ linesText lines body) := by
  simp [linesText]

/-- A request with complete headers, in its parts. -/
structure HeadedRequest where
  requestLine : Bytes
  fields : List Bytes
  body : Bytes
  no_break : ∀ line ∈ requestLine :: fields, ¬ crlf <:+: line
  no_zero : ∀ line ∈ requestLine :: fields, (0 : UInt8) ∉ line
  no_gap : ∀ line ∈ fields, line ≠ []

namespace HeadedRequest

def lines (r : HeadedRequest) : List Bytes := r.requestLine :: r.fields

def bytes (r : HeadedRequest) : Bytes := linesText r.lines r.body

end HeadedRequest

/-- The value of a line that reads like the field, from its first byte that is
not blank to the end of the line. -/
def fieldValue (name line : Bytes) : Option Bytes :=
  if startsWithCi name line ∧ (line.drop name.length).head? = some 58 then
    some ((line.drop (name.length + 1)).dropWhile isBlank)
  else none

/-- The value of the first line that reads like the field, and the lines behind it. -/
def firstField (name : Bytes) : List Bytes → Option (Bytes × List Bytes)
  | [] => none
  | line :: more =>
      match fieldValue name line with
      | some value => some (value, more)
      | none => firstField name more

/-! ## Line breaks -/

/-- No line break starts inside a line. -/
theorem not_crlf_inside {line back : Bytes} (hline : ¬ crlf <:+: line) (hback : back <:+ line)
    (hne : back ≠ []) (rest : Bytes) : ¬ crlf <+: back ++ (crlf ++ rest) := by
  intro hprefix
  match back, hne with
  | [c], _ =>
      obtain ⟨more, hmore⟩ := hprefix
      have hsecond := (List.cons.inj (List.cons.inj hmore).2).1
      exact absurd hsecond (by decide)
  | c :: d :: back, _ =>
      have hinside : crlf <+: c :: d :: back :=
        List.prefix_of_prefix_length_le hprefix (List.prefix_append _ _)
          (by simp [crlf])
      exact hline (hinside.isInfix.trans hback.isInfix)

theorem before_line {line : Bytes} (hline : ¬ crlf <:+: line) (rest : Bytes) :
    before crlf (line ++ (crlf ++ rest)) = line := by
  rw [(after_skip fun back hback hne => not_crlf_inside hline hback hne rest).2]
  exact List.append_nil line

/-- A line that is not empty is not a line break. -/
theorem not_crlf_front {line : Bytes} (hline : ¬ crlf <:+: line) (hne : line ≠ [])
    (lines : List Bytes) (body : Bytes) : ¬ crlf <+: linesText (line :: lines) body := by
  rw [linesText_cons]
  exact not_crlf_inside hline (List.suffix_refl line) hne _

/-- A line is passed on the way to the blank line. -/
theorem after_blankLine_line {line rest : Bytes} (hline : ¬ crlf <:+: line)
    (hrest : ¬ crlf <+: rest) :
    after (crlf ++ crlf) (line ++ (crlf ++ rest)) = after (crlf ++ crlf) rest := by
  rw [(after_skip fun back hback hne hp =>
    not_crlf_inside hline hback hne rest ((List.prefix_append crlf crlf).trans hp)).1]
  refine (after_skip fun back hback hne hp => ?_).1
  have hcases : back = crlf ∨ back = [10] := by
    rcases List.suffix_cons_iff.mp hback with rfl | hback
    · exact Or.inl rfl
    · rcases List.suffix_cons_iff.mp hback with rfl | hback
      · exact Or.inr rfl
      · exact absurd (List.suffix_nil.mp hback) hne
  rcases hcases with rfl | rfl
  · exact hrest ((List.prefix_append_right_inj crlf).mp hp)
  · obtain ⟨more, hmore⟩ := hp
    exact absurd (List.cons.inj hmore).1 (by decide)

/-- The blank line is the one behind the lines. -/
theorem after_blankLine_linesText {line : Bytes} {lines : List Bytes}
    (hbreak : ∀ l ∈ line :: lines, ¬ crlf <:+: l) (hgap : ∀ l ∈ lines, l ≠ []) (body : Bytes) :
    after (crlf ++ crlf) (linesText (line :: lines) body) = some body := by
  induction lines generalizing line with
  | nil =>
      have hline := hbreak line List.mem_cons_self
      rw [linesText_cons, linesText_nil, (after_skip fun back hback hne hp =>
        not_crlf_inside hline hback hne _ ((List.prefix_append crlf crlf).trans hp)).1]
      rfl
  | cons next lines ih =>
      have hnext := hbreak next (List.mem_cons_of_mem _ List.mem_cons_self)
      have hfront := not_crlf_front hnext (hgap next List.mem_cons_self) lines body
      rw [linesText_cons, after_blankLine_line (hbreak line List.mem_cons_self) hfront]
      exact ih (fun l hl => hbreak l (List.mem_cons_of_mem _ hl))
        fun l hl => hgap l (List.mem_cons_of_mem _ hl)

/-! ## The search -/

theorem startsWithCi_append {name line : Bytes} (h : name.length ≤ line.length) (rest : Bytes) :
    startsWithCi name (line ++ rest) = startsWithCi name line := by
  unfold startsWithCi
  rw [List.take_append_of_le_length h]

/-- A line that reads like a field goes on behind the name. -/
theorem lt_of_drop_head {line : Bytes} {n : Nat} {c : UInt8} (h : (line.drop n).head? = some c) :
    n < line.length := by
  by_contra hle
  rw [List.drop_of_length_le (by omega)] at h
  cases h

/-- What the search asks of a line, it asks of the line alone. -/
theorem lineMatches_iff (name line rest : Bytes) :
    (name.length < line.length ∧ startsWithCi name (line ++ rest) ∧
        ((line ++ rest).drop name.length).head? = some 58) ↔
      (startsWithCi name line ∧ (line.drop name.length).head? = some 58) := by
  constructor
  · rintro ⟨hlt, hstarts, hcolon⟩
    rw [startsWithCi_append (by omega)] at hstarts
    rw [List.drop_append_of_le_length (by omega), List.head?_append_of_ne_nil] at hcolon
    · exact ⟨hstarts, hcolon⟩
    · exact List.ne_nil_of_length_pos (by rw [List.length_drop]; omega)
  · rintro ⟨hstarts, hcolon⟩
    have hlt := lt_of_drop_head hcolon
    refine ⟨hlt, by rwa [startsWithCi_append (by omega)], ?_⟩
    rw [List.drop_append_of_le_length (by omega), List.head?_append_of_ne_nil]
    · exact hcolon
    · exact List.ne_nil_of_length_pos (by rw [List.length_drop]; omega)

/-- The blanks in front of a value, counted in its line, are taken off the text. -/
theorem drop_blanks (value rest : Bytes) :
    (value ++ rest).drop (value.takeWhile isBlank).length =
      value.dropWhile isBlank ++ rest := by
  induction value with
  | nil => rfl
  | cons c value ih =>
      rw [List.takeWhile_cons, List.dropWhile_cons]
      cases isBlank c with
      | true => exact ih
      | false => rfl

theorem length_linesText_cons (line : Bytes) (lines : List Bytes) (body : Bytes) :
    (linesText (line :: lines) body).length =
      line.length + 2 + (linesText lines body).length := by
  rw [linesText_cons]
  simp only [List.length_append]
  rw [show crlf.length = 2 from rfl]
  omega

theorem le_length_linesText (lines : List Bytes) (body : Bytes) :
    2 + body.length ≤ (linesText lines body).length := by
  unfold linesText
  simp only [List.length_append]
  rw [show crlf.length = 2 from rfl]
  omega

theorem length_le_linesText (lines : List Bytes) (body : Bytes) :
    lines.length ≤ (linesText lines body).length := by
  induction lines with
  | nil => exact Nat.zero_le _
  | cons line lines ih =>
      rw [length_linesText_cons, List.length_cons]
      omega

theorem length_linesText_iff (lines : List Bytes) (body : Bytes) :
    (linesText lines body).length ≤ 2 + body.length ↔ lines = [] := by
  constructor
  · intro h
    cases lines with
    | nil => rfl
    | cons line lines =>
        have hlength := length_linesText_cons line lines body
        have hle := le_length_linesText lines body
        omega
  · rintro rfl
    rw [linesText_nil, List.length_append]
    exact Nat.le_refl _

/-- One round of the search. -/
theorem findHeaderLine_line (name body : Bytes) {line : Bytes} (lines : List Bytes)
    (hline : ¬ crlf <:+: line) (hsome : line ≠ [] ∨ lines ≠ []) (fuel : Nat) :
    findHeaderLine name (body.length + 4) (fuel + 1) (linesText (line :: lines) body) =
      match fieldValue name line with
      | some value => some (value ++ (crlf ++ linesText lines body))
      | none =>
          if lines = [] then none
          else findHeaderLine name (body.length + 4) fuel (linesText lines body) := by
  have hlength := length_linesText_cons line lines body
  have hle := le_length_linesText lines body
  have hlast := length_linesText_iff lines body
  have hopen : ¬ (linesText (line :: lines) body).length ≤ body.length + 4 := by
    rcases hsome with hne | hne
    · have hpos := List.length_pos_of_ne_nil hne
      omega
    · have hlong : ¬ (linesText lines body).length ≤ 2 + body.length := fun h => hne (hlast.mp h)
      omega
  have hbefore : before crlf (linesText (line :: lines) body) = line := by
    rw [linesText_cons]
    exact before_line hline _
  have hlen : min line.length ((linesText (line :: lines) body).length - (body.length + 4)) =
      line.length := min_eq_left (by omega)
  have hend : (linesText (line :: lines) body).length - (body.length + 4) ≤ line.length ↔
      lines = [] := by
    rw [← hlast]
    omega
  have hnext : (linesText (line :: lines) body).drop (line.length + 2) = linesText lines body := by
    rw [linesText_cons, ← List.append_assoc]
    exact List.drop_left' (by rw [List.length_append]; rfl)
  have hmatches := lineMatches_iff name line (crlf ++ linesText lines body)
  rw [← linesText_cons] at hmatches
  rw [findHeaderLine, if_neg hopen]
  dsimp only
  rw [hbefore, hlen, hnext, fieldValue]
  by_cases hfield : startsWithCi name line = true ∧ (line.drop name.length).head? = some 58
  · have hlt := lt_of_drop_head hfield.2
    have hvalue : (linesText (line :: lines) body).drop (name.length + 1) =
        line.drop (name.length + 1) ++ (crlf ++ linesText lines body) := by
      rw [linesText_cons, List.drop_append_of_le_length hlt]
    rw [if_pos (hmatches.mpr hfield), if_pos hfield, hvalue, List.take_left' ?_, drop_blanks]
    rw [List.length_drop]
    omega
  · rw [if_neg fun h => hfield (hmatches.mp h), if_neg hfield]
    dsimp only
    simp only [hend]

/-- The loop of `find_header_value` takes the first line that reads like the field. -/
theorem findHeaderLine_linesText (name body : Bytes) {line : Bytes} {lines : List Bytes}
    (hbreak : ∀ l ∈ line :: lines, ¬ crlf <:+: l) (hgap : ∀ l ∈ lines, l ≠ [])
    (hsome : line ≠ [] ∨ lines ≠ []) {fuel : Nat} (hfuel : lines.length < fuel) :
    findHeaderLine name (body.length + 4) fuel (linesText (line :: lines) body) =
      (firstField name (line :: lines)).map fun (value, more) =>
        value ++ (crlf ++ linesText more body) := by
  induction lines generalizing line fuel with
  | nil =>
      obtain ⟨fuel, rfl⟩ : ∃ n, fuel = n + 1 := ⟨fuel - 1, by omega⟩
      rw [findHeaderLine_line name body [] (hbreak line List.mem_cons_self) hsome, firstField]
      cases fieldValue name line with
      | some value => rfl
      | none => rfl
  | cons next lines ih =>
      obtain ⟨fuel, rfl⟩ : ∃ n, fuel = n + 1 := ⟨fuel - 1, by omega⟩
      have hnext := ih (fun l hl => hbreak l (List.mem_cons_of_mem _ hl))
        (fun l hl => hgap l (List.mem_cons_of_mem _ hl))
        (Or.inl (hgap next List.mem_cons_self)) (show lines.length < fuel by
          rw [List.length_cons] at hfuel
          omega)
      rw [findHeaderLine_line name body _ (hbreak line List.mem_cons_self) hsome, firstField]
      cases fieldValue name line with
      | some value => rfl
      | none =>
          dsimp only
          rw [if_neg (List.cons_ne_nil next lines), hnext]

namespace HeadedRequest

variable (r : HeadedRequest)

theorem cstr_bytes : cstr r.bytes = linesText r.lines (cstr r.body) := by
  have hzero : (0 : UInt8) ∉ r.lines.flatMap (· ++ crlf) ++ crlf := by
    rw [List.mem_append, List.mem_flatMap]
    rintro (⟨line, hline, hmem⟩ | hmem)
    · rcases List.mem_append.mp hmem with hmem | hmem
      · exact r.no_zero line hline hmem
      · exact absurd hmem (by decide)
    · exact absurd hmem (by decide)
  unfold bytes linesText
  rw [← List.append_assoc, ← List.append_assoc]
  exact upTo_append hzero r.body

/-- **What `find_header_value` takes**: the first line that reads like the field. -/
theorem findHeaderValue_eq (name : Bytes) :
    findHeaderValue name (cstr r.bytes) =
      (firstField name r.lines).map fun (value, more) =>
        value ++ (crlf ++ linesText more (cstr r.body)) := by
  have hblank := after_blankLine_linesText r.no_break r.no_gap (cstr r.body)
  have hlength := length_linesText_cons r.requestLine r.fields (cstr r.body)
  rw [cstr_bytes, lines, findHeaderValue, hblank]
  dsimp only
  by_cases hsome : r.requestLine ≠ [] ∨ r.fields ≠ []
  · refine findHeaderLine_linesText name (cstr r.body) r.no_break r.no_gap hsome ?_
    have hle := length_le_linesText r.fields (cstr r.body)
    omega
  · -- an empty request line and no fields: the text is its blank line
    rw [not_or, not_not, not_not] at hsome
    rw [hsome.1, hsome.2] at hlength ⊢
    have hempty : fieldValue name [] = none := by
      rw [fieldValue, if_neg fun h => absurd h.2 (by rw [List.drop_nil]; intro hnil; cases hnil)]
    rw [findHeaderLine_short name _ (by
      rw [hlength, linesText_nil, List.length_append, List.length_nil, show crlf.length = 2 from rfl]
      omega), firstField, hempty, firstField]
    rfl

end HeadedRequest

/-! ## Every request -/

theorem before_crlf_clean (s : Bytes) : ¬ crlf <:+: before crlf s := by
  rintro ⟨front, back, hcut⟩
  obtain ⟨rest, hrest⟩ := before_isFront crlf s
  have hle := length_before_le (show s = front ++ crlf ++ (back ++ rest) by
    rw [← hrest, ← hcut, List.append_assoc _ back])
  have hlen := congrArg List.length hcut
  simp only [List.length_append] at hlen
  rw [show crlf.length = 2 from rfl] at hlen
  omega

/-- A text with a blank line is made of lines. -/
theorem exists_linesText {s : Bytes} (h : occurs (crlf ++ crlf) s = true) :
    ∃ line lines body, linesText (line :: lines) body = s ∧
      (∀ l ∈ line :: lines, ¬ crlf <:+: l) ∧ ∀ l ∈ lines, l ≠ [] := by
  induction hn : s.length using Nat.strong_induction_on generalizing s with
  | _ n ih =>
      have hbreak : occurs crlf s = true := (occurs_iff _ _).mpr
        ((List.prefix_append crlf crlf).isInfix.trans ((occurs_iff _ _).mp h))
      obtain ⟨rest, hrest⟩ := Option.isSome_iff_exists.mp hbreak
      have hcut := before_append_after hrest
      rw [List.append_assoc] at hcut
      have hline := before_crlf_clean s
      by_cases hblank : crlf <+: rest
      · obtain ⟨body, rfl⟩ := hblank
        refine ⟨before crlf s, [], body, ?_, ?_, fun l hl => by cases hl⟩
        · rw [linesText_cons, linesText_nil]
          exact hcut
        · rintro l hl
          rw [List.mem_singleton.mp hl]
          exact hline
      · have hbehind : occurs (crlf ++ crlf) rest = true := by
          rw [← hcut, occurs, after_blankLine_line hline hblank] at h
          exact h
        have hlt : rest.length < n := by
          have hlen := congrArg List.length hcut
          simp only [List.length_append] at hlen
          rw [show crlf.length = 2 from rfl] at hlen
          omega
        obtain ⟨line, lines, body, htext, hclean, hgap⟩ := ih rest.length hlt hbehind rfl
        refine ⟨before crlf s, line :: lines, body, ?_, ?_, ?_⟩
        · rw [linesText_cons, htext]
          exact hcut
        · exact List.forall_mem_cons.mpr ⟨hline, hclean⟩
        · refine List.forall_mem_cons.mpr ⟨?_, hgap⟩
          rintro rfl
          rw [← htext, linesText_cons] at hblank
          exact hblank (List.prefix_append crlf _)

/-- **Every request with complete headers** has these parts. -/
theorem exists_headedRequest {raw : Bytes} (h : occurs (crlf ++ crlf) (cstr raw) = true) :
    ∃ r : HeadedRequest, r.bytes = raw := by
  obtain ⟨line, lines, body, htext, hclean, hgap⟩ := exists_linesText h
  obtain ⟨tail, htail⟩ : cstr raw <+: raw := List.takeWhile_prefix _
  have hzero : ∀ l ∈ line :: lines, (0 : UInt8) ∉ l := by
    intro l hl hmem
    refine stop_not_mem_upTo 0 raw ?_
    rw [show upTo 0 raw = cstr raw from rfl, ← htext, linesText]
    exact List.mem_append_left _
      (List.mem_flatMap.mpr ⟨l, hl, List.mem_append_left _ hmem⟩)
  refine ⟨⟨line, lines, body ++ tail, hclean, hzero, hgap⟩, ?_⟩
  rw [← htail, ← htext]
  simp [HeadedRequest.bytes, HeadedRequest.lines, linesText]

end StarBridge
