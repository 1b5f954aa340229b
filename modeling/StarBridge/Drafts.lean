import StarBridge.CText

/-!
# Drafts

A text that a program puts together in one allocation with
`off += snprintf(buf + off, size - off, ...)`.  What the program takes for the
length is the sum of the lengths it was told, so that behind the first cut the
offset is no longer where the text ends, and once the offset is behind the
allocation the room that is left wraps around and the next write goes outside.

`printAll_text` and `printAll_inside_iff` say what a sequence of such prints
leaves and when it stays inside.  `tracks_writeAll` is for sequences in which some of the
pieces are cut to the room that is left.
-/

namespace CText

variable {α : Type*}

/-- The text that has been put together, the offset behind it as the program has
it, and whether every write was inside the allocation. -/
structure Draft (α : Type*) where
  text : List α
  off : Nat
  inside : Bool

namespace Draft

/-- The empty draft. -/
def start : Draft α := ⟨[], 0, true⟩

/-- `off += snprintf(buf + off, size - off, "%s", piece)`. -/
def print (size : Nat) (d : Draft α) (piece : List α) : Draft α :=
  { text := if d.off < size then d.text ++ clip (size - d.off) piece else d.text
    off := d.off + piece.length
    inside := d.inside && decide (d.off ≤ size) }

/-- A loop that writes element by element. -/
def write (d : Draft α) (piece : List α) : Draft α :=
  { d with text := d.text ++ piece, off := d.off + piece.length }

/-- One print after the other. -/
def printAll (size : Nat) (pieces : List (List α)) : Draft α := pieces.foldl (print size) start

/-- Nothing was cut so far. -/
structure Whole (d : Draft α) (text : List α) : Prop where
  text_eq : d.text = text
  off_eq : d.off = text.length
  inside : d.inside = true

theorem whole_start : Whole (start : Draft α) [] := ⟨rfl, rfl, rfl⟩

theorem Whole.print {d : Draft α} {text : List α} (h : d.Whole text) {size : Nat}
    (piece : List α) (hroom : text.length + piece.length < size) :
    (d.print size piece).Whole (text ++ piece) := by
  have hoff : d.off < size := by
    rw [h.off_eq]
    omega
  refine ⟨?_, ?_, ?_⟩
  · show (if d.off < size then _ else _) = _
    rw [if_pos hoff, h.text_eq, h.off_eq, clip_eq_self (by omega)]
  · rw [List.length_append, ← h.off_eq]
    rfl
  · show (d.inside && decide (d.off ≤ size)) = true
    rw [h.inside, decide_eq_true (Nat.le_of_lt hoff)]
    rfl

theorem Whole.write {d : Draft α} {text : List α} (h : d.Whole text) (piece : List α) :
    (d.write piece).Whole (text ++ piece) := by
  refine ⟨?_, ?_, h.inside⟩
  · rw [← h.text_eq]
    rfl
  · rw [List.length_append, ← h.off_eq]
    rfl

theorem printAll_append (size : Nat) (pieces : List (List α)) (piece : List α) :
    printAll size (pieces ++ [piece]) = (printAll size pieces).print size piece :=
  List.foldl_concat ..

theorem printAll_off (size : Nat) (pieces : List (List α)) :
    (printAll size pieces).off = pieces.flatten.length := by
  induction pieces using List.reverseRecOn with
  | nil => rfl
  | append_singleton pieces piece ih =>
      rw [printAll_append, List.flatten_append, List.length_append, ← ih]
      simp [print]

/-- **What is left** is the front of all that was printed. -/
theorem printAll_text (size : Nat) (pieces : List (List α)) :
    (printAll size pieces).text = clip size pieces.flatten := by
  induction pieces using List.reverseRecOn with
  | nil => exact (clip_nil size).symm
  | append_singleton pieces piece ih =>
      have hoff := printAll_off size pieces
      rw [printAll_append, List.flatten_append, List.flatten_singleton]
      show (if (printAll size pieces).off < size then _ else _) = _
      rw [ih, hoff]
      simp only [clip, List.take_append]
      split_ifs with hroom
      · rw [show size - pieces.flatten.length - 1 = size - 1 - pieces.flatten.length by omega]
      · rw [show size - 1 - pieces.flatten.length = 0 by omega, List.take_zero, List.append_nil]

/-- **Every write is inside** iff the last one begins inside. -/
theorem printAll_inside_iff (size : Nat) (pieces : List (List α)) (piece : List α) :
    (printAll size (pieces ++ [piece])).inside = true ↔ pieces.flatten.length ≤ size := by
  have hstep : ∀ (pieces : List (List α)) (piece : List α),
      (printAll size (pieces ++ [piece])).inside =
        ((printAll size pieces).inside && decide (pieces.flatten.length ≤ size)) := by
    intro pieces piece
    rw [printAll_append, ← printAll_off size pieces]
    rfl
  induction pieces using List.reverseRecOn generalizing piece with
  | nil => simp [printAll, print, start]
  | append_singleton pieces last ih =>
      rw [hstep, Bool.and_eq_true, decide_eq_true_eq]
      refine ⟨fun h => h.2, fun h => ⟨(ih last).mpr ?_, h⟩⟩
      rw [List.flatten_append, List.length_append] at h
      omega

/-! ## Drafts that fit -/

/-- Nothing was cut so far, and the offset is inside. -/
structure Fits (size : Nat) (d : Draft α) : Prop where
  off_eq : d.off = d.text.length
  inside : d.inside = true
  room : d.off < size

theorem Whole.fits {d : Draft α} {text : List α} (h : d.Whole text) {size : Nat}
    (hroom : text.length < size) : d.Fits size :=
  ⟨by rw [h.off_eq, h.text_eq], h.inside, by rwa [h.off_eq]⟩

/-- **Where a draft fits at last**, it did so before each of its prints. -/
theorem Fits.of_print {d : Draft α} {size : Nat} {piece : List α}
    (h : (d.print size piece).Fits size) : d.Fits size := by
  have hoff : d.off + piece.length < size := h.room
  have hbefore : d.off < size := by omega
  have hinside : (d.inside && decide (d.off ≤ size)) = true := h.inside
  have htext : (d.print size piece).text = d.text ++ piece := by
    show (if d.off < size then _ else _) = _
    rw [if_pos hbefore, clip_eq_self (by omega)]
  have hlength : d.off + piece.length = (d.print size piece).text.length := h.off_eq
  rw [htext, List.length_append] at hlength
  exact ⟨by omega, (Bool.and_eq_true_iff.mp hinside).1, hbefore⟩

theorem Fits.of_write {d : Draft α} {size : Nat} {piece : List α}
    (h : (d.write piece).Fits size) : d.Fits size := by
  have hoff : d.off + piece.length < size := h.room
  have hlength : d.off + piece.length = (d.text ++ piece).length := h.off_eq
  rw [List.length_append] at hlength
  exact ⟨by omega, h.inside, by omega⟩

/-! ## Cut pieces and copies -/

/-- A piece that is cut to the room in front of a terminator. -/
def fill (size : Nat) (d : Draft α) (piece : List α) : Draft α :=
  if size < d.off + piece.length + 1 then
    -- behind the allocation the room wraps around, and far too much is copied
    { text := if d.off < size then d.text ++ piece.take (size - d.off - 1) else d.text
      off := size - 1
      inside := d.inside && decide (d.off < size) }
  else
    { text := d.text ++ piece, off := d.off + piece.length, inside := d.inside }

/-- A piece of which as much is copied as there is room for, without a terminator. -/
def copy (size : Nat) (d : Draft α) (piece : List α) : Draft α :=
  { text := if d.off ≤ size then d.text ++ piece.take (size - d.off) else d.text
    off := d.off + if d.off ≤ size then min piece.length (size - d.off) else piece.length
    inside := d.inside && decide (d.off ≤ size) }

theorem Whole.fill {d : Draft α} {text : List α} (h : d.Whole text) {size : Nat}
    (piece : List α) (hroom : text.length + piece.length < size) :
    (d.fill size piece).Whole (text ++ piece) := by
  have hfits : ¬ size < d.off + piece.length + 1 := by
    rw [h.off_eq]
    omega
  rw [Draft.fill, if_neg hfits]
  refine ⟨by rw [h.text_eq], ?_, h.inside⟩
  rw [h.off_eq, List.length_append]

theorem Whole.copy {d : Draft α} {text : List α} (h : d.Whole text) {size : Nat}
    (piece : List α) (hroom : text.length + piece.length ≤ size) :
    (d.copy size piece).Whole (text ++ piece) := by
  have hoff : d.off ≤ size := by
    rw [h.off_eq]
    omega
  refine ⟨?_, ?_, ?_⟩
  · show (if d.off ≤ size then _ else _) = _
    rw [if_pos hoff, h.text_eq, List.take_of_length_le (by rw [h.off_eq]; omega)]
  · show d.off + (if d.off ≤ size then _ else _) = _
    rw [if_pos hoff, List.length_append, h.off_eq]
    omega
  · show (d.inside && decide (d.off ≤ size)) = true
    rw [h.inside, decide_eq_true hoff]
    rfl

/-- A step of a longer sequence: a print, or a piece that is cut and the print behind it. -/
inductive Write (α : Type*)
  | print (piece : List α)
  | field (piece behind : List α)

namespace Write

/-- What a step is to write. -/
def text : Write α → List α
  | print piece => piece
  | field piece behind => piece ++ behind

/-- What a step writes. -/
def run (size : Nat) (d : Draft α) : Write α → Draft α
  | print piece => d.print size piece
  | field piece behind => (d.fill size piece).print size behind

/-- The print behind a piece is longer than the terminator. -/
def Ended : Write α → Prop
  | print _ => True
  | field _ behind => 2 ≤ behind.length

end Write

/-- One step after the other. -/
def writeAll (size : Nat) (writes : List (Write α)) : Draft α :=
  writes.foldl (Write.run size) start

/-- The text of a sequence. -/
def written (writes : List (Write α)) : List α := writes.flatMap Write.text

theorem written_append (writes writes' : List (Write α)) :
    written (writes ++ writes') = written writes ++ written writes' :=
  List.flatMap_append

/-- How a draft stands to the text that was to be written. -/
inductive Tracks (size : Nat) (text : List α) (d : Draft α) : Prop
  /-- It has all of it. -/
  | whole (hshort : text.length < size) (h : d.Whole text)
  /-- The offset is behind what it has, and inside iff the text ends inside. -/
  | cut (hlong : size ≤ text.length) (hinside : d.inside = true) (hoff : size ≤ d.off)
      (hends : d.off ≤ size ↔ text.length ≤ size)
  /-- A write went outside. -/
  | outside (hlong : size < text.length) (houtside : d.inside = false)

variable {size : Nat} {text : List α} {d : Draft α}

theorem print_inside (piece : List α) :
    (d.print size piece).inside = (d.inside && decide (d.off ≤ size)) := rfl

theorem print_off (piece : List α) : (d.print size piece).off = d.off + piece.length := rfl

theorem fill_inside {piece : List α} (h : size < d.off + piece.length + 1) :
    (d.fill size piece).inside = (d.inside && decide (d.off < size)) ∧
      (d.fill size piece).off = size - 1 := by
  rw [fill, if_pos h]
  exact ⟨rfl, rfl⟩

theorem Tracks.print (h : Tracks size text d) (piece : List α) :
    Tracks size (text ++ piece) (d.print size piece) := by
  have hlength : (text ++ piece).length = text.length + piece.length := List.length_append
  cases h with
  | whole hshort h =>
      have hoff : d.off ≤ size := by
        rw [h.off_eq]
        omega
      by_cases hmore : (text ++ piece).length < size
      · exact .whole hmore (h.print piece (by omega))
      · refine .cut (by omega) ?_ ?_ ?_
        · rw [print_inside, h.inside, decide_eq_true hoff]
          rfl
        · rw [print_off, h.off_eq]
          omega
        · rw [print_off, h.off_eq, hlength]
  | cut hlong hinside hoff hends =>
      by_cases hroom : d.off ≤ size
      · have hfull := hends.mp hroom
        refine .cut (by omega) ?_ ?_ ?_
        · rw [print_inside, hinside, decide_eq_true hroom]
          rfl
        · rw [print_off]
          omega
        · rw [print_off, hlength]
          omega
      · refine .outside ?_ ?_
        · have hpast := mt hends.mpr hroom
          omega
        · rw [print_inside, decide_eq_false hroom, Bool.and_false]
  | outside hlong houtside =>
      refine .outside (by omega) ?_
      rw [print_inside, houtside, Bool.false_and]

theorem Tracks.run (h : Tracks size text d) {w : Write α} (hw : w.Ended) :
    Tracks size (text ++ w.text) (w.run size d) := by
  cases w with
  | print piece => exact h.print piece
  | field piece behind =>
      have hbehind : 2 ≤ behind.length := hw
      show Tracks size (text ++ (piece ++ behind)) ((d.fill size piece).print size behind)
      have hlength : (text ++ (piece ++ behind)).length =
          text.length + (piece.length + behind.length) := by
        rw [List.length_append, List.length_append]
      cases h with
      | whole hshort h =>
          by_cases hfits : text.length + piece.length < size
          · have hfilled : Tracks size (text ++ piece) (d.fill size piece) := by
              refine .whole ?_ (h.fill piece hfits)
              rwa [List.length_append]
            rw [← List.append_assoc]
            exact hfilled.print behind
          · -- what is cut off leaves room for one byte, and the print behind it has two
            obtain ⟨hinside, hoff⟩ :
                (d.fill size piece).inside = (d.inside && decide (d.off < size)) ∧
                  (d.fill size piece).off = size - 1 := fill_inside (by rw [h.off_eq]; omega)
            have hstart : d.off < size := by rwa [h.off_eq]
            refine .cut (by omega) ?_ ?_ ?_
            · rw [print_inside, hinside, h.inside, decide_eq_true hstart, hoff,
                decide_eq_true (Nat.sub_le ..)]
              rfl
            · rw [print_off, hoff]
              omega
            · rw [print_off, hoff]
              omega
      | cut hlong hinside hoff hends =>
          obtain ⟨hfill, -⟩ :
              (d.fill size piece).inside = (d.inside && decide (d.off < size)) ∧
                (d.fill size piece).off = size - 1 := fill_inside (by omega)
          refine .outside (by omega) ?_
          rw [print_inside, hfill, decide_eq_false (Nat.not_lt.mpr hoff), Bool.and_false,
            Bool.false_and]
      | outside hlong houtside =>
          have hfill : (d.fill size piece).inside = false := by
            unfold fill
            split
            · show (d.inside && _) = false
              rw [houtside, Bool.false_and]
            · exact houtside
          refine .outside (by omega) ?_
          rw [print_inside, hfill, Bool.false_and]

/-- **A sequence of writes** keeps track of its text. -/
theorem tracks_writeAll (hpos : 0 < size) {writes : List (Write α)}
    (hended : ∀ w ∈ writes, w.Ended) : Tracks size (written writes) (writeAll size writes) := by
  induction writes using List.reverseRecOn with
  | nil => exact .whole hpos whole_start
  | append_singleton writes w ih =>
      have hwrites := ih fun w' hw' => hended w' (List.mem_append_left _ hw')
      have hlast := hended w (List.mem_append_right _ (List.mem_singleton_self w))
      have htext : written (writes ++ [w]) = written writes ++ w.text := by
        simp [written]
      have hrun : writeAll size (writes ++ [w]) = w.run size (writeAll size writes) :=
        List.foldl_concat ..
      rw [htext, hrun]
      exact hwrites.run hlast

/-- **One more write is inside** iff the text so far ends inside. -/
theorem Tracks.room_iff (h : Tracks size text d) :
    d.inside = true ∧ d.off ≤ size ↔ text.length ≤ size := by
  cases h with
  | whole hshort h =>
      rw [h.inside, h.off_eq]
      exact and_iff_right rfl
  | cut hlong hinside hoff hends =>
      rw [hinside]
      exact (and_iff_right rfl).trans hends
  | outside hlong houtside =>
      rw [houtside]
      exact iff_of_false (fun hboth => Bool.false_ne_true hboth.1) (by omega)

theorem Tracks.print_inside_iff (h : Tracks size text d) (piece : List α) :
    (d.print size piece).inside = true ↔ text.length ≤ size := by
  rw [print_inside, Bool.and_eq_true, decide_eq_true_eq]
  exact h.room_iff

/-- Behind a copy there is room for a print that begins where the allocation ends. -/
theorem Tracks.copy_print_inside_iff (h : Tracks size text d) (piece behind : List α) :
    ((d.copy size piece).print size behind).inside = true ↔ text.length ≤ size := by
  have hcopied : (d.copy size piece).inside = (d.inside && decide (d.off ≤ size)) := rfl
  rw [print_inside, hcopied, Bool.and_eq_true, Bool.and_eq_true, decide_eq_true_eq,
    decide_eq_true_eq, h.room_iff]
  refine and_iff_left_of_imp fun hroom => ?_
  have hoff := (h.room_iff.mpr hroom).2
  show d.off + (if d.off ≤ size then _ else _) ≤ size
  rw [if_pos hoff]
  omega

theorem Tracks.whole_of_lt (h : Tracks size text d) (hshort : text.length < size) :
    d.Whole text := by
  cases h with
  | whole _ h => exact h
  | cut hlong => omega
  | outside hlong => omega

end Draft

end CText
