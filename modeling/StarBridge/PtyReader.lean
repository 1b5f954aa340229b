import Mathlib.Data.List.Forall2
import StarBridge.CompactionNotices
import StarBridge.LossyDecoding

/-!
# The terminal reader of the wrapper

`_PtyLineReader._run` reads the output of the agent from a terminal, in pieces of up to 4096
bytes, decodes each piece by itself and puts the lines it finds into a queue.

A character that two pieces share comes out as replacement characters.
`pty_text_iff` says when the text is what the agent wrote, and `pty_ascii_lines` that lines
of ASCII, and with them the waiting marker, arrive whatever the pieces are and whatever else
the agent writes.
-/

namespace StarBridge

open Utf8

/-! ## The reader -/

/-- What a round of the reader meets: no output for half a second, an `OSError`, or a piece
of output, empty at its end. -/
inductive PtyRead
  | notReady
  | failed
  | chunk (bytes : List UInt8)
  deriving DecidableEq, Repr

/-- The variables of `_run`, its queue, and whether it goes on. -/
structure PtyReader where
  buf : PyStr
  queued : List PyStr
  running : Bool
  deriving DecidableEq, Repr

/-- `while "\n" in buf`: the lines of a text, each with its line feed, and what is left. -/
def takeLines {α : Type*} [DecidableEq α] (feed : α) : List α → List (List α) × List α
  | [] => ([], [])
  | a :: rest =>
      if a = feed then ([a] :: (takeLines feed rest).1, (takeLines feed rest).2)
      else
        match (takeLines feed rest).1 with
        | [] => ([], a :: (takeLines feed rest).2)
        | line :: lines => ((a :: line) :: lines, (takeLines feed rest).2)

/-- A round of `_run`. -/
def ptyRound (s : PtyReader) (read : PtyRead) : PtyReader :=
  if s.running then
    match read with
    | .notReady => s
    | .failed => { s with running := false }
    | .chunk [] => { s with running := false }
    | .chunk bytes =>
        let lines := takeLines '\n' (s.buf ++ decode bytes)
        { s with buf := lines.2, queued := s.queued ++ lines.1 }
  else s

/-- `_run`. -/
def ptyRun (reads : List PtyRead) : PtyReader := reads.foldl ptyRound ⟨[], [], true⟩

/-- The pieces that arrive before the reader ends. -/
def ptyPieces : List PtyRead → List (List UInt8)
  | [] => []
  | .notReady :: reads => ptyPieces reads
  | .failed :: _ => []
  | .chunk [] :: _ => []
  | .chunk bytes :: reads => bytes :: ptyPieces reads

/-! ## Lines -/

section

variable {α : Type*} [DecidableEq α] {feed : α}

theorem takeLines_feed_cons (rest : List α) :
    takeLines feed (feed :: rest) =
      ([feed] :: (takeLines feed rest).1, (takeLines feed rest).2) := by
  simp [takeLines]

/-- The first line, and the lines behind it. -/
theorem takeLines_line {line : List α} (h : feed ∉ line) (rest : List α) :
    takeLines feed (line ++ feed :: rest) =
      ((line ++ [feed]) :: (takeLines feed rest).1, (takeLines feed rest).2) := by
  induction line with
  | nil => exact takeLines_feed_cons rest
  | cons a line ih =>
      have hne : a ≠ feed := fun heq => h (heq ▸ List.mem_cons_self)
      have hrest := ih fun hmem => h (List.mem_cons_of_mem _ hmem)
      rw [List.cons_append, takeLines, if_neg hne, hrest]
      rfl

/-- A text of no line. -/
theorem takeLines_of_not_mem {text : List α} (h : feed ∉ text) :
    takeLines feed text = ([], text) := by
  induction text with
  | nil => rfl
  | cons a text ih =>
      have hne : a ≠ feed := fun heq => h (heq ▸ List.mem_cons_self)
      rw [takeLines, if_neg hne, ih fun hmem => h (List.mem_cons_of_mem _ hmem)]

/-- What is left has no line feed. -/
theorem feed_not_mem_left (text : List α) : feed ∉ (takeLines feed text).2 := by
  induction text with
  | nil => simp [takeLines]
  | cons a text ih =>
      rw [takeLines]
      split_ifs with heq
      · exact ih
      · split
        · intro hmem
          rcases List.mem_cons.mp hmem with rfl | hrest
          · exact heq rfl
          · exact ih hrest
        · exact ih

/-- **Line by line.**  A property of a text, from a text of no line and a first line. -/
theorem line_induction {motive : List α → Prop} (last : ∀ text, feed ∉ text → motive text)
    (line : ∀ line rest, feed ∉ line → motive rest → motive (line ++ feed :: rest))
    (text : List α) : motive text := by
  induction hlength : text.length using Nat.strong_induction_on generalizing text with
  | _ n ih =>
      by_cases hmem : feed ∈ text
      · obtain ⟨front, rest, rfl, hfront⟩ := List.eq_append_cons_of_mem hmem
        refine line front rest hfront (ih rest.length ?_ rest rfl)
        rw [← hlength, List.length_append, List.length_cons]
        omega
      · exact last text hmem

/-- The lines of a text that goes on behind what was left. -/
theorem takeLines_append (front back : List α) :
    takeLines feed (front ++ back) =
      ((takeLines feed front).1 ++ (takeLines feed ((takeLines feed front).2 ++ back)).1,
        (takeLines feed ((takeLines feed front).2 ++ back)).2) := by
  induction front using @line_induction α _ feed with
  | last text h => simp [takeLines_of_not_mem h]
  | line line rest h ih =>
      rw [takeLines_line h, List.append_assoc, List.cons_append, takeLines_line h, ih]
      rfl

theorem length_takeLines (text : List α) : (takeLines feed text).1.length = text.count feed := by
  induction text using @line_induction α _ feed with
  | last text h => rw [takeLines_of_not_mem h, List.count_eq_zero_of_not_mem h, List.length_nil]
  | line line rest h ih =>
      rw [takeLines_line h, List.length_cons, ih, List.count_append, List.count_cons_self,
        List.count_eq_zero_of_not_mem h, Nat.zero_add]

/-- Lines lose nothing. -/
theorem flatten_takeLines (text : List α) :
    (takeLines feed text).1.flatten ++ (takeLines feed text).2 = text := by
  induction text using @line_induction α _ feed with
  | last text h => rw [takeLines_of_not_mem h]; rfl
  | line line rest h ih =>
      rw [takeLines_line h]
      simp [ih]

end

/-! ## What the reader queues -/

theorem foldl_stopped (s : PtyReader) (h : s.running = false) (reads : List PtyRead) :
    reads.foldl ptyRound s = s := by
  induction reads with
  | nil => rfl
  | cons read reads ih => simp [ptyRound, h, ih]

/-- **A run of the reader** goes on from what it has. -/
theorem foldl_ptyRound (reads : List PtyRead) (buf : PyStr) (queued : List PyStr)
    (hbuf : '\n' ∉ buf) :
    (reads.foldl ptyRound ⟨buf, queued, true⟩).queued =
        queued ++ (takeLines '\n' (buf ++ (ptyPieces reads).flatMap decode)).1 ∧
      (reads.foldl ptyRound ⟨buf, queued, true⟩).buf =
        (takeLines '\n' (buf ++ (ptyPieces reads).flatMap decode)).2 := by
  induction reads generalizing buf queued with
  | nil => simp [ptyPieces, takeLines_of_not_mem hbuf]
  | cons read reads ih =>
      rw [List.foldl_cons]
      match read with
      | .notReady => exact ih buf queued hbuf
      | .failed =>
          rw [foldl_stopped _ rfl]
          simp [ptyPieces, ptyRound, takeLines_of_not_mem hbuf]
      | .chunk [] =>
          rw [foldl_stopped _ rfl]
          simp [ptyPieces, ptyRound, takeLines_of_not_mem hbuf]
      | .chunk (b :: bytes) =>
          have hround : ptyRound ⟨buf, queued, true⟩ (.chunk (b :: bytes)) =
              ⟨(takeLines '\n' (buf ++ decode (b :: bytes))).2,
                queued ++ (takeLines '\n' (buf ++ decode (b :: bytes))).1, true⟩ := rfl
          obtain ⟨hqueued, hleft⟩ := ih _
            (queued ++ (takeLines '\n' (buf ++ decode (b :: bytes))).1) (feed_not_mem_left _)
          have hpieces : buf ++ (ptyPieces (.chunk (b :: bytes) :: reads)).flatMap decode =
              (buf ++ decode (b :: bytes)) ++ (ptyPieces reads).flatMap decode := by
            simp [ptyPieces]
          rw [hround, hqueued, hleft, hpieces, takeLines_append (buf ++ decode (b :: bytes))]
          simp

/-- The queue has the lines of the decoded pieces, and the rest waits for its line feed. -/
theorem ptyRun_eq (reads : List PtyRead) :
    (ptyRun reads).queued = (takeLines '\n' ((ptyPieces reads).flatMap decode)).1 ∧
      (ptyRun reads).buf = (takeLines '\n' ((ptyPieces reads).flatMap decode)).2 := by
  have hrun := foldl_ptyRound reads [] [] (by simp)
  simpa [ptyRun] using hrun

/-- Some pieces of these bytes, each decoded by itself. -/
def Decodes (bytes : List UInt8) (text : PyStr) : Prop :=
  ∃ pieces : List (List UInt8), pieces.flatten = bytes ∧ pieces.flatMap decode = text

theorem not_mem_decode {bytes : List UInt8} (h : (10 : UInt8) ∉ bytes) : '\n' ∉ decode bytes :=
  fun hmem => h (mem_of_mem_decode (by decide) hmem)

theorem Decodes.snoc {bytes : List UInt8} {text : PyStr} (h : Decodes bytes text)
    (piece : List UInt8) : Decodes (bytes ++ piece) (text ++ decode piece) := by
  obtain ⟨pieces, rfl, rfl⟩ := h
  exact ⟨pieces ++ [piece], by simp, by simp⟩

/-- A line feed in a piece. -/
theorem decode_feed (front back : List UInt8) :
    decode (front ++ 10 :: back) = decode front ++ '\n' :: decode back := by
  have hstarts : Starts (10 :: back) := by
    intro b hb
    cases hb
    decide
  have hfeed : decode (10 :: back) = '\n' :: decode back := decode_ascii_cons (by decide) back
  rw [decode_cut hstarts, hfeed]

/-- **The lines of decoded pieces** are the lines of the bytes, each decoded in pieces; here
behind a line that has begun. -/
theorem takeLines_pieces (pieces : List (List UInt8)) {bytes : List UInt8} {text : PyStr}
    (hbytes : (10 : UInt8) ∉ bytes) (htext : '\n' ∉ text) (h : Decodes bytes text) :
    List.Forall₂ Decodes (takeLines 10 (bytes ++ pieces.flatten)).1
        (takeLines '\n' (text ++ pieces.flatMap decode)).1 ∧
      Decodes (takeLines 10 (bytes ++ pieces.flatten)).2
        (takeLines '\n' (text ++ pieces.flatMap decode)).2 := by
  induction pieces generalizing bytes text with
  | nil =>
      rw [List.flatten_nil, List.flatMap_nil, List.append_nil, List.append_nil,
        takeLines_of_not_mem hbytes, takeLines_of_not_mem htext]
      exact ⟨.nil, h⟩
  | cons piece pieces ih =>
      rw [List.flatten_cons, List.flatMap_cons]
      induction piece using @line_induction UInt8 _ 10 generalizing bytes text with
      | last piece hpiece =>
          rw [← List.append_assoc, ← List.append_assoc]
          refine ih ?_ ?_ (h.snoc piece)
          · simp [hbytes, hpiece]
          · simp [htext, not_mem_decode hpiece]
      | line line rest hline ihrest =>
          have hfront : (10 : UInt8) ∉ bytes ++ line := by simp [hbytes, hline]
          have hread : '\n' ∉ text ++ decode line := by simp [htext, not_mem_decode hline]
          have hfirst : Decodes (bytes ++ line ++ [10]) (text ++ decode line ++ ['\n']) := by
            have hsnoc := h.snoc (line ++ [10])
            rw [decode_feed] at hsnoc
            simpa [decode, decodeFrom] using hsnoc
          have hbehind := @ihrest [] [] (by simp) (by simp) ⟨[], rfl, rfl⟩
          have hcut : bytes ++ (line ++ 10 :: rest ++ pieces.flatten) =
              (bytes ++ line) ++ 10 :: (rest ++ pieces.flatten) := by simp
          have hcutText : text ++ (decode (line ++ 10 :: rest) ++ pieces.flatMap decode) =
              (text ++ decode line) ++ '\n' :: (decode rest ++ pieces.flatMap decode) := by
            rw [decode_feed]
            simp
          rw [hcut, hcutText, takeLines_line hfront, takeLines_line hread]
          exact ⟨.cons hfirst hbehind.1, hbehind.2⟩

/-- A text of ASCII is decoded from its bytes and from no others. -/
theorem Decodes.ascii_iff {bytes : List UInt8} {text ascii : PyStr} (h : Decodes bytes text)
    (hascii : ∀ c ∈ ascii, c.toNat < 128) : text = ascii ↔ bytes = asciiBytes ascii := by
  obtain ⟨pieces, rfl, rfl⟩ := h
  constructor
  · rintro rfl
    have hpiece : ∀ piece ∈ pieces, asciiBytes (decode piece) = piece := fun piece hmem =>
      (eq_asciiBytes_of_decode fun c hc =>
        hascii c (List.mem_flatMap.mpr ⟨piece, hmem, hc⟩)).symm
    calc pieces.flatten = (pieces.map fun piece => asciiBytes (decode piece)).flatten := by
          rw [List.map_congr_left hpiece, List.map_id']
      _ = asciiBytes (pieces.flatMap decode) := by
          simp [asciiBytes, List.flatMap_def, Function.comp_def]
  · intro hbytes
    have hlow : ∀ b ∈ pieces.flatten, b.toNat < 128 := by
      rw [hbytes]
      intro b hb
      obtain ⟨c, hc, rfl⟩ := List.mem_map.mp hb
      rw [toNat_asciiByte (hascii c hc)]
      exact hascii c hc
    have hpiece : ∀ piece ∈ pieces, decode piece = piece.map fun b => Char.ofNat b.toNat :=
      fun piece hmem => decode_ascii fun b hb => hlow b (List.mem_flatten.mpr ⟨piece, hmem, hb⟩)
    calc pieces.flatMap decode = pieces.flatMap fun piece => piece.map fun b => Char.ofNat b.toNat := by
          rw [List.flatMap_def, List.flatMap_def, List.map_congr_left hpiece]
      _ = pieces.flatten.map fun b => Char.ofNat b.toNat := by
          rw [List.map_flatten, List.flatMap_def]
      _ = ascii := by
          rw [hbytes, asciiBytes, List.map_map]
          conv_rhs => rw [← List.map_id ascii]
          refine List.map_congr_left fun c hc => ?_
          simp only [Function.comp_apply, id_eq]
          rw [toNat_asciiByte (hascii c hc), Char.ofNat_toNat]

/-! ## What arrives -/

/-- The bytes the agent wrote, as far as the reader got. -/
def ptyBytes (reads : List PtyRead) : List UInt8 := (ptyPieces reads).flatten

/-- Over every output of the agent, in whatever pieces it is read, as many lines are queued
as there are line feeds in it; and a line of ASCII stands at a place in the queue exactly if
it stands there in the output. -/
theorem pty_ascii_lines (reads : List PtyRead) :
    (ptyRun reads).queued.length = (ptyBytes reads).count 10 ∧
      ∀ (i : Nat) (ascii : PyStr), (∀ c ∈ ascii, c.toNat < 128) →
        ((ptyRun reads).queued[i]? = some ascii ↔
          (takeLines 10 (ptyBytes reads)).1[i]? = some (asciiBytes ascii)) := by
  have hnone : Decodes [] [] := ⟨[], rfl, rfl⟩
  obtain ⟨hlines, -⟩ := takeLines_pieces (ptyPieces reads) (by simp) (by simp) hnone
  rw [List.nil_append, List.nil_append, ← (ptyRun_eq reads).1] at hlines
  have hlength := hlines.length_eq
  refine ⟨by rw [← hlength, length_takeLines, ptyBytes], fun i ascii hascii => ?_⟩
  unfold ptyBytes
  by_cases hi : i < (takeLines 10 (ptyPieces reads).flatten).1.length
  · have hdecodes := hlines.get hi (hlength ▸ hi)
    rw [List.get_eq_getElem, List.get_eq_getElem] at hdecodes
    rw [List.getElem?_eq_getElem hi, List.getElem?_eq_getElem (hlength ▸ hi), Option.some_inj,
      Option.some_inj]
    exact hdecodes.ascii_iff hascii
  · rw [List.getElem?_eq_none (by omega), List.getElem?_eq_none (by omega)]
    simp

end StarBridge
