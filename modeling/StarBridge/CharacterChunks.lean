import StarBridge.StreamAgreement
import StarBridge.Utf8

/-!
# Chunks of a text and its characters

A response goes to a live client in chunks of 4096 bytes: `turn_process_events`
cuts the text of a response frame, and `handle_response_stream` the output of an
agent without frames.  Neither looks at what it cuts.  A chunk of a valid UTF-8
text is valid iff no chunk begins inside a character; `chunk_loops_iff` says this
of what a client reads behind both loops.
-/

namespace StarBridge

open CText

/-! ## The loops -/

/-- The chunk loop of `handle_response_stream`, and whether it was stopped.  A
round is stopped when the turn is cancelled or the client cannot be written to
in time; rounds behind the end of the list are not. -/
def streamChunkLoop : List Bool → List Bytes → ResponsesStreamState → ResponsesStreamState × Bool
  | _, [], s => (s, false)
  | true :: _, _ :: _, s => (s, true)
  | stops, chunk :: rest, s =>
      match responsesStreamEmitTextDelta chunk s with
      | none => (s, true)
      | some s' => streamChunkLoop stops.tail rest s'

/-- The text deltas on the wire, as a client reads them. -/
def ResponsesStreamState.deltaTexts (s : ResponsesStreamState) : List Bytes :=
  s.wire.filterMap deltaText

/-- Behind `s` the wire of `s'` has deltas that are valid UTF-8 and make up the
text. -/
def RespectsCharacters (s s' : ResponsesStreamState) (text : Bytes) : Prop :=
  ∃ deltas, s'.deltaTexts = s.deltaTexts ++ deltas ∧ (∀ delta ∈ deltas, Utf8.Valid delta) ∧
    deltas.flatten = text

/-! ## Chunks -/

/-- No chunk begins inside a character. -/
def Aligned (size : Nat) (text : Bytes) : Prop :=
  ∀ k, Utf8.FirstAt text (size * k)

theorem flatten_chunks {size : Nat} (hsize : 0 < size) {fuel : Nat} {text : Bytes}
    (h : text.length ≤ fuel) : (chunks size fuel text).flatten = text := by
  induction fuel generalizing text with
  | zero =>
      rw [List.length_eq_zero_iff.mp (Nat.le_zero.mp h)]
      rfl
  | succ fuel ih =>
      rw [chunks]
      split
      · rename_i hnil
        rw [hnil]
        rfl
      · rename_i hne
        have hpos := List.length_pos_of_ne_nil hne
        rw [List.flatten_cons, ih (by rw [List.length_drop]; omega), List.take_append_drop]

theorem length_chunk_le {size fuel : Nat} {text chunk : Bytes} (h : chunk ∈ chunks size fuel text) :
    chunk.length ≤ size := by
  induction fuel generalizing text with
  | zero => cases h
  | succ fuel ih =>
      rw [chunks] at h
      split at h
      · cases h
      · rcases List.mem_cons.mp h with rfl | hrest
        · exact List.length_take_le _ _
        · exact ih hrest

/-- A text that is not empty has a first chunk. -/
theorem take_mem_chunks {size fuel : Nat} {text : Bytes} (hne : text ≠ [])
    (h : text.length ≤ fuel) : text.take size ∈ chunks size fuel text := by
  have hpos := List.length_pos_of_ne_nil hne
  obtain ⟨fuel, rfl⟩ : ∃ n, fuel = n + 1 := ⟨fuel - 1, by omega⟩
  rw [chunks, if_neg hne]
  exact List.mem_cons_self

/-- There are no more chunks than bytes. -/
theorem length_chunks_le {size : Nat} (fuel : Nat) (text : Bytes) :
    (chunks size fuel text).length ≤ fuel := by
  induction fuel generalizing text with
  | zero => exact le_rfl
  | succ fuel ih =>
      rw [chunks]
      split
      · exact Nat.zero_le _
      · exact Nat.succ_le_succ (ih _)

/-- **Chunks of a valid text are valid iff none begins inside a character.** -/
theorem chunks_valid_iff {size : Nat} (hsize : 0 < size) {fuel : Nat} {text : Bytes}
    (hvalid : Utf8.Valid text) (h : text.length ≤ fuel) :
    (∀ chunk ∈ chunks size fuel text, Utf8.Valid chunk) ↔ Aligned size text := by
  induction fuel generalizing text with
  | zero =>
      rw [List.length_eq_zero_iff.mp (Nat.le_zero.mp h)]
      refine iff_of_true (fun chunk hchunk => by cases hchunk) fun k b hb => ?_
      rw [List.getElem?_nil] at hb
      cases hb
  | succ fuel ih =>
      rw [chunks]
      split
      · rename_i hnil
        rw [hnil]
        refine iff_of_true (fun chunk hchunk => by cases hchunk) fun k b hb => ?_
        rw [List.getElem?_nil] at hb
        cases hb
      rename_i hne
      have hpos := List.length_pos_of_ne_nil hne
      have hlength : (text.drop size).length ≤ fuel := by
        rw [List.length_drop]
        omega
      -- the boundaries behind the first chunk are those of the rest
      have hshift : Aligned size text ↔
          Utf8.FirstAt text size ∧ Aligned size (text.drop size) := by
        constructor
        · intro hall
          refine ⟨by simpa using hall 1, fun k b hb => hall (k + 1) b ?_⟩
          rwa [Nat.mul_succ, Nat.add_comm, ← List.getElem?_drop]
        · rintro ⟨hfirst, hall⟩ k
          cases k with
          | zero => exact hvalid.firstAt_zero
          | succ k =>
              intro b hb
              refine hall k b ?_
              rwa [List.getElem?_drop, Nat.add_comm, ← Nat.mul_succ]
      rw [List.forall_mem_cons, hshift]
      constructor
      · rintro ⟨-, hrest⟩
        have hfirst : Utf8.FirstAt text size := by
          intro b hb
          have hlt : size < text.length := (List.getElem?_eq_some_iff.mp hb).1
          have hne' : text.drop size ≠ [] := by
            rw [Ne, List.drop_eq_nil_iff]
            omega
          have hmem : (text.drop size).take size ∈ chunks size fuel (text.drop size) :=
            take_mem_chunks hne' hlength
          refine (hrest _ hmem).firstAt_zero b ?_
          rwa [List.getElem?_take_of_lt hsize, List.getElem?_drop]
        exact ⟨hfirst, (ih (hvalid.cut hfirst).2 hlength).mp hrest⟩
      · rintro ⟨hfirst, hall⟩
        obtain ⟨htake, hdrop⟩ := hvalid.cut hfirst
        exact ⟨htake, (ih hdrop hlength).mpr hall⟩

/-! ## What a client reads -/

/-- One delta, as the client reads it. -/
theorem deltaTexts_emitTextDelta {s s' : ResponsesStreamState} {item : OutputItem}
    {part : ContentPart} (hpart : s.textPart = some (0, 0, item, part)) {delta : Bytes}
    (hzero : 0 ∉ delta) (hlen : delta.length ≤ 4096) (hseq : s.sequenceNumber < 10 ^ 20)
    (hemit : responsesStreamEmitTextDelta delta s = some s') :
    s'.deltaTexts = s.deltaTexts ++ [delta] := by
  have hread := deltaText_outputTextDelta hzero hlen (show 0 < 10 ^ 20 by decide)
    (show 0 < 10 ^ 20 by decide) hseq
  rw [responsesStreamEmitTextDelta, hpart] at hemit
  cases hemit
  simp only [ResponsesStreamState.deltaTexts, ResponsesStreamState.send, List.filterMap_append,
    List.filterMap_cons, List.filterMap_nil, hread]

/-- A stream at its text part emits a piece of text. -/
theorem emitTextDelta_atText {s : ResponsesStreamState} (h : s.AtText) {delta : Bytes}
    (hzero : 0 ∉ delta) (hlen : delta.length ≤ 4096) (hseq : s.sequenceNumber < 10 ^ 20) :
    ∃ s', responsesStreamEmitTextDelta delta s = some s' ∧ s'.AtText ∧
      s'.sequenceNumber = s.sequenceNumber + 1 ∧ s'.deltaTexts = s.deltaTexts ++ [delta] := by
  obtain ⟨s', hemit, hat, hnext, -⟩ := emitTextDelta_of_atText h hzero hlen hseq
  obtain ⟨item, part, hpart⟩ := h
  exact ⟨s', hemit, hat, hnext, deltaTexts_emitTextDelta hpart hzero hlen hseq hemit⟩

/-- The loop of `handle_response_stream` that nothing stops. -/
theorem streamChunkLoop_deltas {s : ResponsesStreamState} (h : s.AtText) {pieces : List Bytes}
    (hpieces : ∀ piece ∈ pieces, 0 ∉ piece ∧ piece.length ≤ 4096)
    (hseq : s.sequenceNumber + pieces.length < 10 ^ 20) :
    (streamChunkLoop [] pieces s).1.deltaTexts = s.deltaTexts ++ pieces := by
  induction pieces generalizing s with
  | nil => simp [streamChunkLoop]
  | cons piece pieces ih =>
      rw [List.length_cons] at hseq
      obtain ⟨hzero, hlen⟩ := hpieces piece List.mem_cons_self
      obtain ⟨s', hemit, hat, hnext, hdeltas⟩ :=
        emitTextDelta_atText h hzero hlen (by omega)
      have hrest := ih hat (fun p hp => hpieces p (List.mem_cons_of_mem _ hp)) (by omega)
      simp only [streamChunkLoop, hemit, List.tail_nil, hrest, hdeltas, List.append_assoc,
        List.singleton_append]

/-- The loop of `turn_process_events`. -/
theorem emitChunks_deltas {turn : TurnState} {s : ResponsesStreamState}
    (hlive : turn.stream = some s) (h : s.AtText) {pieces : List Bytes}
    (hpieces : ∀ piece ∈ pieces, 0 ∉ piece ∧ piece.length ≤ 4096)
    (hseq : s.sequenceNumber + pieces.length < 10 ^ 20) :
    ∃ s', (turn.emitChunks pieces).stream = some s' ∧
      s'.deltaTexts = s.deltaTexts ++ pieces := by
  induction pieces generalizing turn s with
  | nil => exact ⟨s, hlive, (List.append_nil _).symm⟩
  | cons piece pieces ih =>
      rw [List.length_cons] at hseq
      obtain ⟨hzero, hlen⟩ := hpieces piece List.mem_cons_self
      obtain ⟨s', hemit, hat, hnext, hdeltas⟩ :=
        emitTextDelta_atText h hzero hlen (by omega)
      have hemitted : turn.emitDelta piece = ({ turn with stream := some s' }, true) := by
        rw [TurnState.emitDelta, hlive]
        dsimp only
        rw [hemit]
      have hnow : ({ turn with stream := some s' } : TurnState).stream = some s' := rfl
      obtain ⟨last, hlast, hrest⟩ := ih hnow hat
        (fun p hp => hpieces p (List.mem_cons_of_mem _ hp)) (by omega)
      refine ⟨last, ?_, ?_⟩
      · rw [TurnState.emitChunks, hemitted]
        exact hlast
      · rw [hrest, hdeltas, List.append_assoc]
        rfl

/-- The chunks of a C string are C strings that fit the buffer of the loops. -/
theorem chunks_passed {text : Bytes} (hzero : 0 ∉ text) :
    ∀ piece ∈ chunks 4096 text.length text, 0 ∉ piece ∧ piece.length ≤ 4096 := by
  have hflat : (chunks 4096 text.length text).flatten = text :=
    flatten_chunks (by decide) le_rfl
  intro piece hpiece
  refine ⟨fun hmem => hzero ?_, length_chunk_le hpiece⟩
  rw [← hflat]
  exact List.mem_flatten_of_mem hpiece hmem

/-- Deltas that are the chunks respect characters iff no chunk begins inside one. -/
theorem respectsCharacters_iff {s s' : ResponsesStreamState} {text : Bytes}
    (hvalid : Utf8.Valid text)
    (hdeltas : s'.deltaTexts = s.deltaTexts ++ chunks 4096 text.length text) :
    RespectsCharacters s s' text ↔ Aligned 4096 text := by
  rw [← chunks_valid_iff (show 0 < 4096 by decide) hvalid le_rfl]
  constructor
  · rintro ⟨deltas, hsame, hall, -⟩
    rw [hdeltas] at hsame
    rw [List.append_cancel_left hsame]
    exact hall
  · intro hall
    exact ⟨_, hdeltas, hall, flatten_chunks (by decide) le_rfl⟩

/-- **Chunks and characters**, exactly.  What a client reads behind either loop is
valid UTF-8, delta by delta, and makes up the text iff no multiple of 4096 lies
inside a character of it. -/
theorem chunk_loops_iff {text : Bytes} (hvalid : Utf8.Valid text) (hzero : 0 ∉ text)
    (hsize : text.length < 2 ^ 64) {stream : ResponsesStreamState} (hat : stream.AtText)
    (hseq : stream.sequenceNumber < 2 ^ 31) {turn : TurnState}
    (hlive : turn.stream = some stream) :
    (RespectsCharacters stream
          (streamChunkLoop [] (chunks 4096 text.length text) stream).1 text ∧
        ∃ stream', (turn.emitChunks (chunks 4096 text.length text)).stream = some stream' ∧
          RespectsCharacters stream stream' text) ↔
      Aligned 4096 text := by
  have hcount : (chunks 4096 text.length text).length ≤ text.length := length_chunks_le _ _
  have hbound : stream.sequenceNumber + (chunks 4096 text.length text).length < 10 ^ 20 := by
    have hsum : (2 : Nat) ^ 31 + 2 ^ 64 < 10 ^ 20 := by decide
    omega
  have hpieces := chunks_passed hzero
  obtain ⟨stream', hstream', hturn⟩ := emitChunks_deltas hlive hat hpieces hbound
  have hloop := respectsCharacters_iff hvalid (streamChunkLoop_deltas hat hpieces hbound)
  constructor
  · rintro ⟨hrespects, -⟩
    exact hloop.mp hrespects
  · intro haligned
    exact ⟨hloop.mpr haligned, stream', hstream',
      (respectsCharacters_iff hvalid hturn).mpr haligned⟩

/-- Two characters of two bytes each. -/
def twoCharacters : Bytes := ['\u00e9', '\u00df'].flatMap String.utf8EncodeChar

theorem chunk_loops_iff_short :
    (RespectsCharacters (openedStream (lit "m") 0)
          (streamChunkLoop [] (chunks 4096 twoCharacters.length twoCharacters)
            (openedStream (lit "m") 0)).1 twoCharacters ∧
        ∃ stream', ((freshTurn (some (openedStream (lit "m") 0))).emitChunks
            (chunks 4096 twoCharacters.length twoCharacters)).stream = some stream' ∧
          RespectsCharacters (openedStream (lit "m") 0) stream' twoCharacters) ↔
      Aligned 4096 twoCharacters :=
  chunk_loops_iff ⟨_, rfl⟩ (by decide +kernel) (by decide +kernel)
    (openedStream_atText (lit "m") 0) (by decide) rfl

/-- A character of two bytes behind 4095 letters. -/
def splitText : Bytes :=
  (List.replicate 4095 'a' ++ ['\u00e9']).flatMap String.utf8EncodeChar

theorem splitText_eq : splitText = List.replicate 4095 97 ++ [195, 169] := by
  have hletters : ∀ n : Nat, (List.replicate n 'a').flatMap String.utf8EncodeChar =
      List.replicate n 97 := by
    intro n
    induction n with
    | zero => rfl
    | succ n ih =>
        rw [List.replicate_succ, List.flatMap_cons, ih]
        rfl
  rw [splitText, List.flatMap_append, hletters]
  rfl

/-- The loop of `handle_response_stream` cuts the last character in two. -/
theorem chunk_cuts_character :
    Utf8.Valid splitText ∧
      ¬ RespectsCharacters (openedStream (lit "m") 0)
        (streamChunkLoop [] (chunks 4096 splitText.length splitText)
          (openedStream (lit "m") 0)).1 splitText := by
  have hvalid : Utf8.Valid splitText := ⟨_, rfl⟩
  have hlength : splitText.length = 4097 := by
    rw [splitText_eq, List.length_append, List.length_replicate]
    rfl
  have hzero : 0 ∉ splitText := by
    rw [splitText_eq, List.mem_append]
    rintro (hmem | hmem)
    · exact absurd (List.eq_of_mem_replicate hmem) (by decide)
    · exact absurd hmem (by decide)
  have hcount : (chunks 4096 splitText.length splitText).length ≤ splitText.length :=
    length_chunks_le _ _
  have hdeltas := streamChunkLoop_deltas (openedStream_atText (lit "m") 0)
    (chunks_passed hzero) (by rw [openedStream_sequenceNumber]; omega)
  refine ⟨hvalid, ?_⟩
  rw [respectsCharacters_iff hvalid hdeltas]
  intro haligned
  have hbyte := haligned 1 169
  rw [splitText_eq, List.getElem?_append_right (by rw [List.length_replicate]; decide),
    List.length_replicate] at hbyte
  exact absurd (hbyte rfl) (by decide)

end StarBridge
