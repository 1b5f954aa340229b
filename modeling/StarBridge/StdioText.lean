import StarBridge.StdioReader

/-!
# The answer to a stdio turn whose stream has ended

Between the agent and the answer stand the reader's line buffer, the text ring and
the content buffer of the answer.  Only the content buffer, and in one piece the
limit on the length, is reported in `incomplete_details`; what the line buffer and
the ring lose is not.  `whole_text_iff` says for which streams the text is whole
or the answer says that it is not.
-/

namespace StarBridge

open CText RingBuffer

/-! ## The text -/

/-- The text ring when the agent's stream has ended. -/
def textRing (reads : List (AgentRead UInt8)) : Ring UInt8 bridgeBufferSize :=
  (plainBytes.fdReaderLoop [] reads).foldl plainBytes.enginePushText
    (Ring.empty 0 bridgeBufferSize_pos)

/-- `engine_read_text`, with the content buffer of an answer. -/
def takenText (cfg : BlockConfig) (reads : List (AgentRead UInt8)) : Bytes :=
  ((textRing reads).read cfg.maxOutputBuffer).1

/-- The bridge when the stream has ended. -/
def endedServer (eng : EngineState) (reads : List (AgentRead UInt8)) : StdioServer :=
  ⟨eng, (textRing reads).held⟩

/-- The `incomplete_details` of the answer: a stream that was cut off has none. -/
def StdioServer.details (cfg : BlockConfig) (s : StdioServer) (turn : StdioTurn) : Bytes :=
  let read := (s.readText cfg turn).1
  if turn.stream then
    if (s.chunkRun cfg turn).stopped then []
    else if fillsBuffer cfg read then lit "max_output_buffer" else []
  else (stdioBlockContent cfg read).2

theorem held_textRing (reads : List (AgentRead UInt8)) :
    (textRing reads).held =
      keepLast (bridgeBufferSize - 1) (printed [] (Alphabet.arrived reads)) := by
  rw [textRing, Alphabet.held_enginePushText, Alphabet.fdReaderLoop_eq, Ring.held_empty]
  rfl

theorem takenText_eq (cfg : BlockConfig) (reads : List (AgentRead UInt8)) :
    takenText cfg reads =
      (keepLast (bridgeBufferSize - 1) (printed [] (Alphabet.arrived reads))).take
        (cfg.maxOutputBuffer - 1) := by
  rw [takenText, (Ring.held_read _ _).1, held_textRing]

/-- The text of an answer is what `engine_read_text` takes from the ring. -/
theorem readText_endedServer (cfg : BlockConfig) (eng : EngineState)
    (reads : List (AgentRead UInt8)) {turn : StdioTurn} (h : turn.printed = []) :
    ((endedServer eng reads).readText cfg turn).1 = takenText cfg reads := by
  have hroom := (textRing reads).room
  have hsame : ringAppend bridgeBufferSize (textRing reads).held [] = (textRing reads).held := by
    have hall : ringAppend bridgeBufferSize (textRing reads).held [] =
        keepLast (bridgeBufferSize - 1) ((textRing reads).held ++ []) := rfl
    rw [hall, List.append_nil, keepLast_eq_self]
    rw [Ring.length_held]
    omega
  rw [StdioServer.readText, h, endedServer, hsame, takenText, (Ring.held_read _ _).1]
  rfl

/-! ## Whole texts -/

/-- How many bytes the ring is given for the rest of a stream, of whose current line
`n` bytes are in the line buffer, `v` of them in front of the first terminator. -/
def passed (n v : Nat) (hidden : Bool) : Bytes → Nat
  | [] => if n = 0 then 0 else v + 1
  | c :: rest =>
      if c = 10 ∨ lineSize ≤ n + 1 then v + 1 + passed 0 0 false rest
      else if c = 13 then passed n v hidden rest
      else if c = 0 ∨ hidden then passed (n + 1) v true rest
      else passed (n + 1) (v + 1) false rest

/-- How many bytes of a stream the ring holds in the end. -/
def ringCount (stream : Bytes) : Nat := min (passed 0 0 false stream) (bridgeBufferSize - 1)

theorem shown_snoc {line : Bytes} {c : UInt8} :
    plainBytes.shown (line ++ [c]) =
      if c = 0 ∨ 0 ∈ line then plainBytes.shown line else plainBytes.shown line ++ [c] := by
  by_cases hzero : 0 ∈ line
  · have hshort : (plainBytes.shown line).length ≠ line.length := by
      intro hlen
      rw [← (List.takeWhile_sublist _).eq_of_length hlen] at hzero
      have hcode := List.mem_takeWhile_imp hzero
      exact absurd hcode (by decide)
    rw [if_pos (Or.inr hzero)]
    exact List.takeWhile_append.trans (if_neg hshort)
  · have hline := shown_eq_self hzero
    have hall : ∀ d ∈ line, decide (plainBytes.code d ≠ 0) = true :=
      fun d hd => decide_eq_true fun heq => hzero (heq ▸ hd)
    have happend : plainBytes.shown (line ++ [c]) = line ++ plainBytes.shown [c] :=
      List.takeWhile_append_of_pos hall
    rw [happend, hline]
    by_cases hc : c = 0
    · rw [if_pos (Or.inl hc), hc]
      exact List.append_nil line
    · rw [if_neg (by simp [hc, hzero]), shown_eq_self (by simpa using Ne.symm hc)]

theorem length_printed (line stream : Bytes) :
    (printed line stream).length =
      passed line.length (plainBytes.shown line).length (decide (0 ∈ line)) stream := by
  induction line, stream using printed_induct with
  | nil line =>
      rw [printed_nil, passed]
      by_cases hnil : line = []
      · subst hnil
        rfl
      · rw [if_neg hnil, if_neg fun h => hnil (List.length_eq_zero_iff.mp h), List.length_append]
        rfl
  | feed line rest ih =>
      rw [printed_break (Or.inl rfl), passed, if_pos (Or.inl rfl), List.length_append,
        List.length_cons, ih]
      simp [Alphabet.shown]
      omega
  | full line c rest hfeed hfull ih =>
      rw [printed_break (Or.inr hfull), passed, if_pos (Or.inr hfull), List.length_append,
        List.length_cons, ih]
      simp [Alphabet.shown]
      omega
  | ret line rest hlt ih =>
      rw [printed_return hlt, passed, if_neg (by simp; omega), if_pos rfl, ih]
  | byte line c rest hfeed hreturn hlt ih =>
      rw [printed_byte hfeed hreturn hlt, passed, if_neg (by simp [hfeed]; omega),
        if_neg hreturn, ih, shown_snoc, List.length_append]
      by_cases hhidden : c = 0 ∨ 0 ∈ line
      · rw [if_pos hhidden, if_pos (by simpa using hhidden)]
        have hmem : 0 ∈ line ++ [c] := by simpa [eq_comm, or_comm] using hhidden
        rw [decide_eq_true hmem]
        rfl
      · rw [if_neg hhidden, if_neg (by simpa using hhidden), List.length_append]
        have hmem : 0 ∉ line ++ [c] := by simpa [eq_comm, or_comm] using hhidden
        rw [decide_eq_false hmem]
        rfl

/-- The text that is taken is what the agent printed: no terminator, no line that the
line buffer cuts, and room for it all in the ring and in the content buffer.  A
carriage return behind a full line buffer leaves a line feed too many; that does no
harm where nothing but line ends follows and the content buffer cuts it off. -/
def Arrives (cfg : BlockConfig) (stream : Bytes) : Prop :=
  0 ∉ stream ∧ ∃ k, surplus 0 stream = some k ∧
    (wanted [] stream).length + k < bridgeBufferSize ∧
    (wanted [] stream).length ≤ cfg.maxOutputBuffer - 1 ∧
    (k = 0 ∨ (wanted [] stream).length = cfg.maxOutputBuffer - 1)

/-- No terminator is put into the ring. -/
theorem zero_not_mem_printed (line stream : Bytes) : 0 ∉ printed line stream := by
  have hshown : ∀ text : Bytes, 0 ∉ plainBytes.shown text := by
    intro text hmem
    have hcode := List.mem_takeWhile_imp hmem
    exact absurd hcode (by decide)
  intro hmem
  obtain ⟨text, -, hin⟩ := List.mem_flatMap.mp hmem
  exact hshown text hin

theorem mem_wanted {c : UInt8} {line stream : Bytes} (hc : c ≠ 13) (hmem : c ∈ stream) :
    c ∈ wanted line stream := by
  have hin : c ∈ line ++ stream.filter (· ≠ 13) :=
    List.mem_append_right _ (List.mem_filter.mpr ⟨hmem, decide_eq_true hc⟩)
  unfold wanted endLine
  split
  · exact List.mem_append_left _ hin
  · exact hin

theorem count_wanted (line stream : Bytes) :
    (wanted line stream).countP (· ≠ 10) =
      line.countP (· ≠ 10) + (stream.filter (· ≠ 13)).countP (· ≠ 10) := by
  unfold wanted endLine
  split
  · rw [List.countP_append, List.countP_append]
    rfl
  · rw [List.countP_append]

/-- Bytes that are no line feeds are lost on the way, and none are added. -/
theorem count_printed (line stream : Bytes) :
    (printed line stream).countP (· ≠ 10) ≤ (wanted line stream).countP (· ≠ 10) := by
  have hshown : ∀ line : Bytes,
      (plainBytes.shown line).countP (· ≠ 10) ≤ line.countP (· ≠ 10) :=
    fun line => (List.takeWhile_sublist _).countP_le
  have hbreak : ∀ line rest : Bytes,
      (plainBytes.shown line ++ 10 :: printed [] rest).countP (· ≠ 10) =
        (plainBytes.shown line).countP (· ≠ 10) + (printed [] rest).countP (· ≠ 10) := by
    intro line rest
    rw [List.countP_append]
    rfl
  induction line, stream using printed_induct with
  | nil line =>
      rw [printed_nil, count_wanted]
      split
      · exact Nat.zero_le _
      · rw [List.countP_append]
        exact Nat.add_le_add (hshown line) le_rfl
  | feed line rest ih =>
      rw [count_wanted] at ih
      rw [printed_break (Or.inl rfl), hbreak, count_wanted]
      exact Nat.add_le_add (hshown line) (by simpa using ih)
  | full line c rest hfeed hfull ih =>
      have hrest : (rest.filter (· ≠ 13)).countP (· ≠ 10) ≤
          ((c :: rest).filter (· ≠ 13)).countP (· ≠ 10) :=
        ((List.sublist_cons_self c rest).filter _).countP_le
      rw [count_wanted, List.countP_nil, Nat.zero_add] at ih
      rw [printed_break (Or.inr hfull), hbreak, count_wanted]
      exact Nat.add_le_add (hshown line) (ih.trans hrest)
  | ret line rest hlt ih => rwa [printed_return hlt, wanted_return]
  | byte line c rest hfeed hreturn hlt ih =>
      rwa [printed_byte hfeed hreturn hlt, wanted_byte _ hreturn]

/-- What a text has around a part of it that has all its bytes but line feeds. -/
theorem feeds_around {front text back : Bytes}
    (h : (front ++ text ++ back).countP (· ≠ 10) ≤ text.countP (· ≠ 10)) :
    front = List.replicate front.length 10 ∧ back = List.replicate back.length 10 := by
  have hfeeds : ∀ l : Bytes, l.countP (· ≠ 10) = 0 → l = List.replicate l.length 10 := by
    intro l hl
    refine List.eq_replicate_of_mem fun c hc => ?_
    simpa using List.countP_eq_zero.mp hl c hc
  rw [List.countP_append, List.countP_append] at h
  exact ⟨hfeeds front (by omega), hfeeds back (by omega)⟩

/-- Line feeds are never added in front. -/
theorem no_feeds_in_front {stream : Bytes} (hzero : 0 ∉ stream) {j k : Nat}
    (h : printed [] stream = List.replicate j 10 ++ wanted [] stream ++ List.replicate k 10) :
    j = 0 := by
  induction stream with
  | nil =>
      have hnil : printed [] [] = [] := rfl
      rw [hnil, List.append_assoc] at h
      simpa using (List.append_eq_nil_iff.mp h.symm).1
  | cons c rest ih =>
      have htail : 0 ∉ rest := fun h => hzero (List.mem_cons_of_mem _ h)
      cases j with
      | zero => rfl
      | succ j =>
          exfalso
          by_cases hfeed : c = 10
          · subst hfeed
            have hshift : List.replicate (j + 1) 10 ++ ([] ++ 10 :: wanted [] rest) =
                10 :: (List.replicate (j + 1) 10 ++ wanted [] rest) := by
              rw [List.nil_append, List.append_cons, ← List.replicate_succ', List.replicate_succ]
              rfl
            rw [printed_break (Or.inl rfl), wanted_feed, hshift, shown_eq_self List.not_mem_nil,
              List.nil_append] at h
            exact absurd (ih htail (List.cons.inj h).2) (Nat.succ_ne_zero j)
          · by_cases hreturn : c = 13
            · subst hreturn
              rw [printed_return (by decide), wanted_return] at h
              exact absurd (ih htail h) (Nat.succ_ne_zero j)
            · have hc : c ≠ 0 := fun h => hzero (h ▸ List.mem_cons_self)
              have hpre := prefix_printed [c] rest
              rw [shown_eq_self (by simpa using Ne.symm hc)] at hpre
              rw [printed_byte hfeed hreturn (by decide), List.replicate_succ] at h
              rw [List.nil_append] at h
              rw [h] at hpre
              exact hfeed (List.cons_prefix_cons.mp hpre).1

/-- **The text is whole** exactly where it arrives. -/
theorem takenText_eq_iff (cfg : BlockConfig) (reads : List (AgentRead UInt8)) :
    takenText cfg reads = wanted [] (Alphabet.arrived reads) ↔
      Arrives cfg (Alphabet.arrived reads) := by
  rw [takenText_eq]
  generalize Alphabet.arrived reads = stream
  have hsize : bridgeBufferSize = 131072 := rfl
  constructor
  · intro h
    have hzero : 0 ∉ stream := by
      intro hmem
      have hin : 0 ∈ wanted [] stream := mem_wanted (by decide) hmem
      rw [← h] at hin
      exact zero_not_mem_printed [] stream (List.mem_of_mem_drop (List.mem_of_mem_take hin))
    -- the text is a part of what the ring was given, with line feeds around it
    set front := (printed [] stream).take ((printed [] stream).length - (bridgeBufferSize - 1))
    set back := (keepLast (bridgeBufferSize - 1) (printed [] stream)).drop
      (cfg.maxOutputBuffer - 1)
    have hparts : printed [] stream = front ++ wanted [] stream ++ back := by
      rw [← h, List.append_assoc, List.take_append_drop]
      exact (List.take_append_drop _ _).symm
    have hcount := count_printed [] stream
    rw [hparts] at hcount
    obtain ⟨hfront, hback⟩ := feeds_around hcount
    rw [hfront, hback] at hparts
    have hnone : front.length = 0 := no_feeds_in_front hzero hparts
    have hlen := congrArg List.length h
    have hroom := hnone
    rw [List.length_take] at hroom
    rw [List.length_take, length_keepLast] at hlen
    rw [hnone, List.replicate_zero, List.nil_append] at hparts
    have htotal := congrArg List.length hparts
    rw [List.length_append, List.length_replicate] at htotal
    refine ⟨hzero, back.length, ?_, ?_, ?_, ?_⟩
    · exact (printed_eq_wanted_iff List.not_mem_nil List.not_mem_nil hzero _).mp hparts
    · omega
    · omega
    · omega
  · rintro ⟨hzero, k, hk, hring, htext, hcut⟩
    have hprinted := (printed_eq_wanted_iff List.not_mem_nil List.not_mem_nil hzero k).mpr hk
    have hlen : (printed [] stream).length ≤ bridgeBufferSize - 1 := by
      rw [hprinted, List.length_append, List.length_replicate]
      omega
    rw [keepLast_eq_self hlen, hprinted]
    rcases hcut with rfl | hcut
    · rw [List.replicate_zero, List.append_nil, List.take_of_length_le htext]
    · rw [← hcut, List.take_left]

/-! ## Answers that say what is missing -/

/-- A stream of this length that nothing cuts off. -/
def Uncut (cfg : BlockConfig) (eng : EngineState) (turn : StdioTurn) : Prop :=
  ∀ i, 4096 * i < cfg.maxOutputBuffer - 1 → eng.cancelled = false ∧ turn.writable i = true

/-- The ring holds what fills the content buffer, and a stream is not cut off; or it
holds more than the limit of an answer in one piece. -/
def Marks (cfg : BlockConfig) (eng : EngineState) (turn : StdioTurn) (stream : Bytes) : Prop :=
  if turn.stream then
    cfg.maxOutputBuffer - 1 ≤ ringCount stream ∧ Uncut cfg eng turn
  else
    cfg.maxOutputBuffer - 1 ≤ ringCount stream ∨
      (0 < cfg.maxOutputChars ∧ cfg.maxOutputChars.toNat < ringCount stream)

theorem length_takenText (cfg : BlockConfig) (reads : List (AgentRead UInt8)) :
    (takenText cfg reads).length =
      min (cfg.maxOutputBuffer - 1) (ringCount (Alphabet.arrived reads)) := by
  have hlen := length_printed [] (Alphabet.arrived reads)
  rw [takenText_eq, List.length_take, length_keepLast, hlen]
  rfl

theorem zero_not_mem_takenText (cfg : BlockConfig) (reads : List (AgentRead UInt8)) :
    0 ∉ takenText cfg reads := by
  rw [takenText_eq]
  intro hmem
  exact zero_not_mem_printed _ _ (List.mem_of_mem_drop (List.mem_of_mem_take hmem))

theorem fillsBuffer_takenText (cfg : BlockConfig) (reads : List (AgentRead UInt8)) :
    fillsBuffer cfg (takenText cfg reads) = true ↔
      cfg.maxOutputBuffer - 1 ≤ ringCount (Alphabet.arrived reads) := by
  rw [fillsBuffer, decide_eq_true_iff, length_takenText]
  omega

/-- A text that was taken is shown as it is. -/
theorem stdioText_takenText {cfg : BlockConfig} {reads : List (AgentRead UInt8)}
    (h : takenText cfg reads ≠ []) : stdioText cfg (takenText cfg reads) = takenText cfg reads := by
  have hlen := length_takenText cfg reads
  rw [stdioText, stdioContent, if_neg h, clip, List.take_of_length_le (by omega)]
  exact upTo_eq_self (zero_not_mem_takenText cfg reads)

theorem printed_ne_nil {line : Bytes} (hne : line ≠ []) (stream : Bytes) :
    printed line stream ≠ [] := by
  induction line, stream using printed_induct with
  | nil line =>
      rw [printed_nil, if_neg hne]
      simp
  | feed line rest ih =>
      rw [printed_break (Or.inl rfl)]
      simp
  | full line c rest hfeed hfull ih =>
      rw [printed_break (Or.inr hfull)]
      simp
  | ret line rest hlt ih =>
      rw [printed_return hlt]
      exact ih hne
  | byte line c rest hfeed hreturn hlt ih =>
      rw [printed_byte hfeed hreturn hlt]
      exact ih (by simp)

/-- Where the ring is given nothing there was nothing to give. -/
theorem wanted_of_printed_nil {stream : Bytes} (h : printed [] stream = []) :
    wanted [] stream = [] := by
  induction stream with
  | nil => rfl
  | cons c rest ih =>
      by_cases hfeed : c = 10
      · subst hfeed
        rw [printed_break (Or.inl rfl)] at h
        simp at h
      · by_cases hreturn : c = 13
        · subst hreturn
          rw [printed_return (by decide)] at h
          exact ih h
        · rw [printed_byte hfeed hreturn (by decide)] at h
          exact absurd h (printed_ne_nil (by simp) rest)

/-- **The chunk loop** is not stopped iff nothing stands in the way of its chunks. -/
theorem streamChunks_stopped_iff (writable : Nat → Bool) {eng : EngineState}
    {stream : ResponsesStreamState} (h : stream.AtText) (k : Nat) (pieces : List Bytes) :
    (streamChunks writable eng stream k pieces).stopped = false ↔
      ∀ i < pieces.length, eng.cancelled = false ∧ writable (k + i) = true := by
  induction pieces generalizing stream k with
  | nil => exact iff_of_true rfl fun i hi => absurd hi (Nat.not_lt_zero i)
  | cons piece rest ih =>
      obtain ⟨stream', hemit, hat⟩ := AtText.emitTextDelta h piece
      rw [streamChunks, hemit]
      by_cases hcancelled : eng.cancelled = true
      · rw [if_pos hcancelled]
        refine iff_of_false (by simp) fun hall => ?_
        have hfirst := (hall 0 (Nat.succ_pos _)).1
        rw [hcancelled] at hfirst
        cases hfirst
      · rw [if_neg hcancelled]
        by_cases hwritable : writable k = true
        · rw [if_neg (not_not.mpr hwritable)]
          dsimp only
          rw [ih hat]
          constructor
          · intro hall i hi
            cases i with
            | zero => exact ⟨by simpa using hcancelled, hwritable⟩
            | succ i =>
                have hnext := hall i (Nat.lt_of_succ_lt_succ hi)
                rwa [Nat.add_right_comm, Nat.add_assoc] at hnext
          · intro hall i hi
            have hnext := hall (i + 1) (Nat.succ_lt_succ hi)
            rwa [← Nat.add_assoc, Nat.add_right_comm] at hnext
        · rw [if_pos hwritable]
          exact iff_of_false (by simp) fun hall => hwritable (hall 0 (Nat.succ_pos _)).2

/-- The chunks of a text, counted. -/
theorem lt_length_chunks {fuel : Nat} {text : Bytes} (hfuel : text.length ≤ fuel) (i : Nat) :
    i < (chunks 4096 fuel text).length ↔ 4096 * i < text.length := by
  induction fuel generalizing text i with
  | zero =>
      rw [chunks]
      have hlen := Nat.le_zero.mp hfuel
      rw [hlen]
      simp
  | succ fuel ih =>
      rw [chunks]
      split
      · rename_i hnil
        rw [hnil]
        simp
      · rename_i hne
        have hpos := List.length_pos_iff.mpr hne
        cases i with
        | zero => simpa using hpos
        | succ i =>
            rw [List.length_cons, Nat.add_lt_add_iff_right, ih, List.length_drop]
            · omega
            · rw [List.length_drop]
              omega

section

variable (cfg : BlockConfig) (eng : EngineState) (turn : StdioTurn)
  (reads : List (AgentRead UInt8))

/-- A turn that finds the stream ended. -/
def StdioTurn.behind (turn : StdioTurn) : StdioTurn := { turn with printed := [] }

theorem readText_behind :
    ((endedServer eng reads).readText cfg turn.behind).1 = takenText cfg reads :=
  readText_endedServer cfg eng reads rfl

/-- The details of a stream. -/
theorem details_stream_iff (h : turn.stream = true) :
    (endedServer eng reads).details cfg turn.behind ≠ [] ↔
      cfg.maxOutputBuffer - 1 ≤ ringCount (Alphabet.arrived reads) ∧ Uncut cfg eng turn := by
  have hstream : turn.behind.stream = true := h
  have hreason : lit "max_output_buffer" ≠ [] := by decide
  have hlen := length_takenText cfg reads
  unfold StdioServer.details StdioServer.chunkRun
  dsimp only
  rw [if_pos hstream, readText_behind]
  by_cases hfull : fillsBuffer cfg (takenText cfg reads) = true
  · have hcount := (fillsBuffer_takenText cfg reads).mp hfull
    have htext : (stdioText cfg (takenText cfg reads)).length = cfg.maxOutputBuffer - 1 := by
      by_cases hnil : takenText cfg reads = []
      · rw [hnil, List.length_nil] at hlen
        have hsize : cfg.maxOutputBuffer - 1 = 0 := by omega
        rw [stdioText, clip, hsize, List.take_zero]
        rfl
      · rw [stdioText_takenText hnil]
        omega
    have hstop := @streamChunks_stopped_iff turn.writable eng _
      (openedStream_atText cfg.model turn.now) 0
      (chunks 4096 (stdioText cfg (takenText cfg reads)).length
        (stdioText cfg (takenText cfg reads)))
    have hmarked := hstop.trans (forall_congr' (q := fun i =>
      4096 * i < cfg.maxOutputBuffer - 1 → eng.cancelled = false ∧ turn.writable i = true)
      fun i => by rw [lt_length_chunks le_rfl, htext, Nat.zero_add])
    have hvalue : ∀ stopped : Bool,
        (if stopped = true then [] else lit "max_output_buffer") ≠ [] ↔ stopped = false := by
      intro stopped
      cases stopped with
      | true => simp
      | false => simpa using hreason
    rw [if_pos hfull, and_iff_right hcount]
    exact (hvalue _).trans hmarked
  · rw [if_neg hfull]
    refine iff_of_false ?_ fun hmarked => hfull ((fillsBuffer_takenText cfg reads).mpr hmarked.1)
    split
    · exact not_not.mpr rfl
    · exact not_not.mpr rfl

/-- The details of an answer in one piece. -/
theorem details_block_iff (h : turn.stream = false) (hne : takenText cfg reads ≠ []) :
    (endedServer eng reads).details cfg turn.behind ≠ [] ↔
      cfg.maxOutputBuffer - 1 ≤ ringCount (Alphabet.arrived reads) ∨
        (0 < cfg.maxOutputChars ∧
          cfg.maxOutputChars.toNat < ringCount (Alphabet.arrived reads)) := by
  have hblock : ¬ turn.behind.stream = true := by
    rw [show turn.behind.stream = turn.stream from rfl, h]
    exact Bool.false_ne_true
  have hlen := length_takenText cfg reads
  unfold StdioServer.details stdioBlockContent
  dsimp only
  rw [if_neg hblock, readText_behind, stdioText_takenText hne]
  by_cases hfull : fillsBuffer cfg (takenText cfg reads) = true
  · rw [if_pos hfull]
    exact iff_of_true (by decide) (Or.inl ((fillsBuffer_takenText cfg reads).mp hfull))
  · have hcount := mt (fillsBuffer_takenText cfg reads).mpr hfull
    have htext : (takenText cfg reads).length = ringCount (Alphabet.arrived reads) := by omega
    rw [if_neg hfull, or_iff_right hcount, htext]
    split
    · rename_i hlong
      exact iff_of_true (by decide) (of_decide_eq_true hlong)
    · rename_i hlong
      exact iff_of_false (not_not.mpr rfl) fun hmarked => hlong (decide_eq_true hmarked)

/-- **The text of a stdio answer** whose stream has ended, exactly: it is the whole
stream, or the answer says that it is not, iff the stream arrives or what is missing
is marked. -/
theorem whole_text_iff :
    (takenText cfg reads = wanted [] (Alphabet.arrived reads) ∨
        (endedServer eng reads).details cfg turn.behind ≠ []) ↔
      Arrives cfg (Alphabet.arrived reads) ∨ Marks cfg eng turn (Alphabet.arrived reads) := by
  rw [takenText_eq_iff]
  unfold Marks
  by_cases hstream : turn.stream = true
  · rw [if_pos hstream, details_stream_iff cfg eng turn reads hstream]
  · rw [if_neg hstream]
    by_cases hnil : takenText cfg reads = []
    · by_cases hfull : cfg.maxOutputBuffer - 1 ≤ ringCount (Alphabet.arrived reads)
      · have hblock : ¬ turn.behind.stream = true := hstream
        refine iff_of_true (Or.inr ?_) (Or.inr (Or.inl hfull))
        unfold StdioServer.details stdioBlockContent
        dsimp only
        rw [if_neg hblock, readText_behind,
          if_pos ((fillsBuffer_takenText cfg reads).mpr hfull)]
        decide
      · -- an empty ring holds all of a stream that has nothing to hold
        have hlen := length_takenText cfg reads
        have htotal := length_printed [] (Alphabet.arrived reads)
        have harrives : Arrives cfg (Alphabet.arrived reads) := by
          rw [hnil, List.length_nil] at hlen
          have hcount : ringCount (Alphabet.arrived reads) = 0 := by omega
          have hsize : bridgeBufferSize = 131072 := rfl
          have hprinted : printed [] (Alphabet.arrived reads) = [] := by
            refine List.length_eq_zero_iff.mp (htotal.trans ?_)
            unfold ringCount at hcount
            exact (Nat.min_eq_zero_iff.mp hcount).resolve_right (by omega)
          refine (takenText_eq_iff cfg reads).mp ?_
          rw [hnil, wanted_of_printed_nil hprinted]
        exact iff_of_true (Or.inl harrives) (Or.inl harrives)
    · rw [details_block_iff cfg eng turn reads (by simpa using hstream) hnil]

end

/-- Letters that the line buffer still holds are not lost. -/
theorem surplus_letters {n j : Nat} (h : n + j < lineSize) (rest : Bytes) :
    surplus n (List.replicate j 97 ++ rest) = surplus (n + j) rest := by
  induction j generalizing n with
  | zero => rfl
  | succ j ih =>
      rw [List.replicate_succ, List.cons_append, surplus, if_neg (by decide),
        if_pos (by omega), if_neg (by decide), ih (by omega), Nat.add_right_comm, Nat.add_assoc]

/-- A line of 4096 letters. -/
def longLine : Bytes := List.replicate 4096 97 ++ [10]

/-- A long line loses a letter, and nothing says so: here with the default sizes. -/
theorem long_line_loses_letter :
    ¬ ∀ (cfg : BlockConfig) (eng : EngineState) (turn : StdioTurn)
        (reads : List (AgentRead UInt8)),
      takenText cfg reads = wanted [] (Alphabet.arrived reads) ∨
        (endedServer eng reads).details cfg turn.behind ≠ [] := by
  intro hall
  let cfg : BlockConfig := ⟨262144, 0, lit "local", []⟩
  rcases hall cfg ⟨false, false, []⟩ ⟨false, [], 0, 0, fun _ => true⟩ [.bytes longLine] with
    htext | hdetails
  · have harrived : Alphabet.arrived [AgentRead.bytes longLine] = longLine :=
      List.append_nil longLine
    obtain ⟨-, k, hk, -⟩ := (takenText_eq_iff _ _).mp htext
    have hcut : surplus 0 longLine = surplus (0 + 4095) (97 :: [10]) := by
      have hline : longLine = List.replicate 4095 97 ++ 97 :: [10] := by
        rw [longLine, List.replicate_succ', List.append_assoc]
        rfl
      rw [hline]
      exact surplus_letters (by decide) _
    rw [harrived, hcut] at hk
    cases hk
  · have hfull : ¬ fillsBuffer cfg (takenText cfg [.bytes longLine]) = true := by
      rw [fillsBuffer_takenText]
      have hsize : bridgeBufferSize = 131072 := rfl
      have hcfg : cfg.maxOutputBuffer = 262144 := rfl
      unfold ringCount
      omega
    refine hdetails ?_
    unfold StdioServer.details stdioBlockContent
    dsimp only
    refine (if_neg Bool.false_ne_true).trans ?_
    rw [readText_behind, if_neg hfull]
    exact if_neg (by simp [cfg])

end StarBridge
