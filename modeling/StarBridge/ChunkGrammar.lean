import StarBridge.ChunkDecoder

/-!
# Which bodies are chunks

The scanner of `read_http_body` is lenient: it passes over line breaks, reads a size
with `strtol`, takes what is there of a chunk that is cut short, and ends the body
where the bytes end.  `ChunkSequence` is what a chunked body is meant to be, and
`RefusedBody` what the scanner refuses.  `malformed_rejected_iff` says that between
the two the scanner takes what is no body.
-/

namespace StarBridge

/-! ## Chunked bodies -/

/-- The line in front of a chunk of this size: hexadecimal digits, and maybe an
extension. -/
def GivesSize (line : Bytes) (size : Nat) : Prop :=
  ∃ digits ext, line = digits ++ ext ∧ digits ≠ [] ∧
    (∀ c ∈ digits, (CJson.hexValue c).isSome = true) ∧ hexDigits digits = size ∧
      (ext = [] ∨ (ext.dropWhile isBlank).head? = some 59) ∧ ∀ c ∈ ext, isBreak c = false

/-- Complete chunks, each with its size, its data and a line break, and a chunk of size
zero at the end. -/
inductive ChunkSequence : Bytes → Prop
  | last {line : Bytes} (hsize : GivesSize line 0) : ChunkSequence (line ++ (crlf ++ crlf))
  | chunk {line data rest : Bytes} (hsize : GivesSize line data.length) (hdata : data ≠ [])
      (hrest : ChunkSequence rest) :
      ChunkSequence (line ++ (crlf ++ (data ++ (crlf ++ rest))))

/-- What the scanner refuses behind `n` bytes of data: a line that no CR with a byte
behind it ends, a negative size, or more data than are allowed, maybe behind other
chunks. -/
inductive RefusedBody (maxBody : Nat) : Nat → Bytes → Prop
  | line {n : Nat} {breaks ending : Bytes} {line : SizeLine}
      (hbreaks : ∀ c ∈ breaks, isBreak c = true)
      (hending : ending = [] ∨ ending = [13] ∨ ending.head? = some 10) :
      RefusedBody maxBody n (breaks ++ (line.text ++ ending))
  | negative {n : Nat} {breaks more : Bytes} {line : SizeLine} {c : UInt8}
      (hbreaks : ∀ c ∈ breaks, isBreak c = true) (hsize : chunkSize line.text < 0) :
      RefusedBody maxBody n (breaks ++ (line.text ++ 13 :: c :: more))
  | large {n size : Nat} {breaks more : Bytes} {line : SizeLine} {c : UInt8}
      (hbreaks : ∀ c ∈ breaks, isBreak c = true) (hsize : chunkSize line.text = size)
      (hpos : 0 < size) (hfits : n + size ≤ 2 ^ 63)
      (hlarge : maxBody < n + ((skipByte 10 (c :: more)).take size).length) :
      RefusedBody maxBody n (breaks ++ (line.text ++ 13 :: c :: more))
  | behind {n size : Nat} {breaks more : Bytes} {line : SizeLine} {c : UInt8}
      (hbreaks : ∀ c ∈ breaks, isBreak c = true) (hsize : chunkSize line.text = size)
      (hpos : 0 < size) (hfits : n + size ≤ 2 ^ 63)
      (hroom : n + ((skipByte 10 (c :: more)).take size).length ≤ maxBody)
      (hmore : RefusedBody maxBody (n + ((skipByte 10 (c :: more)).take size).length)
        (behindChunk size (skipByte 10 (c :: more)))) :
      RefusedBody maxBody n (breaks ++ (line.text ++ 13 :: c :: more))

/-- A body that is no sequence of chunks is not returned. -/
def RejectsMalformed (maxBody : Nat) (raw body : Bytes) : Prop :=
  ¬ ChunkSequence body →
    readHttpBody maxBody raw = .rejected ∨ readHttpBody maxBody raw = .tooLarge

/-! ## Reading a size line -/

/-- What ends a line. -/
theorem line_cases (rest : Bytes) :
    (∀ c ∈ rest, isBreak c = true) ∨
      ∃ breaks ending, ∃ line : SizeLine, (∀ c ∈ breaks, isBreak c = true) ∧
        (∀ c ∈ ending.head?, isBreak c = true) ∧ rest = breaks ++ (line.text ++ ending) := by
  by_cases hnil : rest.dropWhile isBreak = []
  · exact Or.inl (List.dropWhile_eq_nil_iff.mp hnil)
  · refine Or.inr ⟨rest.takeWhile isBreak, (rest.dropWhile isBreak).dropWhile fun c => ¬ isBreak c,
      ⟨(rest.dropWhile isBreak).takeWhile fun c => ¬ isBreak c, ?_, ?_⟩, ?_, ?_, ?_⟩
    · have hhead := List.head?_dropWhile_not isBreak rest
      cases hfront : rest.dropWhile isBreak with
      | nil => exact absurd hfront hnil
      | cons c more =>
          rw [hfront, List.head?_cons] at hhead
          simp [hhead]
    · intro c hc
      simpa using List.mem_takeWhile_imp hc
    · exact fun c hc => List.mem_takeWhile_imp hc
    · intro c hc
      have hhead := List.head?_dropWhile_not (fun c => ¬ isBreak c) (rest.dropWhile isBreak)
      rw [Option.mem_def.mp hc] at hhead
      simpa using hhead
    · rw [List.takeWhile_append_dropWhile, List.takeWhile_append_dropWhile]

theorem readSizeLine_breaks {rest : Bytes} (h : ∀ c ∈ rest, isBreak c = true) :
    readSizeLine rest = .ended := by
  unfold readSizeLine
  dsimp only
  rw [if_pos (List.dropWhile_eq_nil_iff.mpr h)]

/-- The scanner at a line, in front of what ends it. -/
theorem readSizeLine_front {breaks ending : Bytes} (hbreaks : ∀ c ∈ breaks, isBreak c = true)
    (line : SizeLine) (hending : ∀ c ∈ ending.head?, isBreak c = true) :
    (breaks ++ (line.text ++ ending)).dropWhile isBreak = line.text ++ ending ∧
      (line.text ++ ending).takeWhile (fun c => ¬ isBreak c) = line.text ∧
        line.text ++ ending ≠ [] := by
  refine ⟨?_, ?_, fun h => line.ne_nil (List.append_eq_nil_iff.mp h).1⟩
  · rw [List.dropWhile_append_of_pos hbreaks]
    exact line.dropWhile_append ending
  · rw [List.takeWhile_append_of_pos (by intro c hc; simp [line.plain c hc])]
    cases ending with
    | nil => simp
    | cons c more => simp [hending c rfl]

/-- A line that CR ends, with a byte behind it. -/
theorem readSizeLine_line {breaks : Bytes} (hbreaks : ∀ c ∈ breaks, isBreak c = true)
    (line : SizeLine) (c : UInt8) (more : Bytes) :
    readSizeLine (breaks ++ (line.text ++ 13 :: c :: more)) =
      if chunkSize line.text < 0 then .refused
      else if chunkSize line.text = 0 then .ended
      else .chunk (chunkSize line.text).toNat (skipByte 10 (c :: more)) := by
  obtain ⟨hfront, hline, hne⟩ := readSizeLine_front hbreaks line
    (show ∀ b ∈ (13 :: c :: more).head?, isBreak b = true from fun b hb => by cases hb; decide)
  have hskip : (if c = 10 then more else c :: more) = skipByte 10 (c :: more) := by
    by_cases hc : c = 10 <;> simp [skipByte, hc]
  unfold readSizeLine
  dsimp only
  rw [hfront, if_neg hne, hline, List.drop_left, ← hskip]
  all_goals rfl

/-- A line that nothing ends, or LF, or CR with no byte behind it. -/
theorem readSizeLine_unended {breaks ending : Bytes} (hbreaks : ∀ c ∈ breaks, isBreak c = true)
    (line : SizeLine) (hending : ending = [] ∨ ending = [13] ∨ ending.head? = some 10) :
    readSizeLine (breaks ++ (line.text ++ ending)) = .refused := by
  have hbreak : ∀ c ∈ ending.head?, isBreak c = true := by
    intro c hc
    rcases hending with rfl | rfl | hhead
    · cases hc
    · cases hc
      decide
    · rw [hhead] at hc
      cases hc
      decide
  obtain ⟨hfront, hline, hne⟩ := readSizeLine_front hbreaks line hbreak
  unfold readSizeLine
  dsimp only
  rw [hfront, if_neg hne, hline, List.drop_left]
  split
  · rcases hending with hending | hending | hending <;> cases hending
  · rfl

/-! ## What is refused -/

section

variable {maxBody n : Nat} {rest : Bytes}

theorem refusedBody_of_ended (h : readSizeLine rest = .ended) : ¬ RefusedBody maxBody n rest := by
  intro hrefused
  cases hrefused with
  | line hbreaks hending =>
      rw [readSizeLine_unended hbreaks _ hending] at h
      cases h
  | negative hbreaks hsize =>
      rw [readSizeLine_line hbreaks, if_pos hsize] at h
      cases h
  | large hbreaks hsize hpos =>
      rw [readSizeLine_line hbreaks, if_neg (by omega), if_neg (by omega)] at h
      cases h
  | behind hbreaks hsize hpos =>
      rw [readSizeLine_line hbreaks, if_neg (by omega), if_neg (by omega)] at h
      cases h

/-- What the scanner refuses at once. -/
theorem refusedBody_of_refused (h : readSizeLine rest = .refused) : RefusedBody maxBody n rest := by
  rcases line_cases rest with hbreaks | ⟨breaks, ending, line, hbreaks, hending, rfl⟩
  · rw [readSizeLine_breaks hbreaks] at h
    cases h
  · rcases ending with _ | ⟨b, ending⟩
    · exact .line hbreaks (Or.inl rfl)
    · have hb := hending b rfl
      by_cases hcr : b = 13
      · subst hcr
        rcases ending with _ | ⟨c, more⟩
        · exact .line hbreaks (Or.inr (Or.inl rfl))
        · rw [readSizeLine_line hbreaks] at h
          by_cases hneg : chunkSize line.text < 0
          · exact .negative hbreaks hneg
          · rw [if_neg hneg] at h
            split at h <;> cases h
      · have hlf : b = 10 := by simpa [isBreak, hcr] using hb
        subst hlf
        exact .line hbreaks (Or.inr (Or.inr rfl))

/-- A chunk is refused iff it is too large or what stands behind it is refused. -/
theorem refusedBody_chunk_iff {size : Nat} {data : Bytes}
    (h : readSizeLine rest = .chunk size data) :
    RefusedBody maxBody n rest ↔ n + size ≤ 2 ^ 63 ∧
      (maxBody < n + (data.take size).length ∨ n + (data.take size).length ≤ maxBody ∧
        RefusedBody maxBody (n + (data.take size).length) (behindChunk size data)) := by
  constructor
  · intro hrefused
    cases hrefused with
    | line hbreaks hending =>
        rw [readSizeLine_unended hbreaks _ hending] at h
        cases h
    | negative hbreaks hsize =>
        rw [readSizeLine_line hbreaks, if_pos hsize] at h
        cases h
    | large hbreaks hsize hpos hfits hlarge =>
        rw [readSizeLine_line hbreaks, if_neg (by omega), if_neg (by omega), hsize,
          Int.toNat_natCast] at h
        cases h
        exact ⟨hfits, Or.inl hlarge⟩
    | behind hbreaks hsize hpos hfits hroom hmore =>
        rw [readSizeLine_line hbreaks, if_neg (by omega), if_neg (by omega), hsize,
          Int.toNat_natCast] at h
        cases h
        exact ⟨hfits, Or.inr ⟨hroom, hmore⟩⟩
  · intro hchunk
    obtain ⟨hfits, hchunk⟩ := hchunk
    rcases line_cases rest with hbreaks | ⟨breaks, ending, line, hbreaks, hending, rfl⟩
    · rw [readSizeLine_breaks hbreaks] at h
      cases h
    · obtain ⟨c, more, rfl⟩ : ∃ c more, ending = 13 :: c :: more := by
        by_contra hother
        have hunended : ending = [] ∨ ending = [13] ∨ ending.head? = some 10 := by
          rcases ending with _ | ⟨b, _ | ⟨c, more⟩⟩
          · exact Or.inl rfl
          · have hb := hending b rfl
            simp only [isBreak, Bool.or_eq_true, decide_eq_true_eq] at hb
            rcases hb with rfl | rfl
            · exact Or.inr (Or.inl rfl)
            · exact Or.inr (Or.inr rfl)
          · have hb := hending b rfl
            simp only [isBreak, Bool.or_eq_true, decide_eq_true_eq] at hb
            rcases hb with rfl | rfl
            · exact absurd ⟨c, more, rfl⟩ hother
            · exact Or.inr (Or.inr rfl)
        rw [readSizeLine_unended hbreaks line hunended] at h
        cases h
      rw [readSizeLine_line hbreaks] at h
      split_ifs at h with hneg hzero
      cases h
      have hsize : chunkSize line.text = ((chunkSize line.text).toNat : Int) := by omega
      rcases hchunk with hlarge | ⟨hroom, hmore⟩
      · exact .large hbreaks hsize (by omega) hfits hlarge
      · exact .behind hbreaks hsize (by omega) hfits hroom hmore

end

/-- **The scanner returns NULL** iff the body is refused. -/
theorem decodeChunks_null_iff {maxBody fuel : Nat} {rest decoded : Bytes}
    (hfuel : rest.length < fuel) :
    (decodeChunks maxBody fuel rest decoded = .rejected ∨
        decodeChunks maxBody fuel rest decoded = .tooLarge) ↔
      RefusedBody maxBody decoded.length rest := by
  induction fuel generalizing rest decoded with
  | zero => omega
  | succ fuel ih =>
      rw [decodeChunks_succ]
      cases hread : readSizeLine rest with
      | ended =>
          refine iff_of_false ?_ (refusedBody_of_ended hread)
          rintro (h | h) <;> cases h
      | refused => exact iff_of_true (Or.inl rfl) (refusedBody_of_refused hread)
      | chunk size data =>
          obtain ⟨hpos, -, hshorter⟩ := readSizeLine_chunk hread
          have hbehind := length_behindChunk_le size data
          rw [List.length_drop] at hbehind
          have hmax : longMax + 1 = 2 ^ 63 := rfl
          rw [refusedBody_chunk_iff hread]
          dsimp only
          rw [← List.length_append]
          by_cases hhuge : longMax + 1 < decoded.length + size
          · rw [if_pos hhuge]
            refine iff_of_false ?_ (fun h => by omega)
            rintro (h | h) <;> cases h
          · rw [if_neg hhuge]
            by_cases hlarge : maxBody < (decoded ++ data.take size).length
            · rw [if_pos hlarge]
              exact iff_of_true (Or.inr rfl) ⟨by omega, Or.inl hlarge⟩
            · rw [if_neg hlarge, ih (by omega)]
              constructor
              · intro h
                exact ⟨by omega, Or.inr ⟨Nat.not_lt.mp hlarge, h⟩⟩
              · intro h
                exact (h.2.resolve_left hlarge).2

/-! ## Requests -/

/-- **A malformed chunked body is rejected** exactly when it is well formed after all or
the scanner refuses it. -/
theorem malformed_rejected_iff (maxBody : Nat) {raw body : Bytes}
    (hbody : chunkedBody raw = some body) :
    RejectsMalformed maxBody raw body ↔ ChunkSequence body ∨ RefusedBody maxBody 0 body := by
  unfold chunkedBody at hbody
  split at hbody
  · rename_i hchunked
    obtain ⟨n, hhead, rfl⟩ := Option.map_eq_some_iff.mp hbody
    have hread : readHttpBody maxBody raw =
        decodeChunks maxBody ((raw.drop n).length + 1) (raw.drop n) [] := by
      unfold readHttpBody
      rw [hhead]
      dsimp only
      rw [if_pos hchunked]
    unfold RejectsMalformed
    rw [hread, decodeChunks_null_iff (Nat.lt_succ_self _)]
    exact Classical.or_iff_not_imp_left.symm
  · cases hbody

/-- A chunk sequence ends with two line breaks. -/
theorem ChunkSequence.ends {body : Bytes} (h : ChunkSequence body) : crlf ++ crlf <:+ body := by
  induction h with
  | @last line _ => exact List.suffix_append line _
  | @chunk line data rest _ _ _ ih =>
      exact ih.trans ⟨line ++ (crlf ++ (data ++ crlf)), by simp⟩

theorem malformed_rejected_iff_two_bytes :
    RejectsMalformed 1048576 (chunkedStream twoByteBody).bytes twoByteBody ↔
      ChunkSequence twoByteBody ∨ RefusedBody 1048576 0 twoByteBody :=
  malformed_rejected_iff 1048576 (by decide +kernel)

/-- A chunk that is shorter than its size, and no last chunk. -/
def shortBody : Bytes := lit "ff\r\n\x7b\"input\":\"hi\"\x7d"

/-- What has arrived of a chunk that is cut short is taken for the body. -/
theorem malformed_accepted :
    ¬ ∀ (maxBody : Nat) (raw body : Bytes), chunkedBody raw = some body →
      RejectsMalformed maxBody raw body := by
  intro h
  have hrejects := h 1048576 (chunkedStream shortBody).bytes shortBody (by decide +kernel)
  have hmalformed : ¬ ChunkSequence shortBody := fun hsequence =>
    absurd hsequence.ends (by decide)
  have hread : readHttpBody 1048576 (chunkedStream shortBody).bytes =
      .body (lit "\x7b\"input\":\"hi\"\x7d") 14 := by
    decide +kernel
  have hnull := hrejects hmalformed
  rw [hread] at hnull
  rcases hnull with hnull | hnull <;> cases hnull

end StarBridge
