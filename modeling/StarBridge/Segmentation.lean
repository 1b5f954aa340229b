import StarBridge.RequestIntake

/-!
# How a request is cut

The read loop decides on whatever has arrived whether a request is complete, so
the outcome may depend on where `read` cuts it.  For a request with a length it
does not.  A chunked request is taken to be complete as soon as something looks
like its last chunk; `segmentation_independent_iff` says when that is harmless.
-/

namespace StarBridge

open CText

/-! ## Chunked requests -/

/-- The value of `max_request_size`, as `config_validate_all` admits it. -/
structure RequestLimit where
  size : Nat
  admitted : 1024 ≤ size ∧ size ≤ 104857600

/-- The line in front of a chunk, without its line break. -/
structure SizeLine where
  text : Bytes
  ne_nil : text ≠ []
  plain : ∀ c ∈ text, isBreak c = false

/-- A chunk: its line gives the size of its data. -/
structure Chunk where
  line : SizeLine
  data : Bytes
  ne_nil : data ≠ []
  sized : chunkSize line.text = data.length

/-- A chunk on the wire. -/
def Chunk.encode (c : Chunk) : Bytes := c.line.text ++ crlf ++ c.data ++ crlf

/-- Chunks on the wire, one after another. -/
def encodeChunks (chunks : List Chunk) : Bytes := (chunks.map Chunk.encode).flatten

/-- The data chunks carry. -/
def chunkData (chunks : List Chunk) : Bytes := (chunks.map Chunk.data).flatten

/-- A complete chunked request within the limit: its chunks, the line of the
last one, which is empty, and what follows that. -/
structure ChunkedRequest (limit : RequestLimit) where
  head : HeaderBlock
  chunks : List Chunk
  last : SizeLine
  trailer : Bytes
  chunked : isChunkedRequest head.bytes = true
  lastSize : chunkSize last.text = 0
  within : (chunkData chunks).length ≤ limit.size

@[simp] theorem encodeChunks_nil : encodeChunks [] = [] := rfl

@[simp] theorem encodeChunks_append (front back : List Chunk) :
    encodeChunks (front ++ back) = encodeChunks front ++ encodeChunks back := by
  simp [encodeChunks]

@[simp] theorem encodeChunks_cons (c : Chunk) (back : List Chunk) :
    encodeChunks (c :: back) = c.encode ++ encodeChunks back := rfl

@[simp] theorem chunkData_nil : chunkData [] = [] := rfl

@[simp] theorem chunkData_append (front back : List Chunk) :
    chunkData (front ++ back) = chunkData front ++ chunkData back := by
  simp [chunkData]

@[simp] theorem chunkData_cons (c : Chunk) (back : List Chunk) :
    chunkData (c :: back) = c.data ++ chunkData back := rfl

theorem Chunk.length_encode (c : Chunk) :
    c.encode.length = c.line.text.length + c.data.length + 4 := by
  simp only [encode, List.length_append, show crlf.length = 2 from rfl]
  omega

/-! ## The chunk loop on what has arrived -/

section

variable (maxBody fuel : Nat) (decoded : Bytes)

/-- Nothing is left to decode. -/
theorem decodeChunks_nil :
    decodeChunks maxBody fuel [] decoded = .body decoded decoded.length := by
  cases fuel <;> rfl

theorem SizeLine.dropWhile_append (line : SizeLine) (rest : Bytes) :
    (line.text ++ rest).dropWhile isBreak = line.text ++ rest := by
  obtain ⟨text, hne, hplain⟩ := line
  cases text with
  | nil => exact absurd rfl hne
  | cons c text =>
      rw [List.cons_append, List.dropWhile_cons_of_neg]
      simp [hplain c List.mem_cons_self]

/-- A size line whose line break has not arrived is refused. -/
theorem decodeChunks_partial_line (line : SizeLine) {rest : Bytes}
    (hrest : rest = [] ∨ rest = [13]) :
    decodeChunks maxBody (fuel + 1) (line.text ++ rest) decoded = .rejected := by
  have hline : (line.text ++ rest).takeWhile (fun c => ¬ isBreak c) = line.text := by
    rw [List.takeWhile_append_of_pos (by intro c hc; simp [line.plain c hc])]
    rcases hrest with rfl | rfl <;> simp [isBreak]
  have hne : line.text ++ rest ≠ [] := fun h => line.ne_nil (List.append_eq_nil_iff.mp h).1
  rw [decodeChunks]
  dsimp only
  rw [line.dropWhile_append, if_neg hne, hline, List.drop_left]
  rcases hrest with rfl | rfl <;> rfl

/-- A size line, and what follows its line break. -/
theorem decodeChunks_line (line : SizeLine) (rest : Bytes) :
    decodeChunks maxBody (fuel + 1) (line.text ++ crlf ++ rest) decoded =
      if chunkSize line.text < 0 then .rejected
      else if chunkSize line.text = 0 then .body decoded decoded.length
      else if longMax + 1 < decoded.length + (chunkSize line.text).toNat then .hangs
      else if maxBody < (decoded ++ rest.take (chunkSize line.text).toNat).length then .tooLarge
      else
        decodeChunks maxBody fuel
          (skipByte 10 (skipByte 13 (rest.drop (chunkSize line.text).toNat)))
          (decoded ++ rest.take (chunkSize line.text).toNat) := by
  have htext : line.text ++ crlf ++ rest = line.text ++ 13 :: 10 :: rest := by
    rw [List.append_assoc]
    rfl
  have hline : (line.text ++ 13 :: 10 :: rest).takeWhile (fun c => ¬ isBreak c) = line.text := by
    rw [List.takeWhile_append_of_pos (by intro c hc; simp [line.plain c hc])]
    simp [isBreak]
  rw [htext, decodeChunks]
  dsimp only
  rw [line.dropWhile_append, if_neg (by simp), hline, List.drop_left]
  rfl

/-- The data of a chunk as far as it has arrived, with what follows it. -/
theorem decodeChunks_data (c : Chunk) (rest : Bytes)
    (hfits : decoded.length + c.data.length ≤ maxBody) (hmax : maxBody ≤ longMax) :
    decodeChunks maxBody (fuel + 1) (c.line.text ++ crlf ++ rest) decoded =
      decodeChunks maxBody fuel (skipByte 10 (skipByte 13 (rest.drop c.data.length)))
        (decoded ++ rest.take c.data.length) := by
  have hpos : 0 < c.data.length := List.length_pos_iff.mpr c.ne_nil
  have htake := List.length_take_le c.data.length rest
  rw [decodeChunks_line, c.sized, Int.toNat_natCast, if_neg (by omega), if_neg (by omega),
    if_neg (by omega), if_neg]
  rw [List.length_append]
  omega

theorem decodeChunks_chunk (c : Chunk) (rest : Bytes)
    (hfits : decoded.length + c.data.length ≤ maxBody) (hmax : maxBody ≤ longMax) :
    decodeChunks maxBody (fuel + 1) (c.encode ++ rest) decoded =
      decodeChunks maxBody fuel rest (decoded ++ c.data) := by
  have htext : c.encode ++ rest = c.line.text ++ crlf ++ (c.data ++ (crlf ++ rest)) := by
    simp only [Chunk.encode, List.append_assoc]
  rw [htext, decodeChunks_data maxBody fuel decoded c _ hfits hmax, List.drop_left,
    List.take_left]
  rfl

/-- The chunks in front of a position are decoded, one round each. -/
theorem decodeChunks_append (chunks : List Chunk) (rest : Bytes)
    (hfits : decoded.length + (chunkData chunks).length ≤ maxBody) (hmax : maxBody ≤ longMax) :
    decodeChunks maxBody (fuel + chunks.length) (encodeChunks chunks ++ rest) decoded =
      decodeChunks maxBody fuel rest (decoded ++ chunkData chunks) := by
  induction chunks generalizing decoded with
  | nil => simp
  | cons c chunks ih =>
      rw [chunkData_cons, List.length_append] at hfits
      rw [List.length_cons, ← Nat.add_assoc, encodeChunks_cons, List.append_assoc,
        decodeChunks_chunk maxBody _ decoded c _ (by omega) hmax,
        ih (decoded ++ c.data) (by rw [List.length_append]; omega), chunkData_cons,
        List.append_assoc]

end

/-! ## What has arrived of a chunked body -/

namespace ChunkedRequest

variable {limit : RequestLimit} (r : ChunkedRequest limit)

/-- The chunks with data. -/
def front : Bytes := encodeChunks r.chunks

/-- The body on the wire. -/
def encoded : Bytes := r.front ++ (r.last.text ++ crlf ++ r.trailer)

/-- The whole request. -/
def text : Bytes := r.head.bytes ++ r.encoded

/-- What is handed on when `k` bytes of the encoded body are in the buffer. -/
def handed (k : Nat) : Intake :=
  (RequestRead.request (r.head.bytes ++ r.encoded.take k)).intake limit.size

theorem limit_le : limit.size ≤ longMax :=
  Nat.le_trans limit.admitted.2 (by decide)

theorem handed_eq (k : Nat) :
    r.handed k = (decodeChunks limit.size ((r.encoded.take k).length + 1)
      (r.encoded.take k) []).intake := by
  unfold handed RequestRead.intake readHttpBody
  dsimp only
  rw [r.head.headerLen_append, r.head.isChunkedRequest_append, r.chunked]
  dsimp only
  rw [if_pos rfl, List.drop_left]

/-- Every chunk takes a byte at least, so there are rounds enough. -/
theorem length_le_encodeChunks (chunks : List Chunk) :
    chunks.length ≤ (encodeChunks chunks).length := by
  induction chunks with
  | nil => simp
  | cons c chunks ih =>
      rw [encodeChunks_cons, List.length_append, c.length_encode, List.length_cons]
      omega

/-- The chunks up to a position are decoded, and the rounds left are for what
has arrived behind it. -/
theorem handed_behind {chunks back : List Chunk} (hchunks : r.chunks = chunks ++ back)
    {k : Nat} {rest : Bytes} (harrived : r.encoded.take k = encodeChunks chunks ++ rest)
    (hrest : rest ≠ []) :
    ∃ fuel, r.handed k =
      (decodeChunks limit.size (fuel + 1) rest (chunkData chunks)).intake := by
  have hwithin := r.within
  rw [hchunks, chunkData_append, List.length_append] at hwithin
  have hrounds := length_le_encodeChunks chunks
  have hpos : 0 < rest.length := List.length_pos_iff.mpr hrest
  refine ⟨(encodeChunks chunks).length - chunks.length + rest.length, ?_⟩
  have hfuel : (encodeChunks chunks ++ rest).length + 1 =
      (encodeChunks chunks).length - chunks.length + rest.length + 1 + chunks.length := by
    rw [List.length_append]
    omega
  rw [handed_eq, harrived, hfuel, decodeChunks_append limit.size _ [] chunks rest
    (by rw [List.length_nil]; omega) limit_le, List.nil_append]

/-- The encoded body from a position between chunks on. -/
theorem encoded_split {chunks back : List Chunk} (hchunks : r.chunks = chunks ++ back) :
    r.encoded = encodeChunks chunks ++
      (encodeChunks back ++ (r.last.text ++ crlf ++ r.trailer)) := by
  unfold encoded front
  rw [hchunks, encodeChunks_append, List.append_assoc]

theorem length_front {chunks back : List Chunk} (hchunks : r.chunks = chunks ++ back) :
    r.front.length = (encodeChunks chunks).length + (encodeChunks back).length := by
  unfold front
  rw [hchunks, encodeChunks_append, List.length_append]

/-- Behind the line of the last chunk the body is complete. -/
theorem handed_complete {k : Nat} (hk : r.front.length + r.last.text.length + 2 ≤ k) :
    r.handed k = .body (chunkData r.chunks) (chunkData r.chunks).length := by
  have hchunks : r.chunks = r.chunks ++ [] := (List.append_nil _).symm
  have harrived : r.encoded.take k = encodeChunks r.chunks ++
      (r.last.text ++ crlf ++ r.trailer.take (k - (r.front.length + r.last.text.length + 2))) := by
    have hline : r.front.length ≤ k := by omega
    have hlast : (r.last.text ++ crlf).length ≤ k - r.front.length := by
      rw [List.length_append, show crlf.length = 2 from rfl]
      omega
    rw [encoded, List.take_append, List.take_of_length_le hline, List.take_append,
      List.take_of_length_le hlast, front]
    congr 3
    rw [List.length_append, show crlf.length = 2 from rfl]
    unfold front at hk
    omega
  obtain ⟨fuel, hhanded⟩ := r.handed_behind hchunks harrived (by simp [crlf])
  rw [hhanded, decodeChunks_line, r.lastSize, if_neg (by decide), if_pos rfl]
  rfl

/-- One byte behind a chunk the next line has begun, and the buffer is
refused. -/
theorem handed_line_begun {chunks back : List Chunk} (hchunks : r.chunks = chunks ++ back) :
    r.handed ((encodeChunks chunks).length + 1) = .rejected := by
  obtain ⟨line, hline⟩ : ∃ line : SizeLine, ∃ rest,
      encodeChunks back ++ (r.last.text ++ crlf ++ r.trailer) = line.text ++ rest := by
    cases back with
    | nil => exact ⟨r.last, crlf ++ r.trailer, by simp⟩
    | cons c back =>
        refine ⟨c.line, crlf ++ c.data ++ crlf ++
          (encodeChunks back ++ (r.last.text ++ crlf ++ r.trailer)), ?_⟩
        simp only [encodeChunks_cons, Chunk.encode, List.append_assoc]
  obtain ⟨rest, hrest⟩ := hline
  obtain ⟨text, hne, hplain⟩ := line
  cases text with
  | nil => exact absurd rfl hne
  | cons b text =>
      -- the first byte of a line is a line of its own that has not ended
      have harrived : r.encoded.take ((encodeChunks chunks).length + 1) =
          encodeChunks chunks ++ [b] := by
        rw [r.encoded_split hchunks, hrest, List.take_length_add_append]
        rfl
      have hb : ∀ c ∈ [b], isBreak c = false := by
        intro c hc
        rw [List.mem_singleton.mp hc]
        exact hplain b List.mem_cons_self
      obtain ⟨fuel, hhanded⟩ := r.handed_behind hchunks harrived (by simp)
      have hrefused := decodeChunks_partial_line limit.size fuel (chunkData chunks)
        ⟨[b], by simp, hb⟩ (Or.inl rfl)
      rw [List.append_nil] at hrefused
      rw [hhanded, hrefused]
      rfl

/-- Inside the data of a chunk what has arrived of it is handed on. -/
theorem handed_data {chunks back : List Chunk} {c : Chunk}
    (hchunks : r.chunks = chunks ++ c :: back) {d : Nat} (hd : d ≤ c.data.length + 2) :
    r.handed ((encodeChunks chunks).length + (c.line.text.length + 2 + d)) =
      .body (chunkData chunks ++ c.data.take d) (chunkData chunks ++ c.data.take d).length := by
  have harrived : r.encoded.take ((encodeChunks chunks).length + (c.line.text.length + 2 + d)) =
      encodeChunks chunks ++ (c.line.text ++ crlf ++ (c.data ++ crlf).take d) := by
    have hline : c.line.text.length + 2 = (c.line.text ++ crlf).length := by
      rw [List.length_append]
      rfl
    have hroom : d ≤ (c.data ++ crlf).length := by
      rw [List.length_append]
      exact hd
    have hchunk : encodeChunks (c :: back) ++ (r.last.text ++ crlf ++ r.trailer) =
        (c.line.text ++ crlf) ++ ((c.data ++ crlf) ++
          (encodeChunks back ++ (r.last.text ++ crlf ++ r.trailer))) := by
      simp only [encodeChunks_cons, Chunk.encode, List.append_assoc]
    rw [r.encoded_split hchunks, List.take_length_add_append, hchunk, hline,
      List.take_length_add_append, List.take_append_of_le_length hroom]
  have hwithin := r.within
  rw [hchunks, chunkData_append, chunkData_cons, List.length_append, List.length_append] at hwithin
  obtain ⟨fuel, hhanded⟩ := r.handed_behind hchunks harrived (by simp [crlf])
  rw [hhanded, decodeChunks_data limit.size fuel _ c _ (by omega) limit_le]
  -- at most the line break is left
  have hbreak : skipByte 10 (skipByte 13 (((c.data ++ crlf).take d).drop c.data.length)) = [] := by
    rw [List.drop_take, List.drop_left]
    obtain h | h | h : d - c.data.length = 0 ∨ d - c.data.length = 1 ∨
        d - c.data.length = 2 := by omega
    all_goals
      rw [h]
      rfl
  have hdata : ((c.data ++ crlf).take d).take c.data.length = c.data.take d := by
    rw [List.take_take]
    rcases Nat.le_total d c.data.length with h | h
    · rw [min_eq_right h, List.take_append_of_le_length h]
    · rw [min_eq_left h, List.take_left, List.take_of_length_le h]
  rw [hbreak, hdata, decodeChunks_nil]
  rfl

/-! ## When the loop stops -/

/-- The first `n` bytes look complete: behind the header block they hold the
mark of a last chunk. -/
def Marked (n : Nat) : Prop :=
  r.head.bytes.length ≤ n ∧
    occurs lastChunkMark (r.encoded.take (n - r.head.bytes.length)) = true

/-- The request on a connection. -/
def stream (ending : StreamEnd) (cuts : Nat → Nat) : ClientStream :=
  ⟨r.text, ending, cuts⟩

/-- As far as the buffer can get. -/
def reach : Nat := min 1048576 r.text.length

theorem Marked.mono {r : ChunkedRequest limit} {n m : Nat} (h : r.Marked n) (hnm : n ≤ m) :
    r.Marked m := by
  obtain ⟨hhead, hmark⟩ := h
  rw [occurs_take_iff] at hmark
  refine ⟨by omega, ?_⟩
  rw [occurs_take_iff]
  exact ⟨hmark.1, by omega⟩

theorem head_length : 4 ≤ r.head.bytes.length := by
  have hlines := congrArg List.length r.head.lines
  have hfour : blankLine.length = 4 := rfl
  rw [List.length_append] at hlines
  omega

theorem text_take {n : Nat} (h : r.head.bytes.length ≤ n) :
    r.text.take n = r.head.bytes ++ r.encoded.take (n - r.head.bytes.length) := by
  rw [text, List.take_append, List.take_of_length_le h]

theorem text_take_head {n : Nat} (h : n < r.head.bytes.length) :
    r.text.take n = r.head.bytes.take n := by
  rw [text, List.take_append_of_le_length (Nat.le_of_lt h)]

/-- How long a chunked request is, is never known beforehand. -/
theorem expected_take (n : Nat) : httpExpectedRequestLen (r.text.take n) = 0 := by
  by_cases hn : n < r.head.bytes.length
  · rw [r.text_take_head hn, r.head.httpExpectedRequestLen_take hn]
  · rw [r.text_take (by omega), r.head.httpExpectedRequestLen_append, r.chunked, if_pos rfl]

theorem looksComplete_take_iff (n : Nat) :
    looksComplete (r.text.take n) = true ↔ r.Marked n := by
  have hfour := r.head_length
  by_cases hn : n < r.head.bytes.length
  · rw [r.text_take_head hn, r.head.looksComplete_take hn]
    constructor
    · intro h
      cases h
    · intro h
      have hhead := h.1
      omega
  · have hhead : r.head.bytes.length ≤ n := by omega
    have hexpected := r.expected_take n
    unfold looksComplete chunkedBodyComplete Marked
    dsimp only
    rw [hexpected, r.text_take hhead, r.head.isChunkedRequest_append, r.chunked,
      r.head.headerLen_append, List.length_append, decide_eq_true_iff]
    dsimp only
    rw [List.drop_left]
    constructor
    · rintro (⟨h, -⟩ | ⟨-, -, -, h⟩)
      · omega
      · exact ⟨hhead, h⟩
    · rintro ⟨-, h⟩
      exact Or.inr ⟨rfl, by omega, rfl, h⟩

/-- What is read when nothing looks like the last chunk. -/
def unmarked (ending : StreamEnd) : RequestRead :=
  if 1048576 ≤ r.text.length then .request (r.text.take 1048576) else ending.read r.text

/-- The loop stops with the mark in the buffer, or fills the buffer or reaches
the end of the stream without it. -/
theorem read_rule (ending : StreamEnd) (cuts : Nat → Nat) :
    LoopRule limit.size (r.stream ending cuts)
      (fun cap len => cap = 1048576 ∧ len ≤ cap ∧ ¬ r.Marked len)
      (fun read => (∃ n, n ≤ r.reach ∧ r.Marked n ∧ read = .request (r.text.take n)) ∨
        (¬ r.Marked r.reach ∧ read = r.unmarked ending)) := by
  have hbytes : (r.stream ending cuts).bytes = r.text := rfl
  refine ⟨?_, ?_, ?_, ?_, ?_⟩
  · rintro cap len ⟨rfl, hcap, hunmarked⟩ hlen hfull
    rw [hbytes] at hlen ⊢
    have hlast : len = 1048576 := by omega
    have hreach : r.reach = len := by
      unfold reach
      omega
    refine Or.inr ⟨by rwa [hreach], ?_⟩
    rw [unmarked, if_pos (by omega), hlast]
  · rintro cap len ⟨rfl, hcap, hunmarked⟩ hlen hroom
    rw [hbytes] at hlen ⊢
    have hreach : r.reach = len := by
      unfold reach
      omega
    refine Or.inr ⟨by rwa [hreach], ?_⟩
    rw [unmarked, if_neg (by omega), hlen, List.take_length]
    rfl
  · rintro cap len - n - - - hlarge
    rw [hbytes, r.expected_take] at hlarge
    omega
  · rintro cap len ⟨rfl, -, -⟩ n - hcap hn - hcomplete
    rw [hbytes] at hn hcomplete ⊢
    refine Or.inl ⟨n, ?_, (r.looksComplete_take_iff n).mp hcomplete, rfl⟩
    unfold reach
    omega
  · rintro cap len ⟨rfl, -, -⟩ n - hcap hn - hgoes
    rw [hbytes] at hgoes ⊢
    rw [r.expected_take]
    refine ⟨rfl, hcap, fun hmarked => ?_⟩
    rw [(r.looksComplete_take_iff n).mpr hmarked] at hgoes
    cases hgoes

theorem intake_stream (ending : StreamEnd) (cuts : Nat → Nat) :
    (∃ n, n ≤ r.reach ∧ r.Marked n ∧
        intake limit.size (r.stream ending cuts) = r.handed (n - r.head.bytes.length)) ∨
      (¬ r.Marked r.reach ∧
        intake limit.size (r.stream ending cuts) = (r.unmarked ending).intake limit.size) := by
  have hstart : ¬ r.Marked 0 := by
    intro h
    have hfour := r.head_length
    have hhead := h.1
    omega
  rcases (r.read_rule ending cuts).readHttpRequest ⟨rfl, by omega, hstart⟩ with
    ⟨n, hreach, hmarked, hread⟩ | ⟨hunmarked, hread⟩
  · refine Or.inl ⟨n, hreach, hmarked, ?_⟩
    rw [intake, hread, r.text_take hmarked.1]
    rfl
  · refine Or.inr ⟨hunmarked, ?_⟩
    rw [intake, hread]

/-- Any buffer with the mark in it may be the one the loop stops with: when
the first call of `read` gives it. -/
theorem intake_at (ending : StreamEnd) {n : Nat} (hn : n ≤ r.reach) (hmarked : r.Marked n) :
    intake limit.size (r.stream ending fun _ => n - 1) =
      r.handed (n - r.head.bytes.length) := by
  have hfour := r.head_length
  have hhead := hmarked.1
  unfold reach at hn
  have hto : (r.stream ending fun _ => n - 1).readTo 1048576 0 = n := by
    show min (0 + (n - 1) + 1) (min 1048576 r.text.length) = n
    omega
  have hread : readHttpRequest limit.size (r.stream ending fun _ => n - 1) =
      .request (r.text.take n) := by
    unfold readHttpRequest
    rw [readLoop, if_neg (by omega), if_neg (by show ¬ r.text.length ≤ 0; omega)]
    dsimp only
    rw [hto, show (r.stream ending fun _ => n - 1).bytes = r.text from rfl, r.expected_take,
      if_neg (by omega), if_pos ((r.looksComplete_take_iff n).mpr hmarked)]
  rw [intake, hread, r.text_take hhead]
  rfl

/-! ## An early mark -/

/-- How much of the encoded body is in when its first mark is. -/
def firstMark : Nat := (before lastChunkMark r.front).length + lastChunkMark.length

/-- The first `k` bytes of the encoded body end with the data of a chunk. -/
def EndsData (k : Nat) : Prop :=
  ∃ chunks c back, r.chunks = chunks ++ c :: back ∧
    k = (encodeChunks chunks).length + (c.line.text.length + 2 + c.data.length)

/-- The chunks with data hold no mark; or the buffer is full by then, or full
before more than the line break behind a chunk's data can follow it. -/
def Settled : Prop :=
  occurs lastChunkMark r.front = true →
    1048576 ≤ r.head.bytes.length + r.firstMark ∨
      (r.EndsData r.firstMark ∧ 1048576 ≤ r.head.bytes.length + r.firstMark + 2)

/-- A position behind the first chunk's beginning lies in some chunk. -/
theorem exists_chunk {chunks : List Chunk} {k : Nat} (hpos : 0 < k)
    (hk : k ≤ (encodeChunks chunks).length) :
    ∃ front c back i, chunks = front ++ c :: back ∧ k = (encodeChunks front).length + i ∧
      0 < i ∧ i ≤ c.encode.length := by
  induction chunks generalizing k with
  | nil =>
      rw [encodeChunks_nil, List.length_nil] at hk
      omega
  | cons c chunks ih =>
      by_cases hfirst : k ≤ c.encode.length
      · exact ⟨[], c, chunks, k, rfl, by simp, hpos, hfirst⟩
      · rw [encodeChunks_cons, List.length_append] at hk
        obtain ⟨front, d, back, i, rfl, hi, hipos, hile⟩ :=
          ih (k := k - c.encode.length) (by omega) (by omega)
        refine ⟨c :: front, d, back, i, rfl, ?_, hipos, hile⟩
        rw [encodeChunks_cons, List.length_append]
        omega

/-- What has arrived when the mark has ends with a line feed. -/
theorem getLast_mark {text : Bytes} (h : occurs lastChunkMark text = true) :
    (text.take ((before lastChunkMark text).length + lastChunkMark.length)).getLast? =
      some 10 := by
  obtain ⟨rest, hafter⟩ := Option.isSome_iff_exists.mp h
  have hcut := before_append_after hafter
  have harrived : (before lastChunkMark text ++ lastChunkMark ++ rest).take
      (before lastChunkMark text ++ lastChunkMark).length =
        before lastChunkMark text ++ lastChunkMark := List.take_left
  rw [hcut, List.length_append] at harrived
  rw [harrived, List.getLast?_append]
  rfl

/-- A line feed in a chunk ends its line, stands in its data or ends the
chunk. -/
theorem lineFeed_in_chunk {c : Chunk} {i : Nat} (hle : i ≤ c.encode.length)
    (h : (c.encode.take i).getLast? = some 10) :
    (c.line.text.length + 2 ≤ i ∧ i ≤ c.line.text.length + 2 + c.data.length) ∨
      i = c.encode.length := by
  have hlength := c.length_encode
  have hencode : c.encode = c.line.text ++ (crlf ++ (c.data ++ crlf)) := by
    simp only [Chunk.encode, List.append_assoc]
  by_cases hline : i ≤ c.line.text.length
  · -- not inside the line
    rw [hencode, List.take_append_of_le_length hline] at h
    have hmem := List.mem_of_mem_take (List.mem_of_getLast? h)
    exact absurd (c.line.plain 10 hmem) (by decide)
  by_cases hbreak : i = c.line.text.length + 1
  · rw [hencode, hbreak, List.take_length_add_append, List.getLast?_append] at h
    have hreturn : some (13 : UInt8) = some 10 := h
    exact absurd hreturn (by decide)
  by_cases hdata : i ≤ c.line.text.length + 2 + c.data.length
  · exact Or.inl ⟨by omega, hdata⟩
  by_cases hreturn : i = c.line.text.length + 2 + c.data.length + 1
  · have hfront : i = (c.line.text ++ crlf ++ c.data).length + 1 := by
      rw [List.length_append, List.length_append, hreturn]
      rfl
    have hassoc : c.encode = c.line.text ++ crlf ++ c.data ++ crlf := rfl
    rw [hassoc, hfront, List.take_length_add_append, List.getLast?_append] at h
    have hreturn : some (13 : UInt8) = some 10 := h
    exact absurd hreturn (by decide)
  · exact Or.inr (by omega)

/-- Where the first mark can end among the chunks. -/
theorem firstMark_position (h : occurs lastChunkMark r.front = true) :
    ∃ chunks c back i, r.chunks = chunks ++ c :: back ∧
      r.firstMark = (encodeChunks chunks).length + i ∧
      ((c.line.text.length + 2 ≤ i ∧ i ≤ c.line.text.length + 2 + c.data.length) ∨
        i = c.encode.length) := by
  obtain ⟨rest, hafter⟩ := Option.isSome_iff_exists.mp h
  have hcut := congrArg List.length (before_append_after hafter)
  rw [List.length_append, List.length_append] at hcut
  have hpos : 0 < r.firstMark := by
    have hfive : lastChunkMark.length = 5 := rfl
    unfold firstMark
    omega
  have hle : r.firstMark ≤ (encodeChunks r.chunks).length := by
    unfold firstMark front at *
    omega
  obtain ⟨chunks, c, back, i, hchunks, hi, hipos, hile⟩ := exists_chunk hpos hle
  refine ⟨chunks, c, back, i, hchunks, hi, lineFeed_in_chunk hile ?_⟩
  have hlast := getLast_mark h
  have harrived : r.front.take r.firstMark = encodeChunks chunks ++ c.encode.take i := by
    rw [front, hchunks, hi, encodeChunks_append, encodeChunks_cons, List.take_length_add_append,
      List.take_append_of_le_length hile]
  have hne : c.encode.take i ≠ [] := by
    intro hnil
    have hlength := congrArg List.length hnil
    rw [List.length_take, List.length_nil] at hlength
    omega
  change (r.front.take r.firstMark).getLast? = some 10 at hlast
  rw [harrived, List.getLast?_append_of_ne_nil _ hne] at hlast
  exact hlast

/-- Behind the data of a chunk its line break changes nothing. -/
theorem handed_line_break {k : Nat} (h : r.EndsData k) {d : Nat} (hd : d ≤ 2) :
    r.handed (k + d) = r.handed k := by
  obtain ⟨chunks, c, back, hchunks, rfl⟩ := h
  have hdata : ∀ d, c.data.length ≤ d → d ≤ c.data.length + 2 →
      r.handed ((encodeChunks chunks).length + (c.line.text.length + 2 + d)) =
        .body (chunkData chunks ++ c.data) (chunkData chunks ++ c.data).length := by
    intro d hlow hhigh
    rw [r.handed_data hchunks hhigh, List.take_of_length_le hlow]
  have hsum : (encodeChunks chunks).length + (c.line.text.length + 2 + c.data.length) + d =
      (encodeChunks chunks).length + (c.line.text.length + 2 + (c.data.length + d)) := by
    omega
  rw [hsum, hdata _ (by omega) (by omega), hdata _ (Nat.le_refl _) (by omega)]

/-- Behind an early mark another byte, or the third behind the data of a chunk,
gives another outcome. -/
theorem handed_changes (h : occurs lastChunkMark r.front = true) :
    (r.EndsData r.firstMark ∧ r.firstMark + 2 ≤ r.front.length ∧
        r.handed (r.firstMark + 3) ≠ r.handed r.firstMark) ∨
      (r.firstMark ≤ r.front.length ∧ r.handed (r.firstMark + 1) ≠ r.handed r.firstMark) := by
  obtain ⟨chunks, c, back, i, hchunks, hi, hplace⟩ := r.firstMark_position h
  have hlength := r.length_front hchunks
  have hencode := c.length_encode
  rw [encodeChunks_cons, List.length_append] at hlength
  -- the boundary behind the chunk, and the byte behind that
  have hnext : r.handed ((encodeChunks chunks).length + c.encode.length + 1) = .rejected := by
    have hsplit : r.chunks = (chunks ++ [c]) ++ back := by
      rw [hchunks, List.append_assoc]
      rfl
    have hbegun := r.handed_line_begun hsplit
    rw [encodeChunks_append, List.length_append] at hbegun
    simpa using hbegun
  have hbody : ∀ d, d ≤ c.data.length + 2 →
      r.handed ((encodeChunks chunks).length + (c.line.text.length + 2 + d)) =
        .body (chunkData chunks ++ c.data.take d)
          (chunkData chunks ++ c.data.take d).length :=
    fun d hd => r.handed_data hchunks hd
  rcases hplace with ⟨hlow, hhigh⟩ | hend
  · obtain ⟨d, rfl⟩ : ∃ d, i = c.line.text.length + 2 + d := ⟨i - (c.line.text.length + 2), by omega⟩
    by_cases hinside : d < c.data.length
    · -- one byte more of the data
      refine Or.inr ⟨by omega, ?_⟩
      have hsum : r.firstMark + 1 =
          (encodeChunks chunks).length + (c.line.text.length + 2 + (d + 1)) := by omega
      rw [hsum, hi, hbody _ (by omega), hbody _ (by omega)]
      intro heq
      injection heq with _ hlen
      rw [List.length_append, List.length_append, List.length_take, List.length_take] at hlen
      omega
    · -- the line behind the chunk has begun
      have hd : d = c.data.length := by omega
      refine Or.inl ⟨⟨chunks, c, back, hchunks, by rw [hi, hd]⟩, by omega, ?_⟩
      have hsum : r.firstMark + 3 = (encodeChunks chunks).length + c.encode.length + 1 := by
        omega
      rw [hsum, hnext, hi, hbody _ (by omega)]
      intro heq
      cases heq
  · refine Or.inr ⟨by omega, ?_⟩
    have hsum : (encodeChunks chunks).length + i =
        (encodeChunks chunks).length + (c.line.text.length + 2 + (c.data.length + 2)) := by
      omega
    rw [hi, hend, hnext, ← hend, hsum, hbody _ (Nat.le_refl _)]
    intro heq
    cases heq

/-- A mark that is not among the chunks ends behind the line of the last one. -/
theorem complete_of_mark {k : Nat} (hfront : ¬ occurs lastChunkMark r.front = true)
    (h : occurs lastChunkMark (r.encoded.take k) = true) :
    r.front.length + r.last.text.length + 2 ≤ k := by
  by_contra hshort
  have hshorter : r.encoded.take k <+: r.front ++ (r.last.text ++ [13]) := by
    have hsplit : r.encoded = (r.front ++ (r.last.text ++ [13])) ++ (10 :: r.trailer) := by
      simp [encoded, crlf]
    rw [hsplit, List.take_append_of_le_length]
    · exact List.take_prefix _ _
    · simp only [List.length_append, List.length_cons, List.length_nil]
      omega
  obtain ⟨lead, rest, hcut⟩ := ((occurs_iff _ _).mp h).trans hshorter.isInfix
  rcases List.append_eq_append_iff.mp hcut with ⟨more, hmore, hrest⟩ | ⟨more, hmore, hrest⟩
  · -- the mark is among the chunks after all
    refine hfront ((occurs_iff _ _).mpr ⟨lead, more, ?_⟩)
    exact hmore.symm
  · by_cases hnil : more = []
    · rw [hnil, List.append_nil] at hmore
      exact hfront ((occurs_iff _ _).mpr ⟨lead, [], by rw [List.append_nil, hmore]⟩)
    · -- its line feed would stand in the last line
      have hlast : (lead ++ lastChunkMark).getLast? = some 10 := by
        rw [List.getLast?_append]
        rfl
      rw [hmore, List.getLast?_append_of_ne_nil _ hnil] at hlast
      have hmem : (10 : UInt8) ∈ r.last.text ++ [13] := by
        rw [hrest]
        exact List.mem_append_left _ (List.mem_of_getLast? hlast)
      rcases List.mem_append.mp hmem with hmem | hmem
      · exact absurd (r.last.plain 10 hmem) (by decide)
      · exact absurd hmem (by decide)

/-! ## Independence -/

theorem marked_iff (n : Nat) (h : occurs lastChunkMark r.front = true) :
    r.Marked n ↔ r.head.bytes.length + r.firstMark ≤ n := by
  have hbefore : before lastChunkMark r.encoded = before lastChunkMark r.front :=
    before_append h _
  have hwhole : occurs lastChunkMark r.encoded = true := by
    obtain ⟨rest, hafter⟩ := Option.isSome_iff_exists.mp h
    rw [occurs, encoded, after_append hafter]
    rfl
  have hfirst : r.firstMark = (before lastChunkMark r.front).length + lastChunkMark.length := rfl
  unfold Marked
  rw [occurs_take_iff, hbefore]
  constructor
  · rintro ⟨hhead, -, hle⟩
    omega
  · intro hle
    exact ⟨by omega, hwhole, by omega⟩

/-- Where the request is settled, every buffer with a mark in it leads to the
same. -/
theorem Settled.handed_eq {r : ChunkedRequest limit} (h : r.Settled) :
    ∃ result, ∀ n, n ≤ r.reach → r.Marked n →
      r.handed (n - r.head.bytes.length) = result := by
  by_cases hmark : occurs lastChunkMark r.front = true
  · refine ⟨r.handed r.firstMark, fun n hreach hmarked => ?_⟩
    have hfirst := (r.marked_iff n hmark).mp hmarked
    have hfull : n ≤ 1048576 := by
      unfold reach at hreach
      omega
    rcases h hmark with hroom | ⟨hends, hroom⟩
    · have hn : n - r.head.bytes.length = r.firstMark := by omega
      rw [hn]
    · obtain ⟨d, hd, hn⟩ : ∃ d, d ≤ 2 ∧ n - r.head.bytes.length = r.firstMark + d :=
        ⟨n - r.head.bytes.length - r.firstMark, by omega, by omega⟩
      rw [hn]
      exact r.handed_line_break hends hd
  · refine ⟨.body (chunkData r.chunks) (chunkData r.chunks).length, fun n _ hmarked => ?_⟩
    exact r.handed_complete (r.complete_of_mark hmark hmarked.2)

theorem independent_iff (ending : StreamEnd) :
    (∀ cuts cuts', intake limit.size (r.stream ending cuts) =
        intake limit.size (r.stream ending cuts')) ↔ r.Settled := by
  have hlength : r.text.length =
      r.head.bytes.length + (r.front.length + (r.last.text.length + 2 + r.trailer.length)) := by
    simp only [text, encoded, List.length_append, show crlf.length = 2 from rfl]
  have hlast : 0 < r.last.text.length := List.length_pos_iff.mpr r.last.ne_nil
  constructor
  · intro hsame hmark
    by_contra hnot
    rw [not_or] at hnot
    obtain ⟨hroom, hline⟩ := hnot
    -- both buffers are within reach, and give different outcomes
    have hfirst : ∀ k, r.firstMark ≤ k → r.head.bytes.length + k ≤ r.reach →
        r.handed k = r.handed r.firstMark := by
      intro k hk hreach
      have hmarked := (r.marked_iff (r.head.bytes.length + k) hmark).mpr (by omega)
      have hmarked' := (r.marked_iff (r.head.bytes.length + r.firstMark) hmark).mpr (by omega)
      have hat := r.intake_at ending hreach hmarked
      have hat' := r.intake_at ending (by omega) hmarked'
      rw [Nat.add_sub_cancel_left] at hat hat'
      rw [← hat, ← hat']
      exact hsame _ _
    have hreach : r.reach = min 1048576 r.text.length := rfl
    rcases r.handed_changes hmark with ⟨hends, hin, hchanged⟩ | ⟨hin, hchanged⟩
    · have hfull : ¬ 1048576 ≤ r.head.bytes.length + r.firstMark + 2 := fun h => hline ⟨hends, h⟩
      exact hchanged (hfirst _ (by omega) (by omega))
    · exact hchanged (hfirst _ (by omega) (by omega))
  · intro hsettled cuts cuts'
    obtain ⟨result, hresult⟩ := hsettled.handed_eq
    rcases r.intake_stream ending cuts with ⟨n, hn, hmarked, hread⟩ | ⟨hunmarked, hread⟩
    · rcases r.intake_stream ending cuts' with ⟨m, hm, hmarked', hread'⟩ | ⟨hunmarked', -⟩
      · rw [hread, hread', hresult n hn hmarked, hresult m hm hmarked']
      · exact absurd (hmarked.mono hn) hunmarked'
    · rcases r.intake_stream ending cuts' with ⟨m, hm, hmarked', -⟩ | ⟨-, hread'⟩
      · exact absurd (hmarked'.mono hm) hunmarked
      · rw [hread, hread']

end ChunkedRequest

/-! ## Complete requests -/

/-- A complete request, by either way of saying where its body ends. -/
inductive CompleteRequest (limit : RequestLimit)
  | sized (r : SizedRequest)
  | chunked (r : ChunkedRequest limit)

/-- The bytes of the request. -/
def CompleteRequest.text {limit : RequestLimit} : CompleteRequest limit → Bytes
  | .sized r => r.head.bytes ++ r.body
  | .chunked r => r.text

/-- Nothing among its chunks passes for its end while there is room for more. -/
def CompleteRequest.Settled {limit : RequestLimit} : CompleteRequest limit → Prop
  | .sized _ => True
  | .chunked r => r.Settled

/-- However `read` cuts the stream, the same becomes of the request. -/
def Independent (limit : RequestLimit) (text : Bytes) (ending : StreamEnd) : Prop :=
  ∀ cuts cuts', intake limit.size ⟨text, ending, cuts⟩ =
    intake limit.size ⟨text, ending, cuts'⟩

/-- **Segmentation independence**, exactly.  What becomes of a complete request
does not depend on how `read` cuts it, iff no mark of a last chunk stands among
its chunks where the loop can stop at it. -/
theorem segmentation_independent_iff {limit : RequestLimit} (r : CompleteRequest limit)
    (ending : StreamEnd) : Independent limit r.text ending ↔ r.Settled := by
  cases r with
  | sized r =>
      refine ⟨fun _ => trivial, fun _ cuts cuts' => ?_⟩
      have hwhole : ∀ cuts, (⟨r.head.bytes ++ r.body, ending, cuts⟩ : ClientStream) =
          r.stream r.total ending cuts := by
        intro cuts
        have htake : (r.head.bytes ++ r.body).take r.total = r.head.bytes ++ r.body :=
          List.take_of_length_le (by rw [List.length_append]; exact Nat.le_refl _)
        unfold SizedRequest.stream
        rw [htake]
      show intake limit.size ⟨r.head.bytes ++ r.body, ending, cuts⟩ =
        intake limit.size ⟨r.head.bytes ++ r.body, ending, cuts'⟩
      rw [hwhole, hwhole, r.intake_eq, r.intake_eq]
  | chunked r => exact r.independent_iff ending

/-- A chunk of three bytes that look like the size line of a last chunk. -/
def zeroLineChunk : Chunk where
  line := ⟨lit "3", by decide, by decide +kernel⟩
  data := lit "0\r\n"
  ne_nil := by decide
  sized := by decide +kernel

/-- The default settings. -/
def defaultLimit : RequestLimit := ⟨1048576, by decide⟩

/-- A request with that chunk for a body. -/
def zeroLineRequest : ChunkedRequest defaultLimit where
  head := ⟨lit "POST /v1/responses HTTP/1.1\r\nTransfer-Encoding: chunked\r\n\r\n",
    by decide +kernel⟩
  chunks := [zeroLineChunk]
  last := ⟨lit "0", by decide, by decide +kernel⟩
  trailer := crlf
  chunked := by decide +kernel
  lastSize := by decide +kernel
  within := by decide

/-- Read in one piece the request has its body of three bytes; cut behind the
first byte of the last line it is refused. -/
theorem segmentation_matters :
    ¬ Independent defaultLimit zeroLineRequest.text .silent := by
  intro h
  have hcut := h (fun _ => 4095) fun _ => zeroLineRequest.head.bytes.length + 8
  exact absurd hcut (by decide +kernel)

end StarBridge
