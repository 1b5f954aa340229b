import StarBridge.ChunkGrammar
import StarBridge.SessionIndex

/-!
# Chunks and back

A body that is cut into chunks, each under its size in hexadecimal, comes back whole
from `read_http_body` as long as the buffer and the limit have room for it
(`chunked_round_trip`).  Line breaks in the data do no harm: the scanner passes over
breaks only where data have ended.
-/

namespace StarBridge

open CText

/-! ## Sizes in hexadecimal -/

theorem hexDigits_append (digits : Bytes) (c : UInt8) :
    hexDigits (digits ++ [c]) = hexDigits digits * 16 + (CJson.hexValue c).getD 0 := by
  rw [hexDigits, List.foldl_append]
  rfl

/-- The digit of a value. -/
theorem hexValue_digitChar : ∀ d < 16,
    CJson.hexValue (UInt8.ofNat (Nat.digitChar d).toNat) = some d := by decide

/-- A number reads back from its hexadecimal digits. -/
theorem hexadecimal_spec (n : Nat) :
    hexadecimal n ≠ [] ∧ (∀ c ∈ hexadecimal n, (CJson.hexValue c).isSome = true) ∧
      hexDigits (hexadecimal n) = n := by
  induction n using Nat.strongRecOn with
  | ind n ih =>
      unfold hexadecimal at ih ⊢
      rw [Nat.toDigits_eq_if (by decide)]
      by_cases hn : n < 16
      · rw [if_pos hn, List.map_singleton]
        refine ⟨List.cons_ne_nil _ _, ?_, ?_⟩
        · intro c hc
          rw [List.mem_singleton.mp hc, hexValue_digitChar n hn]
          rfl
        · rw [hexDigits, List.foldl_cons, List.foldl_nil, hexValue_digitChar n hn, Option.getD_some]
          omega
      · rw [if_neg hn, List.map_append, List.map_singleton]
        obtain ⟨-, hhex, hvalue⟩ := ih (n / 16) (by omega)
        have hlast := hexValue_digitChar (n % 16) (Nat.mod_lt n (by decide))
        refine ⟨by simp, ?_, ?_⟩
        · intro c hc
          rcases List.mem_append.mp hc with hc | hc
          · exact hhex c hc
          · rw [List.mem_singleton.mp hc, hlast]
            rfl
        · rw [hexDigits_append, hvalue, hlast, Option.getD_some]
          omega

/-- What holds of all 256 bytes. -/
theorem forall_byte {P : UInt8 → Prop} (h : ∀ n < 256, P (UInt8.ofNat n)) (c : UInt8) : P c := by
  have hc := h c.toNat c.toNat_lt
  rwa [UInt8.ofNat_toNat] at hc

theorem hexValue_toLower (c : UInt8) : CJson.hexValue (CJson.toLower c) = CJson.hexValue c :=
  forall_byte (P := fun c => CJson.hexValue (CJson.toLower c) = CJson.hexValue c)
    (by decide +kernel) c

/-- Digits in upper or lower case. -/
theorem hexDigits_toLower (digits : Bytes) :
    hexDigits (digits.map CJson.toLower) = hexDigits digits := by
  unfold hexDigits
  rw [List.foldl_map]
  simp only [hexValue_toLower]

/-- What no hexadecimal digit is. -/
theorem hexValue_isSome_ne {c : UInt8} (h : (CJson.hexValue c).isSome = true) :
    c ≠ 0 ∧ isSpace c = false ∧ c ≠ 45 ∧ c ≠ 43 ∧ c ≠ 120 ∧ c ≠ 88 ∧ isBreak c = false := by
  revert h
  exact forall_byte (P := fun c => (CJson.hexValue c).isSome = true → c ≠ 0 ∧ isSpace c = false ∧
    c ≠ 45 ∧ c ≠ 43 ∧ c ≠ 120 ∧ c ≠ 88 ∧ isBreak c = false) (by decide +kernel) c

/-- `strtol` on hexadecimal digits. -/
theorem strtolHex_digits {digits : Bytes} (hne : digits ≠ [])
    (h : ∀ c ∈ digits, (CJson.hexValue c).isSome = true) (hmax : hexDigits digits ≤ longMax) :
    strtolHex digits = hexDigits digits := by
  have hcstr : cstr digits = digits := upTo_eq_self fun hzero => (hexValue_isSome_ne (h 0 hzero)).1 rfl
  cases digits with
  | nil => exact absurd rfl hne
  | cons c more =>
      obtain ⟨-, hspace, hminus, hplus, -⟩ := hexValue_isSome_ne (h c List.mem_cons_self)
      have hzero : (c :: more).take 2 ≠ lit "0x" ∧ (c :: more).take 2 ≠ lit "0X" := by
        cases more with
        | nil => exact ⟨by simp [lit], by simp [lit]⟩
        | cons d rest =>
            obtain ⟨-, -, -, -, hx, hX, -⟩ := hexValue_isSome_ne (h d (by simp))
            exact ⟨by simp [lit, hx], by simp [lit, hX]⟩
      have hall : (c :: more).takeWhile (fun c => (CJson.hexValue c).isSome) = c :: more :=
        List.takeWhile_eq_self_iff.mpr h
      unfold strtolHex
      dsimp only
      rw [hcstr, List.dropWhile_cons_of_neg (by simp [hspace])]
      simp only [List.head?_cons, Option.some.injEq, hminus, hplus, or_self, if_false, hzero.1,
        hzero.2, hall]
      rw [Nat.min_eq_left hmax]

/-! ## Coded bodies -/

/-- A chunk, with its size spelled in upper or lower case. -/
structure CodedChunk where
  data : Bytes
  size : Bytes
  ne_nil : data ≠ []
  spelled : size.map CJson.toLower = hexadecimal data.length

/-- The body that is cut into the chunks. -/
def codedData (chunks : List CodedChunk) : Bytes := chunks.flatMap CodedChunk.data

/-- The body as it is sent, with the chunk of size zero at its end. -/
def codedBody (chunks : List CodedChunk) : Bytes :=
  chunks.flatMap (fun c => c.size ++ crlf ++ c.data ++ crlf) ++ lit "0\r\n\r\n"

/-- Spelled sizes are hexadecimal. -/
theorem CodedChunk.hex (c : CodedChunk) :
    c.size ≠ [] ∧ (∀ b ∈ c.size, (CJson.hexValue b).isSome = true) ∧
      hexDigits c.size = c.data.length := by
  obtain ⟨hne, hhex, hvalue⟩ := hexadecimal_spec c.data.length
  rw [← c.spelled] at hne hhex hvalue
  refine ⟨fun hnil => hne (by rw [hnil]; rfl), ?_, ?_⟩
  · intro b hb
    rw [← hexValue_toLower]
    exact hhex _ (List.mem_map_of_mem hb)
  · rwa [hexDigits_toLower] at hvalue

theorem CodedChunk.chunkSize_eq (c : CodedChunk) (h : c.data.length ≤ 16777216) :
    chunkSize c.size = c.data.length := by
  obtain ⟨hne, hhex, hvalue⟩ := c.hex
  have hlength : c.size.length ≤ 31 := by
    have hdigits := length_hexadecimal_le (by decide : 0 < 31)
      (Nat.lt_of_le_of_lt h (by decide : 16777216 < 16 ^ 31))
    rwa [← c.spelled, List.length_map] at hdigits
  have hmax : 16777216 ≤ longMax := by decide
  rw [chunkSize, List.take_of_length_le hlength, strtolHex_digits hne hhex (by omega), hvalue]

/-- The chunk of a coded chunk. -/
theorem CodedChunk.exists_chunk (c : CodedChunk) (h : c.data.length ≤ 16777216) :
    ∃ chunk : Chunk, chunk.data = c.data ∧ chunk.line.text = c.size := by
  obtain ⟨hne, hhex, -⟩ := c.hex
  have hplain : ∀ b ∈ c.size, isBreak b = false := fun b hb =>
    (hexValue_isSome_ne (hhex b hb)).2.2.2.2.2.2
  exact ⟨⟨⟨c.size, hne, hplain⟩, c.data, c.ne_nil, c.chunkSize_eq h⟩, rfl, rfl⟩

/-- Coded chunks are chunks. -/
theorem exists_chunks {chunks : List CodedChunk} (h : (codedData chunks).length ≤ 16777216) :
    ∃ cs : List Chunk, chunkData cs = codedData chunks ∧
      codedBody chunks = encodeChunks cs ++ lit "0\r\n\r\n" := by
  induction chunks with
  | nil => exact ⟨[], rfl, rfl⟩
  | cons c chunks ih =>
      rw [codedData, List.flatMap_cons, List.length_append] at h
      obtain ⟨cs, hdata, hbody⟩ := ih (by rw [codedData]; omega)
      obtain ⟨chunk, hchunk, hline⟩ := c.exists_chunk (by omega)
      refine ⟨chunk :: cs, ?_, ?_⟩
      · rw [chunkData_cons, hdata, hchunk]
        rfl
      · have hencode : chunk.encode = c.size ++ crlf ++ c.data ++ crlf := by
          rw [Chunk.encode, hchunk, hline]
        rw [encodeChunks_cons, List.append_assoc, ← hbody, hencode, codedBody, List.flatMap_cons,
          List.append_assoc]
        rfl

/-! ## The scanner on coded chunks -/

/-- The last chunk. -/
def lastChunk : Bytes := lit "0\r\n\r\n"

theorem readSizeLine_last : readSizeLine lastChunk = .ended := by decide

/-- The scanner in front of a chunk. -/
theorem Chunk.readSizeLine_encode (c : Chunk) (rest : Bytes) :
    readSizeLine (c.encode ++ rest) = .chunk c.data.length (c.data ++ (crlf ++ rest)) := by
  have hshape : c.encode ++ rest =
      [] ++ (c.line.text ++ 13 :: 10 :: (c.data ++ (crlf ++ rest))) := by
    simp [Chunk.encode, crlf]
  have hpos : 0 < c.data.length := List.length_pos_iff.mpr c.ne_nil
  rw [hshape, readSizeLine_line (fun b hb => absurd hb List.not_mem_nil), c.sized, if_neg (by omega),
    if_neg (by omega), Int.toNat_natCast]
  rfl

/-- Behind the data of a chunk the scanner passes over its break. -/
theorem behindChunk_data (data rest : Bytes) :
    behindChunk data.length (data ++ (crlf ++ rest)) = rest := by
  rw [behindChunk, List.drop_left]
  rfl

namespace DecodeState

/-- The loop in front of chunks that are to come, with what it has of the others. -/
structure Between (chunks : List Chunk) (s : DecodeState) (front back : List Chunk) : Prop where
  split : chunks = front ++ back
  rest : s.rest = encodeChunks back ++ lastChunk
  decoded : s.decoded = chunkData front
  cap : IsCap s.cap

variable {maxBody : Nat} {chunks front back : List Chunk} {s s' : DecodeState}

theorem between_start (chunks : List Chunk) :
    Between chunks (start (encodeChunks chunks ++ lastChunk)) [] chunks :=
  ⟨rfl, rfl, rfl, 16, by decide, by decide, rfl⟩

/-- What the loop reads there. -/
theorem Between.read (h : Between chunks s front back) :
    (back = [] ∧ readSizeLine s.rest = .ended) ∨
      ∃ c back', back = c :: back' ∧
        readSizeLine s.rest =
          .chunk c.data.length (c.data ++ (crlf ++ (encodeChunks back' ++ lastChunk))) := by
  cases back with
  | nil =>
      refine Or.inl ⟨rfl, ?_⟩
      rw [h.rest, encodeChunks_nil, List.nil_append]
      exact readSizeLine_last
  | cons c back' =>
      refine Or.inr ⟨c, back', rfl, ?_⟩
      rw [h.rest, encodeChunks_cons, List.append_assoc]
      exact c.readSizeLine_encode _

/-- What a chunk that is to come needs. -/
theorem Between.need_eq {c : Chunk} (h : Between chunks s front (c :: back))
    (hsmall : (chunkData chunks).length ≤ 16777216) :
    s.decoded.length + c.data.length ≤ (chunkData chunks).length ∧
      s.need c.data.length = s.decoded.length + c.data.length := by
  have hlength : (chunkData chunks).length =
      s.decoded.length + (c.data.length + (chunkData back).length) := by
    rw [h.split, chunkData_append, chunkData_cons, h.decoded, List.length_append, List.length_append]
  exact ⟨by omega, Nat.mod_eq_of_lt (by omega)⟩

/-- A chunk is copied whole. -/
theorem take_chunk (data rest : Bytes) : (data ++ rest).take data.length = data := List.take_left

theorem Between.next {c : Chunk} (h : Between chunks s front (c :: back)) {cap : Nat}
    (hgrows : Grows s.cap (s.need c.data.length) cap) (rest : Bytes)
    (hrest : rest = crlf ++ (encodeChunks back ++ lastChunk)) :
    Between chunks ⟨behindChunk c.data.length (c.data ++ rest),
      s.decoded ++ (c.data ++ rest).take c.data.length, cap⟩ (front ++ [c]) back := by
  refine ⟨?_, ?_, ?_, (hgrows.spec h.cap).1⟩
  · rw [h.split, List.append_assoc]
    rfl
  · rw [hrest]
    exact behindChunk_data c.data _
  · show s.decoded ++ _ = _
    rw [take_chunk, h.decoded, chunkData_append]
    simp [chunkData]

theorem Between.reached {body : Bytes} (hbody : body = encodeChunks chunks ++ lastChunk)
    (h : Reached maxBody body s) : ∃ front back, Between chunks s front back := by
  induction h with
  | refl =>
      rw [hbody]
      exact ⟨[], chunks, between_start chunks⟩
  | tail _ hround ih =>
      obtain ⟨front, back, hbetween⟩ := ih
      cases hround with
      | mk hread hgrows hroom =>
          rcases hbetween.read with ⟨-, hended⟩ | ⟨c, back', rfl, hchunk⟩
          · cases hended.symm.trans hread
          · cases hchunk.symm.trans hread
            exact ⟨_, _, hbetween.next hgrows _ rfl⟩

/-- Behind all chunks the loop returns their data. -/
theorem Between.ends (h : Between chunks s front back)
    (hsmall : (chunkData chunks).length ≤ 16777216)
    (hlimit : (chunkData chunks).length ≤ maxBody) :
    Ends maxBody s (.body (chunkData chunks) (chunkData chunks).length) := by
  induction back generalizing s front with
  | nil =>
      rcases h.read with ⟨-, hended⟩ | ⟨c, back', hback, -⟩
      · have hall : s.decoded = chunkData chunks := by
          rw [h.decoded, h.split, List.append_nil]
        rw [← hall]
        exact .ended hended
      · cases hback
  | cons c back ih =>
      rcases h.read with ⟨hback, -⟩ | ⟨c', back', hback, hchunk⟩
      · cases hback
      · cases hback
        obtain ⟨hroom, hneed⟩ := h.need_eq hsmall
        obtain ⟨cap, hgrows⟩ := (grows_iff h.cap).mpr (by omega : s.need c.data.length ≤ 2 ^ 63)
        refine .next (.mk hchunk hgrows ?_) (ih (h.next hgrows _ rfl))
        rw [take_chunk, List.length_append]
        omega

/-- **The loop is safe** on chunks that have room in the largest buffer. -/
theorem safe_of_chunks (hsmall : (chunkData chunks).length ≤ 16777216)
    (hlimit : (chunkData chunks).length ≤ maxBody) :
    Safe maxBody (encodeChunks chunks ++ lastChunk) := by
  refine ⟨⟨_, (between_start chunks).ends hsmall hlimit⟩, ?_, ?_⟩
  · intro s size data hreached hread hgrow
    obtain ⟨front, back, hbetween⟩ := Between.reached rfl hreached
    rcases hbetween.read with ⟨-, hended⟩ | ⟨c, back', rfl, hchunk⟩
    · cases hended.symm.trans hread
    · cases hchunk.symm.trans hread
      obtain ⟨hroom, hneed⟩ := hbetween.need_eq hsmall
      obtain ⟨cap, hgrows⟩ := (grows_iff hbetween.cap).mpr (by omega : s.need c.data.length ≤ 2 ^ 63)
      obtain ⟨next, hdoubles, -⟩ := (grows_of_lt hgrow).mp hgrows
      exact ⟨next, hdoubles⟩
  · intro s copy hreached hcopies
    obtain ⟨front, back, hbetween⟩ := Between.reached rfl hreached
    cases hcopies with
    | @mk size data cap hread hgrows =>
        rcases hbetween.read with ⟨-, hended⟩ | ⟨c, back', rfl, hchunk⟩
        · cases hended.symm.trans hread
        · cases hchunk.symm.trans hread
          obtain ⟨hroom, hneed⟩ := hbetween.need_eq hsmall
          obtain ⟨-, hcap⟩ := hgrows.spec hbetween.cap
          show s.decoded.length + ((c.data ++ _).take c.data.length).length ≤ cap
          rw [take_chunk]
          omega

end DecodeState

/-! ## The round trip -/

/-- A request comes back as this body, by a loop that is safe. -/
structure ComesBack (maxBody : Nat) (head : HeaderBlock) (encoded body : Bytes) : Prop where
  returned : readHttpBody maxBody (head.bytes ++ encoded) = .body body body.length
  ends : DecodeState.Ends maxBody (.start encoded) (.body body body.length)
  safe : DecodeState.Safe maxBody encoded

/-- **The chunked round trip**: what is cut into chunks comes back whole. -/
theorem chunked_round_trip (limit : RequestLimit) (head : HeaderBlock)
    (hchunked : isChunkedRequest head.bytes = true) (chunks : List CodedChunk)
    (hroom : (codedData chunks).length ≤ min limit.size 16777216) :
    ComesBack limit.size head (codedBody chunks) (codedData chunks) := by
  obtain ⟨cs, hdata, hbody⟩ := exists_chunks (Nat.le_trans hroom (Nat.min_le_right _ _))
  rw [hbody, ← hdata]
  rw [← hdata] at hroom
  have hsmall : (chunkData cs).length ≤ 16777216 := by omega
  have hlimit : (chunkData cs).length ≤ limit.size := by omega
  refine ⟨?_, (DecodeState.between_start cs).ends hsmall hlimit,
    DecodeState.safe_of_chunks hsmall hlimit⟩
  have hread : readHttpBody limit.size (head.bytes ++ (encodeChunks cs ++ lastChunk)) =
      decodeChunks limit.size ((encodeChunks cs ++ lastChunk).length + 1)
        (encodeChunks cs ++ lastChunk) [] := by
    unfold readHttpBody
    rw [head.headerLen_append, head.isChunkedRequest_append, hchunked]
    dsimp only
    rw [if_pos rfl, List.drop_left]
  -- one round for every chunk, and one for the last
  have hrounds := ChunkedRequest.length_le_encodeChunks cs
  obtain ⟨fuel, hfuel⟩ : ∃ fuel, (encodeChunks cs ++ lastChunk).length + 1 =
      fuel + 1 + cs.length := by
    refine ⟨(encodeChunks cs ++ lastChunk).length - cs.length, ?_⟩
    rw [List.length_append]
    omega
  have hmax : limit.size ≤ longMax := ChunkedRequest.limit_le
  show readHttpBody limit.size (head.bytes ++ (encodeChunks cs ++ lastChunk)) = _
  rw [hread, hfuel, decodeChunks_append limit.size (fuel + 1) [] cs lastChunk (by simpa using hlimit)
    hmax, decodeChunks_succ, readSizeLine_last, List.nil_append]

/-- Data that look like a last chunk. -/
def trapChunk : CodedChunk := ⟨lit "\r\n0\r\n\r\n", lit "7", by decide, by decide +kernel⟩

theorem chunked_round_trip_trap :
    ComesBack 1048576 zeroLineRequest.head (codedBody [trapChunk, trapChunk])
      (codedData [trapChunk, trapChunk]) :=
  chunked_round_trip defaultLimit zeroLineRequest.head zeroLineRequest.chunked [trapChunk, trapChunk]
    (by decide)

end StarBridge
