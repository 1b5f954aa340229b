import StarBridge.HttpServer

/-!
# Reading a request

`read_http_request` reads until the request looks complete: the header block is
in, and behind it as many bytes as `Content-Length` says or something that looks
like the last chunk.  `read_http_body` then measures the buffer once more and
takes the body out of it.
-/

namespace StarBridge

open CText

/-! ## Where a request ends -/

/-- `LONG_MAX`. -/
def longMax : Nat := 9223372036854775807

/-- The length of the header block, blank line and all, once it is in the
buffer. -/
def headerLen (raw : Bytes) : Option Nat :=
  (after (crlf ++ crlf) (cstr raw)).map fun rest => (cstr raw).length - rest.length

/-- `is_chunked_request`. -/
def isChunkedRequest (raw : Bytes) : Bool :=
  match findHeaderValue (lit "Transfer-Encoding") (cstr raw) with
  | none => false
  | some te =>
      (findHeaderCi (lit "chunked") (te.takeWhile fun c => c ≠ 13 && c ≠ 10)).isSome

/-- What `chunked_body_complete` looks for. -/
def lastChunkMark : Bytes := crlf ++ 48 :: crlf

/-- `chunked_body_complete`: the mark stands anywhere behind the header
block. -/
def chunkedBodyComplete (raw : Bytes) : Bool :=
  match headerLen raw with
  | none => false
  | some n => occurs lastChunkMark (raw.drop n)

/-- One digit of `parse_content_length_safe`, with its overflow checks. -/
def contentLengthDigit (acc : Nat) (c : UInt8) : Option Nat :=
  if longMax / 10 < acc then none
  else if longMax - (c.toNat - 48) < acc * 10 then none
  else some (acc * 10 + (c.toNat - 48))

/-- `parse_content_length_safe`, when it accepts the value. -/
def parseContentLengthSafe (val : Bytes) : Option Nat :=
  let val := val.dropWhile isBlank
  let digits := val.takeWhile CJson.isDigit
  let rest := (val.drop digits.length).dropWhile isBlank
  if digits = [] then none
  else if rest.head? = none ∨ rest.head? = some 13 ∨ rest.head? = some 10 then
    digits.foldlM contentLengthDigit 0
  else none

/-- The `Content-Length` of a request, if it has one that is accepted. -/
def contentLength (raw : Bytes) : Option Nat :=
  (findHeaderValue (lit "Content-Length") (cstr raw)).bind parseContentLengthSafe

/-- `http_expected_request_len`: 0 while that is not known. -/
def httpExpectedRequestLen (raw : Bytes) : Nat :=
  match headerLen raw with
  | none => 0
  | some n => if isChunkedRequest raw then 0 else n + (contentLength raw).getD 0

/-! ## The connection -/

/-- What `read` gives behind the last byte: end of file, an error, or nothing
yet. -/
inductive StreamEnd
  | closed
  | failed
  | silent
  deriving DecidableEq, Repr

/-- A client's connection: the bytes that arrive, what comes behind them, and
how `read` hands them over.  The call at byte `p` gives `cuts p + 1` bytes, if
there are as many and there is room for them.  An interrupted call is repeated
at once and leaves no trace. -/
structure ClientStream where
  bytes : Bytes
  ending : StreamEnd
  cuts : Nat → Nat

/-- How `read_http_request` ends: with a buffer, with the answer 413, or with
an error of `read`; or it still waits. -/
inductive RequestRead
  | request (raw : Bytes)
  | tooLarge
  | failed
  | waiting
  deriving DecidableEq, Repr

/-- The buffer never grows beyond this. -/
def requestCapLimit : Nat := 16777216

/-- The doubling of the buffer's size. -/
def doubledCap (expected : Nat) : Nat → Nat → Nat
  | 0, cap => cap
  | fuel + 1, cap =>
      if cap < expected ∧ cap < requestCapLimit then doubledCap expected fuel (cap * 2)
      else cap

/-- The buffer's size once `expected` bytes are expected. -/
def grownCap (maxReq expected cap : Nat) : Nat :=
  if cap < expected ∧ cap < requestCapLimit then
    min (min (doubledCap expected 24 (cap * 2)) requestCapLimit) maxReq
  else cap

/-- The buffer holds a request that looks complete. -/
def looksComplete (raw : Bytes) : Bool :=
  let expected := httpExpectedRequestLen raw
  (0 < expected ∧ expected ≤ raw.length) ∨
    (expected = 0 ∧ 4 ≤ raw.length ∧ isChunkedRequest raw = true ∧
      chunkedBodyComplete raw = true)

/-- The end of the stream in front of a complete request. -/
def StreamEnd.read (ending : StreamEnd) (raw : Bytes) : RequestRead :=
  match ending with
  | .closed => .request raw
  | .failed => .failed
  | .silent => .waiting

/-- How far one call of `read` gets from byte `len`. -/
def ClientStream.readTo (s : ClientStream) (cap len : Nat) : Nat :=
  min (len + s.cuts len + 1) (min cap s.bytes.length)

/-- The loop of `read_http_request`: `len` bytes are in a buffer of `cap`. -/
def readLoop (maxReq : Nat) (s : ClientStream) : Nat → Nat → Nat → RequestRead
  | 0, _, _ => .waiting
  | fuel + 1, cap, len =>
      if cap ≤ len then .request (s.bytes.take len)
      else if s.bytes.length ≤ len then s.ending.read (s.bytes.take len)
      else
        let len := s.readTo cap len
        let raw := s.bytes.take len
        let expected := httpExpectedRequestLen raw
        if maxReq < expected then .tooLarge
        else if looksComplete raw then .request raw
        else readLoop maxReq s fuel (grownCap maxReq expected cap) len

/-- `read_http_request`.  A call of `read` gives at least one byte, so there are
no more calls than bytes. -/
def readHttpRequest (maxReq : Nat) (s : ClientStream) : RequestRead :=
  readLoop maxReq s (s.bytes.length + 1) 1048576 0

/-! ## The body -/

/-- How `read_http_body` ends: with a C string and a length, with nothing, with
nothing and the length that stands for 413, or not at all. -/
inductive BodyRead
  | body (text : Bytes) (len : Nat)
  | rejected
  | tooLarge
  | hangs
  deriving DecidableEq, Repr

/-- The value of hexadecimal digits. -/
def hexDigits (digits : Bytes) : Nat :=
  digits.foldl (fun acc c => acc * 16 + (CJson.hexValue c).getD 0) 0

/-- `strtol(text, NULL, 16)`, which stops at the limits of a `long`. -/
def strtolHex (text : Bytes) : Int :=
  let s := (cstr text).dropWhile isSpace
  let negative := s.head? = some 45
  let s := if negative ∨ s.head? = some 43 then s.drop 1 else s
  let s := if s.take 2 = lit "0x" ∨ s.take 2 = lit "0X" then s.drop 2 else s
  let value := hexDigits (s.takeWhile fun c => (CJson.hexValue c).isSome)
  if negative then -(min value (longMax + 1) : Nat) else (min value longMax : Nat)

/-- The size on the line in front of a chunk; the line is cut to 31 bytes. -/
def chunkSize (line : Bytes) : Int := strtolHex (line.take 31)

/-- A byte of a line break. -/
def isBreak (c : UInt8) : Bool := c = 13 || c = 10

/-- `if (p[0] == c) p++`. -/
def skipByte (c : UInt8) (s : Bytes) : Bytes := if s.head? = some c then s.drop 1 else s

/-- The chunk loop of `read_http_body`.  The room for a chunk whose end lies
beyond 2⁶³ is doubled for ever. -/
def decodeChunks (maxBody : Nat) : Nat → Bytes → Bytes → BodyRead
  | 0, _, decoded => .body decoded decoded.length
  | fuel + 1, rest, decoded =>
      let rest := rest.dropWhile isBreak
      if rest = [] then .body decoded decoded.length
      else
        let line := rest.takeWhile fun c => ¬ isBreak c
        match rest.drop line.length with
        | 13 :: c :: more =>
            let data := if c = 10 then more else c :: more
            let size := chunkSize line
            if size < 0 then .rejected
            else if size = 0 then .body decoded decoded.length
            else if longMax + 1 < decoded.length + size.toNat then .hangs
            else
              let decoded := decoded ++ data.take size.toNat
              if maxBody < decoded.length then .tooLarge
              else
                decodeChunks maxBody fuel (skipByte 10 (skipByte 13 (data.drop size.toNat)))
                  decoded
        | _ => .rejected

/-- `read_http_body`.  Without chunks the body is copied up to its first zero
byte and no further, whatever length is reported. -/
def readHttpBody (maxBody : Nat) (raw : Bytes) : BodyRead :=
  match headerLen raw with
  | none => .rejected
  | some n =>
      let available := raw.drop n
      if isChunkedRequest raw then decodeChunks maxBody (available.length + 1) available []
      else
        match findHeaderValue (lit "Content-Length") (cstr raw) with
        | none =>
            if available = [] then .rejected else .body (cstr available) available.length
        | some val =>
            match parseContentLengthSafe val with
            | none => .rejected
            | some cl => .body (cstr (available.take cl)) (available.take cl).length

/-! ## Header blocks -/

/-- The blank line that ends a header block. -/
def blankLine : Bytes := crlf ++ crlf

/-- A header block: its blank line is its end, and there is none before. -/
structure HeaderBlock where
  bytes : Bytes
  complete : headerLen bytes = some bytes.length

variable (head : HeaderBlock)

theorem length_cstr_le (raw : Bytes) : (cstr raw).length ≤ raw.length :=
  (List.takeWhile_prefix _).length_le

/-- A header block is a C string. -/
theorem HeaderBlock.zero_not_mem : (0 : UInt8) ∉ head.bytes := by
  obtain ⟨rest, -, hlen⟩ := Option.map_eq_some_iff.mp head.complete
  have hle := length_cstr_le head.bytes
  have hwhole : cstr head.bytes = head.bytes :=
    List.IsPrefix.eq_of_length (List.takeWhile_prefix _) (by omega)
  rw [← hwhole]
  exact stop_not_mem_upTo 0 head.bytes

theorem HeaderBlock.cstr_append (rest : Bytes) :
    cstr (head.bytes ++ rest) = head.bytes ++ cstr rest :=
  upTo_append head.zero_not_mem rest

/-- Nothing follows the blank line. -/
theorem HeaderBlock.after_blankLine : after blankLine head.bytes = some [] := by
  have hcstr : cstr head.bytes = head.bytes := upTo_eq_self head.zero_not_mem
  obtain ⟨rest, hafter, hlen⟩ := Option.map_eq_some_iff.mp head.complete
  rw [hcstr] at hafter hlen
  have hcut := congrArg List.length (before_append_after hafter)
  simp only [List.length_append] at hcut
  have hnil : rest = [] := List.eq_nil_of_length_eq_zero (by omega)
  rw [← hnil]
  exact hafter

/-- The header block in front of its blank line. -/
theorem HeaderBlock.lines : before blankLine head.bytes ++ blankLine = head.bytes := by
  have hcut := before_append_after head.after_blankLine
  rwa [List.append_nil] at hcut

theorem HeaderBlock.headerLen_append (rest : Bytes) :
    headerLen (head.bytes ++ rest) = some head.bytes.length := by
  have hafter := after_append head.after_blankLine (cstr rest)
  rw [List.nil_append] at hafter
  unfold headerLen
  rw [head.cstr_append]
  show Option.map _ (after blankLine _) = _
  rw [hafter, Option.map_some, List.length_append]
  congr 1
  omega

/-- A header block is not complete before its end. -/
theorem HeaderBlock.headerLen_take {k : Nat} (hk : k < head.bytes.length) :
    headerLen (head.bytes.take k) = none := by
  have hzero : (0 : UInt8) ∉ head.bytes.take k :=
    fun h => head.zero_not_mem (List.mem_of_mem_take h)
  have hcstr : cstr (head.bytes.take k) = head.bytes.take k := upTo_eq_self hzero
  unfold headerLen
  rw [hcstr]
  show Option.map _ (after blankLine _) = _
  cases hafter : after blankLine (head.bytes.take k) with
  | none => rfl
  | some rest =>
      -- then the block would end earlier than it does
      have hlonger := after_append hafter (head.bytes.drop k)
      rw [List.take_append_drop, head.after_blankLine] at hlonger
      have hnil := (List.append_eq_nil_iff.mp (Option.some.inj hlonger).symm).2
      have hlength := congrArg List.length hnil
      rw [List.length_drop, List.length_nil] at hlength
      omega

/-- The lines behind a line still end with the blank line, or are over. -/
theorem blankLine_drop {line : Bytes} (h : blankLine <:+ line) (k : Nat) :
    blankLine <:+ line.drop k ∨ (line.drop k).length ≤ 4 := by
  rcases Nat.le_total (line.drop k).length 4 with hshort | hlong
  · exact Or.inr hshort
  · exact Or.inl (List.suffix_of_suffix_length_le h (List.drop_suffix k line) hlong)

theorem findHeaderLine_short (name : Bytes) {left : Nat} (fuel : Nat) {line : Bytes}
    (h : line.length ≤ left) : findHeaderLine name left fuel line = none := by
  cases fuel with
  | zero => rfl
  | succ fuel => rw [findHeaderLine, if_pos h]

/-- The search for a header stays in front of the blank line, whatever follows
the block. -/
theorem findHeaderLine_append (name rest : Bytes) (fuel fuel' : Nat) (line : Bytes)
    (hline : blankLine <:+ line ∨ line.length ≤ 4) (hfuel : line.length ≤ fuel)
    (hfuel' : line.length ≤ fuel') :
    findHeaderLine name (rest.length + 4) fuel' (line ++ rest) =
      (findHeaderLine name 4 fuel line).map fun value => value ++ rest := by
  induction fuel generalizing fuel' line with
  | zero =>
      rw [findHeaderLine_short name 0 (by omega : line.length ≤ 4),
        findHeaderLine_short name fuel' (by rw [List.length_append]; omega)]
      rfl
  | succ fuel ih =>
      have hlength : (line ++ rest).length = line.length + rest.length := List.length_append
      by_cases hshort : line.length ≤ 4
      · rw [findHeaderLine_short name _ hshort, findHeaderLine_short name fuel' (by omega)]
        rfl
      · obtain ⟨fuel', rfl⟩ : ∃ n, fuel' = n + 1 := ⟨fuel' - 1, by omega⟩
        have hsuffix : blankLine <:+ line := hline.resolve_right hshort
        have hbreak : occurs crlf line = true := by
          rw [occurs_iff]
          exact (List.prefix_append crlf crlf).isInfix.trans hsuffix.isInfix
        have hleft : line.length + rest.length - (rest.length + 4) = line.length - 4 := by omega
        rw [findHeaderLine, findHeaderLine, if_neg hshort, if_neg (by omega), hlength, hleft,
          before_append hbreak]
        dsimp only
        have hlen : min (before crlf line).length (line.length - 4) ≤ line.length - 4 :=
          min_le_right _ _
        generalize min (before crlf line).length (line.length - 4) = len at hlen
        -- the lines behind this one
        have hnext : (if line.length - 4 ≤ len then none
            else findHeaderLine name (rest.length + 4) fuel' ((line ++ rest).drop (len + 2))) =
              Option.map (fun value => value ++ rest)
                (if line.length - 4 ≤ len then none
                else findHeaderLine name 4 fuel (line.drop (len + 2))) := by
          by_cases hlast : line.length - 4 ≤ len
          · rw [if_pos hlast, if_pos hlast]
            rfl
          · rw [if_neg hlast, if_neg hlast, List.drop_append_of_le_length (by omega)]
            exact ih _ _ (blankLine_drop hsuffix _) (by rw [List.length_drop]; omega)
              (by rw [List.length_drop]; omega)
        by_cases hinside : name.length < len
        · have hname : name.length + 1 ≤ line.length := by omega
          have hstarts : startsWithCi name (line ++ rest) = startsWithCi name line := by
            unfold startsWithCi
            rw [List.take_append_of_le_length (by omega)]
          have hcolon : ((line ++ rest).drop name.length).head? =
              (line.drop name.length).head? := by
            rw [List.drop_append_of_le_length (by omega), List.head?_append_of_ne_nil]
            intro hnil
            have h := congrArg List.length hnil
            rw [List.length_drop, List.length_nil] at h
            omega
          rw [hstarts, hcolon, List.drop_append_of_le_length hname]
          have hvalue : len - name.length - 1 ≤ (line.drop (name.length + 1)).length := by
            rw [List.length_drop]
            omega
          split
          · -- the value, without the blanks in front of it
            rw [List.take_append_of_le_length hvalue, Option.map_some]
            congr 1
            rw [List.drop_append_of_le_length]
            exact Nat.le_trans (List.takeWhile_prefix _).length_le (List.length_take_le' _ _)
          · exact hnext
        · simp only [hinside, false_and, if_false]
          exact hnext

theorem HeaderBlock.findHeaderValue_append (name rest : Bytes) :
    findHeaderValue name (cstr (head.bytes ++ rest)) =
      (findHeaderValue name (cstr head.bytes)).map fun value => value ++ cstr rest := by
  have hcstr : cstr head.bytes = head.bytes := upTo_eq_self head.zero_not_mem
  have hafter := after_append head.after_blankLine (cstr rest)
  rw [head.cstr_append, hcstr]
  unfold findHeaderValue
  rw [show crlf ++ crlf = blankLine from rfl, hafter, head.after_blankLine]
  dsimp only
  rw [List.nil_append]
  refine findHeaderLine_append name (cstr rest) _ _ head.bytes ?_ (Nat.le_refl _) ?_
  · exact Or.inl ⟨_, head.lines⟩
  · rw [List.length_append]
    omega

/-- A header's value runs on into the blank line. -/
theorem findHeaderLine_value (name : Bytes) (fuel : Nat) {line value : Bytes}
    (hline : blankLine <:+ line ∨ line.length ≤ 4)
    (h : findHeaderLine name 4 fuel line = some value) : blankLine <:+ value := by
  induction fuel generalizing line with
  | zero => cases h
  | succ fuel ih =>
      rw [findHeaderLine] at h
      by_cases hshort : line.length ≤ 4
      · rw [if_pos hshort] at h
        cases h
      · have hsuffix : blankLine <:+ line := hline.resolve_right hshort
        rw [if_neg hshort] at h
        dsimp only at h
        have hlen : min (before crlf line).length (line.length - 4) ≤ line.length - 4 :=
          min_le_right _ _
        generalize min (before crlf line).length (line.length - 4) = len at hlen h
        split at h
        · rename_i hfound
          cases h
          rw [List.drop_drop]
          have hblanks := (List.takeWhile_prefix isBlank
            (l := (line.drop (name.length + 1)).take (len - name.length - 1))).length_le
          rw [List.length_take] at hblanks
          refine List.suffix_of_suffix_length_le hsuffix (List.drop_suffix _ line) ?_
          have hfour : blankLine.length = 4 := rfl
          have hinside := hfound.1
          rw [List.length_drop]
          omega
        · split at h
          · cases h
          · exact ih (blankLine_drop hsuffix _) h

theorem HeaderBlock.findHeaderValue_blankLine {name value : Bytes}
    (h : findHeaderValue name (cstr head.bytes) = some value) : blankLine <:+ value := by
  have hcstr : cstr head.bytes = head.bytes := upTo_eq_self head.zero_not_mem
  rw [hcstr] at h
  unfold findHeaderValue at h
  rw [show crlf ++ crlf = blankLine from rfl, head.after_blankLine] at h
  exact findHeaderLine_value name _ (Or.inl ⟨_, head.lines⟩) h

/-! ## What the header block says, it says whatever follows -/

theorem HeaderBlock.isChunkedRequest_append (rest : Bytes) :
    isChunkedRequest (head.bytes ++ rest) = isChunkedRequest head.bytes := by
  unfold isChunkedRequest
  rw [head.findHeaderValue_append]
  cases hvalue : findHeaderValue (lit "Transfer-Encoding") (cstr head.bytes) with
  | none => rfl
  | some value =>
      obtain ⟨text, rfl⟩ := head.findHeaderValue_blankLine hvalue
      have hline : ∀ more : Bytes, (text ++ blankLine ++ more).takeWhile
          (fun c => c ≠ 13 && c ≠ 10) = text.takeWhile fun c => c ≠ 13 && c ≠ 10 := by
        intro more
        rw [List.append_assoc]
        exact takeWhile_stop (by decide) text _
      have hbare := hline []
      rw [List.append_nil] at hbare
      simp only [Option.map_some, hline, hbare]

/-- A `Content-Length` is read up to the end of its line. -/
theorem parseContentLengthSafe_line (text rest : Bytes) :
    parseContentLengthSafe (text ++ 13 :: rest) = parseContentLengthSafe (text ++ [13]) := by
  have hblank : isBlank 13 = false := by decide
  have hdigit : CJson.isDigit 13 = false := by decide
  have hstop : ∀ more : Bytes, parseContentLengthSafe (text ++ 13 :: more) =
      (let val := text.dropWhile isBlank
      let digits := val.takeWhile CJson.isDigit
      let line := (val.drop digits.length).dropWhile isBlank
      if digits = [] then none
      else if line.head? = none ∨ line.head? = some 13 ∨ line.head? = some 10 then
        digits.foldlM contentLengthDigit 0
      else none) := by
    intro more
    have hlength : ((text.dropWhile isBlank).takeWhile CJson.isDigit).length ≤
        (text.dropWhile isBlank).length := (List.takeWhile_prefix _).length_le
    unfold parseContentLengthSafe
    simp only [dropWhile_stop hblank, takeWhile_stop hdigit,
      List.drop_append_of_le_length hlength]
    cases ((text.dropWhile isBlank).drop
        ((text.dropWhile isBlank).takeWhile CJson.isDigit).length).dropWhile isBlank with
    | nil => rfl
    | cons c line => rfl
  rw [hstop, hstop]

theorem HeaderBlock.contentLength_append (rest : Bytes) :
    contentLength (head.bytes ++ rest) = contentLength head.bytes := by
  unfold contentLength
  rw [head.findHeaderValue_append]
  cases hvalue : findHeaderValue (lit "Content-Length") (cstr head.bytes) with
  | none => rfl
  | some value =>
      obtain ⟨text, rfl⟩ := head.findHeaderValue_blankLine hvalue
      show parseContentLengthSafe (text ++ blankLine ++ _) = parseContentLengthSafe _
      rw [List.append_assoc]
      exact (parseContentLengthSafe_line text _).trans (parseContentLengthSafe_line text _).symm

theorem HeaderBlock.httpExpectedRequestLen_append (rest : Bytes) :
    httpExpectedRequestLen (head.bytes ++ rest) =
      if isChunkedRequest head.bytes then 0
      else head.bytes.length + (contentLength head.bytes).getD 0 := by
  unfold httpExpectedRequestLen
  rw [head.headerLen_append, head.isChunkedRequest_append, head.contentLength_append]

/-! ## Buffers that end inside the header block -/

section

variable {k : Nat} (hk : k < head.bytes.length)
include hk

theorem HeaderBlock.httpExpectedRequestLen_take :
    httpExpectedRequestLen (head.bytes.take k) = 0 := by
  unfold httpExpectedRequestLen
  rw [head.headerLen_take hk]

theorem HeaderBlock.looksComplete_take : looksComplete (head.bytes.take k) = false := by
  have hchunks : chunkedBodyComplete (head.bytes.take k) = false := by
    unfold chunkedBodyComplete
    rw [head.headerLen_take hk]
  unfold looksComplete
  rw [head.httpExpectedRequestLen_take hk, hchunks]
  simp

theorem HeaderBlock.readHttpBody_take (maxBody : Nat) :
    readHttpBody maxBody (head.bytes.take k) = .rejected := by
  unfold readHttpBody
  rw [head.headerLen_take hk]

end

/-! ## The read loop -/

section

variable (maxReq : Nat) (s : ClientStream)

/-- A call of `read` gives a byte at least, and no more than there is room for
and than there are. -/
theorem ClientStream.lt_readTo {cap len : Nat} (hroom : len < cap)
    (hmore : len < s.bytes.length) : len < s.readTo cap len := by
  unfold readTo
  omega

theorem ClientStream.readTo_le (cap len : Nat) :
    s.readTo cap len ≤ cap ∧ s.readTo cap len ≤ s.bytes.length := by
  unfold readTo
  omega

/-- One round of the loop, as an invariant sees it: what holds of the buffer's
size and of how much is in it is kept while the loop goes on, and gives the
result when it ends. -/
structure LoopRule (Inv : Nat → Nat → Prop) (Result : RequestRead → Prop) : Prop where
  full : ∀ cap len, Inv cap len → len ≤ s.bytes.length → cap ≤ len →
    Result (.request (s.bytes.take len))
  ended : ∀ cap len, Inv cap len → len = s.bytes.length → len < cap →
    Result (s.ending.read (s.bytes.take len))
  tooLarge : ∀ cap len, Inv cap len → ∀ n, len < n → n ≤ cap → n ≤ s.bytes.length →
    maxReq < httpExpectedRequestLen (s.bytes.take n) → Result .tooLarge
  complete : ∀ cap len, Inv cap len → ∀ n, len < n → n ≤ cap → n ≤ s.bytes.length →
    httpExpectedRequestLen (s.bytes.take n) ≤ maxReq →
    looksComplete (s.bytes.take n) = true → Result (.request (s.bytes.take n))
  goesOn : ∀ cap len, Inv cap len → ∀ n, len < n → n ≤ cap → n ≤ s.bytes.length →
    httpExpectedRequestLen (s.bytes.take n) ≤ maxReq →
    looksComplete (s.bytes.take n) = false →
    Inv (grownCap maxReq (httpExpectedRequestLen (s.bytes.take n)) cap) n

variable {maxReq s}

/-- The induction over the calls of `read`. -/
theorem LoopRule.readLoop {Inv : Nat → Nat → Prop} {Result : RequestRead → Prop}
    (rule : LoopRule maxReq s Inv Result) (fuel cap len : Nat) (hinv : Inv cap len)
    (hlen : len ≤ s.bytes.length) (hfuel : s.bytes.length < fuel + len) :
    Result (readLoop maxReq s fuel cap len) := by
  induction fuel generalizing cap len with
  | zero => omega
  | succ fuel ih =>
      rw [StarBridge.readLoop]
      by_cases hfull : cap ≤ len
      · rw [if_pos hfull]
        exact rule.full cap len hinv hlen hfull
      · rw [if_neg hfull]
        by_cases hended : s.bytes.length ≤ len
        · rw [if_pos hended]
          exact rule.ended cap len hinv (by omega) (by omega)
        · rw [if_neg hended]
          dsimp only
          have hlt := s.lt_readTo (Nat.lt_of_not_le hfull) (Nat.lt_of_not_le hended)
          obtain ⟨hcap, hbytes⟩ := s.readTo_le cap len
          generalize s.readTo cap len = n at hlt hcap hbytes
          by_cases hlarge : maxReq < httpExpectedRequestLen (s.bytes.take n)
          · rw [if_pos hlarge]
            exact rule.tooLarge cap len hinv n hlt hcap hbytes hlarge
          · rw [if_neg hlarge]
            cases hcomplete : looksComplete (s.bytes.take n) with
            | true =>
                exact rule.complete cap len hinv n hlt hcap hbytes (by omega) hcomplete
            | false =>
                have hnext := rule.goesOn cap len hinv n hlt hcap hbytes (by omega) hcomplete
                exact ih _ n hnext hbytes (by omega)

theorem LoopRule.readHttpRequest {Inv : Nat → Nat → Prop} {Result : RequestRead → Prop}
    (rule : LoopRule maxReq s Inv Result) (hinv : Inv 1048576 0) :
    Result (readHttpRequest maxReq s) :=
  rule.readLoop _ _ 0 hinv (Nat.zero_le _) (by omega)

end

/-! ## The size of the buffer -/

/-- Doubling reaches what is expected, or the limit. -/
theorem le_doubledCap (expected fuel cap : Nat) (h : requestCapLimit ≤ cap * 2 ^ fuel) :
    min expected requestCapLimit ≤ doubledCap expected fuel cap := by
  induction fuel generalizing cap with
  | zero =>
      rw [doubledCap]
      omega
  | succ fuel ih =>
      rw [doubledCap]
      split
      · refine ih (cap * 2) ?_
        rw [Nat.pow_succ] at h
        calc requestCapLimit ≤ cap * (2 ^ fuel * 2) := h
          _ = cap * 2 * 2 ^ fuel := by ring
      · omega

/-- The buffer has room for a request within the limits of both, and never more
than its own. -/
theorem grownCap_spec {maxReq expected : Nat} (h : expected ≤ maxReq) :
    min expected requestCapLimit ≤ grownCap maxReq expected 1048576 ∧
      grownCap maxReq expected 1048576 ≤ requestCapLimit ∧
      (expected ≤ 1048576 → grownCap maxReq expected 1048576 = 1048576) := by
  have hlimit : requestCapLimit = 16777216 := rfl
  unfold grownCap
  by_cases hgrow : 1048576 < expected ∧ 1048576 < requestCapLimit
  · have hdoubled := le_doubledCap expected 24 (1048576 * 2) (by rw [hlimit]; norm_num)
    rw [if_pos hgrow]
    omega
  · rw [if_neg hgrow]
    omega

/-- A buffer that has grown does not grow again. -/
theorem grownCap_of_le {maxReq expected cap : Nat} (h : min expected requestCapLimit ≤ cap) :
    grownCap maxReq expected cap = cap := by
  unfold grownCap
  rw [if_neg]
  omega

end StarBridge
