import StarBridge.HttpRequest

/-!
# Content-Length arithmetic

`parse_content_length_safe` computes in a `long`, and `http_expected_request_len` adds
what it returns to a `size_t`.  `parseContentLength` keeps every value that the signed
arithmetic of the first has given, so that one can say that none is out of range.

`content_length_exact` says that the parser returns the number in the value, or -1, and
that the sum does not wrap.
-/

namespace StarBridge

open CText

/-! ## The code -/

/-- `LONG_MIN`. -/
def longMin : Int := -9223372036854775808

/-- `INT_MAX`. -/
def intMax : Nat := 2147483647

/-- What the parser returns, the values its signed operations have given on the way, and
its count of digits. -/
structure LengthParse where
  result : Int
  signed : List Int
  digits : Nat

/-- Behind the digits. -/
def endLength (val : Bytes) (acc : Int) (digits : Nat) (signed : List Int) : LengthParse :=
  let rest := val.dropWhile isBlank
  if digits = 0 ∨ (rest ≠ [] ∧ rest.head? ≠ some 13 ∧ rest.head? ≠ some 10) then
    ⟨-1, signed, digits⟩
  else if acc < 0 then ⟨-1, signed, digits⟩
  else ⟨acc, signed, digits⟩

/-- The loop over the digits. -/
def lengthLoop : Bytes → Int → Nat → List Int → LengthParse
  | [], acc, digits, signed => endLength [] acc digits signed
  | c :: rest, acc, digits, signed =>
      if CJson.isDigit c then
        if longMax / 10 < acc then ⟨-1, signed, digits⟩
        else
          let scaled := acc * 10
          let limit : Int := longMax - (c.toNat - 48 : Nat)
          if scaled < 0 ∨ limit < scaled then ⟨-1, signed ++ [scaled, limit], digits⟩
          else
            let sum := scaled + (c.toNat - 48 : Nat)
            lengthLoop rest sum (digits + 1) (signed ++ [scaled, limit, sum])
      else endLength (c :: rest) acc digits signed

/-- `parse_content_length_safe`. -/
def parseContentLength (text : Bytes) : LengthParse :=
  let val := cstr text
  if val = [] then ⟨-1, [], 0⟩
  else
    let val := val.dropWhile isBlank
    if val.head? = some 45 then ⟨-1, [], 0⟩
    else if (val.head?.all fun c => !CJson.isDigit c) then ⟨-1, [], 0⟩
    else lengthLoop val 0 0 []

/-- `http_expected_request_len`, with its sum in a `size_t`. -/
def expectedRequestLen64 (raw : Bytes) : Nat :=
  match headerLen raw with
  | none => 0
  | some n =>
      if isChunkedRequest raw then 0
      else
        match findHeaderValue (lit "Content-Length") (cstr raw) with
        | none => n
        | some val =>
            let cl := (parseContentLength val).result
            if cl ≤ 0 then n else (n + cl.toNat) % 2 ^ 64

/-! ## What it means -/

/-- The number that decimal digits denote. -/
def decimalValue (digits : Bytes) : Nat := digits.foldl (fun n c => n * 10 + (c.toNat - 48)) 0

/-- The value is a number between blanks, up to the end of its line. -/
def Denotes (val : Bytes) (n : Nat) : Prop :=
  ∃ front digits behind rest, val = front ++ (digits ++ (behind ++ rest)) ∧
    (∀ c ∈ front, isBlank c = true) ∧
    (digits ≠ [] ∧ (∀ c ∈ digits, CJson.isDigit c = true) ∧ decimalValue digits = n) ∧
    (∀ c ∈ behind, isBlank c = true) ∧
    (rest = [] ∨ rest.head? = some 13 ∨ rest.head? = some 10)

/-- The parser returns the number if it is a `long`, and -1 in every other case, and no
signed operation leaves the range of a `long`. -/
structure ExactLength (text : Bytes) : Prop where
  accepts : ∀ n, Denotes (cstr text) n → n ≤ longMax → (parseContentLength text).result = n
  rejects : (∀ n, Denotes (cstr text) n → longMax < n) → (parseContentLength text).result = -1
  signed : ∀ x ∈ (parseContentLength text).signed, longMin ≤ x ∧ x ≤ longMax

/-! ## The digits -/

theorem toNat_of_isDigit {c : UInt8} (h : CJson.isDigit c = true) :
    48 ≤ c.toNat ∧ c.toNat ≤ 57 := by
  simpa [CJson.isDigit, UInt8.le_iff_toNat_le] using h

theorem le_foldl_digits (digits : Bytes) (n : Nat) :
    n ≤ digits.foldl (fun n c => n * 10 + (c.toNat - 48)) n := by
  induction digits generalizing n with
  | nil => exact Nat.le_refl n
  | cons c digits ih =>
      have hstep := ih (n * 10 + (c.toNat - 48))
      rw [List.foldl_cons]
      omega

/-- The checks in front of a digit let it through iff the number stays a `long`. -/
theorem contentLengthDigit_eq {n : Nat} {c : UInt8} (hc : CJson.isDigit c = true) :
    contentLengthDigit n c =
      if n * 10 + (c.toNat - 48) ≤ longMax then some (n * 10 + (c.toNat - 48)) else none := by
  obtain ⟨hlow, hhigh⟩ := toNat_of_isDigit hc
  have hmax : longMax = 9223372036854775807 := rfl
  unfold contentLengthDigit
  split_ifs <;> first | rfl | omega

/-- **The digits are read exactly**: to their number, if it is a `long`. -/
theorem foldlM_contentLengthDigit {digits : Bytes}
    (h : ∀ c ∈ digits, CJson.isDigit c = true) {n : Nat} (hn : n ≤ longMax) :
    digits.foldlM contentLengthDigit n =
      if digits.foldl (fun n c => n * 10 + (c.toNat - 48)) n ≤ longMax then
        some (digits.foldl (fun n c => n * 10 + (c.toNat - 48)) n)
      else none := by
  induction digits generalizing n with
  | nil => exact (if_pos hn).symm
  | cons c digits ih =>
      obtain ⟨hc, hdigits⟩ := List.forall_mem_cons.mp h
      rw [List.foldlM_cons, contentLengthDigit_eq hc, List.foldl_cons]
      split
      · rename_i hfits
        exact ih hdigits hfits
      · rename_i hlarge
        have hmore := le_foldl_digits digits (n * 10 + (c.toNat - 48))
        exact (if_neg (by omega)).symm

/-- What the parser makes of a number behind the digits. -/
def closeLength (rest : Bytes) : Option Nat → Int
  | none => -1
  | some n => if rest = [] ∨ rest.head? = some 13 ∨ rest.head? = some 10 then n else -1

theorem endLength_spec (rest : Bytes) {n count : Nat} (hcount : 0 < count) (signed : List Int) :
    (endLength rest n count signed).result = closeLength (rest.dropWhile isBlank) (some n) ∧
      (endLength rest n count signed).signed = signed ∧
      (endLength rest n count signed).digits = count := by
  have hzero : count ≠ 0 := Nat.ne_of_gt hcount
  have hnonneg : ¬ (n : Int) < 0 := by omega
  unfold endLength closeLength
  dsimp only
  by_cases hends : rest.dropWhile isBlank = [] ∨ (rest.dropWhile isBlank).head? = some 13 ∨
      (rest.dropWhile isBlank).head? = some 10
  · rw [if_pos hends, if_neg (by tauto), if_neg hnonneg]
    exact ⟨rfl, rfl, rfl⟩
  · rw [if_neg hends, if_pos (by tauto)]
    exact ⟨rfl, rfl, rfl⟩

/-- **The loop** reads the digits, and stays in range. -/
theorem lengthLoop_digits {digits rest : Bytes} (hdigits : ∀ c ∈ digits, CJson.isDigit c = true)
    (hrest : ∀ c ∈ rest.head?, CJson.isDigit c = false) {n count : Nat} {signed : List Int}
    (hn : n ≤ longMax) (hcount : 0 < count + digits.length)
    (hsigned : ∀ x ∈ signed, longMin ≤ x ∧ x ≤ longMax) :
    (lengthLoop (digits ++ rest) n count signed).result =
        closeLength (rest.dropWhile isBlank) (digits.foldlM contentLengthDigit n) ∧
      (∀ x ∈ (lengthLoop (digits ++ rest) n count signed).signed, longMin ≤ x ∧ x ≤ longMax) ∧
      (lengthLoop (digits ++ rest) n count signed).digits ≤ count + digits.length := by
  have hmax : longMax = 9223372036854775807 := rfl
  have hmin : longMin = -9223372036854775808 := rfl
  induction digits generalizing n count signed with
  | nil =>
      have hend : lengthLoop ([] ++ rest) n count signed = endLength rest n count signed := by
        cases rest with
        | nil => rfl
        | cons c rest =>
            have hc := hrest c rfl
            rw [List.nil_append, lengthLoop, hc]
            rfl
      obtain ⟨hresult, hkept, hdigits⟩ := endLength_spec rest (n := n) (show 0 < count from hcount) signed
      rw [hend, hresult, hkept, hdigits]
      exact ⟨rfl, hsigned, Nat.le_refl _⟩
  | cons c digits ih =>
      obtain ⟨hc, hmore⟩ := List.forall_mem_cons.mp hdigits
      obtain ⟨hlow, hhigh⟩ := toNat_of_isDigit hc
      rw [List.cons_append, lengthLoop, if_pos hc, List.foldlM_cons]
      unfold contentLengthDigit
      by_cases hscale : longMax / 10 < n
      · rw [if_pos hscale, if_pos (by omega)]
        exact ⟨rfl, hsigned, Nat.le_add_right _ _⟩
      · rw [if_neg hscale, if_neg (by omega)]
        dsimp only
        by_cases hadd : longMax - (c.toNat - 48) < n * 10
        · rw [if_pos hadd, if_pos (Or.inr (by omega))]
          refine ⟨rfl, ?_, Nat.le_add_right _ _⟩
          intro x hx
          rcases List.mem_append.mp hx with hold | hnew
          · exact hsigned x hold
          · simp only [List.mem_cons, List.not_mem_nil, or_false] at hnew
            omega
        · have hsum : (n : Int) * 10 + (c.toNat - 48 : Nat) = (n * 10 + (c.toNat - 48) : Nat) := by
            push_cast
            rfl
          rw [if_neg hadd, if_neg (by omega), hsum]
          have hkept : ∀ x ∈ signed ++ [(n : Int) * 10, (longMax : Int) - (c.toNat - 48 : Nat),
              ((n * 10 + (c.toNat - 48) : Nat) : Int)], longMin ≤ x ∧ x ≤ longMax := by
            intro x hx
            rcases List.mem_append.mp hx with hold | hnew
            · exact hsigned x hold
            · simp only [List.mem_cons, List.not_mem_nil, or_false] at hnew
              omega
          have hlater := ih hmore (show n * 10 + (c.toNat - 48) ≤ longMax by omega)
            (show 0 < count + 1 + digits.length by omega) hkept
          rw [List.length_cons]
          refine ⟨hlater.1, hlater.2.1, ?_⟩
          have hcounted := hlater.2.2
          omega

/-! ## The value -/

/-- A value in its parts: blanks, digits, and what does not go on with one. -/
theorem parseContentLengthSafe_split {front digits rest : Bytes}
    (hfront : ∀ c ∈ front, isBlank c = true) (hsome : digits ≠ [])
    (hdigits : ∀ c ∈ digits, CJson.isDigit c = true)
    (hrest : ∀ c ∈ rest.head?, CJson.isDigit c = false) :
    parseContentLengthSafe (front ++ (digits ++ rest)) =
      if rest.dropWhile isBlank = [] ∨ (rest.dropWhile isBlank).head? = some 13 ∨
          (rest.dropWhile isBlank).head? = some 10 then
        digits.foldlM contentLengthDigit 0
      else none := by
  have hblank : (front ++ (digits ++ rest)).dropWhile isBlank = digits ++ rest := by
    rw [List.dropWhile_append_of_pos hfront]
    cases digits with
    | nil => exact absurd rfl hsome
    | cons c digits =>
        obtain ⟨hlow, hhigh⟩ := toNat_of_isDigit (hdigits c List.mem_cons_self)
        refine List.dropWhile_cons_of_neg ?_
        intro hc
        have hvalue : c = 32 ∨ c = 9 := by simpa [isBlank] using hc
        rcases hvalue with rfl | rfl
        · exact absurd hlow (by decide)
        · exact absurd hlow (by decide)
  have htake : (digits ++ rest).takeWhile CJson.isDigit = digits := by
    rw [List.takeWhile_append_of_pos hdigits]
    cases rest with
    | nil => rw [List.takeWhile_nil, List.append_nil]
    | cons c rest =>
        rw [List.takeWhile_cons_of_neg (by rw [hrest c rfl]; exact Bool.false_ne_true),
          List.append_nil]
  unfold parseContentLengthSafe
  dsimp only
  rw [hblank, htake, if_neg hsome, List.drop_left]
  simp only [List.head?_eq_none_iff]

/-- The parts of a value. -/
theorem exists_split (val : Bytes) :
    ∃ front digits rest, val = front ++ (digits ++ rest) ∧ (∀ c ∈ front, isBlank c = true) ∧
      val.dropWhile isBlank = digits ++ rest ∧ (∀ c ∈ digits, CJson.isDigit c = true) ∧
      ∀ c ∈ rest.head?, CJson.isDigit c = false := by
  refine ⟨val.takeWhile isBlank, (val.dropWhile isBlank).takeWhile CJson.isDigit,
    (val.dropWhile isBlank).dropWhile CJson.isDigit, ?_, fun c hc => List.mem_takeWhile_imp hc, ?_,
    fun c hc => List.mem_takeWhile_imp hc, ?_⟩
  · rw [List.takeWhile_append_dropWhile, List.takeWhile_append_dropWhile]
  · rw [List.takeWhile_append_dropWhile]
  · intro c hc
    have hnot := List.head?_dropWhile_not CJson.isDigit (val.dropWhile isBlank)
    rw [Option.mem_def.mp hc] at hnot
    exact hnot

/-- A value without digits is not accepted. -/
theorem parseContentLengthSafe_of_no_digits {val rest : Bytes}
    (hval : val.dropWhile isBlank = rest) (hrest : ∀ c ∈ rest.head?, CJson.isDigit c = false) :
    parseContentLengthSafe val = none := by
  have hnone : rest.takeWhile CJson.isDigit = [] := by
    cases rest with
    | nil => rfl
    | cons c rest =>
        exact List.takeWhile_cons_of_neg (by rw [hrest c rfl]; exact Bool.false_ne_true)
  unfold parseContentLengthSafe
  dsimp only
  rw [hval, hnone]
  exact if_pos rfl

/-- **The parser in the code** and the one that the request is read with. -/
theorem parseContentLength_spec (text : Bytes) :
    (parseContentLength text).result =
        ((parseContentLengthSafe (cstr text)).elim (-1) fun n => (n : Int)) ∧
      (∀ x ∈ (parseContentLength text).signed, longMin ≤ x ∧ x ≤ longMax) ∧
      (parseContentLength text).digits ≤ (cstr text).length := by
  obtain ⟨front, digits, rest, hval, hfront, hshown, hdigits, hrest⟩ := exists_split (cstr text)
  have hlength : digits.length ≤ (cstr text).length := by
    rw [hval, List.length_append, List.length_append]
    omega
  unfold parseContentLength
  dsimp only
  cases digits with
  | nil =>
      rw [parseContentLengthSafe_of_no_digits hshown hrest, hshown]
      have hnone : (([] ++ rest).head?.all fun c => !CJson.isDigit c) = true := by
        cases rest with
        | nil => rfl
        | cons c rest =>
            show (!CJson.isDigit c) = true
            rw [hrest c rfl]
            rfl
      rw [if_pos hnone]
      split_ifs <;> exact ⟨rfl, fun x hx => absurd hx List.not_mem_nil, Nat.zero_le _⟩
  | cons c digits =>
      have hc := hdigits c List.mem_cons_self
      have hne : cstr text ≠ [] := by
        intro hnil
        rw [hnil] at hlength
        exact absurd hlength (by simp)
      have hsign : ¬ (c :: digits ++ rest).head? = some 45 := by
        intro hhead
        obtain rfl : c = 45 := Option.some.inj hhead
        exact absurd hc (by decide)
      have hdigit : ¬ (((c :: digits ++ rest).head?.all fun c => !CJson.isDigit c) = true) := by
        show ¬ (!CJson.isDigit c) = true
        rw [hc]
        exact Bool.false_ne_true
      obtain ⟨hresult, hsigned, hcount⟩ := lengthLoop_digits hdigits hrest (Nat.zero_le longMax)
        (show 0 < 0 + (c :: digits).length by simp)
        (fun x (hx : x ∈ []) => absurd hx List.not_mem_nil)
      rw [Nat.cast_zero] at hresult hsigned hcount
      rw [if_neg hne, hshown, if_neg hsign, if_neg hdigit, hval,
        parseContentLengthSafe_split hfront (List.cons_ne_nil _ _) hdigits hrest, ← hval]
      refine ⟨?_, hsigned, by omega⟩
      refine hresult.trans ?_
      cases (c :: digits).foldlM contentLengthDigit 0 with
      | none => split_ifs <;> rfl
      | some n =>
          unfold closeLength
          split_ifs <;> rfl

/-- **What is accepted** is what denotes a `long`. -/
theorem parseContentLengthSafe_eq_some_iff {val : Bytes} {n : Nat} :
    parseContentLengthSafe val = some n ↔ Denotes val n ∧ n ≤ longMax := by
  constructor
  · intro hparse
    obtain ⟨front, digits, rest, hval, hfront, hshown, hdigits, hrest⟩ := exists_split val
    have hsome : digits ≠ [] := by
      intro hnil
      rw [hnil] at hshown
      rw [parseContentLengthSafe_of_no_digits hshown hrest] at hparse
      cases hparse
    rw [hval, parseContentLengthSafe_split hfront hsome hdigits hrest,
      foldlM_contentLengthDigit hdigits (Nat.zero_le longMax)] at hparse
    split at hparse
    · rename_i hends
      split at hparse
      · rename_i hfits
        obtain rfl := Option.some.inj hparse
        refine ⟨⟨front, digits, rest.takeWhile isBlank, rest.dropWhile isBlank, ?_, hfront,
          ⟨hsome, hdigits, rfl⟩, fun c hc => List.mem_takeWhile_imp hc, hends⟩, hfits⟩
        rw [List.takeWhile_append_dropWhile]
        exact hval
      · cases hparse
    · cases hparse
  · rintro ⟨⟨front, digits, behind, rest, rfl, hfront, ⟨hsome, hdigits, rfl⟩, hbehind, hends⟩, hfits⟩
    have hstop : rest.dropWhile isBlank = rest := by
      rcases hends with rfl | hhead
      · rfl
      · cases rest with
        | nil => rfl
        | cons c rest =>
            have hc : c = 13 ∨ c = 10 := by simpa using hhead
            refine List.dropWhile_cons_of_neg ?_
            rcases hc with rfl | rfl
            · decide
            · decide
    have hblank : (behind ++ rest).dropWhile isBlank = rest := by
      rw [List.dropWhile_append_of_pos hbehind, hstop]
    have hnext : ∀ c ∈ (behind ++ rest).head?, CJson.isDigit c = false := by
      intro c hc
      cases behind with
      | nil =>
          rcases hends with rfl | hhead
          · cases hc
          · have hvalue : c = 13 ∨ c = 10 := by
              rw [List.nil_append, Option.mem_def] at hc
              simpa [hc] using hhead
            rcases hvalue with rfl | rfl
            · decide
            · decide
      | cons b behind =>
          obtain rfl : b = c := Option.some.inj hc
          have hvalue : b = 32 ∨ b = 9 := by simpa [isBlank] using hbehind b List.mem_cons_self
          rcases hvalue with rfl | rfl
          · decide
          · decide
    rw [parseContentLengthSafe_split hfront hsome hdigits hnext, hblank, if_pos hends,
      foldlM_contentLengthDigit hdigits (Nat.zero_le longMax)]
    exact if_pos hfits

theorem exactLength (text : Bytes) : ExactLength text := by
  obtain ⟨hresult, hsigned, -⟩ := parseContentLength_spec text
  refine ⟨fun n hn hfits => ?_, fun hnone => ?_, hsigned⟩
  · rw [hresult, parseContentLengthSafe_eq_some_iff.mpr ⟨hn, hfits⟩]
    rfl
  · rw [hresult]
    cases hparse : parseContentLengthSafe (cstr text) with
    | none => rfl
    | some n =>
        obtain ⟨hn, hfits⟩ := parseContentLengthSafe_eq_some_iff.mp hparse
        have hlarge := hnone n hn
        omega

/-! ## The sum -/

/-- The size of the buffer and the length of what is in it, at the top of the loop of
`read_http_request`. -/
inductive ReadState (maxReq : Nat) (s : ClientStream) : Nat → Nat → Prop
  | start : ReadState maxReq s 1048576 0
  | round {cap len : Nat} (h : ReadState maxReq s cap len) (hroom : len < cap)
      (hmore : len < s.bytes.length)
      (hfits : httpExpectedRequestLen (s.bytes.take (s.readTo cap len)) ≤ maxReq)
      (hgoes : looksComplete (s.bytes.take (s.readTo cap len)) = false) :
      ReadState maxReq s
        (grownCap maxReq (httpExpectedRequestLen (s.bytes.take (s.readTo cap len))) cap)
        (s.readTo cap len)

/-- A request that `read_http_request` holds behind one of its calls of `read`. -/
def HeldRequest (maxReq : Nat) (s : ClientStream) (raw : Bytes) : Prop :=
  ∃ cap len, ReadState maxReq s cap len ∧ len < cap ∧ len < s.bytes.length ∧
    raw = s.bytes.take (s.readTo cap len)

theorem ReadState.cap_le {maxReq : Nat} {s : ClientStream} {cap len : Nat}
    (h : ReadState maxReq s cap len) : cap ≤ requestCapLimit := by
  induction h with
  | start => decide
  | @round cap len h hroom hmore hfits hgoes ih =>
      unfold grownCap
      split
      · omega
      · exact ih

/-- No request outgrows the largest buffer. -/
theorem HeldRequest.length_le {maxReq : Nat} {s : ClientStream} {raw : Bytes}
    (h : HeldRequest maxReq s raw) : raw.length ≤ requestCapLimit := by
  obtain ⟨cap, len, hstate, -, -, rfl⟩ := h
  have hcap := hstate.cap_le
  have hread := (s.readTo_le cap len).1
  rw [List.length_take]
  omega

theorem headerLen_le {raw : Bytes} {n : Nat} (h : headerLen raw = some n) : n ≤ raw.length := by
  have htext : (cstr raw).length ≤ raw.length := (List.takeWhile_prefix _).length_le
  obtain ⟨rest, -, rfl⟩ := Option.map_eq_some_iff.mp h
  omega

/-- The sum is no larger than its two parts can be. -/
theorem httpExpectedRequestLen_le (raw : Bytes) :
    httpExpectedRequestLen raw ≤ raw.length + longMax := by
  unfold httpExpectedRequestLen
  cases hheader : headerLen raw with
  | none => exact Nat.zero_le _
  | some n =>
      have hn := headerLen_le hheader
      dsimp only
      split
      · exact Nat.zero_le _
      · have hlength : (contentLength raw).getD 0 ≤ longMax := by
          unfold contentLength
          cases hval : findHeaderValue (lit "Content-Length") (cstr raw) with
          | none => exact Nat.zero_le _
          | some val =>
              show (parseContentLengthSafe val).getD 0 ≤ longMax
              cases hparse : parseContentLengthSafe val with
              | none => exact Nat.zero_le _
              | some k => exact (parseContentLengthSafe_eq_some_iff.mp hparse).2
        omega

/-- **The sum in a `size_t`** is the sum. -/
theorem expectedRequestLen64_eq {raw : Bytes}
    (hvalue : ∀ val, findHeaderValue (lit "Content-Length") (cstr raw) = some val → 0 ∉ val)
    (h : raw.length + longMax < 2 ^ 64) :
    expectedRequestLen64 raw = httpExpectedRequestLen raw := by
  have hbound := httpExpectedRequestLen_le raw
  unfold expectedRequestLen64
  unfold httpExpectedRequestLen at hbound ⊢
  cases hheader : headerLen raw with
  | none => rfl
  | some n =>
      rw [hheader] at hbound
      dsimp only at hbound ⊢
      split
      · rfl
      · rename_i hplain
        rw [if_neg hplain] at hbound
        unfold contentLength at hbound ⊢
        cases hval : findHeaderValue (lit "Content-Length") (cstr raw) with
        | none => rfl
        | some val =>
            rw [hval, Option.bind_some] at hbound
            obtain ⟨hresult, -⟩ := parseContentLength_spec val
            rw [show cstr val = val from upTo_eq_self (hvalue val hval)] at hresult
            rw [Option.bind_some]
            dsimp only
            rw [hresult]
            cases hparse : parseContentLengthSafe val with
            | none => rfl
            | some k =>
                rw [hparse] at hbound
                show (if (k : Int) ≤ 0 then n else (n + (k : Int).toNat) % 2 ^ 64) = n + k
                have hsum : n + k ≤ raw.length + longMax := hbound
                split
                · omega
                · rw [Int.toNat_natCast]
                  exact Nat.mod_eq_of_lt (by omega)

theorem findHeaderLine_suffix {name : Bytes} {left fuel : Nat} {line value : Bytes}
    (h : findHeaderLine name left fuel line = some value) : value <:+ line := by
  induction fuel generalizing line with
  | zero => cases h
  | succ fuel ih =>
      rw [findHeaderLine] at h
      split at h
      · cases h
      · dsimp only at h
        split at h
        · obtain rfl := Option.some.inj h
          exact (List.drop_suffix _ _).trans (List.drop_suffix _ _)
        · split at h
          · cases h
          · exact (ih h).trans (List.drop_suffix _ _)

/-- A header's value is the rest of the request. -/
theorem findHeaderValue_suffix {name raw value : Bytes} (h : findHeaderValue name raw = some value) :
    value <:+ raw := by
  unfold findHeaderValue at h
  split at h
  · cases h
  · exact findHeaderLine_suffix h

/-- **Content-Length arithmetic is exact.**  The parser returns the number that a value
denotes, or -1, and in a request that is held neither its count nor the sum overflows. -/
theorem content_length_exact (text : Bytes) {maxReq : Nat} {s : ClientStream} {raw : Bytes}
    (h : HeldRequest maxReq s raw) :
    ExactLength text ∧
      (∀ val, val <:+ cstr raw → (parseContentLength val).digits ≤ intMax) ∧
      expectedRequestLen64 raw = httpExpectedRequestLen raw ∧
      httpExpectedRequestLen raw < 2 ^ 64 := by
  have hlimit : requestCapLimit = 16777216 := rfl
  have hmax : longMax = 9223372036854775807 := rfl
  have hint : intMax = 2147483647 := rfl
  have hlength := h.length_le
  have htext : (cstr raw).length ≤ raw.length := (List.takeWhile_prefix _).length_le
  refine ⟨exactLength text, fun val hval => ?_, expectedRequestLen64_eq ?_ (by omega), ?_⟩
  · have hcount := (parseContentLength_spec val).2.2
    have hinside := hval.length_le
    have hcut : (cstr val).length ≤ val.length := (List.takeWhile_prefix _).length_le
    omega
  · intro val hval hmem
    exact stop_not_mem_upTo 0 raw ((findHeaderValue_suffix hval).subset hmem)
  · have hbound := httpExpectedRequestLen_le raw
    omega

/-- A request that comes in one piece. -/
def shortRequest : ClientStream :=
  ⟨lit "POST / HTTP/1.1\r\nContent-Length: 005\r\n\r\n", .closed, fun _ => 99⟩

theorem content_length_exact_short :
    ExactLength (lit " 005\r\n") ∧
      expectedRequestLen64 (shortRequest.bytes.take (shortRequest.readTo 1048576 0)) =
        httpExpectedRequestLen (shortRequest.bytes.take (shortRequest.readTo 1048576 0)) := by
  have hheld : HeldRequest 0 shortRequest
      (shortRequest.bytes.take (shortRequest.readTo 1048576 0)) :=
    ⟨1048576, 0, .start, by decide, by decide +kernel, rfl⟩
  exact ⟨(content_length_exact (lit " 005\r\n") hheld).1,
    (content_length_exact (lit " 005\r\n") hheld).2.2.1⟩

example : (parseContentLength (lit " 9223372036854775807\r\n")).result = 9223372036854775807 := by
  decide +kernel

end StarBridge
