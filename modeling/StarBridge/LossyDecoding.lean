import Mathlib.Data.List.TakeWhile
import StarBridge.Utf8

/-!
# Decoding with replacement characters

A decoder that never fails: what is no character becomes U+FFFD.  At each position it takes
a character if one is there, and otherwise the longest beginning of one, a single byte if
there is not even that.

* `decode_encodeChar_append` — a character at the front is decoded;
* `decode_ascii_cons`, `decode_cut` — a byte below 128 is a character of its own whatever
  stands in front of it;
* `length_decode_part` — of a piece of a valid text every first byte gives one character,
  and so does every byte that is left in front of the first one.
-/

namespace Utf8

/-! ## The decoder -/

/-- How many bytes a character with this first byte has behind it; none for ASCII, and for
the bytes no character begins with. -/
def following (lead : UInt8) : Nat :=
  if lead.toNat < 194 then 0
  else if lead.toNat < 224 then 1
  else if lead.toNat < 240 then 2
  else if lead.toNat < 245 then 3
  else 0

/-- A byte that is not the first of its character. -/
def continues (b : UInt8) : Bool := 128 ≤ b.toNat && b.toNat < 192

/-- The second byte of a character: no overlong forms, no surrogates, nothing above
U+10FFFF. -/
def secondFits (lead second : UInt8) : Bool :=
  continues second && (lead.toNat ≠ 224 || 160 ≤ second.toNat) &&
    (lead.toNat ≠ 237 || second.toNat < 160) && (lead.toNat ≠ 240 || 144 ≤ second.toNat) &&
    (lead.toNat ≠ 244 || second.toNat < 144)

/-- How many of the bytes behind a first byte go on with its character. -/
def matched (lead : UInt8) : List UInt8 → Nat
  | [] => 0
  | second :: more =>
      if following lead = 0 || !secondFits lead second then 0
      else 1 + ((more.take (following lead - 1)).takeWhile continues).length

/-- The bits of a character that its first byte has. -/
def leadBits (lead : UInt8) : Nat :=
  if lead.toNat < 128 then lead.toNat
  else if lead.toNat < 224 then lead.toNat % 32
  else if lead.toNat < 240 then lead.toNat % 16
  else lead.toNat % 8

/-- The number of a character. -/
def charValue (lead : UInt8) (behind : List UInt8) : Nat :=
  behind.foldl (fun v b => v * 64 + b.toNat % 64) (leadBits lead)

/-- The character at the front, or U+FFFD. -/
def unitChar (lead : UInt8) (rest : List UInt8) : Char :=
  if lead.toNat < 128 ∨ (following lead ≠ 0 ∧ matched lead rest = following lead) then
    Char.ofNat (charValue lead (rest.take (matched lead rest)))
  else Char.ofNat 65533

/-- The decoder, with so many bytes of a character still to skip. -/
def decodeFrom : Nat → List UInt8 → List Char
  | _, [] => []
  | skip + 1, _ :: rest => decodeFrom skip rest
  | 0, lead :: rest => unitChar lead rest :: decodeFrom (matched lead rest) rest

/-- `bytes.decode("utf-8", "replace")`. -/
def decode (bytes : List UInt8) : List Char := decodeFrom 0 bytes

theorem decodeFrom_append_of_length {skip : Nat} {front rest : List UInt8}
    (h : front.length = skip) : decodeFrom skip (front ++ rest) = decode rest := by
  induction front generalizing skip with
  | nil =>
      subst h
      rfl
  | cons b front ih =>
      obtain ⟨skip, rfl⟩ : ∃ n, skip = n + 1 := ⟨skip - 1, by simp at h; omega⟩
      exact ih (by simpa using h)

/-! ## Characters -/

theorem secondFits_continues {lead second : UInt8} (h : secondFits lead second = true) :
    continues second = true := by
  simp only [secondFits, Bool.and_eq_true] at h
  exact h.1.1.1.1

/-- A first byte with all the bytes of its character behind it. -/
theorem matched_full {lead second : UInt8} {more rest : List UInt8}
    (hlength : following lead = more.length + 1) (hfits : secondFits lead second = true)
    (hmore : ∀ b ∈ more, continues b = true) :
    matched lead (second :: more ++ rest) = (second :: more).length := by
  have htake : (more ++ rest).take (following lead - 1) = more := by
    rw [hlength, Nat.add_sub_cancel, List.take_left]
  have hwhile : more.takeWhile continues = more := List.takeWhile_eq_self_iff.mpr hmore
  rw [List.cons_append, matched, if_neg (by simp [hlength, hfits]), htake, hwhile]
  simp [Nat.add_comm]

/-- A first byte with all the bytes of its character behind it, and the character. -/
theorem unitChar_full {lead second : UInt8} {more rest : List UInt8} {c : Char}
    (hlength : following lead = more.length + 1) (hfits : secondFits lead second = true)
    (hmore : ∀ b ∈ more, continues b = true)
    (hvalue : Char.ofNat (charValue lead (second :: more)) = c) :
    unitChar lead (second :: more ++ rest) = c := by
  have hmatched : matched lead (second :: more ++ rest) = _ := matched_full hlength hfits hmore
  rw [unitChar, if_pos (.inr ⟨by omega, by rw [hmatched, hlength]; rfl⟩), hmatched,
    List.take_left, hvalue]

/-- The bytes of a character, as the decoder looks at them. -/
theorem encodeChar_unit (c : Char) (rest : List UInt8) :
    ∃ lead behind, String.utf8EncodeChar c = lead :: behind ∧
      matched lead (behind ++ rest) = behind.length ∧ unitChar lead (behind ++ rest) = c := by
  have hval : c.val.toNat < 55296 ∨ 57343 < c.val.toNat ∧ c.val.toNat < 1114112 := c.valid
  have hofNat : Char.ofNat c.val.toNat = c := Char.ofNat_toNat c
  generalize hv : c.val.toNat = v at hval hofNat
  have hbyte : ∀ n, n < 256 → (UInt8.ofNat n).toNat = n := fun n h => UInt8.toNat_ofNat_of_lt' h
  have hlast := hbyte (v % 64 + 128) (by omega)
  have hsixth := hbyte (v / 64 % 64 + 128) (by omega)
  unfold String.utf8EncodeChar
  simp only [hv]
  split_ifs with h1 h2 h3
  · have hlead := hbyte v (by omega)
    have hsmall : v < 194 := by omega
    have hm : matched (UInt8.ofNat v) rest = 0 := by
      cases rest <;> simp [matched, following, hlead, hsmall]
    refine ⟨_, [], rfl, hm, ?_⟩
    have hascii : v < 128 := by omega
    simp [unitChar, hlead, hm, charValue, leadBits, hascii, hofNat]
  · have hlead := hbyte (v / 64 % 32 + 192) (by omega)
    have hlength : following (UInt8.ofNat (v / 64 % 32 + 192)) = ([] : List UInt8).length + 1 := by
      unfold following
      rw [hlead]
      split_ifs <;> first | rfl | omega
    have hfits :
        secondFits (UInt8.ofNat (v / 64 % 32 + 192)) (UInt8.ofNat (v % 64 + 128)) = true := by
      simp only [secondFits, continues, hlead, hlast, Bool.and_eq_true, Bool.or_eq_true,
        decide_eq_true_eq]
      omega
    have hvalue : charValue (UInt8.ofNat (v / 64 % 32 + 192)) [UInt8.ofNat (v % 64 + 128)] = v := by
      simp only [charValue, leadBits, hlead, hlast, List.foldl_cons, List.foldl_nil]
      split_ifs <;> omega
    exact ⟨_, _, rfl, matched_full hlength hfits (by simp),
      unitChar_full hlength hfits (by simp) (by rw [hvalue, hofNat])⟩
  · have hlead := hbyte (v / 4096 % 16 + 224) (by omega)
    have hlength : following (UInt8.ofNat (v / 4096 % 16 + 224)) =
        [UInt8.ofNat (v % 64 + 128)].length + 1 := by
      unfold following
      rw [hlead]
      split_ifs <;> first | rfl | omega
    have hfits : secondFits (UInt8.ofNat (v / 4096 % 16 + 224))
        (UInt8.ofNat (v / 64 % 64 + 128)) = true := by
      simp only [secondFits, continues, hlead, hsixth, Bool.and_eq_true, Bool.or_eq_true,
        decide_eq_true_eq]
      omega
    have hmore : ∀ b ∈ [UInt8.ofNat (v % 64 + 128)], continues b = true := by
      simp only [List.mem_singleton, forall_eq, continues, hlast, Bool.and_eq_true,
        decide_eq_true_eq]
      omega
    have hvalue : charValue (UInt8.ofNat (v / 4096 % 16 + 224))
        [UInt8.ofNat (v / 64 % 64 + 128), UInt8.ofNat (v % 64 + 128)] = v := by
      simp only [charValue, leadBits, hlead, hlast, hsixth, List.foldl_cons, List.foldl_nil]
      split_ifs <;> omega
    exact ⟨_, _, rfl, matched_full hlength hfits hmore,
      unitChar_full hlength hfits hmore (by rw [hvalue, hofNat])⟩
  · have hlead := hbyte (v / 262144 % 8 + 240) (by omega)
    have htwelfth := hbyte (v / 4096 % 64 + 128) (by omega)
    have hlength : following (UInt8.ofNat (v / 262144 % 8 + 240)) =
        [UInt8.ofNat (v / 64 % 64 + 128), UInt8.ofNat (v % 64 + 128)].length + 1 := by
      unfold following
      rw [hlead]
      split_ifs <;> first | rfl | omega
    have hfits : secondFits (UInt8.ofNat (v / 262144 % 8 + 240))
        (UInt8.ofNat (v / 4096 % 64 + 128)) = true := by
      simp only [secondFits, continues, hlead, htwelfth, Bool.and_eq_true, Bool.or_eq_true,
        decide_eq_true_eq]
      omega
    have hmore : ∀ b ∈ [UInt8.ofNat (v / 64 % 64 + 128), UInt8.ofNat (v % 64 + 128)],
        continues b = true := by
      simp only [List.mem_cons, List.not_mem_nil, or_false, forall_eq_or_imp, forall_eq,
        continues, hlast, hsixth, Bool.and_eq_true, decide_eq_true_eq]
      omega
    have hvalue : charValue (UInt8.ofNat (v / 262144 % 8 + 240))
        [UInt8.ofNat (v / 4096 % 64 + 128), UInt8.ofNat (v / 64 % 64 + 128),
          UInt8.ofNat (v % 64 + 128)] = v := by
      simp only [charValue, leadBits, hlead, hlast, hsixth, htwelfth, List.foldl_cons,
        List.foldl_nil]
      split_ifs <;> omega
    exact ⟨_, _, rfl, matched_full hlength hfits hmore,
      unitChar_full hlength hfits hmore (by rw [hvalue, hofNat])⟩

/-- **A character at the front** is decoded. -/
theorem decode_encodeChar_append (c : Char) (rest : List UInt8) :
    decode (String.utf8EncodeChar c ++ rest) = c :: decode rest := by
  obtain ⟨lead, behind, hencode, hmatched, hchar⟩ := encodeChar_unit c rest
  rw [hencode, List.cons_append]
  have hunit : decode (lead :: (behind ++ rest)) =
      unitChar lead (behind ++ rest) ::
        decodeFrom (matched lead (behind ++ rest)) (behind ++ rest) :=
    rfl
  rw [hunit, hchar, hmatched, decodeFrom_append_of_length rfl]

/-- A valid text is decoded. -/
theorem decode_encoded (chars : List Char) :
    decode (chars.flatMap String.utf8EncodeChar) = chars := by
  induction chars with
  | nil => rfl
  | cons c chars ih => rw [List.flatMap_cons, decode_encodeChar_append, ih]

/-! ## Cuts -/

/-- The byte at the front, if there is one, does not go on with a character. -/
def Starts (bytes : List UInt8) : Prop := ∀ b ∈ bytes.head?, continues b = false

theorem matched_le (lead : UInt8) (rest : List UInt8) : matched lead rest ≤ rest.length := by
  cases rest with
  | nil => exact le_rfl
  | cons second more =>
      rw [matched]
      split_ifs
      · exact Nat.zero_le _
      · have hle :=
          (List.takeWhile_prefix continues (l := more.take (following lead - 1))).length_le
        rw [List.length_take] at hle
        rw [List.length_cons]
        omega

theorem length_takeWhile_cut {front back : List UInt8} (h : Starts back) (n : Nat) :
    (((front ++ back).take n).takeWhile continues).length =
      ((front.take n).takeWhile continues).length := by
  induction front generalizing n with
  | nil =>
      cases n with
      | zero => rfl
      | succ n =>
          cases back with
          | nil => rfl
          | cons b back => simp [h b rfl]
  | cons a front ih =>
      cases n with
      | zero => rfl
      | succ n =>
          simp only [List.cons_append, List.take_succ_cons, List.takeWhile_cons]
          split_ifs
          · simp [ih n]
          · rfl

/-- No character goes over a cut in front of a byte that starts. -/
theorem matched_cut {front back : List UInt8} (h : Starts back) (lead : UInt8) :
    matched lead (front ++ back) = matched lead front := by
  cases front with
  | nil =>
      cases back with
      | nil => rfl
      | cons b back =>
          have hno : secondFits lead b = false := by
            by_contra hfits
            have hgoes := secondFits_continues (by simpa using hfits)
            rw [h b rfl] at hgoes
            cases hgoes
          simp [matched, hno]
  | cons second more =>
      simp only [List.cons_append, matched]
      rw [length_takeWhile_cut h]

theorem unitChar_cut {front back : List UInt8} (h : Starts back) (lead : UInt8) :
    unitChar lead (front ++ back) = unitChar lead front := by
  unfold unitChar
  rw [matched_cut h, List.take_append_of_le_length (matched_le lead front)]

theorem decodeFrom_cut {skip : Nat} {front back : List UInt8} (h : Starts back)
    (hskip : skip ≤ front.length) :
    decodeFrom skip (front ++ back) = decodeFrom skip front ++ decode back := by
  induction front generalizing skip with
  | nil =>
      obtain rfl : skip = 0 := by simpa using hskip
      rfl
  | cons lead front ih =>
      cases skip with
      | succ skip => exact ih (by simpa using hskip)
      | zero =>
          rw [List.cons_append, decodeFrom, decodeFrom, unitChar_cut h, matched_cut h,
            ih (matched_le lead front), List.cons_append]

/-- **A cut** in front of a byte that goes on with no character does not show. -/
theorem decode_cut {front back : List UInt8} (h : Starts back) :
    decode (front ++ back) = decode front ++ decode back :=
  decodeFrom_cut h (Nat.zero_le _)

/-- A byte below 128 is a character of its own. -/
theorem decode_ascii_cons {b : UInt8} (hb : b.toNat < 128) (rest : List UInt8) :
    decode (b :: rest) = Char.ofNat b.toNat :: decode rest := by
  have hsmall : b.toNat < 194 := by omega
  have hm : matched b rest = 0 := by
    cases rest <;> simp [matched, following, hsmall]
  simp [decode, decodeFrom, unitChar, hb, hm, charValue, leadBits]

/-- A byte that neither is ASCII nor begins a character. -/
theorem decode_stray_cons {b : UInt8} (hb : 128 ≤ b.toNat) (hnone : following b = 0)
    (rest : List UInt8) : decode (b :: rest) = Char.ofNat 65533 :: decode rest := by
  have hm : matched b rest = 0 := by
    cases rest <;> simp [matched, hnone]
  have hascii : ¬ b.toNat < 128 := by omega
  simp [decode, decodeFrom, unitChar, hascii, hm, hnone]

/-! ## Pieces of a valid text -/

/-- A byte that is not the first of a character in a valid text. -/
theorem stray_of_not_first {b : UInt8} (h : ¬ b.IsUTF8FirstByte) :
    128 ≤ b.toNat ∧ following b = 0 := by
  have hall : ∀ n < 256, ¬ (UInt8.ofNat n).IsUTF8FirstByte →
      128 ≤ (UInt8.ofNat n).toNat ∧ following (UInt8.ofNat n) = 0 := by
    decide +kernel
  have hb := hall b.toNat b.toNat_lt
  rw [UInt8.ofNat_toNat] at hb
  exact hb h

theorem decode_strays {strays rest : List UInt8} (h : ∀ b ∈ strays, ¬ b.IsUTF8FirstByte) :
    decode (strays ++ rest) = List.replicate strays.length (Char.ofNat 65533) ++ decode rest := by
  induction strays with
  | nil => rfl
  | cons b strays ih =>
      obtain ⟨hhigh, hnone⟩ := stray_of_not_first (h b List.mem_cons_self)
      rw [List.cons_append, decode_stray_cons hhigh hnone,
        ih fun b hb => h b (List.mem_cons_of_mem _ hb)]
      rfl

theorem matched_le_following (lead : UInt8) (rest : List UInt8) :
    matched lead rest ≤ following lead := by
  cases rest with
  | nil => exact Nat.zero_le _
  | cons second more =>
      rw [matched]
      split_ifs with hno
      · exact Nat.zero_le _
      · have hle :=
          (List.takeWhile_prefix continues (l := more.take (following lead - 1))).length_le
        have htake := List.length_take_le (following lead - 1) more
        have hnonzero : following lead ≠ 0 := by
          simp only [Bool.or_eq_true, decide_eq_true_eq, not_or] at hno
          exact hno.1
        omega

/-- The beginning of a character that goes no further. -/
theorem matched_take {lead : UInt8} {rest : List UInt8} (h : matched lead rest = rest.length)
    (n : Nat) : matched lead (rest.take n) = (rest.take n).length := by
  cases rest with
  | nil => simp [matched]
  | cons second more =>
      cases n with
      | zero => rfl
      | succ n =>
          rw [matched] at h
          by_cases hno : (following lead = 0 || !secondFits lead second) = true
          · simp [hno] at h
          rw [if_neg hno, List.length_cons] at h
          have hle := (List.takeWhile_prefix continues
            (l := more.take (following lead - 1))).length_le
          rw [List.length_take] at hle
          have hshort : more.length ≤ following lead - 1 := by omega
          rw [List.take_of_length_le hshort] at h
          have hall : more.takeWhile continues = more :=
            (List.takeWhile_prefix continues).eq_of_length (by omega)
          have hgoes := List.takeWhile_eq_self_iff.mp hall
          have hpart : (more.take n).takeWhile continues = more.take n :=
            List.takeWhile_eq_self_iff.mpr fun b hb => hgoes b (List.mem_of_mem_take hb)
          rw [List.take_succ_cons, matched, if_neg hno,
            List.take_of_length_le (by rw [List.length_take]; omega), hpart, List.length_cons,
            Nat.add_comm]

/-- The first bytes of characters in a text. -/
def firsts (bytes : List UInt8) : Nat := bytes.countP fun b => b.IsUTF8FirstByte

theorem firsts_encodeChar_take (c : Char) {n : Nat} (hn : 0 < n) :
    firsts ((String.utf8EncodeChar c).take n) = 1 := by
  have hpos : 0 < (String.utf8EncodeChar c).length :=
    List.length_pos_of_ne_nil String.utf8EncodeChar_ne_nil
  cases hcode : String.utf8EncodeChar c with
  | nil => simp [hcode] at hpos
  | cons lead behind =>
      obtain ⟨n, rfl⟩ : ∃ m, n = m + 1 := ⟨n - 1, by omega⟩
      have hlead : lead.IsUTF8FirstByte := by
        have hfirst : (String.utf8EncodeChar c)[0].IsUTF8FirstByte :=
          UInt8.isUTF8FirstByte_getElem_utf8EncodeChar.mpr rfl
        simpa [hcode] using hfirst
      have hbehind : (behind.take n).countP (fun b => b.IsUTF8FirstByte) = 0 := by
        rw [List.countP_eq_zero]
        intro b hb
        obtain ⟨i, hi, rfl⟩ := List.getElem_of_mem (List.mem_of_mem_take hb)
        have hin : i + 1 < (String.utf8EncodeChar c).length := by
          rw [hcode]
          simpa using hi
        have hlater : ¬ (String.utf8EncodeChar c)[i + 1].IsUTF8FirstByte :=
          UInt8.isUTF8FirstByte_getElem_utf8EncodeChar.not.mpr (by omega)
        simpa [hcode] using hlater
      simp [firsts, hlead, hbehind]

/-- A character that is cut off is one replacement character. -/
theorem decode_encodeChar_take (c : Char) {n : Nat} (hn : 0 < n)
    (hcut : n < (String.utf8EncodeChar c).length) :
    decode ((String.utf8EncodeChar c).take n) = [Char.ofNat 65533] := by
  obtain ⟨lead, behind, hcode, hmatched, -⟩ := encodeChar_unit c []
  rw [List.append_nil] at hmatched
  rw [hcode] at hcut ⊢
  obtain ⟨n, rfl⟩ : ∃ m, n = m + 1 := ⟨n - 1, by omega⟩
  rw [List.length_cons] at hcut
  have hpart := matched_take hmatched n
  have hlength : (behind.take n).length = n := by
    rw [List.length_take]
    omega
  have hfollowing := matched_le_following lead behind
  have hshort : matched lead (behind.take n) ≠ following lead := by omega
  have hascii : ¬ lead.toNat < 128 := by
    intro hsmall
    have hnone : following lead = 0 := by
      rw [following, if_pos (by omega)]
    omega
  have hrest : decodeFrom (matched lead (behind.take n)) (behind.take n) = [] := by
    have hskip : decodeFrom _ (behind.take n ++ []) = decode [] :=
      decodeFrom_append_of_length hpart.symm
    rwa [List.append_nil] at hskip
  rw [List.take_succ_cons, decode, decodeFrom, hrest, unitChar,
    if_neg (by simp [hascii, hshort])]

/-- The beginning of a valid text: a character for every first byte. -/
theorem length_decode_front (chars : List Char) {body behind : List UInt8}
    (h : body ++ behind = chars.flatMap String.utf8EncodeChar) :
    (decode body).length = firsts body := by
  induction chars generalizing body with
  | nil =>
      obtain ⟨rfl, -⟩ := List.append_eq_nil_iff.mp h
      rfl
  | cons c chars ih =>
      rw [List.flatMap_cons] at h
      rcases Nat.lt_or_ge body.length (String.utf8EncodeChar c).length with hinside | hbehind
      · have hbody : body = (String.utf8EncodeChar c).take body.length := by
          have htake := congrArg (List.take body.length) h
          rwa [List.take_left, List.take_append_of_le_length hinside.le] at htake
        rcases Nat.eq_zero_or_pos body.length with hzero | hpos
        · rw [List.length_eq_zero_iff.mp hzero]
          rfl
        · rw [hbody, decode_encodeChar_take c hpos hinside, firsts_encodeChar_take c hpos]
          rfl
      · obtain ⟨rest, rfl⟩ : ∃ rest, body = String.utf8EncodeChar c ++ rest := by
          refine ⟨body.drop (String.utf8EncodeChar c).length, ?_⟩
          have htake := congrArg (List.take (String.utf8EncodeChar c).length) h
          rw [List.take_append_of_le_length hbehind, List.take_left] at htake
          conv_rhs => rw [← htake]
          rw [List.length_take, Nat.min_eq_left hbehind, List.take_append_drop]
        rw [List.append_assoc, List.append_cancel_left_eq] at h
        have hone := firsts_encodeChar_take c
          (List.length_pos_of_ne_nil (String.utf8EncodeChar_ne_nil (c := c)))
        rw [List.take_length] at hone
        rw [decode_encodeChar_append, List.length_cons, ih h]
        unfold firsts at hone ⊢
        rw [List.countP_append, hone, Nat.add_comm]

/-- The bytes in front of the first byte of a character. -/
def strays (bytes : List UInt8) : List UInt8 := bytes.takeWhile fun b => ¬ b.IsUTF8FirstByte

/-- **A piece of a valid text**: a character for every first byte, and one for every byte
that is left of the character the piece begins in. -/
theorem length_decode_part {front bytes behind : List UInt8}
    (h : Valid (front ++ bytes ++ behind)) :
    (decode bytes).length = firsts bytes + (strays bytes).length := by
  have hsplit : strays bytes ++ bytes.dropWhile (fun b => ¬ b.IsUTF8FirstByte) = bytes :=
    List.takeWhile_append_dropWhile
  have hstrays : ∀ b ∈ strays bytes, ¬ b.IsUTF8FirstByte := by
    intro b hb
    simpa using List.mem_takeWhile_imp hb
  generalize hbody : bytes.dropWhile (fun b => ¬ b.IsUTF8FirstByte) = body at hsplit
  have hdecode : decode bytes = List.replicate (strays bytes).length (Char.ofNat 65533) ++
      decode body := by
    rw [← decode_strays hstrays, hsplit]
  have hfirsts : firsts bytes = firsts body := by
    have hnone : (strays bytes).countP (fun b => b.IsUTF8FirstByte) = 0 := by
      rw [List.countP_eq_zero]
      intro b hb
      simpa using hstrays b hb
    conv_lhs => rw [← hsplit]
    rw [firsts, List.countP_append, hnone, Nat.zero_add, firsts]
  have hcount : (decode body).length = firsts body := by
    cases body with
    | nil => rfl
    | cons b body =>
        have hfirst : b.IsUTF8FirstByte := by
          have hhead := List.head_dropWhile_not (fun b : UInt8 => ¬ b.IsUTF8FirstByte)
            (by rw [hbody]; exact List.cons_ne_nil _ _)
          simp only [hbody, List.head_cons] at hhead
          simpa using hhead
        have hwhole : front ++ bytes ++ behind =
            (front ++ strays bytes) ++ ((b :: body) ++ behind) := by
          conv_lhs => rw [← hsplit]
          simp
        have hat : FirstAt (front ++ bytes ++ behind) (front ++ strays bytes).length := by
          intro b' hb'
          rw [hwhole, List.getElem?_append_right le_rfl] at hb'
          simp only [Nat.sub_self, List.cons_append, List.getElem?_cons_zero,
            Option.mem_def, Option.some.injEq] at hb'
          exact hb' ▸ hfirst
        obtain ⟨chars, hchars⟩ := (h.cut hat).2
        rw [hwhole, List.drop_left] at hchars
        exact length_decode_front chars hchars
  rw [hdecode, List.length_append, List.length_replicate, hcount, hfirsts, Nat.add_comm]

/-! ## ASCII in the decoded text -/

/-- What a complete character is made of. -/
theorem full_shape {lead : UInt8} {rest : List UInt8} (hnonzero : following lead ≠ 0)
    (h : matched lead rest = following lead) :
    ∃ second more behind, rest = second :: more ++ behind ∧ following lead = more.length + 1 ∧
      secondFits lead second = true ∧ ∀ b ∈ more, continues b = true := by
  cases rest with
  | nil => exact absurd h.symm hnonzero
  | cons second more =>
      rw [matched] at h
      by_cases hno : (following lead = 0 || !secondFits lead second) = true
      · rw [if_pos hno] at h
        exact absurd h.symm hnonzero
      rw [if_neg hno] at h
      have hfits : secondFits lead second = true := by
        simp only [Bool.or_eq_true, not_or, Bool.not_eq_true', Bool.not_eq_false] at hno
        exact hno.2
      have hle := (List.takeWhile_prefix continues (l := more.take (following lead - 1))).length_le
      have htake := List.length_take_le (following lead - 1) more
      have hall : (more.take (following lead - 1)).takeWhile continues =
          more.take (following lead - 1) :=
        (List.takeWhile_prefix continues).eq_of_length (by omega)
      refine ⟨second, more.take (following lead - 1), more.drop (following lead - 1), ?_, ?_, hfits,
        List.takeWhile_eq_self_iff.mp hall⟩
      · rw [List.cons_append, List.take_append_drop]
      · omega

/-- A complete character that is not ASCII has a number of its own above ASCII. -/
theorem charValue_full {lead second : UInt8} {more : List UInt8}
    (hlength : following lead = more.length + 1) (hfits : secondFits lead second = true)
    (hmore : ∀ b ∈ more, continues b = true) :
    128 ≤ charValue lead (second :: more) ∧ (charValue lead (second :: more)).isValidChar := by
  have hlead := lead.toNat_lt
  simp only [secondFits, continues, Bool.and_eq_true, Bool.or_eq_true, decide_eq_true_eq,
    ne_eq] at hfits
  have hgoes : ∀ b ∈ more, 128 ≤ b.toNat ∧ b.toNat < 192 := by
    intro b hb
    simpa [continues] using hmore b hb
  unfold Nat.isValidChar
  match more with
  | [] =>
      unfold following at hlength
      simp only [charValue, leadBits, List.foldl_cons, List.foldl_nil, List.length_nil] at hlength ⊢
      split_ifs at hlength ⊢ <;> omega
  | [b] =>
      have hb := hgoes b (by simp)
      unfold following at hlength
      simp only [charValue, leadBits, List.foldl_cons, List.foldl_nil, List.length_cons,
        List.length_nil] at hlength ⊢
      split_ifs at hlength ⊢ <;> omega
  | [b, c] =>
      have hb := hgoes b (by simp)
      have hc := hgoes c (by simp)
      unfold following at hlength
      simp only [charValue, leadBits, List.foldl_cons, List.foldl_nil, List.length_cons,
        List.length_nil] at hlength ⊢
      split_ifs at hlength ⊢ <;> omega
  | _ :: _ :: _ :: _ =>
      unfold following at hlength
      simp only [List.length_cons] at hlength
      split_ifs at hlength <;> omega

theorem toNat_ofNat_of_valid {n : Nat} (h : n.isValidChar) : (Char.ofNat n).toNat = n := by
  unfold Char.ofNat
  rw [dif_pos h]
  rfl

/-- What is not ASCII decodes to what is not. -/
theorem unitChar_high (lead : UInt8) (h : 128 ≤ lead.toNat) (rest : List UInt8) :
    128 ≤ (unitChar lead rest).toNat := by
  unfold unitChar
  split_ifs with hfull
  · rcases hfull with hascii | ⟨hnonzero, hmatched⟩
    · omega
    obtain ⟨second, more, behind, rfl, hlength, hfits, hmore⟩ := full_shape hnonzero hmatched
    obtain ⟨hhigh, hvalid⟩ := charValue_full hlength hfits hmore
    rw [matched_full hlength hfits hmore, List.take_left, toNat_ofNat_of_valid hvalid]
    exact hhigh
  · decide

/-- A text of bytes below 128 is what it says. -/
theorem decode_ascii {bytes : List UInt8} (h : ∀ b ∈ bytes, b.toNat < 128) :
    decode bytes = bytes.map fun b => Char.ofNat b.toNat := by
  induction bytes with
  | nil => rfl
  | cons b bytes ih =>
      rw [decode_ascii_cons (h b List.mem_cons_self),
        ih fun b hb => h b (List.mem_cons_of_mem _ hb),
        List.map_cons]

/-- The bytes of a text of ASCII characters. -/
def asciiBytes (text : List Char) : List UInt8 := text.map fun c => UInt8.ofNat c.toNat

theorem toNat_asciiByte {c : Char} (h : c.toNat < 128) : (UInt8.ofNat c.toNat).toNat = c.toNat :=
  UInt8.toNat_ofNat_of_lt' (lt_of_lt_of_le h (by decide))

/-- Where the decoded text is ASCII, the bytes are it. -/
theorem eq_asciiBytes_of_decode {bytes : List UInt8}
    (h : ∀ c ∈ decode bytes, c.toNat < 128) : bytes = asciiBytes (decode bytes) := by
  induction bytes with
  | nil => rfl
  | cons b bytes ih =>
      have hb : b.toNat < 128 := by
        by_contra hhigh
        have hunit := unitChar_high b (by omega) bytes
        have hlow := h (unitChar b bytes) (by simp [decode, decodeFrom])
        omega
      rw [decode_ascii_cons hb] at h ⊢
      have hrest := ih fun c hc => h c (List.mem_cons_of_mem _ hc)
      have hchar : (Char.ofNat b.toNat).toNat = b.toNat :=
        toNat_ofNat_of_valid (.inl (by omega))
      rw [asciiBytes, List.map_cons, hchar, UInt8.ofNat_toNat, ← asciiBytes, ← hrest]

theorem decodeFrom_eq_decode (skip : Nat) (bytes : List UInt8) :
    decodeFrom skip bytes = decode (bytes.drop skip) := by
  induction bytes generalizing skip with
  | nil => cases skip <;> rfl
  | cons b bytes ih =>
      cases skip with
      | zero => rfl
      | succ skip => exact ih skip

/-- An ASCII character is decoded from its byte. -/
theorem mem_of_mem_decode {c : Char} (hc : c.toNat < 128) {bytes : List UInt8}
    (h : c ∈ decode bytes) : UInt8.ofNat c.toNat ∈ bytes := by
  induction hlength : bytes.length using Nat.strong_induction_on generalizing bytes with
  | _ n ih =>
      cases bytes with
      | nil => cases h
      | cons lead rest =>
          rw [decode, decodeFrom, decodeFrom_eq_decode] at h
          rcases List.mem_cons.mp h with rfl | hrest
          · have hlead : lead.toNat < 128 := by
              by_contra hhigh
              have hunit := unitChar_high lead (by omega) rest
              omega
            have hunit : unitChar lead rest = Char.ofNat lead.toNat :=
              (List.cons.inj (decode_ascii_cons hlead rest)).1
            rw [hunit, toNat_ofNat_of_valid (.inl (by omega)), UInt8.ofNat_toNat]
            exact List.mem_cons_self
          · have hlt : (rest.drop (matched lead rest)).length < n := by
              rw [List.length_drop, ← hlength, List.length_cons]
              omega
            exact List.mem_cons_of_mem _ (List.mem_of_mem_drop (ih _ hlt hrest rfl))

/-! ## Texts in pieces -/

/-- The characters of a valid text that is decoded piece by piece. -/
theorem length_decode_pieces (pieces : List (List UInt8)) {front : List UInt8}
    (h : Valid (front ++ pieces.flatten)) :
    (pieces.flatMap decode).length =
      firsts pieces.flatten + (pieces.flatMap strays).length := by
  induction pieces generalizing front with
  | nil => rfl
  | cons piece pieces ih =>
      rw [List.flatten_cons] at h ⊢
      have hpiece : Valid (front ++ piece ++ pieces.flatten) := by rwa [List.append_assoc]
      have hrest := ih hpiece
      rw [List.flatMap_cons, List.length_append, length_decode_part hpiece, hrest,
        List.flatMap_cons, List.length_append]
      simp only [firsts, List.countP_append]
      omega

theorem starts_of_firstAt {bytes : List UInt8} (h : FirstAt bytes 0) : Starts bytes := by
  have hall : ∀ n < 256, (UInt8.ofNat n).IsUTF8FirstByte →
      continues (UInt8.ofNat n) = false := by
    decide +kernel
  intro b hb
  have hfirst := h b (by rwa [← List.head?_eq_getElem?])
  have hb' := hall b.toNat b.toNat_lt
  rw [UInt8.ofNat_toNat] at hb'
  exact hb' hfirst

theorem firstAt_flatten {pieces : List (List UInt8)} (h : ∀ piece ∈ pieces, FirstAt piece 0) :
    FirstAt pieces.flatten 0 := by
  induction pieces with
  | nil => exact fun b hb => by cases hb
  | cons piece pieces ih =>
      cases piece with
      | nil => exact ih fun piece hmem => h piece (List.mem_cons_of_mem _ hmem)
      | cons b piece => exact h (b :: piece) List.mem_cons_self

/-- Pieces that each begin with a character are decoded like the whole. -/
theorem decode_flatten {pieces : List (List UInt8)} (h : ∀ piece ∈ pieces, FirstAt piece 0) :
    decode pieces.flatten = pieces.flatMap decode := by
  induction pieces with
  | nil => rfl
  | cons piece pieces ih =>
      have hrest : ∀ piece ∈ pieces, FirstAt piece 0 := fun piece hmem =>
        h piece (List.mem_cons_of_mem _ hmem)
      rw [List.flatten_cons, decode_cut (starts_of_firstAt (firstAt_flatten hrest)), ih hrest,
        List.flatMap_cons]

/-- A text that begins with no stray byte begins with a character. -/
theorem firstAt_of_strays {bytes : List UInt8} (h : strays bytes = []) : FirstAt bytes 0 := by
  cases bytes with
  | nil => exact fun b hb => by cases hb
  | cons b bytes =>
      intro b' hb'
      cases hb'
      by_contra hnot
      simp [strays, hnot] at h

/-- **A valid text in pieces** is decoded to itself iff no piece begins inside a character. -/
theorem decode_pieces_iff {pieces : List (List UInt8)} {chars : List Char}
    (h : pieces.flatten = chars.flatMap String.utf8EncodeChar) :
    pieces.flatMap decode = chars ↔ ∀ piece ∈ pieces, FirstAt piece 0 := by
  have hwhole : decode pieces.flatten = chars := by rw [h, decode_encoded]
  constructor
  · intro hdecoded
    have hvalid : Valid ([] ++ pieces.flatten) := ⟨chars, h⟩
    have hcount := length_decode_pieces pieces hvalid
    have hend : pieces.flatten ++ [] = chars.flatMap String.utf8EncodeChar := by
      rw [List.append_nil, h]
    have hchars := length_decode_front chars hend
    rw [hdecoded] at hcount
    rw [hwhole] at hchars
    have hnone : pieces.flatMap strays = [] := List.length_eq_zero_iff.mp (by omega)
    intro piece hmem
    exact firstAt_of_strays (List.flatMap_eq_nil_iff.mp hnone piece hmem)
  · intro hfirst
    rw [← decode_flatten hfirst, hwhole]

end Utf8
