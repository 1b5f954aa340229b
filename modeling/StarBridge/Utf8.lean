import Mathlib.Data.List.Basic
import Mathlib.Tactic.Common

/-!
# Valid UTF-8

A text of bytes is valid when it is the encoding of some characters.  Where a
valid text may be cut is decided by one byte: in front of the first byte of a
character both parts are valid, and in front of any other byte the part behind
the cut is not.

* `Valid.cut` — a cut in front of a first byte leaves two valid texts;
* `Valid.firstAt_zero` — a valid text begins with a first byte;
* `valid_append_cons_iff` — a byte below 128 parts a text into two;
* `valid_flatMap_iff` — a code that only touches such bytes keeps a text valid.
-/

namespace Utf8

/-- The bytes are the encoding of some characters. -/
def Valid (bytes : List UInt8) : Prop :=
  ∃ chars : List Char, bytes = chars.flatMap String.utf8EncodeChar

theorem valid_nil : Valid [] := ⟨[], rfl⟩

theorem Valid.append {a b : List UInt8} (ha : Valid a) (hb : Valid b) : Valid (a ++ b) := by
  obtain ⟨as, rfl⟩ := ha
  obtain ⟨bs, rfl⟩ := hb
  exact ⟨as ++ bs, List.flatMap_append.symm⟩

/-- A single character is encoded validly. -/
theorem valid_encodeChar (c : Char) : Valid (String.utf8EncodeChar c) := ⟨[c], by simp⟩

/-- The byte at a position, if there is one, is the first of a character. -/
def FirstAt (bytes : List UInt8) (k : Nat) : Prop := ∀ b ∈ bytes[k]?, b.IsUTF8FirstByte

instance (bytes : List UInt8) (k : Nat) : Decidable (FirstAt bytes k) :=
  inferInstanceAs (Decidable (∀ b ∈ bytes[k]?, b.IsUTF8FirstByte))

/-- A valid text begins with a first byte. -/
theorem Valid.firstAt_zero {bytes : List UInt8} (h : Valid bytes) : FirstAt bytes 0 := by
  obtain ⟨chars, rfl⟩ := h
  cases chars with
  | nil => exact fun b hb => by cases hb
  | cons c chars =>
      have hpos : 0 < (String.utf8EncodeChar c).length :=
        List.length_pos_of_ne_nil String.utf8EncodeChar_ne_nil
      intro b hb
      rw [List.flatMap_cons, List.getElem?_append_left hpos, List.getElem?_eq_getElem hpos] at hb
      cases hb
      exact UInt8.isUTF8FirstByte_getElem_utf8EncodeChar.mpr rfl

/-- **A cut in front of a first byte** leaves two valid texts. -/
theorem Valid.cut {bytes : List UInt8} (h : Valid bytes) {k : Nat} (hk : FirstAt bytes k) :
    Valid (bytes.take k) ∧ Valid (bytes.drop k) := by
  obtain ⟨chars, rfl⟩ := h
  induction chars generalizing k with
  | nil => simpa using valid_nil
  | cons c chars ih =>
      rw [List.flatMap_cons] at hk ⊢
      rcases Nat.eq_zero_or_pos k with rfl | hpos
      · exact ⟨valid_nil, (valid_encodeChar c).append ⟨chars, rfl⟩⟩
      rcases Nat.lt_or_ge k (String.utf8EncodeChar c).length with hinside | hbehind
      · -- inside a character there is no first byte
        have hbyte := hk (String.utf8EncodeChar c)[k] (by
          rw [List.getElem?_append_left hinside, List.getElem?_eq_getElem hinside]
          rfl)
        have hzero := UInt8.isUTF8FirstByte_getElem_utf8EncodeChar.mp hbyte
        omega
      · have hrest : FirstAt (chars.flatMap String.utf8EncodeChar)
            (k - (String.utf8EncodeChar c).length) := by
          intro b hb
          exact hk b (by rwa [List.getElem?_append_right hbehind])
        obtain ⟨htake, hdrop⟩ := ih hrest
        rw [List.take_append, List.take_of_length_le hbehind, List.drop_append,
          List.drop_of_length_le hbehind, List.nil_append]
        exact ⟨(valid_encodeChar c).append htake, hdrop⟩

/-! ## ASCII -/

section

variable {c : UInt8} {front text behind : List UInt8}

/-- A byte below 128 is a character of its own. -/
theorem valid_singleton (h : c < 128) : Valid [c] := by
  have hall : ∀ n < 128, String.utf8EncodeChar (Char.ofNat n) = [UInt8.ofNat n] := by
    decide
  have hchar := hall c.toNat (UInt8.lt_iff_toNat_lt.mp h)
  rw [UInt8.ofNat_toNat] at hchar
  rw [← hchar]
  exact valid_encodeChar _

/-- A character that begins with a byte below 128 is that byte. -/
theorem encodeChar_tail {d : Char} (h : String.utf8EncodeChar d = c :: text) (hc : c < 128) :
    text = [] := by
  have hlead : ∀ n : Nat, 128 ≤ n → n < 256 → UInt8.ofNat n ≠ c := by
    intro n hle hlt heq
    have hnat := UInt8.lt_iff_toNat_lt.mp hc
    rw [← heq, UInt8.toNat_ofNat_of_lt' hlt] at hnat
    exact absurd hnat (Nat.not_lt.mpr hle)
  unfold String.utf8EncodeChar at h
  dsimp only at h
  split_ifs at h
  · exact (List.cons.inj h).2.symm
  · exact (hlead _ (by omega) (by omega) (List.cons.inj h).1).elim
  · exact (hlead _ (by omega) (by omega) (List.cons.inj h).1).elim
  · exact (hlead _ (by omega) (by omega) (List.cons.inj h).1).elim

/-- Behind a byte below 128 a character begins. -/
theorem valid_cons_iff (h : c < 128) : Valid (c :: text) ↔ Valid text := by
  constructor
  · intro hvalid
    obtain ⟨chars, htext⟩ := hvalid
    cases chars with
    | nil => cases htext
    | cons d chars =>
        obtain ⟨e, more, hchar⟩ :=
          List.exists_cons_of_ne_nil (String.utf8EncodeChar_ne_nil (c := d))
        rw [List.flatMap_cons, hchar, List.cons_append] at htext
        obtain ⟨rfl, hrest⟩ := List.cons.inj htext
        rw [encodeChar_tail hchar h, List.nil_append] at hrest
        exact ⟨chars, hrest⟩
  · intro hvalid
    exact (valid_singleton h).append hvalid

theorem isFirstByte_of_ascii (h : c < 128) : c.IsUTF8FirstByte := by
  have hvalid := (valid_singleton h).firstAt_zero
  exact hvalid c rfl

/-- **A byte below 128 parts a text**: what is in front of it and what is behind
it are texts of their own. -/
theorem valid_append_cons_iff (h : c < 128) :
    Valid (front ++ c :: behind) ↔ Valid front ∧ Valid behind := by
  constructor
  · intro hvalid
    have hfirst : FirstAt (front ++ c :: behind) front.length := by
      intro b hb
      rw [List.getElem?_append_right (Nat.le_refl _), Nat.sub_self] at hb
      cases hb
      exact isFirstByte_of_ascii h
    obtain ⟨hfront, hbehind⟩ := hvalid.cut hfirst
    rw [List.take_left] at hfront
    rw [List.drop_left] at hbehind
    exact ⟨hfront, (valid_cons_iff h).mp hbehind⟩
  · intro hvalid
    exact hvalid.1.append ((valid_cons_iff h).mpr hvalid.2)

/-- Every byte is a character. -/
def Ascii (text : List UInt8) : Prop := ∀ c ∈ text, c < 128

instance (text : List UInt8) : Decidable (Ascii text) := List.decidableBAll _ text

theorem Ascii.valid_append_iff (h : Ascii front) : Valid (front ++ text) ↔ Valid text := by
  induction front with
  | nil => rfl
  | cons c front ih =>
      rw [List.cons_append, valid_cons_iff (h c List.mem_cons_self)]
      exact ih fun d hd => h d (List.mem_cons_of_mem _ hd)

theorem Ascii.valid (h : Ascii text) : Valid text := by
  have hvalid : Valid (text ++ []) := h.valid_append_iff.mpr valid_nil
  rwa [List.append_nil] at hvalid

/-- The same of a piece of such bytes. -/
theorem Ascii.valid_between_iff {piece : List UInt8} (h : Ascii piece) (hne : piece ≠ []) :
    Valid (front ++ (piece ++ behind)) ↔ Valid front ∧ Valid behind := by
  obtain ⟨c, more, rfl⟩ := List.exists_cons_of_ne_nil hne
  have hmore : Ascii more := fun d hd => h d (List.mem_cons_of_mem _ hd)
  rw [List.cons_append, valid_append_cons_iff (h c List.mem_cons_self), hmore.valid_append_iff]

/-- A code that writes the bytes below 128 in such bytes, and leaves the others as
they are. -/
structure CodesAscii (code : UInt8 → List UInt8) (c : UInt8) : Prop where
  low : c < 128 → Ascii (code c) ∧ code c ≠ []
  high : 128 ≤ c → code c = [c]

/-- **Such a code keeps UTF-8** and what is not UTF-8. -/
theorem valid_append_flatMap_iff {code : UInt8 → List UInt8} (h : ∀ c ∈ text, CodesAscii code c) :
    Valid (front ++ text.flatMap code) ↔ Valid (front ++ text) := by
  induction text generalizing front with
  | nil => rfl
  | cons c text ih =>
      have hc := h c List.mem_cons_self
      have hmore : ∀ d ∈ text, CodesAscii code d := fun d hd => h d (List.mem_cons_of_mem _ hd)
      rw [List.flatMap_cons]
      by_cases hlow : c < 128
      · obtain ⟨hascii, hne⟩ := hc.low hlow
        rw [hascii.valid_between_iff hne, valid_append_cons_iff hlow]
        have hbehind : Valid ([] ++ text.flatMap code) ↔ Valid ([] ++ text) := ih hmore
        exact and_congr_right fun _ => hbehind
      · rw [hc.high (UInt8.not_lt.mp hlow), ← List.append_assoc, ih hmore, List.append_assoc]
        rfl

theorem valid_flatMap_iff {code : UInt8 → List UInt8} (h : ∀ c ∈ text, CodesAscii code c) :
    Valid (text.flatMap code) ↔ Valid text := by
  have hvalid : Valid ([] ++ text.flatMap code) ↔ Valid ([] ++ text) :=
    valid_append_flatMap_iff h
  exact hvalid

end

end Utf8
