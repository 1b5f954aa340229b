import StarBridge.JsonSpelling

/-!
# The buffer of an escaped text

`json_escape` writes into a buffer of its caller, escape by escape, and closes with a
terminator.  `jsonEscapeInto` does so on the bytes of the buffer, and fails where a
write would leave it.

`json_escape_faithful` says what is in the buffer afterwards: the escapes of the first
characters of the text, and of all of them if there is room.
-/

namespace StarBridge

open CText

/-- `memcpy(dest + o, text, strlen(text))`: none if it leaves the buffer. -/
def storeAt (dest : Bytes) (o : Nat) (text : Bytes) : Option Bytes :=
  if o + text.length ≤ dest.length then
    some (dest.take o ++ text ++ dest.drop (o + text.length))
  else none

/-- The loop of `json_escape` behind `o` written bytes, and the terminator. -/
def jsonEscapeLoop (maxLen : Nat) : Bytes → Nat → Bytes → Option Bytes
  | [], o, dest => storeAt dest o [0]
  | c :: rest, o, dest =>
      if o + 8 < maxLen then
        let esc := escapeByte c
        if maxLen - 1 ≤ o + esc.length then storeAt dest o [0]
        else (storeAt dest o esc).bind (jsonEscapeLoop maxLen rest (o + esc.length))
      else storeAt dest o [0]

/-- `json_escape` into a buffer of `max_len` bytes. -/
def jsonEscapeInto (src dest : Bytes) : Option Bytes :=
  if dest.length = 0 then some dest else jsonEscapeLoop dest.length (cstr src) 0 dest

theorem storeAt_append (front piece behind text : Bytes) (h : piece.length = text.length) :
    storeAt (front ++ piece ++ behind) front.length text = some (front ++ text ++ behind) := by
  have hroom : front.length + text.length ≤ (front ++ piece ++ behind).length := by
    rw [List.length_append, List.length_append]
    omega
  have htake : (front ++ piece ++ behind).take front.length = front := by
    rw [List.append_assoc, List.take_left]
  have hdrop : (front ++ piece ++ behind).drop (front.length + text.length) = behind := by
    rw [← h, ← List.length_append, List.drop_left]
  unfold storeAt
  rw [if_pos hroom, htake, hdrop]

/-- **The loop** leaves what it writes, and a terminator, in front of what was there. -/
theorem jsonEscapeLoop_eq {maxLen : Nat} (text front behind : Bytes)
    (hlength : (front ++ behind).length = maxLen) (hroom : front.length < maxLen) :
    jsonEscapeLoop maxLen text front.length (front ++ behind) =
      some (front ++ jsonEscapeFrom maxLen text front.length ++
        0 :: behind.drop ((jsonEscapeFrom maxLen text front.length).length + 1)) := by
  have hend : ∀ front behind : Bytes, (front ++ behind).length = maxLen → front.length < maxLen →
      storeAt (front ++ behind) front.length [0] = some (front ++ [] ++ 0 :: behind.drop 1) := by
    intro front behind hlength hroom
    cases behind with
    | nil =>
        rw [List.append_nil] at hlength
        omega
    | cons b behind =>
        have hstore := storeAt_append front [b] behind [0] rfl
        rw [List.append_assoc, List.singleton_append] at hstore
        rw [hstore]
        simp
  induction text generalizing front behind with
  | nil => exact hend front behind hlength hroom
  | cons c rest ih =>
      unfold jsonEscapeLoop jsonEscapeFrom
      dsimp only
      split
      · split
        · exact hend front behind hlength hroom
        · rename_i hfits
          have hbehind : (escapeByte c).length ≤ behind.length := by
            rw [List.length_append] at hlength
            omega
          have hstore := storeAt_append front (behind.take (escapeByte c).length)
            (behind.drop (escapeByte c).length) (escapeByte c) (by rw [List.length_take]; omega)
          rw [List.append_assoc, List.take_append_drop] at hstore
          have hlater := ih (front ++ escapeByte c) (behind.drop (escapeByte c).length)
            (by rw [← hlength]; simp; omega) (by rw [List.length_append]; omega)
          rw [List.length_append] at hlater
          rw [hstore, Option.bind_some, hlater, List.drop_drop, List.length_append]
          simp [Nat.add_assoc]
      · exact hend front behind hlength hroom

/-- **What is in the buffer** behind `json_escape`. -/
theorem jsonEscapeInto_eq {dest : Bytes} (src : Bytes) (h : 0 < dest.length) :
    jsonEscapeInto src dest = some (jsonEscape src dest.length ++
      0 :: dest.drop ((jsonEscape src dest.length).length + 1)) := by
  unfold jsonEscapeInto
  rw [if_neg (Nat.ne_of_gt h)]
  exact jsonEscapeLoop_eq (cstr src) [] dest rfl h

/-- A text in a buffer, with what `json_escape` promises of it. -/
structure Escaped (src dest out : Bytes) : Prop where
  /-- The buffer is as long as it was, and its text ends inside. -/
  length_eq : out.length = dest.length
  terminated : 0 ∈ out
  /-- The text is made of whole escapes of the first characters, and says these to a
  reader of JSON. -/
  whole : ∃ kept cut, cstr src = kept ++ cut ∧ cstr out = kept.flatMap escapeByte ∧
    (∀ rest, JsonGrammar.readString (cstr out ++ 34 :: rest) = some (kept, rest)) ∧
    ((escapeAll (cstr src)).length + 7 < dest.length → cut = [])

theorem length_escapeAll_pos {text : Bytes} (h : text ≠ []) : 0 < (escapeAll text).length := by
  cases text with
  | nil => exact absurd rfl h
  | cons c rest =>
      have hpos := escapeByte_length_pos c
      rw [escapeAll_cons, List.length_append]
      omega

/-- **Escaping is faithful up to a clean cut.** -/
theorem json_escape_faithful (src dest : Bytes) (h : 1 ≤ dest.length) :
    ∃ out, jsonEscapeInto src dest = some out ∧ Escaped src dest out := by
  have hshort := jsonEscape_length_lt h src
  obtain ⟨kept, cut, hsplit, hescape, hcut⟩ := jsonEscape_prefix src dest.length
  have hsrc : 0 ∉ cstr src := stop_not_mem_upTo 0 src
  have hkept : 0 ∉ kept := fun hmem => hsrc (hsplit ▸ List.mem_append_left _ hmem)
  have htext : cstr (jsonEscape src dest.length ++
      0 :: dest.drop ((jsonEscape src dest.length).length + 1)) = escapeAll kept := by
    rw [hescape]
    refine (upTo_append (zero_not_mem_escapeAll hkept) _).trans ?_
    exact List.append_nil _
  refine ⟨_, jsonEscapeInto_eq src h, ?_, ?_, kept, cut, hsplit, htext, ?_, ?_⟩
  · rw [List.length_append, List.length_cons, List.length_drop]
    omega
  · exact List.mem_append_right _ List.mem_cons_self
  · intro rest
    rw [htext]
    exact readString_escapeAll kept rest
  · intro hroom
    by_contra hne
    have hlate := hcut hne
    have hpos := length_escapeAll_pos hne
    rw [hsplit, escapeAll_append, List.length_append] at hroom
    omega

/-- A quote in a buffer of ten bytes. -/
theorem json_escape_faithful_quote :
    ∃ out, jsonEscapeInto [34] (List.replicate 10 7) = some out ∧
      Escaped [34] (List.replicate 10 7) out :=
  json_escape_faithful [34] (List.replicate 10 7) (by decide)

example : jsonEscapeInto [34] (List.replicate 10 7) = some [92, 34, 0, 7, 7, 7, 7, 7, 7, 7] := by
  decide

end StarBridge
