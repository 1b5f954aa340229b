import StarBridge.JsonFields

/-!
# Where strings stand in a text

A JSON text can be gone through byte by byte knowing only whether one is in a
string, and behind a backslash there.  In a string stands no control character,
and at the end of a text one is in none (`IsJson.walk`), so a text that breaks a
string off has no value, whatever else it says.
-/

namespace JsonGrammar

/-- Where a byte stands: outside strings, in one, or behind a backslash in one. -/
inductive Spot
  | outside
  | inside
  | escaped
  deriving DecidableEq, Repr

/-- One byte; there is no way on from a control character in a string. -/
def Spot.step : Spot → UInt8 → Option Spot
  | .outside, c => some (if c = 34 then .inside else .outside)
  | .inside, c =>
      if c = 34 then some .outside
      else if c = 92 then some .escaped
      else if c < 32 then none
      else some .inside
  | .escaped, c => if c < 32 then none else some .inside

/-- A stretch of text. -/
def walk (p : Spot) (text : Octets) : Option Spot := text.foldlM Spot.step p

theorem walk_nil (p : Spot) : walk p [] = some p := rfl

theorem walk_cons (p : Spot) (c : UInt8) (text : Octets) :
    walk p (c :: text) = (p.step c).bind fun p' => walk p' text := rfl

theorem walk_append (p : Spot) (front behind : Octets) :
    walk p (front ++ behind) = (walk p front).bind fun p' => walk p' behind :=
  List.foldlM_append

/-- A stretch that was gone through is left behind. -/
theorem walk_append_of_eq {p q : Spot} {front : Octets} (h : walk p front = some q)
    (behind : Octets) : walk p (front ++ behind) = walk q behind := by
  rw [walk_append, h]
  rfl

/-- Without a quote no string begins. -/
theorem walk_outside {text : Octets} (h : 34 ∉ text) : walk .outside text = some .outside := by
  induction text with
  | nil => rfl
  | cons c text ih =>
      rw [List.mem_cons, not_or] at h
      have hstep : Spot.step .outside c = some .outside := by
        rw [Spot.step, if_neg (Ne.symm h.1)]
      rw [walk_cons, hstep]
      exact ih h.2

theorem walk_skip (s : Octets) : walk .outside (skip s) = walk .outside s := by
  have hblank : walk .outside (s.takeWhile isBlank) = some .outside := by
    refine walk_outside fun hmem => ?_
    exact absurd (List.mem_takeWhile_imp hmem) (by decide)
  have hsplit : s.takeWhile isBlank ++ skip s = s := List.takeWhile_append_dropWhile
  rw [← walk_append_of_eq hblank, hsplit]

/-! ## Strings -/

theorem step_plain {c : UInt8} (h : 32 ≤ c ∧ c ≠ 34 ∧ c ≠ 92) :
    Spot.step .inside c = some .inside := by
  rw [Spot.step, if_neg h.2.1, if_neg h.2.2, if_neg (UInt8.not_lt.mpr h.1)]

theorem step_hexValue {c : UInt8} {n : Nat} (h : hexValue c = some n) :
    Spot.step .inside c = some .inside := by
  refine step_plain ?_
  have hne : ∀ d : UInt8, hexValue d = none → c ≠ d := by
    rintro d hd rfl
    rw [hd] at h
    cases h
  refine ⟨UInt8.not_lt.mp fun hcontrol => ?_, hne 34 (by decide), hne 92 (by decide)⟩
  have hnone : ∀ n < 32, hexValue (UInt8.ofNat n) = none := by decide
  have hvalue := hnone c.toNat (UInt8.lt_iff_toNat_lt.mp hcontrol)
  rw [UInt8.ofNat_toNat, h] at hvalue
  cases hvalue

theorem walk_unit {a b c d : UInt8} {n : Nat} (h : codeUnit a b c d = some n) :
    walk .inside [92, 117, a, b, c, d] = some .inside := by
  have hvalues : ∀ e ∈ [a, b, c, d], Spot.step .inside e = some .inside := by
    intro e he
    cases hvalue : hexValue e with
    | some n => exact step_hexValue hvalue
    | none => grind [codeUnit]
  simp only [List.forall_mem_cons] at hvalues
  obtain ⟨ha, hb, hc, hd, -⟩ := hvalues
  have hescape : walk .inside [92, 117] = some .inside := by decide
  rw [show [92, 117, a, b, c, d] = [92, 117] ++ [a, b, c, d] from rfl,
    walk_append_of_eq hescape]
  simp [walk_cons, walk_nil, ha, hb, hc, hd]

/-- What follows the backslash of a short escape is no control character. -/
theorem walk_short {e b : UInt8}
    (h : ∀ more, symbols ([92, e] ++ more) =
      (symbols more).map fun (ys, rest) => (.byte b :: ys, rest)) :
    walk .inside [92, e] = some .inside := by
  have hescape : walk .inside [92] = some .escaped := by decide
  rw [show [92, e] = [92] ++ [e] from rfl, walk_append_of_eq hescape, walk_cons, Spot.step]
  by_cases hcontrol : e < 32
  · have hnone : ∀ n < 32, (symbols ([92, UInt8.ofNat n] ++ [34])).isNone := by decide
    have hread := hnone e.toNat (UInt8.lt_iff_toNat_lt.mp hcontrol)
    rw [UInt8.ofNat_toNat, h, symbols_quote] at hread
    cases hread
  · rw [if_neg hcontrol]
    rfl

/-- A string is left behind its closing quote. -/
theorem symbols_walk {s left : Octets} {ys : List Symbol} (h : symbols s = some (ys, left)) :
    walk .inside s = walk .outside left := by
  induction ys generalizing s with
  | nil =>
      rcases symbols_cases h with ⟨rfl, -⟩ | ⟨front, y, s', ys', -, hys, -⟩
      · rfl
      · cases hys
  | cons y ys ih =>
      rcases symbols_cases h with ⟨-, hys⟩ | ⟨front, y', s', ys', rfl, hys, hrest, hmore, hkind⟩
      · cases hys
      · cases hys
        have hfront : walk .inside front = some .inside := by
          rcases hkind with ⟨c, rfl, -, hplain⟩ | ⟨e, b, rfl, rfl⟩ | ⟨a, b, c, d, n, rfl, -, hcode⟩
          · rw [walk_cons, step_plain hplain]
            rfl
          · exact walk_short hmore
          · exact walk_unit hcode
        rw [walk_append_of_eq hfront]
        exact ih hrest

theorem readString_walk {s text left : Octets} (h : readString s = some (text, left)) :
    walk .outside (34 :: s) = walk .outside left := by
  obtain ⟨⟨ys, left'⟩, hsymbols, heq⟩ := Option.map_eq_some_iff.mp h
  cases heq
  exact symbols_walk hsymbols

/-! ## Texts -/

theorem Named.walk_eq {s name rest : Octets} (h : Named s name rest) :
    walk .outside s = walk .outside rest := by
  obtain ⟨s₁, s₂, hquote, hname, hcolon⟩ := h
  rw [← walk_skip s, hquote, readString_walk hname, ← walk_skip s₂, hcolon]
  rfl

/-- **Behind a part of a text** one is outside strings, as in front of it. -/
theorem Reads.walk_eq {s left : Octets} {p : Part} (h : Reads s p left) :
    walk .outside s = walk .outside left := by
  have hmark : ∀ {c : UInt8} (s : Octets), c ≠ 34 → walk .outside (c :: s) = walk .outside s := by
    intro c s hc
    rw [walk_cons, Spot.step, if_neg hc]
    rfl
  have hclosed : ∀ {s rest : Octets} {c : UInt8}, skip s = c :: rest → c ≠ 34 →
      walk .outside s = walk .outside rest := by
    intro s rest c h hc
    rw [← walk_skip s, h, hmark rest hc]
  induction h with
  | null h => rw [h, walk_append_of_eq (walk_outside (by decide))]
  | @bool _ b _ h => rw [h, walk_append_of_eq (walk_outside (by cases b <;> decide))]
  | number h hnumber _ =>
      rw [h, walk_append_of_eq (walk_outside ?_)]
      intro hmem
      exact absurd (hnumber.numeric 34 hmem) (by decide)
  | string h hstring => rw [h, readString_walk hstring]
  | emptyArray h hclose => rw [h, hmark _ (by decide), hclosed hclose (by decide)]
  | array h _ ih => rw [h, hmark _ (by decide), ih]
  | emptyObject h hclose => rw [h, hmark _ (by decide), hclosed hclose (by decide)]
  | object h _ ih => rw [h, hmark _ (by decide), ih]
  | lastElement _ hclose ih => rw [← walk_skip, ih, hclosed hclose (by decide)]
  | element _ hcomma _ ih ihmore => rw [← walk_skip, ih, hclosed hcomma (by decide), ihmore]
  | lastMember hname _ hclose ih =>
      rw [hname.walk_eq, ← walk_skip, ih, hclosed hclose (by decide)]
  | member hname _ hcomma _ ih ihmore =>
      rw [hname.walk_eq, ← walk_skip, ih, hclosed hcomma (by decide), ihmore]

/-- **A JSON text** ends outside strings, and has no control character in one. -/
theorem IsJson.walk {s : Octets} {v : Value} (h : IsJson s v) :
    walk .outside s = some .outside := by
  obtain ⟨left, hread, hleft⟩ := h
  rw [← walk_skip, hread.walk_eq, ← walk_skip, hleft]
  rfl

/-- A printed value is crossed whatever stands behind it. -/
theorem Prints.walk {text : Octets} {v : Value} (h : Prints text v) :
    walk .outside text = some .outside := h.isJson.walk

end JsonGrammar
