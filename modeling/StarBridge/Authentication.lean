import StarBridge.Admission

/-!
# What the check of the token looks at

The accept loop looks for the text `authorization: ` anywhere in a request, and
takes what stands behind its first occurrence for the header.  The lines of the
header block play no part in it: the text may stand in the request line, in the
name or the value of another header, or in the body.  So the decision is that of
the header field iff the first occurrence carries the token iff the field does.
-/

namespace StarBridge

open CText

/-! ## Admission by the field -/

/-- Credentials that carry the token, in either scheme. -/
def CarriesToken (cfg : ServerConfig) (value : Bytes) : Prop :=
  value = lit "Bearer " ++ cfg.authToken ∨ value = lit "Token " ++ cfg.authToken

instance (cfg : ServerConfig) (value : Bytes) : Decidable (CarriesToken cfg value) :=
  inferInstanceAs (Decidable (_ ∨ _))

/-- A request passes the check of its token. -/
def Admitted (cfg : ServerConfig) (raw : Bytes) : Prop := refuseAuth cfg (cstr raw) = none

/-- A request the check looks at: any but OPTIONS. -/
def IsChecked (raw : Bytes) : Prop := (lit "OPTIONS ").isPrefixOf (cstr raw) = false

instance (cfg : ServerConfig) (raw : Bytes) : Decidable (Admitted cfg raw) :=
  inferInstanceAs (Decidable (refuseAuth cfg (cstr raw) = none))

instance (raw : Bytes) : Decidable (IsChecked raw) :=
  inferInstanceAs (Decidable (_ = false))

instance (cfg : ServerConfig) (raw : Bytes) : Decidable (HasToken cfg raw) :=
  inferInstanceAs (Decidable (_ ∨ _))

/-- The decision on two requests is that of their `Authorization` fields: the
same if the fields are the same, and to admit a request iff its field is a
scheme with the token. -/
structure DecidedByField (cfg : ServerConfig) (raw raw' : Bytes) : Prop where
  alike : headerField (lit "Authorization") (cstr raw) =
      headerField (lit "Authorization") (cstr raw') → (Admitted cfg raw ↔ Admitted cfg raw')
  first : Admitted cfg raw ↔ HasToken cfg (cstr raw)
  second : Admitted cfg raw' ↔ HasToken cfg (cstr raw')

/-- Admitting by the field is deciding by it. -/
theorem decidedByField_iff (cfg : ServerConfig) (raw raw' : Bytes) :
    DecidedByField cfg raw raw' ↔
      (Admitted cfg raw ↔ HasToken cfg (cstr raw)) ∧
        (Admitted cfg raw' ↔ HasToken cfg (cstr raw')) := by
  constructor
  · intro h
    exact ⟨h.first, h.second⟩
  · rintro ⟨hfirst, hsecond⟩
    refine ⟨fun hsame => ?_, hfirst, hsecond⟩
    rw [hfirst, hsecond, HasToken, HasToken, hsame]

/-! ## What the check finds -/

/-- What a request says from the first `authorization: ` on, in any letters and
wherever that stands. -/
structure FirstMention (raw found : Bytes) : Prop where
  suffix : found <:+ raw
  mention : startsWithCi (lit "authorization: ") found = true
  first : ∀ other, other <:+ raw → startsWithCi (lit "authorization: ") other = true →
    other.length ≤ found.length

/-- `find_header_ci` finds the first mention. -/
theorem findHeaderCi_eq_some_iff {raw found : Bytes} :
    findHeaderCi (lit "authorization: ") raw = some found ↔ FirstMention raw found := by
  have hempty : startsWithCi (lit "authorization: ") [] = false := by decide
  induction raw with
  | nil =>
      constructor
      · intro h
        cases h
      · intro h
        have hmention := h.mention
        rw [List.suffix_nil.mp h.suffix, hempty] at hmention
        cases hmention
  | cons c rest ih =>
      rw [findHeaderCi]
      by_cases hhere : startsWithCi (lit "authorization: ") (c :: rest) = true
      · rw [if_pos hhere]
        constructor
        · intro h
          cases h
          exact ⟨List.suffix_refl _, hhere, fun other hother _ => hother.length_le⟩
        · intro h
          have hlong := h.first _ (List.suffix_refl _) hhere
          rw [h.suffix.eq_of_length_le hlong]
      · rw [if_neg hhere]
        constructor
        · intro hfound
          have h := ih.mp hfound
          refine ⟨h.suffix.trans (List.suffix_cons c rest), h.mention, fun other hother hm => ?_⟩
          rcases List.suffix_cons_iff.mp hother with rfl | hother
          · exact absurd hm hhere
          · exact h.first other hother hm
        · intro h
          have hsuffix : found <:+ rest := by
            rcases List.suffix_cons_iff.mp h.suffix with rfl | hsuffix
            · exact absurd h.mention hhere
            · exact hsuffix
          exact ih.mpr ⟨hsuffix, h.mention,
            fun other hother => h.first other (hother.trans (List.suffix_cons c rest))⟩

/-- The first mention of `authorization: ` in a request carries the token: what
stands behind it and further blanks, up to the end of the line. -/
def MentionsToken (cfg : ServerConfig) (raw : Bytes) : Prop :=
  ∃ found, FirstMention (cstr raw) found ∧
    CarriesToken cfg (before crlf ((found.drop 15).dropWhile (· = 32)))

/-- A text in front of the end of a line. -/
theorem before_crlf_append {scheme : Bytes} (h : (13 : UInt8) ∉ scheme) (rest : Bytes) :
    before crlf (scheme ++ rest) = scheme ++ before crlf rest := by
  induction scheme with
  | nil => rfl
  | cons c scheme ih =>
      rw [List.mem_cons, not_or] at h
      have hpre : ¬ crlf.isPrefixOf (c :: (scheme ++ rest)) = true := by
        rw [crlf, List.isPrefixOf_cons_cons, Bool.and_eq_true, beq_iff_eq]
        exact fun hboth => h.1 hboth.1
      rw [List.cons_append, before, if_neg hpre, ih h.2]
      rfl

/-- A value is a scheme and a token iff it begins with the scheme and the token
is the rest. -/
theorem before_crlf_scheme {scheme value token : Bytes} (h : (13 : UInt8) ∉ scheme) :
    before crlf value = scheme ++ token ↔
      scheme <+: value ∧ before crlf (value.drop scheme.length) = token := by
  constructor
  · intro hvalue
    have hprefix : scheme <+: value :=
      List.IsPrefix.trans ⟨token, hvalue.symm⟩ (before_isFront crlf value)
    obtain ⟨rest, rfl⟩ := hprefix
    rw [before_crlf_append h, List.append_cancel_left_eq] at hvalue
    refine ⟨List.prefix_append scheme rest, ?_⟩
    rw [List.drop_left, hvalue]
  · rintro ⟨⟨rest, rfl⟩, htoken⟩
    rw [List.drop_left] at htoken
    rw [before_crlf_append h, htoken]

/-- The check of an `Authorization` value. -/
theorem carriesToken_iff (cfg : ServerConfig) (value : Bytes) :
    CarriesToken cfg (before crlf value) ↔
      ∃ rest, authCredentials value = some rest ∧ before crlf rest = cfg.authToken := by
  unfold CarriesToken authCredentials
  rw [before_crlf_scheme (by decide), before_crlf_scheme (by decide),
    ← List.isPrefixOf_iff_prefix, ← List.isPrefixOf_iff_prefix]
  by_cases hbearer : (lit "Bearer ").isPrefixOf value = true
  · have hother : ¬ (lit "Token ").isPrefixOf value = true := by
      intro htoken
      obtain ⟨rest, rfl⟩ := List.isPrefixOf_iff_prefix.mp htoken
      obtain ⟨rest', hrest'⟩ := List.isPrefixOf_iff_prefix.mp hbearer
      have hhead := congrArg List.head? hrest'
      have hfirst : (lit "Bearer ").head? = some 66 := by decide
      have hsecond : (lit "Token ").head? = some 84 := by decide
      rw [List.head?_append, List.head?_append, hfirst, hsecond, Option.some_or,
        Option.some_or] at hhead
      exact absurd hhead (by decide)
    rw [if_pos hbearer]
    constructor
    · rintro (⟨-, h⟩ | ⟨h, -⟩)
      · exact ⟨_, rfl, h⟩
      · exact absurd h hother
    · rintro ⟨rest, hrest, h⟩
      cases hrest
      exact Or.inl ⟨hbearer, h⟩
  · rw [if_neg hbearer]
    by_cases htoken : (lit "Token ").isPrefixOf value = true
    · rw [if_pos htoken]
      constructor
      · rintro (⟨h, -⟩ | ⟨-, h⟩)
        · exact absurd h hbearer
        · exact ⟨_, rfl, h⟩
      · rintro ⟨rest, hrest, h⟩
        cases hrest
        exact Or.inr ⟨htoken, h⟩
    · rw [if_neg htoken]
      constructor
      · rintro (⟨h, -⟩ | ⟨h, -⟩)
        · exact absurd h hbearer
        · exact absurd h htoken
      · rintro ⟨rest, hrest, -⟩
        cases hrest

/-- With a token configured, a request is admitted iff its first mention carries
the token. -/
theorem admitted_iff {cfg : ServerConfig} (hconfigured : cfg.authToken ≠ []) {raw : Bytes}
    (hchecked : IsChecked raw) : Admitted cfg raw ↔ MentionsToken cfg raw := by
  unfold Admitted refuseAuth MentionsToken
  rw [if_neg (not_or.mpr ⟨hconfigured, by rw [hchecked]; decide⟩)]
  cases hfind : findHeaderCi (lit "authorization: ") (cstr raw) with
  | none =>
      constructor
      · intro h
        cases h
      · rintro ⟨found, hfound, -⟩
        rw [findHeaderCi_eq_some_iff.mpr hfound] at hfind
        cases hfind
  | some found =>
      have hfirst := findHeaderCi_eq_some_iff.mp hfind
      have honly : ∀ other, FirstMention (cstr raw) other → other = found := by
        intro other hother
        rw [findHeaderCi_eq_some_iff.mpr hother] at hfind
        exact Option.some.inj hfind
      have hvalue := carriesToken_iff cfg ((found.drop 15).dropWhile (· = 32))
      constructor
      · intro h
        refine ⟨found, hfirst, hvalue.mpr ?_⟩
        dsimp only at h
        split at h
        · cases h
        · next rest hrest =>
            refine ⟨rest, hrest, ?_⟩
            by_contra hne
            rw [if_pos (Or.inr hne)] at h
            cases h
      · rintro ⟨other, hother, hcarries⟩
        rw [honly other hother] at hcarries
        obtain ⟨rest, hrest, htoken⟩ := hvalue.mp hcarries
        dsimp only
        rw [hrest]
        dsimp only
        rw [if_neg]
        rw [htoken]
        exact not_or.mpr ⟨hconfigured, not_not_intro rfl⟩

/-- **The decision is that of the header field** iff, in either request, the
first mention of `authorization: ` carries the token just when the field does. -/
theorem decidedByField_iff_mentions (cfg : ServerConfig) (raw raw' : Bytes)
    (hconfigured : cfg.authToken ≠ []) (hchecked : IsChecked raw) (hchecked' : IsChecked raw') :
    DecidedByField cfg raw raw' ↔
      (MentionsToken cfg raw ↔ HasToken cfg (cstr raw)) ∧
        (MentionsToken cfg raw' ↔ HasToken cfg (cstr raw')) := by
  rw [decidedByField_iff, admitted_iff hconfigured hchecked, admitted_iff hconfigured hchecked']

/-- A bridge with a token. -/
def lockedConfig : ServerConfig := ⟨lit "secret", lit "127.0.0.1", [], lit "m", [], [], false⟩

/-- A request with the token in its `Authorization` header. -/
def signedRequest : Bytes :=
  lit "POST /v1/responses HTTP/1.1" ++ crlf ++ lit "Authorization: Bearer secret" ++ crlf ++ crlf

/-- A request without one. -/
def bareRequest : Bytes := lit "POST /v1/responses HTTP/1.1" ++ crlf ++ crlf

theorem decidedByField_iff_mentions_example :
    DecidedByField lockedConfig signedRequest bareRequest := by
  have hsigned : IsChecked signedRequest ∧
      (Admitted lockedConfig signedRequest ↔ HasToken lockedConfig (cstr signedRequest)) := by
    decide +kernel
  have hbare : IsChecked bareRequest ∧
      (Admitted lockedConfig bareRequest ↔ HasToken lockedConfig (cstr bareRequest)) := by
    decide +kernel
  have hconfigured : lockedConfig.authToken ≠ [] := by decide +kernel
  refine (decidedByField_iff_mentions lockedConfig signedRequest bareRequest hconfigured hsigned.1
    hbare.1).mpr ⟨?_, ?_⟩
  · rw [← admitted_iff hconfigured hsigned.1]
    exact hsigned.2
  · rw [← admitted_iff hconfigured hbare.1]
    exact hbare.2

/-- A request with the token in another header, and none in its own. -/
def proxiedRequest : Bytes :=
  lit "POST /v1/responses HTTP/1.1" ++ crlf ++ lit "Proxy-Authorization: Bearer secret" ++ crlf ++
    crlf

/-- Of two requests without an `Authorization` header, the one that has the token
in another header is admitted. -/
theorem decided_by_another_header :
    headerField (lit "Authorization") (cstr bareRequest) = none ∧
      headerField (lit "Authorization") (cstr proxiedRequest) = none ∧
      ¬ DecidedByField lockedConfig bareRequest proxiedRequest := by
  have hsame : headerField (lit "Authorization") (cstr bareRequest) =
      headerField (lit "Authorization") (cstr proxiedRequest) := by decide +kernel
  have hadmitted : Admitted lockedConfig proxiedRequest := by decide +kernel
  have hrefused : ¬ Admitted lockedConfig bareRequest := by decide +kernel
  exact ⟨by decide +kernel, by decide +kernel, fun h => hrefused ((h.alike hsame).mpr hadmitted)⟩

end StarBridge
