import Mathlib.Data.List.Find
import Mathlib.Data.List.Infix
import Mathlib.Tactic.Common

/-!
# Texts with marked sections

A section of a text runs from an opening marker to a closing one.  `Markup`
fixes the markers of both kinds; each begins with a symbol that it does not
have again, so two markers never overlap in a text.

* `strip` removes, from the front, everything from an opening marker to the
  first closing one behind it, with the blanks that follow;
* `outside` is what stands outside the sections that have no opening marker
  inside, and `sections` counts these;
* the two differ only where an opening marker is lost (`strip_eq_outside_or`).
-/

namespace Sections

variable {α : Type*}

/-! ## Markers -/

/-- Patterns that begin with a symbol they do not have again, none of them the
front of another. -/
structure Led (lead : α) (patterns : List (List α)) : Prop where
  led : ∀ p ∈ patterns, ∃ body, p = lead :: body ∧ lead ∉ body
  apart : ∀ p ∈ patterns, ∀ q ∈ patterns, p <+: q → p = q

theorem Led.subset {lead : α} {patterns some : List (List α)} (h : Led lead patterns)
    (hsome : some ⊆ patterns) : Led lead some where
  led := fun p hp => h.led p (hsome hp)
  apart := fun p hp q hq => h.apart p (hsome hp) q (hsome hq)

/-- The markers of a text and what counts as blank behind a section. -/
structure Markup (α : Type*) where
  opening : List (List α)
  closing : List (List α)
  blank : α → Bool
  lead : α
  led : Led lead (opening ++ closing)
  other : ∀ m ∈ opening, m ∉ closing
  lead_not_blank : blank lead = false

namespace Markup

variable (M : Markup α)

/-- All markers. -/
def markers : List (List α) := M.opening ++ M.closing

theorem opening_subset : M.opening ⊆ M.markers := List.subset_append_left _ _

theorem closing_subset : M.closing ⊆ M.markers := List.subset_append_right _ _

theorem markers_led : Led M.lead M.markers := M.led

theorem opening_led : Led M.lead M.opening := M.led.subset M.opening_subset

theorem closing_led : Led M.lead M.closing := M.led.subset M.closing_subset

variable {M} in
theorem mem_opening_of_markers {p : List α} (hp : p ∈ M.markers) (hnot : p ∉ M.closing) :
    p ∈ M.opening := (List.mem_append.mp hp).resolve_right hnot

theorem length_pos {m : List α} (hm : m ∈ M.markers) : 0 < m.length := by
  obtain ⟨body, hbody, -⟩ := M.led.led m hm
  rw [hbody]
  exact Nat.succ_pos _

/-- What is left behind a section: the blanks there go with it. -/
def behind (s : List α) : List α := s.dropWhile M.blank

theorem length_behind_le (s : List α) : (M.behind s).length ≤ s.length :=
  (List.dropWhile_suffix _).length_le

end Markup

variable [DecidableEq α]

/-! ## The first of several patterns -/

/-- The first place where one of the patterns stands: what is in front of it,
the pattern, and what follows. -/
def cut (patterns : List (List α)) : List α → Option (List α × List α × List α)
  | [] => none
  | c :: s =>
      match patterns.find? (·.isPrefixOf (c :: s)) with
      | some p => some ([], p, (c :: s).drop p.length)
      | none => (cut patterns s).map fun (front, p, rest) => (c :: front, p, rest)

/-- Nothing that begins with the symbol changes what is a pattern in front of
it. -/
theorem Led.isPrefixOf_append {lead : α} {patterns : List (List α)} (h : Led lead patterns)
    {p : List α} (hp : p ∈ patterns) (c : α) (front s : List α) :
    p.isPrefixOf (c :: (front ++ lead :: s)) = p.isPrefixOf (c :: front) := by
  obtain ⟨body, rfl, hbody⟩ := h.led p hp
  rw [Bool.eq_iff_iff, List.isPrefixOf_iff_prefix, List.isPrefixOf_iff_prefix,
    List.cons_prefix_cons, List.cons_prefix_cons]
  refine and_congr_right fun _ => ⟨fun hprefix => ?_, fun hprefix => ?_⟩
  · rcases le_or_gt body.length front.length with hle | hlt
    · exact List.prefix_of_prefix_length_le hprefix (List.prefix_append _ _) hle
    · obtain ⟨more, hmore⟩ := hprefix
      have hin : lead ∈ body := by
        have hget : (body ++ more)[front.length]? = some lead := by
          rw [hmore, List.getElem?_append_right le_rfl, Nat.sub_self]
          rfl
        rw [List.getElem?_append_left hlt] at hget
        exact List.mem_of_getElem? hget
      exact absurd hin hbody
  · exact hprefix.trans (List.prefix_append _ _)

/-- **What begins with the symbol does not take part** in a pattern in front of
it. -/
theorem Led.cut_append {lead : α} {patterns : List (List α)} (h : Led lead patterns)
    (front s : List α) :
    cut patterns (front ++ lead :: s) =
      match cut patterns front with
      | some (before, p, rest) => some (before, p, rest ++ lead :: s)
      | none => (cut patterns (lead :: s)).map
          fun (before, p, rest) => (front ++ before, p, rest) := by
  induction front with
  | nil => simp [cut, Option.map_id']
  | cons c front ih =>
      have hfind : patterns.find? (·.isPrefixOf (c :: (front ++ lead :: s))) =
          patterns.find? (·.isPrefixOf (c :: front)) := by
        refine List.find?_congr ?_
        intro p hp
        exact h.isPrefixOf_append hp c front s
      rw [List.cons_append, cut, cut, hfind]
      cases hp : patterns.find? (·.isPrefixOf (c :: front)) with
      | some p =>
          have hprefix : p <+: c :: front := by
            simpa using List.find?_some hp
          dsimp only
          rw [← List.cons_append, List.drop_append_of_le_length hprefix.length_le]
      | none =>
          dsimp only
          rw [ih]
          cases cut patterns front with
          | some parts => rfl
          | none =>
              rw [Option.map_map, Option.map_none]
              rfl

/-- A pattern at the front is found there. -/
theorem Led.cut_pattern {lead : α} {patterns : List (List α)} (h : Led lead patterns)
    {p : List α} (hp : p ∈ patterns) (s : List α) : cut patterns (p ++ s) = some ([], p, s) := by
  obtain ⟨body, hbody, -⟩ := h.led p hp
  have hcons : p ++ s = lead :: (body ++ s) := by rw [hbody, List.cons_append]
  have hfind : patterns.find? (·.isPrefixOf (p ++ s)) = some p := by
    cases hq : patterns.find? (·.isPrefixOf (p ++ s)) with
    | none =>
        have hnone := List.find?_eq_none.mp hq p hp
        exact absurd (List.isPrefixOf_iff_prefix.mpr (List.prefix_append p s)) hnone
    | some q =>
        have hqp : q <+: p ++ s := by simpa using List.find?_some hq
        have hqmem := List.mem_of_find?_eq_some hq
        rcases List.prefix_or_prefix_of_prefix hqp (List.prefix_append p s) with hle | hle
        · rw [h.apart q hqmem p hp hle]
        · rw [h.apart p hp q hqmem hle]
  rw [hcons] at hfind ⊢
  rw [cut, hfind]
  dsimp only
  rw [← hcons, List.drop_left]

/-- What has not the symbol has no pattern. -/
theorem Led.cut_free {lead : α} {patterns : List (List α)} (h : Led lead patterns)
    {body : List α} (hbody : lead ∉ body) (s : List α) :
    cut patterns (body ++ s) = (cut patterns s).map
      fun (before, p, rest) => (body ++ before, p, rest) := by
  induction body with
  | nil => simp [Option.map_id']
  | cons c body ih =>
      have hc : lead ≠ c := fun heq => hbody (heq ▸ List.mem_cons_self)
      have hfind : patterns.find? (·.isPrefixOf (c :: (body ++ s))) = none := by
        rw [List.find?_eq_none]
        intro p hp
        obtain ⟨more, rfl, -⟩ := h.led p hp
        simp [List.isPrefixOf, hc]
      rw [List.cons_append, cut, hfind]
      dsimp only
      rw [ih fun hmem => hbody (List.mem_cons_of_mem _ hmem), Option.map_map]
      rfl

theorem cut_eq {patterns : List (List α)} {s before p rest : List α}
    (h : cut patterns s = some (before, p, rest)) :
    s = before ++ p ++ rest ∧ p ∈ patterns ∧ cut patterns before = none := by
  induction s generalizing before with
  | nil => cases h
  | cons c s ih =>
      rw [cut] at h
      cases hp : patterns.find? (·.isPrefixOf (c :: s)) with
      | some q =>
          rw [hp] at h
          obtain ⟨rfl, rfl, rfl⟩ : [] = before ∧ q = p ∧ (c :: s).drop q.length = rest := by
            simpa using h
          have hprefix : q <+: c :: s := by simpa using List.find?_some hp
          exact ⟨(List.prefix_append_drop hprefix), List.mem_of_find?_eq_some hp, rfl⟩
      | none =>
          rw [hp] at h
          obtain ⟨⟨before', p', rest'⟩, hcut, heq⟩ := Option.map_eq_some_iff.mp h
          cases heq
          obtain ⟨hs, hmem, hfree⟩ := ih hcut
          refine ⟨by rw [hs]; rfl, hmem, ?_⟩
          have hfind : patterns.find? (·.isPrefixOf (c :: before')) = none := by
            rw [List.find?_eq_none] at hp ⊢
            intro q hq hprefix
            refine hp q hq ?_
            rw [List.isPrefixOf_iff_prefix] at hprefix ⊢
            rw [hs, List.append_assoc, ← List.cons_append]
            exact hprefix.trans (List.prefix_append _ _)
          rw [cut, hfind]
          dsimp only
          rw [hfree, Option.map_none]

theorem cut_length {patterns : List (List α)} {s before p rest : List α}
    (h : cut patterns s = some (before, p, rest)) :
    s.length = before.length + p.length + rest.length := by
  rw [(cut_eq h).1, List.length_append, List.length_append]

/-- There is no place iff none of the patterns is in the text. -/
theorem Led.cut_eq_none_iff {lead : α} {patterns : List (List α)} (h : Led lead patterns)
    {s : List α} : cut patterns s = none ↔ ∀ p ∈ patterns, ¬ p <:+: s := by
  constructor
  · intro hnone p hp hin
    obtain ⟨before, rest, rfl⟩ := hin
    obtain ⟨body, hbody, -⟩ := h.led p hp
    have hshape : before ++ p ++ rest = before ++ lead :: (body ++ rest) := by
      rw [hbody, List.append_assoc, List.cons_append]
    have hpattern := h.cut_pattern hp rest
    rw [hbody, List.cons_append] at hpattern
    rw [hshape, h.cut_append, hpattern] at hnone
    cases hbefore : cut patterns before with
    | none =>
        rw [hbefore] at hnone
        cases hnone
    | some parts =>
        rw [hbefore] at hnone
        cases hnone
  · intro hfree
    cases hcut : cut patterns s with
    | none => rfl
    | some parts =>
        obtain ⟨before, p, rest⟩ := parts
        obtain ⟨hs, hp, -⟩ := cut_eq hcut
        exact absurd ⟨before, rest, hs.symm⟩ (hfree p hp)

theorem Led.cut_eq_some {lead : α} {patterns : List (List α)} (h : Led lead patterns)
    {before p rest : List α} (hbefore : cut patterns before = none) (hp : p ∈ patterns) :
    cut patterns (before ++ p ++ rest) = some (before, p, rest) := by
  obtain ⟨body, hbody, -⟩ := h.led p hp
  have hpattern := h.cut_pattern hp rest
  have hshape : before ++ p ++ rest = before ++ lead :: (body ++ rest) := by
    rw [hbody, List.append_assoc, List.cons_append]
  rw [hbody, List.cons_append] at hpattern
  rw [hshape, h.cut_append, hbefore]
  dsimp only
  rw [hpattern, hbody, Option.map_some, List.append_nil]

/-- Fewer patterns are found later or not at all. -/
theorem Led.cut_none_subset {lead : α} {patterns some : List (List α)}
    (h : Led lead patterns) (hsome : some ⊆ patterns) {s : List α}
    (hnone : cut patterns s = none) : cut some s = none :=
  (h.subset hsome).cut_eq_none_iff.mpr fun p hp => h.cut_eq_none_iff.mp hnone p (hsome hp)

theorem Led.cut_some_subset {lead : α} {patterns some : List (List α)}
    (h : Led lead patterns) (hsome : some ⊆ patterns) {s before p rest : List α}
    (hcut : cut patterns s = .some (before, p, rest)) (hp : p ∈ some) :
    cut some s = .some (before, p, rest) := by
  obtain ⟨hs, -, hbefore⟩ := cut_eq hcut
  rw [hs]
  exact (h.subset hsome).cut_eq_some (h.cut_none_subset hsome hbefore) hp

/-- A pattern is passed over in the search for others. -/
theorem Led.cut_skip {lead : α} {patterns some : List (List α)} (h : Led lead patterns)
    (hsome : some ⊆ patterns) {m : List α} (hm : m ∈ patterns) (hother : m ∉ some)
    (s : List α) :
    cut some (m ++ s) = (cut some s).map fun (before, p, rest) => (m ++ before, p, rest) := by
  obtain ⟨body, hbody, hfree⟩ := h.led m hm
  have hfind : some.find? (·.isPrefixOf (m ++ s)) = none := by
    rw [List.find?_eq_none]
    intro q hq hprefix
    have hqm : q = m := by
      rcases List.prefix_or_prefix_of_prefix (List.isPrefixOf_iff_prefix.mp hprefix)
        (List.prefix_append m s) with hle | hle
      · exact h.apart q (hsome hq) m hm hle
      · exact (h.apart m hm q (hsome hq) hle).symm
    exact hother (hqm ▸ hq)
  rw [hbody, List.cons_append] at hfind ⊢
  rw [cut, hfind]
  dsimp only
  rw [(h.subset hsome).cut_free hfree, Option.map_map]
  rfl

/-! ## Sections -/

namespace Markup

variable (M : Markup α)

/-- The first stretch that is removed: what is in front of an opening marker,
and what is left behind the next closing one. -/
def removal (s : List α) : Option (List α × List α) :=
  (cut M.opening s).bind fun (before, _, rest) =>
    (cut M.closing rest).map fun (_, _, rest') => (before, M.behind rest')

/-- The first opening marker: what is kept of the text up to it, whether a
section begins there, and what is left.  A marker with another opening marker
behind it before any closing one is kept. -/
def next (s : List α) : Option (List α × Bool × List α) :=
  (cut M.opening s).bind fun (before, m, rest) =>
    (cut M.markers rest).map fun (_, p, rest') =>
      if p ∈ M.closing then (before, true, M.behind rest') else (before ++ m, false, rest)

variable {M} in
/-- What stands behind a marker is shorter than the text. -/
theorem cut_lt {patterns : List (List α)} (hsub : patterns ⊆ M.markers)
    {s before p rest : List α} (h : cut patterns s = some (before, p, rest)) :
    rest.length < s.length := by
  have hlen := cut_length h
  have hpos := M.length_pos (hsub (cut_eq h).2.1)
  omega

variable {M} in
/-- The stretch that is removed, marker by marker. -/
theorem removal_eq_some {s before rest : List α} :
    M.removal s = some (before, rest) ↔
      ∃ m left between c left', cut M.opening s = some (before, m, left) ∧
        cut M.closing left = some (between, c, left') ∧ M.behind left' = rest := by
  unfold removal
  constructor
  · intro h
    obtain ⟨⟨before', m, left⟩, hopen, h⟩ := Option.bind_eq_some_iff.mp h
    obtain ⟨⟨between, c, left'⟩, hclose, heq⟩ := Option.map_eq_some_iff.mp h
    cases heq
    exact ⟨m, left, between, c, left', hopen, hclose, rfl⟩
  · intro h
    obtain ⟨m, left, between, c, left', hopen, hclose, rfl⟩ := h
    rw [hopen, Option.bind_some]
    dsimp only
    rw [hclose, Option.map_some]

variable {M} in
/-- The first opening marker begins a section, or another one follows it. -/
theorem next_eq_some {s kept rest : List α} {closed : Bool} :
    M.next s = some (kept, closed, rest) ↔
      ∃ before m left between p left', cut M.opening s = some (before, m, left) ∧
        cut M.markers left = some (between, p, left') ∧
        ((p ∈ M.closing ∧ kept = before ∧ closed = true ∧ rest = M.behind left') ∨
          (p ∉ M.closing ∧ kept = before ++ m ∧ closed = false ∧ rest = left)) := by
  unfold next
  constructor
  · intro h
    obtain ⟨⟨before, m, left⟩, hopen, h⟩ := Option.bind_eq_some_iff.mp h
    obtain ⟨⟨between, p, left'⟩, hnext, heq⟩ := Option.map_eq_some_iff.mp h
    refine ⟨before, m, left, between, p, left', hopen, hnext, ?_⟩
    dsimp only at heq
    by_cases hp : p ∈ M.closing
    · rw [if_pos hp] at heq
      cases heq
      exact Or.inl ⟨hp, rfl, rfl, rfl⟩
    · rw [if_neg hp] at heq
      cases heq
      exact Or.inr ⟨hp, rfl, rfl, rfl⟩
  · intro h
    obtain ⟨before, m, left, between, p, left', hopen, hnext, hcases⟩ := h
    rw [hopen, Option.bind_some]
    dsimp only
    rw [hnext, Option.map_some]
    dsimp only
    rcases hcases with ⟨hp, rfl, rfl, rfl⟩ | ⟨hp, rfl, rfl, rfl⟩
    · rw [if_pos hp]
    · rw [if_neg hp]

variable {M} in
theorem removal_lt {s before rest : List α} (h : M.removal s = some (before, rest)) :
    rest.length < s.length := by
  obtain ⟨m, left, between, c, left', hopen, hclose, rfl⟩ := removal_eq_some.mp h
  have h₁ := cut_lt M.opening_subset hopen
  have h₂ := cut_lt M.closing_subset hclose
  have h₃ := M.length_behind_le left'
  omega

variable {M} in
theorem next_lt {s kept rest : List α} {closed : Bool}
    (h : M.next s = some (kept, closed, rest)) : rest.length < s.length := by
  obtain ⟨before, m, left, between, p, left', hopen, hnext, hcases⟩ := next_eq_some.mp h
  have h₁ := cut_lt M.opening_subset hopen
  have h₂ := cut_lt (List.Subset.refl _) hnext
  have h₃ := M.length_behind_le left'
  rcases hcases with ⟨-, -, -, rfl⟩ | ⟨-, -, -, rfl⟩
  · omega
  · exact h₁

/-- Everything from an opening marker to the next closing one is removed. -/
def strip (s : List α) : List α :=
  match _h : M.removal s with
  | none => s
  | some (before, rest) => before ++ strip rest
termination_by s.length
decreasing_by exact removal_lt _h

/-- What stands outside the sections without an opening marker inside. -/
def outside (s : List α) : List α :=
  match _h : M.next s with
  | none => s
  | some (kept, _, rest) => kept ++ outside rest
termination_by s.length
decreasing_by exact next_lt _h

/-- How many such sections there are. -/
def sections (s : List α) : Nat :=
  match _h : M.next s with
  | none => 0
  | some (_, closed, rest) => closed.toNat + sections rest
termination_by s.length
decreasing_by exact next_lt _h

theorem strip_eq (s : List α) :
    M.strip s = match M.removal s with
      | none => s
      | some (before, rest) => before ++ M.strip rest := by
  rw [strip]
  split <;> rename_i h <;> rw [h]

theorem outside_eq (s : List α) :
    M.outside s = match M.next s with
      | none => s
      | some (kept, _, rest) => kept ++ M.outside rest := by
  rw [outside]
  split <;> rename_i h <;> rw [h]

theorem sections_eq (s : List α) :
    M.sections s = match M.next s with
      | none => 0
      | some (_, closed, rest) => closed.toNat + M.sections rest := by
  rw [sections]
  split <;> rename_i h <;> rw [h]

/-! ## Nothing to remove -/

variable {M} in
theorem removal_of_free {s : List α} (h : cut M.opening s = none) : M.removal s = none := by
  rw [removal, h]
  rfl

variable {M} in
theorem next_of_free {s : List α} (h : cut M.opening s = none) : M.next s = none := by
  rw [next, h]
  rfl

variable {M} in
theorem strip_of_free {s : List α} (h : cut M.opening s = none) : M.strip s = s := by
  rw [strip_eq, removal_of_free h]

variable {M} in
theorem outside_of_free {s : List α} (h : cut M.opening s = none) : M.outside s = s := by
  rw [outside_eq, next_of_free h]

variable {M} in
theorem sections_of_free {s : List α} (h : cut M.opening s = none) : M.sections s = 0 := by
  rw [sections_eq, next_of_free h]

theorem strip_sublist (s : List α) : (M.strip s).Sublist s := by
  fun_induction strip M s with
  | case1 s _ => exact List.Sublist.refl s
  | case2 s before rest h ih =>
      obtain ⟨m, left, between, c, left', hopen, hclose, rfl⟩ := removal_eq_some.mp h
      obtain ⟨hs, -, -⟩ := cut_eq hopen
      obtain ⟨hleft, -, -⟩ := cut_eq hclose
      have hrest : (M.behind left').Sublist (m ++ left) := by
        rw [hleft]
        exact (List.dropWhile_sublist _).trans
          ((List.sublist_append_right _ _).trans (List.sublist_append_right _ _))
      rw [hs, List.append_assoc]
      exact (List.Sublist.refl before).append (ih.trans hrest)

theorem outside_sublist (s : List α) : (M.outside s).Sublist s := by
  fun_induction outside M s with
  | case1 s _ => exact List.Sublist.refl s
  | case2 s kept closed rest h ih =>
      obtain ⟨before, m, left, between, p, left', hopen, hnext, hcases⟩ := next_eq_some.mp h
      obtain ⟨hs, -, -⟩ := cut_eq hopen
      obtain ⟨hleft, -, -⟩ := cut_eq hnext
      rcases hcases with ⟨-, rfl, -, rfl⟩ | ⟨-, rfl, -, rfl⟩
      · have hrest : (M.behind left').Sublist (m ++ left) := by
          rw [hleft]
          exact (List.dropWhile_sublist _).trans
            ((List.sublist_append_right _ _).trans (List.sublist_append_right _ _))
        rw [hs, List.append_assoc]
        exact (List.Sublist.refl _).append (ih.trans hrest)
      · rw [hs]
        exact (List.Sublist.refl _).append ih

/-! ## Removing and counting compared -/

variable {M}

/-- An opening marker is passed over in the search for a closing one. -/
theorem cut_closing_past {s before m rest : List α} (hm : m ∈ M.opening)
    (hbefore : cut M.closing before = none) (hs : s = before ++ m ++ rest) :
    cut M.closing s =
      (cut M.closing rest).map fun (between, c, rest') => (before ++ m ++ between, c, rest') := by
  have hmarker := M.opening_subset hm
  obtain ⟨body, hbody, -⟩ := M.led.led m hmarker
  have hskip := M.led.cut_skip M.closing_subset hmarker (M.other m hm) rest
  have hshape : s = before ++ M.lead :: (body ++ rest) := by
    rw [hs, hbody, List.append_assoc, List.cons_append]
  rw [hbody, List.cons_append] at hskip
  rw [hshape, M.closing_led.cut_append, hbefore]
  dsimp only
  rw [hskip, Option.map_map]
  refine congrArg (fun f => Option.map f (cut M.closing rest)) (funext fun parts => ?_)
  simp [hbody]

/-- A text without closing markers is all outside. -/
theorem outside_of_unclosed {s : List α} (h : cut M.closing s = none) : M.outside s = s := by
  fun_induction outside M s with
  | case1 s _ => rfl
  | case2 s kept closed rest hnext ih =>
      obtain ⟨before, m, left, between, p, left', hopen, hmark, hcases⟩ := next_eq_some.mp hnext
      obtain ⟨hs, hm, -⟩ := cut_eq hopen
      have hfree := M.closing_led.cut_eq_none_iff.mp h
      have hleft : cut M.closing left = none := by
        refine M.closing_led.cut_eq_none_iff.mpr ?_
        intro c hc hin
        exact hfree c hc (hin.trans (hs ▸ (List.suffix_append _ left).isInfix))
      rcases hcases with ⟨hp, -, -, -⟩ | ⟨-, rfl, -, rfl⟩
      · rw [M.led.cut_some_subset M.closing_subset hmark hp] at hleft
        cases hleft
      · rw [ih hleft, hs]

/-- What comes first is the closing marker, or an opening one in front of it. -/
theorem closing_cases {s between c rest : List α}
    (hclose : cut M.closing s = some (between, c, rest)) :
    cut M.markers s = some (between, c, rest) ∧ c ∈ M.closing ∨
      ∃ before m left between', cut M.markers s = some (before, m, left) ∧ m ∉ M.closing ∧
        cut M.closing left = some (between', c, rest) := by
  cases hmark : cut M.markers s with
  | none =>
      rw [M.led.cut_none_subset M.closing_subset hmark] at hclose
      cases hclose
  | some parts =>
      obtain ⟨before, m, left⟩ := parts
      by_cases hm : m ∈ M.closing
      · have hsame := M.led.cut_some_subset M.closing_subset hmark hm
        rw [hclose] at hsame
        cases hsame
        exact Or.inl ⟨rfl, hm⟩
      · obtain ⟨hs, hmarker, hfree⟩ := cut_eq hmark
        have hpast := cut_closing_past (mem_opening_of_markers hmarker hm)
          (M.led.cut_none_subset M.closing_subset hfree) hs
        rw [hclose] at hpast
        obtain ⟨⟨between', c', rest'⟩, hclose', heq⟩ := Option.map_eq_some_iff.mp hpast.symm
        cases heq
        exact Or.inr ⟨before, m, left, between', rfl, hm, hclose'⟩

/-- An opening marker with another behind it leaves at least what is outside
behind the next closing one. -/
theorem outside_suffix {s before m rest between c rest' : List α}
    (hmark : cut M.markers s = some (before, m, rest)) (hm : m ∉ M.closing)
    (hclose : cut M.closing rest = some (between, c, rest')) :
    M.outside (M.behind rest') <:+ M.outside s := by
  induction hlen : s.length using Nat.strong_induction_on generalizing s before m rest between with
  | _ n ih =>
      have hopening := mem_opening_of_markers (cut_eq hmark).2.1 hm
      have hopen := M.led.cut_some_subset M.opening_subset hmark hopening
      rcases closing_cases hclose with ⟨hnext, hc⟩ | ⟨_, p, left, _, hnext, hp, hclose'⟩
      · have hstep : M.next s = some (before, true, M.behind rest') :=
          next_eq_some.mpr ⟨before, m, rest, between, c, rest', hopen, hnext,
            Or.inl ⟨hc, rfl, rfl, rfl⟩⟩
        rw [M.outside_eq s, hstep]
        exact List.suffix_append _ _
      · have hstep : M.next s = some (before ++ m, false, rest) :=
          next_eq_some.mpr ⟨before, m, rest, _, p, left, hopen, hnext,
            Or.inr ⟨hp, rfl, rfl, rfl⟩⟩
        have hsuffix := ih rest.length (hlen ▸ cut_lt M.opening_subset hopen) hnext hp hclose' rfl
        rw [M.outside_eq s, hstep]
        exact hsuffix.trans (List.suffix_append _ _)

/-- **Removing keeps what is outside, or loses a marker.**  Where they differ, an
opening marker stands outside, and at least its length is lost. -/
theorem strip_eq_outside_or (s : List α) :
    M.strip s = M.outside s ∨ ∃ m ∈ M.opening, m <:+: M.outside s ∧
      (M.strip s).length + m.length ≤ (M.outside s).length := by
  fun_induction strip M s with
  | case1 s hnone =>
      left
      cases hopen : cut M.opening s with
      | none => rw [outside_of_free hopen]
      | some parts =>
          obtain ⟨before, m, left⟩ := parts
          cases hclose : cut M.closing left with
          | some parts =>
              obtain ⟨between, c, left'⟩ := parts
              have hsome := removal_eq_some.mpr ⟨m, left, between, c, left', hopen, hclose, rfl⟩
              rw [hnone] at hsome
              cases hsome
          | none =>
              rw [M.outside_eq]
              cases hnext : M.next s with
              | none => rfl
              | some parts =>
                  obtain ⟨kept, closed, rest⟩ := parts
                  obtain ⟨before', m', left₂, between, p, left', hopen', hmark, hcases⟩ :=
                    next_eq_some.mp hnext
                  rw [hopen] at hopen'
                  cases hopen'
                  rcases hcases with ⟨hp, -, -, -⟩ | ⟨-, rfl, -, rfl⟩
                  · rw [M.led.cut_some_subset M.closing_subset hmark hp] at hclose
                    cases hclose
                  · dsimp only
                    rw [outside_of_unclosed hclose, (cut_eq hopen).1]
  | case2 s before rest hsome ih =>
      obtain ⟨m, left, between, c, left', hopen, hclose, rfl⟩ := removal_eq_some.mp hsome
      have hm := (cut_eq hopen).2.1
      rcases closing_cases hclose with ⟨hmark, hc⟩ | ⟨_, p, left₂, _, hmark, hp, hclose'⟩
      · -- the section ends at the same marker for both
        have hstep : M.next s = some (before, true, M.behind left') :=
          next_eq_some.mpr ⟨before, m, left, between, c, left', hopen, hmark,
            Or.inl ⟨hc, rfl, rfl, rfl⟩⟩
        rw [M.outside_eq s, hstep]
        dsimp only
        rcases ih with heq | ⟨m', hm', hin, hlen⟩
        · exact Or.inl (congrArg (before ++ ·) heq)
        · refine Or.inr ⟨m', hm', hin.trans (List.suffix_append _ _).isInfix, ?_⟩
          rw [List.length_append, List.length_append]
          omega
      · -- an opening marker stands inside: it is kept outside, and removed
        have hstep : M.next s = some (before ++ m, false, left) :=
          next_eq_some.mpr ⟨before, m, left, _, p, left₂, hopen, hmark,
            Or.inr ⟨hp, rfl, rfl, rfl⟩⟩
        have hsuffix := (outside_suffix hmark hp hclose').length_le
        have hle : (M.strip (M.behind left')).length ≤ (M.outside (M.behind left')).length := by
          rcases ih with heq | ⟨m', -, -, hlen⟩
          · rw [heq]
          · omega
        rw [M.outside_eq s, hstep]
        dsimp only
        refine Or.inr ⟨m, hm, ⟨before, M.outside left, rfl⟩, ?_⟩
        rw [List.length_append, List.length_append, List.length_append]
        omega

end Markup

end Sections
