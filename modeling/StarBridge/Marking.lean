import Mathlib.Tactic.Linarith
import StarBridge.CText

/-!
# Marking what stands behind a pattern

A redactor makes passes over a text.  A pass looks for a pattern and puts a
marker in place of everything from there, or from behind it, to the end of the
segment; segments are the stretches between separators.  The pass goes on behind
what it has written, and the next pass starts again at the front.

Such a pass works on each segment alone (`run_append_cons`).  So it can be
followed segment by segment what all passes make of a text (`bodies_runAll`),
how much room the text takes on the way (`sizes_le_iff`), what stands behind the
patterns that are left (`behind_pattern`) and that a second time nothing changes
(`runAll_runAll`).
-/

namespace Marking

open CText

variable {α : Type*}

/-- A pattern, and whether it stays in front of the marker. -/
structure Pass (α : Type*) where
  pattern : List α
  keeps : Bool

/-- What a pass leaves of its pattern. -/
def Pass.shown (p : Pass α) : List α := if p.keeps then p.pattern else []

/-- The passes over a text, the marker, and what a segment consists of. -/
structure Redactor (α : Type*) where
  inside : α → Bool
  mark : List α
  passes : List (Pass α)
  pattern_ne : ∀ p ∈ passes, p.pattern ≠ []
  pattern_inside : ∀ p ∈ passes, ∀ c ∈ p.pattern, inside c = true
  mark_inside : ∀ c ∈ mark, inside c = true
  /-- A pattern that occurs in front of a marker ends before it. -/
  apart : ∀ p ∈ passes, ∀ kept front back : List α,
    kept ++ mark = front ++ p.pattern ++ back → front.length + p.pattern.length ≤ kept.length

variable (r : Redactor α)

/-! ## Segments -/

/-- The stretches between separators. -/
def Redactor.bodies (text : List α) : List (List α) := text.splitOnP fun c => !r.inside c

/-- A text is a segment, or a segment, a separator and a text. -/
theorem Redactor.segment_induction {P : List α → Prop}
    (last : ∀ body, (∀ c ∈ body, r.inside c = true) → P body)
    (more : ∀ body sep rest, (∀ c ∈ body, r.inside c = true) → r.inside sep = false →
      P rest → P (body ++ sep :: rest)) (text : List α) : P text := by
  have hfront : ∀ (n : Nat) (text : List α), text.length ≤ n → P text := by
    intro n
    induction n with
    | zero =>
        intro text hn
        obtain rfl := List.length_eq_zero_iff.mp (Nat.le_zero.mp hn)
        exact last [] (by simp)
    | succ n ih =>
        intro text hn
        have hbody : ∀ c ∈ text.takeWhile r.inside, r.inside c = true :=
          fun c hc => List.mem_takeWhile_imp hc
        have hcut := List.takeWhile_append_dropWhile (p := r.inside) (l := text)
        match hdrop : text.dropWhile r.inside with
        | [] =>
            rw [hdrop, List.append_nil] at hcut
            exact hcut ▸ last _ hbody
        | sep :: rest =>
            have hsep : r.inside sep = false := by
              have hhead := List.head_dropWhile_not r.inside (l := text) (by simp [hdrop])
              simpa [hdrop] using hhead
            rw [hdrop] at hcut
            have hlen := congrArg List.length hcut
            simp only [List.length_append, List.length_cons] at hlen
            rw [← hcut]
            exact more _ sep rest hbody hsep (ih rest (by omega))
  exact hfront text.length text (Nat.le_refl _)

theorem Redactor.bodies_of_inside {body : List α} (h : ∀ c ∈ body, r.inside c = true) :
    r.bodies body = [body] :=
  List.splitOnP_eq_singleton fun c hc => by simp [h c hc]

theorem Redactor.bodies_append_cons {body : List α} (h : ∀ c ∈ body, r.inside c = true)
    {sep : α} (hsep : r.inside sep = false) (rest : List α) :
    r.bodies (body ++ sep :: rest) = body :: r.bodies rest :=
  List.splitOnP_append_cons_of_forall_mem (fun c hc => by simp [h c hc]) sep
    (by simp [hsep]) rest

/-- Every segment and the separator or terminator behind it. -/
def room (sizes : List Nat) : Nat := (sizes.map (· + 1)).sum

@[simp] theorem room_cons (x : Nat) (xs : List Nat) : room (x :: xs) = x + 1 + room xs := by
  simp [room]

@[simp] theorem room_nil : room [] = 0 := rfl

/-- A text takes the room of its segments. -/
theorem Redactor.room_bodies (text : List α) :
    room ((r.bodies text).map List.length) = text.length + 1 := by
  induction text using r.segment_induction with
  | last body h => simp [r.bodies_of_inside h]
  | more body sep rest h hsep ih =>
      rw [r.bodies_append_cons h hsep, List.map_cons, room_cons, ih, List.length_append,
        List.length_cons]
      omega

/-- An occurrence of a pattern without separators lies in one segment. -/
theorem Redactor.occurrence_in_body {pattern : List α}
    (hin : ∀ c ∈ pattern, r.inside c = true) (text : List α) {front back : List α}
    (h : text = front ++ pattern ++ back) :
    ∃ front' back' rest, front' ++ pattern ++ back' ∈ r.bodies text ∧ back = back' ++ rest ∧
      ∀ c ∈ rest.head?, r.inside c = false := by
  induction text using r.segment_induction generalizing front with
  | last body hbody =>
      refine ⟨front, back, [], ?_, (List.append_nil _).symm, by simp⟩
      rw [r.bodies_of_inside hbody, h]
      exact List.mem_singleton.mpr rfl
  | more body sep rest hbody hsep ih =>
      rw [r.bodies_append_cons hbody hsep]
      have hnot : sep ∉ pattern := fun hmem => by
        rw [hin sep hmem] at hsep
        cases hsep
      rcases List.append_eq_append_iff.mp h with ⟨front', hfront, hrest⟩ | ⟨back', hbody', hback⟩
      · -- the separator stands in front of what follows the segment
        cases front' with
        | nil =>
            rw [List.append_nil] at hfront
            refine ⟨front, [], sep :: rest, ?_, hrest.symm, by simpa using hsep⟩
            rw [List.append_nil, hfront]
            exact List.mem_cons_self
        | cons c front' =>
            rw [List.cons_append] at hrest
            obtain ⟨rfl, hrest'⟩ := List.cons.inj hrest
            rcases List.append_eq_append_iff.mp hfront with
              ⟨early, hearly, hlate⟩ | ⟨early, hearly, hlate⟩
            · exact absurd (hlate ▸ List.mem_append_right _ List.mem_cons_self) hnot
            · cases early with
              | nil =>
                  rw [List.nil_append] at hlate
                  exact absurd (hlate ▸ List.mem_cons_self) hnot
              | cons d early =>
                  rw [List.cons_append] at hlate
                  obtain ⟨rfl, hlate'⟩ := List.cons.inj hlate
                  obtain ⟨before', back', later, hmem, hback, hend⟩ :=
                    ih (show rest = early ++ pattern ++ back by rw [hrest', hlate'])
                  exact ⟨before', back', later, List.mem_cons_of_mem _ hmem, hback, hend⟩
      · refine ⟨front, back', sep :: rest, ?_, hback, by simpa using hsep⟩
        rw [hbody']
        exact List.mem_cons_self

/-! ## What passes leave of a segment -/

/-- What passes leave of a segment in front of the marker, and whether there is
one. -/
structure Cut (α : Type*) where
  kept : List α
  marked : Bool

/-- The segment that is left. -/
def Redactor.left (s : Cut α) : List α := if s.marked then s.kept ++ r.mark else s.kept

/-- A pattern is left only where it stays in front of the marker. -/
def Cut.Settled (p : Pass α) (s : Cut α) : Prop :=
  ∀ front back, s.kept = front ++ p.pattern ++ back →
    p.keeps = true ∧ s.marked = true ∧ back = []

/-- Behind a pattern that is left in a segment stands the marker, and it ends the
segment. -/
theorem Redactor.left_settled {p : Pass α} (hp : p ∈ r.passes) {s : Cut α} (h : s.Settled p)
    {front back : List α} (hcut : r.left s = front ++ p.pattern ++ back) :
    p.keeps = true ∧ back = r.mark := by
  unfold left at hcut
  by_cases hmarked : s.marked = true
  · rw [if_pos hmarked] at hcut
    have hfit := r.apart p hp s.kept front back hcut
    obtain ⟨back', hback'⟩ : front ++ p.pattern <+: s.kept := by
      refine List.prefix_of_prefix_length_le ⟨back, hcut.symm⟩ (List.prefix_append _ r.mark) ?_
      rwa [List.length_append]
    obtain ⟨hkeeps, -, rfl⟩ := h front back' hback'.symm
    rw [List.append_nil] at hback'
    rw [← hback'] at hcut
    exact ⟨hkeeps, (List.append_cancel_left hcut).symm⟩
  · rw [if_neg hmarked] at hcut
    exact absurd (h front back hcut).2.1 hmarked

/-- A marker whose first element is in no pattern shows nothing of one. -/
theorem apart_of_opener {opener : α} {behind pattern : List α} (hnot : opener ∉ pattern)
    (hbehind : ¬ pattern <:+: behind) {kept front back : List α}
    (h : kept ++ opener :: behind = front ++ pattern ++ back) :
    front.length + pattern.length ≤ kept.length := by
  by_contra hlong
  rcases List.append_eq_append_iff.mp h with ⟨more, hmore, hback⟩ | ⟨more, hmore, hback⟩
  · cases more with
    | nil =>
        have hlen := congrArg List.length hmore
        simp only [List.length_append, List.length_nil] at hlen
        omega
    | cons c more =>
        rw [List.cons_append] at hback
        obtain ⟨rfl, hback'⟩ := List.cons.inj hback
        -- the opener stands in the pattern or in front of it
        rcases List.append_eq_append_iff.mp hmore with ⟨early, -, hearly⟩ | ⟨early, -, hearly⟩
        · exact hnot (hearly ▸ List.mem_append_right early List.mem_cons_self)
        · cases early with
          | nil => exact hnot (by rw [← List.nil_append pattern, ← hearly]; exact List.mem_cons_self)
          | cons d early =>
              rw [List.cons_append] at hearly
              obtain ⟨rfl, hinside⟩ := List.cons.inj hearly
              exact hbehind ⟨early, back, by rw [hback', hinside]⟩
  · have hlen := congrArg List.length hmore
    simp only [List.length_append] at hlen
    omega

/-! ## Passes -/

theorem Redactor.sep_not_mem {p : Pass α} (hp : p ∈ r.passes) {sep : α}
    (hsep : r.inside sep = false) : sep ∉ p.pattern :=
  fun hmem => by
    rw [r.pattern_inside p hp sep hmem] at hsep
    cases hsep

variable [DecidableEq α]

/-- The first replacement of a pass: the text up to behind the marker, and the
rest. -/
def Redactor.step (p : Pass α) (text : List α) : Option (List α × List α) :=
  (after p.pattern text).map fun rest =>
    (before p.pattern text ++ p.shown ++ r.mark, rest.dropWhile r.inside)

/-- One pass, for as many occurrences as it has fuel. -/
def Redactor.runFrom (p : Pass α) : Nat → List α → List α
  | 0, text => text
  | fuel + 1, text =>
      match r.step p text with
      | none => text
      | some (front, tail) => front ++ Redactor.runFrom p fuel tail

/-- The room the text takes after each replacement of a pass, its terminator
counted.  The text starts behind `offset` others. -/
def Redactor.sizesFrom (p : Pass α) : Nat → Nat → List α → List Nat
  | 0, _, _ => []
  | fuel + 1, offset, text =>
      match r.step p text with
      | none => []
      | some (front, tail) =>
          (offset + front.length + tail.length + 1) ::
            Redactor.sizesFrom p fuel (offset + front.length) tail

/-- One pass. -/
def Redactor.run (p : Pass α) (text : List α) : List α := r.runFrom p text.length text

/-- The room a pass takes. -/
def Redactor.sizes (p : Pass α) (offset : Nat) (text : List α) : List Nat :=
  r.sizesFrom p text.length offset text

/-- Some passes in turn. -/
def Redactor.runAll (ps : List (Pass α)) (text : List α) : List α :=
  ps.foldl (fun text p => r.run p text) text

/-- The room that some passes take in turn. -/
def Redactor.sizesAll : List (Pass α) → List α → List Nat
  | [], _ => []
  | p :: ps, text => r.sizes p 0 text ++ Redactor.sizesAll ps (r.run p text)

/-- A pass on one segment. -/
def Redactor.markBody (p : Pass α) (body : List α) : List α :=
  if occurs p.pattern body then before p.pattern body ++ p.shown ++ r.mark else body

/-! ## The steps of a pass -/

/-- A replacement leaves less to look at. -/
theorem Redactor.step_length {p : Pass α} (hne : p.pattern ≠ []) {text front tail : List α}
    (h : r.step p text = some (front, tail)) : tail.length < text.length := by
  obtain ⟨rest, hafter, hstep⟩ := Option.map_eq_some_iff.mp h
  obtain ⟨-, rfl⟩ := Prod.mk.inj hstep
  have hcut := congrArg List.length (before_append_after hafter)
  have hpos := List.length_pos_of_ne_nil hne
  have hle := (List.dropWhile_sublist (p := r.inside) (l := rest)).length_le
  simp only [List.length_append] at hcut
  omega

/-- More fuel than elements makes no difference. -/
theorem Redactor.runFrom_fuel {p : Pass α} (hne : p.pattern ≠ []) {n m : Nat} {text : List α}
    (hn : text.length ≤ n) (hm : text.length ≤ m) : r.runFrom p n text = r.runFrom p m text := by
  have hzero : ∀ {k : Nat}, r.runFrom p k [] = [] := fun {k} => by
    cases k with
    | zero => rfl
    | succ k =>
        have hnone : r.step p [] = none := by rw [step, after, if_neg hne]; rfl
        rw [runFrom, hnone]
  induction n generalizing m text with
  | zero =>
      obtain rfl := List.length_eq_zero_iff.mp (Nat.le_zero.mp hn)
      rw [hzero, hzero]
  | succ n ih =>
      cases m with
      | zero =>
          obtain rfl := List.length_eq_zero_iff.mp (Nat.le_zero.mp hm)
          rw [hzero, hzero]
      | succ m =>
          rw [runFrom, runFrom]
          cases hstep : r.step p text with
          | none => rfl
          | some cut =>
              have hlt := r.step_length hne hstep
              dsimp only
              rw [ih (m := m) (by omega) (by omega)]

theorem Redactor.sizesFrom_fuel {p : Pass α} (hne : p.pattern ≠ []) {n m offset : Nat}
    {text : List α} (hn : text.length ≤ n) (hm : text.length ≤ m) :
    r.sizesFrom p n offset text = r.sizesFrom p m offset text := by
  have hzero : ∀ {k offset : Nat}, r.sizesFrom p k offset [] = [] := fun {k offset} => by
    cases k with
    | zero => rfl
    | succ k =>
        have hnone : r.step p [] = none := by rw [step, after, if_neg hne]; rfl
        rw [sizesFrom, hnone]
  induction n generalizing m offset text with
  | zero =>
      obtain rfl := List.length_eq_zero_iff.mp (Nat.le_zero.mp hn)
      rw [hzero, hzero]
  | succ n ih =>
      cases m with
      | zero =>
          obtain rfl := List.length_eq_zero_iff.mp (Nat.le_zero.mp hm)
          rw [hzero, hzero]
      | succ m =>
          rw [sizesFrom, sizesFrom]
          cases hstep : r.step p text with
          | none => rfl
          | some cut =>
              have hlt := r.step_length hne hstep
              dsimp only
              rw [ih (m := m) (by omega) (by omega)]

/-- A pass without anything to replace. -/
theorem Redactor.run_of_none {p : Pass α} {text : List α} (h : r.step p text = none) :
    r.run p text = text ∧ ∀ offset, r.sizes p offset text = [] := by
  unfold run sizes
  cases text with
  | nil => exact ⟨rfl, fun _ => rfl⟩
  | cons c text => simp [runFrom, sizesFrom, h]

/-- A pass that replaces something goes on behind it. -/
theorem Redactor.run_of_some {p : Pass α} (hne : p.pattern ≠ []) {text front tail : List α}
    (h : r.step p text = some (front, tail)) :
    r.run p text = front ++ r.run p tail ∧
      ∀ offset, r.sizes p offset text =
        (offset + front.length + tail.length + 1) ::
          r.sizes p (offset + front.length) tail := by
  have hlt := r.step_length hne h
  obtain ⟨n, hn⟩ := Nat.exists_eq_add_of_lt hlt
  unfold run sizes
  rw [hn, runFrom, h]
  refine ⟨?_, fun offset => ?_⟩
  · dsimp only
    rw [r.runFrom_fuel hne (Nat.le_add_right _ _) (Nat.le_refl _)]
  · rw [sizesFrom, h]
    dsimp only
    rw [r.sizesFrom_fuel hne (Nat.le_add_right _ _) (Nat.le_refl _)]

/-- Where a segment holds the pattern, the step replaces the rest of it. -/
theorem Redactor.step_of_occurs {p : Pass α} {body : List α}
    (hbody : ∀ c ∈ body, r.inside c = true) (h : occurs p.pattern body = true) :
    r.step p body = some (r.markBody p body, []) ∧
      ∀ {sep : α}, r.inside sep = false → ∀ rest,
        r.step p (body ++ sep :: rest) = some (r.markBody p body, sep :: rest) := by
  obtain ⟨back, hback⟩ := Option.isSome_iff_exists.mp h
  have hin : ∀ c ∈ back, r.inside c = true := fun c hc => hbody c (by
    rw [← before_append_after hback]
    exact List.mem_append_right _ hc)
  have hdrop : back.dropWhile r.inside = [] := List.dropWhile_eq_nil_iff.mpr hin
  refine ⟨?_, fun {sep} hsep rest => ?_⟩
  · rw [step, hback, Option.map_some, hdrop, markBody, if_pos h]
  · rw [step, after_append hback, Option.map_some, dropWhile_stop hsep, hdrop, markBody,
      if_pos h, before_append h, List.nil_append]

/-- Where it does not, the step passes over it. -/
theorem Redactor.step_of_not_occurs {p : Pass α} {body : List α}
    (h : occurs p.pattern body = false) :
    r.step p body = none ∧
      ∀ {sep : α}, sep ∉ p.pattern → ∀ rest,
        r.step p (body ++ sep :: rest) =
          (r.step p rest).map fun cut => (body ++ sep :: cut.1, cut.2) := by
  refine ⟨?_, fun {sep} hsep rest => ?_⟩
  · rw [step, Option.not_isSome_iff_eq_none.mp (Bool.eq_false_iff.mp h)]
    rfl
  · rw [step, (skip_append_cons hsep h _).1, (skip_append_cons hsep h _).2, step, Option.map_map]
    congr 1
    funext tail
    simp

/-! ## A pass works on each segment alone -/

section

variable {p : Pass α} (hp : p ∈ r.passes)

include hp

theorem Redactor.run_of_inside {body : List α} (hbody : ∀ c ∈ body, r.inside c = true) :
    r.run p body = r.markBody p body ∧
      ∀ offset, r.sizes p offset body =
        if occurs p.pattern body then [offset + (r.markBody p body).length + 1] else [] := by
  by_cases h : occurs p.pattern body = true
  · obtain ⟨hrun, hsizes⟩ := r.run_of_some (r.pattern_ne p hp) (r.step_of_occurs hbody h).1
    exact ⟨hrun.trans (List.append_nil _), fun offset => by rw [hsizes, if_pos h]; rfl⟩
  · have hnot := Bool.eq_false_iff.mpr h
    obtain ⟨hrun, hsizes⟩ := r.run_of_none (r.step_of_not_occurs (p := p) hnot).1
    exact ⟨by rw [hrun, markBody, if_neg h], fun offset => by rw [hsizes, if_neg h]⟩

/-- A segment without the pattern is passed over. -/
theorem Redactor.run_skip {body : List α} (h : occurs p.pattern body = false) {sep : α}
    (hsep : r.inside sep = false) (rest : List α) :
    r.run p (body ++ sep :: rest) = body ++ sep :: r.run p rest ∧
      ∀ offset, r.sizes p offset (body ++ sep :: rest) =
        r.sizes p (offset + body.length + 1) rest := by
  have hskip := (r.step_of_not_occurs h).2 (r.sep_not_mem hp hsep) rest
  cases hstep : r.step p rest with
  | none =>
      rw [hstep] at hskip
      obtain ⟨hrun, hsizes⟩ := r.run_of_none hskip
      obtain ⟨hrun', hsizes'⟩ := r.run_of_none hstep
      exact ⟨by rw [hrun, hrun'], fun offset => by rw [hsizes, hsizes']⟩
  | some cut =>
      rw [hstep] at hskip
      obtain ⟨hrun, hsizes⟩ := r.run_of_some (r.pattern_ne p hp) hskip
      obtain ⟨hrun', hsizes'⟩ := r.run_of_some (r.pattern_ne p hp) hstep
      refine ⟨by rw [hrun, hrun', List.append_assoc]; rfl, fun offset => ?_⟩
      have hoffset : offset + (body ++ sep :: cut.1).length =
          offset + body.length + 1 + cut.1.length := by
        rw [List.length_append, List.length_cons]
        omega
      rw [hsizes, hsizes', hoffset]

/-- **A pass works on each segment alone.** -/
theorem Redactor.run_append_cons {body : List α} (hbody : ∀ c ∈ body, r.inside c = true)
    {sep : α} (hsep : r.inside sep = false) (rest : List α) :
    r.run p (body ++ sep :: rest) = r.markBody p body ++ sep :: r.run p rest ∧
      ∀ offset, r.sizes p offset (body ++ sep :: rest) =
        (if occurs p.pattern body then
            [offset + (r.markBody p body).length + 1 + (rest.length + 1)] else []) ++
          r.sizes p (offset + (r.markBody p body).length + 1) rest := by
  by_cases h : occurs p.pattern body = true
  · have hne := r.pattern_ne p hp
    obtain ⟨hrun, hsizes⟩ := r.run_of_some hne ((r.step_of_occurs hbody h).2 hsep rest)
    have hempty : occurs p.pattern [] = false := by rw [occurs, after, if_neg hne]; rfl
    obtain ⟨hrun', hsizes'⟩ := r.run_skip hp hempty hsep rest
    rw [List.nil_append] at hrun' hsizes'
    refine ⟨by rw [hrun, hrun']; rfl, fun offset => ?_⟩
    rw [hsizes, hsizes', if_pos h, List.length_cons, List.singleton_append, List.length_nil]
    congr 1
    omega
  · obtain ⟨hrun, hsizes⟩ := r.run_skip hp (Bool.eq_false_iff.mpr h) hsep rest
    refine ⟨by rw [hrun, markBody, if_neg h], fun offset => ?_⟩
    rw [hsizes, if_neg h, markBody, if_neg h, List.nil_append]

end

/-! ## Segments under passes -/

/-- A pass looks at what stands in front of the marker. -/
def Pass.cut (p : Pass α) (s : Cut α) : Cut α :=
  if occurs p.pattern s.kept then ⟨before p.pattern s.kept ++ p.shown, true⟩ else s

/-- What some passes leave of a segment. -/
def cutBy (ps : List (Pass α)) (body : List α) : Cut α :=
  ps.foldl (fun s p => p.cut s) ⟨body, false⟩

/-- The length of a segment after the first `i` passes: as far as it is kept,
and the marker. -/
def Redactor.size (i : Nat) (body : List α) : Nat :=
  let s := cutBy (r.passes.take i) body
  s.kept.length + if s.marked then r.mark.length else 0

/-- At no pass and after no segment does the text outgrow `n` elements. -/
def Redactor.Fits (n : Nat) (text : List α) : Prop :=
  ∀ i < r.passes.length, ∀ j ≤ (r.bodies text).length,
    room (((r.bodies text).take j).map (r.size (i + 1)) ++
      ((r.bodies text).drop j).map (r.size i)) ≤ n

instance (n : Nat) (text : List α) : Decidable (r.Fits n text) :=
  inferInstanceAs (Decidable (∀ i < _, ∀ j ≤ _, _ ≤ n))

theorem Redactor.length_left (i : Nat) (body : List α) :
    (r.left (cutBy (r.passes.take i) body)).length = r.size i body := by
  unfold left size
  split <;> simp [*]

theorem Redactor.markBody_inside {p : Pass α} {body : List α} (hp : p ∈ r.passes)
    (hbody : ∀ c ∈ body, r.inside c = true) : ∀ c ∈ r.markBody p body, r.inside c = true := by
  intro c hc
  unfold markBody at hc
  split at hc
  · rw [List.mem_append, List.mem_append] at hc
    rcases hc with (hc | hc) | hc
    · exact hbody c ((before_isFront _ _).subset hc)
    · unfold Pass.shown at hc
      split at hc
      · exact r.pattern_inside p hp c hc
      · cases hc
    · exact r.mark_inside c hc
  · exact hbody c hc

/-- A pass does not touch the separators. -/
theorem Redactor.bodies_run {p : Pass α} (hp : p ∈ r.passes) (text : List α) :
    r.bodies (r.run p text) = (r.bodies text).map (r.markBody p) := by
  induction text using r.segment_induction with
  | last body hbody =>
      rw [(r.run_of_inside hp hbody).1, r.bodies_of_inside hbody,
        r.bodies_of_inside (r.markBody_inside hp hbody), List.map_singleton]
  | more body sep rest hbody hsep ih =>
      rw [(r.run_append_cons hp hbody hsep rest).1, r.bodies_append_cons hbody hsep,
        r.bodies_append_cons (r.markBody_inside hp hbody) hsep, ih, List.map_cons]

/-- The marker hides nothing from a pass and shows it nothing. -/
theorem Redactor.markBody_left {p : Pass α} (hp : p ∈ r.passes) (s : Cut α) :
    r.markBody p (r.left s) = r.left (p.cut s) := by
  by_cases hmarked : s.marked = true
  · by_cases h : occurs p.pattern s.kept = true
    · have hlonger : occurs p.pattern (s.kept ++ r.mark) = true := by
        obtain ⟨back, hback⟩ := Option.isSome_iff_exists.mp h
        rw [occurs, after_append hback]
        rfl
      rw [left, if_pos hmarked, markBody, if_pos hlonger, before_append h, Pass.cut, if_pos h,
        left, if_pos rfl]
    · have hnot : ¬ occurs p.pattern (s.kept ++ r.mark) = true := fun hlonger => by
        obtain ⟨front, back, hcut⟩ := (occurs_iff _ _).mp hlonger
        have hfit := r.apart p hp s.kept front back hcut.symm
        have hfront : front ++ p.pattern <+: s.kept := by
          refine List.prefix_of_prefix_length_le ⟨back, hcut⟩ (List.prefix_append _ r.mark) ?_
          rwa [List.length_append]
        exact h ((occurs_iff _ _).mpr ((List.suffix_append front p.pattern).isInfix.trans
          hfront.isInfix))
      rw [left, if_pos hmarked, markBody, if_neg hnot, Pass.cut, if_neg h, left, if_pos hmarked]
  · rw [left, if_neg hmarked, markBody, Pass.cut]
    by_cases h : occurs p.pattern s.kept = true
    · rw [if_pos h, if_pos h, left, if_pos rfl]
    · rw [if_neg h, if_neg h, left, if_neg hmarked]

/-- What some passes make of the segments. -/
theorem Redactor.bodies_runAll {ps : List (Pass α)} (hps : ∀ p ∈ ps, p ∈ r.passes)
    (text : List α) :
    r.bodies (r.runAll ps text) = (r.bodies text).map fun body => r.left (cutBy ps body) := by
  induction ps using List.reverseRecOn with
  | nil => exact (List.map_id _).symm
  | append_singleton ps p ih =>
      have hp : p ∈ r.passes := hps p (by simp)
      have hrun : r.runAll (ps ++ [p]) text = r.run p (r.runAll ps text) := by
        simp [runAll]
      rw [hrun, r.bodies_run hp, ih fun q hq => hps q (List.mem_append_left _ hq), List.map_map]
      refine List.map_congr_left fun body _ => ?_
      rw [Function.comp_apply, r.markBody_left hp]
      simp [cutBy]

/-! ## The room on the way -/

/-- The lengths of the segments when a pass has gone over the first `j`. -/
def Redactor.partly (p : Pass α) (bodies : List (List α)) (j : Nat) : List Nat :=
  ((bodies.take j).map fun body => (r.markBody p body).length) ++
    (bodies.drop j).map List.length

/-- One pass stays within `n` elements exactly when the text does after each
segment. -/
theorem Redactor.sizes_le_iff {p : Pass α} (hp : p ∈ r.passes) {n : Nat} (text : List α)
    {offset : Nat} (hfit : offset + text.length + 1 ≤ n) :
    (∀ w ∈ r.sizes p offset text, w ≤ n) ↔
      ∀ j ≤ (r.bodies text).length, offset + room (r.partly p (r.bodies text) j) ≤ n := by
  have hstart : ∀ bodies : List (List α), r.partly p bodies 0 = bodies.map List.length :=
    fun bodies => by simp [partly]
  induction text using r.segment_induction generalizing offset with
  | last body hbody =>
      have hwhole : r.partly p [body] 1 = [(r.markBody p body).length] := by simp [partly]
      rw [(r.run_of_inside hp hbody).2, r.bodies_of_inside hbody]
      constructor
      · intro h j hj
        rcases Nat.le_one_iff_eq_zero_or_eq_one.mp hj with rfl | rfl
        · simp [hstart]
          omega
        · rw [hwhole, room_cons, room_nil]
          by_cases hoccurs : occurs p.pattern body = true
          · rw [if_pos hoccurs] at h
            have hw := h _ (List.mem_singleton.mpr rfl)
            omega
          · rw [markBody, if_neg hoccurs]
            omega
      · intro h w hw
        have hend := h 1 (Nat.le_refl 1)
        rw [hwhole, room_cons, room_nil] at hend
        split at hw
        · rw [List.mem_singleton.mp hw]
          omega
        · cases hw
  | more body sep rest hbody hsep ih =>
      have hlength : (body ++ sep :: rest).length = body.length + 1 + rest.length := by
        rw [List.length_append, List.length_cons]
        omega
      have hstep : ∀ j, room (r.partly p (body :: r.bodies rest) (j + 1)) =
          (r.markBody p body).length + 1 + room (r.partly p (r.bodies rest) j) := fun j => by
        simp [partly]
      have hzero : room (r.partly p (r.bodies rest) 0) = rest.length + 1 := by
        rw [hstart, r.room_bodies]
      rw [(r.run_append_cons hp hbody hsep rest).2, r.bodies_append_cons hbody hsep]
      -- the text when the pass has gone over the first segment
      have hnext : (∀ w ∈ (if occurs p.pattern body then
            [offset + (r.markBody p body).length + 1 + (rest.length + 1)] else []), w ≤ n) ↔
          offset + (r.markBody p body).length + 1 + rest.length + 1 ≤ n := by
        by_cases hoccurs : occurs p.pattern body = true
        · rw [if_pos hoccurs, List.forall_mem_singleton]
          omega
        · rw [if_neg hoccurs, markBody, if_neg hoccurs]
          exact iff_of_true (fun w hw => by cases hw) (by omega)
      rw [List.forall_mem_append, hnext]
      constructor
      · rintro ⟨hfirst, hrest⟩ j hj
        cases j with
        | zero =>
            rw [hstart, List.map_cons, room_cons, r.room_bodies]
            omega
        | succ j =>
            have hj' := (ih hfirst).mp hrest j (by simpa using hj)
            rw [hstep]
            omega
      · intro h
        have hfirst := h 1 (by simp)
        rw [hstep, hzero] at hfirst
        have hfit' : offset + (r.markBody p body).length + 1 + rest.length + 1 ≤ n := by omega
        refine ⟨hfit', (ih hfit').mpr fun j hj => ?_⟩
        have hj' := h (j + 1) (by simpa using hj)
        rw [hstep] at hj'
        omega

/-- The same for the passes behind some others. -/
theorem Redactor.sizesAll_le_iff {n : Nat} (text : List α) (done todo : List (Pass α))
    (hpasses : r.passes = done ++ todo) (hfit : (r.runAll done text).length + 1 ≤ n) :
    (∀ w ∈ r.sizesAll todo (r.runAll done text), w ≤ n) ↔
      ∀ i, done.length ≤ i → i < r.passes.length → ∀ j ≤ (r.bodies text).length,
        room (((r.bodies text).take j).map (r.size (i + 1)) ++
          ((r.bodies text).drop j).map (r.size i)) ≤ n := by
  induction todo generalizing done with
  | nil =>
      rw [hpasses, List.append_nil]
      exact iff_of_true (fun w hw => by cases hw) fun i hle hlt => by omega
  | cons p todo ih =>
      have hp : p ∈ r.passes := by rw [hpasses]; simp
      have hdone : ∀ q ∈ done, q ∈ r.passes := fun q hq => by rw [hpasses]; simp [hq]
      have htake : r.passes.take done.length = done := by rw [hpasses]; simp
      have htake' : r.passes.take (done.length + 1) = done ++ [p] := by
        rw [hpasses, List.take_length_add_append]
        rfl
      have hrun : r.run p (r.runAll done text) = r.runAll (done ++ [p]) text := by
        simp [runAll]
      -- the lengths of the segments while `p` runs, in terms of the text given
      have hpartly : ∀ j, r.partly p (r.bodies (r.runAll done text)) j =
          ((r.bodies text).take j).map (r.size (done.length + 1)) ++
            ((r.bodies text).drop j).map (r.size done.length) := by
        intro j
        rw [partly, r.bodies_runAll hdone, ← List.map_take, ← List.map_drop, List.map_map,
          List.map_map]
        congr 1
        · refine List.map_congr_left fun body _ => ?_
          rw [Function.comp_apply, r.markBody_left hp, ← r.length_left, htake']
          simp [cutBy]
        · refine List.map_congr_left fun body _ => ?_
          rw [Function.comp_apply, ← r.length_left, htake]
      have hcount : (r.bodies (r.runAll done text)).length = (r.bodies text).length := by
        rw [r.bodies_runAll hdone, List.length_map]
      have hone : (∀ w ∈ r.sizes p 0 (r.runAll done text), w ≤ n) ↔ _ :=
        r.sizes_le_iff hp (r.runAll done text) (by rw [Nat.zero_add]; exact hfit)
      rw [hcount] at hone
      simp only [hpartly, Nat.zero_add] at hone
      have hlast : r.partly p (r.bodies (r.runAll done text)) (r.bodies text).length =
          (r.bodies (r.run p (r.runAll done text))).map List.length := by
        rw [← hcount, partly, List.take_length, List.drop_length, List.map_nil, List.append_nil,
          r.bodies_run hp, List.map_map]
        rfl
      rw [sizesAll, List.forall_mem_append, hone, hrun]
      constructor
      · rintro ⟨hfirst, hrest⟩ i hle hlt
        rcases Nat.eq_or_lt_of_le hle with rfl | hlater
        · exact hfirst
        · have hend := hfirst _ (Nat.le_refl _)
          rw [← hpartly, hlast, r.room_bodies, hrun] at hend
          refine (ih (done ++ [p]) (by rw [hpasses]; simp) hend).mp hrest i ?_ hlt
          rw [List.length_append, List.length_singleton]
          exact hlater
      · intro h
        have hlt : done.length < r.passes.length := by
          rw [hpasses, List.length_append, List.length_cons]
          omega
        have hfirst := h done.length (Nat.le_refl _) hlt
        have hend := hfirst _ (Nat.le_refl _)
        rw [← hpartly, hlast, r.room_bodies, hrun] at hend
        refine ⟨hfirst, (ih (done ++ [p]) (by rw [hpasses]; simp) hend).mpr ?_⟩
        intro i hle
        refine h i ?_
        rw [List.length_append, List.length_singleton] at hle
        omega

/-- **The room on the way.**  All passes stay within `n` elements exactly when
the text fits. -/
theorem Redactor.sizesAll_le_iff_fits {n : Nat} {text : List α} (hfit : text.length + 1 ≤ n) :
    (∀ w ∈ r.sizesAll r.passes text, w ≤ n) ↔ r.Fits n text := by
  refine (r.sizesAll_le_iff text [] r.passes rfl hfit).trans ?_
  exact ⟨fun h i hlt => h i (Nat.zero_le i) hlt, fun h i _ hlt => h i hlt⟩

/-! ## What is left behind a pattern -/

/-- A pass settles its own pattern. -/
theorem Pass.cut_settled {p : Pass α} (hne : p.pattern ≠ []) (s : Cut α) :
    (p.cut s).Settled p := by
  intro front back hcut
  unfold cut at hcut ⊢
  by_cases h : occurs p.pattern s.kept = true
  · rw [if_pos h] at hcut ⊢
    obtain ⟨rest, hrest⟩ := Option.isSome_iff_exists.mp h
    have hkept := before_append_after hrest
    have hpos := List.length_pos_of_ne_nil hne
    by_cases hkeeps : p.keeps = true
    · have hshown : p.shown = p.pattern := by rw [Pass.shown, if_pos hkeeps]
      rw [hshown] at hcut
      have hearly := length_before_le
        (show s.kept = front ++ p.pattern ++ (back ++ rest) by
          rw [← hkept, ← List.append_assoc, ← hcut])
      have hlen := congrArg List.length hcut
      simp only [List.length_append] at hlen
      exact ⟨hkeeps, rfl, List.length_eq_zero_iff.mp (by omega)⟩
    · have hshown : p.shown = [] := by rw [Pass.shown, if_neg hkeeps]
      rw [hshown, List.append_nil] at hcut
      have hearly := length_before_le
        (show s.kept = front ++ p.pattern ++ (back ++ (p.pattern ++ rest)) by
          rw [← List.append_assoc, ← hcut, ← List.append_assoc, hkept])
      have hlen := congrArg List.length hcut
      simp only [List.length_append] at hlen
      omega
  · rw [if_neg h] at hcut
    exact absurd ((occurs_iff _ _).mpr ⟨front, back, hcut.symm⟩) h

/-- A later pass leaves a beginning of what was kept. -/
theorem Cut.Settled.cut {p q : Pass α} {s : Cut α} (h : s.Settled p) : (q.cut s).Settled p := by
  intro front back hcut
  unfold Pass.cut at hcut ⊢
  by_cases hq : occurs q.pattern s.kept = true
  · rw [if_pos hq] at hcut ⊢
    obtain ⟨rest, hrest⟩ := Option.isSome_iff_exists.mp hq
    have hkept := before_append_after hrest
    obtain ⟨more, hmore⟩ : ∃ more, s.kept = before q.pattern s.kept ++ q.shown ++ more := by
      unfold Pass.shown
      split
      · exact ⟨rest, hkept.symm⟩
      · exact ⟨q.pattern ++ rest, by rw [List.append_nil, ← List.append_assoc, hkept]⟩
    dsimp only at hcut
    rw [hcut, List.append_assoc] at hmore
    obtain ⟨hkeeps, -, hback⟩ := h front (back ++ more) hmore
    exact ⟨hkeeps, rfl, (List.append_eq_nil_iff.mp hback).1⟩
  · rw [if_neg hq] at hcut ⊢
    exact h front back hcut

/-- All passes settle the patterns of all. -/
theorem cutBy_settled {ps : List (Pass α)} (hne : ∀ p ∈ ps, p.pattern ≠ []) (body : List α) :
    ∀ p ∈ ps, (cutBy ps body).Settled p := by
  induction ps using List.reverseRecOn with
  | nil => intro p hp; cases hp
  | append_singleton ps q ih =>
      have hlast : cutBy (ps ++ [q]) body = q.cut (cutBy ps body) := by simp [cutBy]
      intro p hp
      rw [hlast]
      rcases List.mem_append.mp hp with hmem | hmem
      · exact (ih (fun p' hp' => hne p' (List.mem_append_left _ hp')) p hmem).cut
      · rw [List.mem_singleton.mp hmem]
        exact q.cut_settled (hne q (by simp)) _

/-- **Behind every pattern that is left stands the marker**, and then a
separator or the end. -/
theorem Redactor.behind_pattern {p : Pass α} (hp : p ∈ r.passes) {text front back : List α}
    (h : r.runAll r.passes text = front ++ p.pattern ++ back) :
    p.keeps = true ∧ ∃ rest, back = r.mark ++ rest ∧ ∀ c ∈ rest.head?, r.inside c = false := by
  obtain ⟨front', back', rest, hmem, hback, hend⟩ :=
    r.occurrence_in_body (r.pattern_inside p hp) _ h
  rw [r.bodies_runAll fun q hq => hq] at hmem
  obtain ⟨body, -, hbody⟩ := List.mem_map.mp hmem
  obtain ⟨hkeeps, rfl⟩ := r.left_settled hp (cutBy_settled r.pattern_ne body p hp) hbody
  exact ⟨hkeeps, rest, hback, hend⟩

/-- A pass changes nothing where all segments are settled. -/
theorem Redactor.run_eq_self {p : Pass α} (hp : p ∈ r.passes) (text : List α)
    (h : ∀ body ∈ r.bodies text, r.markBody p body = body) : r.run p text = text := by
  induction text using r.segment_induction with
  | last body hbody =>
      rw [r.bodies_of_inside hbody] at h
      rw [(r.run_of_inside hp hbody).1, h body (List.mem_singleton.mpr rfl)]
  | more body sep rest hbody hsep ih =>
      rw [r.bodies_append_cons hbody hsep] at h
      rw [(r.run_append_cons hp hbody hsep rest).1, h body List.mem_cons_self,
        ih fun b hb => h b (List.mem_cons_of_mem _ hb)]

/-- **A second time nothing changes.** -/
theorem Redactor.runAll_runAll (text : List α) :
    r.runAll r.passes (r.runAll r.passes text) = r.runAll r.passes text := by
  have hfixed : ∀ p ∈ r.passes, r.run p (r.runAll r.passes text) = r.runAll r.passes text := by
    intro p hp
    refine r.run_eq_self hp _ fun body hmem => ?_
    rw [r.bodies_runAll fun q hq => hq] at hmem
    obtain ⟨body', -, rfl⟩ := List.mem_map.mp hmem
    have hsettled := cutBy_settled r.pattern_ne body' p hp
    unfold markBody
    split
    · rename_i hoccurs
      obtain ⟨rest, hrest⟩ := Option.isSome_iff_exists.mp hoccurs
      have hcut := before_append_after hrest
      obtain ⟨hkeeps, rfl⟩ := r.left_settled hp hsettled hcut.symm
      rw [Pass.shown, if_pos hkeeps, hcut]
    · rfl
  have hpasses : ∀ ps : List (Pass α), (∀ p ∈ ps, p ∈ r.passes) →
      r.runAll ps (r.runAll r.passes text) = r.runAll r.passes text := by
    intro ps
    induction ps with
    | nil => exact fun _ => rfl
    | cons p ps ih =>
        intro hps
        rw [runAll, List.foldl_cons, hfixed p (hps p List.mem_cons_self)]
        exact ih fun q hq => hps q (List.mem_cons_of_mem _ hq)
  exact hpasses r.passes fun p hp => hp

end Marking
