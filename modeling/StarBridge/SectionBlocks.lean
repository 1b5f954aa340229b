import Mathlib.Data.List.TakeWhile
import StarBridge.Sections

/-!
# A section behind a text, and texts that end early

A block is one section with nothing but plain text inside.  Put behind a text it
is one more section and adds nothing outside (`Block.sections_append`,
`Block.outside_append`), and removing leaves the text in front of it alone iff
that has no opening marker (`Block.strip_append`, `Block.length_strip_append`).

A text that ends at the first stop symbol loses a closing marker behind it: if
the symbol does not stand outside the sections, a section of the shorter text is
left open, and its marker is not removed (`Unclosed.of_stop`,
`Unclosed.opening_in_strip`).
-/

namespace Sections

namespace Markup

variable {α : Type*} [DecidableEq α] {M : Markup α}

/-! ## A block behind a text -/

/-- A section with nothing but plain text inside. -/
structure Block (M : Markup α) where
  opens : List α
  body : List α
  closes : List α
  opens_mem : opens ∈ M.opening
  closes_mem : closes ∈ M.closing
  body_free : cut M.markers body = none

namespace Block

/-- The block as a text. -/
def text (B : Block M) : List α := B.opens ++ B.body ++ B.closes

variable (B : Block M)

theorem text_eq : ∃ more, B.text = M.lead :: more := by
  obtain ⟨body, hbody, -⟩ := M.led.led B.opens (M.opening_subset B.opens_mem)
  exact ⟨body ++ B.body ++ B.closes, by rw [text, hbody]; rfl⟩

/-- Nothing in front of a block takes in a part of it. -/
theorem cut_append {patterns : List (List α)} (hled : Led M.lead patterns) (s : List α) :
    cut patterns (s ++ B.text) =
      match cut patterns s with
      | some (before, p, rest) => some (before, p, rest ++ B.text)
      | none => (cut patterns B.text).map fun (before, p, rest) => (s ++ before, p, rest) := by
  obtain ⟨more, hmore⟩ := B.text_eq
  rw [hmore]
  exact hled.cut_append s more

theorem cut_opening : cut M.opening B.text = some ([], B.opens, B.body ++ B.closes) := by
  rw [text, List.append_assoc]
  exact M.opening_led.cut_pattern B.opens_mem _

theorem cut_markers : cut M.markers B.text = some ([], B.opens, B.body ++ B.closes) := by
  rw [text, List.append_assoc]
  exact M.led.cut_pattern (M.opening_subset B.opens_mem) _

/-- The block ends at its closing marker. -/
theorem cut_body : cut M.markers (B.body ++ B.closes) = some (B.body, B.closes, []) := by
  have hcut : cut M.markers (B.body ++ B.closes ++ []) = some (B.body, B.closes, []) :=
    M.led.cut_eq_some B.body_free (M.closing_subset B.closes_mem)
  rwa [List.append_nil] at hcut

theorem cut_closing : cut M.closing B.text = some (B.opens ++ B.body, B.closes, []) := by
  have hbody := M.led.cut_some_subset M.closing_subset B.cut_body B.closes_mem
  have hshape : B.text = [] ++ B.opens ++ (B.body ++ B.closes) := List.append_assoc _ _ _
  rw [cut_closing_past B.opens_mem rfl hshape, hbody]
  rfl

theorem behind_append (s : List α) : M.behind (s ++ B.text) = M.behind s ++ B.text := by
  obtain ⟨more, hmore⟩ := B.text_eq
  rw [behind, behind, List.dropWhile_append, hmore]
  split
  · rename_i hnil
    rw [List.isEmpty_iff.mp hnil, List.dropWhile_cons, M.lead_not_blank]
    rfl
  · rfl

theorem removal_append (s : List α) :
    M.removal (s ++ B.text) =
      match M.removal s with
      | some (before, rest) => some (before, rest ++ B.text)
      | none =>
          match cut M.opening s with
          | some (before, _, _) => some (before, [])
          | none => some (s, []) := by
  unfold removal
  rw [B.cut_append M.opening_led]
  cases cut M.opening s with
  | none =>
      have hbody := M.led.cut_some_subset M.closing_subset B.cut_body B.closes_mem
      dsimp only
      rw [B.cut_opening, Option.map_some, Option.bind_some]
      dsimp only
      rw [hbody, Option.map_some, List.append_nil]
      rfl
  | some parts =>
      obtain ⟨before, m, left⟩ := parts
      dsimp only
      rw [Option.bind_some, Option.bind_some]
      dsimp only
      rw [B.cut_append M.closing_led]
      cases cut M.closing left with
      | none =>
          dsimp only
          rw [B.cut_closing]
          rfl
      | some parts =>
          obtain ⟨between, c, left'⟩ := parts
          dsimp only
          rw [Option.map_some, Option.map_some, B.behind_append]

theorem next_append (s : List α) :
    M.next (s ++ B.text) =
      match M.next s with
      | some (kept, closed, rest) => some (kept, closed, rest ++ B.text)
      | none =>
          match cut M.opening s with
          | some (before, m, rest) => some (before ++ m, false, rest ++ B.text)
          | none => some (s, true, []) := by
  unfold next
  rw [B.cut_append M.opening_led]
  cases cut M.opening s with
  | none =>
      dsimp only
      rw [B.cut_opening, Option.map_some, Option.bind_some]
      dsimp only
      rw [B.cut_body, Option.map_some, List.append_nil]
      dsimp only
      rw [if_pos B.closes_mem]
      rfl
  | some parts =>
      obtain ⟨before, m, left⟩ := parts
      dsimp only
      rw [Option.bind_some, Option.bind_some]
      dsimp only
      rw [B.cut_append M.markers_led]
      cases cut M.markers left with
      | none =>
          dsimp only
          rw [B.cut_markers, Option.map_some]
          dsimp only
          rw [Option.map_some]
          dsimp only
          rw [if_neg (M.other B.opens B.opens_mem)]
          rfl
      | some parts =>
          obtain ⟨between, p, left'⟩ := parts
          dsimp only
          rw [Option.map_some, Option.map_some]
          dsimp only
          by_cases hp : p ∈ M.closing
          · rw [if_pos hp, if_pos hp, B.behind_append]
          · rw [if_neg hp, if_neg hp]

/-- **Removing the block alone.** -/
theorem strip_append {s : List α} (h : cut M.opening s = none) : M.strip (s ++ B.text) = s := by
  rw [strip_eq, B.removal_append, removal_of_free h, h]
  dsimp only
  rw [strip_of_free rfl, List.append_nil]

/-- Removing never leaves more than stood in front of the block, and an opening
marker there is lost. -/
theorem length_strip_append (s : List α) :
    (M.strip (s ++ B.text)).length ≤ s.length ∧
      ∀ before m rest, cut M.opening s = some (before, m, rest) →
        (M.strip (s ++ B.text)).length + m.length ≤ s.length := by
  fun_induction strip M s with
  | case1 s hnone =>
      rw [strip_eq, B.removal_append, hnone]
      dsimp only
      cases hopen : cut M.opening s with
      | none =>
          refine ⟨?_, fun before m rest h => by cases h⟩
          dsimp only
          rw [strip_of_free rfl, List.append_nil]
      | some parts =>
          obtain ⟨before, m, rest⟩ := parts
          have hlen := cut_length hopen
          dsimp only
          rw [strip_of_free rfl, List.append_nil]
          refine ⟨by omega, fun before' m' rest' h => ?_⟩
          cases h
          omega
  | case2 s before rest hsome ih =>
      obtain ⟨m, left, between, c, left', hopen, hclose, rfl⟩ := removal_eq_some.mp hsome
      have hlen := cut_length hopen
      have hlen' := cut_length hclose
      have hbehind := M.length_behind_le left'
      have hle := ih.1
      rw [strip_eq, B.removal_append, hsome]
      dsimp only
      rw [List.length_append]
      refine ⟨by omega, fun before' m' rest' h => ?_⟩
      rw [hopen] at h
      cases h
      omega

/-- An opening marker that begins no section has no marker behind it. -/
theorem cut_markers_of_next_none {s before m rest : List α} (hnone : M.next s = none)
    (hopen : cut M.opening s = some (before, m, rest)) : cut M.markers rest = none := by
  cases hmark : cut M.markers rest with
  | none => rfl
  | some parts =>
      rw [next, hopen, Option.bind_some] at hnone
      dsimp only at hnone
      rw [hmark] at hnone
      cases hnone

/-- **The block adds nothing outside.** -/
theorem outside_append (s : List α) : M.outside (s ++ B.text) = M.outside s := by
  have hfree : ∀ {s : List α}, cut M.opening s = none → M.outside (s ++ B.text) = s := by
    intro s h
    rw [outside_eq, B.next_append, next_of_free h, h]
    dsimp only
    rw [outside_of_free rfl, List.append_nil]
  fun_induction outside M s with
  | case1 s hnone =>
      cases hopen : cut M.opening s with
      | none => exact hfree hopen
      | some parts =>
          obtain ⟨before, m, rest⟩ := parts
          have hrest := cut_markers_of_next_none hnone hopen
          rw [outside_eq, B.next_append, hnone, hopen]
          dsimp only
          rw [hfree (M.markers_led.cut_none_subset M.opening_subset hrest), (cut_eq hopen).1]
  | case2 s kept closed rest hsome ih => rw [outside_eq, B.next_append, hsome, ← ih]

/-- **The block is one more section.** -/
theorem sections_append (s : List α) : M.sections (s ++ B.text) = M.sections s + 1 := by
  have hfree : ∀ {s : List α}, cut M.opening s = none → M.sections (s ++ B.text) = 1 := by
    intro s h
    rw [sections_eq, B.next_append, next_of_free h, h]
    dsimp only
    rw [sections_of_free rfl]
    rfl
  fun_induction sections M s with
  | case1 s hnone =>
      cases hopen : cut M.opening s with
      | none => exact hfree hopen
      | some parts =>
          obtain ⟨before, m, rest⟩ := parts
          have hrest := cut_markers_of_next_none hnone hopen
          rw [sections_eq, B.next_append, hnone, hopen]
          dsimp only
          rw [hfree (M.markers_led.cut_none_subset M.opening_subset hrest)]
          rfl
  | case2 s kept closed rest hsome ih =>
      rw [sections_eq, B.next_append, hsome]
      dsimp only
      rw [ih, Nat.add_assoc]

end Block

/-! ## Texts that end early -/

/-- The text has an opening marker with no closing one behind it. -/
def Unclosed (M : Markup α) (s : List α) : Prop :=
  ∃ before m rest, s = before ++ m ++ rest ∧ m ∈ M.opening ∧ cut M.closing rest = none

namespace Unclosed

theorem append {s : List α} (h : Unclosed M s) (front : List α) : Unclosed M (front ++ s) := by
  obtain ⟨before, m, rest, rfl, hm, hrest⟩ := h
  exact ⟨front ++ before, m, rest, by simp, hm, hrest⟩

/-- **An open section is not removed.** -/
theorem opening_in_strip {s : List α} (h : Unclosed M s) :
    ∃ m ∈ M.opening, m <:+: M.strip s := by
  fun_induction strip M s with
  | case1 s _ =>
      obtain ⟨before, m, rest, hs, hm, -⟩ := h
      exact ⟨m, hm, before, rest, hs.symm⟩
  | case2 s front left hsome ih =>
      obtain ⟨before, m, rest, hs, hm, hrest⟩ := h
      obtain ⟨m', left₁, between, c, left', hopen, hclose, rfl⟩ := removal_eq_some.mp hsome
      obtain ⟨body, hbody, -⟩ := M.opening_led.led m hm
      have hpattern := M.opening_led.cut_pattern hm rest
      have hshape : ∀ before : List α,
          before ++ m ++ rest = before ++ M.lead :: (body ++ rest) := by
        intro before
        rw [hbody, List.append_assoc, List.cons_append]
      rw [hs, hshape, M.opening_led.cut_append] at hopen
      cases hbefore : cut M.opening before with
      | none =>
          -- the open marker is the first one: then nothing is removed
          rw [hbody, List.cons_append] at hpattern
          rw [hbefore] at hopen
          dsimp only at hopen
          rw [hpattern] at hopen
          cases hopen
          rw [hrest] at hclose
          cases hclose
      | some parts =>
          obtain ⟨front', m'', left₂⟩ := parts
          rw [hbefore] at hopen
          cases hopen
          have hskip := M.markers_led.cut_skip M.closing_subset (M.opening_subset hm)
            (M.other m hm) rest
          rw [hrest, hbody, List.cons_append] at hskip
          rw [M.closing_led.cut_append, hskip] at hclose
          cases hcut : cut M.closing left₂ with
          | none =>
              rw [hcut] at hclose
              cases hclose
          | some parts =>
              obtain ⟨between', c', left₃⟩ := parts
              rw [hcut] at hclose
              cases hclose
              have hleft : Unclosed M (M.behind (left₃ ++ M.lead :: (body ++ rest))) := by
                refine ⟨M.behind left₃, m, rest, ?_, hm, hrest⟩
                rw [hshape, behind, List.dropWhile_append]
                split
                · rename_i hnil
                  rw [behind, List.isEmpty_iff.mp hnil, List.dropWhile_cons, M.lead_not_blank]
                  rfl
                · rfl
              obtain ⟨p, hp, hin⟩ := ih hleft
              exact ⟨p, hp, hin.trans (List.suffix_append _ _).isInfix⟩

end Unclosed

/-- A symbol that no marker has, and that is not blank. -/
structure Stops (M : Markup α) (stop : α) : Prop where
  not_blank : M.blank stop = false
  not_mem : ∀ m ∈ M.markers, stop ∉ m

/-- What is in front of the stop symbol is kept. -/
theorem takeWhile_append {stop : α} {front : List α} (h : stop ∉ front) (s : List α) :
    (front ++ s).takeWhile (· ≠ stop) = front ++ s.takeWhile (· ≠ stop) := by
  refine List.takeWhile_append_of_pos ?_
  intro c hc
  have hne : c ≠ stop := fun heq => h (heq ▸ hc)
  simpa using hne

/-- **A text that ends at a symbol inside a section** leaves the section open. -/
theorem Unclosed.of_stop {stop : α} (hstop : Stops M stop) {s : List α} (hmem : stop ∈ s)
    (hout : stop ∉ M.outside s) : Unclosed M (s.takeWhile (· ≠ stop)) := by
  fun_induction outside M s with
  | case1 s _ => exact absurd hmem hout
  | case2 s kept closed rest hsome ih =>
      obtain ⟨before, m, left, between, p, left', hopen, hmark, hcases⟩ := next_eq_some.mp hsome
      obtain ⟨hs, hm, -⟩ := cut_eq hopen
      obtain ⟨hleft, hp, hbetween⟩ := cut_eq hmark
      have hstopm := hstop.not_mem m (M.opening_subset hm)
      have hstopp := hstop.not_mem p hp
      rw [List.mem_append, not_or] at hout
      rcases hcases with ⟨hclosing, rfl, rfl, rfl⟩ | ⟨-, rfl, rfl, rfl⟩
      · have hfront : stop ∉ kept ++ m := by simp [hout.1, hstopm]
        by_cases hinside : stop ∈ between
        · -- the closing marker is cut off
          have hshorter : between.takeWhile (· ≠ stop) <+: between := List.takeWhile_prefix _
          have hfree := M.markers_led.cut_none_subset M.closing_subset hbetween
          refine ⟨kept, m, between.takeWhile (· ≠ stop), ?_, hm, ?_⟩
          · rw [hs, takeWhile_append hfront, hleft, List.append_assoc between,
              List.takeWhile_append]
            have hshort : (between.takeWhile (· ≠ stop)).length ≠ between.length := by
              intro hlen
              have hall := List.takeWhile_eq_self_iff.mp (hshorter.eq_of_length hlen) stop hinside
              simp at hall
            rw [if_neg hshort]
          · refine M.closing_led.cut_eq_none_iff.mpr ?_
            intro c hc hin
            exact M.closing_led.cut_eq_none_iff.mp hfree c hc (hin.trans hshorter.isInfix)
        · have hblanks : stop ∉ left'.takeWhile M.blank := by
            intro hin
            have hblank := List.mem_takeWhile_imp hin
            rw [hstop.not_blank] at hblank
            cases hblank
          have hsplit : left'.takeWhile M.blank ++ M.behind left' = left' :=
            List.takeWhile_append_dropWhile
          have hshape : s = kept ++ m ++ between ++ p ++ left'.takeWhile M.blank ++
              M.behind left' := by
            rw [hs, hleft, List.append_assoc _ _ (M.behind left'), hsplit]
            simp
          have hfront' : stop ∉ kept ++ m ++ between ++ p ++ left'.takeWhile M.blank := by
            simp [hout.1, hstopm, hinside, hstopp, hblanks]
          have hrest : stop ∈ M.behind left' := by
            rw [hshape] at hmem
            exact (List.mem_append.mp hmem).resolve_left hfront'
          rw [hshape, takeWhile_append hfront']
          exact (ih hrest hout.2).append _
      · have hrest : stop ∈ rest := by
          rw [hs] at hmem
          exact (List.mem_append.mp hmem).resolve_left hout.1
        rw [hs, takeWhile_append hout.1]
        exact (ih hrest hout.2).append _

end Markup

end Sections
