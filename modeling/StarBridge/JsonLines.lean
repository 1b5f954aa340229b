import StarBridge.JsonFields

/-!
# Values on lines of their own

Objects and arrays with a line break behind every bracket that opens and every comma.  A
line break is skipped in front of a member or an element, so these texts are read as the
ones without it are.
-/

namespace JsonGrammar

variable {s text rest left : Octets} {v : Value} {vs : List Value} {ms : List (Octets × Value)}

theorem skip_line (s : Octets) : skip (10 :: s) = skip s := rfl

theorem reads_elements_line :
    Reads (10 :: s) (.elements vs) rest ↔ Reads s (.elements vs) rest := by
  constructor
  · intro h
    cases h with
    | lastElement hvalue hclose => exact .lastElement hvalue hclose
    | element hvalue hcomma hmore => exact .element hvalue hcomma hmore
  · intro h
    cases h with
    | lastElement hvalue hclose => exact .lastElement hvalue hclose
    | element hvalue hcomma hmore => exact .element hvalue hcomma hmore

theorem reads_members_line :
    Reads (10 :: s) (.members ms) rest ↔ Reads s (.members ms) rest := by
  constructor
  · intro h
    cases h with
    | lastMember hname hvalue hclose => exact .lastMember hname hvalue hclose
    | member hname hvalue hcomma hmore => exact .member hname hvalue hcomma hmore
  · intro h
    cases h with
    | lastMember hname hvalue hclose => exact .lastMember hname hvalue hclose
    | member hname hvalue hcomma hmore => exact .member hname hvalue hcomma hmore

/-! ## Elements -/

/-- The first element, whatever it is. -/
theorem Reads.elements_first (h : Reads s (.elements vs) rest) :
    ∃ v vs' left, vs = v :: vs' ∧ Reads (skip s) (.value v) left ∧
      ((skip left = 93 :: rest ∧ vs' = []) ∨
        ∃ s', skip left = 44 :: s' ∧ Reads s' (.elements vs') rest) := by
  cases h with
  | lastElement hvalue hclose => exact ⟨_, _, _, rfl, hvalue, Or.inl ⟨hclose, rfl⟩⟩
  | element hvalue hcomma hmore => exact ⟨_, _, _, rfl, hvalue, Or.inr ⟨_, hcomma, hmore⟩⟩

/-- A value that a brace follows is no element. -/
theorem IsJson.not_reads_elements (h : IsJson text v) (more : Octets) :
    ¬ Reads (text ++ 125 :: more) (.elements vs) rest := by
  intro hreads
  obtain ⟨v', vs', left, -, hvalue, hnext⟩ := hreads.elements_first
  obtain ⟨left', hread, hskip⟩ := h.reads (c := 125) (by decide) (ends_cons (by decide) more)
  obtain ⟨-, rfl⟩ := hvalue.unique hread trivial
  rw [hskip] at hnext
  rcases hnext with ⟨hclose, -⟩ | ⟨s', hcomma, -⟩
  · exact cons_ne (by decide) hclose
  · exact cons_ne (by decide) hcomma

/-- **One element on its line.**  The rest of the elements decides. -/
theorem reads_element_line_iff (hprints : Prints text v) :
    Reads (text ++ 44 :: 10 :: s) (.elements vs) rest ↔
      ∃ vs', vs = v :: vs' ∧ Reads s (.elements vs') rest := by
  have hends : Ends (44 :: 10 :: s) := ends_cons (by decide) _
  have hskip : skip (44 :: 10 :: s) = 44 :: 10 :: s := skip_cons (by decide) _
  constructor
  · intro h
    obtain ⟨v', vs', left, rfl, hvalue, hnext⟩ := h.elements_first
    rw [hprints.skip_eq] at hvalue
    obtain ⟨rfl, rfl⟩ := hprints.unique hends hvalue
    rw [hskip] at hnext
    rcases hnext with ⟨hclose, -⟩ | ⟨s', hcomma, hmore⟩
    · exact (cons_ne (by decide) hclose).elim
    · cases hcomma
      exact ⟨vs', rfl, reads_elements_line.mp hmore⟩
  · intro h
    obtain ⟨vs', rfl, hmore⟩ := h
    refine .element ?_ hskip (reads_elements_line.mpr hmore)
    rw [hprints.skip_eq]
    exact hprints _ hends

/-- Elements, each behind a comma and a line break. -/
def elementLines (texts : List Octets) : Octets := texts.flatMap fun text => 44 :: 10 :: text

/-- The lines of an array. -/
def arrayLines : List Octets → Octets
  | [] => [91, 10, 93]
  | text :: texts => 91 :: 10 :: (text ++ (elementLines texts ++ [93]))

/-- **Values on lines are an array.** -/
theorem prints_arrayLines {items : List (Octets × Value)} (h : ∀ i ∈ items, Prints i.1 i.2) :
    Prints (arrayLines (items.map Prod.fst)) (.array (items.map Prod.snd)) := by
  intro rest _
  cases items with
  | nil => exact .emptyArray rfl (skip_line (93 :: rest))
  | cons i items =>
      refine .array rfl (reads_elements_line.mpr ?_)
      show Reads ((i.1 ++ (elementLines (items.map Prod.fst) ++ [93])) ++ rest) _ rest
      induction items generalizing i with
      | nil =>
          have hshape : (i.1 ++ (elementLines [] ++ [93])) ++ rest = i.1 ++ 93 :: rest := by
            simp [elementLines]
          have hfirst := h i List.mem_cons_self
          rw [List.map_nil, hshape]
          refine .lastElement ?_ (skip_cons (by decide) rest)
          rw [hfirst.skip_eq]
          exact hfirst _ (ends_cons (by decide) _)
      | cons j items ih =>
          have hshape : (i.1 ++ (elementLines ((j :: items).map Prod.fst) ++ [93])) ++ rest =
              i.1 ++ 44 :: 10 ::
                ((j.1 ++ (elementLines (items.map Prod.fst) ++ [93])) ++ rest) := by
            simp [elementLines]
          rw [hshape]
          exact (reads_element_line_iff (h i List.mem_cons_self)).mpr
            ⟨_, rfl, ih j fun k hk => h k (List.mem_cons_of_mem _ hk)⟩

/-! ## Members -/

namespace Member

/-- Members on their lines, in front of others. -/
def lines : List Member → Octets → Octets
  | [], tail => tail
  | m :: ms, tail => quote m.name ++ 58 :: (m.text ++ 44 :: 10 :: lines ms tail)

theorem lines_append (fixed : List Member) (tail behind : Octets) :
    lines fixed tail ++ behind = lines fixed (tail ++ behind) := by
  induction fixed with
  | nil => rfl
  | cons m fixed ih => simp [lines, ih]

theorem reads_lines_iff {fixed : List Member} {tail : Octets} :
    Reads (lines fixed tail) (.members ms) rest ↔
      ∃ ms', ms = values fixed ++ ms' ∧ Reads tail (.members ms') rest := by
  induction fixed generalizing ms with
  | nil => exact ⟨fun h => ⟨ms, rfl, h⟩, fun ⟨_, heq, h⟩ => heq ▸ h⟩
  | cons m fixed ih =>
      rw [lines, reads_member_iff m.plain m.prints]
      constructor
      · intro h
        obtain ⟨ms', rfl, hread⟩ := h
        obtain ⟨ms'', rfl, hbehind⟩ := ih.mp (reads_members_line.mp hread)
        exact ⟨ms'', rfl, hbehind⟩
      · intro h
        obtain ⟨ms', rfl, h⟩ := h
        exact ⟨_, rfl, reads_members_line.mpr (ih.mpr ⟨ms', rfl, h⟩)⟩

/-- Members, each behind a comma and a line break. -/
def ledLines (ms : List Member) : Octets :=
  ms.flatMap fun m => 44 :: 10 :: (quote m.name ++ 58 :: m.text)

theorem ledLines_append (ms ms' : List Member) :
    ledLines (ms ++ ms') = ledLines ms ++ ledLines ms' :=
  List.flatMap_append

/-- The lines of an object. -/
def objectLines : List Member → Octets
  | [] => [123, 10, 125]
  | m :: ms => 123 :: 10 :: (quote m.name ++ 58 :: (m.text ++ (ledLines ms ++ [10, 125])))

theorem ledLines_cons_eq (fixed : List Member) (m : Member) (ms : List Member) (tail : Octets) :
    ledLines (fixed ++ m :: ms) ++ tail =
      44 :: 10 :: lines fixed (quote m.name ++ 58 :: (m.text ++ (ledLines ms ++ tail))) := by
  induction fixed with
  | nil => simp [ledLines, lines]
  | cons f fixed ih =>
      rw [lines, ← ih]
      simp [ledLines]

/-- The lines of an object, from one of its members on. -/
theorem objectLines_eq (fixed : List Member) (m : Member) (ms : List Member) :
    objectLines (fixed ++ m :: ms) =
      123 :: 10 :: lines fixed (quote m.name ++ 58 :: (m.text ++ (ledLines ms ++ [10, 125]))) := by
  cases fixed with
  | nil => rfl
  | cons f fixed =>
      rw [lines, ← ledLines_cons_eq]
      rfl

/-- **Members on lines are an object.** -/
theorem prints_objectLines (ms : List Member) : Prints (objectLines ms) (.object (values ms)) := by
  intro rest _
  cases ms with
  | nil => exact .emptyObject rfl (skip_line (125 :: rest))
  | cons m ms =>
      refine .object rfl (reads_members_line.mpr ?_)
      show Reads ((quote m.name ++ 58 :: (m.text ++ (ledLines ms ++ [10, 125]))) ++ rest) _ rest
      induction ms generalizing m with
      | nil =>
          have hshape : (quote m.name ++ 58 :: (m.text ++ (ledLines [] ++ [10, 125]))) ++ rest =
              quote m.name ++ 58 :: (m.text ++ 10 :: 125 :: rest) := by
            simp [ledLines]
          rw [hshape]
          refine .lastMember (named_quote m.plain _) ?_ (skip_line (125 :: rest))
          rw [m.prints.skip_eq]
          exact m.prints _ (ends_cons (by decide) _)
      | cons m' ms ih =>
          have hshape : (quote m.name ++ 58 :: (m.text ++ (ledLines (m' :: ms) ++ [10, 125]))) ++
              rest = quote m.name ++ 58 :: (m.text ++ 44 :: (10 ::
                ((quote m'.name ++ 58 :: (m'.text ++ (ledLines ms ++ [10, 125]))) ++ rest))) := by
            simp [ledLines]
          rw [hshape]
          exact (reads_member_iff m.plain m.prints).mpr
            ⟨_, rfl, reads_members_line.mpr (ih m')⟩

end Member

end JsonGrammar
