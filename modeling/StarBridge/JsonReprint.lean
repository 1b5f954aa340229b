import StarBridge.JsonPrefix
import StarBridge.NativeResponse

/-!
# What cJSON prints, it reads

`cJSON_PrintUnformatted` writes strings as far as C sees them and numbers in its own way, and
what it writes parses to just that (`parse_print_array`), as deep as the value was when it was
parsed itself.  An array whose text is cut short does not parse at all (`parse_array_cut`).
-/

namespace StarBridge

open CText

namespace CJson

/-! ## Values as they are printed -/

/-- What `print_number` is relied on for: it prints `null` or a number that parses as a
whole. -/
def PrintsNumbers (printNumber : Bytes → Bytes) : Prop :=
  ∀ literal, 0 ∉ printNumber literal ∧
    (printNumber literal = lit "null" ∨
      ∀ depth, Reads depth (.number (printNumber literal)) (printNumber literal))

variable (printNumber : Bytes → Bytes)

mutual

/-- A value as it is when its text has been parsed. -/
def reprinted : CJson → CJson
  | .null => .null
  | .bool b => .bool b
  | .number literal =>
      if printNumber literal = lit "null" then .null else .number (printNumber literal)
  | .string value => .string (cstr value)
  | .array items => .array (reprintedItems items)
  | .object members => .object (reprintedMembers members)

def reprintedItems : List CJson → List CJson
  | [] => []
  | item :: rest => reprinted item :: reprintedItems rest

def reprintedMembers : List (Bytes × CJson) → List (Bytes × CJson)
  | [] => []
  | (name, value) :: rest => (cstr name, reprinted value) :: reprintedMembers rest

end

theorem reprintedItems_eq_map (items : List CJson) :
    reprintedItems printNumber items = items.map (reprinted printNumber) := by
  induction items with
  | nil => rfl
  | cons item rest ih => rw [reprintedItems, ih, List.map_cons]

theorem reprintedMembers_eq_map (members : List (Bytes × CJson)) :
    reprintedMembers printNumber members =
      members.map fun m => (cstr m.1, reprinted printNumber m.2) := by
  induction members with
  | nil => rfl
  | cons m rest ih => rw [reprintedMembers, ih, List.map_cons]

/-- Names are compared as C strings, so that the same member is found. -/
theorem getObjectItem_reprinted (obj : CJson) (name : Bytes) :
    getObjectItem (reprinted printNumber obj) name =
      (getObjectItem obj name).map (reprinted printNumber) := by
  cases obj with
  | object members =>
      have hmatches : ∀ m : Bytes × CJson, nameMatches name (cstr m.1) = nameMatches name m.1 := by
        intro m
        rw [nameMatches, nameMatches, show cstr (cstr m.1) = cstr m.1 from
          upTo_eq_self (stop_not_mem_upTo 0 m.1)]
      rw [reprinted, reprintedMembers_eq_map, getObjectItem, getObjectItem]
      induction members with
      | nil => rfl
      | cons m rest ih =>
          rw [List.map_cons, List.find?_cons, List.find?_cons, hmatches]
          cases nameMatches name m.1 with
          | true => rfl
          | false => exact ih
  | number literal =>
      rw [reprinted]
      split_ifs <;> rfl
  | null => rfl
  | bool b => rfl
  | string value => rfl
  | array items => rfl

/-! ## Depth -/

mutual

/-- A value that may stand inside `depth` arrays and objects. -/
def Nested : Nat → CJson → Prop
  | depth, .array items => depth < nestingLimit ∧ NestedItems (depth + 1) items
  | depth, .object members => depth < nestingLimit ∧ NestedMembers (depth + 1) members
  | _, _ => True

def NestedItems : Nat → List CJson → Prop
  | _, [] => True
  | depth, item :: rest => Nested depth item ∧ NestedItems depth rest

def NestedMembers : Nat → List (Bytes × CJson) → Prop
  | _, [] => True
  | depth, (_, value) :: rest => Nested depth value ∧ NestedMembers depth rest

end

/-- What a value is when it has been parsed: nothing that holds others, or an array or an
object that is not too deep, empty or with what the loops have parsed. -/
theorem parseValue_cases {fuel depth : Nat} {s left : Bytes} {v : CJson}
    (h : parseValue (fuel + 1) depth s = some (v, left)) :
    (∀ depth, Nested depth v) ∨
      (depth < nestingLimit ∧
        (v = .array [] ∨ v = .object [] ∨
          (∃ s' items, parseElements fuel (depth + 1) s' = some (items, left) ∧
            v = .array items) ∨
          ∃ s' members, parseMembers fuel (depth + 1) s' = some (members, left) ∧
            v = .object members)) := by
  rw [parseValue.eq_def] at h
  dsimp only at h
  by_cases hword : (lit "null").isPrefixOf s = true ∨ (lit "false").isPrefixOf s = true ∨
      (lit "true").isPrefixOf s = true
  · left
    rcases hword with hnull | hfalse | htrue <;> split_ifs at h <;> cases h <;>
      exact fun _ => trivial
  · obtain ⟨hnull, hfalse, htrue⟩ := not_or.mp hword |>.imp id not_or.mp
    rw [if_neg hnull, if_neg hfalse, if_neg htrue] at h
    cases s with
    | nil => cases h
    | cons c rest =>
        dsimp only at h
        by_cases hquote : c = 34
        · rw [if_pos hquote] at h
          obtain ⟨⟨text, left'⟩, -, heq⟩ := Option.map_eq_some_iff.mp h
          cases heq
          exact Or.inl fun _ => trivial
        by_cases hnumber : c = 45 ∨ isDigit c = true
        · rw [if_neg hquote, if_pos hnumber] at h
          obtain ⟨literal, -, heq⟩ := Option.map_eq_some_iff.mp h
          cases heq
          exact Or.inl fun _ => trivial
        rw [if_neg hquote, if_neg hnumber] at h
        by_cases hdeep : nestingLimit ≤ depth
        · rw [if_pos hdeep, if_pos hdeep, ite_self, ite_self] at h
          cases h
        rw [if_neg hdeep, if_neg hdeep] at h
        refine Or.inr ⟨Nat.lt_of_not_le hdeep, ?_⟩
        by_cases harray : c = 91
        · rw [if_pos harray] at h
          cases hrest : skipWhitespace rest with
          | nil => simp [hrest] at h
          | cons d more =>
              simp only [hrest] at h
              split_ifs at h
              · cases h
                exact Or.inl rfl
              · obtain ⟨⟨items, left'⟩, hitems, heq⟩ := Option.map_eq_some_iff.mp h
                cases heq
                exact Or.inr (Or.inr (Or.inl ⟨_, items, hitems, rfl⟩))
        by_cases hobject : c = 123
        · rw [if_neg harray, if_pos hobject] at h
          cases hrest : skipWhitespace rest with
          | nil => simp [hrest] at h
          | cons d more =>
              simp only [hrest] at h
              split_ifs at h
              · cases h
                exact Or.inr (Or.inl rfl)
              · obtain ⟨⟨members, left'⟩, hmembers, heq⟩ := Option.map_eq_some_iff.mp h
                cases heq
                exact Or.inr (Or.inr (Or.inr ⟨_, members, hmembers, rfl⟩))
        rw [if_neg harray, if_neg hobject] at h
        cases h

/-- **What is parsed is not too deep.** -/
theorem parse_nested (fuel : Nat) :
    (∀ depth s v left, parseValue fuel depth s = some (v, left) → Nested depth v) ∧
      (∀ depth s items left, parseElements fuel depth s = some (items, left) →
        NestedItems depth items) ∧
      (∀ depth s members left, parseMembers fuel depth s = some (members, left) →
        NestedMembers depth members) := by
  induction fuel with
  | zero => simp [parseValue, parseElements, parseMembers]
  | succ fuel ih =>
      obtain ⟨ihValue, ihElements, ihMembers⟩ := ih
      refine ⟨?_, ?_, ?_⟩
      · intro depth s v left h
        obtain hflat | ⟨hdepth, rfl | rfl | ⟨s', items, hitems, rfl⟩ |
          ⟨s', members, hmembers, rfl⟩⟩ := parseValue_cases h
        · exact hflat depth
        · exact ⟨hdepth, trivial⟩
        · exact ⟨hdepth, trivial⟩
        · exact ⟨hdepth, ihElements _ _ _ _ hitems⟩
        · exact ⟨hdepth, ihMembers _ _ _ _ hmembers⟩
      · intro depth s items left h
        unfold parseElements at h
        split at h
        · cases h
        rename_i item left₁ hitem
        split at h
        · cases h
        split_ifs at h
        · obtain ⟨⟨rest, left'⟩, hrest, heq⟩ := Option.map_eq_some_iff.mp h
          cases heq
          exact ⟨ihValue _ _ _ _ hitem, ihElements _ _ _ _ hrest⟩
        · cases h
          exact ⟨ihValue _ _ _ _ hitem, trivial⟩
      · intro depth s members left h
        unfold parseMembers at h
        split at h
        · cases h
        split at h
        · cases h
        split_ifs at h
        split at h
        · cases h
        rename_i value left₁ hvalue
        split at h
        · cases h
        split_ifs at h
        · obtain ⟨⟨rest, left'⟩, hrest, heq⟩ := Option.map_eq_some_iff.mp h
          cases heq
          exact ⟨ihValue _ _ _ _ hvalue, ihMembers _ _ _ _ hrest⟩
        · cases h
          exact ⟨ihValue _ _ _ _ hvalue, trivial⟩

/-! ## Round trip -/

/-- The last element, with the bracket right behind it. -/
theorem ReadsElements.close {depth : Nat} {v : CJson} {text : Bytes} (h : Reads depth v text) :
    ReadsElements depth [v] (text ++ [93]) := by
  intro rest fuel hfuel
  simp only [List.length_append, List.length_cons, List.length_nil] at hfuel
  obtain ⟨fuel, rfl⟩ : ∃ n, fuel = n + 1 := ⟨fuel - 1, by omega⟩
  have hshape : text ++ [93] ++ rest = text ++ (93 :: rest) := by simp
  have hvalue := h.2.2 (93 :: rest) fuel (by simp [Stops]) (by simp only [List.length_cons]; omega)
  rw [hshape, parseElements, h.skipWhitespace, hvalue]
  simp [skipWhitespace]

theorem reads_bool (depth : Nat) (b : Bool) :
    Reads depth (.bool b) (if b then lit "true" else lit "false") := by
  cases b with
  | true =>
      have hhead : ∀ c ∈ (lit "true").head?, 32 < c ∧ c ≠ 93 := by simp [lit]
      refine ⟨hhead, by decide, fun rest fuel _ hfuel => ?_⟩
      obtain ⟨fuel, rfl⟩ : ∃ n, fuel = n + 1 := ⟨fuel - 1, by omega⟩
      rw [parseValue.eq_def]
      simp [lit]
  | false =>
      have hhead : ∀ c ∈ (lit "false").head?, 32 < c ∧ c ≠ 93 := by simp [lit]
      refine ⟨hhead, by decide, fun rest fuel _ hfuel => ?_⟩
      obtain ⟨fuel, rfl⟩ : ∃ n, fuel = n + 1 := ⟨fuel - 1, by omega⟩
      rw [parseValue.eq_def]
      simp [lit]

theorem reads_empty_object (depth : Nat) (hdepth : depth < nestingLimit) :
    Reads depth (.object []) [123, 125] := by
  refine ⟨by simp, by simp, fun rest fuel _ hfuel => ?_⟩
  obtain ⟨fuel, rfl⟩ : ∃ n, fuel = n + 1 := ⟨fuel - 1, by omega⟩
  rw [parseValue.eq_def]
  simp [lit, isDigit, skipWhitespace, Nat.not_le.mpr hdepth]

variable {printNumber}

mutual

/-- **A printed value parses to what was printed of it.** -/
theorem reads_print (hnumbers : PrintsNumbers printNumber) :
    ∀ {depth : Nat} {v : CJson}, Nested depth v →
      Reads depth (reprinted printNumber v) (print printNumber v)
  | depth, .null, _ => reads_null depth
  | depth, .bool true, _ => reads_bool depth true
  | depth, .bool false, _ => reads_bool depth false
  | depth, .number literal, _ => by
      rw [reprinted, print]
      split_ifs with hnull
      · rw [hnull]
        exact reads_null depth
      · exact ((hnumbers literal).2.resolve_left hnull) depth
  | depth, .string value, _ => reads_string depth (cstr value)
  | depth, .array [], h => reads_empty_array depth h.1
  | depth, .array (item :: rest), h => by
      have hitems := reads_printItems hnumbers h.2 (List.cons_ne_nil item rest)
      have hopen : OpensElement (printItems printNumber (item :: rest) ++ [93]) := by
        have hitem := reads_print hnumbers h.2.1
        cases rest with
        | nil => exact hitem.opensElement [93]
        | cons second rest =>
            rw [printItems.eq_3 _ _ _ (by simp), List.append_assoc, List.append_assoc]
            exact hitem.opensElement _
      exact reads_array hitems hopen h.1
  | depth, .object [], h => reads_empty_object depth h.1
  | depth, .object (m :: rest), h => by
      have hmembers := reads_printMembers hnumbers h.2 (List.cons_ne_nil m rest)
      have hopen : OpensMember (printMembers printNumber (m :: rest) ++ [125]) := by
        obtain ⟨name, value⟩ := m
        cases rest with
        | nil =>
            rw [printMembers, List.append_assoc, List.append_assoc]
            exact opensMember_quoted (cstr name) _
        | cons second rest =>
            rw [printMembers.eq_3 _ _ _ _ (by simp)]
            simp only [List.append_assoc]
            exact opensMember_quoted (cstr name) _
      exact reads_object hmembers hopen h.1

theorem reads_printItems (hnumbers : PrintsNumbers printNumber) :
    ∀ {depth : Nat} {items : List CJson}, NestedItems depth items → items ≠ [] →
      ReadsElements depth (reprintedItems printNumber items)
        (printItems printNumber items ++ [93])
  | _, [], _, hne => absurd rfl hne
  | _, [_], h, _ => ReadsElements.close (reads_print hnumbers h.1)
  | _, item :: second :: rest, h, _ => by
      have hrest := reads_printItems hnumbers h.2 (List.cons_ne_nil second rest)
      have hshape : printItems printNumber (item :: second :: rest) ++ [93] =
          print printNumber item ++ (44 :: (printItems printNumber (second :: rest) ++ [93])) := by
        rw [printItems.eq_3 _ _ _ (by simp), List.append_assoc, List.append_assoc]
        rfl
      rw [hshape, reprintedItems]
      exact ReadsElements.cons (reads_print hnumbers h.1) hrest

theorem reads_printMembers (hnumbers : PrintsNumbers printNumber) :
    ∀ {depth : Nat} {members : List (Bytes × CJson)}, NestedMembers depth members →
      members ≠ [] → ReadsMembers depth (reprintedMembers printNumber members)
        (printMembers printNumber members ++ [125])
  | _, [], _, hne => absurd rfl hne
  | _, [(name, value)], h, _ => by
      have hlast := ReadsMembers.last (cstr name) (reads_print hnumbers h.1) (Or.inl rfl)
      have hshape : printMembers printNumber [(name, value)] ++ [125] =
          quoted (cstr name) ++ (58 :: (print printNumber value ++ ([] ++ [125]))) := by
        rw [printMembers, List.append_assoc, List.append_assoc]
        rfl
      rw [hshape]
      exact hlast
  | _, (name, value) :: second :: rest, h, _ => by
      have hrest := reads_printMembers hnumbers h.2 (List.cons_ne_nil second rest)
      have hshape : printMembers printNumber ((name, value) :: second :: rest) ++ [125] =
          quoted (cstr name) ++ (58 :: (print printNumber value ++
            (44 :: (printMembers printNumber (second :: rest) ++ [125])))) := by
        rw [printMembers.eq_3 _ _ _ _ (by simp)]
        simp only [List.append_assoc]
        rfl
      rw [hshape, reprintedMembers]
      exact ReadsMembers.cons (cstr name) (reads_print hnumbers h.1) hrest

end

mutual

/-- Nothing that is printed has a terminator. -/
theorem zero_not_mem_print (hnumbers : PrintsNumbers printNumber) :
    ∀ v : CJson, 0 ∉ print printNumber v
  | .null => by simp [print, lit]
  | .bool true => by simp [print, lit]
  | .bool false => by simp [print, lit]
  | .number literal => (hnumbers literal).1
  | .string value => zero_not_mem_quoted (stop_not_mem_upTo 0 value)
  | .array items => by
      have hitems := zero_not_mem_printItems hnumbers items
      simp [print, hitems, lit]
  | .object members => by
      have hmembers := zero_not_mem_printMembers hnumbers members
      simp [print, hmembers, lit]

theorem zero_not_mem_printItems (hnumbers : PrintsNumbers printNumber) :
    ∀ items : List CJson, 0 ∉ printItems printNumber items
  | [] => by simp [printItems]
  | [item] => zero_not_mem_print hnumbers item
  | item :: second :: rest => by
      have hitem := zero_not_mem_print hnumbers item
      have hrest := zero_not_mem_printItems hnumbers (second :: rest)
      rw [printItems.eq_3 _ _ _ (by simp)]
      simp [hitem, hrest, lit]

theorem zero_not_mem_printMembers (hnumbers : PrintsNumbers printNumber) :
    ∀ members : List (Bytes × CJson), 0 ∉ printMembers printNumber members
  | [] => by simp [printMembers]
  | [(name, value)] => by
      have hname : 0 ∉ printString name := zero_not_mem_quoted (stop_not_mem_upTo 0 name)
      have hvalue := zero_not_mem_print hnumbers value
      simp [printMembers, hname, hvalue, lit]
  | (name, value) :: second :: rest => by
      have hname : 0 ∉ printString name := zero_not_mem_quoted (stop_not_mem_upTo 0 name)
      have hvalue := zero_not_mem_print hnumbers value
      have hrest := zero_not_mem_printMembers hnumbers (second :: rest)
      rw [printMembers.eq_3 _ _ _ _ (by simp)]
      simp [hname, hvalue, hrest, lit]

end

/-! ## Arrays, whole and cut -/

/-- The text of an array starts with its bracket. -/
theorem print_array (items : List CJson) :
    print printNumber (.array items) = 91 :: (printItems printNumber items ++ [93]) := rfl

theorem parse_bracket {more : Bytes} (hzero : 0 ∉ more) :
    parse (91 :: more) =
      (parseValue (2 * (91 :: more).length + 1) 0 (91 :: more)).map (·.1) := by
  have hcstr : cstr (91 :: more) = 91 :: more := by
    apply upTo_eq_self
    simpa using hzero
  have hbom : skipBom (91 :: more) = 91 :: more := by
    simp [skipBom]
  rw [parse, hcstr, hbom, skipWhitespace_of_head (by decide)]

theorem parseValue_bracket (fuel depth : Nat) (s : Bytes) :
    parseValue (fuel + 1) depth (91 :: s) =
      if nestingLimit ≤ depth then none
      else
        match skipWhitespace s with
        | [] => none
        | d :: rest =>
            if d = 93 then some (.array [], rest)
            else
              (parseElements fuel (depth + 1) (d :: rest)).map
                fun (items, left) => (.array items, left) := by
  rw [parseValue]
  simp [lit, isDigit]
  all_goals rfl

/-- An array closes itself: what follows it makes no difference. -/
theorem parseValue_bracket_settled {fuel depth : Nat} {s left : Bytes} {v : CJson}
    (h : parseValue fuel depth (91 :: s) = some (v, left)) (more : Bytes) :
    parseValue fuel depth (91 :: (s ++ more)) = some (v, left ++ more) := by
  cases fuel with
  | zero => simp [parseValue] at h
  | succ fuel =>
      rw [parseValue_bracket] at h ⊢
      by_cases hdeep : nestingLimit ≤ depth
      · rw [if_pos hdeep] at h
        cases h
      rw [if_neg hdeep] at h ⊢
      cases hskip : skipWhitespace s with
      | nil =>
          rw [hskip] at h
          cases h
      | cons d rest =>
          rw [hskip] at h
          rw [skipWhitespace_append hskip more]
          dsimp only at h ⊢
          by_cases hclose : d = 93
          · rw [if_pos hclose] at h ⊢
            cases h
            rfl
          · rw [if_neg hclose] at h ⊢
            exact ((parse_settled fuel).2.1 (depth + 1)).map h more

/-- **A printed array parses to what was printed of it.** -/
theorem parse_print_array (hnumbers : PrintsNumbers printNumber) {items : List CJson}
    (h : Nested 0 (.array items)) :
    parse (print printNumber (.array items)) = some (reprinted printNumber (.array items)) := by
  have hreads := (reads_print hnumbers h).2.2 [] _ (by simp [Stops]) (le_refl _)
  have hzero := zero_not_mem_print hnumbers (.array items)
  rw [print_array] at hreads hzero ⊢
  rw [parse_bracket fun hmem => hzero (List.mem_cons_of_mem _ hmem)]
  simp only [List.append_nil, List.length_nil, Nat.add_zero] at hreads
  rw [hreads]
  rfl

/-- **A printed array cut short does not parse.** -/
theorem parse_array_cut (hnumbers : PrintsNumbers printNumber) {items : List CJson}
    (h : Nested 0 (.array items)) {n : Nat}
    (hn : n < (print printNumber (.array items)).length) :
    parse ((print printNumber (.array items)).take n) = none := by
  have hreads := (reads_print hnumbers h).2.2 [] _ (by simp [Stops]) (le_refl _)
  have hzero := zero_not_mem_print hnumbers (.array items)
  rw [print_array] at hreads hzero hn ⊢
  generalize printItems printNumber items ++ [93] = more at hreads hzero hn ⊢
  cases n with
  | zero => simp [parse, cstr, upTo, skipBom, skipWhitespace, parseValue, lit]
  | succ n =>
      rw [List.take_succ_cons, parse_bracket fun hmem =>
        hzero (List.mem_cons_of_mem _ (List.mem_of_mem_take hmem))]
      simp only [List.append_nil, List.length_nil, Nat.add_zero] at hreads
      have hshort : 2 * (91 :: more.take n).length + 1 ≤ 2 * (91 :: more).length + 1 := by
        simp only [List.length_cons, List.length_take]
        omega
      rw [← parseValue_fuel hshort]
      cases hparse : parseValue (2 * (91 :: more).length + 1) 0 (91 :: more.take n) with
      | none => rfl
      | some pair =>
          obtain ⟨v, left⟩ := pair
          have hstands := parseValue_bracket_settled hparse (more.drop n)
          rw [List.take_append_drop, hreads] at hstands
          have hleft := (Prod.mk.inj (Option.some.inj hstands)).2
          have hdrop := (List.append_eq_nil_iff.mp hleft.symm).2
          rw [List.drop_eq_nil_iff] at hdrop
          rw [List.length_cons] at hn
          omega

end CJson

end StarBridge
