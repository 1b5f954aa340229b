import StarBridge.JsonTokens

/-!
# The grammar of JSON

`Reads s p rest` says that the part `p` of a text stands at the front of `s` and
leaves `rest`; `IsJson` is a value with nothing but white space around it.  What
is read is unique (`Reads.unique`), and does not depend on what follows later
(`Reads.append`).
-/

namespace JsonGrammar

/-- A value.  Numbers keep their literal, strings are decoded. -/
inductive Value
  | null
  | bool (b : Bool)
  | number (literal : Octets)
  | string (text : Octets)
  | array (items : List Value)
  | object (members : List (Octets × Value))

/-- The first member of a name. -/
def lookup (name : Octets) (members : List (Octets × Value)) : Option Value :=
  (members.find? fun m => m.1 = name).map (·.2)

theorem lookup_cons_self (name : Octets) (v : Value) (members : List (Octets × Value)) :
    lookup name ((name, v) :: members) = some v := by
  rw [lookup, List.find?_cons_of_pos (by simp)]
  rfl

theorem lookup_cons_of_ne {name other : Octets} (h : other ≠ name) (v : Value)
    (members : List (Octets × Value)) :
    lookup name ((other, v) :: members) = lookup name members := by
  rw [lookup, List.find?_cons_of_neg (by simpa using h), lookup]

/-! ## Texts -/

/-- What can stand in a text: a value, the elements of an array with its closing
bracket, or the members of an object with its closing brace. -/
inductive Part
  | value (v : Value)
  | elements (items : List Value)
  | members (items : List (Octets × Value))

/-- `true` and `false`. -/
def boolText (b : Bool) : Octets :=
  if b then [116, 114, 117, 101] else [102, 97, 108, 115, 101]

/-- `null`. -/
def nullText : Octets := [110, 117, 108, 108]

/-- The text begins with a name and a colon. -/
def Named (s name rest : Octets) : Prop :=
  ∃ s₁ s₂, skip s = 34 :: s₁ ∧ readString s₁ = some (name, s₂) ∧ skip s₂ = 58 :: rest

theorem Named.append {s name rest : Octets} (h : Named s name rest) (more : Octets) :
    Named (s ++ more) name (rest ++ more) := by
  obtain ⟨s₁, s₂, hquote, hname, hcolon⟩ := h
  exact ⟨_, _, skip_append hquote more, readString_append hname more, skip_append hcolon more⟩

theorem Named.unique {s name name' rest rest' : Octets} (h : Named s name rest)
    (h' : Named s name' rest') : name = name' ∧ rest = rest' := by
  obtain ⟨s₁, s₂, hquote, hname, hcolon⟩ := h
  obtain ⟨s₁', s₂', hquote', hname', hcolon'⟩ := h'
  rw [hquote] at hquote'
  cases hquote'
  rw [hname] at hname'
  cases hname'
  rw [hcolon] at hcolon'
  cases hcolon'
  exact ⟨rfl, rfl⟩

/-- The part stands at the front of the text, and the rest follows it. -/
inductive Reads : Octets → Part → Octets → Prop
  | null {s rest} (h : s = nullText ++ rest) : Reads s (.value .null) rest
  | bool {s b rest} (h : s = boolText b ++ rest) : Reads s (.value (.bool b)) rest
  | number {s literal rest} (h : s = literal ++ rest) (hnumber : IsNumber literal)
      (hends : Ends rest) : Reads s (.value (.number literal)) rest
  | string {s s' text rest} (h : s = 34 :: s') (hstring : readString s' = some (text, rest)) :
      Reads s (.value (.string text)) rest
  | emptyArray {s s' rest} (h : s = 91 :: s') (hclose : skip s' = 93 :: rest) :
      Reads s (.value (.array [])) rest
  | array {s s' items rest} (h : s = 91 :: s') (hitems : Reads s' (.elements items) rest) :
      Reads s (.value (.array items)) rest
  | emptyObject {s s' rest} (h : s = 123 :: s') (hclose : skip s' = 125 :: rest) :
      Reads s (.value (.object [])) rest
  | object {s s' items rest} (h : s = 123 :: s') (hitems : Reads s' (.members items) rest) :
      Reads s (.value (.object items)) rest
  | lastElement {s v left rest} (hvalue : Reads (skip s) (.value v) left)
      (hclose : skip left = 93 :: rest) : Reads s (.elements [v]) rest
  | element {s v left s' items rest} (hvalue : Reads (skip s) (.value v) left)
      (hcomma : skip left = 44 :: s') (hmore : Reads s' (.elements items) rest) :
      Reads s (.elements (v :: items)) rest
  | lastMember {s name s' v left rest} (hname : Named s name s')
      (hvalue : Reads (skip s') (.value v) left) (hclose : skip left = 125 :: rest) :
      Reads s (.members [(name, v)]) rest
  | member {s name s' v left s'' items rest} (hname : Named s name s')
      (hvalue : Reads (skip s') (.value v) left) (hcomma : skip left = 44 :: s'')
      (hmore : Reads s'' (.members items) rest) : Reads s (.members ((name, v) :: items)) rest

/-- **A JSON text**: one value, and white space around it. -/
def IsJson (s : Octets) (v : Value) : Prop :=
  ∃ left, Reads (skip s) (.value v) left ∧ skip left = []

/-- How a value begins. -/
theorem Reads.head {s left : Octets} {v : Value} (h : Reads s (.value v) left) :
    ∃ c more, s = c :: more ∧ isBlank c = false ∧ c ≠ 93 := by
  cases h with
  | null h => exact ⟨_, _, h, by decide, by decide⟩
  | @bool _ b _ h =>
      cases b with
      | false => exact ⟨_, _, h, by decide, by decide⟩
      | true => exact ⟨_, _, h, by decide, by decide⟩
  | number h hnumber _ =>
      obtain ⟨c, more, rfl, hc⟩ := hnumber.head
      refine ⟨c, more ++ left, h, ?_⟩
      rcases hc with rfl | hc
      · exact ⟨by decide, by decide⟩
      · have hne : ∀ d : UInt8, isDigit d = false → c ≠ d := by
          intro d hd heq
          rw [heq, hd] at hc
          cases hc
        refine ⟨?_, hne 93 (by decide)⟩
        simp [isBlank, hne 32 (by decide), hne 9 (by decide), hne 10 (by decide),
          hne 13 (by decide)]
  | string h _ => exact ⟨_, _, h, by decide, by decide⟩
  | emptyArray h _ => exact ⟨_, _, h, by decide, by decide⟩
  | array h _ => exact ⟨_, _, h, by decide, by decide⟩
  | emptyObject h _ => exact ⟨_, _, h, by decide, by decide⟩
  | object h _ => exact ⟨_, _, h, by decide, by decide⟩

theorem Reads.skip_eq {s left : Octets} {v : Value} (h : Reads s (.value v) left) :
    skip s = s := by
  obtain ⟨c, more, rfl, hc, -⟩ := h.head
  exact skip_cons hc more

/-- Only a number can go on where it ends. -/
def Part.isNumber : Part → Bool
  | .value (.number _) => true
  | _ => false

/-- What is read is the same in a longer text, if that does not go on with a
number. -/
theorem Reads.append {s left : Octets} {p : Part} (h : Reads s p left) {more : Octets}
    (hmore : left = [] → p.isNumber = true → Ends more) :
    Reads (s ++ more) p (left ++ more) := by
  have hclosed : ∀ {left rest : Octets} {c : UInt8}, skip left = c :: rest →
      ∀ {p : Part}, left = [] → p.isNumber = true → Ends more := by
    intro left rest c h p hnil
    rw [hnil] at h
    cases h
  have hvalue : ∀ {s left : Octets} {v : Value}, Reads (skip s) (.value v) left →
      skip (s ++ more) = skip s ++ more := by
    intro s left v h
    obtain ⟨c, rest, hskip, -⟩ := h.head
    rw [skip_append hskip, hskip]
    rfl
  induction h with
  | null h => exact .null (by rw [h, List.append_assoc])
  | bool h => exact .bool (by rw [h, List.append_assoc])
  | @number s literal rest h hnumber hends =>
      refine .number (by rw [h, List.append_assoc]) hnumber ?_
      cases rest with
      | nil => exact hmore rfl rfl
      | cons c rest => exact fun d hd => hends d hd
  | string h hstring => exact .string (by rw [h]; rfl) (readString_append hstring more)
  | emptyArray h hclose => exact .emptyArray (by rw [h]; rfl) (skip_append hclose more)
  | array h _ ih => exact .array (by rw [h]; rfl) (ih nofun)
  | emptyObject h hclose => exact .emptyObject (by rw [h]; rfl) (skip_append hclose more)
  | object h _ ih => exact .object (by rw [h]; rfl) (ih nofun)
  | lastElement hv hclose ih =>
      refine .lastElement ?_ (skip_append hclose more)
      rw [hvalue hv]
      exact ih (hclosed hclose)
  | element hv hcomma _ ih ihmore =>
      refine .element ?_ (skip_append hcomma more) (ihmore nofun)
      rw [hvalue hv]
      exact ih (hclosed hcomma)
  | lastMember hname hv hclose ih =>
      refine .lastMember (hname.append more) ?_ (skip_append hclose more)
      rw [hvalue hv]
      exact ih (hclosed hclose)
  | member hname hv hcomma _ ih ihmore =>
      refine .member (hname.append more) ?_ (skip_append hcomma more) (ihmore nofun)
      rw [hvalue hv]
      exact ih (hclosed hcomma)

/-! ## What is read is unique -/

theorem cons_ne {c d : UInt8} {s t : Octets} (hne : c ≠ d) (h : c :: s = d :: t) : False :=
  hne (List.cons.inj h).1

theorem IsNumber.cons_ne {c : UInt8} {literal s t : Octets} (h : IsNumber literal)
    (hc : c ≠ 45 ∧ isDigit c = false) (heq : c :: s = literal ++ t) : False := by
  obtain ⟨d, more, rfl, hd⟩ := h.head
  have hcd : c = d := (List.cons.inj heq).1
  subst hcd
  rcases hd with hd | hd
  · exact hc.1 hd
  · rw [hc.2] at hd
    cases hd

theorem boolText_ne {c : UInt8} {b : Bool} {s t : Octets} (hc : c ≠ 116 ∧ c ≠ 102)
    (h : c :: s = boolText b ++ t) : False := by
  cases b with
  | false => exact JsonGrammar.cons_ne hc.2 h
  | true => exact JsonGrammar.cons_ne hc.1 h

section

variable {s left : Octets} {v : Value}

theorem reads_quote_iff :
    Reads (34 :: s) (.value v) left ↔
      ∃ text, v = .string text ∧ readString s = some (text, left) := by
  constructor
  · intro h
    cases h with
    | null h => exact (cons_ne (by decide) h).elim
    | bool h => exact (boolText_ne (by decide) h).elim
    | number h hnumber _ => exact (hnumber.cons_ne (by decide) h).elim
    | string h hstring =>
        cases h
        exact ⟨_, rfl, hstring⟩
    | emptyArray h _ => exact (cons_ne (by decide) h).elim
    | array h _ => exact (cons_ne (by decide) h).elim
    | emptyObject h _ => exact (cons_ne (by decide) h).elim
    | object h _ => exact (cons_ne (by decide) h).elim
  · intro h
    obtain ⟨text, rfl, hstring⟩ := h
    exact .string rfl hstring

theorem reads_bracket_iff :
    Reads (91 :: s) (.value v) left ↔
      (v = .array [] ∧ skip s = 93 :: left) ∨
        ∃ items, v = .array items ∧ Reads s (.elements items) left := by
  constructor
  · intro h
    cases h with
    | null h => exact (cons_ne (by decide) h).elim
    | bool h => exact (boolText_ne (by decide) h).elim
    | number h hnumber _ => exact (hnumber.cons_ne (by decide) h).elim
    | string h _ => exact (cons_ne (by decide) h).elim
    | emptyArray h hclose =>
        cases h
        exact Or.inl ⟨rfl, hclose⟩
    | array h hitems =>
        cases h
        exact Or.inr ⟨_, rfl, hitems⟩
    | emptyObject h _ => exact (cons_ne (by decide) h).elim
    | object h _ => exact (cons_ne (by decide) h).elim
  · intro h
    rcases h with ⟨rfl, hclose⟩ | ⟨items, rfl, hitems⟩
    · exact .emptyArray rfl hclose
    · exact .array rfl hitems

theorem reads_brace_iff :
    Reads (123 :: s) (.value v) left ↔
      (v = .object [] ∧ skip s = 125 :: left) ∨
        ∃ items, v = .object items ∧ Reads s (.members items) left := by
  constructor
  · intro h
    cases h with
    | null h => exact (cons_ne (by decide) h).elim
    | bool h => exact (boolText_ne (by decide) h).elim
    | number h hnumber _ => exact (hnumber.cons_ne (by decide) h).elim
    | string h _ => exact (cons_ne (by decide) h).elim
    | emptyArray h _ => exact (cons_ne (by decide) h).elim
    | array h _ => exact (cons_ne (by decide) h).elim
    | emptyObject h hclose =>
        cases h
        exact Or.inl ⟨rfl, hclose⟩
    | object h hitems =>
        cases h
        exact Or.inr ⟨_, rfl, hitems⟩
  · intro h
    rcases h with ⟨rfl, hclose⟩ | ⟨items, rfl, hitems⟩
    · exact .emptyObject rfl hclose
    · exact .object rfl hitems

theorem Reads.of_nullText {rest : Octets} (h : Reads (nullText ++ rest) (.value v) left) :
    v = .null ∧ left = rest := by
  cases h with
  | null h => exact ⟨rfl, (List.append_cancel_left h).symm⟩
  | bool h => exact (boolText_ne (by decide) h).elim
  | number h hnumber _ => exact (hnumber.cons_ne (by decide) h).elim
  | string h _ => exact (JsonGrammar.cons_ne (by decide) h).elim
  | emptyArray h _ => exact (JsonGrammar.cons_ne (by decide) h).elim
  | array h _ => exact (JsonGrammar.cons_ne (by decide) h).elim
  | emptyObject h _ => exact (JsonGrammar.cons_ne (by decide) h).elim
  | object h _ => exact (JsonGrammar.cons_ne (by decide) h).elim

theorem Reads.of_boolText {b : Bool} {rest : Octets}
    (h : Reads (boolText b ++ rest) (.value v) left) : v = .bool b ∧ left = rest := by
  have hother : ∀ {d : UInt8} {t : Octets}, d ≠ 116 ∧ d ≠ 102 → boolText b ++ rest = d :: t →
      False := fun hd heq => boolText_ne hd heq.symm
  cases h with
  | null h => exact (hother (by decide) h).elim
  | @bool _ b' _ h =>
      cases b with
      | false =>
          cases b' with
          | false => exact ⟨rfl, (List.append_cancel_left h).symm⟩
          | true => exact (JsonGrammar.cons_ne (by decide) h).elim
      | true =>
          cases b' with
          | false => exact (JsonGrammar.cons_ne (by decide) h).elim
          | true => exact ⟨rfl, (List.append_cancel_left h).symm⟩
  | number h hnumber _ =>
      cases b with
      | false => exact (hnumber.cons_ne (by decide) h).elim
      | true => exact (hnumber.cons_ne (by decide) h).elim
  | string h _ => exact (hother (by decide) h).elim
  | emptyArray h _ => exact (hother (by decide) h).elim
  | array h _ => exact (hother (by decide) h).elim
  | emptyObject h _ => exact (hother (by decide) h).elim
  | object h _ => exact (hother (by decide) h).elim

theorem Reads.of_number {literal rest : Octets} (hnumber : IsNumber literal) (hends : Ends rest)
    (h : Reads (literal ++ rest) (.value v) left) : v = .number literal ∧ left = rest := by
  have hother : ∀ {d : UInt8} {t : Octets}, d ≠ 45 ∧ isDigit d = Bool.false →
      literal ++ rest = d :: t → False := fun hd heq => hnumber.cons_ne hd heq.symm
  cases h with
  | null h => exact (hother (by decide) h).elim
  | @bool _ b _ h =>
      cases b with
      | false => exact (hother (by decide) h).elim
      | true => exact (hother (by decide) h).elim
  | number h hnumber' hends' =>
      obtain ⟨rfl, rfl⟩ := hnumber.unique hnumber' hends hends' h
      exact ⟨rfl, rfl⟩
  | string h _ => exact (hother (by decide) h).elim
  | emptyArray h _ => exact (hother (by decide) h).elim
  | array h _ => exact (hother (by decide) h).elim
  | emptyObject h _ => exact (hother (by decide) h).elim
  | object h _ => exact (hother (by decide) h).elim

end

/-- Parts of one kind. -/
def Part.Alike : Part → Part → Prop
  | .value _, .value _ => True
  | .elements _, .elements _ => True
  | .members _, .members _ => True
  | _, _ => False

/-- An array or object that is closed at once has no first element. -/
theorem Reads.not_closed {s left rest : Octets} {v : Value} (h : Reads (skip s) (.value v) left)
    (hclose : skip s = 93 :: rest) : False := by
  obtain ⟨c, more, hskip, -, hc⟩ := h.head
  exact hc (List.cons.inj (hskip.symm.trans hclose)).1

theorem Reads.elements_head {s left : Octets} {items : List Value}
    (h : Reads s (.elements items) left) : ∃ v left', Reads (skip s) (.value v) left' := by
  cases h with
  | lastElement hvalue _ => exact ⟨_, _, hvalue⟩
  | element hvalue _ _ => exact ⟨_, _, hvalue⟩

theorem Reads.members_head {s left : Octets} {items : List (Octets × Value)}
    (h : Reads s (.members items) left) : ∃ s', skip s = 34 :: s' := by
  cases h with
  | lastMember hname _ _ =>
      obtain ⟨s₁, -, hquote, -⟩ := hname
      exact ⟨s₁, hquote⟩
  | member hname _ _ _ =>
      obtain ⟨s₁, -, hquote, -⟩ := hname
      exact ⟨s₁, hquote⟩

/-- **A text has one reading.** -/
theorem Reads.unique {s left left' : Octets} {p p' : Part} (h : Reads s p left)
    (h' : Reads s p' left') (halike : p.Alike p') : p = p' ∧ left = left' := by
  induction h generalizing p' left' with
  | null h =>
      cases p' with
      | value v =>
          subst h
          obtain ⟨rfl, rfl⟩ := h'.of_nullText
          exact ⟨rfl, rfl⟩
      | elements _ => exact halike.elim
      | members _ => exact halike.elim
  | bool h =>
      cases p' with
      | value v =>
          subst h
          obtain ⟨rfl, rfl⟩ := h'.of_boolText
          exact ⟨rfl, rfl⟩
      | elements _ => exact halike.elim
      | members _ => exact halike.elim
  | number h hnumber hends =>
      cases p' with
      | value v =>
          subst h
          obtain ⟨rfl, rfl⟩ := h'.of_number hnumber hends
          exact ⟨rfl, rfl⟩
      | elements _ => exact halike.elim
      | members _ => exact halike.elim
  | string h hstring =>
      cases p' with
      | value v =>
          subst h
          obtain ⟨text, rfl, hstring'⟩ := reads_quote_iff.mp h'
          rw [hstring] at hstring'
          cases hstring'
          exact ⟨rfl, rfl⟩
      | elements _ => exact halike.elim
      | members _ => exact halike.elim
  | emptyArray h hclose =>
      cases p' with
      | value v =>
          subst h
          rcases reads_bracket_iff.mp h' with ⟨rfl, hclose'⟩ | ⟨items, rfl, hitems⟩
          · rw [hclose] at hclose'
            cases hclose'
            exact ⟨rfl, rfl⟩
          · obtain ⟨v, left, hv⟩ := hitems.elements_head
            exact (hv.not_closed hclose).elim
      | elements _ => exact halike.elim
      | members _ => exact halike.elim
  | array h hitems ih =>
      cases p' with
      | value v =>
          subst h
          rcases reads_bracket_iff.mp h' with ⟨rfl, hclose⟩ | ⟨items, rfl, hitems'⟩
          · obtain ⟨v, left, hv⟩ := hitems.elements_head
            exact (hv.not_closed hclose).elim
          · obtain ⟨heq, rfl⟩ := ih hitems' trivial
            cases heq
            exact ⟨rfl, rfl⟩
      | elements _ => exact halike.elim
      | members _ => exact halike.elim
  | emptyObject h hclose =>
      cases p' with
      | value v =>
          subst h
          rcases reads_brace_iff.mp h' with ⟨rfl, hclose'⟩ | ⟨items, rfl, hitems⟩
          · rw [hclose] at hclose'
            cases hclose'
            exact ⟨rfl, rfl⟩
          · obtain ⟨s', hquote⟩ := hitems.members_head
            exact (JsonGrammar.cons_ne (by decide) (hclose.symm.trans hquote)).elim
      | elements _ => exact halike.elim
      | members _ => exact halike.elim
  | object h hitems ih =>
      cases p' with
      | value v =>
          subst h
          rcases reads_brace_iff.mp h' with ⟨rfl, hclose⟩ | ⟨items, rfl, hitems'⟩
          · obtain ⟨s', hquote⟩ := hitems.members_head
            exact (JsonGrammar.cons_ne (by decide) (hclose.symm.trans hquote)).elim
          · obtain ⟨heq, rfl⟩ := ih hitems' trivial
            cases heq
            exact ⟨rfl, rfl⟩
      | elements _ => exact halike.elim
      | members _ => exact halike.elim
  | lastElement hvalue hclose ih =>
      cases h' with
      | lastElement hvalue' hclose' =>
          obtain ⟨heq, rfl⟩ := ih hvalue' trivial
          cases heq
          rw [hclose] at hclose'
          cases hclose'
          exact ⟨rfl, rfl⟩
      | element hvalue' hcomma _ =>
          obtain ⟨-, rfl⟩ := ih hvalue' trivial
          exact (JsonGrammar.cons_ne (by decide) (hclose.symm.trans hcomma)).elim
      | _ => exact halike.elim
  | element hvalue hcomma _ ih ihmore =>
      cases h' with
      | lastElement hvalue' hclose =>
          obtain ⟨-, rfl⟩ := ih hvalue' trivial
          exact (JsonGrammar.cons_ne (by decide) (hclose.symm.trans hcomma)).elim
      | element hvalue' hcomma' hmore' =>
          obtain ⟨heq, rfl⟩ := ih hvalue' trivial
          cases heq
          rw [hcomma] at hcomma'
          cases hcomma'
          obtain ⟨heq, rfl⟩ := ihmore hmore' trivial
          cases heq
          exact ⟨rfl, rfl⟩
      | _ => exact halike.elim
  | lastMember hname hvalue hclose ih =>
      cases h' with
      | lastMember hname' hvalue' hclose' =>
          obtain ⟨rfl, rfl⟩ := hname.unique hname'
          obtain ⟨heq, rfl⟩ := ih hvalue' trivial
          cases heq
          rw [hclose] at hclose'
          cases hclose'
          exact ⟨rfl, rfl⟩
      | member hname' hvalue' hcomma _ =>
          obtain ⟨rfl, rfl⟩ := hname.unique hname'
          obtain ⟨-, rfl⟩ := ih hvalue' trivial
          exact (JsonGrammar.cons_ne (by decide) (hclose.symm.trans hcomma)).elim
      | _ => exact halike.elim
  | member hname hvalue hcomma _ ih ihmore =>
      cases h' with
      | lastMember hname' hvalue' hclose =>
          obtain ⟨rfl, rfl⟩ := hname.unique hname'
          obtain ⟨-, rfl⟩ := ih hvalue' trivial
          exact (JsonGrammar.cons_ne (by decide) (hclose.symm.trans hcomma)).elim
      | member hname' hvalue' hcomma' hmore' =>
          obtain ⟨rfl, rfl⟩ := hname.unique hname'
          obtain ⟨heq, rfl⟩ := ih hvalue' trivial
          cases heq
          rw [hcomma] at hcomma'
          cases hcomma'
          obtain ⟨heq, rfl⟩ := ihmore hmore' trivial
          cases heq
          exact ⟨rfl, rfl⟩
      | _ => exact halike.elim

end JsonGrammar
