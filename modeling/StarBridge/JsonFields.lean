import StarBridge.JsonGrammar

/-!
# Printing objects

A text prints a value if it reads back as the value wherever it ends.  An object
is printed member by member; `reads_member_iff` and `reads_lastMember_iff` take
one member off, in both directions, so that what stands behind decides about the
rest.

A `Field` is a member whose text may or may not be good: good, it prints its
value, and otherwise it does not read back as the value at all.  The fields of an
object come through iff all of them are good (`Field.reads_iff`).
-/

namespace JsonGrammar

/-- Wherever it ends, the text reads back as the value. -/
def Prints (text : Octets) (v : Value) : Prop :=
  ∀ rest, Ends rest → Reads (text ++ rest) (.value v) rest

theorem Prints.skip_eq {text : Octets} {v : Value} (h : Prints text v) (rest : Octets) :
    skip (text ++ rest) = text ++ rest := by
  obtain ⟨c, more, htext, hc, -⟩ := (h [] ends_nil).head
  rw [List.append_nil] at htext
  rw [htext]
  exact skip_cons hc _

theorem Prints.isJson {text : Octets} {v : Value} (h : Prints text v) : IsJson text v := by
  have hskip := h.skip_eq []
  have hread := h [] ends_nil
  rw [List.append_nil] at hskip hread
  exact ⟨[], by rwa [hskip], rfl⟩

/-- What the text is read as. -/
theorem Prints.unique {text rest left : Octets} {v v' : Value} (h : Prints text v)
    (hends : Ends rest) (h' : Reads (text ++ rest) (.value v') left) : v' = v ∧ left = rest := by
  obtain ⟨heq, rfl⟩ := h'.unique (h rest hends) trivial
  cases heq
  exact ⟨rfl, rfl⟩

/-- A text has one value. -/
theorem IsJson.unique {s : Octets} {v v' : Value} (h : IsJson s v) (h' : IsJson s v') :
    v = v' := by
  obtain ⟨left, hread, -⟩ := h
  obtain ⟨left', hread', -⟩ := h'
  obtain ⟨heq, -⟩ := hread.unique hread' trivial
  cases heq
  rfl

theorem Prints.isJson_iff {text : Octets} {v v' : Value} (h : Prints text v) :
    IsJson text v' ↔ v' = v := by
  refine ⟨fun h' => h'.unique h.isJson, ?_⟩
  rintro rfl
  exact h.isJson

/-- A text that is JSON can stand where it ends. -/
theorem IsJson.reads {s : Octets} {v : Value} (h : IsJson s v) {c : UInt8} {rest : Octets}
    (hc : isBlank c = false) (hends : Ends (c :: rest)) :
    ∃ left, Reads (skip (s ++ c :: rest)) (.value v) left ∧ skip left = c :: rest := by
  obtain ⟨left, hread, hleft⟩ := h
  obtain ⟨d, more, hskip, -⟩ := hread.head
  have hmore : Reads (skip s ++ c :: rest) (.value v) (left ++ c :: rest) :=
    hread.append fun _ _ => hends
  refine ⟨left ++ c :: rest, ?_, ?_⟩
  · rw [skip_append hskip]
    rwa [hskip] at hmore
  · have hblank : left.dropWhile isBlank = [] := hleft
    rw [skip, List.dropWhile_append, hblank]
    exact skip_cons hc rest

/-- A front of a JSON text leaves nothing behind the value it has, if it has
one. -/
theorem IsJson.front {front back left : Octets} {v v' : Value} (h : IsJson (front ++ back) v)
    (hfront : Reads (skip front) (.value v') left) : skip left = [] := by
  obtain ⟨left', hread, hleft'⟩ := h
  cases left with
  | nil => rfl
  | cons c left =>
      obtain ⟨d, more, hskip, -⟩ := hfront.head
      have hmore : Reads (skip front ++ back) (.value v') (c :: left ++ back) :=
        hfront.append fun hnil => by cases hnil
      have hsame : skip (front ++ back) = skip front ++ back := by
        rw [skip_append hskip, hskip]
        rfl
      rw [hsame] at hread
      obtain ⟨-, hrest⟩ := hmore.unique hread trivial
      rw [← hrest] at hleft'
      cases hskip' : skip (c :: left) with
      | nil => rfl
      | cons e more' =>
          rw [skip_append hskip'] at hleft'
          cases hleft'

/-- No value is read from the front of an object, whatever is missing at its end. -/
theorem Prints.not_reads_front {front back : Octets} {ms : List (Octets × Value)}
    (h : Prints (front ++ back) (.object ms)) (hback : back ≠ []) {v : Value} {left : Octets} :
    ¬ Reads (skip front) (.value v) left := by
  intro hread
  have hwhole := h [] ends_nil
  rw [List.append_nil] at hwhole
  obtain ⟨c, more, hskip, -⟩ := hread.head
  have hsame : skip (front ++ back) = skip front ++ back := by
    rw [skip_append hskip, hskip]
    rfl
  have hno := hwhole.skip_eq
  rw [hsame] at hno
  -- the text begins with a brace, so what the front is read as is no number
  have hbrace : ∃ s, front ++ back = 123 :: s := by
    cases hwhole with
    | emptyObject heq _ => exact ⟨_, heq⟩
    | object heq _ => exact ⟨_, heq⟩
  obtain ⟨s, hbrace⟩ := hbrace
  have hopens : skip front = 123 :: more := by
    rw [← hno, hskip] at hbrace
    rw [hskip, (List.cons.inj hbrace).1]
  have hmore : Reads (skip front ++ back) (.value v) (left ++ back) := by
    refine hread.append fun _ hnumber => ?_
    rw [hopens] at hread
    cases v with
    | number literal =>
        cases hread with
        | number heq hliteral _ =>
            exact (hliteral.cons_ne ⟨by decide, by decide⟩ heq).elim
    | null | bool _ | string _ | array _ | object _ => cases hnumber
  rw [hno] at hmore
  obtain ⟨-, hnil⟩ := hmore.unique hwhole trivial
  exact hback (List.append_eq_nil_iff.mp hnil).2

/-- **An object that is cut is not JSON.** -/
theorem Prints.not_isJson_front {front back : Octets} {ms : List (Octets × Value)}
    (h : Prints (front ++ back) (.object ms)) (hback : back ≠ []) (v : Value) :
    ¬ IsJson front v := by
  intro hfront
  obtain ⟨left, hread, -⟩ := hfront
  exact h.not_reads_front hback hread

/-! ## Values -/

theorem prints_null : Prints nullText .null := fun _ _ => .null rfl

theorem prints_bool (b : Bool) : Prints (boolText b) (.bool b) := fun _ _ => .bool rfl

theorem prints_number {literal : Octets} (h : IsNumber literal) :
    Prints literal (.number literal) := fun _ hends => .number rfl h hends

/-- A string whose inside reads back as the text. -/
theorem prints_string {inside text : Octets}
    (h : ∀ rest, readString (inside ++ 34 :: rest) = some (text, rest)) :
    Prints (34 :: (inside ++ [34])) (.string text) := by
  intro rest _
  have hshape : 34 :: (inside ++ [34]) ++ rest = 34 :: (inside ++ 34 :: rest) := by simp
  rw [hshape]
  exact .string rfl (h rest)

/-- A plain text as a string. -/
def quote (text : Octets) : Octets := 34 :: (text ++ [34])

theorem Plain.prints {text : Octets} (h : Plain text) : Prints (quote text) (.string text) :=
  prints_string h.readString

/-- Strings, separated by commas, and the closing bracket. -/
def quoteAll : List Octets → Octets
  | [] => [93]
  | [text] => quote text ++ [93]
  | text :: texts => quote text ++ 44 :: quoteAll texts

/-- Values with commas between them, and the closing bracket. -/
def listed : List Octets → Octets
  | [] => [93]
  | [text] => text ++ [93]
  | text :: texts => text ++ 44 :: listed texts

theorem reads_listed {items : List (Octets × Value)} (h : ∀ i ∈ items, Prints i.1 i.2)
    (hne : items ≠ []) (rest : Octets) :
    Reads (listed (items.map Prod.fst) ++ rest) (.elements (items.map Prod.snd)) rest := by
  induction items with
  | nil => exact absurd rfl hne
  | cons i items ih =>
      have hprints := h i List.mem_cons_self
      cases items with
      | nil =>
          have hshape : listed [i.1] ++ rest = i.1 ++ 93 :: rest := by
            simp [listed]
          rw [List.map_singleton, List.map_singleton, hshape]
          refine .lastElement ?_ (skip_cons (by decide) rest)
          rw [hprints.skip_eq]
          exact hprints _ (ends_cons (by decide) _)
      | cons i' items =>
          have hshape : listed ((i :: i' :: items).map Prod.fst) ++ rest =
              i.1 ++ 44 :: (listed ((i' :: items).map Prod.fst) ++ rest) := by
            simp [listed]
          rw [hshape]
          refine .element ?_ (skip_cons (by decide) _)
            (ih (fun t ht => h t (List.mem_cons_of_mem _ ht)) (List.cons_ne_nil _ _))
          rw [hprints.skip_eq]
          exact hprints _ (ends_cons (by decide) _)

/-- **Values in brackets are an array.** -/
theorem prints_listed {items : List (Octets × Value)} (h : ∀ i ∈ items, Prints i.1 i.2)
    (hne : items ≠ []) : Prints (91 :: listed (items.map Prod.fst)) (.array (items.map Prod.snd)) :=
  fun rest _ => .array rfl (reads_listed h hne rest)

theorem exists_prints_listed {texts : List Octets} (h : ∀ text ∈ texts, ∃ v, Prints text v)
    (hne : texts ≠ []) : ∃ values, Prints (91 :: listed texts) (.array values) := by
  have hitems : ∃ items : List (Octets × Value), items.map Prod.fst = texts ∧
      ∀ i ∈ items, Prints i.1 i.2 := by
    clear hne
    induction texts with
    | nil => exact ⟨[], rfl, fun i hi => absurd hi List.not_mem_nil⟩
    | cons text texts ih =>
        obtain ⟨v, hv⟩ := h text List.mem_cons_self
        obtain ⟨items, rfl, hitems⟩ := ih fun t ht => h t (List.mem_cons_of_mem _ ht)
        exact ⟨(text, v) :: items, rfl, List.forall_mem_cons.mpr ⟨hv, hitems⟩⟩
  obtain ⟨items, rfl, hprints⟩ := hitems
  exact ⟨_, prints_listed hprints (by simpa using hne)⟩

theorem quoteAll_eq (texts : List Octets) : quoteAll texts = listed (texts.map quote) := by
  induction texts with
  | nil => rfl
  | cons text texts ih =>
      cases texts with
      | nil => rfl
      | cons text' texts =>
          rw [quoteAll, ih]
          · rfl
          · intro h
            cases h

theorem prints_strings {texts : List Octets} (h : ∀ text ∈ texts, Plain text)
    (hne : texts ≠ []) : Prints (91 :: quoteAll texts) (.array (texts.map .string)) := by
  have hprints : ∀ i ∈ texts.map fun text => (quote text, Value.string text),
      Prints i.1 i.2 := by
    intro i hi
    obtain ⟨text, htext, rfl⟩ := List.mem_map.mp hi
    exact (h text htext).prints
  have harray := prints_listed hprints (by simpa using hne)
  rw [List.map_map, List.map_map] at harray
  rw [quoteAll_eq]
  exact harray

/-! ## Members -/

theorem named_quote {name : Octets} (h : Plain name) (s : Octets) :
    Named (quote name ++ 58 :: s) name s := by
  have hshape : quote name ++ 58 :: s = 34 :: (name ++ 34 :: 58 :: s) := by
    simp [quote]
  rw [hshape]
  exact ⟨_, _, skip_cons (by decide) _, h.readString _, skip_cons (by decide) s⟩

section

variable {name text s rest left : Octets} {v : Value} {ms : List (Octets × Value)}

/-- The first member, whatever its value is. -/
theorem reads_members_value (hname : Plain name)
    (h : Reads (quote name ++ 58 :: s) (.members ms) rest) :
    ∃ v left ms', Reads (skip s) (.value v) left ∧ ms = (name, v) :: ms' ∧
      ((skip left = 125 :: rest ∧ ms' = []) ∨
        ∃ s', skip left = 44 :: s' ∧ Reads s' (.members ms') rest) := by
  cases h with
  | lastMember hnamed hvalue hclose =>
      obtain ⟨rfl, rfl⟩ := hnamed.unique (named_quote hname s)
      exact ⟨_, _, [], hvalue, rfl, Or.inl ⟨hclose, rfl⟩⟩
  | member hnamed hvalue hcomma hmore =>
      obtain ⟨rfl, rfl⟩ := hnamed.unique (named_quote hname s)
      exact ⟨_, _, _, hvalue, rfl, Or.inr ⟨_, hcomma, hmore⟩⟩

/-- **One member.**  The rest of the members decides. -/
theorem reads_member_iff (hname : Plain name) (hprints : Prints text v) :
    Reads (quote name ++ 58 :: (text ++ 44 :: s)) (.members ms) rest ↔
      ∃ ms', ms = (name, v) :: ms' ∧ Reads s (.members ms') rest := by
  have hends : Ends (44 :: s) := ends_cons (by decide) s
  have hskip : skip (44 :: s) = 44 :: s := skip_cons (by decide) s
  constructor
  · intro h
    obtain ⟨v', left, ms', hvalue, rfl, hnext⟩ := reads_members_value hname h
    rw [hprints.skip_eq] at hvalue
    obtain ⟨rfl, rfl⟩ := hprints.unique hends hvalue
    rw [hskip] at hnext
    rcases hnext with ⟨hclose, -⟩ | ⟨s', hcomma, hmore⟩
    · exact (cons_ne (by decide) hclose).elim
    · cases hcomma
      exact ⟨ms', rfl, hmore⟩
  · intro h
    obtain ⟨ms', rfl, hmore⟩ := h
    refine .member (named_quote hname _) ?_ hskip hmore
    rw [hprints.skip_eq]
    exact hprints _ hends

/-- The last member. -/
theorem reads_lastMember_iff (hname : Plain name) (hprints : Prints text v) :
    Reads (quote name ++ 58 :: (text ++ 125 :: s)) (.members ms) rest ↔
      ms = [(name, v)] ∧ rest = s := by
  have hends : Ends (125 :: s) := ends_cons (by decide) s
  have hskip : skip (125 :: s) = 125 :: s := skip_cons (by decide) s
  constructor
  · intro h
    obtain ⟨v', left, ms', hvalue, rfl, hnext⟩ := reads_members_value hname h
    rw [hprints.skip_eq] at hvalue
    obtain ⟨rfl, rfl⟩ := hprints.unique hends hvalue
    rw [hskip] at hnext
    rcases hnext with ⟨hclose, rfl⟩ | ⟨s', hcomma, -⟩
    · cases hclose
      exact ⟨rfl, rfl⟩
    · exact (cons_ne (by decide) hcomma).elim
  · intro h
    obtain ⟨rfl, rfl⟩ := h
    refine .lastMember (named_quote hname _) ?_ hskip
    rw [hprints.skip_eq]
    exact hprints _ hends

theorem prints_emptyArray : Prints [91, 93] (.array []) :=
  fun rest _ => .emptyArray rfl (skip_cons (by decide) rest)

/-- A single element. -/
theorem prints_singleton (hprints : Prints text v) :
    Prints (91 :: (text ++ [93])) (.array [v]) := by
  refine prints_listed (?_ : ∀ i ∈ [(text, v)], Prints i.1 i.2) (List.cons_ne_nil _ _)
  intro i hi
  rw [List.mem_singleton.mp hi]
  exact hprints

/-- Members in braces are an object. -/
theorem prints_object (h : ∀ rest, Reads (text ++ rest) (.members ms) rest) :
    Prints (123 :: text) (.object ms) :=
  fun rest _ => .object rfl (h rest)

/-- An object is its members. -/
theorem isJson_brace_iff (hquote : ∃ s', s = 34 :: s') :
    IsJson (123 :: s) v ↔
      ∃ ms left, v = .object ms ∧ Reads s (.members ms) left ∧ skip left = [] := by
  obtain ⟨s', rfl⟩ := hquote
  have hskip : skip (123 :: 34 :: s') = 123 :: 34 :: s' := skip_cons (by decide) _
  constructor
  · intro h
    obtain ⟨left, hread, hleft⟩ := h
    rw [hskip] at hread
    rcases reads_brace_iff.mp hread with ⟨-, hclose⟩ | ⟨ms, rfl, hmembers⟩
    · rw [skip_cons (by decide)] at hclose
      exact (cons_ne (by decide) hclose).elim
    · exact ⟨ms, left, rfl, hmembers, hleft⟩
  · intro h
    obtain ⟨ms, left, rfl, hmembers, hleft⟩ := h
    refine ⟨left, ?_, hleft⟩
    rw [hskip]
    exact .object rfl hmembers

end

/-! ## Values by their names -/

/-- Where no name comes twice, every member is found. -/
theorem lookup_of_mem {ms : List (Octets × Value)} {name : Octets} {v : Value}
    (hnodup : (ms.map Prod.fst).Nodup) (h : (name, v) ∈ ms) : lookup name ms = some v := by
  induction ms with
  | nil => cases h
  | cons m ms ih =>
      rw [List.map_cons, List.nodup_cons] at hnodup
      rcases List.mem_cons.mp h with rfl | h
      · exact lookup_cons_self _ _ _
      · have hne : m.1 ≠ name := by
          rintro rfl
          exact hnodup.1 (List.mem_map.mpr ⟨_, h, rfl⟩)
        exact (lookup_cons_of_ne hne _ _).trans (ih hnodup.2 h)

theorem lookup_of_not_mem {ms : List (Octets × Value)} {name : Octets}
    (h : name ∉ ms.map Prod.fst) : lookup name ms = none := by
  induction ms with
  | nil => rfl
  | cons m ms ih =>
      rw [List.map_cons, List.mem_cons, not_or] at h
      exact (lookup_cons_of_ne (Ne.symm h.1) _ _).trans (ih h.2)

/-- A member that is printed right. -/
structure Member where
  name : Octets
  text : Octets
  value : Value
  plain : Plain name
  prints : Prints text value

namespace Member

/-- Members as they are printed, in front of others. -/
def printed : List Member → Octets → Octets
  | [], tail => tail
  | m :: ms, tail => quote m.name ++ 58 :: (m.text ++ 44 :: printed ms tail)

/-- The members as they are read. -/
def values (ms : List Member) : List (Octets × Value) := ms.map fun m => (m.name, m.value)

/-- What stands behind members that are printed right decides about the rest. -/
theorem reads_iff {fixed : List Member} {tail rest : Octets} {ms : List (Octets × Value)} :
    Reads (printed fixed tail) (.members ms) rest ↔
      ∃ ms', ms = values fixed ++ ms' ∧ Reads tail (.members ms') rest := by
  induction fixed generalizing ms with
  | nil =>
      refine ⟨fun h => ⟨ms, rfl, h⟩, ?_⟩
      rintro ⟨ms', rfl, h⟩
      exact h
  | cons m fixed ih =>
      rw [printed, reads_member_iff m.plain m.prints]
      constructor
      · intro h
        obtain ⟨ms', rfl, hread⟩ := h
        obtain ⟨ms'', rfl, hbehind⟩ := ih.mp hread
        exact ⟨ms'', rfl, hbehind⟩
      · intro h
        obtain ⟨ms', rfl, h⟩ := h
        exact ⟨values fixed ++ ms', rfl, ih.mpr ⟨ms', rfl, h⟩⟩

/-- Members behind others are found under other names. -/
theorem lookup_behind {fixed : List Member} {name : Octets} (h : name ∉ fixed.map (·.name))
    (ms : List (Octets × Value)) : lookup name (values fixed ++ ms) = lookup name ms := by
  induction fixed with
  | nil => rfl
  | cons m fixed ih =>
      rw [List.map_cons, List.mem_cons, not_or] at h
      exact (lookup_cons_of_ne (Ne.symm h.1) _ _).trans (ih h.2)

theorem printed_append (fixed : List Member) (tail rest : Octets) :
    printed fixed tail ++ rest = printed fixed (tail ++ rest) := by
  induction fixed with
  | nil => rfl
  | cons m fixed ih => simp [printed, ih]

/-- **An object that begins with members that are printed right**: what stands
behind them decides. -/
theorem isJson_printed_iff {m : Member} {fixed : List Member} {tail : Octets} {v : Value} :
    IsJson (123 :: printed (m :: fixed) tail) v ↔
      ∃ ms left, v = .object (values (m :: fixed) ++ ms) ∧ Reads tail (.members ms) left ∧
        skip left = [] := by
  have hobject : IsJson (123 :: printed (m :: fixed) tail) v ↔
      ∃ ms left, v = .object ms ∧ Reads (printed (m :: fixed) tail) (.members ms) left ∧
        skip left = [] := isJson_brace_iff ⟨_, rfl⟩
  rw [hobject]
  constructor
  · intro h
    obtain ⟨ms, left, rfl, hread, hleft⟩ := h
    obtain ⟨ms', rfl, htail⟩ := reads_iff.mp hread
    exact ⟨ms', left, rfl, htail, hleft⟩
  · intro h
    obtain ⟨ms, left, rfl, htail, hleft⟩ := h
    exact ⟨_, left, rfl, reads_iff.mpr ⟨ms, rfl, htail⟩, hleft⟩

/-- Members with a comma in front of each. -/
def led (ms : List Member) : Octets := ms.flatMap fun m => 44 :: (quote m.name ++ 58 :: m.text)

theorem led_append (ms ms' : List Member) : led (ms ++ ms') = led ms ++ led ms' :=
  List.flatMap_append

/-- A comma behind a member is a comma in front of the next. -/
theorem printed_cons_eq (m : Member) (ms : List Member) (tail : Octets) :
    printed (m :: ms) tail = quote m.name ++ 58 :: (m.text ++ (led ms ++ 44 :: tail)) := by
  induction ms generalizing m with
  | nil => rfl
  | cons m' ms ih =>
      rw [printed, ih m']
      simp [led]

/-- Members in braces. -/
def object : List Member → Octets
  | [] => [123, 125]
  | m :: ms => 123 :: (quote m.name ++ 58 :: (m.text ++ (led ms ++ [125])))

/-- **Members in braces are an object**, of the values they print. -/
theorem prints_object_of_members (ms : List Member) : Prints (object ms) (.object (values ms)) := by
  cases ms with
  | nil => exact fun rest _ => .emptyObject rfl (skip_cons (by decide) rest)
  | cons m ms =>
      refine prints_object fun rest => ?_
      induction ms generalizing m with
      | nil =>
          have hshape : quote m.name ++ 58 :: (m.text ++ (led [] ++ [125])) ++ rest =
              quote m.name ++ 58 :: (m.text ++ 125 :: rest) := by
            simp [led]
          rw [hshape]
          exact (reads_lastMember_iff m.plain m.prints).mpr ⟨rfl, rfl⟩
      | cons m' ms ih =>
          have hshape : quote m.name ++ 58 :: (m.text ++ (led (m' :: ms) ++ [125])) ++ rest =
              quote m.name ++ 58 :: (m.text ++ 44 ::
                (quote m'.name ++ 58 :: (m'.text ++ (led ms ++ [125])) ++ rest)) := by
            simp [led]
          rw [hshape]
          exact (reads_member_iff m.plain m.prints).mpr ⟨values (m' :: ms), rfl, ih m'⟩

section

variable (name : Octets) (hname : Plain name)

/-- A member that is an object. -/
def ofObject (ms : List Member) : Member :=
  ⟨name, object ms, .object (values ms), hname, prints_object_of_members ms⟩

/-- A member that is an array of one object. -/
def ofSingleton (ms : List Member) : Member :=
  ⟨name, 91 :: (object ms ++ [93]), .array [.object (values ms)], hname,
    prints_singleton (prints_object_of_members ms)⟩

/-- A member that is an empty array. -/
def ofEmpty : Member := ⟨name, [91, 93], .array [], hname, prints_emptyArray⟩

def ofNull : Member := ⟨name, nullText, .null, hname, prints_null⟩

def ofBool (b : Bool) : Member := ⟨name, boolText b, .bool b, hname, prints_bool b⟩

def ofNumber {literal : Octets} (h : IsNumber literal) : Member :=
  ⟨name, literal, .number literal, hname, prints_number h⟩

/-- A member whose text stands in quotes as it is. -/
def ofInside {inside text : Octets}
    (h : ∀ rest, readString (inside ++ 34 :: rest) = some (text, rest)) : Member :=
  ⟨name, quote inside, .string text, hname, prints_string h⟩

end

end Member

/-! ## Finding values -/

/-- A text that can stand between quotes as it is. -/
def StringBody (inside : Octets) : Prop :=
  ∃ text, readString (inside ++ [34]) = some (text, [])

theorem StringBody.reads {inside : Octets} (h : StringBody inside) :
    ∃ text, ∀ rest, readString (inside ++ 34 :: rest) = some (text, rest) := by
  obtain ⟨text, hread⟩ := h
  refine ⟨text, fun rest => ?_⟩
  simpa using readString_append hread rest

theorem Plain.stringBody {text : Octets} (h : Plain text) : StringBody text :=
  ⟨text, h.readString []⟩

/-- A step into a value: to a member, or to the first element. -/
inductive Hop
  | member (name : Octets)
  | first

/-- The value behind a step. -/
def Value.hop : Hop → Value → Option Value
  | .member name, .object ms => lookup name ms
  | .first, .array (v :: _) => some v
  | _, _ => none

/-- The value at the end of a path. -/
def Value.follow (path : List Hop) (v : Value) : Option Value :=
  path.foldlM (fun v hop => v.hop hop) v

/-! ## Fields -/

/-- A small letter. -/
def isLetter (c : UInt8) : Bool := 97 ≤ c && c ≤ 122

theorem isLetter_ne {c d : UInt8} (h : isLetter c = true) (hd : isLetter d = false) : c ≠ d := by
  rintro rfl
  rw [hd] at h
  cases h

theorem isLetter_not_blank {c : UInt8} (h : isLetter c = true) : isBlank c = false := by
  simp [isBlank, isLetter_ne h (show isLetter 32 = false by decide),
    isLetter_ne h (show isLetter 9 = false by decide),
    isLetter_ne h (show isLetter 10 = false by decide),
    isLetter_ne h (show isLetter 13 = false by decide)]

/-- A plain name that begins with a letter. -/
def IsName (name : Octets) : Prop := Plain name ∧ name.head?.any isLetter = true

instance (name : Octets) : Decidable (IsName name) := inferInstanceAs (Decidable (_ ∧ _))

theorem IsName.letter {name : Octets} (h : IsName name) :
    ∃ c more, name = c :: more ∧ isLetter c = true := by
  cases name with
  | nil => cases h.2
  | cons c more => exact ⟨c, more, rfl, h.2⟩

/-- The text begins with a name that begins with a letter. -/
def OpensName (s : Octets) : Prop := ∃ c more, s = 34 :: c :: more ∧ isLetter c = true

/-- The value that was read is over. -/
def Over (left : Octets) : Prop := ∃ c more, skip left = c :: more ∧ (c = 44 ∨ c = 125)

/-- A string member that another one follows: what stands between its quotes, what
it is meant to say, and when it does. -/
structure Field where
  name : Octets
  inside : Octets
  given : Octets
  good : Prop
  isName : IsName name
  reads : good → ∀ rest, readString (inside ++ 34 :: rest) = some (given, rest)
  only : ∀ {s left : Octets}, OpensName s →
    readString (inside ++ 34 :: 44 :: s) = some (given, left) → Over left → good

namespace Field

/-- The fields as they are printed, in front of the members that follow. -/
def printed : List Field → Octets → Octets
  | [], tail => tail
  | f :: fs, tail => quote f.name ++ 58 :: (quote f.inside ++ 44 :: printed fs tail)

/-- The members the fields are meant to be. -/
def members (fs : List Field) : List (Octets × Value) := fs.map fun f => (f.name, .string f.given)

theorem prints (f : Field) (h : f.good) : Prints (quote f.inside) (.string f.given) :=
  prints_string (f.reads h)

theorem opensName_printed {tail : Octets} (htail : OpensName tail) (fs : List Field) :
    OpensName (printed fs tail) := by
  cases fs with
  | nil => exact htail
  | cons f fs =>
      obtain ⟨c, more, hname, hc⟩ := f.isName.letter
      refine ⟨c, more ++ 34 :: 58 :: (quote f.inside ++ 44 :: printed fs tail), ?_, hc⟩
      simp [printed, quote, hname]

theorem lookup_members {fs : List Field} (hnames : (fs.map (·.name)).Nodup) {f : Field}
    (hf : f ∈ fs) (ms : List (Octets × Value)) : lookup f.name (members fs ++ ms) = some (.string f.given) := by
  induction fs with
  | nil => exact absurd hf List.not_mem_nil
  | cons g fs ih =>
      rw [List.map_cons, List.nodup_cons] at hnames
      rcases List.mem_cons.mp hf with rfl | hf
      · exact lookup_cons_self _ _ _
      · have hne : g.name ≠ f.name := fun heq =>
          hnames.1 (heq ▸ List.mem_map_of_mem (f := fun f => f.name) hf)
        exact (lookup_cons_of_ne hne _ _).trans (ih hnames.2 hf)

/-- Members behind the fields are found under other names. -/
theorem lookup_behind {fs : List Field} {name : Octets} (h : name ∉ fs.map (·.name))
    (ms : List (Octets × Value)) : lookup name (members fs ++ ms) = lookup name ms := by
  induction fs with
  | nil => rfl
  | cons f fs ih =>
      rw [List.map_cons, List.mem_cons, not_or] at h
      exact (lookup_cons_of_ne (Ne.symm h.1) _ _).trans (ih h.2)

theorem printed_append (fs : List Field) (tail rest : Octets) :
    printed fs tail ++ rest = printed fs (tail ++ rest) := by
  induction fs with
  | nil => rfl
  | cons f fs ih => simp [printed, ih]

/-- **Fields come through iff they are good**, if the members behind them do. -/
theorem reads_iff {fs : List Field} (hnames : (fs.map (·.name)).Nodup) {tail rest : Octets}
    (htail : OpensName tail) {ms : List (Octets × Value)} :
    (Reads (printed fs tail) (.members ms) rest ∧
        ∀ f ∈ fs, lookup f.name ms = some (.string f.given)) ↔
      (∀ f ∈ fs, f.good) ∧
        ∃ ms', ms = members fs ++ ms' ∧ Reads tail (.members ms') rest := by
  constructor
  · intro h
    induction fs generalizing ms with
    | nil => exact ⟨fun f hf => absurd hf List.not_mem_nil, ms, rfl, h.1⟩
    | cons f fs ih =>
        obtain ⟨hread, hlookup⟩ := h
        rw [List.map_cons, List.nodup_cons] at hnames
        obtain ⟨v, left, ms', hvalue, rfl, hnext⟩ := reads_members_value f.isName.1 hread
        have hgiven := hlookup f List.mem_cons_self
        rw [lookup_cons_self] at hgiven
        cases hgiven
        have hover : Over left := by
          rcases hnext with ⟨hclose, -⟩ | ⟨s', hcomma, -⟩
          · exact ⟨_, _, hclose, Or.inr rfl⟩
          · exact ⟨_, _, hcomma, Or.inl rfl⟩
        have hshape : quote f.inside ++ 44 :: printed fs tail =
            34 :: (f.inside ++ 34 :: 44 :: printed fs tail) := by
          simp [quote]
        rw [hshape, skip_cons (by decide)] at hvalue
        obtain ⟨text, htext, hstring⟩ := reads_quote_iff.mp hvalue
        cases htext
        have hgood := f.only (opensName_printed htail fs) hstring hover
        obtain ⟨ms'', hms, hmore⟩ := (reads_member_iff f.isName.1 (f.prints hgood)).mp hread
        cases hms
        have hrest : ∀ g ∈ fs, lookup g.name ms' = some (.string g.given) := by
          intro g hg
          have hne : f.name ≠ g.name := fun heq =>
            hnames.1 (heq ▸ List.mem_map_of_mem (f := fun f => f.name) hg)
          rw [← hlookup g (List.mem_cons_of_mem _ hg), lookup_cons_of_ne hne]
        obtain ⟨hall, ms'', rfl, htailread⟩ := ih hnames.2 ⟨hmore, hrest⟩
        refine ⟨fun g hg => ?_, ms'', rfl, htailread⟩
        rcases List.mem_cons.mp hg with rfl | hg
        · exact hgood
        · exact hall g hg
  · intro h
    obtain ⟨hgood, ms', rfl, hread⟩ := h
    refine ⟨?_, fun f hf => lookup_members hnames hf ms'⟩
    clear hnames
    induction fs with
    | nil => exact hread
    | cons f fs ih =>
        refine (reads_member_iff f.isName.1 (f.prints (hgood f List.mem_cons_self))).mpr ?_
        exact ⟨_, rfl, ih fun g hg => hgood g (List.mem_cons_of_mem _ hg)⟩

/-- A member whose text stands in quotes as it is. -/
def raw (name text : Octets) (hname : IsName name) : Field where
  name := name
  inside := text
  given := text
  good := Plain text
  isName := hname
  reads := fun h => h.readString
  only := by
    intro s left hopens hread hover
    obtain ⟨c, more, rfl, hc⟩ := hopens
    rcases plain_of_readString hread with hplain | rfl
    · exact hplain
    · obtain ⟨d, more', hskip, hd⟩ := hover
      rw [skip_cons (isLetter_not_blank hc)] at hskip
      cases hskip
      rcases hd with rfl | rfl
      · exact absurd hc (by decide)
      · exact absurd hc (by decide)

/-- A member of whose text a part is printed, the whole of it if it is good. -/
def cut (name : Octets) {inside kept : Octets} (text : Octets) {good : Prop} (hname : IsName name)
    (hread : ∀ rest, readString (inside ++ 34 :: rest) = some (kept, rest))
    (hgood : kept = text ↔ good) : Field where
  name := name
  inside := inside
  given := text
  good := good
  isName := hname
  reads := fun h rest => (hgood.mpr h) ▸ hread rest
  only := by
    intro s left _ h _
    rw [hread] at h
    cases h
    exact hgood.mp rfl

end Field

/-! ## Members met on the way -/

/-- Members are read from the front, and the first one of the name has the value.  What
stands behind it is not read. -/
inductive Meets (name : Octets) (v : Value) : Octets → Prop
  | here {s s' left} (hname : Named s name s') (hvalue : Reads (skip s') (.value v) left) :
      Meets name v s
  | later {s other s' w left s''} (hname : Named s other s') (hother : other ≠ name)
      (hvalue : Reads (skip s') (.value w) left) (hcomma : skip left = 44 :: s'')
      (hmore : Meets name v s'') : Meets name v s

/-- The text opens an object with such a member. -/
def Bears (text name : Octets) (v : Value) : Prop := ∃ s, skip text = 123 :: s ∧ Meets name v s

/-- Where all members can be read, the member met is the one that is looked up. -/
theorem Reads.meets_iff {s rest name : Octets} {v : Value} {ms : List (Octets × Value)}
    (h : Reads s (.members ms) rest) : Meets name v s ↔ lookup name ms = some v := by
  induction ms generalizing s with
  | nil => cases h
  | cons m ms ih =>
      obtain ⟨other, w⟩ := m
      obtain ⟨s', left, hnamed, hread, hnext⟩ : ∃ s' left, Named s other s' ∧
          Reads (skip s') (.value w) left ∧ ((ms = [] ∧ skip left = 125 :: rest) ∨
            ∃ s'', skip left = 44 :: s'' ∧ Reads s'' (.members ms) rest) := by
        cases h with
        | lastMember hname hvalue hclose => exact ⟨_, _, hname, hvalue, Or.inl ⟨rfl, hclose⟩⟩
        | member hname hvalue hcomma hmore =>
            exact ⟨_, _, hname, hvalue, Or.inr ⟨_, hcomma, hmore⟩⟩
      by_cases hother : other = name
      · subst hother
        rw [lookup_cons_self, Option.some.injEq]
        constructor
        · intro hmeets
          cases hmeets with
          | here hname hvalue =>
              obtain ⟨-, rfl⟩ := hname.unique hnamed
              obtain ⟨heq, -⟩ := hread.unique hvalue trivial
              cases heq
              rfl
          | later hname hne hvalue hcomma hmore => exact absurd (hname.unique hnamed).1 hne
        · intro heq
          rw [← heq]
          exact .here hnamed hread
      · rw [lookup_cons_of_ne hother]
        constructor
        · intro hmeets
          cases hmeets with
          | here hname hvalue => exact absurd (hnamed.unique hname).1 hother
          | later hname hne hvalue hcomma hmore =>
              obtain ⟨-, rfl⟩ := hname.unique hnamed
              obtain ⟨-, rfl⟩ := hread.unique hvalue trivial
              rcases hnext with ⟨-, hclose⟩ | ⟨s'', hcomma', hbehind⟩
              · rw [hclose] at hcomma
                cases hcomma
              · rw [hcomma'] at hcomma
                cases hcomma
                exact (ih hbehind).mp hmore
        · intro hlookup
          rcases hnext with ⟨rfl, -⟩ | ⟨s'', hcomma, hbehind⟩
          · cases hlookup
          · exact .later hnamed hother hread hcomma ((ih hbehind).mpr hlookup)

/-- A member of another name is passed over. -/
theorem meets_member_iff {name other text s : Octets} {v w : Value} (hplain : Plain other)
    (hother : other ≠ name) (hprints : Prints text w) :
    Meets name v (quote other ++ 58 :: (text ++ 44 :: s)) ↔ Meets name v s := by
  have hends : Ends (44 :: s) := ends_cons (by decide) s
  have hskip : skip (44 :: s) = 44 :: s := skip_cons (by decide) s
  have hnamed := named_quote hplain (text ++ 44 :: s)
  constructor
  · intro h
    cases h with
    | here hname hvalue => exact absurd (hnamed.unique hname).1 hother
    | later hname hne hvalue hcomma hmore =>
        obtain ⟨-, rfl⟩ := hname.unique hnamed
        rw [hprints.skip_eq] at hvalue
        obtain ⟨-, rfl⟩ := hprints.unique hends hvalue
        rw [hskip] at hcomma
        cases hcomma
        exact hmore
  · intro h
    have hvalue : Reads (skip (text ++ 44 :: s)) (.value w) (44 :: s) := by
      rw [hprints.skip_eq]
      exact hprints _ hends
    exact .later hnamed hother hvalue hskip h

/-- A member that is a string is met iff the string reads back. -/
theorem meets_string_iff {name text s : Octets} (hplain : Plain name) :
    Meets name (.string text) (quote name ++ 58 :: 34 :: s) ↔
      ∃ left, readString s = some (text, left) := by
  have hnamed := named_quote hplain (34 :: s)
  have hskip : skip (34 :: s) = 34 :: s := skip_cons (by decide) s
  constructor
  · intro h
    cases h with
    | here hname hvalue =>
        obtain ⟨-, rfl⟩ := hname.unique hnamed
        rw [hskip] at hvalue
        obtain ⟨text', heq, hread⟩ := reads_quote_iff.mp hvalue
        cases heq
        exact ⟨_, hread⟩
    | later hname hne hvalue hcomma hmore => exact absurd (hname.unique hnamed).1 hne
  · intro h
    obtain ⟨left, hread⟩ := h
    have hvalue : Reads (skip (34 :: s)) (.value (.string text)) left := by
      rw [hskip]
      exact .string rfl hread
    exact .here hnamed hvalue

end JsonGrammar
