import Mathlib.Data.List.Nodup
import Mathlib.Tactic.Common

/-!
# Configuration files, line by line

A TOML file as far as each line speaks for itself: it is blank or a comment, a
header `[table]`, or a pair `key = value`.  Names and values are taken as they
are written.

* `readLine` reads a line, `linesOf` finds the lines of a text;
* a pair belongs to the table of the last header in front of it, or to none
  (`entries`), so what lines define depends on what stands in front of them
  (`entries_append`);
* `WellDefined` are the lines that can all be read and define no table and no
  key of a table twice.
-/

namespace TomlLines

/-! ## Lines -/

/-- Spaces, tabs and carriage returns. -/
def isSpace (c : UInt8) : Bool := c = 32 || c = 9 || c = 13

/-- A text without the spaces around it. -/
def trim (s : List UInt8) : List UInt8 :=
  ((s.dropWhile isSpace).reverse.dropWhile isSpace).reverse

/-- What a line says. -/
inductive Line where
  | nothing
  | header (table : List UInt8)
  | pair (key value : List UInt8)
  deriving DecidableEq, Repr

/-- A header, behind its opening bracket.  A comment may follow. -/
def readHeader (s : List UInt8) : Option Line :=
  let name := trim (s.takeWhile (· ≠ 93))
  match s.dropWhile (· ≠ 93) with
  | [] => none
  | _ :: behind =>
      if name = [] ∨ 91 ∈ name then none
      else if (trim behind).head?.all (· = 35) then some (.header name)
      else none

/-- A pair: what stands on either side of the first equals sign. -/
def readPair (s : List UInt8) : Option Line :=
  let key := trim (s.takeWhile (· ≠ 61))
  match s.dropWhile (· ≠ 61) with
  | [] => none
  | _ :: behind =>
      if key = [] ∨ trim behind = [] then none else some (.pair key (trim behind))

/-- One line of a file. -/
def readLine (line : List UInt8) : Option Line :=
  if 0 ∈ line then none
  else
    match trim line with
    | [] => some .nothing
    | c :: s =>
        if c = 35 then some .nothing
        else if c = 91 then readHeader s
        else readPair (c :: s)

/-- The lines of a text, as they are read. -/
def linesOf (text : List UInt8) : List (Option Line) := (text.splitOn 10).map readLine

/-! ## What lines define -/

/-- A pair in its table, which is none in front of the first header. -/
structure Entry where
  table : Option (List UInt8)
  key : List UInt8
  value : List UInt8
  deriving DecidableEq, Repr

/-- Where an entry is found. -/
def Entry.place (e : Entry) : Option (List UInt8) × List UInt8 := (e.table, e.key)

/-- The headers of some lines. -/
def headers : List (Option Line) → List (List UInt8)
  | some (.header name) :: rest => name :: headers rest
  | _ :: rest => headers rest
  | [] => []

/-- The table behind some lines that stand in a table. -/
def tableAfter (table : Option (List UInt8)) (lines : List (Option Line)) :
    Option (List UInt8) := (headers lines).getLast?.or table

/-- The entries of some lines that stand in a table. -/
def entries (table : Option (List UInt8)) : List (Option Line) → List Entry
  | some (.header name) :: rest => entries (some name) rest
  | some (.pair key value) :: rest => ⟨table, key, value⟩ :: entries table rest
  | _ :: rest => entries table rest
  | [] => []

/-- Every line can be read, and no table and no key of a table is defined
twice. -/
structure WellDefined (lines : List (Option Line)) : Prop where
  readable : none ∉ lines
  tables : (headers lines).Nodup
  keys : ((entries none lines).map Entry.place).Nodup

/-! ## Lines behind others -/

theorem headers_append (front back : List (Option Line)) :
    headers (front ++ back) = headers front ++ headers back := by
  fun_induction headers front with
  | case1 name rest ih => exact congrArg (name :: ·) ih
  | case2 line rest hline ih =>
      rw [List.cons_append, headers, ih]
      exact hline
  | case3 => rfl

theorem tableAfter_header (table : Option (List UInt8)) (name : List UInt8)
    (rest : List (Option Line)) :
    tableAfter table (some (.header name) :: rest) = tableAfter (some name) rest := by
  rw [tableAfter, tableAfter, headers, List.getLast?_cons, Option.some_or]
  cases (headers rest).getLast? with
  | none => rfl
  | some last => rfl

/-- **What follows some lines lands in their last table.** -/
theorem entries_append (table : Option (List UInt8)) (front back : List (Option Line)) :
    entries table (front ++ back) =
      entries table front ++ entries (tableAfter table front) back := by
  fun_induction entries table front with
  | case1 table name rest ih =>
      rw [List.cons_append, entries, ih, tableAfter_header]
  | case2 table key value rest ih =>
      rw [List.cons_append, entries, ih]
      rfl
  | case3 table line rest hheader hpair ih =>
      have htable : tableAfter table (line :: rest) = tableAfter table rest := by
        rw [tableAfter, headers]
        · rfl
        · exact hheader
      rw [List.cons_append, entries, ih, htable]
      · exact hheader
      · exact hpair
  | case4 table => rfl

/-- A blank line at the end says nothing. -/
theorem headers_append_nothing (lines : List (Option Line)) :
    headers (lines ++ [some .nothing]) = headers lines := by
  rw [headers_append]
  exact List.append_nil _

theorem entries_append_nothing (table : Option (List UInt8)) (lines : List (Option Line)) :
    entries table (lines ++ [some .nothing]) = entries table lines := by
  rw [entries_append]
  exact List.append_nil _

theorem wellDefined_append_nothing {lines : List (Option Line)} :
    WellDefined (lines ++ [some .nothing]) ↔ WellDefined lines := by
  constructor
  · rintro ⟨hread, htables, hkeys⟩
    rw [headers_append_nothing] at htables
    rw [entries_append_nothing] at hkeys
    exact ⟨fun h => hread (List.mem_append_left _ h), htables, hkeys⟩
  · rintro ⟨hread, htables, hkeys⟩
    refine ⟨fun h => ?_, ?_, ?_⟩
    · rcases List.mem_append.mp h with h | h
      · exact hread h
      · cases List.mem_singleton.mp h
    · rwa [headers_append_nothing]
    · rwa [entries_append_nothing]

/-- An entry stands in the first table or under a header. -/
theorem table_of_mem_entries {table : Option (List UInt8)} {lines : List (Option Line)}
    {e : Entry} (he : e ∈ entries table lines) :
    e.table = table ∨ ∃ name ∈ headers lines, e.table = some name := by
  fun_induction entries table lines with
  | case1 table name rest ih =>
      rcases ih he with htable | ⟨name', hname, htable⟩
      · exact Or.inr ⟨name, List.mem_cons_self, htable⟩
      · exact Or.inr ⟨name', List.mem_cons_of_mem _ hname, htable⟩
  | case2 table key value rest ih =>
      rcases List.mem_cons.mp he with rfl | he
      · exact Or.inl rfl
      · exact ih he
  | case3 table line rest hheader hpair ih =>
      rw [headers]
      · exact ih he
      · exact hheader
  | case4 table => cases he

theorem tableAfter_eq_none_iff {lines : List (Option Line)} :
    tableAfter none lines = none ↔ headers lines = [] := by
  rw [tableAfter, Option.or_none, List.getLast?_eq_none_iff]

/-- Where two stretches of lines are well defined together. -/
theorem wellDefined_append_iff {front back : List (Option Line)} :
    WellDefined (front ++ back) ↔
      WellDefined front ∧ none ∉ back ∧ (headers back).Nodup ∧
        (headers front).Disjoint (headers back) ∧
        ((entries (tableAfter none front) back).map Entry.place).Nodup ∧
        ((entries none front).map Entry.place).Disjoint
          ((entries (tableAfter none front) back).map Entry.place) := by
  constructor
  · rintro ⟨hread, htables, hkeys⟩
    rw [headers_append] at htables
    rw [entries_append, List.map_append] at hkeys
    obtain ⟨htables, htables', hapart⟩ := List.nodup_append'.mp htables
    obtain ⟨hkeys, hkeys', hplaces⟩ := List.nodup_append'.mp hkeys
    exact ⟨⟨fun h => hread (List.mem_append_left _ h), htables, hkeys⟩,
      fun h => hread (List.mem_append_right _ h), htables', hapart, hkeys', hplaces⟩
  · rintro ⟨hfront, hread, htables, hapart, hkeys, hplaces⟩
    refine ⟨?_, ?_, ?_⟩
    · intro hmem
      exact (List.mem_append.mp hmem).elim hfront.readable hread
    · rw [headers_append]
      exact List.nodup_append'.mpr ⟨hfront.tables, htables, hapart⟩
    · rw [entries_append, List.map_append]
      exact List.nodup_append'.mpr ⟨hfront.keys, hkeys, hplaces⟩

/-! ## Lines of a text -/

theorem linesOf_line {line : List UInt8} (h : 10 ∉ line) (rest : List UInt8) :
    linesOf (line ++ 10 :: rest) = readLine line :: linesOf rest := by
  rw [linesOf, List.splitOn_append_cons_self_of_not_mem h, List.map_cons]
  rfl

/-- A text that ends in a line break has its lines in front of whatever follows. -/
theorem linesOf_break (front back : List UInt8) :
    linesOf (front ++ 10 :: back) = linesOf front ++ linesOf back := by
  rw [linesOf, List.splitOn_append_cons_self, List.map_append]
  rfl

/-- What can be read has no terminator. -/
theorem zero_not_mem_of_readable {text : List UInt8} (h : none ∉ linesOf text) : 0 ∉ text := by
  have hline : ∀ line : List UInt8, readLine line ≠ none → 0 ∉ line := by
    intro line hread hmem
    exact hread (if_pos hmem)
  induction hlen : text.length using Nat.strongRecOn generalizing text with
  | _ n ih =>
      by_cases hbreak : 10 ∈ text
      · obtain ⟨line, rest, rfl, hfree⟩ := List.eq_append_cons_of_mem hbreak
        rw [linesOf_line hfree] at h
        have hlt : rest.length < n := by simp at hlen; omega
        have hfirst := hline line fun hnone => h (hnone ▸ List.mem_cons_self)
        have hrest := ih _ hlt (fun hmem => h (List.mem_cons_of_mem _ hmem)) rfl
        simp [hfirst, hrest]
      · rw [linesOf, List.splitOn_eq_singleton hbreak] at h
        exact hline text fun hnone => h (hnone ▸ List.mem_cons_self)

/-! ## Reading a line -/

theorem dropWhile_isSpace {s : List UInt8} (h : s.head?.all (isSpace · = false)) :
    s.dropWhile isSpace = s := by
  cases s with
  | nil => rfl
  | cons c s =>
      have hc : isSpace c = false := by simpa using h
      rw [List.dropWhile_cons, hc]
      rfl

/-- A text without spaces at its ends is not shortened. -/
theorem trim_eq_self {s : List UInt8} (hfirst : s.head?.all (isSpace · = false))
    (hlast : s.getLast?.all (isSpace · = false)) : trim s = s := by
  have hback : s.reverse.head?.all (isSpace · = false) := by rwa [List.head?_reverse]
  rw [trim, dropWhile_isSpace hfirst, dropWhile_isSpace hback, List.reverse_reverse]

theorem trim_space (s : List UInt8) : trim (32 :: s) = trim s := rfl

theorem trim_append_space {s : List UInt8} (hs : s ≠ []) (hfirst : s.head?.all (isSpace · = false))
    (hlast : s.getLast?.all (isSpace · = false)) : trim (s ++ [32]) = s := by
  have hback : s.reverse.head?.all (isSpace · = false) := by rwa [List.head?_reverse]
  have hfront : (s ++ [32]).head?.all (isSpace · = false) := by
    rwa [List.head?_append_of_ne_nil s hs]
  rw [trim, dropWhile_isSpace hfront, List.reverse_append]
  rw [show ([32] : List UInt8).reverse ++ s.reverse = 32 :: s.reverse from rfl,
    List.dropWhile_cons, if_pos (by rfl), dropWhile_isSpace hback, List.reverse_reverse]

/-- A key as it is written in most files: letters, digits and the like. -/
structure BareKey (key : List UInt8) : Prop where
  nonempty : key ≠ []
  bare : ∀ c ∈ key, isSpace c = false ∧ c ≠ 0 ∧ c ≠ 35 ∧ c ≠ 61 ∧ c ≠ 91

/-- A value that is its own text. -/
structure PlainValue (value : List UInt8) : Prop where
  nonempty : value ≠ []
  first : value.head?.all (isSpace · = false)
  last : value.getLast?.all (isSpace · = false)
  zero_not_mem : 0 ∉ value

/-- A key, an equals sign between two spaces, and a value. -/
theorem readLine_pair {key value : List UInt8} (hkey : BareKey key) (hvalue : PlainValue value) :
    readLine (key ++ 32 :: 61 :: 32 :: value) = some (.pair key value) := by
  have hzero : 0 ∉ key ++ 32 :: 61 :: 32 :: value := by
    intro hmem
    rcases List.mem_append.mp hmem with hmem | hmem
    · exact (hkey.bare 0 hmem).2.1 rfl
    · simp [hvalue.zero_not_mem] at hmem
  have hends : ∀ {p : UInt8 → Bool}, (∀ c ∈ key, p c = true) → key.head?.all p := by
    intro p hp
    cases hhead : key.head? with
    | none => rfl
    | some c => exact hp c (List.mem_of_head? hhead)
  have hfirst : key.head?.all (isSpace · = false) :=
    hends fun c hc => decide_eq_true (hkey.bare c hc).1
  have hlast : key.getLast?.all (isSpace · = false) := by
    cases hkeyLast : key.getLast? with
    | none => rfl
    | some c => exact decide_eq_true (hkey.bare c (List.mem_of_getLast? hkeyLast)).1
  have hline : trim (key ++ 32 :: 61 :: 32 :: value) = key ++ 32 :: 61 :: 32 :: value := by
    refine trim_eq_self ?_ ?_
    · rwa [List.head?_append_of_ne_nil key hkey.nonempty]
    · rw [List.getLast?_append_of_ne_nil key (by simp)]
      have hskip : (32 :: 61 :: 32 :: value).getLast? = value.getLast? :=
        List.getLast?_append_of_ne_nil [32, 61, 32] hvalue.nonempty
      rw [hskip]
      exact hvalue.last
  have hkeep : ∀ c ∈ key ++ [32], decide (c ≠ 61) = true := by
    intro c hc
    rcases List.mem_append.mp hc with hc | hc
    · exact decide_eq_true (hkey.bare c hc).2.2.2.1
    · rw [List.mem_singleton.mp hc]
      rfl
  have hshape : key ++ 32 :: 61 :: 32 :: value = key ++ [32] ++ 61 :: 32 :: value := by simp
  have hpair : readPair (key ++ 32 :: 61 :: 32 :: value) = some (.pair key value) := by
    unfold readPair
    rw [hshape, List.takeWhile_append_of_pos hkeep, List.dropWhile_append_of_pos hkeep,
      List.takeWhile_cons_of_neg (by decide), List.dropWhile_cons_of_neg (by decide),
      List.append_nil, trim_append_space hkey.nonempty hfirst hlast]
    dsimp only
    rw [trim_space, trim_eq_self hvalue.first hvalue.last,
      if_neg (by simp [hkey.nonempty, hvalue.nonempty])]
  obtain ⟨c, more, rfl⟩ := List.exists_cons_of_ne_nil hkey.nonempty
  have hc := hkey.bare c List.mem_cons_self
  rw [readLine, if_neg hzero, hline]
  rw [List.cons_append] at hpair ⊢
  dsimp only
  rw [if_neg hc.2.2.1, if_neg hc.2.2.2.2, hpair]

end TomlLines
