import StarBridge.HeaderLines
import StarBridge.JsonSpelling

/-!
# The host check

A browser that was led to the bridge by a foreign name says so in its `Host`
header, and `validate_host_header` is there to turn it away.  What the check
compares is a part of the first value it finds: up to the first closing bracket,
or up to the first colon, and never more than 255 bytes.  `host_check_iff` says
for which requests this part stands for the whole value, as kinds of requests for
which it does not (`Misread`).
-/

namespace StarBridge

open CText

/-! ## What a value names -/

/-- A group of an IPv6 address. -/
def IsGroup (s : Bytes) : Prop :=
  s ≠ [] ∧ s.length ≤ 4 ∧ ∀ c ∈ s, (48 ≤ c ∧ c ≤ 57) ∨ (65 ≤ c ∧ c ≤ 70) ∨ (97 ≤ c ∧ c ≤ 102)

/-- An IPv4 address. -/
def IsDotted (s : Bytes) : Prop :=
  ∃ a b c d, a ≤ 255 ∧ b ≤ 255 ∧ c ≤ 255 ∧ d ≤ 255 ∧
    s = decimal a ++ 46 :: (decimal b ++ 46 :: (decimal c ++ 46 :: decimal d))

/-- Groups with colons between them, and how many there are.  Where `dotted` says
so, an IPv4 address can stand for the last two. -/
inductive Groups (dotted : Bool) : Bytes → Nat → Prop
  | one {s : Bytes} (group : IsGroup s) : Groups dotted s 1
  | two {s : Bytes} (allowed : dotted = true) (address : IsDotted s) : Groups dotted s 2
  | more {s rest : Bytes} {n : Nat} (group : IsGroup s) (behind : Groups dotted rest n) :
      Groups dotted (s ++ 58 :: rest) (n + 1)

/-- The text of an IPv6 address: eight groups, or fewer around a double colon. -/
def IsIPv6 (s : Bytes) : Prop :=
  Groups true s 8 ∨
    ∃ left m right n, s = left ++ 58 :: 58 :: right ∧ m + n ≤ 7 ∧
      (left = [] ∧ m = 0 ∨ Groups false left m) ∧ (right = [] ∧ n = 0 ∨ Groups true right n)

/-- Nothing, or a colon and decimal digits. -/
def IsPort (port : Bytes) : Prop :=
  port = [] ∨ ∃ digits, port = 58 :: digits ∧ JsonGrammar.Digits digits

/-- The whole value is an allowed host, in brackets if it is an IPv6 address,
with or without a port. -/
def NamesAllowed (cfg : ServerConfig) (value : Bytes) : Prop :=
  ∃ host port, hostIsAllowed cfg host = true ∧ IsPort port ∧
    (value = host ++ port ∨ IsIPv6 host ∧ value = 91 :: (host ++ 93 :: port))

/-- The values of the `Host` headers. -/
def HeadedRequest.hostValues (r : HeadedRequest) : List Bytes :=
  r.fields.filterMap (fieldValue (lit "Host"))

/-! ## What is compared -/

/-- The value of the first line that reads like a `Host` header, and the text
behind it. -/
def HeadedRequest.firstHost (r : HeadedRequest) : Option (Bytes × Bytes) :=
  (firstField (lit "Host") r.lines).map fun (value, more) =>
    (value, crlf ++ linesText more (cstr r.body))

/-- A byte that ends a host without brackets. -/
def endsHost (value : Bytes) (c : UInt8) : Bool :=
  c = 13 || c = 10 || (c = 58 && value.head? != some 58)

/-- The part of a value that is compared with the allowed hosts. -/
inductive Compared (value behind : Bytes) : Bytes → Prop
  | bracketed {inside rest : Bytes} (opens : value.head? = some 91)
      (text : value ++ behind = 91 :: (inside ++ 93 :: rest)) (closes : 93 ∉ inside) :
      Compared value behind ((91 :: (inside ++ [93])).take 255)
  | plain (bare : value.head? ≠ some 91) :
      Compared value behind ((value.takeWhile fun c => !endsHost value c).take 255)

/-- A part for which the check lets the request through. -/
def Accepts (cfg : ServerConfig) (part : Bytes) : Prop :=
  part = lit "[::1]" ∨ hostIsAllowed cfg part = true

/-- The requests on which the check is wrong. -/
inductive Misread (cfg : ServerConfig) (r : HeadedRequest) : Prop
  /-- Something other than a port stands behind an allowed part. -/
  | trailing {value behind part rest : Bytes} (first : r.firstHost = some (value, behind))
      (compared : Compared value behind part) (accepted : Accepts cfg part)
      (cut : value = part ++ rest) (other : ¬ IsPort rest)
      (unnamed : ∀ v ∈ r.hostValues, ¬ NamesAllowed cfg v)
  /-- The bracket that closes an allowed part stands behind the line. -/
  | runsOn {value behind part : Bytes} (first : r.firstHost = some (value, behind))
      (compared : Compared value behind part) (accepted : Accepts cfg part)
      (past : ¬ part <+: value) (unnamed : ∀ v ∈ r.hostValues, ¬ NamesAllowed cfg v)
  /-- The request line is taken for the header. -/
  | requestLine {value behind part : Bytes} (first : r.firstHost = some (value, behind))
      (compared : Compared value behind part) (accepted : Accepts cfg part)
      (outside : value ∉ r.hostValues) (unnamed : ∀ v ∈ r.hostValues, ¬ NamesAllowed cfg v)
  /-- An allowed IPv6 address, other than `::1`, stands in brackets. -/
  | brackets {value behind host port : Bytes} (first : r.firstHost = some (value, behind))
      (listed : value ∈ r.hostValues) (allowed : hostIsAllowed cfg host = true)
      (address : IsIPv6 host) (isPort : IsPort port) (text : value = 91 :: (host ++ 93 :: port))
      (other : host ≠ lit "::1") (bare : hostIsAllowed cfg (91 :: (host ++ [93])) = false)
  /-- An allowed host is named, but another part is compared. -/
  | inside {value behind host port : Bytes} (first : r.firstHost = some (value, behind))
      (listed : value ∈ r.hostValues) (allowed : hostIsAllowed cfg host = true)
      (isPort : IsPort port) (text : value = host ++ port)
      (refused : ∀ part, Compared value behind part → part ≠ host ∧ ¬ Accepts cfg part)
  /-- An allowed host is named in another header than the first. -/
  | later {value behind other : Bytes} (first : r.firstHost = some (value, behind))
      (refused : ∀ part, Compared value behind part → ¬ Accepts cfg part)
      (listed : other ∈ r.hostValues) (differs : other ≠ value)
      (names : NamesAllowed cfg other)

/-! ## The part -/

theorem hostIsAllowed_ne_nil {cfg : ServerConfig} {host : Bytes}
    (h : hostIsAllowed cfg host = true) : host ≠ [] := by
  rintro rfl
  cases h

theorem hostIsAllowed_bindHost {cfg : ServerConfig} (h : cfg.bindHost ≠ []) :
    hostIsAllowed cfg cfg.bindHost = true := by
  unfold hostIsAllowed
  simp [h]

/-- The part that is compared where no bracket opens. -/
theorem plain_part (value rest : Bytes) :
    let line := (value ++ (crlf ++ rest)).takeWhile fun c => c ≠ 13 && c ≠ 10
    (if line.contains 58 ∧ upTo 58 line ≠ [] then upTo 58 line else line) =
      value.takeWhile fun c => !endsHost value c := by
  have hline : (value ++ (crlf ++ rest)).takeWhile (fun c => c ≠ 13 && c ≠ 10) =
      value.takeWhile fun c => c ≠ 13 && c ≠ 10 :=
    takeWhile_stop (by decide) value (10 :: rest)
  dsimp only
  rw [hline]
  by_cases hcolon : value.head? = some 58
  · obtain ⟨value, rfl⟩ : ∃ v, value = 58 :: v := by
      cases value with
      | nil => cases hcolon
      | cons c v => exact ⟨v, by rw [Option.some.inj hcolon]⟩
    have hempty : upTo 58 ((58 :: value).takeWhile fun c => c ≠ 13 && c ≠ 10) = [] := rfl
    rw [if_neg fun h => h.2 hempty]
    congr 1
    funext c
    simp [endsHost]
  · have hpart : upTo 58 (value.takeWhile fun c => c ≠ 13 && c ≠ 10) =
        value.takeWhile fun c => !endsHost value c := by
      rw [upTo, List.takeWhile_takeWhile]
      congr 1
      funext c
      have hother : (value.head? != some 58) = true := by simpa using hcolon
      rw [endsHost, hother]
      by_cases h13 : c = 13 <;> by_cases h10 : c = 10 <;> by_cases h58 : c = 58 <;>
        simp [h13, h10, h58]
    rw [← hpart]
    by_cases hcontains : (value.takeWhile fun c => c ≠ 13 && c ≠ 10).contains 58 = true
    · have hsome : upTo 58 (value.takeWhile fun c => c ≠ 13 && c ≠ 10) ≠ [] := by
        intro hnil
        cases value with
        | nil => cases hcontains
        | cons c value =>
            rw [List.takeWhile_cons] at hcontains hnil
            split_ifs at hcontains hnil with hc
            · have hne : c ≠ 58 := fun heq => hcolon (by rw [heq]; rfl)
              rw [upTo_cons hne] at hnil
              cases hnil
            · cases hcontains
      rw [if_pos ⟨hcontains, hsome⟩]
    · rw [if_neg fun h => hcontains h.1]
      refine (upTo_eq_self fun hmem => hcontains ?_).symm
      exact List.contains_iff_mem.mpr hmem

theorem upTo_bracket {text inside rest : Bytes} (htext : text = 91 :: (inside ++ 93 :: rest))
    (hinside : 93 ∉ inside) : upTo 93 text = 91 :: inside := by
  have hfront : (93 : UInt8) ∉ 91 :: inside := by
    rw [List.mem_cons, not_or]
    exact ⟨by decide, hinside⟩
  rw [htext, ← List.cons_append, upTo_append hfront]
  exact List.append_nil _

theorem plain_head {value : Bytes} {p : UInt8 → Bool} {n : Nat} {c : UInt8} {more : Bytes}
    (h : (value.takeWhile p).take n = c :: more) : value.head? = some c := by
  have hfront : (value.takeWhile p).take n <+: value :=
    (List.take_prefix n _).trans (List.takeWhile_prefix p)
  obtain ⟨rest, hrest⟩ := hfront
  rw [← hrest, h]
  rfl

theorem accepts_iff (cfg : ServerConfig) (part : Bytes) :
    (part == lit "[::1]" || (cfg.bindHost ≠ [] && part == cfg.bindHost) ||
      hostIsAllowed cfg part) = true ↔ Accepts cfg part := by
  unfold Accepts
  constructor
  · intro h
    rcases Bool.or_eq_true_iff.mp h with h | h
    · rcases Bool.or_eq_true_iff.mp h with h | h
      · exact Or.inl (beq_iff_eq.mp h)
      · obtain ⟨hbind, heq⟩ := Bool.and_eq_true_iff.mp h
        rw [beq_iff_eq.mp heq]
        exact Or.inr (hostIsAllowed_bindHost (of_decide_eq_true hbind))
    · exact Or.inr h
  · rintro (h | h)
    · rw [h]
      rfl
    · rw [h, Bool.or_true]

/-- **What the check decides by.** -/
theorem hostValueAllowed_iff (cfg : ServerConfig) {value : Bytes}
    (hblank : value.dropWhile isBlank = value) (rest : Bytes) :
    hostValueAllowed cfg (value ++ (crlf ++ rest)) = true ↔
      ∃ part, Compared value (crlf ++ rest) part ∧ Accepts cfg part := by
  have hskip : (value ++ (crlf ++ rest)).dropWhile isBlank = value ++ (crlf ++ rest) := by
    have hstop := dropWhile_stop (show isBlank 13 = false by decide) value (10 :: rest)
    rw [hblank] at hstop
    exact hstop
  have hhead : (value ++ (crlf ++ rest)).head? = some 91 ↔ value.head? = some 91 := by
    cases value with
    | nil =>
        constructor
        · intro h
          cases h
        · intro h
          cases h
    | cons c value => rfl
  unfold hostValueAllowed
  dsimp only
  rw [hskip, plain_part]
  by_cases hopen : value.head? = some 91
  · rw [if_pos (hhead.mpr hopen)]
    obtain ⟨value, rfl⟩ : ∃ v, value = 91 :: v := by
      cases value with
      | nil => cases hopen
      | cons c v => exact ⟨v, by rw [Option.some.inj hopen]⟩
    by_cases hclose : (91 :: value ++ (crlf ++ rest)).contains 93 = true
    · obtain ⟨inside, behind, htext, hinside⟩ : ∃ inside behind,
          91 :: value ++ (crlf ++ rest) = 91 :: (inside ++ 93 :: behind) ∧ 93 ∉ inside := by
        have hmem : 93 ∈ value ++ (crlf ++ rest) :=
          (List.mem_cons.mp (List.contains_iff_mem.mp hclose)).resolve_left (by decide)
        obtain ⟨inside, behind, hsplit, hinside⟩ := List.eq_append_cons_of_mem hmem
        exact ⟨inside, behind, by rw [List.cons_append, hsplit], hinside⟩
      have hupTo := upTo_bracket htext hinside
      rw [if_pos hclose, hupTo, accepts_iff]
      constructor
      · intro h
        exact ⟨_, .bracketed hopen htext hinside, h⟩
      · rintro ⟨part, hcompared, haccepts⟩
        cases hcompared with
        | bracketed _ htext' hinside' =>
            have hsame := hupTo.symm.trans (upTo_bracket htext' hinside')
            rw [(List.cons.inj hsame).2]
            exact haccepts
        | plain hbare => exact absurd hopen hbare
    · rw [if_neg hclose]
      constructor
      · intro h
        cases h
      rintro ⟨part, hcompared, -⟩
      cases hcompared with
      | bracketed _ htext _ =>
          refine absurd ?_ hclose
          rw [htext]
          simp
      | plain hbare => exact absurd hopen hbare
  · rw [if_neg fun h => hopen (hhead.mp h)]
    constructor
    · intro h
      exact ⟨_, .plain hopen, Or.inr h⟩
    · rintro ⟨part, hcompared, haccepts⟩
      cases hcompared with
      | bracketed hopens _ _ => exact absurd hopens hopen
      | plain _ =>
          rcases haccepts with haccepts | haccepts
          · -- no plain part starts with a bracket
            exact absurd (plain_head haccepts) hopen
          · exact haccepts

/-! ## The first value -/

theorem fieldValue_stripped {name line value : Bytes} (h : fieldValue name line = some value) :
    value.dropWhile isBlank = value := by
  unfold fieldValue at h
  split_ifs at h
  cases h
  exact List.dropWhile_idempotent _ _

theorem firstField_mem {name : Bytes} {lines more : List Bytes} {value : Bytes}
    (h : firstField name lines = some (value, more)) :
    ∃ line ∈ lines, fieldValue name line = some value := by
  induction lines with
  | nil => cases h
  | cons line lines ih =>
      rw [firstField] at h
      cases hfield : fieldValue name line with
      | some value' =>
          rw [hfield] at h
          cases h
          exact ⟨line, List.mem_cons_self, hfield⟩
      | none =>
          rw [hfield] at h
          obtain ⟨line', hmem, hvalue⟩ := ih h
          exact ⟨line', List.mem_cons_of_mem _ hmem, hvalue⟩

theorem firstField_isSome {name : Bytes} {lines : List Bytes} {line value : Bytes}
    (hline : line ∈ lines) (h : fieldValue name line = some value) :
    ∃ found, firstField name lines = some found := by
  induction lines with
  | nil => cases hline
  | cons line' lines ih =>
      rw [firstField]
      cases hfield : fieldValue name line' with
      | some value' => exact ⟨_, rfl⟩
      | none =>
          rcases List.mem_cons.mp hline with rfl | hmem
          · rw [h] at hfield
            cases hfield
          · exact ih hmem

namespace HeadedRequest

variable {r : HeadedRequest}

theorem firstHost_of_listed {value : Bytes} (h : value ∈ r.hostValues) :
    ∃ first behind, r.firstHost = some (first, behind) := by
  obtain ⟨line, hline, hvalue⟩ := List.mem_filterMap.mp h
  obtain ⟨⟨first, more⟩, hfound⟩ :=
    firstField_isSome (show line ∈ r.lines from List.mem_cons_of_mem _ hline) hvalue
  exact ⟨first, _, by rw [firstHost, hfound]; rfl⟩

/-- The check, by the part of the first value. -/
theorem validateHostHeader_iff (cfg : ServerConfig)
    (hother : (lit "OPTIONS ").isPrefixOf (cstr r.bytes) = false) :
    validateHostHeader cfg (cstr r.bytes) = true ↔
      ∃ value behind part, r.firstHost = some (value, behind) ∧ Compared value behind part ∧
        Accepts cfg part := by
  have hvalue := r.findHeaderValue_eq (lit "Host")
  rw [validateHostHeader, if_neg (by rw [hother]; exact Bool.false_ne_true), hvalue, firstHost]
  cases hfound : firstField (lit "Host") r.lines with
  | none =>
      constructor
      · intro h
        cases h
      · rintro ⟨_, _, _, hnone, -⟩
        cases hnone
  | some found =>
      obtain ⟨value, more⟩ := found
      obtain ⟨line, -, hline⟩ := firstField_mem hfound
      dsimp only [Option.map_some]
      rw [hostValueAllowed_iff cfg (fieldValue_stripped hline)]
      constructor
      · rintro ⟨part, hpart⟩
        exact ⟨value, _, part, rfl, hpart⟩
      · rintro ⟨value', behind', part, heq, hpart⟩
        cases heq
        exact ⟨part, hpart⟩

end HeadedRequest

/-! ## Addresses in brackets -/

theorem IsGroup.close_not_mem {s : Bytes} (h : IsGroup s) : 93 ∉ s := by
  intro hmem
  exact absurd (h.2.2 93 hmem) (by decide)

theorem close_not_mem_decimal (n : Nat) : 93 ∉ decimal n := by
  intro hmem
  exact absurd (CJson.isDigit_of_mem_decimal hmem) (by decide)

theorem IsDotted.addressText {s : Bytes} (h : IsDotted s) : 93 ∉ s ∧ s.length ≤ 15 := by
  obtain ⟨a, b, c, d, ha, hb, hc, hd, rfl⟩ := h
  have hlen : ∀ n : Nat, n ≤ 255 → (decimal n).length ≤ 3 := fun n hn =>
    CJson.length_decimal_le (by decide) (by omega)
  have hlena := hlen a ha
  have hlenb := hlen b hb
  have hlenc := hlen c hc
  have hlend := hlen d hd
  constructor
  · simp [close_not_mem_decimal]
  · simp only [List.length_append, List.length_cons]
    omega

theorem Groups.addressText {dotted : Bool} {s : Bytes} {n : Nat} (h : Groups dotted s n) :
    93 ∉ s ∧ s.length ≤ 8 * n := by
  induction h with
  | one group =>
      have hlen := group.2.1
      exact ⟨group.close_not_mem, by omega⟩
  | two _ address =>
      have hlen := address.addressText.2
      exact ⟨address.addressText.1, by omega⟩
  | more group _ ih =>
      have hlen := group.2.1
      constructor
      · simp [group.close_not_mem, ih.1]
      · rw [List.length_append, List.length_cons]
        have := ih.2
        omega

theorem IsIPv6.addressText {s : Bytes} (h : IsIPv6 s) : 93 ∉ s ∧ s.length ≤ 64 := by
  rcases h with h | ⟨left, m, right, n, rfl, hle, hleft, hright⟩
  · exact h.addressText
  · have hleft' : 93 ∉ left ∧ left.length ≤ 8 * m := by
      rcases hleft with ⟨rfl, rfl⟩ | hleft
      · exact ⟨List.not_mem_nil, Nat.le_refl _⟩
      · exact hleft.addressText
    have hright' : 93 ∉ right ∧ right.length ≤ 8 * n := by
      rcases hright with ⟨rfl, rfl⟩ | hright
      · exact ⟨List.not_mem_nil, Nat.le_refl _⟩
      · exact hright.addressText
    constructor
    · simp [hleft'.1, hright'.1]
    · simp only [List.length_append, List.length_cons]
      omega

theorem isIPv6_loopback : IsIPv6 (lit "::1") := by
  have htext : lit "::1" = [] ++ 58 :: 58 :: lit "1" := by decide
  refine Or.inr ⟨[], 0, lit "1", 1, htext, by decide, Or.inl ⟨rfl, rfl⟩, Or.inr (.one ?_)⟩
  exact ⟨by decide, by decide, by decide +kernel⟩

theorem compared_brackets {host port behind part : Bytes} (haddress : IsIPv6 host) :
    Compared (91 :: (host ++ 93 :: port)) behind part ↔ part = 91 :: (host ++ [93]) := by
  have htext : 91 :: (host ++ 93 :: port) ++ behind = 91 :: (host ++ 93 :: (port ++ behind)) := by
    simp
  have hwhole : (91 :: (host ++ [93])).take 255 = 91 :: (host ++ [93]) := by
    refine List.take_of_length_le ?_
    have hlen := haddress.addressText.2
    simp only [List.length_cons, List.length_append, List.length_nil]
    omega
  constructor
  · intro h
    cases h with
    | bracketed _ htext' hinside =>
        have hsame := (upTo_bracket htext haddress.addressText.1).symm.trans
          (upTo_bracket htext' hinside)
        rw [← (List.cons.inj hsame).2, hwhole]
    | plain hbare => exact absurd rfl hbare
  · rintro rfl
    have hcompared := Compared.bracketed (by rfl) htext haddress.addressText.1
    rwa [hwhole] at hcompared

/-! ## The check -/

/-- An allowed part in front of a port is the whole value. -/
theorem Accepts.names {cfg : ServerConfig} {part port : Bytes} (h : Accepts cfg part)
    (hport : IsPort port) : NamesAllowed cfg (part ++ port) := by
  rcases h with rfl | h
  · exact ⟨lit "::1", port, by rfl, hport, Or.inr ⟨isIPv6_loopback, rfl⟩⟩
  · exact ⟨part, port, h, hport, Or.inl rfl⟩

/-- **The Host check**, exactly. -/
theorem host_check_iff (cfg : ServerConfig) (r : HeadedRequest)
    (hother : (lit "OPTIONS ").isPrefixOf (cstr r.bytes) = false) :
    (validateHostHeader cfg (cstr r.bytes) = true ↔
        ∃ value ∈ r.hostValues, NamesAllowed cfg value) ↔ ¬ Misread cfg r := by
  rw [HeadedRequest.validateHostHeader_iff cfg hother]
  constructor
  · intro hiff hmisread
    cases hmisread with
    | trailing hfirst hcompared haccepted _ _ hunnamed =>
        obtain ⟨v, hv, hnames⟩ := hiff.mp ⟨_, _, _, hfirst, hcompared, haccepted⟩
        exact hunnamed v hv hnames
    | runsOn hfirst hcompared haccepted _ hunnamed =>
        obtain ⟨v, hv, hnames⟩ := hiff.mp ⟨_, _, _, hfirst, hcompared, haccepted⟩
        exact hunnamed v hv hnames
    | requestLine hfirst hcompared haccepted _ hunnamed =>
        obtain ⟨v, hv, hnames⟩ := hiff.mp ⟨_, _, _, hfirst, hcompared, haccepted⟩
        exact hunnamed v hv hnames
    | @brackets value behind host port hfirst hlisted hallowed haddress hport htext hne hbare =>
        obtain ⟨value', behind', part, hfirst', hcompared, haccepts⟩ :=
          hiff.mpr ⟨value, hlisted, host, port, hallowed, hport, Or.inr ⟨haddress, htext⟩⟩
        rw [hfirst] at hfirst'
        cases hfirst'
        subst htext
        rw [(compared_brackets haddress).mp hcompared] at haccepts
        rcases haccepts with heq | haccepts
        · have hloopback : lit "[::1]" = 91 :: (lit "::1" ++ [93]) := rfl
          rw [hloopback] at heq
          exact hne (List.append_cancel_right (List.cons.inj heq).2)
        · rw [hbare] at haccepts
          cases haccepts
    | @inside value behind host port hfirst hlisted hallowed hport htext hrefused =>
        obtain ⟨value', behind', part, hfirst', hcompared, haccepts⟩ :=
          hiff.mpr ⟨value, hlisted, host, port, hallowed, hport, Or.inl htext⟩
        rw [hfirst] at hfirst'
        cases hfirst'
        exact (hrefused part hcompared).2 haccepts
    | @later value behind other hfirst hrefused hlisted hdiffers hnames =>
        obtain ⟨value', behind', part, hfirst', hcompared, haccepts⟩ :=
          hiff.mpr ⟨other, hlisted, hnames⟩
        rw [hfirst] at hfirst'
        cases hfirst'
        exact hrefused part hcompared haccepts
  · intro hread
    constructor
    · rintro ⟨value, behind, part, hfirst, hcompared, haccepts⟩
      by_contra hnone
      have hunnamed : ∀ v ∈ r.hostValues, ¬ NamesAllowed cfg v :=
        fun v hv hnames => hnone ⟨v, hv, hnames⟩
      by_cases hpast : part <+: value
      · obtain ⟨rest, rfl⟩ := hpast
        by_cases hport : IsPort rest
        · have houtside : part ++ rest ∉ r.hostValues :=
            fun hlisted => hunnamed _ hlisted (haccepts.names hport)
          exact hread (.requestLine hfirst hcompared haccepts houtside hunnamed)
        · exact hread (.trailing hfirst hcompared haccepts rfl hport hunnamed)
      · exact hread (.runsOn hfirst hcompared haccepts hpast hunnamed)
    · rintro ⟨other, hlisted, hnames⟩
      obtain ⟨value, behind, hfirst⟩ := HeadedRequest.firstHost_of_listed hlisted
      by_contra hnone
      have hrefused : ∀ part, Compared value behind part → ¬ Accepts cfg part :=
        fun part hcompared haccepts => hnone ⟨value, behind, part, hfirst, hcompared, haccepts⟩
      by_cases hsame : other = value
      · subst hsame
        obtain ⟨host, port, hallowed, hport, htext | ⟨haddress, htext⟩⟩ := hnames
        · refine hread (.inside hfirst hlisted hallowed hport htext fun part hcompared =>
            ⟨?_, hrefused part hcompared⟩)
          rintro rfl
          exact hrefused part hcompared (Or.inr hallowed)
        · subst htext
          have hpart := hrefused _ ((compared_brackets haddress).mpr rfl)
          refine hread (.brackets hfirst hlisted hallowed haddress hport rfl ?_ ?_)
          · rintro rfl
            exact hpart (Or.inl rfl)
          · exact Bool.eq_false_iff.mpr fun hallowed' => hpart (Or.inr hallowed')
      · exact hread (.later hfirst hrefused hlisted hsame hnames)

/-- The settings a bridge has without a file. -/
def localConfig : ServerConfig := ⟨[], lit "127.0.0.1", [], lit "m", [], [], false⟩

/-- A request whose `Host` header starts like the loopback address. -/
def strayHost : HeadedRequest where
  requestLine := lit "GET /v1/models HTTP/1.1"
  fields := [lit "Host: [::1].evil.example"]
  body := []
  no_break := by decide +kernel
  no_zero := by decide +kernel
  no_gap := by decide +kernel

/-- The check at that request: the part in brackets is let through, and a name of
another host stands behind it. -/
theorem host_check_iff_stray_host :
    (lit "OPTIONS ").isPrefixOf (cstr strayHost.bytes) = false ∧
      ((validateHostHeader localConfig (cstr strayHost.bytes) = true ↔
          ∃ value ∈ strayHost.hostValues, NamesAllowed localConfig value) ↔
        ¬ Misread localConfig strayHost) :=
  ⟨by decide +kernel, host_check_iff localConfig strayHost (by decide +kernel)⟩

theorem loopback_of_allowed {host : Bytes} (h : hostIsAllowed localConfig host = true) :
    host ∈ loopbackHosts := by
  have hne := hostIsAllowed_ne_nil h
  unfold hostIsAllowed at h
  rw [if_neg hne] at h
  rcases Bool.or_eq_true_iff.mp h with h | h
  · rcases Bool.or_eq_true_iff.mp h with h | h
    · exact List.contains_iff_mem.mp h
    · rw [beq_iff_eq.mp (Bool.and_eq_true_iff.mp h).2]
      decide
  · exact absurd (List.mem_singleton.mp (List.contains_iff_mem.mp h)) hne

/-- A host that only starts like an allowed one passes the check. -/
theorem foreign_host_allowed :
    ¬ ∀ (cfg : ServerConfig) (r : HeadedRequest),
      (lit "OPTIONS ").isPrefixOf (cstr r.bytes) = false →
        (validateHostHeader cfg (cstr r.bytes) = true ↔
          ∃ value ∈ r.hostValues, NamesAllowed cfg value) := by
  intro h
  have hpasses : validateHostHeader localConfig (cstr strayHost.bytes) = true := by
    decide +kernel
  obtain ⟨value, hlisted, host, port, hallowed, hport, hvalue⟩ :=
    (h localConfig strayHost (by decide +kernel)).mp hpasses
  have hvalues : strayHost.hostValues = [lit "[::1].evil.example"] := by decide +kernel
  rw [hvalues, List.mem_singleton] at hlisted
  subst hlisted
  have hloopback := loopback_of_allowed hallowed
  have hplain : ∀ host ∈ loopbackHosts, ¬ host <+: lit "[::1].evil.example" := by decide +kernel
  have hbrackets : ∀ host ∈ loopbackHosts,
      91 :: (host ++ [93]) <+: lit "[::1].evil.example" → host = lit "::1" := by decide +kernel
  rcases hvalue with hvalue | ⟨-, hvalue⟩
  · exact hplain host hloopback ⟨port, hvalue.symm⟩
  · have hhost := hbrackets host hloopback ⟨port, by rw [hvalue]; simp⟩
    rw [hhost] at hvalue
    have hsplit : lit "[::1].evil.example" = 91 :: (lit "::1" ++ 93 :: lit ".evil.example") := rfl
    rw [hsplit] at hvalue
    have hbehind := (List.cons.inj (List.append_cancel_left (List.cons.inj hvalue).2)).2
    rcases hport with hport | ⟨digits, hport, -⟩
    · rw [hport] at hbehind
      cases hbehind
    · rw [hport] at hbehind
      exact absurd (List.cons.inj hbehind).1 (by decide)

end StarBridge
