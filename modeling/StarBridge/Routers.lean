import StarBridge.HttpServer

/-!
# Two routers for one surface

Between turns the accept loop routes a request; while a turn runs the turn's
control plane does.  The accept loop has read the request whole, strips the
query and knows the short names.  The control plane looks at the target as it
stands in the first result of `read`.  `routers_agree_iff` says when both make
the same of a request.
-/

namespace StarBridge

open CText

/-! ## Request lines -/

/-- A word of a request line: not empty, without white space or zero bytes. -/
def IsWord (word : Bytes) : Prop :=
  word ≠ [] ∧ ∀ c ∈ word, isSpace c = false ∧ c ≠ 0

instance (word : Bytes) : Decidable (IsWord word) :=
  inferInstanceAs (Decidable (word ≠ [] ∧ ∀ c ∈ word, isSpace c = false ∧ c ≠ 0))

/-- A method and a target as a request line has them. -/
structure RequestLine where
  method : Bytes
  target : Bytes
  method_word : IsWord method
  target_word : IsWord target

/-- The request line with all that follows it: the version, the headers, a
body. -/
def RequestLine.text (r : RequestLine) (trailing : Bytes) : Bytes :=
  r.method ++ 32 :: (r.target ++ 32 :: trailing)

/-- What the accept loop compares: the target up to its query. -/
def RequestLine.path (r : RequestLine) : Bytes := (upTo 63 r.target).take 255

/-- What the control plane compares: the part of the target within the first
`k` bytes of the request, query and all. -/
def RequestLine.arrived (r : RequestLine) (k : Nat) : Bytes :=
  (r.target.take (k - (r.method.length + 1))).take 511

/-! ## Routes -/

/-- The route of the accept loop that a route of the control plane stands
for. -/
def MidturnRoute.idle : MidturnRoute → IdleRoute
  | .models => .models
  | .cancel => .cancel
  | .conflict => .responses
  | .notFound => .notFound

/-- What the control plane makes of a connection whose first `read` gave
`first` bytes; nothing if it closes the connection without an answer. -/
def midturnRouteOf (first : Bytes) : Option MidturnRoute :=
  (scanRequestLine (first.take 4095)).map fun words => midturnRoute words.1 words.2

/-- The control plane classifies the request as the accept loop does. -/
def SameRoute (midturn : Option MidturnRoute) (idle : IdleRoute) : Prop :=
  midturn.map MidturnRoute.idle = some idle

instance (midturn : Option MidturnRoute) (idle : IdleRoute) :
    Decidable (SameRoute midturn idle) :=
  inferInstanceAs (Decidable (_ = _))

/-- The requests both routers look for. -/
def Shared (method path : Bytes) : Prop :=
  (method = lit "GET" ∧ path = lit "/v1/models") ∨
    (method = lit "POST" ∧ path = lit "/v1/responses") ∨
    (method = lit "DELETE" ∧ (lit "/v1/responses/").isPrefixOf path = true)

/-- The requests only the accept loop looks for: the short names, and what a
turn serves under no name. -/
def IdleOnly (method path : Bytes) : Prop :=
  (method = lit "OPTIONS" ∧ path = lit "/") ∨
    (method = lit "GET" ∧ (path = lit "/health" ∨ path = lit "/models" ∨
      path = lit "/debug/session")) ∨
    (method = lit "POST" ∧ (path = lit "/v1/responses/compact" ∨
      path = lit "/responses/compact" ∨ path = lit "/responses")) ∨
    (method = lit "DELETE" ∧ (lit "/responses/").isPrefixOf path = true)

/-- The first `k` bytes of the request show the control plane the route the
accept loop takes. -/
def RequestLine.Shows (r : RequestLine) (k : Nat) : Prop :=
  (15 < r.method.length ∧ 15 < k) ∨
    (r.method.length ≤ 15 ∧ r.method.length + 1 < k ∧ ¬ IdleOnly r.method r.path ∧
      (Shared r.method (r.arrived k) ↔ Shared r.method r.path))

/-! ## The comparisons -/

/-- The methods differ from one another. -/
theorem methods_ne :
    lit "GET" ≠ lit "OPTIONS" ∧ lit "GET" ≠ lit "POST" ∧ lit "GET" ≠ lit "DELETE" ∧
      lit "POST" ≠ lit "OPTIONS" ∧ lit "POST" ≠ lit "DELETE" ∧
      lit "DELETE" ≠ lit "OPTIONS" := by
  decide

theorem idleRoute_get (path : Bytes) :
    idleRoute (lit "GET") path =
      if path = lit "/health" then .health
      else if path = lit "/v1/models" ∨ path = lit "/models" then .models
      else if path = lit "/debug/session" then .debugSession
      else .notFound := by
  obtain ⟨hoptions, hpost, hdelete, -⟩ := methods_ne
  simp only [idleRoute, hoptions, hpost, hdelete, false_and, true_and, if_false]

theorem idleRoute_post (path : Bytes) :
    idleRoute (lit "POST") path =
      if path = lit "/v1/responses/compact" ∨ path = lit "/responses/compact" then .compact
      else if path = lit "/v1/responses" ∨ path = lit "/responses" then .responses
      else .notFound := by
  obtain ⟨-, hget, -, hoptions, hdelete, -⟩ := methods_ne
  simp only [idleRoute, hoptions, hget.symm, hdelete, false_and, true_and, if_false]

theorem idleRoute_delete (path : Bytes) :
    idleRoute (lit "DELETE") path =
      if (lit "/v1/responses/").isPrefixOf path ∨ (lit "/responses/").isPrefixOf path then
        .cancel
      else .notFound := by
  obtain ⟨-, -, hget, -, hpost, hoptions⟩ := methods_ne
  simp only [idleRoute, hoptions, hget.symm, hpost.symm, false_and, true_and, if_false]

theorem midturnRoute_get (path : Bytes) :
    midturnRoute (lit "GET") path = if path = lit "/v1/models" then .models else .notFound := by
  obtain ⟨-, hpost, hdelete, -⟩ := methods_ne
  simp only [midturnRoute, hpost, hdelete, false_and, true_and, if_false]

theorem midturnRoute_post (path : Bytes) :
    midturnRoute (lit "POST") path =
      if path = lit "/v1/responses" then .conflict else .notFound := by
  obtain ⟨-, hget, -, -, hdelete, -⟩ := methods_ne
  simp only [midturnRoute, hget.symm, hdelete, false_and, true_and, if_false]

theorem midturnRoute_delete (path : Bytes) :
    midturnRoute (lit "DELETE") path =
      if (lit "/v1/responses/").isPrefixOf path then .cancel else .notFound := by
  obtain ⟨-, -, hget, -, hpost, -⟩ := methods_ne
  simp only [midturnRoute, hget.symm, hpost.symm, false_and, true_and, if_false]

/-- Neither router knows another method, apart from the OPTIONS of the accept
loop. -/
theorem routes_of_other {method : Bytes} (hget : method ≠ lit "GET")
    (hpost : method ≠ lit "POST") (hdelete : method ≠ lit "DELETE") (path arrived : Bytes) :
    midturnRoute method arrived = .notFound ∧
      idleRoute method path =
        if method = lit "OPTIONS" ∧ path = lit "/" then .options else .notFound := by
  simp only [midturnRoute, idleRoute, hget, hpost, hdelete, false_and, if_false, and_self]

theorem shared_get (path : Bytes) :
    Shared (lit "GET") path ↔ path = lit "/v1/models" := by
  obtain ⟨-, hpost, hdelete, -⟩ := methods_ne
  simp only [Shared, hpost, hdelete, false_and, true_and, or_false]

theorem shared_post (path : Bytes) :
    Shared (lit "POST") path ↔ path = lit "/v1/responses" := by
  obtain ⟨-, hget, -, -, hdelete, -⟩ := methods_ne
  simp only [Shared, hget.symm, hdelete, false_and, true_and, or_false, false_or]

theorem shared_delete (path : Bytes) :
    Shared (lit "DELETE") path ↔ (lit "/v1/responses/").isPrefixOf path = true := by
  obtain ⟨-, -, hget, -, hpost, -⟩ := methods_ne
  simp only [Shared, hget.symm, hpost.symm, false_and, true_and, false_or]

theorem idleOnly_get (path : Bytes) :
    IdleOnly (lit "GET") path ↔
      path = lit "/health" ∨ path = lit "/models" ∨ path = lit "/debug/session" := by
  obtain ⟨hoptions, hpost, hdelete, -⟩ := methods_ne
  simp only [IdleOnly, hoptions, hpost, hdelete, false_and, true_and, or_false, false_or]

theorem idleOnly_post (path : Bytes) :
    IdleOnly (lit "POST") path ↔
      path = lit "/v1/responses/compact" ∨ path = lit "/responses/compact" ∨
        path = lit "/responses" := by
  obtain ⟨-, hget, -, hoptions, hdelete, -⟩ := methods_ne
  simp only [IdleOnly, hoptions, hget.symm, hdelete, false_and, true_and, or_false, false_or]

theorem idleOnly_delete (path : Bytes) :
    IdleOnly (lit "DELETE") path ↔ (lit "/responses/").isPrefixOf path = true := by
  obtain ⟨-, -, hget, -, hpost, hoptions⟩ := methods_ne
  simp only [IdleOnly, hoptions, hget.symm, hpost.symm, false_and, true_and, false_or]

/-! ## One request, two readings of its target -/

/-- Two readings of one target that begin differently are not both there. -/
theorem not_both_lead {start start' a b : Bytes} (hab : a <+: b ∨ b <+: a)
    (ha : start <+: a) (hb : start' <+: b) : start <+: start' ∨ start' <+: start := by
  rcases hab with hab | hab
  · exact List.prefix_or_prefix_of_prefix (ha.trans hab) hb
  · exact List.prefix_or_prefix_of_prefix ha (hb.trans hab)

theorem sameRoute_get_iff {arrived path : Bytes}
    (hread : arrived <+: path ∨ path <+: arrived) :
    (midturnRoute (lit "GET") arrived).idle = idleRoute (lit "GET") path ↔
      ¬ IdleOnly (lit "GET") path ∧
        (Shared (lit "GET") arrived ↔ Shared (lit "GET") path) := by
  rw [midturnRoute_get, idleRoute_get, idleOnly_get, shared_get, shared_get]
  by_cases hshort : path = lit "/models"
  · -- the short name: the control plane would have to see the long one
    have hlong : arrived ≠ lit "/v1/models" := by
      rintro rfl
      subst hshort
      exact absurd hread (by decide)
    subst hshort
    simp [hlong, MidturnRoute.idle, show lit "/models" ≠ lit "/health" by decide]
  · by_cases hhealth : path = lit "/health"
    · subst hhealth
      by_cases ha : arrived = lit "/v1/models" <;> simp [ha, MidturnRoute.idle]
    · by_cases hdebug : path = lit "/debug/session"
      · subst hdebug
        by_cases ha : arrived = lit "/v1/models" <;>
          simp [ha, MidturnRoute.idle, show lit "/debug/session" ≠ lit "/health" by decide,
            show lit "/debug/session" ≠ lit "/v1/models" by decide,
            show lit "/debug/session" ≠ lit "/models" by decide]
      · by_cases ha : arrived = lit "/v1/models" <;>
          by_cases hp : path = lit "/v1/models" <;>
            simp [ha, hp, hshort, hhealth, hdebug, MidturnRoute.idle,
              show lit "/v1/models" ≠ lit "/health" by decide,
              show lit "/v1/models" ≠ lit "/models" by decide,
              show lit "/v1/models" ≠ lit "/debug/session" by decide]

theorem sameRoute_post_iff {arrived path : Bytes}
    (hread : arrived <+: path ∨ path <+: arrived) :
    (midturnRoute (lit "POST") arrived).idle = idleRoute (lit "POST") path ↔
      ¬ IdleOnly (lit "POST") path ∧
        (Shared (lit "POST") arrived ↔ Shared (lit "POST") path) := by
  rw [midturnRoute_post, idleRoute_post, idleOnly_post, shared_post, shared_post]
  by_cases hcompact : path = lit "/v1/responses/compact" ∨ path = lit "/responses/compact"
  · rw [if_pos hcompact]
    have hne : ∀ route : MidturnRoute, route.idle ≠ .compact := by
      intro route
      cases route <;> decide
    refine ⟨fun h => absurd h (hne _), fun h => absurd ?_ h.1⟩
    rcases hcompact with hcompact | hcompact
    · exact Or.inl hcompact
    · exact Or.inr (Or.inl hcompact)
  · rw [if_neg hcompact]
    rw [not_or] at hcompact
    by_cases hshort : path = lit "/responses"
    · have hlong : arrived ≠ lit "/v1/responses" := by
        rintro rfl
        subst hshort
        exact absurd hread (by decide)
      subst hshort
      simp [hlong, MidturnRoute.idle]
    · by_cases ha : arrived = lit "/v1/responses" <;>
        by_cases hp : path = lit "/v1/responses" <;>
          simp [ha, hp, hshort, hcompact, MidturnRoute.idle,
            show lit "/v1/responses" ≠ lit "/v1/responses/compact" by decide,
            show lit "/v1/responses" ≠ lit "/responses/compact" by decide,
            show lit "/v1/responses" ≠ lit "/responses" by decide]

theorem sameRoute_delete_iff {arrived path : Bytes}
    (hread : arrived <+: path ∨ path <+: arrived) :
    (midturnRoute (lit "DELETE") arrived).idle = idleRoute (lit "DELETE") path ↔
      ¬ IdleOnly (lit "DELETE") path ∧
        (Shared (lit "DELETE") arrived ↔ Shared (lit "DELETE") path) := by
  rw [midturnRoute_delete, idleRoute_delete, idleOnly_delete, shared_delete, shared_delete]
  by_cases hshort : (lit "/responses/").isPrefixOf path = true
  · have hlong : ¬ (lit "/v1/responses/").isPrefixOf arrived = true := by
      intro hlong
      have hboth := not_both_lead hread (List.isPrefixOf_iff_prefix.mp hlong)
        (List.isPrefixOf_iff_prefix.mp hshort)
      exact absurd hboth (by decide)
    rw [if_neg hlong, if_pos (Or.inr hshort)]
    simp [MidturnRoute.idle, hshort]
  · by_cases ha : (lit "/v1/responses/").isPrefixOf arrived = true <;>
      by_cases hp : (lit "/v1/responses/").isPrefixOf path = true <;>
        simp only [if_pos, ha, hp, hshort, MidturnRoute.idle] <;> simp

/-- The comparisons agree on two readings of one target iff the accept loop
knows no other name for it and both readings are names both look for, or
neither is. -/
theorem sameRoute_iff (method : Bytes) {arrived path : Bytes}
    (hread : arrived <+: path ∨ path <+: arrived) :
    (midturnRoute method arrived).idle = idleRoute method path ↔
      ¬ IdleOnly method path ∧ (Shared method arrived ↔ Shared method path) := by
  by_cases hget : method = lit "GET"
  · subst hget
    exact sameRoute_get_iff hread
  by_cases hpost : method = lit "POST"
  · subst hpost
    exact sameRoute_post_iff hread
  by_cases hdelete : method = lit "DELETE"
  · subst hdelete
    exact sameRoute_delete_iff hread
  obtain ⟨hmidturn, hidle⟩ := routes_of_other hget hpost hdelete path arrived
  rw [hmidturn, hidle]
  by_cases hroot : method = lit "OPTIONS" ∧ path = lit "/"
  · simp [hroot, IdleOnly, MidturnRoute.idle]
  · simp [hget, hpost, hdelete, hroot, IdleOnly, Shared, MidturnRoute.idle]

/-! ## What the control plane reads -/

theorem IsWord.take {word : Bytes} (h : IsWord word) {n : Nat} (hn : 0 < n) :
    IsWord (word.take n) := by
  refine ⟨?_, fun c hc => h.2 c (List.mem_of_mem_take hc)⟩
  obtain ⟨hne, -⟩ := h
  cases word with
  | nil => exact absurd rfl hne
  | cons c rest =>
      cases n with
      | zero => omega
      | succ n => simp

theorem IsWord.drop {word : Bytes} (h : IsWord word) {n : Nat} (hn : n < word.length) :
    IsWord (word.drop n) := by
  refine ⟨?_, fun c hc => h.2 c (List.mem_of_mem_drop hc)⟩
  intro hnil
  have hlength := congrArg List.length hnil
  rw [List.length_drop, List.length_nil] at hlength
  omega

theorem IsWord.zero_not_mem {word : Bytes} (h : IsWord word) : (0 : UInt8) ∉ word :=
  fun hc => (h.2 0 hc).2 rfl

/-- A text ends, or goes on with white space. -/
def Breaks (tail : Bytes) : Prop := ∀ c ∈ tail.head?, isSpace c = true

/-- White space is no terminator. -/
theorem Breaks.cstr {tail : Bytes} (h : Breaks tail) : Breaks (cstr tail) := by
  cases tail with
  | nil => exact h
  | cons c rest =>
      have hc : c ≠ 0 := by
        rintro rfl
        exact absurd (h 0 rfl) (by decide)
      rw [StarBridge.cstr, upTo_cons hc]
      exact fun d hd => h d hd

/-- `%s` reads a word up to its width and leaves the rest of it. -/
theorem scanWord_word {width : Nat} (hwidth : 0 < width) {word tail : Bytes}
    (hword : IsWord word) (htail : Breaks tail) :
    scanWord width (word ++ tail) = some (word.take width, word.drop width ++ tail) := by
  have hskip : (word ++ tail).dropWhile isSpace = word ++ tail := by
    obtain ⟨hne, hplain⟩ := hword
    cases word with
    | nil => exact absurd rfl hne
    | cons c rest =>
        rw [List.cons_append, List.dropWhile_cons_of_neg]
        simp [(hplain c List.mem_cons_self).1]
  have hend : tail.takeWhile (fun c => ¬ isSpace c) = [] := by
    cases tail with
    | nil => rfl
    | cons c rest =>
        have hc : isSpace c = true := htail c rfl
        simp [hc]
  have hread : (word ++ tail).takeWhile (fun c => ¬ isSpace c) = word := by
    rw [List.takeWhile_append_of_pos, hend, List.append_nil]
    intro c hc
    simp [(hword.2 c hc).1]
  unfold scanWord
  dsimp only
  rw [hskip, hread, if_neg (hword.take hwidth).1]
  congr 2
  rw [List.length_take]
  rcases Nat.le_total width word.length with h | h
  · rw [min_eq_left h, List.drop_append_of_le_length h]
  · rw [min_eq_right h, List.drop_append_of_le_length (Nat.le_refl _),
      List.drop_of_length_le h, List.drop_length]

/-- A word that fills its `%15s` leaves its end to be read as the path. -/
theorem scanRequestLine_long {method tail : Bytes} (hmethod : IsWord method)
    (hlong : 15 < method.length) (htail : Breaks tail) :
    scanRequestLine (method ++ tail) =
      some (method.take 15, (method.drop 15).take 511) := by
  have hcstr : cstr (method ++ tail) = method ++ cstr tail :=
    upTo_append hmethod.zero_not_mem tail
  unfold scanRequestLine
  rw [hcstr, scanWord_word (by omega) hmethod htail.cstr]
  dsimp only
  rw [scanWord_word (by omega) (hmethod.drop hlong) htail.cstr]
  rfl

/-- A method alone is no request line. -/
theorem scanRequestLine_method {method tail : Bytes} (hmethod : IsWord method)
    (hshort : method.length ≤ 15) (htail : ∀ c ∈ tail, isSpace c = true) :
    scanRequestLine (method ++ tail) = none := by
  have hbreaks : Breaks tail := fun c hc => htail c (List.mem_of_mem_head? hc)
  have hzero : (0 : UInt8) ∉ method ++ tail := by
    intro h
    rcases List.mem_append.mp h with h | h
    · exact hmethod.zero_not_mem h
    · exact absurd (htail 0 h) (by decide)
  have hrest : scanWord 511 tail = none := by
    have hskip : tail.dropWhile isSpace = [] :=
      List.dropWhile_eq_nil_iff.mpr htail
    simp [scanWord, hskip]
  have hcstr : cstr (method ++ tail) = method ++ tail := upTo_eq_self hzero
  unfold scanRequestLine
  rw [hcstr, scanWord_word (by omega) hmethod hbreaks]
  dsimp only
  rw [List.drop_of_length_le hshort, List.nil_append, hrest]
  rfl

theorem scanRequestLine_words {method target tail : Bytes} (hmethod : IsWord method)
    (hshort : method.length ≤ 15) (htarget : IsWord target) (htail : Breaks tail) :
    scanRequestLine (method ++ 32 :: (target ++ tail)) =
      some (method, target.take 511) := by
  have hcstr : cstr (method ++ 32 :: (target ++ tail)) =
      method ++ 32 :: (target ++ cstr tail) := by
    rw [cstr, upTo_append hmethod.zero_not_mem, upTo_cons (by decide),
      upTo_append htarget.zero_not_mem]
    rfl
  unfold scanRequestLine
  rw [hcstr, scanWord_word (by omega) hmethod (fun c hc => by cases hc; rfl)]
  dsimp only
  have hskip : scanWord 511 (32 :: (target ++ cstr tail)) =
      scanWord 511 (target ++ cstr tail) := by
    unfold scanWord
    rw [List.dropWhile_cons_of_pos (by decide)]
  rw [List.take_of_length_le hshort, List.drop_of_length_le hshort, List.nil_append, hskip,
    scanWord_word (by omega) htarget htail.cstr]
  rfl

variable (r : RequestLine)

/-- What is left of the request line once `k` bytes reach into the target. -/
theorem RequestLine.take_text (trailing : Bytes) {k : Nat} (hk : r.method.length + 1 < k) :
    ∃ tail, Breaks tail ∧ (r.text trailing).take k =
      r.method ++ 32 :: (r.target.take (k - (r.method.length + 1)) ++ tail) := by
  obtain ⟨j, rfl⟩ : ∃ j, k = r.method.length + (j + 1) := ⟨k - r.method.length - 1, by omega⟩
  have hj : r.method.length + (j + 1) - (r.method.length + 1) = j := by omega
  rw [hj, RequestLine.text, List.take_length_add_append, List.take_succ_cons,
    List.take_append]
  refine ⟨(32 :: trailing).take (j - r.target.length), ?_, rfl⟩
  intro c hc
  cases hleft : j - r.target.length with
  | zero => simp [hleft] at hc
  | succ n =>
      rw [hleft, List.take_succ_cons, List.head?_cons, Option.mem_some_iff] at hc
      subst hc
      rfl

/-- A method longer than its buffer is no method either router knows. -/
theorem long_method_ne {method : Bytes} (h : method.length = 15) :
    method ≠ lit "GET" ∧ method ≠ lit "POST" ∧ method ≠ lit "DELETE" ∧
      method ≠ lit "OPTIONS" := by
  refine ⟨?_, ?_, ?_, ?_⟩ <;>
  · rintro rfl
    exact absurd h (by decide)

/-- What the control plane makes of the first `k` bytes of a request. -/
theorem RequestLine.scan_text (trailing : Bytes) (k : Nat) :
    scanRequestLine ((r.text trailing).take k) =
      if r.method.length ≤ 15 then
        if r.method.length + 1 < k then some (r.method, r.arrived k) else none
      else if 15 < k then
        some (r.method.take 15, ((r.method.take k).drop 15).take 511)
      else none := by
  have hcut : k ≤ r.method.length → (r.text trailing).take k = r.method.take k :=
    fun hk => by rw [RequestLine.text, List.take_append_of_le_length hk]
  have hone : k = r.method.length + 1 →
      (r.text trailing).take k = r.method ++ [32] := by
    rintro rfl
    rw [RequestLine.text, List.take_length_add_append]
    rfl
  have hempty : k = 0 → scanRequestLine ((r.text trailing).take k) = none := by
    rintro rfl
    rfl
  by_cases hshort : r.method.length ≤ 15
  · rw [if_pos hshort]
    by_cases hk : r.method.length + 1 < k
    · -- the read reaches into the target
      obtain ⟨tail, htail, htext⟩ := r.take_text trailing hk
      rw [if_pos hk, htext]
      exact scanRequestLine_words r.method_word hshort
        (r.target_word.take (by omega)) htail
    · rw [if_neg hk]
      by_cases hzero : k = 0
      · exact hempty hzero
      by_cases hspace : k = r.method.length + 1
      · rw [hone hspace]
        refine scanRequestLine_method r.method_word hshort ?_
        intro c hc
        rw [List.mem_singleton.mp hc]
        rfl
      · rw [hcut (by omega), ← List.append_nil (r.method.take k)]
        refine scanRequestLine_method (r.method_word.take (by omega)) ?_ (by simp)
        exact Nat.le_trans (List.length_take_le' _ _) hshort
  · rw [if_neg hshort]
    by_cases hk : 15 < k
    · rw [if_pos hk]
      by_cases hinside : k ≤ r.method.length
      · have hlength : (r.method.take k).length = k := by
          rw [List.length_take]
          omega
        have hscan : scanRequestLine (r.method.take k ++ []) = _ :=
          scanRequestLine_long (r.method_word.take (by omega)) (by omega) (by simp [Breaks])
        rw [hcut hinside, ← List.append_nil (r.method.take k), hscan, List.take_take]
        simp [min_eq_left (Nat.le_of_lt hk)]
      · have hwhole : r.method.take k = r.method := List.take_of_length_le (by omega)
        obtain ⟨tail, htail, htext⟩ : ∃ tail, Breaks tail ∧
            (r.text trailing).take k = r.method ++ tail := by
          by_cases hspace : k = r.method.length + 1
          · exact ⟨[32], fun c hc => by cases hc; rfl, hone hspace⟩
          · obtain ⟨tail, -, htext⟩ := r.take_text trailing (k := k) (by omega)
            exact ⟨_, fun c hc => by cases hc; rfl, htext⟩
        rw [htext, hwhole, scanRequestLine_long r.method_word (by omega) htail]
    · rw [if_neg hk]
      by_cases hzero : k = 0
      · exact hempty hzero
      · rw [hcut (by omega), ← List.append_nil (r.method.take k)]
        refine scanRequestLine_method (r.method_word.take (by omega)) ?_ (by simp)
        rw [List.length_take]
        omega

/-! ## What the accept loop reads -/

theorem IsWord.space_not_mem {word : Bytes} (h : IsWord word) : (32 : UInt8) ∉ word :=
  fun hc => absurd (h.2 32 hc).1 (by decide)

theorem after_space {word : Bytes} (h : (32 : UInt8) ∉ word) (rest : Bytes) :
    after [32] (word ++ 32 :: rest) = some rest := by
  induction word with
  | nil => rfl
  | cons c word ih =>
      have hc : c ≠ 32 := by
        rintro rfl
        exact h List.mem_cons_self
      rw [List.cons_append, after, if_neg (by simpa using hc.symm)]
      exact ih fun hmem => h (List.mem_cons_of_mem c hmem)

theorem upTo_space {word : Bytes} (h : (32 : UInt8) ∉ word) (rest : Bytes) :
    upTo 32 (word ++ 32 :: rest) = word := by
  rw [upTo_append h, show upTo 32 (32 :: rest) = [] from rfl, List.append_nil]

/-- Whatever the accept loop has read behind the request line. -/
theorem RequestLine.requestLine_text (more : Bytes) :
    requestLine (cstr (r.text more)) = (r.method.take 15, r.path) := by
  have hcstr : cstr (r.text more) = r.text (cstr more) := by
    rw [cstr, RequestLine.text, upTo_append r.method_word.zero_not_mem, upTo_cons (by decide),
      upTo_append r.target_word.zero_not_mem, upTo_cons (by decide)]
    rfl
  unfold requestLine
  rw [hcstr, RequestLine.text, after_space r.method_word.space_not_mem]
  dsimp only
  rw [if_pos (by simp), upTo_space r.method_word.space_not_mem,
    upTo_space r.target_word.space_not_mem]
  rfl

/-! ## Agreement -/

theorem RequestLine.arrived_or_path (k : Nat) :
    r.arrived k <+: r.path ∨ r.path <+: r.arrived k := by
  have harrived : r.arrived k <+: r.target :=
    (List.take_prefix _ _).trans (List.take_prefix _ _)
  have hpath : r.path <+: r.target :=
    (List.take_prefix _ _).trans (List.takeWhile_prefix _)
  exact List.prefix_or_prefix_of_prefix harrived hpath

/-- **Routers agree**, exactly.  Of a request whose first `read` gives `first`
bytes the control plane of a turn makes what the accept loop makes of it, iff
the bytes it looks at show it the route. -/
theorem routers_agree_iff (first : Nat) (trailing more : Bytes) :
    SameRoute (midturnRouteOf ((r.text trailing).take first)) (routeOf (r.text more)) ↔
      r.Shows (min first 4095) := by
  have hfirst : ((r.text trailing).take first).take 4095 =
      (r.text trailing).take (min first 4095) := by
    rw [List.take_take, min_comm]
  unfold SameRoute midturnRouteOf routeOf RequestLine.Shows
  rw [hfirst, r.scan_text, r.requestLine_text]
  generalize min first 4095 = k
  by_cases hshort : r.method.length ≤ 15
  · have hlong : ¬ 15 < r.method.length := by omega
    rw [if_pos hshort, List.take_of_length_le hshort]
    by_cases hk : r.method.length + 1 < k
    · rw [if_pos hk, ← sameRoute_iff r.method (r.arrived_or_path k)]
      simp [hshort, hlong, hk]
    · rw [if_neg hk]
      simp [hlong, hk]
  · have hlong : 15 < r.method.length := by omega
    rw [if_neg hshort]
    by_cases hk : 15 < k
    · have hlength : (r.method.take 15).length = 15 := by
        rw [List.length_take]
        omega
      obtain ⟨hget, hpost, hdelete, hoptions⟩ := long_method_ne hlength
      obtain ⟨hmidturn, hidle⟩ := routes_of_other hget hpost hdelete r.path
        (((r.method.take k).drop 15).take 511)
      rw [if_pos hk, hidle, if_neg (fun h => hoptions h.1)]
      simp [hlong, hk, hmidturn, MidturnRoute.idle]
    · rw [if_neg hk]
      simp [hshort, hk]

/-- `GET /models`, the short name of the model list. -/
def modelsAlias : RequestLine where
  method := lit "GET"
  target := lit "/models"
  method_word := by decide +kernel
  target_word := by decide +kernel

/-- Between turns the short name leads to the model list; inside a turn it is
not found, although the request arrives in one piece. -/
theorem routers_disagree_on_alias :
    ¬ SameRoute (midturnRouteOf ((modelsAlias.text (lit "HTTP/1.1\r\n\r\n")).take 4095))
      (routeOf (modelsAlias.text (lit "HTTP/1.1\r\n\r\n"))) := by
  decide +kernel

end StarBridge
