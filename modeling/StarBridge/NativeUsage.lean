import StarBridge.NativeResponse

/-!
# The usage of a native response

`native_parse_frame` finds the usage object of a response in the value of the frame, and
cuts its text out of the frame by a search and a count of braces.  The count begins at one
before the first brace is read, knows of no strings, and is not made at all where a stack
buffer that nothing has written to is not empty.

`usage_exact_iff` says for which frames the text is that of the object.
-/

namespace StarBridge

open CText

/-! ## The parser -/

/-- The loop over `usage_json`, with `depth` braces open: what is left of the text. -/
def cutAtClose : Nat → Bytes → Bytes
  | _, [] => []
  | depth, c :: rest =>
      let depth := if c = 123 then depth + 1 else depth
      let depth := if c = 125 then depth - 1 else depth
      if depth = 0 then [c] else c :: cutAtClose depth rest

/-- The extraction of `usage_json` from a response, with the string that the bytes of
`ubuf` are before anything is written there. -/
def extractUsage (ubuf frame : Bytes) (obj : CJson) : Bytes :=
  match CJson.getObject obj (lit "usage") with
  | none => []
  | some _ =>
      -- `json_get_string` leaves the buffer as it is: the member is an object
      let ubuf := CJson.getString obj (lit "usage") ubuf 4096
      if ubuf ≠ [] then clip 4096 ubuf
      else if occurs (lit "\"usage\":") (cstr frame) then
        let off := (before (lit "\"usage\":") (cstr frame)).length + 8
        cutAtClose 1 (cstr ((frame.drop off).take 4095))
      else []

/-- `usage_json`, as `native_parse_frame` leaves it. -/
def nativeUsageJson (ubuf frame : Bytes) : Bytes :=
  match CJson.parse frame with
  | none => []
  | some obj =>
      if nativeEventTypeFromString (CJson.getString obj (lit "type") [] 64) = .response ∧
          (CJson.getObjectItem obj (lit "tool_intent")).isNone = true then
        extractUsage ubuf frame obj
      else []

/-- Only a response has a usage. -/
theorem type_of_nativeUsageJson (env : ParserEnv) {ubuf frame : Bytes}
    (h : nativeUsageJson ubuf frame ≠ []) : (nativeParseFrame env frame).type = .response := by
  unfold nativeUsageJson at h
  unfold nativeParseFrame
  cases hparse : CJson.parse frame with
  | none =>
      rw [hparse] at h
      exact absurd rfl h
  | some obj =>
      rw [hparse] at h
      dsimp only at h ⊢
      split_ifs at h with hresponse
      · obtain ⟨htype, hintent⟩ := hresponse
        have hnamed : CJson.getString obj (lit "type") [] 64 ≠ [] := by
          intro hnil
          rw [hnil] at htype
          revert htype
          decide
        rw [if_neg hnamed, eventOf, htype]
        dsimp only
        rw [parseResponse, Option.isNone_iff_eq_none.mp hintent]
      · exact absurd rfl h

/-! ## The text of a member -/

/-- A member of an object: its name, its value, and the text that the value was read
from. -/
structure RawMember where
  name : Bytes
  value : CJson
  text : Bytes

/-- The loop of `parse_object`, with the texts of the values. -/
def rawMembers : Nat → Nat → Bytes → Option (List RawMember × Bytes)
  | 0, _, _ => none
  | fuel + 1, depth, s =>
      match CJson.parseString (CJson.skipWhitespace s) with
      | none => none
      | some (name, afterName) =>
          match CJson.skipWhitespace afterName with
          | [] => none
          | colon :: afterColon =>
              if colon ≠ 58 then none
              else
                let start := CJson.skipWhitespace afterColon
                match CJson.parseValue fuel depth start with
                | none => none
                | some (value, left) =>
                    let m : RawMember := ⟨name, value, start.take (start.length - left.length)⟩
                    match CJson.skipWhitespace left with
                    | [] => none
                    | c :: rest =>
                        if c = 44 then
                          (rawMembers fuel depth rest).map fun (members, left') =>
                            (m :: members, left')
                        else if c = 125 then some ([m], rest)
                        else none

/-- The members of a frame that is an object. -/
def topMembers (frame : Bytes) : List RawMember :=
  let s := CJson.skipWhitespace (CJson.skipBom (cstr frame))
  match s with
  | [] => []
  | _ :: rest =>
      ((rawMembers (2 * s.length) 1 (CJson.skipWhitespace rest)).map (·.1)).getD []

/-- These are the members that the parser reads. -/
theorem rawMembers_eq (fuel depth : Nat) (s : Bytes) :
    (rawMembers fuel depth s).map (fun p => (p.1.map fun m => (m.name, m.value), p.2)) =
      CJson.parseMembers fuel depth s := by
  induction fuel generalizing s with
  | zero => rfl
  | succ fuel ih =>
      rw [rawMembers, CJson.parseMembers]
      cases CJson.parseString (CJson.skipWhitespace s) with
      | none => rfl
      | some named =>
          obtain ⟨name, afterName⟩ := named
          dsimp only
          cases CJson.skipWhitespace afterName with
          | nil => rfl
          | cons colon afterColon =>
              dsimp only
              by_cases hcolon : colon ≠ 58
              · rw [if_pos hcolon, if_pos hcolon]
                rfl
              · rw [if_neg hcolon, if_neg hcolon]
                cases CJson.parseValue fuel depth (CJson.skipWhitespace afterColon) with
                | none => rfl
                | some read =>
                    obtain ⟨value, left⟩ := read
                    dsimp only
                    cases CJson.skipWhitespace left with
                    | nil => rfl
                    | cons c rest =>
                        dsimp only
                        by_cases hcomma : c = 44
                        · rw [if_pos hcomma, if_pos hcomma, ← ih, Option.map_map, Option.map_map]
                          rfl
                        · rw [if_neg hcomma, if_neg hcomma]
                          by_cases hclose : c = 125
                          · rw [if_pos hclose, if_pos hclose]
                            rfl
                          · rw [if_neg hclose, if_neg hclose]
                            rfl

/-- An object begins with a brace. -/
theorem parseValue_object {fuel depth : Nat} {s left : Bytes} {members : List (Bytes × CJson)}
    (h : CJson.parseValue (fuel + 1) depth s = some (.object members, left)) :
    ∃ rest, s = 123 :: rest ∧
      (CJson.skipWhitespace rest = 125 :: left ∧ members = [] ∨
        CJson.parseMembers fuel (depth + 1) (CJson.skipWhitespace rest) = some (members, left)) := by
  have hmapped : ∀ {α : Type} {o : Option α} {f : α → CJson × Bytes} {p : CJson × Bytes},
      o.map f = some p → ∃ a, o = some a ∧ f a = p := fun h => Option.map_eq_some_iff.mp h
  rw [CJson.parseValue.eq_def] at h
  dsimp only at h
  split at h
  · cases h
  split at h
  · cases h
  split at h
  · cases h
  cases s with
  | nil => cases h
  | cons c rest =>
      dsimp only at h
      by_cases hquote : c = 34
      · rw [if_pos hquote] at h
        obtain ⟨_, _, heq⟩ := hmapped h
        cases heq
      by_cases hnumber : c = 45 ∨ CJson.isDigit c = true
      · rw [if_neg hquote, if_pos hnumber] at h
        obtain ⟨_, _, heq⟩ := hmapped h
        cases heq
      rw [if_neg hquote, if_neg hnumber] at h
      by_cases hbracket : c = 91
      · rw [if_pos hbracket] at h
        split at h
        · cases h
        split at h
        · cases h
        split at h
        · cases h
        obtain ⟨_, _, heq⟩ := hmapped h
        cases heq
      rw [if_neg hbracket] at h
      by_cases hbrace : c = 123
      · rw [if_pos hbrace] at h
        split at h
        · cases h
        refine ⟨rest, by rw [hbrace], ?_⟩
        cases hskip : CJson.skipWhitespace rest with
        | nil =>
            rw [hskip] at h
            cases h
        | cons d rest' =>
            rw [hskip] at h
            dsimp only at h
            by_cases hclose : d = 125
            · rw [if_pos hclose] at h
              cases h
              exact Or.inl ⟨by rw [hclose], rfl⟩
            · rw [if_neg hclose] at h
              obtain ⟨⟨read, left'⟩, hread, heq⟩ := hmapped h
              cases heq
              exact Or.inr hread
      · rw [if_neg hbrace] at h
        cases h

theorem topMembers_eq {frame : Bytes} {members : List (Bytes × CJson)}
    (h : CJson.parse frame = some (.object members)) :
    (topMembers frame).map (fun m => (m.name, m.value)) = members := by
  unfold CJson.parse at h
  unfold topMembers
  generalize CJson.skipWhitespace (CJson.skipBom (cstr frame)) = s at h ⊢
  obtain ⟨⟨value, left⟩, hread, hvalue⟩ := Option.map_eq_some_iff.mp h
  cases hvalue
  obtain ⟨rest, rfl, hmembers⟩ := parseValue_object hread
  dsimp only
  rcases hmembers with ⟨hclose, rfl⟩ | hmembers
  · have hnone : ∀ fuel depth, rawMembers fuel depth (125 :: left) = none := by
      intro fuel depth
      cases fuel with
      | zero => rfl
      | succ fuel => rw [rawMembers]; rfl
    rw [hclose, hnone]
    rfl
  · rw [← rawMembers_eq] at hmembers
    obtain ⟨⟨raw, left'⟩, hraw, heq⟩ := Option.map_eq_some_iff.mp hmembers
    cases heq
    rw [hraw]
    rfl

theorem text_ne_nil_of_rawMembers {fuel depth : Nat} {s left : Bytes} {members : List RawMember}
    (h : rawMembers fuel depth s = some (members, left)) : ∀ m ∈ members, m.text ≠ [] := by
  induction fuel generalizing s members with
  | zero => cases h
  | succ fuel ih =>
      rw [rawMembers] at h
      split at h
      · cases h
      split at h
      · cases h
      next colon afterColon _ =>
      split at h
      · cases h
      dsimp only at h
      split at h
      · cases h
      next value behind hread =>
      have hshort := (CJson.parse_shortens fuel).1 depth _ _ _ hread
      have hfirst : (CJson.skipWhitespace afterColon).take
          ((CJson.skipWhitespace afterColon).length - behind.length) ≠ [] := by
        refine List.ne_nil_of_length_pos ?_
        rw [List.length_take]
        omega
      split at h
      · cases h
      split at h
      · obtain ⟨⟨more, left'⟩, hmore, heq⟩ := Option.map_eq_some_iff.mp h
        cases heq
        exact List.forall_mem_cons.mpr ⟨hfirst, ih hmore⟩
      split at h
      · cases h
        exact List.forall_mem_singleton.mpr hfirst
      · cases h

theorem text_ne_nil_of_mem {frame : Bytes} {m : RawMember} (h : m ∈ topMembers frame) :
    m.text ≠ [] := by
  have hread : ∀ {o : Option (List RawMember × Bytes)}, m ∈ (o.map (·.1)).getD [] →
      ∃ p, o = some p ∧ m ∈ p.1 := by
    intro o hmem
    cases o with
    | none => cases hmem
    | some p => exact ⟨p, rfl, hmem⟩
  unfold topMembers at h
  dsimp only at h
  split at h
  · cases h
  · obtain ⟨p, hraw, hmem⟩ := hread h
    exact text_ne_nil_of_rawMembers hraw m hmem

/-! ## The braces -/

/-- Fewer braces are closed in every front of a text than are opened in it and before. -/
def StaysOpen (depth : Nat) (text : Bytes) : Prop :=
  ∀ front, front <+: text → front.count 125 < front.count 123 + depth

/-- The last brace of a text closes the last one that is open. -/
structure ClosesLast (depth : Nat) (text : Bytes) : Prop where
  closed : text.count 125 = text.count 123 + depth
  before : ∀ front, front <+: text → front ≠ text → front.count 125 < front.count 123 + depth

theorem staysOpen_nil {depth : Nat} (h : 0 < depth) : StaysOpen depth [] := by
  intro front hfront
  rw [List.prefix_nil.mp hfront]
  simpa using h

theorem not_closesLast_nil {depth : Nat} (h : 0 < depth) : ¬ ClosesLast depth [] := by
  intro hclosed
  have heq : 0 = 0 + depth := hclosed.closed
  omega

section

variable {depth next : Nat} {c : UInt8} {text : Bytes}

/-- One byte, behind which `next` braces are open. -/
theorem staysOpen_cons (hdepth : 0 < depth)
    (hcount : ∀ l : Bytes, (c :: l).count 125 < (c :: l).count 123 + depth ↔
      l.count 125 < l.count 123 + next) :
    StaysOpen depth (c :: text) ↔ StaysOpen next text := by
  constructor
  · intro h front hfront
    exact (hcount front).mp (h _ (List.cons_prefix_cons.mpr ⟨rfl, hfront⟩))
  · intro h front hfront
    rcases List.prefix_cons_iff.mp hfront with rfl | ⟨more, rfl, hmore⟩
    · simpa using hdepth
    · exact (hcount more).mpr (h _ hmore)

theorem closesLast_cons (hdepth : 0 < depth)
    (hcount : ∀ l : Bytes, (c :: l).count 125 < (c :: l).count 123 + depth ↔
      l.count 125 < l.count 123 + next)
    (hclosed : ∀ l : Bytes, (c :: l).count 125 = (c :: l).count 123 + depth ↔
      l.count 125 = l.count 123 + next) :
    ClosesLast depth (c :: text) ↔ ClosesLast next text := by
  constructor
  · intro h
    refine ⟨(hclosed text).mp h.closed, fun front hfront hne => ?_⟩
    refine (hcount front).mp (h.before _ (List.cons_prefix_cons.mpr ⟨rfl, hfront⟩) ?_)
    exact fun heq => hne (List.cons.inj heq).2
  · intro h
    refine ⟨(hclosed text).mpr h.closed, fun front hfront hne => ?_⟩
    rcases List.prefix_cons_iff.mp hfront with rfl | ⟨more, rfl, hmore⟩
    · simpa using hdepth
    · exact (hcount more).mpr (h.before _ hmore fun heq => hne (by rw [heq]))

end

/-- **What the loop leaves**: the front up to the brace that closes all, or the whole. -/
theorem cutAtClose_eq_iff {depth : Nat} (hdepth : 0 < depth) {text cut : Bytes} :
    cutAtClose depth text = cut ↔
      (cut <+: text ∧ ClosesLast depth cut) ∨ (text = cut ∧ StaysOpen depth cut) := by
  induction text generalizing depth cut with
  | nil =>
      rw [cutAtClose, List.prefix_nil]
      constructor
      · intro h
        subst h
        exact Or.inr ⟨rfl, staysOpen_nil hdepth⟩
      · intro h
        rcases h with ⟨rfl, _⟩ | ⟨h, _⟩
        · rfl
        · exact h
  | cons c rest ih =>
      rw [cutAtClose]
      obtain ⟨next, hnext⟩ : ∃ next, (if c = 125 then (if c = 123 then depth + 1 else depth) - 1
        else if c = 123 then depth + 1 else depth) = next := ⟨_, rfl⟩
      rw [hnext]
      by_cases hzero : next = 0
      · have hlast : c = 125 ∧ depth = 1 := by grind
        obtain ⟨rfl, rfl⟩ := hlast
        rw [if_pos hzero]
        have hbrace : ¬ ([125] : Bytes).count 125 < ([125] : Bytes).count 123 + 1 := by decide
        constructor
        · intro h
          subst h
          refine Or.inl ⟨List.cons_prefix_cons.mpr ⟨rfl, List.nil_prefix⟩, by decide, ?_⟩
          intro front hfront hne
          rcases List.prefix_cons_iff.mp hfront with rfl | ⟨more, rfl, hmore⟩
          · decide
          · rw [List.prefix_nil.mp hmore] at hne
            exact absurd rfl hne
        · intro h
          rcases h with ⟨hstarts, hlast⟩ | ⟨heq, hopen⟩
          · rcases List.prefix_cons_iff.mp hstarts with rfl | ⟨more, rfl, hmore⟩
            · exact absurd hlast (not_closesLast_nil hdepth)
            · by_contra hne
              exact hbrace (hlast.before [125] ⟨more, rfl⟩ hne)
          · subst heq
            exact absurd (hopen [125] ⟨rest, rfl⟩) hbrace
      · rw [if_neg hzero]
        have hcount : ∀ l : Bytes, (c :: l).count 125 < (c :: l).count 123 + depth ↔
            l.count 125 < l.count 123 + next := by
          intro l
          grind
        have hclosed : ∀ l : Bytes, (c :: l).count 125 = (c :: l).count 123 + depth ↔
            l.count 125 = l.count 123 + next := by
          intro l
          grind
        cases cut with
        | nil =>
            refine iff_of_false (List.cons_ne_nil _ _) fun h => ?_
            rcases h with ⟨_, hlast⟩ | ⟨hnil, _⟩
            · exact not_closesLast_nil hdepth hlast
            · cases hnil
        | cons d cut =>
            rw [List.cons.injEq, List.cons_prefix_cons, List.cons.injEq,
              ih (Nat.pos_of_ne_zero hzero)]
            by_cases hsame : c = d
            · subst hsame
              rw [closesLast_cons hdepth hcount hclosed, staysOpen_cons hdepth hcount]
              simp
            · grind

/-! ## Exactness -/

/-- `cJSON_IsObject`. -/
def isObject : CJson → Bool
  | .object _ => true
  | _ => false

/-- The text of the usage object of a response. -/
def IsUsage (frame text : Bytes) : Prop :=
  ∃ obj, CJson.parse frame = some obj ∧ isObject obj = true ∧
    nativeEventTypeFromString (CJson.getString obj (lit "type") [] 64) = .response ∧
    ∃ m ∈ topMembers frame, m.name = lit "usage" ∧ isObject m.value = true ∧ m.text = text

/-- The usage of a frame is extracted as it is. -/
def UsageExact (ubuf frame : Bytes) : Prop :=
  ∀ text, IsUsage frame text → text.length ≤ 4095 → nativeUsageJson ubuf frame = text

/-- The search and the count come to this text: it stands behind the first key, and its
last brace is the first to close more than has been opened, or it reaches to the end of
what is copied. -/
def Cuts (frame text : Bytes) : Prop :=
  ∃ rest, after (lit "\"usage\":") (cstr frame) = some rest ∧
    (text <+: rest ∧ ClosesLast 1 text ∨ rest.take 4095 = text ∧ StaysOpen 1 text)

/-- The frame has no tool intent, the member that is found is an object, and either the
search comes to the text or the stack buffer has it already. -/
def Extracts (ubuf frame text : Bytes) : Prop :=
  (∃ obj, CJson.parse frame = some obj ∧
      (CJson.getObjectItem obj (lit "tool_intent")).isNone = true ∧
      (CJson.getObject obj (lit "usage")).isSome = true) ∧
    (ubuf = [] ∧ Cuts frame text ∨ ubuf ≠ [] ∧ clip 4096 ubuf = text)

/-- What is copied of the frame is what follows the key. -/
theorem copied_eq {frame rest : Bytes}
    (h : after (lit "\"usage\":") (cstr frame) = some rest) :
    cstr ((frame.drop ((before (lit "\"usage\":") (cstr frame)).length + 8)).take 4095) =
      rest.take 4095 := by
  have hkey : (lit "\"usage\":").length = 8 := length_lit _
  have hcut := before_append_after h
  have hlen : (before (lit "\"usage\":") (cstr frame) ++ lit "\"usage\":").length =
      (before (lit "\"usage\":") (cstr frame)).length + 8 := by
    rw [List.length_append, hkey]
  obtain ⟨tail, htail⟩ : cstr frame <+: frame := List.takeWhile_prefix _
  have hzero : (0 : UInt8) ∉ cstr frame := stop_not_mem_upTo 0 frame
  have htailed : cstr tail = [] := by
    have hsame : cstr frame ++ cstr tail = cstr frame := by
      conv_rhs => rw [← htail]
      exact (upTo_append hzero tail).symm
    simpa using hsame
  have hrest : (0 : UInt8) ∉ rest := by
    intro hmem
    rw [← hcut] at hzero
    exact hzero (List.mem_append_right _ hmem)
  have hframe : before (lit "\"usage\":") (cstr frame) ++ lit "\"usage\":" ++ (rest ++ tail) =
      frame := by
    rw [← List.append_assoc, hcut, htail]
  have hbehind : frame.drop ((before (lit "\"usage\":") (cstr frame)).length + 8) =
      rest ++ tail := by
    have hdrop : (before (lit "\"usage\":") (cstr frame) ++ lit "\"usage\":" ++
        (rest ++ tail)).drop (before (lit "\"usage\":") (cstr frame) ++
          lit "\"usage\":").length = rest ++ tail := List.drop_left
    rwa [hframe, hlen] at hdrop
  have hstring : cstr (rest ++ tail) = rest := by
    rw [cstr, upTo_append hrest]
    rw [cstr] at htailed
    rw [htailed, List.append_nil]
  rw [hbehind]
  exact (List.take_takeWhile.symm.trans (congrArg (List.take 4095) hstring))

/-- **One frame**: the text is that of the object iff the extraction comes to it. -/
theorem nativeUsageJson_eq_iff (ubuf : Bytes) {frame text : Bytes} (h : IsUsage frame text)
    (hlen : text.length ≤ 4095) : nativeUsageJson ubuf frame = text ↔ Extracts ubuf frame text := by
  obtain ⟨obj, hparse, _, htype, m, hm, _, _, htext⟩ := h
  have hne : text ≠ [] := by
    rw [← htext]
    exact text_ne_nil_of_mem hm
  have hobj : ∀ P : CJson → Prop, (∃ o, CJson.parse frame = some o ∧ P o) ↔ P obj := by
    intro P
    rw [hparse]
    simp
  unfold nativeUsageJson Extracts
  rw [hparse] at hobj ⊢
  rw [hobj]
  dsimp only
  by_cases hintent : (CJson.getObjectItem obj (lit "tool_intent")).isNone = true
  · rw [if_pos ⟨htype, hintent⟩, extractUsage]
    cases hfound : CJson.getObject obj (lit "usage") with
    | none => exact iff_of_false hne.symm fun hextracts => by cases hextracts.1.2
    | some usage =>
        have hbuffer : CJson.getString obj (lit "usage") ubuf 4096 = ubuf := by
          unfold CJson.getString CJson.stringField
          unfold CJson.getObject at hfound
          grind
        dsimp only
        rw [hbuffer]
        simp only [hintent, Option.isSome_some, and_self, true_and]
        by_cases hempty : ubuf = []
        · rw [if_neg (not_not_intro hempty)]
          simp only [hempty, true_and, ne_eq, not_true_eq_false, false_and, or_false, Cuts]
          cases hafter : after (lit "\"usage\":") (cstr frame) with
          | none =>
              rw [occurs, hafter]
              exact iff_of_false hne.symm fun hcuts => by
                obtain ⟨rest, hrest, _⟩ := hcuts
                cases hrest
          | some rest =>
              have hone : ∀ P : Bytes → Prop, (∃ r, some rest = some r ∧ P r) ↔ P rest := by
                simp
              rw [occurs, hafter, Option.isSome_some, if_pos rfl, copied_eq hafter, hone,
                cutAtClose_eq_iff Nat.one_pos, List.prefix_take_iff]
              simp [hlen]
        · rw [if_pos hempty]
          simp [hempty]
  · rw [if_neg fun hboth => hintent hboth.2]
    exact iff_of_false hne.symm fun hextracts => hintent hextracts.1.1

theorem usage_exact_iff (ubuf frame : Bytes) :
    UsageExact ubuf frame ↔
      ∀ text, IsUsage frame text → text.length ≤ 4095 → Extracts ubuf frame text := by
  refine forall_congr' fun text => ?_
  refine imp_congr_right fun h => imp_congr_right fun hlen => ?_
  exact nativeUsageJson_eq_iff ubuf h hlen

/-- A response with a usage of one member. -/
def cachedFrame : Bytes :=
  lit "\x7b\"type\":\"response\",\"text\":\"ok\",\"usage\":\x7b\"cache_hit\":5\x7d\x7d"

/-- The brace of the frame is taken for one of its usage. -/
theorem usage_exact_fails : ¬ ∀ ubuf frame, UsageExact ubuf frame := by
  intro h
  have hparsed : ((CJson.parse cachedFrame).map fun obj => isObject obj &&
      nativeEventTypeFromString (CJson.getString obj (lit "type") [] 64) == .response) =
        some true := by
    decide +kernel
  have hmember : ∃ m ∈ topMembers cachedFrame, m.name = lit "usage" ∧ isObject m.value = true ∧
      m.text = lit "\x7b\"cache_hit\":5\x7d" := by
    decide +kernel
  have hcut : nativeUsageJson [] cachedFrame = lit "\x7b\"cache_hit\":5\x7d\x7d" := by
    decide +kernel
  obtain ⟨obj, hparse, hobj⟩ := Option.map_eq_some_iff.mp hparsed
  rw [Bool.and_eq_true, beq_iff_eq] at hobj
  have hexact := h [] cachedFrame _ ⟨obj, hparse, hobj.1, hobj.2, hmember⟩ (by decide +kernel)
  rw [hcut] at hexact
  revert hexact
  decide +kernel

end StarBridge
