import StarBridge.EscapeBuffer
import StarBridge.RequestParser
import StarBridge.WhileLoops

/-!
# Growing texts

`append_owned` puts texts one behind the other into an allocation that it grows: the
capacity is doubled until the text fits, or set to the limit of the input where doubling
would pass it.

`append_owned_safe` says what every sequence of calls leaves, and `appendOwned_refines` that
the parser of requests sees no more of it than the text.
-/

namespace StarBridge.OwnedText

/-! ## The code -/

/-- `*dest`, `*len` and `*cap`. -/
structure Owned where
  buffer : Bytes
  len : Nat
  cap : Nat

/-- A call, and what its `realloc` gives if it has to: the bytes behind the old ones, or
NULL. -/
structure AppendCall where
  text : Option Bytes
  memory : Option (Nat → UInt8)

/-- The growth loop stands before a round, or has been left by `break`. -/
structure Growth where
  next : Nat
  broken : Bool

/-- The condition of the growth loop. -/
def Grows (need : Nat) (g : Growth) : Prop := g.broken = false ∧ g.next < need

instance (need : Nat) : DecidablePred (Grows need) := fun g =>
  inferInstanceAs (Decidable (g.broken = false ∧ g.next < need))

/-- A round of the growth loop. -/
def growthRound (limit : Nat) (g : Growth) : Growth :=
  if limit / 2 < g.next then ⟨limit + 1, true⟩ else ⟨g.next * 2, false⟩

/-- The capacity that the growth loop ends with, if it ends. -/
def grownCapacity (limit need cap : Nat) : Option Nat :=
  (WhileLoop.run (Grows need) (growthRound limit) need
    ⟨if cap = 0 then 1024 else cap, false⟩).map Growth.next

/-- `realloc`. -/
def reallocated (buffer : Bytes) (fresh : Nat → UInt8) (size : Nat) : Bytes :=
  (List.range size).map fun i => (buffer[i]?).getD (fresh i)

/-- `memcpy` and the terminator. -/
def copyText (o : Owned) (text : Bytes) : Option (Bool × Owned) :=
  (storeAt o.buffer o.len text).bind fun buffer =>
    (storeAt buffer (o.len + text.length) [0]).map fun buffer =>
      (true, ⟨buffer, o.len + text.length, o.cap⟩)

/-- `append_owned`: none if the loop does not end or a write leaves the buffer. -/
def appendOwned (limit : Nat) (o : Owned) (call : AppendCall) : Option (Bool × Owned) :=
  match call.text.map cstr with
  | none => some (true, o)
  | some text =>
      let need := o.len + text.length + 1
      if limit < o.len + text.length then some (false, o)
      else if o.cap < need then
        (grownCapacity limit need o.cap).bind fun next =>
          match call.memory with
          | none => some (false, o)
          | some fresh => copyText ⟨reallocated o.buffer fresh next, o.len, next⟩ text
      else copyText o text

/-- What a call is to append. -/
def AppendCall.appends (call : AppendCall) : Bytes := (call.text.map cstr).getD []

/-! ## What the calls keep -/

/-- The buffer before the first call. -/
def nothingOwned : Owned := ⟨[], 0, 0⟩

/-- A buffer that some calls have left, and what they have appended. -/
inductive Reached (limit : Nat) : Owned → Bytes → Prop
  | start : Reached limit nothingOwned []
  | appended {o o' : Owned} {text : Bytes} (h : Reached limit o text) (call : AppendCall)
      (hrun : appendOwned limit o call = some (true, o')) :
      Reached limit o' (text ++ call.appends)
  | failed {o o' : Owned} {text : Bytes} (h : Reached limit o text) (call : AppendCall)
      (hrun : appendOwned limit o call = some (false, o')) : Reached limit o' text

/-- The buffer holds the text and a terminator. -/
structure Holds (limit : Nat) (o : Owned) (text : Bytes) : Prop where
  content : text ++ [0] <+: o.buffer
  length : o.len = text.length
  capacity : o.buffer.length = o.cap
  limited : text.length ≤ limit
  room : text.length < o.cap

/-- Nothing is allocated yet, or the buffer holds the text. -/
def Fits (limit : Nat) (o : Owned) (text : Bytes) : Prop :=
  (o = nothingOwned ∧ text = []) ∨ Holds limit o text

/-! ## The growth loop -/

/-- **The growth loop** ends with a capacity that suffices. -/
theorem grownCapacity_spec {limit need : Nat} (cap : Nat) (hneed : need ≤ limit + 1) :
    ∃ next, grownCapacity limit need cap = some next ∧ need ≤ next := by
  let Inv : Growth → Prop := fun g => 0 < g.next ∧ (g.broken = true → need ≤ g.next)
  have hstart : Inv ⟨if cap = 0 then 1024 else cap, false⟩ := by
    refine ⟨?_, fun h => nomatch h⟩
    show 0 < if cap = 0 then 1024 else cap
    split <;> omega
  have hround : ∀ g, Inv g → Inv (growthRound limit g) := by
    intro g hg
    unfold growthRound
    split
    · exact ⟨Nat.succ_pos _, fun _ => hneed⟩
    · exact ⟨Nat.mul_pos hg.1 (by decide), fun h => nomatch h⟩
  have hlower : ∀ g, Inv g → Grows need g → Inv (growthRound limit g) ∧
      (if (growthRound limit g).broken then 0 else need - (growthRound limit g).next) <
        if g.broken then 0 else need - g.next := by
    intro g hg hgrows
    refine ⟨hround g hg, ?_⟩
    obtain ⟨hbroken, hless⟩ := hgrows
    have hpos := hg.1
    rw [hbroken]
    unfold growthRound
    split <;> simp <;> omega
  obtain ⟨g, hrun⟩ := WhileLoop.exists_run_of_measure
    (fun g : Growth => if g.broken then 0 else need - g.next) hlower hstart (Nat.sub_le _ _)
  have hleaves : WhileLoop.Leaves (Grows need) (growthRound limit) _ g := ⟨_, hrun⟩
  obtain ⟨hinv, hout⟩ := hleaves.invariant hstart fun g _ hg => hround g hg
  refine ⟨g.next, ?_, ?_⟩
  · unfold grownCapacity
    rw [hrun]
    rfl
  · cases hbroken : g.broken with
    | true => exact hinv.2 hbroken
    | false =>
        by_contra hless
        exact hout ⟨hbroken, by omega⟩

/-! ## One call -/

/-- A text is copied behind the one that is there. -/
theorem copyText_eq {text rest piece : Bytes} (cap : Nat) (h : piece.length < rest.length) :
    copyText ⟨text ++ rest, text.length, cap⟩ piece =
      some (true, ⟨text ++ piece ++ 0 :: rest.drop (piece.length + 1),
        text.length + piece.length, cap⟩) := by
  have hpiece := storeAt_append text (rest.take piece.length) (rest.drop piece.length) piece
    (by rw [List.length_take]; omega)
  have hzero := storeAt_append (text ++ piece) [rest[piece.length]] (rest.drop (piece.length + 1))
    [0] rfl
  rw [List.append_assoc, List.take_append_drop] at hpiece
  rw [List.append_assoc, List.singleton_append, ← List.drop_eq_getElem_cons h,
    List.length_append] at hzero
  unfold copyText
  dsimp only
  rw [hpiece, Option.bind_some, hzero, Option.map_some, List.append_assoc, List.singleton_append]

theorem holds_copied {limit cap : Nat} {text rest piece : Bytes} (hcap : (text ++ rest).length = cap)
    (hroom : piece.length < rest.length) (hlimit : text.length + piece.length ≤ limit) :
    ∃ o', copyText ⟨text ++ rest, text.length, cap⟩ piece = some (true, o') ∧
      Holds limit o' (text ++ piece) := by
  rw [List.length_append] at hcap
  refine ⟨_, copyText_eq cap hroom, ?_, ?_, ?_, ?_, ?_⟩
  · exact ⟨rest.drop (piece.length + 1), by simp⟩
  · rw [List.length_append]
  · show (text ++ piece ++ 0 :: rest.drop (piece.length + 1)).length = cap
    rw [List.length_append, List.length_append, List.length_cons, List.length_drop]
    omega
  · rwa [List.length_append]
  · show (text ++ piece).length < cap
    rw [List.length_append]
    omega

/-- `realloc` keeps what is in the buffer. -/
theorem reallocated_append {text rest : Bytes} (fresh : Nat → UInt8) {size : Nat}
    (h : text.length ≤ size) :
    ∃ rest', reallocated (text ++ rest) fresh size = text ++ rest' ∧
      (text ++ rest').length = size := by
  have hlength : (reallocated (text ++ rest) fresh size).length = size := by
    unfold reallocated
    rw [List.length_map, List.length_range]
  have hfront : text <+: reallocated (text ++ rest) fresh size := by
    rw [List.prefix_iff_getElem?]
    intro i hi
    unfold reallocated
    simp [List.getElem?_append_left hi, List.getElem?_eq_getElem hi, Nat.lt_of_lt_of_le hi h]
  obtain ⟨rest', hrest⟩ := hfront
  exact ⟨rest', hrest.symm, hrest ▸ hlength⟩

/-- The text that is there, and the bytes behind it. -/
theorem Fits.exists_rest {limit : Nat} {o : Owned} {text : Bytes} (h : Fits limit o text) :
    ∃ rest, o = ⟨text ++ rest, text.length, o.cap⟩ ∧ (text ++ rest).length = o.cap := by
  rcases h with ⟨rfl, rfl⟩ | h
  · exact ⟨[], rfl, rfl⟩
  · obtain ⟨behind, hbehind⟩ := h.content
    have hsplit : o.buffer = text ++ 0 :: behind := by
      rw [← hbehind, List.append_assoc, List.singleton_append]
    refine ⟨0 :: behind, ?_, hsplit ▸ h.capacity⟩
    rw [← hsplit, ← h.length]

/-- **One call** appends its text or leaves everything as it was. -/
theorem appendOwned_spec {limit : Nat} {o : Owned} {text : Bytes} (h : Fits limit o text)
    (call : AppendCall) :
    ∃ ok o', appendOwned limit o call = some (ok, o') ∧ (ok = false → o' = o) ∧
      (ok = true → Fits limit o' (text ++ call.appends) ∧
        (call.text ≠ none → Holds limit o' (text ++ call.appends))) := by
  obtain ⟨rest, ho, hcap⟩ := h.exists_rest
  obtain ⟨given, memory⟩ := call
  cases given with
  | none =>
      refine ⟨true, o, rfl, nofun, fun _ => ⟨?_, fun hsome => absurd rfl hsome⟩⟩
      show Fits limit o (text ++ [])
      rw [List.append_nil]
      exact h
  | some given =>
      have hlen : o.len = text.length := by rw [ho]
      unfold appendOwned AppendCall.appends
      dsimp only [Option.map_some, Option.getD_some]
      rw [hlen]
      split
      · exact ⟨false, o, rfl, fun _ => rfl, nofun⟩
      · rename_i hlimit
        have hinside : text.length + (cstr given).length ≤ limit := by omega
        have hcopied : ∀ {rest : Bytes} {cap : Nat}, (text ++ rest).length = cap →
            text.length + (cstr given).length + 1 ≤ cap →
            ∃ ok o', copyText ⟨text ++ rest, text.length, cap⟩ (cstr given) = some (ok, o') ∧
              (ok = false → o' = o) ∧
              (ok = true → Fits limit o' (text ++ cstr given) ∧
                ((some given ≠ (none : Option Bytes)) → Holds limit o' (text ++ cstr given))) := by
          intro rest cap hsize hroom
          have hlengths := hsize
          rw [List.length_append] at hlengths
          obtain ⟨o', hcopy, hholds⟩ := holds_copied hsize
            (show (cstr given).length < rest.length by omega) hinside
          exact ⟨true, o', hcopy, nofun, fun _ => ⟨Or.inr hholds, fun _ => hholds⟩⟩
        split
        · obtain ⟨next, hgrown, hroom⟩ := grownCapacity_spec o.cap
            (show text.length + (cstr given).length + 1 ≤ limit + 1 by omega)
          rw [hgrown, Option.bind_some]
          cases memory with
          | none => exact ⟨false, o, rfl, fun _ => rfl, nofun⟩
          | some fresh =>
              have hold : o.buffer = text ++ rest := by rw [ho]
              obtain ⟨rest', hbuffer, hsize⟩ : ∃ rest',
                  reallocated (text ++ rest) fresh next = text ++ rest' ∧
                    (text ++ rest').length = next := reallocated_append fresh (by omega)
              rw [hold]
              dsimp only
              rw [hbuffer]
              exact hcopied hsize hroom
        · rename_i hroom
          have hcopy := hcopied hcap (by omega)
          rw [← ho] at hcopy
          exact hcopy

theorem Reached.fits {limit : Nat} {o : Owned} {text : Bytes} (h : Reached limit o text) :
    Fits limit o text := by
  induction h with
  | start => exact Or.inl ⟨rfl, rfl⟩
  | @appended o o' text h call hrun ih =>
      obtain ⟨ok, o'', hcall, -, hfits⟩ := appendOwned_spec ih call
      rw [hrun] at hcall
      obtain ⟨rfl, rfl⟩ := Prod.mk.inj (Option.some.inj hcall)
      exact (hfits rfl).1
  | @failed o o' text h call hrun ih =>
      obtain ⟨ok, o'', hcall, hsame, -⟩ := appendOwned_spec ih call
      rw [hrun] at hcall
      obtain ⟨rfl, rfl⟩ := Prod.mk.inj (Option.some.inj hcall)
      rw [hsame rfl]
      exact ih

/-- A call fails for want of memory, or because its text is too long. -/
theorem appendOwned_eq_false {limit : Nat} {o o' : Owned} {call : AppendCall}
    (h : appendOwned limit o call = some (false, o')) :
    limit < o.len + call.appends.length ∨ call.memory = none := by
  have hcopy : ∀ (o : Owned) (text : Bytes), copyText o text ≠ some (false, o') := by
    intro o text hcopied
    obtain ⟨buffer, -, hmap⟩ := Option.bind_eq_some_iff.mp hcopied
    obtain ⟨buffer', -, hpair⟩ := Option.map_eq_some_iff.mp hmap
    cases hpair
  obtain ⟨given, memory⟩ := call
  cases given with
  | none => cases h
  | some given =>
      unfold appendOwned at h
      unfold AppendCall.appends
      dsimp only [Option.map_some, Option.getD_some] at h ⊢
      split at h
      · rename_i hlarge
        exact Or.inl hlarge
      · split at h
        · obtain ⟨next, -, hnext⟩ := Option.bind_eq_some_iff.mp h
          cases memory with
          | none => exact Or.inr rfl
          | some fresh => exact absurd hnext (hcopy _ _)
        · exact absurd h (hcopy _ _)

/-- **The parser of requests** takes the text of the buffer, as long as there is memory. -/
theorem appendOwned_refines {cfg : RequestParser.RequestConfig} {o : Owned} {text : Bytes}
    (h : Reached cfg.inputLimit o text) (given : Bytes) (fresh : Nat → UInt8) :
    (∃ o', appendOwned cfg.inputLimit o ⟨some given, some fresh⟩ = some (true, o') ∧
        RequestParser.appendOwned cfg text (cstr given) = .running (text ++ cstr given) ∧
        Holds cfg.inputLimit o' (text ++ cstr given)) ∨
      (appendOwned cfg.inputLimit o ⟨some given, some fresh⟩ = some (false, o) ∧
        ∃ e, RequestParser.appendOwned cfg text (cstr given) = .ended e) := by
  obtain ⟨rest, ho, -⟩ := h.fits.exists_rest
  have hlen : o.len = text.length := by rw [ho]
  obtain ⟨ok, o', hcall, hsame, hholds⟩ := appendOwned_spec h.fits ⟨some given, some fresh⟩
  unfold RequestParser.appendOwned
  by_cases hlarge : cfg.inputLimit < text.length + (cstr given).length
  · right
    rw [if_pos hlarge]
    refine ⟨?_, _, rfl⟩
    unfold appendOwned
    dsimp only [Option.map_some]
    rw [hlen]
    exact if_pos hlarge
  · left
    rw [if_neg hlarge]
    cases ok with
    | false =>
        rcases appendOwned_eq_false hcall with hlong | hmemory
        · rw [hlen] at hlong
          exact absurd hlong hlarge
        · cases hmemory
    | true => exact ⟨o', hcall, rfl, (hholds rfl).2 (Option.some_ne_none _)⟩

/-- **Owned append is safe.**  In every state that calls reach, a further call comes to its
end inside the buffer.  Where it succeeds the buffer holds all texts that were appended;
where it fails nothing has changed.  The growth loop ends with room for every text within
the limit. -/
theorem append_owned_safe {limit : Nat} {o : Owned} {text : Bytes} (h : Reached limit o text)
    (call : AppendCall) :
    (∃ ok o', appendOwned limit o call = some (ok, o') ∧ (ok = false → o' = o) ∧
      (ok = true → call.text ≠ none → Holds limit o' (text ++ call.appends))) ∧
    ∀ add, o.len + add ≤ limit →
      ∃ next, grownCapacity limit (o.len + add + 1) o.cap = some next ∧ o.len + add + 1 ≤ next := by
  constructor
  · obtain ⟨ok, o', hcall, hsame, hholds⟩ := appendOwned_spec h.fits call
    exact ⟨ok, o', hcall, hsame, fun hok => (hholds hok).2⟩
  · intro add hadd
    exact grownCapacity_spec o.cap (show o.len + add + 1 ≤ limit + 1 by omega)

/-- The first text of a request. -/
theorem append_owned_safe_start :
    ∃ ok o', appendOwned 1024 nothingOwned ⟨some [104, 105], some fun _ => 7⟩ = some (ok, o') ∧
      (ok = false → o' = nothingOwned) ∧ (ok = true → Holds 1024 o' [104, 105]) := by
  obtain ⟨ok, o', hcall, hsame, hholds⟩ :=
    (append_owned_safe (Reached.start : Reached 1024 nothingOwned []) ⟨some [104, 105], some fun _ => 7⟩).1
  exact ⟨ok, o', hcall, hsame, fun hok => hholds hok (Option.some_ne_none _)⟩

example : grownCapacity 5000 4500 1024 = some 5001 := by decide +kernel

end StarBridge.OwnedText
