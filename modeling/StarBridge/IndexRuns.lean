import StarBridge.Runs
import StarBridge.SessionIndex

/-!
# The session index as a map

`session_index_update` is the only writer of the index while the bridge runs.
As a map it should have each key once and answer with the state id it was last
given.  Keys and the number of entries are as they should be after any sequence
of updates; a state id comes back whole iff it fits the 127 bytes an entry has
for it, which is less than the 255 the engine passes on.
-/

namespace StarBridge

open CText Runs

namespace SessionIndex

/-! ## What one call does -/

/-- What `session_index_update` returns. -/
def updateOk (index : SessionIndex) (key : Bytes) : Bool :=
  (index.find key).isSome || decide (index.entries.length < maxEntries)

/-- An entry after a call that finds it. -/
def overwriteEntry (stateId workspaceRoot modelId : Bytes) (contextBudget : Int) (now : Bytes)
    (e : SessionIndexEntry) : SessionIndexEntry :=
  { e with
    stateId := clip 128 stateId
    workspaceRoot := overwrite e.workspaceRoot workspaceRoot 1024
    modelId := overwrite e.modelId modelId 128
    contextBudget := if 0 < contextBudget then contextBudget else e.contextBudget
    updatedAt := clip 32 now }

/-- The entry a call adds. -/
def newEntry (key stateId workspaceRoot modelId : Bytes) (contextBudget : Int) (now : Bytes) :
    SessionIndexEntry where
  key := clip 256 key
  stateId := clip 128 stateId
  workspaceRoot := clip 1024 workspaceRoot
  modelId := clip 128 modelId
  contextBudget := contextBudget
  updatedAt := clip 32 now

/-- Either some entry has the key, and the first one is changed, or none has. -/
theorem updateFirst_cases (key : Bytes) (f : SessionIndexEntry → SessionIndexEntry)
    (entries : List SessionIndexEntry) :
    (∃ before e behind, entries = before ++ e :: behind ∧ (∀ b ∈ before, b.key ≠ key) ∧
        e.key = key ∧ updateFirst key f entries = some (before ++ f e :: behind)) ∨
      ((∀ e ∈ entries, e.key ≠ key) ∧ updateFirst key f entries = none) := by
  induction entries with
  | nil => exact Or.inr ⟨fun e he => absurd he List.not_mem_nil, rfl⟩
  | cons e rest ih =>
      by_cases hkey : e.key = key
      · refine Or.inl ⟨[], e, rest, rfl, fun b hb => absurd hb List.not_mem_nil, hkey, ?_⟩
        rw [updateFirst, if_pos hkey]
        rfl
      · have hmore : ∀ {entries : List SessionIndexEntry}, (∀ b ∈ entries, b.key ≠ key) →
            ∀ b ∈ e :: entries, b.key ≠ key := by
          intro entries h b hb
          rcases List.mem_cons.mp hb with hb | hb
          · rw [hb]
            exact hkey
          · exact h b hb
        rcases ih with ⟨before, e', behind, hsplit, hbefore, hkey', hupdate⟩ | ⟨hnone, hupdate⟩
        · refine Or.inl ⟨e :: before, e', behind, by rw [hsplit]; rfl, hmore hbefore, hkey', ?_⟩
          rw [updateFirst, if_neg hkey, hupdate]
          rfl
        · refine Or.inr ⟨hmore hnone, ?_⟩
          rw [updateFirst, if_neg hkey, hupdate]
          rfl

/-- Nothing is found under a key that no entry has. -/
theorem find_eq_none {index : SessionIndex} {key : Bytes} :
    index.find key = none ↔ ∀ e ∈ index.entries, e.key ≠ key := by
  rw [find, List.find?_eq_none]
  simp

section

variable (index : SessionIndex) (key stateId workspaceRoot modelId : Bytes)
  (contextBudget : Int) (now : Bytes)

/-- **What a call does**: it overwrites the first entry with its key, adds an
entry behind the others, or changes nothing. -/
theorem update_cases :
    (∃ before e behind, index.entries = before ++ e :: behind ∧
        (∀ b ∈ before, b.key ≠ key) ∧ e.key = key ∧ index.updateOk key = true ∧
        index.update key stateId workspaceRoot modelId contextBudget now =
          { index with
            entries := before ++
              overwriteEntry stateId workspaceRoot modelId contextBudget now e :: behind
            dirty := true }) ∨
      (index.find key = none ∧ index.entries.length < maxEntries ∧
        index.updateOk key = true ∧
        index.update key stateId workspaceRoot modelId contextBudget now =
          ⟨index.entries ++ [newEntry key stateId workspaceRoot modelId contextBudget now],
            index.stale.tail, true⟩) ∨
      (index.find key = none ∧ maxEntries ≤ index.entries.length ∧
        index.updateOk key = false ∧
        index.update key stateId workspaceRoot modelId contextBudget now = index) := by
  have hoverwritten : ∀ entries, updateFirst key
        (overwriteEntry stateId workspaceRoot modelId contextBudget now) index.entries =
          some entries →
      index.update key stateId workspaceRoot modelId contextBudget now =
        { index with entries := entries, dirty := true } := by
    intro entries h
    unfold overwriteEntry at h
    rw [update, h]
  have hmissed : updateFirst key
        (overwriteEntry stateId workspaceRoot modelId contextBudget now) index.entries = none →
      index.update key stateId workspaceRoot modelId contextBudget now =
        if maxEntries ≤ index.entries.length then index
        else
          ⟨index.entries ++ [newEntry key stateId workspaceRoot modelId contextBudget now],
            index.stale.tail, true⟩ := by
    intro h
    unfold overwriteEntry at h
    rw [update, h]
    rfl
  rcases updateFirst_cases key (overwriteEntry stateId workspaceRoot modelId contextBudget now)
    index.entries with ⟨before, e, behind, hsplit, hbefore, hkey, hfirst⟩ | ⟨hnone, hfirst⟩
  · refine Or.inl ⟨before, e, behind, hsplit, hbefore, hkey, ?_, hoverwritten _ hfirst⟩
    have hfound : (index.find key).isSome = true := by
      rw [find, hsplit, List.find?_isSome]
      exact ⟨e, by simp, by simpa using hkey⟩
    rw [updateOk, hfound, Bool.true_or]
  · have hmissing : index.find key = none := find_eq_none.mpr hnone
    by_cases hfull : maxEntries ≤ index.entries.length
    · refine Or.inr (Or.inr ⟨hmissing, hfull, ?_, ?_⟩)
      · rw [updateOk, hmissing, decide_eq_false (Nat.not_lt.mpr hfull)]
        rfl
      · rw [hmissed hfirst]
        exact if_pos hfull
    · refine Or.inr (Or.inl ⟨hmissing, Nat.lt_of_not_le hfull, ?_, ?_⟩)
      · rw [updateOk, decide_eq_true (Nat.lt_of_not_le hfull), Bool.or_true]
      · rw [hmissed hfirst]
        exact if_neg hfull

end

/-- A call is accepted unless the index is full and has no entry for the key. -/
theorem updateOk_iff (index : SessionIndex) (key : Bytes) :
    index.updateOk key = true ↔
      ¬ (index.find key = none ∧ maxEntries ≤ index.entries.length) := by
  rw [updateOk, Bool.or_eq_true, decide_eq_true_iff, not_and_or, Nat.not_le,
    Option.isSome_iff_ne_none]

/-- The first entry behind entries with other keys. -/
theorem find?_behind {before behind : List SessionIndexEntry} {e : SessionIndexEntry}
    {key : Bytes} (hbefore : ∀ b ∈ before, b.key ≠ key) (hkey : e.key = key) :
    (before ++ e :: behind).find? (fun e => e.key = key) = some e := by
  have hskip : before.find? (fun e => decide (e.key = key)) = none := by
    rw [List.find?_eq_none]
    intro b hb
    simpa using hbefore b hb
  rw [List.find?_append, hskip, Option.none_or, List.find?_cons_of_pos (by simpa using hkey)]

/-- An entry with another key makes no difference to a search. -/
theorem find?_other (before behind : List SessionIndexEntry) {e e' : SessionIndexEntry}
    {other : Bytes} (he : e.key ≠ other) (he' : e'.key = e.key) :
    (before ++ e' :: behind).find? (fun e => e.key = other) =
      (before ++ e :: behind).find? (fun e => e.key = other) := by
  have hskip : ∀ d : SessionIndexEntry, d.key ≠ other →
      (d :: behind).find? (fun e => e.key = other) = behind.find? (fun e => e.key = other) :=
    fun d hd => List.find?_cons_of_neg (by simpa using hd)
  rw [List.find?_append, List.find?_append, hskip e he, hskip e' (he' ▸ he)]

section

variable {index : SessionIndex} {key : Bytes} (hkey : key.length < 256)
  (stateId workspaceRoot modelId : Bytes) (contextBudget : Int) (now : Bytes)

include hkey

/-- A call that is accepted leaves the first 127 bytes of its state id. -/
theorem lookup_update (h : index.updateOk key = true) :
    (index.update key stateId workspaceRoot modelId contextBudget now).lookup key =
      some (clip 128 stateId) := by
  rcases index.update_cases key stateId workspaceRoot modelId contextBudget now with
    ⟨before, e, behind, -, hbefore, he, -, hupdate⟩ | ⟨hnone, -, -, hupdate⟩ |
    ⟨-, -, hrefused, -⟩
  · have hkey' : (overwriteEntry stateId workspaceRoot modelId contextBudget now e).key = key := he
    have hfind := @find?_behind before behind _ key hbefore hkey'
    rw [lookup, find, hupdate]
    dsimp only
    rw [hfind]
    rfl
  · have hnew : (newEntry key stateId workspaceRoot modelId contextBudget now).key = key :=
      clip_eq_self hkey
    rw [lookup, find, hupdate, find?_behind (find_eq_none.mp hnone) hnew]
    rfl
  · rw [hrefused] at h
    cases h

/-- A call leaves the entries of other keys alone. -/
theorem find_update_other {other : Bytes} (hother : other ≠ key) :
    (index.update key stateId workspaceRoot modelId contextBudget now).find other =
      index.find other := by
  rcases index.update_cases key stateId workspaceRoot modelId contextBudget now with
    ⟨before, e, behind, hsplit, -, he, -, hupdate⟩ | ⟨-, -, -, hupdate⟩ | ⟨-, -, -, hupdate⟩
  · rw [find, hupdate, find, hsplit]
    exact find?_other before behind (he ▸ hother.symm) rfl
  · have hnew : (newEntry key stateId workspaceRoot modelId contextBudget now).key = key :=
      clip_eq_self hkey
    rw [find, hupdate, find, List.find?_append,
      List.find?_cons_of_neg (by simpa [hnew] using hother.symm), List.find?_nil, Option.or_none]
  · rw [hupdate]

end

end SessionIndex

/-! ## Sequences of calls -/

/-- A C string. -/
def CString : Type := { text : Bytes // 0 ∉ text }

/-- A call of `session_index_update`, and the time it is made at. -/
structure UpdateCall where
  key : CString
  stateId : CString
  workspaceRoot : CString
  modelId : CString
  contextBudget : Int
  time : Int
  budget_int : -2 ^ 31 ≤ contextBudget ∧ contextBudget < 2 ^ 31

/-- A call with lengths as the engine passes them on. -/
structure EngineUpdate extends UpdateCall where
  key_lt : key.val.length < 256
  stateId_lt : stateId.val.length < 256

namespace SessionIndex

/-- The index after a call. -/
def apply (index : SessionIndex) (c : UpdateCall) : SessionIndex :=
  index.update c.key.val c.stateId.val c.workspaceRoot.val c.modelId.val c.contextBudget
    (signedDecimal c.time)

/-- An index that is a map with room for `maxEntries` keys. -/
structure Keyed (index : SessionIndex) : Prop where
  nodup : (index.entries.map (·.key)).Nodup
  bounded : index.entries.length ≤ maxEntries

/-- What a call should do to the map. -/
structure Faithful (index : SessionIndex) (c : EngineUpdate) : Prop where
  keyed : (index.apply c.toUpdateCall).Keyed
  stored : index.updateOk c.key.val = true →
    (index.apply c.toUpdateCall).lookup c.key.val = some c.stateId.val
  others : ∀ other, other ≠ c.key.val →
    (index.apply c.toUpdateCall).lookup other = index.lookup other ∧
      (index.apply c.toUpdateCall).getWorkspace other = index.getWorkspace other ∧
      (index.apply c.toUpdateCall).getModelId other = index.getModelId other
  refused : index.updateOk c.key.val = false → index.apply c.toUpdateCall = index

/-- The index after an engine's call. -/
def engineStep (index : SessionIndex) (c : EngineUpdate) : SessionIndex :=
  index.apply c.toUpdateCall

/-- The state id fits its entry, or the call is refused: the index is full and
has no entry for the key. -/
def StateIdFits (index : SessionIndex) (c : EngineUpdate) : Prop :=
  c.stateId.val.length < 128 ∨
    (index.find c.key.val = none ∧ maxEntries ≤ index.entries.length)

/-- **Calls keep the index a map.** -/
theorem Keyed.apply {index : SessionIndex} (h : index.Keyed) {c : UpdateCall}
    (hkey : c.key.val.length < 256) : (index.apply c).Keyed := by
  obtain ⟨hnodup, hbounded⟩ := h
  rcases index.update_cases c.key.val c.stateId.val c.workspaceRoot.val c.modelId.val
    c.contextBudget (signedDecimal c.time) with
    ⟨before, e, behind, hsplit, -, -, -, happly⟩ | ⟨hnone, hroom, -, happly⟩ | ⟨-, -, -, happly⟩
  · rw [hsplit] at hnodup hbounded
    rw [SessionIndex.apply, happly]
    refine ⟨?_, ?_⟩
    · rw [List.map_append, List.map_cons] at hnodup ⊢
      exact hnodup
    · rw [List.length_append, List.length_cons] at hbounded ⊢
      exact hbounded
  · have hnew : (newEntry c.key.val c.stateId.val c.workspaceRoot.val c.modelId.val
        c.contextBudget (signedDecimal c.time)).key = c.key.val := clip_eq_self hkey
    rw [SessionIndex.apply, happly]
    refine ⟨?_, ?_⟩
    · rw [List.map_append, List.map_singleton, hnew]
      refine List.nodup_append.mpr ⟨hnodup, List.pairwise_singleton _ _, ?_⟩
      intro k hk last hlast hsame
      obtain ⟨e, he, hek⟩ := List.mem_map.mp hk
      exact find_eq_none.mp hnone e he (hek.trans (hsame.trans (List.mem_singleton.mp hlast)))
    · rw [List.length_append, List.length_singleton]
      exact hroom
  · rw [SessionIndex.apply, happly]
    exact ⟨hnodup, hbounded⟩

theorem keyed_empty : empty.Keyed := ⟨List.nodup_nil, Nat.zero_le _⟩

/-- What is cut to 127 bytes is whole iff it was no longer. -/
theorem clip_stateId_eq (stateId : Bytes) : clip 128 stateId = stateId ↔ stateId.length < 128 := by
  constructor
  · intro h
    have hlen := length_clip_lt (show 0 < 128 by decide) stateId
    rwa [h] at hlen
  · exact clip_eq_self

/-- One call, exactly. -/
theorem Keyed.faithful_iff {index : SessionIndex} (h : index.Keyed) (c : EngineUpdate) :
    index.Faithful c ↔ index.StateIdFits c := by
  constructor
  · intro hfaithful
    by_cases hok : index.updateOk c.key.val = true
    · have hstored := hfaithful.stored hok
      rw [SessionIndex.apply, lookup_update c.key_lt _ _ _ _ _ hok, Option.some_inj] at hstored
      exact Or.inl ((clip_stateId_eq _).mp hstored)
    · exact Or.inr (not_not.mp (mt (index.updateOk_iff c.key.val).mpr hok))
  · intro hfits
    refine ⟨h.apply c.key_lt, ?_, ?_, ?_⟩
    · intro hok
      rw [SessionIndex.apply, lookup_update c.key_lt _ _ _ _ _ hok, Option.some_inj]
      rcases hfits with hshort | hrefused
      · exact clip_eq_self hshort
      · exact absurd hrefused ((index.updateOk_iff _).mp hok)
    · intro other hother
      have hfind : (index.apply c.toUpdateCall).find other = index.find other :=
        find_update_other c.key_lt _ _ _ _ _ hother
      exact ⟨congrArg _ hfind, congrArg (Option.bind · _) hfind,
        congrArg (Option.bind · _) hfind⟩
    · intro hrefused
      rcases index.update_cases c.key.val c.stateId.val c.workspaceRoot.val c.modelId.val
        c.contextBudget (signedDecimal c.time) with
        ⟨_, _, _, -, -, -, hok, -⟩ | ⟨-, -, hok, -⟩ | ⟨-, -, -, happly⟩
      · rw [hok] at hrefused
        cases hrefused
      · rw [hok] at hrefused
        cases hrefused
      · exact happly

/-- **The index is a faithful map** over a sequence of updates, exactly: iff no
state id of more than 127 bytes is stored. -/
theorem faithful_map_iff (calls : List EngineUpdate) :
    AllSteps engineStep Faithful empty calls ↔ AllSteps engineStep StateIdFits empty calls := by
  refine AllSteps.iff_of_invariant Keyed ?_ ?_ keyed_empty
  · intro index c h
    exact h.faithful_iff c
  · intro index c h _
    exact h.apply c.key_lt

/-- A state id of 128 bytes, which the engine passes on, comes back without its
last byte. -/
theorem faithful_map_fails_on_long_state_id :
    ¬ AllSteps engineStep Faithful empty
      [⟨⟨⟨lit "k", by decide⟩, ⟨List.replicate 128 97, by simp⟩, ⟨[], by decide⟩,
        ⟨[], by decide⟩, 0, 0, by decide⟩, by decide, by simp⟩] := by
  intro h
  have hstored := h.1.stored rfl
  rw [SessionIndex.apply, lookup_update (by decide) _ _ _ _ _ rfl, Option.some_inj,
    clip_stateId_eq, List.length_replicate] at hstored
  exact absurd hstored (by decide)

end SessionIndex

end StarBridge
