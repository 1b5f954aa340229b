import Mathlib.Logic.Basic
import Mathlib.Tactic.Common

/-!
# While loops that may not end

A loop runs its body as long as a condition holds of its state.  `Leaves s t` says
that the loop is left in the state `t` after some number of rounds.

* `leaves_body_iff` takes one round off;
* `Leaves.invariant` is the rule of the loop invariant;
* `exists_run_of_measure` bounds the rounds by a measure that each round lowers;
* `not_leaves_of_stuck` says that a round that changes nothing is the last one ever.
-/

namespace WhileLoop

variable {σ : Type*} (guard : σ → Prop) [DecidablePred guard] (body : σ → σ)

/-- The state the loop is left in, if it takes at most so many rounds. -/
def run : Nat → σ → Option σ
  | 0, s => if guard s then none else some s
  | rounds + 1, s => if guard s then run rounds (body s) else some s

/-- The loop is left in the state `t`. -/
def Leaves (s t : σ) : Prop := ∃ rounds, run guard body rounds s = some t

variable {guard body} {s t t' : σ}

/-- Where the condition fails, the loop is left at once. -/
theorem leaves_iff_of_not_guard (h : ¬ guard s) : Leaves guard body s t ↔ t = s := by
  constructor
  · rintro ⟨rounds, hrun⟩
    cases rounds with
    | zero => exact (Option.some.inj ((if_neg h).symm.trans hrun)).symm
    | succ rounds => exact (Option.some.inj ((if_neg h).symm.trans hrun)).symm
  · intro heq
    rw [heq]
    exact ⟨0, if_neg h⟩

/-- **One round.** -/
theorem leaves_body_iff (h : guard s) :
    Leaves guard body s t ↔ Leaves guard body (body s) t := by
  constructor
  · rintro ⟨rounds, hrun⟩
    cases rounds with
    | zero => cases (if_pos h).symm.trans hrun
    | succ rounds => exact ⟨rounds, (if_pos h).symm.trans hrun⟩
  · rintro ⟨rounds, hrun⟩
    exact ⟨rounds + 1, (if_pos h).trans hrun⟩

/-- **The loop invariant.** -/
theorem Leaves.invariant {Inv : σ → Prop} (h : Leaves guard body s t) (hs : Inv s)
    (hbody : ∀ s, guard s → Inv s → Inv (body s)) : Inv t ∧ ¬ guard t := by
  obtain ⟨rounds, hrun⟩ := h
  induction rounds generalizing s with
  | zero =>
      rw [run] at hrun
      split at hrun
      · cases hrun
      · rename_i hguard
        rw [← Option.some.inj hrun]
        exact ⟨hs, hguard⟩
  | succ rounds ih =>
      rw [run] at hrun
      split at hrun
      · rename_i hguard
        exact ih (hbody s hguard hs) hrun
      · rename_i hguard
        rw [← Option.some.inj hrun]
        exact ⟨hs, hguard⟩

/-- **A measure that every round lowers** bounds the rounds. -/
theorem exists_run_of_measure (measure : σ → Nat) {Inv : σ → Prop} {rounds : Nat}
    (hlower : ∀ s, Inv s → guard s → Inv (body s) ∧ measure (body s) < measure s)
    (hs : Inv s) (h : measure s ≤ rounds) : ∃ t, run guard body rounds s = some t := by
  induction rounds generalizing s with
  | zero =>
      have hout : ¬ guard s := fun hguard => by
        have hless := (hlower s hs hguard).2
        omega
      exact ⟨s, if_neg hout⟩
  | succ rounds ih =>
      by_cases hguard : guard s
      · obtain ⟨hbody, hless⟩ := hlower s hs hguard
        obtain ⟨t, ht⟩ := ih hbody (by omega)
        exact ⟨t, (if_pos hguard).trans ht⟩
      · exact ⟨s, if_neg hguard⟩

/-- **A round that changes nothing** is followed by others for ever. -/
theorem not_leaves_of_stuck (hguard : guard s) (hstuck : body s = s) :
    ¬ Leaves guard body s t := by
  intro h
  obtain ⟨heq, hout⟩ := @Leaves.invariant _ _ _ _ _ _ (fun u => u = s) h rfl fun u _ hu => by rw [hu, hstuck]
  exact hout (heq ▸ hguard)

end WhileLoop
