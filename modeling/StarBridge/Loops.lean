import Mathlib.Logic.Basic
import Mathlib.Tactic.Common

/-!
# Loops that may stop

A loop reads one input after another, carries a state, and may stop at any
input with a result.  Two facts about such loops are all that is used here: a
run over two stretches of input is the second stretch after the first, and a
relation between states that every step keeps relates the runs.
-/

namespace Loops

variable {σ α ρ : Type*}

/-- What a loop has come to: it goes on from a state, or it has stopped with a
result. -/
inductive Progress (σ ρ : Type*)
  | running (s : σ)
  | ended (r : ρ)
  deriving DecidableEq

/-- Go on with `f` unless the loop has stopped. -/
def Progress.bind {τ : Type*} : Progress σ ρ → (σ → Progress τ ρ) → Progress τ ρ
  | .running s, f => f s
  | .ended r, _ => .ended r

@[simp] theorem Progress.bind_running {τ : Type*} (s : σ) (f : σ → Progress τ ρ) :
    (Progress.running s).bind f = f s := rfl

@[simp] theorem Progress.bind_ended {τ : Type*} (r : ρ) (f : σ → Progress τ ρ) :
    (Progress.ended r).bind f = .ended r := rfl

theorem Progress.bind_eq_running {τ : Type*} {p : Progress σ ρ}
    {f : σ → Progress τ ρ} {t : τ} (h : p.bind f = .running t) :
    ∃ s, p = .running s ∧ f s = .running t := by
  cases p with
  | running s => exact ⟨s, rfl, h⟩
  | ended r => cases h

/-- The result of a loop that has stopped. -/
def Progress.result? : Progress σ ρ → Option ρ
  | .running _ => none
  | .ended r => some r

/-- The loop over a list of inputs. -/
def run (step : σ → α → Progress σ ρ) : σ → List α → Progress σ ρ
  | s, [] => .running s
  | s, a :: rest => (step s a).bind fun s' => run step s' rest

variable (step : σ → α → Progress σ ρ)

@[simp] theorem run_nil (s : σ) : run step s [] = .running s := rfl

@[simp] theorem run_cons (s : σ) (a : α) (rest : List α) :
    run step s (a :: rest) = (step s a).bind fun s' => run step s' rest := rfl

/-- A run over two stretches is a run over the second after one over the
first. -/
theorem run_append (s : σ) (first second : List α) :
    run step s (first ++ second) =
      (run step s first).bind fun s' => run step s' second := by
  induction first generalizing s with
  | nil => rfl
  | cons a rest ih =>
      rw [List.cons_append, run_cons, run_cons]
      cases step s a with
      | running s' => exact ih s'
      | ended r => rfl

/-- The inputs a run leaves behind when it stops. -/
def leftover (step : σ → α → Progress σ ρ) : σ → List α → List α
  | _, [] => []
  | s, a :: rest =>
      match step s a with
      | .running s' => leftover step s' rest
      | .ended _ => rest

/-- What one step keeps, a run that has not stopped keeps. -/
theorem run_invariant {step : σ → α → Progress σ ρ} {Inv : σ → Prop}
    (hstep : ∀ s a s', Inv s → step s a = .running s' → Inv s')
    {s s' : σ} {inputs : List α} (hs : Inv s) (hrun : run step s inputs = .running s') :
    Inv s' := by
  induction inputs generalizing s with
  | nil =>
      cases hrun
      exact hs
  | cons a rest ih =>
      obtain ⟨t, ht, hrest⟩ := Progress.bind_eq_running hrun
      exact ih (hstep s a t hs ht) hrest

/-- **The rule for what has been read.**  An invariant that speaks of the inputs
read so far holds of all of them when the run is through. -/
theorem run_processed {step : σ → α → Progress σ ρ} {Inv : List α → σ → Prop}
    (hstep : ∀ read s a s', Inv read s → step s a = .running s' → Inv (read ++ [a]) s')
    {s s' : σ} {read inputs : List α} (hs : Inv read s)
    (hrun : run step s inputs = .running s') : Inv (read ++ inputs) s' := by
  induction inputs generalizing s read with
  | nil =>
      cases hrun
      rw [List.append_nil]
      exact hs
  | cons a rest ih =>
      obtain ⟨t, ht, hrest⟩ := Progress.bind_eq_running hrun
      have hnext := ih (hstep read s a t hs ht) hrest
      rw [List.append_assoc, List.singleton_append] at hnext
      exact hnext

/-- Where a loop has come to: `I` holds of the state it goes on from, `E` of the
result it has stopped with. -/
def Progress.Meets (I : σ → Prop) (E : ρ → Prop) : Progress σ ρ → Prop
  | .running s => I s
  | .ended r => E r

theorem Progress.Meets.bind {τ : Type*} {I : σ → Prop} {J : τ → Prop} {E : ρ → Prop}
    {p : Progress σ ρ} (h : p.Meets I E) {f : σ → Progress τ ρ}
    (hf : ∀ s, I s → (f s).Meets J E) : (p.bind f).Meets J E := by
  cases p with
  | running s => exact hf s h
  | ended r => exact h

/-- **The rule for invariants and results.**  Steps that keep the invariant or
stop with a result make a run that does. -/
theorem run_meets {step : σ → α → Progress σ ρ} {I : σ → Prop} {E : ρ → Prop}
    (hstep : ∀ s a, I s → (step s a).Meets I E) {s : σ} (hs : I s) (inputs : List α) :
    (run step s inputs).Meets I E := by
  induction inputs generalizing s with
  | nil => exact hs
  | cons a rest ih => exact (hstep s a hs).bind fun s' hs' => ih hs'

/-- **The rule for what has been read when a loop stops.**  Where `I` and `E` speak
of the inputs read so far, a run that stops does so with `E` of the inputs it has
read. -/
theorem run_read {step : σ → α → Progress σ ρ} {P : α → Prop} {I : List α → σ → Prop}
    {E : List α → ρ → Prop}
    (hstep : ∀ read s a, P a → I read s → (step s a).Meets (I (read ++ [a])) (E (read ++ [a])))
    {read : List α} {s : σ} (hs : I read s) {inputs : List α} (hinputs : ∀ a ∈ inputs, P a) :
    (run step s inputs).Meets (I (read ++ inputs)) fun r =>
      ∃ done, done <+: inputs ∧ run step s done = .ended r ∧ E (read ++ done) r := by
  induction inputs generalizing s read with
  | nil =>
      rw [List.append_nil]
      exact hs
  | cons a rest ih =>
      rw [List.forall_mem_cons] at hinputs
      have hone := hstep read s a hinputs.1 hs
      rw [run_cons]
      cases hnext : step s a with
      | running s' =>
          rw [hnext] at hone
          have hrest := ih hone hinputs.2
          rw [List.append_assoc, List.singleton_append] at hrest
          rw [Progress.bind_running]
          cases hrun : run step s' rest with
          | running t =>
              rw [hrun] at hrest
              exact hrest
          | ended r =>
              rw [hrun] at hrest
              obtain ⟨done, hdone, hended, hresult⟩ := hrest
              rw [List.append_assoc, List.singleton_append] at hresult
              refine ⟨a :: done, List.cons_prefix_cons.mpr ⟨rfl, hdone⟩, ?_, hresult⟩
              rw [run_cons, hnext]
              exact hended
      | ended r =>
          rw [hnext] at hone
          refine ⟨[a], ⟨rest, rfl⟩, ?_, hone⟩
          rw [run_cons, hnext]
          rfl

/-- `P` holds at every step a run takes, of the state the step starts in and the
input it reads. -/
def Throughout (step : σ → α → Progress σ ρ) (P : σ → α → Prop) : σ → List α → Prop
  | _, [] => True
  | s, a :: rest =>
      P s a ∧ (step s a).Meets (fun s' => Throughout step P s' rest) fun _ => True

/-- **The rule for what steps can break.**  Where a step keeps a property iff
`P` holds of it, a run keeps the property iff `P` holds throughout. -/
theorem run_meets_iff {step : σ → α → Progress σ ρ} {K : σ → Prop} {E : ρ → Prop}
    {P : σ → α → Prop} (hstep : ∀ s a, (step s a).Meets K E ↔ K s ∧ P s a) (s : σ)
    (inputs : List α) :
    (run step s inputs).Meets K E ↔ K s ∧ Throughout step P s inputs := by
  induction inputs generalizing s with
  | nil => exact (and_iff_left trivial).symm
  | cons a rest ih =>
      have hone := hstep s a
      rw [run_cons, Throughout]
      cases h : step s a with
      | running s' =>
          rw [h] at hone
          exact (ih s').trans ((and_congr_left fun _ => hone).trans and_assoc)
      | ended r =>
          rw [h] at hone
          exact hone.trans (and_congr_right fun _ => (and_iff_left trivial).symm)

/-- **The rule for results that depend on the step they come from.**  Where the
invariant is kept by every step, and `P` holds of every step but those that stop with
another result than `E`, a run stops with `E` iff `P` holds throughout. -/
theorem run_stops_iff {step : σ → α → Progress σ ρ} {K : σ → Prop} {E : ρ → Prop}
    {P : σ → α → Prop} (hgo : ∀ s a s', K s → step s a = .running s' → K s' ∧ P s a)
    (hstop : ∀ s a r, K s → step s a = .ended r → (E r ↔ P s a)) {s : σ} (hs : K s)
    (inputs : List α) :
    (run step s inputs).Meets K E ↔ Throughout step P s inputs := by
  induction inputs generalizing s with
  | nil => exact iff_of_true hs trivial
  | cons a rest ih =>
      rw [run_cons, Throughout]
      cases hnext : step s a with
      | running s' =>
          obtain ⟨hs', hp⟩ := hgo s a s' hs hnext
          exact (ih hs').trans (and_iff_right hp).symm
      | ended r => exact (hstop s a r hs hnext).trans (and_iff_left trivial).symm

/-- A run that stops does so on the last input it reads. -/
theorem run_ended_last {step : σ → α → Progress σ ρ} {s : σ} {inputs : List α} {r : ρ}
    (h : run step s inputs = .ended r) :
    ∃ read a t, read ++ [a] <+: inputs ∧ run step s read = .running t ∧
      step t a = .ended r := by
  induction inputs generalizing s with
  | nil => cases h
  | cons a rest ih =>
      rw [run_cons] at h
      cases hnext : step s a with
      | running s' =>
          rw [hnext] at h
          obtain ⟨read, b, t, hread, hbefore, hlast⟩ := ih h
          refine ⟨a :: read, b, t, List.cons_prefix_cons.mpr ⟨rfl, hread⟩, ?_, hlast⟩
          rw [run_cons, hnext]
          exact hbefore
      | ended r' =>
          rw [hnext] at h
          cases h
          exact ⟨[], a, s, ⟨rest, rfl⟩, rfl, hnext⟩

/-- **The rule for the last input.**  Where `P` holds of every step but those that
stop with another result than `E` has for their input, a run stops with what `E` has
for the last input it reads iff `P` holds throughout. -/
theorem run_last_iff {step : σ → α → Progress σ ρ} {E : α → ρ → Prop}
    {P : σ → α → Prop} (hgo : ∀ s a s', step s a = .running s' → P s a)
    (hstop : ∀ s a r, step s a = .ended r → (E a r ↔ P s a)) (s : σ) (inputs : List α) :
    ((run step s inputs).Meets (fun _ => True) fun r =>
        ∃ read a t, read ++ [a] <+: inputs ∧ run step s read = .running t ∧
          step t a = .ended r ∧ E a r) ↔
      Throughout step P s inputs := by
  induction inputs generalizing s with
  | nil => exact Iff.rfl
  | cons a rest ih =>
      rw [run_cons, Throughout]
      cases hnext : step s a with
      | running s' =>
          refine Iff.trans ?_ ((ih s').trans (and_iff_right (hgo s a s' hnext)).symm)
          rw [Progress.bind_running]
          cases hrun : run step s' rest with
          | running t => exact Iff.rfl
          | ended r =>
              constructor
              · rintro ⟨read, b, t, hread, hbefore, hlast, hresult⟩
                cases read with
                | nil =>
                    obtain rfl : b = a := (List.cons_prefix_cons.mp hread).1
                    cases hbefore
                    rw [hnext] at hlast
                    cases hlast
                | cons first read =>
                    obtain ⟨rfl, hrest⟩ := List.cons_prefix_cons.mp hread
                    rw [run_cons, hnext] at hbefore
                    exact ⟨read, b, t, hrest, hbefore, hlast, hresult⟩
              · rintro ⟨read, b, t, hread, hbefore, hlast, hresult⟩
                refine ⟨a :: read, b, t, List.cons_prefix_cons.mpr ⟨rfl, hread⟩, ?_, hlast,
                  hresult⟩
                rw [run_cons, hnext]
                exact hbefore
      | ended r =>
          refine Iff.trans ?_ ((hstop s a r hnext).trans (and_iff_left trivial).symm)
          constructor
          · rintro ⟨read, b, t, hread, hbefore, hlast, hresult⟩
            cases read with
            | nil =>
                obtain rfl : b = a := (List.cons_prefix_cons.mp hread).1
                exact hresult
            | cons first read =>
                obtain ⟨rfl, -⟩ := List.cons_prefix_cons.mp hread
                rw [run_cons, hnext] at hbefore
                cases hbefore
          · intro hresult
            exact ⟨[], a, s, ⟨rest, rfl⟩, rfl, hnext, hresult⟩
/-- How many of the inputs a run reads before it stops have the property. -/
def consumed (step : σ → α → Progress σ ρ) (p : α → Bool) : σ → List α → Nat
  | _, [] => 0
  | s, a :: rest =>
      (if p a then 1 else 0) +
        match step s a with
        | .running s' => consumed step p s' rest
        | .ended _ => 0

/-- **The rule for budgets.**  Where every step on such an input costs some of a
budget that is left, and no step adds to it, a run reads no more of them than the
budget it began with. -/
theorem consumed_le {step : σ → α → Progress σ ρ} {p : α → Bool} {budget : σ → Nat}
    {I : σ → Prop} {P : α → Prop} (hleft : ∀ s, I s → 0 < budget s)
    (hstep : ∀ s a s', I s → P a → step s a = .running s' →
      I s' ∧ (if p a then 1 else 0) + budget s' ≤ budget s) {s : σ} (hs : I s)
    {inputs : List α} (h : ∀ a ∈ inputs, P a) : consumed step p s inputs ≤ budget s := by
  induction inputs generalizing s with
  | nil => exact Nat.zero_le _
  | cons a rest ih =>
      rw [List.forall_mem_cons] at h
      have hpos := hleft s hs
      rw [consumed]
      cases hnext : step s a with
      | running s' =>
          obtain ⟨hs', hcost⟩ := hstep s a s' hs h.1 hnext
          have hrest := ih hs' h.2
          dsimp only
          omega
      | ended r =>
          dsimp only
          split_ifs <;> omega

/-- What a loop has come to, seen through `f` and `g`. -/
def Progress.map {τ κ : Type*} (f : σ → τ) (g : ρ → κ) : Progress σ ρ → Progress τ κ
  | .running s => .running (f s)
  | .ended r => .ended (g r)

theorem Progress.map_bind {τ κ : Type*} {f : σ → τ} {g : ρ → κ} (p : Progress σ ρ)
    {next : σ → Progress σ ρ} {next' : τ → Progress τ κ}
    (h : ∀ s, next' (f s) = (next s).map f g) :
    (p.map f g).bind next' = (p.bind next).map f g := by
  cases p with
  | running s => exact h s
  | ended r => rfl

/-- **A run seen through a map** is the run of the steps seen through it. -/
theorem run_map {τ κ : Type*} {step : σ → α → Progress σ ρ} {step' : τ → α → Progress τ κ}
    {f : σ → τ} {g : ρ → κ} (h : ∀ s a, step' (f s) a = (step s a).map f g) (s : σ)
    (inputs : List α) : run step' (f s) inputs = (run step s inputs).map f g := by
  induction inputs generalizing s with
  | nil => rfl
  | cons a rest ih =>
      rw [run_cons, run_cons, h]
      exact (step s a).map_bind ih

/-- Two loops have come to the same: both go on from related states, both have
stopped with related results, or the second has stopped with a result that
excuses it. -/
inductive Progress.Alike (R : σ → σ → Prop) (E : ρ → ρ → Prop) (excused : ρ → Prop) :
    Progress σ ρ → Progress σ ρ → Prop
  | running {s t : σ} (h : R s t) : Alike R E excused (.running s) (.running t)
  | ended {a b : ρ} (h : E a b) : Alike R E excused (.ended a) (.ended b)
  | excused {p : Progress σ ρ} {b : ρ} (h : excused b) : Alike R E excused p (.ended b)

/-- What goes on alike after two loops that are alike is alike. -/
theorem Progress.Alike.bind {R : σ → σ → Prop} {E : ρ → ρ → Prop} {excused : ρ → Prop}
    {p q : Progress σ ρ} (h : Progress.Alike R E excused p q) {f : σ → Progress σ ρ}
    (hf : ∀ s t, R s t → Progress.Alike R E excused (f s) (f t)) :
    Progress.Alike R E excused (p.bind f) (q.bind f) := by
  cases h with
  | running h => exact hf _ _ h
  | ended h => exact .ended h
  | excused h => exact .excused h

/-- Weaker relations hold of loops that are alike. -/
theorem Progress.Alike.mono {R R' : σ → σ → Prop} {E E' : ρ → ρ → Prop}
    {excused : ρ → Prop} {p q : Progress σ ρ} (h : Progress.Alike R E excused p q)
    (hR : ∀ s t, R s t → R' s t) (hE : ∀ a b, E a b → E' a b) :
    Progress.Alike R' E' excused p q := by
  cases h with
  | running h => exact .running (hR _ _ h)
  | ended h => exact .ended (hE _ _ h)
  | excused h => exact .excused h

/-- Loops that are alike without an excuse have stopped with related results or
not at all. -/
theorem Progress.Alike.result {R : σ → σ → Prop} {E : ρ → ρ → Prop}
    {p q : Progress σ ρ} (h : Progress.Alike R E (fun _ => False) p q) :
    Option.Rel E p.result? q.result? := by
  cases h with
  | running h => exact .none
  | ended h => exact .some h
  | excused h => exact h.elim

/-- **Two runs side by side.**  Steps that keep two loops alike keep their runs
alike. -/
theorem run_alike {step : σ → α → Progress σ ρ} {R : σ → σ → Prop}
    {E : ρ → ρ → Prop} {excused : ρ → Prop}
    (hstep : ∀ s t a, R s t → Progress.Alike R E excused (step s a) (step t a))
    {s t : σ} (h : R s t) (inputs : List α) :
    Progress.Alike R E excused (run step s inputs) (run step t inputs) := by
  induction inputs generalizing s t with
  | nil => exact .running h
  | cons a rest ih =>
      rw [run_cons, run_cons]
      exact (hstep s t a h).bind fun _ _ h' => ih h'

end Loops
