import Mathlib.Data.List.Basic
import Mathlib.Tactic.Common

/-!
# Runs of a deterministic step function

A run feeds a list of inputs to a step function.  `AllSteps` says that a
condition holds before every step of a run, of the state the step starts in
and the input it takes.

* `stateAfter_invariant` is the invariant rule: what every admissible step
  preserves holds after a run of admissible steps;
* `AllSteps.iff_of_invariant` exchanges one condition on the steps for
  another: when they agree in every state of the invariant, and steps that
  satisfy the second stay inside it, a run satisfies one throughout iff it
  satisfies the other throughout;
* `atRest_of_rounds` is the rule for the end of a run: where each step that changes the state
  lowers a rank, fair rounds bring it to rest.
-/

namespace Runs

variable {σ ι : Type*} {step : σ → ι → σ}

/-- The state a run ends in. -/
def stateAfter (step : σ → ι → σ) (s : σ) (inputs : List ι) : σ :=
  inputs.foldl step s

/-- `P` holds before every step of the run. -/
def AllSteps (step : σ → ι → σ) (P : σ → ι → Prop) : σ → List ι → Prop
  | _, [] => True
  | s, i :: rest => P s i ∧ AllSteps step P (step s i) rest

@[simp] theorem stateAfter_nil (s : σ) : stateAfter step s [] = s := rfl

@[simp] theorem stateAfter_cons (s : σ) (i : ι) (rest : List ι) :
    stateAfter step s (i :: rest) = stateAfter step (step s i) rest := rfl

@[simp] theorem stateAfter_append (s : σ) (before after : List ι) :
    stateAfter step s (before ++ after) =
      stateAfter step (stateAfter step s before) after := by
  simp [stateAfter]

/-- A run meets a condition iff both halves of it do. -/
theorem AllSteps.append_iff {P : σ → ι → Prop} {s : σ} {before after : List ι} :
    AllSteps step P s (before ++ after) ↔
      AllSteps step P s before ∧
        AllSteps step P (stateAfter step s before) after := by
  induction before generalizing s with
  | nil => simp [AllSteps]
  | cons i rest ih => simp [AllSteps, ih, and_assoc]

/-- The condition at one step in the middle of a run. -/
theorem AllSteps.at_step {P : σ → ι → Prop} {s : σ} {before after : List ι}
    {i : ι} (h : AllSteps step P s (before ++ i :: after)) :
    P (stateAfter step s before) i :=
  (AllSteps.append_iff.mp h).2.1

/-- **The invariant rule.**  What admissible steps preserve holds after a run
of them. -/
theorem stateAfter_invariant {P : σ → ι → Prop} {Inv : σ → Prop}
    (hstep : ∀ s i, Inv s → P s i → Inv (step s i)) {s : σ} (hs : Inv s)
    {inputs : List ι} (h : AllSteps step P s inputs) :
    Inv (stateAfter step s inputs) := by
  induction inputs generalizing s with
  | nil => exact hs
  | cons i rest ih => exact ih (hstep s i hs h.1) h.2

/-- An invariant that every step keeps needs no condition on the run. -/
theorem stateAfter_invariant_of_step {Inv : σ → Prop}
    (hstep : ∀ s i, Inv s → Inv (step s i)) {s : σ} (hs : Inv s)
    (inputs : List ι) : Inv (stateAfter step s inputs) := by
  induction inputs generalizing s with
  | nil => exact hs
  | cons i rest ih => exact ih (hstep s i hs)

/-- **Exchanging conditions along a run.**  Two conditions that agree in every
state of an invariant hold throughout the same runs, provided steps that meet
the second stay inside the invariant. -/
theorem AllSteps.iff_of_invariant {P Q : σ → ι → Prop} (Inv : σ → Prop)
    (hiff : ∀ s i, Inv s → (P s i ↔ Q s i))
    (hstep : ∀ s i, Inv s → Q s i → Inv (step s i)) {s : σ} (hs : Inv s)
    {inputs : List ι} :
    AllSteps step P s inputs ↔ AllSteps step Q s inputs := by
  induction inputs generalizing s with
  | nil => exact Iff.rfl
  | cons i rest ih =>
      constructor
      · rintro ⟨hp, hrest⟩
        have hq := (hiff s i hs).mp hp
        exact ⟨hq, (ih (hstep s i hs hq)).mp hrest⟩
      · rintro ⟨hq, hrest⟩
        exact ⟨(hiff s i hs).mpr hq, (ih (hstep s i hs hq)).mpr hrest⟩

/-- Conditions that agree everywhere hold throughout the same runs. -/
theorem AllSteps.congr {P Q : σ → ι → Prop} (hiff : ∀ s i, P s i ↔ Q s i) {s : σ}
    {inputs : List ι} :
    AllSteps step P s inputs ↔ AllSteps step Q s inputs :=
  AllSteps.iff_of_invariant (fun _ => True) (fun s i _ => hiff s i)
    (fun _ _ _ _ => trivial) trivial

/-- A weaker condition holds throughout the same runs. -/
theorem AllSteps.mono {P Q : σ → ι → Prop} (himp : ∀ s i, P s i → Q s i) {s : σ}
    {inputs : List ι} (h : AllSteps step P s inputs) : AllSteps step Q s inputs := by
  induction inputs generalizing s with
  | nil => trivial
  | cons i rest ih => exact ⟨himp s i h.1, ih h.2⟩

instance AllSteps.decidable {P : σ → ι → Prop} [∀ s i, Decidable (P s i)] :
    ∀ (s : σ) (inputs : List ι), Decidable (AllSteps step P s inputs)
  | _, [] => isTrue trivial
  | s, i :: rest =>
      have : Decidable (AllSteps step P (step s i) rest) := AllSteps.decidable _ rest
      inferInstanceAs (Decidable (P s i ∧ AllSteps step P (step s i) rest))

/-- A condition on the inputs alone holds at every step iff it holds of every input. -/
theorem AllSteps.forall_iff {P : ι → Prop} {s : σ} {inputs : List ι} :
    AllSteps step (fun _ => P) s inputs ↔ ∀ i ∈ inputs, P i := by
  induction inputs generalizing s with
  | nil => simp [AllSteps]
  | cons i rest ih => rw [AllSteps, ih, List.forall_mem_cons]

/-- What holds of every input holds at every step. -/
theorem AllSteps.of_forall {P : ι → Prop} {inputs : List ι} (h : ∀ i ∈ inputs, P i) (s : σ) :
    AllSteps step (fun _ => P) s inputs :=
  AllSteps.forall_iff.mpr h

/-! ## What a run puts out -/

variable {ο : Type*}

/-- Everything the steps of a run put out, in order. -/
def outputs (step : σ → ι → σ) (out : σ → ι → List ο) : σ → List ι → List ο
  | _, [] => []
  | s, i :: rest => out s i ++ outputs step out (step s i) rest

/-- A run that puts out a part of what another does at each step puts out that
part of the whole. -/
theorem outputs_filter {step step' : σ → ι → σ} {out out' : σ → ι → List ο} {p : ο → Bool}
    (hstep : ∀ s i, step' s i = step s i) (hout : ∀ s i, out' s i = (out s i).filter p)
    (s : σ) (inputs : List ι) :
    outputs step' out' s inputs = (outputs step out s inputs).filter p := by
  induction inputs generalizing s with
  | nil => rfl
  | cons i rest ih =>
      rw [outputs, outputs, List.filter_append, hout, hstep, ih]

/-- What holds of all a run puts out holds at each of its steps. -/
theorem forall_outputs_iff {step : σ → ι → σ} {out : σ → ι → List ο} {P : ο → Prop} {s : σ}
    {inputs : List ι} :
    (∀ o ∈ outputs step out s inputs, P o) ↔
      AllSteps step (fun s i => ∀ o ∈ out s i, P o) s inputs := by
  induction inputs generalizing s with
  | nil => exact iff_of_true (fun o h => absurd h List.not_mem_nil) trivial
  | cons i rest ih =>
      rw [outputs, List.forall_mem_append, ih]
      exact Iff.rfl

/-! ## Two runs over the same inputs -/

variable {τ : Type*}

/-- What each step of a run puts out. -/
def trace (step : σ → ι → σ) (out : σ → ι → ο) : σ → List ι → List ο
  | _, [] => []
  | s, i :: rest => out s i :: trace step out (step s i) rest

/-- Two runs whose states stay related put out the same iff each step of the
first does. -/
theorem trace_eq_iff {step : σ → ι → σ} {step' : τ → ι → τ} {out : σ → ι → ο}
    {out' : τ → ι → ο} {R : σ → τ → Prop} {P : σ → ι → Prop}
    (hstep : ∀ s t i, R s t → R (step s i) (step' t i))
    (hout : ∀ s t i, R s t → (out s i = out' t i ↔ P s i)) {s : σ} {t : τ} (h : R s t)
    (inputs : List ι) :
    trace step out s inputs = trace step' out' t inputs ↔ AllSteps step P s inputs := by
  induction inputs generalizing s t with
  | nil => exact iff_of_true rfl trivial
  | cons i rest ih =>
      rw [trace, trace, List.cons_eq_cons, hout s t i h, ih (hstep s t i h)]
      exact Iff.rfl

/-- Two runs put out the same if the steps of the first, as long as a condition
holds of them, keep the states related and put out the same. -/
theorem trace_eq_of_steps {step : σ → ι → σ} {step' : τ → ι → τ} {out : σ → ι → ο}
    {out' : τ → ι → ο} {R : σ → τ → Prop} {P : σ → ι → Prop}
    (hstep : ∀ s t i, R s t → P s i → out s i = out' t i ∧ R (step s i) (step' t i))
    {s : σ} {t : τ} (h : R s t) {inputs : List ι} (hsteps : AllSteps step P s inputs) :
    trace step out s inputs = trace step' out' t inputs := by
  induction inputs generalizing s t with
  | nil => rfl
  | cons i rest ih =>
      obtain ⟨hi, hrest⟩ := hsteps
      obtain ⟨hsame, hnext⟩ := hstep s t i h hi
      rw [trace, trace, hsame, ih hnext hrest]

/-- **Two runs whose steps keep their states related** end in related states. -/
theorem related_stateAfter {step : σ → ι → σ} {step' : τ → ι → τ} {R : σ → τ → Prop}
    (hstep : ∀ s t i, R s t → R (step s i) (step' t i)) {s : σ} {t : τ} (h : R s t)
    (inputs : List ι) : R (stateAfter step s inputs) (stateAfter step' t inputs) := by
  induction inputs generalizing s t with
  | nil => exact h
  | cons i rest ih => exact ih (hstep s t i h)

/-- **Two runs, seen after each of their steps.**  Where steps that meet a
condition keep two states related, states that are related look the same, and
steps that still look the same meet the condition, two runs look the same all
along iff the steps of the first meet it. -/
theorem views_agree_iff {step : σ → ι → σ} {step' : τ → ι → τ} {R V : σ → τ → Prop}
    {P : σ → ι → Prop} (hview : ∀ s t, R s t → V s t)
    (hkeeps : ∀ s t i, R s t → P s i → R (step s i) (step' t i))
    (hbreaks : ∀ s t i, R s t → V (step s i) (step' t i) → P s i) {s : σ} {t : τ} (h : R s t)
    (inputs : List ι) :
    (∀ before, before <+: inputs → V (stateAfter step s before) (stateAfter step' t before)) ↔
      AllSteps step P s inputs := by
  induction inputs generalizing s t with
  | nil =>
      refine iff_of_true ?_ trivial
      intro before hbefore
      rw [List.prefix_nil.mp hbefore]
      exact hview s t h
  | cons i rest ih =>
      constructor
      · intro hall
        have hone : P s i := hbreaks s t i h (hall [i] ⟨rest, rfl⟩)
        refine ⟨hone, (ih (hkeeps s t i h hone)).mp ?_⟩
        intro before hbefore
        exact hall (i :: before) (List.cons_prefix_cons.mpr ⟨rfl, hbefore⟩)
      · intro hsteps before hbefore
        obtain ⟨hone, hrest⟩ := hsteps
        cases before with
        | nil => exact hview s t h
        | cons j before =>
            obtain ⟨hsame, hrest'⟩ := List.cons_prefix_cons.mp hbefore
            rw [hsame]
            exact (ih (hkeeps s t i h hone)).mpr hrest before hrest'

/-! ## Runs that come to rest -/

/-- No input changes the state. -/
def AtRest (step : σ → ι → σ) (s : σ) : Prop := ∀ i, step s i = s

theorem stateAfter_of_noop {s : σ} {inputs : List ι} (h : ∀ i ∈ inputs, step s i = s) :
    stateAfter step s inputs = s := by
  induction inputs with
  | nil => rfl
  | cons i rest ih =>
      rw [stateAfter_cons, h i List.mem_cons_self]
      exact ih fun j hj => h j (List.mem_cons_of_mem _ hj)

section

variable {rank : σ → Nat} (hrank : ∀ s i, step s i = s ∨ rank (step s i) < rank s)

include hrank

/-- Where every step that changes the state lowers its rank, a run does nothing at all or
lowers it. -/
theorem rank_stateAfter (s : σ) (inputs : List ι) :
    (∀ i ∈ inputs, step s i = s) ∨ rank (stateAfter step s inputs) < rank s := by
  induction inputs generalizing s with
  | nil => exact .inl fun i hi => absurd hi List.not_mem_nil
  | cons i rest ih =>
      rcases hrank s i with hsame | hless
      · rw [stateAfter_cons, hsame, List.forall_mem_cons]
        exact (ih s).imp_left fun hrest => ⟨hsame, hrest⟩
      · right
        rw [stateAfter_cons]
        rcases ih (step s i) with hrest | hlower
        · rwa [stateAfter_of_noop hrest]
        · exact Nat.lt_trans hlower hless

/-- **Fair runs come to rest.**  If a round in which nothing happens is fair only where no
step can happen, a run of more fair rounds than the rank of its first state ends at rest. -/
theorem atRest_of_rounds {Fair : List ι → Prop}
    (hfair : ∀ s round, Fair round → (∀ i ∈ round, step s i = s) → AtRest step s)
    {rounds : List (List ι)} (hrounds : ∀ round ∈ rounds, Fair round) {s : σ}
    (hlength : rank s < rounds.length) : AtRest step (stateAfter step s rounds.flatten) := by
  induction rounds generalizing s with
  | nil => simp at hlength
  | cons round rest ih =>
      rw [List.flatten_cons, stateAfter_append]
      have hrest := fun r hr => hrounds r (List.mem_cons_of_mem _ hr)
      rcases rank_stateAfter hrank s round with hnoop | hless
      · have hs := hfair s round (hrounds round List.mem_cons_self) hnoop
        rw [stateAfter_of_noop hnoop, stateAfter_of_noop fun i _ => hs i]
        exact hs
      · refine ih hrest (Nat.lt_of_lt_of_le hless (Nat.le_of_lt_succ ?_))
        simpa using hlength

end

end Runs
