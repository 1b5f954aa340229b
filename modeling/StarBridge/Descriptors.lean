import StarBridge.Runs

/-!
# Who closes a descriptor

A program opens descriptors and closes them, and the system hands out numbers again once
they are closed.  A `Ledger` follows the calls: what is open, and which closes met a
number that was not open.  A close of the second kind hits whatever the number was handed
out for in between.

* `Granted` says that the system hands out no number that is still open;
* `after_bracket` is the rule for a number that is opened and closed again;
* `granted_opened_iff` reads off what is handed out in a row;
* `Settles` says of a stretch of calls that it leaves the ledger as it was.
-/

namespace Descriptors

open Runs

variable {δ : Type*} [DecidableEq δ]

/-- A call that opens a descriptor or closes one. -/
inductive FdEvent (δ : Type*)
  | opened (fd : δ)
  | closed (fd : δ)
  deriving DecidableEq, Repr

/-- The open descriptors, in the order they were opened, and the closes that met none. -/
structure Ledger (δ : Type*) where
  owned : List δ
  strays : List δ
  deriving DecidableEq, Repr

/-- One call. -/
def Ledger.account (l : Ledger δ) : FdEvent δ → Ledger δ
  | .opened fd => { l with owned := l.owned ++ [fd] }
  | .closed fd =>
      if fd ∈ l.owned then { l with owned := l.owned.erase fd }
      else { l with strays := l.strays ++ [fd] }

/-- The ledger behind some calls. -/
def Ledger.after (l : Ledger δ) (events : List (FdEvent δ)) : Ledger δ :=
  stateAfter Ledger.account l events

/-- A number that is handed out is not open. -/
def Fresh (l : Ledger δ) (e : FdEvent δ) : Prop := ∀ fd, e = .opened fd → fd ∉ l.owned

/-- No number is handed out that is still open. -/
def Granted (l : Ledger δ) (events : List (FdEvent δ)) : Prop :=
  AllSteps Ledger.account Fresh l events

instance (l : Ledger δ) : (e : FdEvent δ) → Decidable (Fresh l e)
  | .opened fd => decidable_of_iff (fd ∉ l.owned)
      ⟨fun h fd' heq => by cases heq; exact h, fun h => h fd rfl⟩
  | .closed _ => isTrue fun _ h => by cases h

instance (l : Ledger δ) (events : List (FdEvent δ)) : Decidable (Granted l events) :=
  AllSteps.decidable l events

/-- Nothing is left open that was not, and no close met a number that was not open. -/
def Settles (l : Ledger δ) (events : List (FdEvent δ)) : Prop := l.after events = l

variable {l : Ledger δ} {events front back : List (FdEvent δ)} {fd : δ}

@[simp] theorem after_nil (l : Ledger δ) : l.after [] = l := rfl

@[simp] theorem after_cons (l : Ledger δ) (e : FdEvent δ) (rest : List (FdEvent δ)) :
    l.after (e :: rest) = (l.account e).after rest := rfl

theorem after_append (l : Ledger δ) (front back : List (FdEvent δ)) :
    l.after (front ++ back) = (l.after front).after back :=
  stateAfter_append l front back

theorem granted_append_iff :
    Granted l (front ++ back) ↔ Granted l front ∧ Granted (l.after front) back :=
  AllSteps.append_iff

theorem granted_opened_cons_iff :
    Granted l (.opened fd :: back) ↔ fd ∉ l.owned ∧ Granted (l.account (.opened fd)) back := by
  simp [Granted, AllSteps, Fresh]

/-- Numbers handed out in a row are different, and none is open yet. -/
theorem granted_opened_iff {fds : List δ} :
    Granted l (fds.map .opened) ↔ fds.Nodup ∧ ∀ fd ∈ fds, fd ∉ l.owned := by
  induction fds generalizing l with
  | nil => simp [Granted, AllSteps]
  | cons fd rest ih =>
      rw [List.map_cons, granted_opened_cons_iff, ih, List.nodup_cons]
      have hopened : ∀ x, x ∉ (l.account (.opened fd)).owned ↔ x ∉ l.owned ∧ x ≠ fd := by
        simp [Ledger.account]
      simp only [hopened, List.forall_mem_cons]
      constructor
      · rintro ⟨hfd, hrest, hapart⟩
        exact ⟨⟨fun hmem => (hapart fd hmem).2 rfl, hrest⟩, hfd, fun x hx => (hapart x hx).1⟩
      · rintro ⟨⟨hnew, hrest⟩, hfd, hapart⟩
        exact ⟨hfd, hrest, fun x hx => ⟨hapart x hx, fun heq => hnew (heq ▸ hx)⟩⟩

/-- The number opened last, closed again. -/
theorem account_closed_last (h : fd ∉ l.owned) :
    (l.account (.opened fd)).account (.closed fd) = l := by
  obtain ⟨owned, strays⟩ := l
  have herase : (owned ++ [fd]).erase fd = owned := by
    rw [List.erase_append_right _ h]
    simp
  simp [Ledger.account, herase]

/-- **The bracket rule.**  A number is opened, used and closed again. -/
theorem after_bracket (h : fd ∉ l.owned) : Settles l [.opened fd, .closed fd] :=
  account_closed_last h

end Descriptors
