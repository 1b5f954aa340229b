import Mathlib.Data.List.Basic
import Mathlib.Tactic.Common

/-!
# A byte-stream descriptor and the schedule that serves it

A descriptor is what a reader sees of a pipe or socket: the bytes still to come
and a schedule of what its next `poll` and `read` calls will meet.  A read never
returns more than it asked for, so fragmentation is exactly the choice of how
many bytes each read is given.  The end of the bytes is the end of the stream.

`arrivingWithin` and `scheduleAfter` measure a schedule without running a
reader: how much the next few successful reads bring before the descriptor
falls quiet, and what is left of the schedule once a given amount has arrived.
-/

namespace Descriptor

/-- What one `read` call meets. -/
inductive ReadStep
  | bytes (more : Nat)  -- `more + 1` bytes are there to be read
  | interrupted         -- EINTR
  | failed              -- any other error
  deriving DecidableEq, Repr

/-- What one iteration of a polling reader meets. -/
inductive IoStep
  | quiet               -- the poll's timeout passes without data
  | pollInterrupted     -- the poll returns EINTR
  | hangup              -- the poll fails, or reports no readable data
  | ready (r : ReadStep)
  deriving DecidableEq, Repr

/-- The unread bytes of a stream and the schedule of the calls to come. -/
structure Stream (α : Type*) where
  pending : List α
  schedule : List IoStep

/-- A schedule that only says when bytes arrive: no call fails. -/
def OnlyArrivals (steps : List IoStep) : Prop :=
  IoStep.hangup ∉ steps ∧ IoStep.ready .failed ∉ steps

/-- How many bytes the next `reads` successful reads bring before the
descriptor falls quiet. -/
def arrivingWithin : Nat → List IoStep → Nat
  | 0, _ => 0
  | _, [] => 0
  | reads + 1, .pollInterrupted :: rest => arrivingWithin (reads + 1) rest
  | reads + 1, .ready .interrupted :: rest => arrivingWithin (reads + 1) rest
  | reads + 1, .ready (.bytes more) :: rest =>
      more + 1 + arrivingWithin reads rest
  | _ + 1, .quiet :: _ => 0
  | _ + 1, .hangup :: _ => 0
  | _ + 1, .ready .failed :: _ => 0

/-- What is left of a schedule once `count` bytes have arrived. -/
def scheduleAfter : Nat → List IoStep → List IoStep
  | 0, steps => steps
  | _ + 1, [] => []
  | count + 1, .ready (.bytes more) :: rest =>
      scheduleAfter (count - more) rest
  | count + 1, _ :: rest => scheduleAfter (count + 1) rest

instance (steps : List IoStep) : Decidable (OnlyArrivals steps) :=
  inferInstanceAs (Decidable (_ ∧ _))

theorem OnlyArrivals.tail {s : IoStep} {rest : List IoStep}
    (h : OnlyArrivals (s :: rest)) : OnlyArrivals rest :=
  ⟨fun hm => h.1 (List.mem_cons_of_mem _ hm),
    fun hm => h.2 (List.mem_cons_of_mem _ hm)⟩

theorem OnlyArrivals.nil : OnlyArrivals [] := by simp [OnlyArrivals]

theorem OnlyArrivals.suffix {steps left : List IoStep} (h : OnlyArrivals steps)
    (hleft : left <:+ steps) : OnlyArrivals left :=
  ⟨fun hm => h.1 (hleft.subset hm), fun hm => h.2 (hleft.subset hm)⟩

/-- Waiting for some bytes leaves a schedule of arrivals. -/
theorem OnlyArrivals.scheduleAfter {steps : List IoStep}
    (h : OnlyArrivals steps) (count : Nat) :
    OnlyArrivals (scheduleAfter count steps) := by
  induction steps generalizing count with
  | nil => cases count <;> exact h
  | cons s rest ih =>
      cases count with
      | zero => exact h
      | succ count =>
          unfold Descriptor.scheduleAfter
          split <;> simp_all [h.tail]

/-- Serving a request in two reads, the first of which asked for `n` bytes,
brings what one read of the whole request would. -/
theorem take_in_two_reads {α : Type*} (l : List α) {n m : Nat} (h : n ≤ m) :
    l.take n ++ (l.drop n).take (m - min n l.length) = l.take m ∧
      (l.drop n).drop (m - min n l.length) = l.drop m := by
  by_cases hn : n ≤ l.length
  · rw [Nat.min_eq_left hn]
    constructor
    · rw [← List.take_add, Nat.add_sub_cancel' h]
    · rw [List.drop_drop, Nat.add_sub_cancel' h]
  · have hle : l.length ≤ n := by omega
    simp [List.take_of_length_le hle, List.drop_eq_nil_of_le hle,
      List.take_of_length_le (Nat.le_trans hle h),
      List.drop_eq_nil_of_le (Nat.le_trans hle h)]

/-- Nothing arrives in no reads. -/
@[simp] theorem arrivingWithin_zero (steps : List IoStep) :
    arrivingWithin 0 steps = 0 := by
  cases steps <;> rfl

/-- Nothing arrives from an empty schedule. -/
@[simp] theorem arrivingWithin_nil (reads : Nat) :
    arrivingWithin reads [] = 0 := by
  cases reads <;> rfl

@[simp] theorem scheduleAfter_zero (steps : List IoStep) :
    scheduleAfter 0 steps = steps := by
  cases steps <;> rfl

/-- A read that met EINTR brings nothing and costs nothing. -/
theorem arrivingWithin_interrupted (reads : Nat) {s : IoStep}
    (hs : s = .pollInterrupted ∨ s = .ready .interrupted) (rest : List IoStep) :
    arrivingWithin reads (s :: rest) = arrivingWithin reads rest := by
  rcases hs with rfl | rfl <;> cases reads <;> simp [arrivingWithin]

theorem arrivingWithin_bytes (reads more : Nat) (rest : List IoStep) :
    arrivingWithin (reads + 1) (.ready (.bytes more) :: rest) =
      more + 1 + arrivingWithin reads rest := rfl

/-- Waiting for bytes passes over a step that brings none. -/
theorem scheduleAfter_interrupted {need : Nat} (hneed : 0 < need) {s : IoStep}
    (hs : s = .pollInterrupted ∨ s = .ready .interrupted) (rest : List IoStep) :
    scheduleAfter need (s :: rest) = scheduleAfter need rest := by
  obtain ⟨n, rfl⟩ := Nat.exists_eq_add_of_lt hneed
  rcases hs with rfl | rfl <;> simp [scheduleAfter]

theorem scheduleAfter_bytes {need : Nat} (hneed : 0 < need) (more : Nat)
    (rest : List IoStep) :
    scheduleAfter need (.ready (.bytes more) :: rest) =
      scheduleAfter (need - min (more + 1) need) rest := by
  obtain ⟨n, rfl⟩ := Nat.exists_eq_add_of_lt hneed
  rw [show 0 + n + 1 - min (more + 1) (0 + n + 1) = n - more by omega,
    Nat.zero_add, scheduleAfter]

end Descriptor
