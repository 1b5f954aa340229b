import Mathlib.Data.List.Basic
import Mathlib.Data.Nat.ModEq
import Mathlib.Tactic.Common

/-!
# Ring buffers that overwrite

A ring of fixed capacity counts the values that were put in and the ones that
were taken out; the cell of a value is its number modulo the capacity.  The ring
is never filled: a value that would fill it pushes out the oldest one.

`Ring.held` is the list of the values in the ring.  Appending keeps the last ones
of the list (`held_append`), and reading takes from its front (`held_read`).
-/

namespace RingBuffer

variable {α : Type*}

/-- The last values of a list. -/
def keepLast (n : Nat) (l : List α) : List α := l.drop (l.length - n)

theorem keepLast_eq_self {n : Nat} {l : List α} (h : l.length ≤ n) : keepLast n l = l := by
  rw [keepLast, Nat.sub_eq_zero_of_le h, List.drop_zero]

theorem length_keepLast (n : Nat) (l : List α) : (keepLast n l).length = min l.length n := by
  rw [keepLast, List.length_drop]
  omega

theorem keepLast_append (n : Nat) (front back : List α) :
    keepLast n (keepLast n front ++ back) = keepLast n (front ++ back) := by
  rcases le_total front.length n with hle | hle
  · rw [keepLast_eq_self hle]
  · have hlen : (keepLast n front).length = n := by rw [length_keepLast, min_eq_right hle]
    have hshort : (keepLast n front ++ back).length - n = back.length := by
      rw [List.length_append, hlen, Nat.add_sub_cancel_left]
    have hlong : (front ++ back).length - n = (front.length - n) + back.length := by
      rw [List.length_append]
      omega
    have hfront : (front ++ back).drop (front.length - n) = keepLast n front ++ back :=
      List.drop_append_of_le_length (Nat.sub_le _ _)
    calc keepLast n (keepLast n front ++ back)
        = (keepLast n front ++ back).drop back.length := by rw [keepLast, hshort]
      _ = ((front ++ back).drop (front.length - n)).drop back.length := by rw [hfront]
      _ = keepLast n (front ++ back) := by rw [List.drop_drop, keepLast, hlong]

/-- A ring: its cells, how many values were put in, and how many are gone. -/
structure Ring (α : Type*) (capacity : Nat) where
  cells : Nat → α
  head : Nat
  tail : Nat
  tail_le : tail ≤ head
  room : head - tail < capacity

namespace Ring

variable {capacity : Nat}

/-- The value with this number. -/
def cell (r : Ring α capacity) (n : Nat) : α := r.cells (n % capacity)

/-- The values in the ring, the oldest first. -/
def held (r : Ring α capacity) : List α :=
  (List.range (r.head - r.tail)).map fun i => r.cell (r.tail + i)

/-- One value more. -/
def put (r : Ring α capacity) (a : α) : Ring α capacity where
  cells := Function.update r.cells (r.head % capacity) a
  head := r.head + 1
  tail := if capacity ≤ r.head + 1 - r.tail then r.head + 1 - capacity + 1 else r.tail
  tail_le := by
    have := r.tail_le
    have := r.room
    split <;> omega
  room := by
    have := r.tail_le
    have := r.room
    split <;> omega

/-- Values put in one by one. -/
def append (r : Ring α capacity) (values : List α) : Ring α capacity := values.foldl put r

/-- The values a read with room for `maxLen` of them and an end mark copies. -/
def taken (r : Ring α capacity) (maxLen : Nat) : Nat := min (r.head - r.tail) (maxLen - 1)

/-- What is copied out of the ring, and the ring afterwards. -/
def read (r : Ring α capacity) (maxLen : Nat) : List α × Ring α capacity :=
  ((List.range (r.taken maxLen)).map fun i => r.cell (r.tail + i),
    { r with
      tail := r.tail + r.taken maxLen
      tail_le := by
        have := r.tail_le
        unfold taken
        omega
      room := by
        have := r.room
        omega })

theorem length_held (r : Ring α capacity) : r.held.length = r.head - r.tail := by
  rw [held, List.length_map, List.length_range]

/-- Putting a value in changes the cell of no value in the ring. -/
theorem cell_put (r : Ring α capacity) (a : α) {n : Nat} (hlow : r.tail ≤ n) (hhigh : n < r.head) :
    (r.put a).cell n = r.cell n := by
  have hne : n % capacity ≠ r.head % capacity := by
    intro heq
    have hdvd := (Nat.modEq_iff_dvd' hhigh.le).mp heq
    have hle := Nat.le_of_dvd (by omega) hdvd
    have := r.room
    omega
  exact Function.update_of_ne hne _ _

theorem cell_put_self (r : Ring α capacity) (a : α) : (r.put a).cell r.head = a :=
  Function.update_self _ _ _

/-- **Putting a value in** puts it behind the others, of which the oldest makes
room. -/
theorem held_put (r : Ring α capacity) (a : α) :
    (r.put a).held = keepLast (capacity - 1) (r.held ++ [a]) := by
  have htail := r.tail_le
  have hroom := r.room
  have hall : (List.range (r.head + 1 - r.tail)).map (fun i => (r.put a).cell (r.tail + i)) =
      r.held ++ [a] := by
    have hcount : r.head + 1 - r.tail = r.head - r.tail + 1 := by omega
    have hlast : r.tail + (r.head - r.tail) = r.head := by omega
    rw [hcount, List.range_succ, List.map_append, List.map_singleton, hlast, cell_put_self, held]
    refine congrArg (· ++ [a]) (List.map_congr_left fun i hi => ?_)
    have hlt := List.mem_range.mp hi
    exact r.cell_put a (Nat.le_add_right _ _) (by omega)
  by_cases hfull : capacity ≤ r.head + 1 - r.tail
  · have hdrop : (r.held ++ [a]).length - (capacity - 1) = 1 := by
      rw [List.length_append, length_held, List.length_singleton]
      omega
    have htail' : (r.put a).tail = r.tail + 1 := by
      show (if capacity ≤ r.head + 1 - r.tail then _ else _) = _
      rw [if_pos hfull]
      omega
    have hcount : r.head + 1 - r.tail = (r.head + 1 - (r.tail + 1)) + 1 := by omega
    rw [keepLast, hdrop, ← hall, held, htail', hcount, List.range_succ_eq_map]
    show _ = List.map _ (List.map Nat.succ _)
    rw [List.map_map]
    refine List.map_congr_left fun i _ => ?_
    exact congrArg (r.put a).cell (by simp; omega)
  · have htail' : (r.put a).tail = r.tail := if_neg hfull
    rw [keepLast_eq_self, ← hall, held, htail']
    · rfl
    · rw [List.length_append, length_held, List.length_singleton]
      omega

/-- **Appending** keeps the last values. -/
theorem held_append (r : Ring α capacity) (values : List α) :
    (r.append values).held = keepLast (capacity - 1) (r.held ++ values) := by
  induction values generalizing r with
  | nil =>
      have hroom := r.room
      rw [List.append_nil, keepLast_eq_self]
      · rfl
      · rw [length_held]
        omega
  | cons a values ih =>
      have hstep : r.append (a :: values) = (r.put a).append values := rfl
      rw [hstep, ih, held_put, keepLast_append, List.append_assoc]
      rfl

/-- **Reading** takes from the front. -/
theorem held_read (r : Ring α capacity) (maxLen : Nat) :
    (r.read maxLen).1 = r.held.take (maxLen - 1) ∧
      (r.read maxLen).2.held = r.held.drop (maxLen - 1) := by
  have htail := r.tail_le
  constructor
  · rw [read, held, ← List.map_take, List.take_range]
    exact congrArg (fun n => (List.range n).map _) (min_comm _ _)
  · have hcount : (r.read maxLen).2.head - (r.read maxLen).2.tail =
        r.head - r.tail - (maxLen - 1) := by
      show r.head - (r.tail + r.taken maxLen) = _
      unfold taken
      omega
    refine List.ext_getElem ?_ fun i hi hi' => ?_
    · rw [length_held, hcount, List.length_drop, length_held]
    · rw [length_held, hcount] at hi
      have hskip : r.tail + r.taken maxLen + i = r.tail + (maxLen - 1 + i) := by
        unfold taken
        omega
      simp only [held, List.getElem_map, List.getElem_range, List.getElem_drop]
      exact congrArg r.cell hskip

/-- An empty ring. -/
def empty (a : α) (h : 0 < capacity) : Ring α capacity := ⟨fun _ => a, 0, 0, le_rfl, h⟩

theorem held_empty (a : α) (h : 0 < capacity) : (empty a h : Ring α capacity).held = [] := rfl

end Ring

end RingBuffer
