import StarBridge.RingBuffers
import StarBridge.Runs
import StarBridge.NativeFrame

/-!
# The rings of the engine

`ring_append` and `ring_read` keep the bytes of a ring in an array, at the numbers
`head` and `tail` taken modulo its length.  `ring_run_refines_queue` compares every
sequence of calls with a queue of bounded length.
-/

namespace StarBridge.RingText

open RingBuffer Runs

/-! ## The code -/

/-- The array of a ring and its counters. -/
structure RingState (capacity : Nat) where
  buffer : Vector UInt8 capacity
  head : Nat
  tail : Nat

variable {capacity : Nat}

/-- One round of the loop of `ring_append`. -/
def appendByte (hcap : 0 < capacity) (s : RingState capacity) (c : UInt8) : RingState capacity :=
  let head := s.head + 1
  { buffer := s.buffer.set (s.head % capacity) c (Nat.mod_lt _ hcap)
    head := head
    tail := if capacity ≤ head - s.tail then head - capacity + 1 else s.tail }

/-- `ring_append`. -/
def ringAppend (hcap : 0 < capacity) (s : RingState capacity) (data : Bytes) :
    RingState capacity :=
  data.foldl (appendByte hcap) s

/-- The loop of `ring_read`: `dest[i] = buffer[(*tail + i) % capacity]`. -/
def copyOut (hcap : 0 < capacity) (s : RingState capacity) (dest : Bytes) : Nat → Bytes
  | 0 => dest
  | i + 1 =>
      (copyOut hcap s dest i).set i (s.buffer.get ⟨(s.tail + i) % capacity, Nat.mod_lt _ hcap⟩)

/-- `ring_read` into a buffer of `max_len` bytes: what it returns, the buffer, and the
ring. -/
def ringRead (hcap : 0 < capacity) (s : RingState capacity) (dest : Bytes) :
    Nat × Bytes × RingState capacity :=
  let maxLen := dest.length
  if maxLen = 0 then (0, dest, s)
  else
    let available := if maxLen ≤ s.head - s.tail then maxLen - 1 else s.head - s.tail
    (available, (copyOut hcap s dest available).set available 0,
      { s with tail := s.tail + available })

/-- A call of one of the two. -/
inductive RingCall
  | append (data : Bytes)
  | read (dest : Bytes)

/-- What a call does to the ring. -/
def ringStep (hcap : 0 < capacity) (s : RingState capacity) : RingCall → RingState capacity
  | .append data => ringAppend hcap s data
  | .read dest => (ringRead hcap s dest).2.2

/-- What a read returns, and the buffer that it has filled. -/
def ringResult (hcap : 0 < capacity) (s : RingState capacity) : RingCall → Option (Nat × Bytes)
  | .append _ => none
  | .read dest => some ((ringRead hcap s dest).1, (ringRead hcap s dest).2.1)

/-- `ring_reset`, whatever is in the array. -/
def emptyRing (buffer : Vector UInt8 capacity) : RingState capacity := ⟨buffer, 0, 0⟩

/-! ## The queue -/

/-- A byte is pushed, and drops the oldest one if the queue would get too long. -/
def queuePush (limit : Nat) (q : Bytes) (c : UInt8) : Bytes :=
  if limit < q.length + 1 then (q ++ [c]).tail else q ++ [c]

/-- How many bytes a read takes, with `maxLen` bytes of room for them and a terminator. -/
def queueTaken (q : Bytes) (maxLen : Nat) : Nat := min q.length (maxLen - 1)

/-- What a call does to the queue. -/
def queueStep (limit : Nat) (q : Bytes) : RingCall → Bytes
  | .append data => data.foldl (queuePush limit) q
  | .read dest => q.drop (queueTaken q dest.length)

/-- A read returns the oldest bytes, with a terminator behind them, and how many they
are.  A buffer without room for a terminator stays as it is. -/
def queueResult (q : Bytes) : RingCall → Option (Nat × Bytes)
  | .append _ => none
  | .read dest =>
      let n := queueTaken q dest.length
      if dest.length = 0 then some (0, dest)
      else some (n, q.take n ++ 0 :: dest.drop (n + 1))

/-! ## The simulation -/

/-- The state of the code is a ring that holds the queue. -/
structure Simulates (s : RingState capacity) (q : Bytes) : Prop where
  ring : ∃ r : Ring UInt8 capacity, r.head = s.head ∧ r.tail = s.tail ∧
    (∀ i (h : i < capacity), r.cells i = s.buffer[i]) ∧ r.held = q

theorem Simulates.length_eq {s : RingState capacity} {q : Bytes} (h : Simulates s q) :
    s.head - s.tail = q.length ∧ q.length ≤ capacity - 1 := by
  obtain ⟨r, hhead, htail, -, hheld⟩ := h.ring
  have hroom := r.room
  rw [← hheld, Ring.length_held, ← hhead, ← htail]
  omega

theorem queuePush_eq (limit : Nat) {q : Bytes} (hq : q.length ≤ limit) (c : UInt8) :
    queuePush limit q c = keepLast limit (q ++ [c]) := by
  unfold queuePush keepLast
  rw [List.length_append, List.length_singleton]
  split
  · rename_i hfull
    rw [show q.length + 1 - limit = 1 by omega, List.drop_one]
  · rename_i hroom
    rw [show q.length + 1 - limit = 0 by omega, List.drop_zero]

/-- **A byte appended** is a byte pushed. -/
theorem simulates_appendByte (hcap : 0 < capacity) {s : RingState capacity} {q : Bytes}
    (h : Simulates s q) (c : UInt8) :
    Simulates (appendByte hcap s c) (queuePush (capacity - 1) q c) := by
  obtain ⟨r, hhead, htail, hcells, hheld⟩ := h.ring
  refine ⟨r.put c, ?_, ?_, ?_, ?_⟩
  · show r.head + 1 = s.head + 1
    rw [hhead]
  · show (if _ then _ else _) = (if _ then _ else _)
    rw [hhead, htail]
  · intro i hi
    show Function.update r.cells (r.head % capacity) c i =
      (s.buffer.set (s.head % capacity) c (Nat.mod_lt _ hcap))[i]
    rw [Vector.getElem_set, hhead]
    split
    · rename_i hsame
      rw [hsame]
      exact Function.update_self ..
    · rename_i hother
      rw [Function.update_of_ne (Ne.symm hother)]
      exact hcells i hi
  · rw [Ring.held_put, hheld, queuePush_eq _ h.length_eq.2]

theorem simulates_ringAppend (hcap : 0 < capacity) {s : RingState capacity} {q : Bytes}
    (h : Simulates s q) (data : Bytes) :
    Simulates (ringAppend hcap s data) (data.foldl (queuePush (capacity - 1)) q) := by
  induction data generalizing s q with
  | nil => exact h
  | cons c data ih => exact ih (simulates_appendByte hcap h c)

/-- What the loop of `ring_read` has copied after some rounds. -/
theorem copyOut_eq (hcap : 0 < capacity) {s : RingState capacity} {q : Bytes}
    (h : Simulates s q) (dest : Bytes) {n : Nat} (hn : n ≤ q.length) (hdest : n ≤ dest.length) :
    copyOut hcap s dest n = q.take n ++ dest.drop n := by
  obtain ⟨r, hhead, htail, hcells, hheld⟩ := h.ring
  induction n with
  | zero => rfl
  | succ n ih =>
      have hbyte : s.buffer.get ⟨(s.tail + n) % capacity, Nat.mod_lt _ hcap⟩ = q[n] := by
        have hcell : r.cell (r.tail + n) = q[n] := by
          simp [← hheld, Ring.held]
        rw [← hcell, Ring.cell, htail, hcells _ (Nat.mod_lt _ hcap)]
        rfl
      have hfront : (q.take n).length = n := by
        rw [List.length_take]
        omega
      rw [copyOut, ih (by omega) (by omega), hbyte, List.drop_eq_getElem_cons (by omega),
        List.set_append_right _ _ (by omega), hfront, Nat.sub_self, List.set_cons_zero,
        List.take_succ_eq_append_getElem (by omega), List.append_assoc, List.singleton_append]

/-- **A read** takes the oldest bytes. -/
theorem ringRead_eq (hcap : 0 < capacity) {s : RingState capacity} {q : Bytes}
    (h : Simulates s q) {dest : Bytes} (hdest : dest.length ≠ 0) :
    ringRead hcap s dest =
      (queueTaken q dest.length,
        q.take (queueTaken q dest.length) ++ 0 :: dest.drop (queueTaken q dest.length + 1),
        { s with tail := s.tail + queueTaken q dest.length }) := by
  obtain ⟨hlength, -⟩ := h.length_eq
  have havailable : (if dest.length ≤ s.head - s.tail then dest.length - 1 else s.head - s.tail) =
      queueTaken q dest.length := by
    unfold queueTaken
    split <;> omega
  have hq : queueTaken q dest.length ≤ q.length := Nat.min_le_left _ _
  have hroom : queueTaken q dest.length < dest.length := by
    unfold queueTaken
    omega
  have hfront : (q.take (queueTaken q dest.length)).length = queueTaken q dest.length := by
    rw [List.length_take]
    omega
  unfold ringRead
  dsimp only
  rw [if_neg hdest, havailable, copyOut_eq hcap h dest hq (Nat.le_of_lt hroom),
    List.set_append_right _ _ (by omega), hfront, Nat.sub_self,
    List.drop_eq_getElem_cons hroom, List.set_cons_zero]

theorem simulates_read {s : RingState capacity} {q : Bytes} (h : Simulates s q) (maxLen : Nat) :
    Simulates { s with tail := s.tail + queueTaken q maxLen } (q.drop (queueTaken q maxLen)) := by
  obtain ⟨r, hhead, htail, hcells, hheld⟩ := h.ring
  have htaken : r.taken maxLen = queueTaken q maxLen := by
    unfold Ring.taken queueTaken
    rw [← Ring.length_held, hheld]
  refine ⟨(r.read maxLen).2, hhead, ?_, hcells, ?_⟩
  · show r.tail + r.taken maxLen = _
    rw [htail, htaken]
  · rw [(Ring.held_read r maxLen).2, hheld]
    unfold queueTaken
    rcases Nat.le_total q.length (maxLen - 1) with hle | hle
    · rw [Nat.min_eq_left hle, List.drop_eq_nil_of_le hle, List.drop_length]
    · rw [Nat.min_eq_right hle]

/-- **Every call** keeps the ring and the queue together. -/
theorem simulates_step (hcap : 0 < capacity) (s : RingState capacity) (q : Bytes)
    (call : RingCall) (h : Simulates s q) :
    Simulates (ringStep hcap s call) (queueStep (capacity - 1) q call) := by
  cases call with
  | append data => exact simulates_ringAppend hcap h data
  | read dest =>
      show Simulates (ringRead hcap s dest).2.2 (q.drop (queueTaken q dest.length))
      by_cases hdest : dest.length = 0
      · have hnone : queueTaken q dest.length = 0 := by
          unfold queueTaken
          omega
        unfold ringRead
        rw [hnone, List.drop_zero, if_pos hdest]
        exact h
      · rw [ringRead_eq hcap h hdest]
        exact simulates_read h dest.length

/-- The ring returns what the queue returns. -/
theorem ringResult_eq (hcap : 0 < capacity) {s : RingState capacity} {q : Bytes}
    (h : Simulates s q) (call : RingCall) : ringResult hcap s call = queueResult q call := by
  cases call with
  | append data => rfl
  | read dest =>
      unfold ringResult queueResult
      dsimp only
      split
      · rename_i hdest
        unfold ringRead
        rw [if_pos hdest]
      · rename_i hdest
        rw [ringRead_eq hcap h hdest]

theorem simulates_emptyRing (hcap : 0 < capacity) (buffer : Vector UInt8 capacity) :
    Simulates (emptyRing buffer) [] := by
  refine ⟨⟨fun i => if h : i < capacity then buffer[i] else 0, 0, 0, le_rfl, hcap⟩, rfl, rfl, ?_,
    rfl⟩
  intro i hi
  exact dif_pos hi

/-- **The ring is a bounded queue**: every sequence of calls from an empty ring returns
what it returns from an empty queue, and leaves as many bytes between the counters as
the queue has, which is less than the capacity. -/
theorem ring_run_refines_queue (hcap : 1 ≤ capacity) (buffer : Vector UInt8 capacity)
    (calls : List RingCall) :
    trace (ringStep hcap) (ringResult hcap) (emptyRing buffer) calls =
        trace (queueStep (capacity - 1)) queueResult [] calls ∧
      ∀ before, before <+: calls →
        (stateAfter (ringStep hcap) (emptyRing buffer) before).head -
            (stateAfter (ringStep hcap) (emptyRing buffer) before).tail =
          (stateAfter (queueStep (capacity - 1)) [] before).length ∧
        (stateAfter (queueStep (capacity - 1)) [] before).length ≤ capacity - 1 := by
  have hstart := simulates_emptyRing hcap buffer
  constructor
  · refine trace_eq_of_steps (R := Simulates) (P := fun _ _ => True) ?_ hstart
      (AllSteps.of_forall (P := fun _ => True) (fun _ _ => trivial) _)
    intro s q call h _
    exact ⟨ringResult_eq hcap h call, simulates_step hcap s q call h⟩
  · intro before _
    exact (related_stateAfter (simulates_step hcap) hstart before).length_eq

/-- A ring of three cells, with four bytes put in and two taken out. -/
theorem ring_run_refines_queue_three :
    trace (ringStep (show 1 ≤ 3 by decide)) (ringResult (show 1 ≤ 3 by decide))
        (emptyRing (Vector.replicate 3 0)) [.append [1, 2, 3, 4], .read [7, 7, 7]] =
      [none, some (2, [3, 4, 0])] :=
  (ring_run_refines_queue (show 1 ≤ 3 by decide) (Vector.replicate 3 0)
    [.append [1, 2, 3, 4], .read [7, 7, 7]]).1.trans (by decide)

end StarBridge.RingText
