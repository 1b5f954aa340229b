import StarBridge.FrameStream

/-!
# Deadlines on data that is already there

A frame all of whose bytes are available needs no waiting, so a positive
deadline should make no difference to `frame_read`.  `read_all_deadline` does
not measure time, however: it charges a nominal 10 ms for every piece `read`
returns, `frame_read` charges 10 ms more between the header and the payload, and
a payload deadline that has come down to 0 means one single read.

`ready_frame_iff` says for every fragmentation which frames come back all the
same: those whose header takes no more pieces than the deadline has tens of
milliseconds, begun ones included, and whose payload takes no more than the rest
of it has, or one piece when there is no rest.
-/

namespace StarBridge

open Descriptor Framing

/-- A descriptor that is always readable: the read number `i` finds
`pieces i + 1` bytes. -/
def readyPieces (pieces : Nat → Nat) (reads : Nat) : List IoStep :=
  (List.range reads).map fun i => .ready (.bytes (pieces i))

/-- The frame of `p` at the front of a stream whose bytes are all there.  No
call makes more reads than there are bytes in the frame. -/
def readyConn (p rest : Bytes) (pieces : Nat → Nat) : Conn :=
  ⟨encode frameCodec p ++ rest,
    readyPieces pieces (frameHeaderSize + p.length)⟩

/-- The header arrives in the reads its deadline pays for, and the payload in
those that the deadline left for it pays for. -/
def PiecesInTime (deadlineMs : Int) (steps : List IoStep) (p : Bytes) : Prop :=
  frameHeaderSize ≤ arrivingInTime deadlineMs steps ∧
    p.length ≤ arrivingInTime (payloadDeadline deadlineMs)
      (scheduleAfter frameHeaderSize steps)

instance (deadlineMs : Int) (steps : List IoStep) (p : Bytes) :
    Decidable (PiecesInTime deadlineMs steps p) :=
  inferInstanceAs (Decidable (_ ∧ _))

/-! ## Schedules on which every read finds something -/

/-- Every poll finds the descriptor readable and every read a piece. -/
def AllReady (steps : List IoStep) : Prop :=
  ∀ s ∈ steps, ∃ more, s = .ready (.bytes more)

theorem allReady_readyPieces (pieces : Nat → Nat) (reads : Nat) :
    AllReady (readyPieces pieces reads) := by
  intro s hs
  obtain ⟨i, -, rfl⟩ := List.mem_map.mp hs
  exact ⟨pieces i, rfl⟩

theorem AllReady.tail {s : IoStep} {rest : List IoStep}
    (h : AllReady (s :: rest)) : AllReady rest :=
  fun t ht => h t (List.mem_cons_of_mem _ ht)

theorem AllReady.onlyArrivals {steps : List IoStep} (h : AllReady steps) :
    OnlyArrivals steps := by
  constructor
  · intro hm
    obtain ⟨more, hmore⟩ := h _ hm
    cases hmore
  · intro hm
    obtain ⟨more, hmore⟩ := h _ hm
    cases hmore

/-- Each read brings at least one byte. -/
theorem AllReady.le_arrivingWithin {steps : List IoStep} (h : AllReady steps)
    {reads : Nat} (hreads : reads ≤ steps.length) :
    reads ≤ arrivingWithin reads steps := by
  induction steps generalizing reads with
  | nil => simp at hreads; omega
  | cons s rest ih =>
      obtain ⟨more, rfl⟩ := h s List.mem_cons_self
      cases reads with
      | zero => exact Nat.zero_le _
      | succ reads =>
          have hrest := ih h.tail (show reads ≤ rest.length by simpa using hreads)
          rw [arrivingWithin_bytes]
          omega

/-- More reads never bring less. -/
theorem arrivingWithin_mono (steps : List IoStep) {few many : Nat}
    (h : few ≤ many) : arrivingWithin few steps ≤ arrivingWithin many steps := by
  induction steps generalizing few many with
  | nil => simp
  | cons s rest ih =>
      cases few with
      | zero => simp
      | succ few =>
          obtain ⟨many, rfl⟩ := Nat.exists_eq_add_of_lt h
          cases s with
          | ready r =>
              cases r with
              | bytes more =>
                  simp only [arrivingWithin]
                  have hrest := ih (show few ≤ few + many by omega)
                  omega
              | interrupted => simpa only [arrivingWithin] using ih (by omega)
              | failed => simp [arrivingWithin]
          | quiet => simp [arrivingWithin]
          | pollInterrupted => simpa only [arrivingWithin] using ih (by omega)
          | hangup => simp [arrivingWithin]

/-- Waiting for `count` bytes uses up at most `count` reads and leaves a
schedule of the same kind. -/
theorem AllReady.scheduleAfter {steps : List IoStep} (h : AllReady steps)
    (count : Nat) :
    AllReady (scheduleAfter count steps) ∧
      steps.length ≤ count + (scheduleAfter count steps).length := by
  induction steps generalizing count with
  | nil => cases count <;> exact ⟨h, by simp⟩
  | cons s rest ih =>
      obtain ⟨more, rfl⟩ := h s List.mem_cons_self
      cases count with
      | zero => exact ⟨h, by simp⟩
      | succ count =>
          obtain ⟨hready, hlength⟩ := ih h.tail (count - more)
          refine ⟨hready, ?_⟩
          simp only [Descriptor.scheduleAfter, List.length_cons]
          omega

/-! ## The two ways of reading -/

/-- Without a deadline the frame is returned. -/
theorem frameRead_ready_blocking {p : Bytes} (hp : p.length ≤ frameMaxPayload)
    (rest : Bytes) (pieces : Nat → Nat) :
    (frameRead (readyConn p rest pieces) (-1)).1 = .ok p := by
  obtain ⟨left, -, hread⟩ := frameRead_blocking_ok (readyConn p rest pieces)
    (allReady_readyPieces _ _).onlyArrivals (show (-1 : Int) < 0 by decide)
    (decodeOne_encode_append frameCodec hp rest)
  rw [hread]

/-- A polling call on a frame whose bytes keep arriving returns it iff the
deadline pays for its pieces. -/
theorem frameRead_polling_ok_iff {p : Bytes} (hp : p.length ≤ frameMaxPayload)
    (rest : Bytes) {steps : List IoStep} (harr : OnlyArrivals steps)
    {deadlineMs : Int} (hpoll : ¬ deadlineMs < 0) :
    (frameRead ⟨encode frameCodec p ++ rest, steps⟩ deadlineMs).1 = .ok p ↔
      PiecesInTime deadlineMs steps p := by
  have hfront : (encode frameCodec p ++ rest).take frameHeaderSize =
      le32 p.length := take_width_encode_append frameCodec p rest
  have hback : (encode frameCodec p ++ rest).drop frameHeaderSize = p ++ rest :=
    drop_width_encode_append frameCodec p rest
  have hlong : frameHeaderSize ≤ (encode frameCodec p ++ rest).length := by
    rw [List.length_append, encode_length]
    exact Nat.le_trans (Nat.le_add_right _ _) (Nat.le_add_right _ _)
  obtain ⟨timedOut, left, hleft, hhead, hsched⟩ := readAllDeadline_polling
    ⟨encode frameCodec p ++ rest, steps⟩ harr hpoll frameHeaderSize hlong
  dsimp only at hhead hsched
  by_cases hwhole : frameHeaderSize ≤ arrivingInTime deadlineMs steps
  · -- the header arrives; the payload decides
    obtain rfl := hsched hwhole
    rw [Nat.min_eq_left hwhole, hfront, hback] at hhead
    have hvalue : le32Value (le32 p.length) = p.length :=
      frameCodec.read_write _ hp
    have hcall := frameRead_of_header hhead rfl (hvalue.symm ▸ hp)
    rw [hvalue] at hcall
    by_cases hempty : p.length = 0
    · obtain rfl := List.length_eq_zero_iff.mp hempty
      rw [hcall, if_pos hempty]
      exact iff_of_true rfl ⟨hwhole, Nat.zero_le _⟩
    · have hpoll' : ¬ payloadDeadline deadlineMs < 0 := by
        unfold payloadDeadline
        split <;> omega
      obtain ⟨timedOut', left', -, hbody, -⟩ := readAllDeadline_polling
        ⟨p ++ rest, scheduleAfter frameHeaderSize steps⟩ hleft hpoll'
        p.length (by simp)
      dsimp only at hbody
      rw [hcall, if_neg hempty]
      by_cases hfit : p.length ≤ arrivingInTime (payloadDeadline deadlineMs)
          (scheduleAfter frameHeaderSize steps)
      · rw [Nat.min_eq_left hfit, List.take_left, List.drop_left] at hbody
        rw [framePayload_of_whole hbody rfl hempty]
        exact iff_of_true rfl ⟨hwhole, hfit⟩
      · rw [Nat.min_eq_right (by omega)] at hbody
        obtain ⟨e, he⟩ := framePayload_of_part hbody
          (by rw [List.length_take]; omega)
        rw [he]
        exact iff_of_false (by simp) (fun h => hfit h.2)
  · rw [Nat.min_eq_right (by omega)] at hhead
    obtain ⟨e, he⟩ := frameRead_of_short_header hhead
      (by rw [List.length_take]; omega)
    rw [he]
    exact iff_of_false (by simp) (fun h => hwhole h.1)

/-- Ten milliseconds a byte are enough for every fragmentation. -/
theorem piecesInTime_of_ten_a_byte {p : Bytes} {deadlineMs : Int}
    (hlong : 10 * (frameHeaderSize + p.length : Nat) ≤ deadlineMs)
    (pieces : Nat → Nat) :
    PiecesInTime deadlineMs (readyPieces pieces (frameHeaderSize + p.length))
      p := by
  obtain ⟨d, rfl⟩ := Int.eq_ofNat_of_zero_le
    (show 0 ≤ deadlineMs by unfold frameHeaderSize at hlong; omega)
  have hready := allReady_readyPieces pieces (frameHeaderSize + p.length)
  have hlength : (readyPieces pieces (frameHeaderSize + p.length)).length =
      frameHeaderSize + p.length := by
    simp [readyPieces]
  obtain ⟨hafter, hleft⟩ := hready.scheduleAfter frameHeaderSize
  have hpayload : payloadDeadline d = (d - 10 : Nat) := by
    unfold payloadDeadline frameHeaderSize at *
    split <;> omega
  constructor
  · have hreads : frameHeaderSize ≤ readBudget d d := by
      unfold readBudget frameHeaderSize at *
      split <;> omega
    calc frameHeaderSize
        ≤ arrivingWithin frameHeaderSize
            (readyPieces pieces (frameHeaderSize + p.length)) :=
          hready.le_arrivingWithin (by omega)
      _ ≤ _ := arrivingWithin_mono _ hreads
  · have hreads : p.length ≤ readBudget (d - 10) (d - 10) := by
      unfold readBudget frameHeaderSize at *
      split <;> omega
    rw [hpayload]
    calc p.length
        ≤ arrivingWithin p.length (scheduleAfter frameHeaderSize
            (readyPieces pieces (frameHeaderSize + p.length))) :=
          hafter.le_arrivingWithin (by omega)
      _ ≤ _ := arrivingWithin_mono _ hreads

/-- A positive deadline returns what the blocking call returns on a frame that
is there exactly when the frame's pieces are few enough for it. -/
theorem ready_frame_iff {p : Bytes} (hp : p.length ≤ frameMaxPayload)
    (rest : Bytes) (pieces : Nat → Nat) {deadlineMs : Int}
    (hpos : 0 < deadlineMs) :
    (frameRead (readyConn p rest pieces) deadlineMs).1 =
        (frameRead (readyConn p rest pieces) (-1)).1 ↔
      PiecesInTime deadlineMs
        (readyPieces pieces (frameHeaderSize + p.length)) p := by
  rw [frameRead_ready_blocking hp]
  exact frameRead_polling_ok_iff hp rest
    (allReady_readyPieces _ _).onlyArrivals (by omega)

/-- Twenty milliseconds are enough for `\x7b\x7d` in one piece after the
header. -/
theorem ready_frame_iff_two_pieces :
    (frameRead (readyConn [123, 125] [7] fun _ => 9) 20).1 =
        (frameRead (readyConn [123, 125] [7] fun _ => 9) (-1)).1 ↔
      PiecesInTime 20 (readyPieces (fun _ => 9) 6) [123, 125] :=
  ready_frame_iff (by decide) [7] (fun _ => 9) (by decide)

/-- The header in one piece and the payload in two, all of it there: a deadline
of 10 ms drops the frame. -/
theorem ready_frame_dropped :
    (frameRead (readyConn [123, 125] [] fun i => if i = 0 then 3 else 0) 10).1 ≠
      (frameRead
        (readyConn [123, 125] [] fun i => if i = 0 then 3 else 0) (-1)).1 := by
  decide

end StarBridge
