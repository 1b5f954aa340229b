import Mathlib.Tactic.Ring
import StarBridge.Descriptor
import StarBridge.Framing

/-!
# The native-agent frame transport

The bridge and the agent exchange frames over a pipe or a Unix socket: a 4-byte
little-endian length and then the payload.  This file embeds `frame_read` with
its two read loops (`read_all` for blocking calls, the poll loop of
`read_all_deadline` otherwise) and `frame_write`.

The loops run over a `Descriptor.Stream`: the bytes the peer has sent and the
schedule of what each `poll` and `read` meets.  `readAll_of_arrivals` and
`pollLoop_of_arrivals` say what they return, for every fragmentation, and how
much of the stream they have used up; everything about frames is derived from
these two.
-/

namespace StarBridge

/-- Bytes as C sees them: values of `unsigned char`. -/
abbrev Bytes := List UInt8

/-- A descriptor the bridge reads frames from. -/
abbrev Conn := Descriptor.Stream UInt8

open Descriptor

/-- `FRAME_MAX_PAYLOAD`. -/
def frameMaxPayload : Nat := 16777216

/-- `FRAME_HEADER_SIZE`. -/
def frameHeaderSize : Nat := 4

/-- A `uint32_t` as the four bytes it occupies in memory. -/
def le32 (n : Nat) : Bytes :=
  [UInt8.ofNat n, UInt8.ofNat (n / 256), UInt8.ofNat (n / 65536),
    UInt8.ofNat (n / 16777216)]

/-- The `uint32_t` whose bytes are at the front of `b`; bytes that were not
read are still zero. -/
def le32Value (b : Bytes) : Nat :=
  (b.getD 0 0).toNat + 256 * (b.getD 1 0).toNat +
    65536 * (b.getD 2 0).toNat + 16777216 * (b.getD 3 0).toNat

/-- What a read loop gives back: the bytes it stored (its return value is their
number) with the `timed_out` flag, or -1. -/
inductive ReadOutcome
  | stored (data : Bytes) (timedOut : Bool)
  | error
  deriving DecidableEq, Repr

/-- `read_all`: read until `count` bytes are stored.  Beyond its schedule the
descriptor serves every request whole, up to the end of the stream. -/
def readAll (count : Nat) :
    List IoStep → Bytes → Bytes → ReadOutcome × Conn
  | [], pending, got =>
      (.stored (got ++ pending.take (count - got.length)) false,
        ⟨pending.drop (count - got.length), []⟩)
  | step :: rest, pending, got =>
      if count ≤ got.length then (.stored got false, ⟨pending, step :: rest⟩)
      else
        match step with
        | .ready (.bytes more) =>
            if pending = [] then (.stored got false, ⟨[], rest⟩)
            else
              let n := min (more + 1) (count - got.length)
              readAll count rest (pending.drop n) (got ++ pending.take n)
        | .ready .failed => (.error, ⟨pending, rest⟩)
        | _ => readAll count rest pending got

/-- The loop of `read_all_deadline` for `deadline_ms ≥ 0`.  Beyond its schedule
the descriptor stays quiet. -/
def pollLoop (count deadlineMs : Nat) :
    List IoStep → Nat → Bytes → Bytes → ReadOutcome × Conn
  | [], _, pending, got =>
      if count ≤ got.length then (.stored got false, ⟨pending, []⟩)
      else (.stored got true, ⟨pending, []⟩)
  | step :: rest, remaining, pending, got =>
      if count ≤ got.length then (.stored got false, ⟨pending, step :: rest⟩)
      else if 0 < deadlineMs ∧ remaining = 0 then
        (.stored got true, ⟨pending, step :: rest⟩)
      else
        match step with
        | .quiet => (.stored got true, ⟨pending, rest⟩)
        | .pollInterrupted => pollLoop count deadlineMs rest remaining pending got
        | .hangup => (.error, ⟨pending, rest⟩)
        | .ready .interrupted =>
            pollLoop count deadlineMs rest remaining pending got
        | .ready .failed => (.error, ⟨pending, rest⟩)
        | .ready (.bytes more) =>
            if pending = [] then (.stored got false, ⟨[], rest⟩)
            else
              let n := min (more + 1) (count - got.length)
              -- deadline_ms == 0 stops after one read attempt
              if deadlineMs = 0 then
                (.stored (got ++ pending.take n) false, ⟨pending.drop n, rest⟩)
              else
                pollLoop count deadlineMs rest (remaining - 10)
                  (pending.drop n) (got ++ pending.take n)

/-- `read_all_deadline`: a negative deadline blocks. -/
def readAllDeadline (conn : Conn) (count : Nat) (deadlineMs : Int) :
    ReadOutcome × Conn :=
  if deadlineMs < 0 then readAll count conn.schedule conn.pending []
  else
    pollLoop count deadlineMs.toNat conn.schedule deadlineMs.toNat
      conn.pending []

/-- The `error_out` strings of `frame_read`. -/
inductive FrameError
  | timeout
  | readError
  | truncatedHeader
  | payloadTooLarge
  | truncatedPayload
  deriving DecidableEq, Repr

/-- A call of `frame_read`: the payload with `*out_len` its length, or NULL. -/
abbrev FrameResult := Except FrameError Bytes

/-- The deadline left for the payload: the header costs a nominal 10 ms. -/
def payloadDeadline (deadlineMs : Int) : Int :=
  if 0 < deadlineMs then max (deadlineMs - 10) 0 else deadlineMs

/-- The payload half of `frame_read`, once a header has announced `len`. -/
def framePayload (conn : Conn) (len : Nat) (deadlineMs : Int) :
    FrameResult × Conn :=
  match readAllDeadline conn len (payloadDeadline deadlineMs) with
  | (.error, conn') => (.error .readError, conn')
  | (.stored data timedOut, conn') =>
      if data.length = 0 then
        (.error (if timedOut then .timeout else .readError), conn')
      else if data.length < len then
        (.error (if timedOut then .timeout else .truncatedPayload), conn')
      else (.ok data, conn')

/-- `frame_read`. -/
def frameRead (conn : Conn) (deadlineMs : Int) : FrameResult × Conn :=
  match readAllDeadline conn frameHeaderSize deadlineMs with
  | (.error, conn') => (.error .readError, conn')
  | (.stored header timedOut, conn') =>
      if header.length = 0 then
        (.error (if timedOut then .timeout else .readError), conn')
      else if header.length < frameHeaderSize then
        (.error (if timedOut then .timeout else .truncatedHeader), conn')
      else if frameMaxPayload < le32Value header then
        (.error .payloadTooLarge, conn')
      else if le32Value header = 0 then (.ok [], conn')
      else framePayload conn' (le32Value header) deadlineMs

/-- Successive calls of `frame_read` on one descriptor, each with its own
deadline. -/
def frameReads (conn : Conn) : List Int → List FrameResult × Conn
  | [] => ([], conn)
  | deadline :: rest =>
      let (result, conn') := frameRead conn deadline
      let (results, last) := frameReads conn' rest
      (result :: results, last)

/-- What one `write` call meets. -/
inductive WriteStep
  | wrote (more : Nat)  -- room for `more + 1` bytes
  | interrupted         -- EINTR
  | failed              -- any other error
  deriving DecidableEq, Repr

/-- The payload loop of `frame_write`: whether it finished, and what it wrote.
Beyond its schedule the descriptor takes everything. -/
def writePayload : List WriteStep → Bytes → Bytes → Bool × Bytes
  | [], left, out => (true, out ++ left)
  | step :: rest, left, out =>
      if left = [] then (true, out)
      else
        match step with
        | .wrote more =>
            writePayload rest (left.drop (more + 1)) (out ++ left.take (more + 1))
        | .interrupted => writePayload rest left out
        | .failed => (false, out)

/-- `frame_write`: its return value and the bytes it put on the stream. -/
def frameWrite (writes : List WriteStep) (json : Bytes) : Bool × Bytes :=
  let netLen := json.length % 4294967296
  if frameMaxPayload < netLen then (false, [])
  else
    match writes with
    | [] => writePayload [] json (le32 netLen)
    | .wrote more :: rest =>
        if more + 1 < frameHeaderSize then
          (false, (le32 netLen).take (more + 1))
        else writePayload rest json (le32 netLen)
    | _ :: _ => (false, [])

/-- Frames written one after another; `none` when some call reports failure. -/
def frameWrites : List (Bytes × List WriteStep) → Option Bytes
  | [] => some []
  | (json, writes) :: rest =>
      match frameWrite writes json with
      | (true, out) => (frameWrites rest).map (out ++ ·)
      | (false, _) => none

/-! ## The header codec -/

@[simp] theorem le32_length (n : Nat) : (le32 n).length = 4 := rfl

/-- A header reads back as the length it was written for. -/
theorem le32Value_le32 {n : Nat} (h : n < 4294967296) :
    le32Value (le32 n) = n := by
  simp only [le32Value, le32, List.getD_cons_zero, List.getD_cons_succ,
    UInt8.toNat_ofNat']
  omega

/-- The frame format as an instance of length-prefixed framing. -/
def frameCodec : Framing.HeaderCodec UInt8 where
  width := frameHeaderSize
  limit := frameMaxPayload
  write := le32
  read := le32Value
  write_length _ := rfl
  read_write n hn := le32Value_le32 (by unfold frameMaxPayload at hn; omega)

/-! ## The blocking loop -/

/-- A blocking read of a schedule without errors stores the next bytes of the
stream, however they are fragmented, and stops short only at its end. -/
theorem readAll_of_arrivals {count : Nat} {steps : List IoStep}
    (hsteps : OnlyArrivals steps) (pending got : Bytes)
    (hgot : got.length ≤ count) :
    ∃ left, OnlyArrivals left ∧
      readAll count steps pending got =
        (.stored (got ++ pending.take (count - got.length)) false,
          ⟨pending.drop (count - got.length), left⟩) := by
  induction steps generalizing pending got with
  | nil => exact ⟨[], hsteps, by simp [readAll]⟩
  | cons s rest ih =>
      by_cases hfull : count ≤ got.length
      · have hzero : count - got.length = 0 := by omega
        exact ⟨s :: rest, hsteps, by simp [readAll, hfull, hzero]⟩
      · have hrest := hsteps.tail
        have hskip : ∀ s', readAll count (s' :: rest) pending got =
            readAll count rest pending got → ∃ left, OnlyArrivals left ∧
              readAll count (s' :: rest) pending got =
                (.stored (got ++ pending.take (count - got.length)) false,
                  ⟨pending.drop (count - got.length), left⟩) := by
          intro s' hs'
          rw [hs']
          exact ih hrest pending got hgot
        match s, hsteps with
        | .quiet, _ => exact hskip _ (by simp [readAll, hfull])
        | .pollInterrupted, _ => exact hskip _ (by simp [readAll, hfull])
        | .hangup, h => exact absurd List.mem_cons_self h.1
        | .ready .failed, h => exact absurd List.mem_cons_self h.2
        | .ready .interrupted, _ => exact hskip _ (by simp [readAll, hfull])
        | .ready (.bytes more), _ =>
            by_cases hend : pending = []
            · exact ⟨rest, hrest, by simp [readAll, hfull, hend]⟩
            · -- one fragment of `n` bytes, then the induction hypothesis
              obtain ⟨n, hn⟩ : ∃ n, n = min (more + 1) (count - got.length) :=
                ⟨_, rfl⟩
              have hgot' : (got ++ pending.take n).length ≤ count := by
                simp only [List.length_append, List.length_take]
                omega
              obtain ⟨left, hleft, hrun⟩ :=
                ih hrest (pending.drop n) (got ++ pending.take n) hgot'
              refine ⟨left, hleft, ?_⟩
              obtain ⟨htake, hdrop⟩ := take_in_two_reads pending
                (show n ≤ count - got.length by omega)
              have hlen : count - (got ++ pending.take n).length =
                  count - got.length - min n pending.length := by
                simp only [List.length_append, List.length_take]
                omega
              simp only [readAll, if_neg hfull, if_neg hend, ← hn, hrun, hlen,
                List.append_assoc, htake, hdrop]

/-! ## The poll loop -/

/-- How many successful reads a deadline pays for: each costs a nominal 10 ms,
and a deadline of 0 stops after one. -/
def readBudget (deadlineMs remaining : Nat) : Nat :=
  if deadlineMs = 0 then 1 else (remaining + 9) / 10

/-- What a polling reader owes for `need` more bytes out of `reads` reads of the
schedule `steps`: it stores and uses up the bytes that arrive, reports no
timeout when they are enough, and reports one when there are none. -/
structure Served (steps : List IoStep) (need reads : Nat) (pending got : Bytes)
    (data : Bytes) (timedOut : Bool) (left : Conn) : Prop where
  data_eq : data = got ++ pending.take (min need (arrivingWithin reads steps))
  pending_eq : left.pending = pending.drop (min need (arrivingWithin reads steps))
  arrivals : OnlyArrivals left.schedule
  whole : need ≤ arrivingWithin reads steps →
    timedOut = false ∧ left.schedule = scheduleAfter need steps
  starved : 0 < need → arrivingWithin reads steps = 0 → timedOut = true

/-- Nothing is owed and nothing is taken. -/
theorem Served.nothing {steps : List IoStep} (hsteps : OnlyArrivals steps)
    (reads : Nat) (pending got : Bytes) :
    Served steps 0 reads pending got got false ⟨pending, steps⟩ := by
  constructor <;> simp [hsteps]

/-- Nothing arrives: the reader times out with what it had. -/
theorem Served.timeout {steps left : List IoStep} (hleft : OnlyArrivals left)
    {need reads : Nat} (hneed : 0 < need) (hquiet : arrivingWithin reads steps = 0)
    (pending got : Bytes) :
    Served steps need reads pending got got true ⟨pending, left⟩ := by
  constructor <;> simp [hleft, hquiet]
  omega

/-- A step that met EINTR changes nothing. -/
theorem Served.interrupted {s : IoStep} {rest : List IoStep}
    (hs : s = .pollInterrupted ∨ s = .ready .interrupted) {need reads : Nat}
    (hneed : 0 < need) {pending got data : Bytes} {timedOut : Bool} {left : Conn}
    (h : Served rest need reads pending got data timedOut left) :
    Served (s :: rest) need reads pending got data timedOut left := by
  have harrive := arrivingWithin_interrupted reads hs rest
  exact
    { data_eq := by rw [harrive]; exact h.data_eq
      pending_eq := by rw [harrive]; exact h.pending_eq
      arrivals := h.arrivals
      whole := by
        rw [harrive, scheduleAfter_interrupted hneed hs]
        exact h.whole
      starved := by rw [harrive]; exact h.starved }

/-- One fragment of `n` bytes, and then a reader that owes the rest. -/
theorem Served.fragment {more n : Nat} {rest : List IoStep} {need reads : Nat}
    (hneed : 0 < need) (hn : n = min (more + 1) need) {pending got data : Bytes}
    {timedOut : Bool} {left : Conn}
    (h : Served rest (need - n) reads (pending.drop n) (got ++ pending.take n)
      data timedOut left) :
    Served (.ready (.bytes more) :: rest) need (reads + 1) pending got data
      timedOut left := by
  have harrive := arrivingWithin_bytes reads more rest
  have hmin : min need (more + 1 + arrivingWithin reads rest) =
      n + min (need - n) (arrivingWithin reads rest) := by omega
  exact
    { data_eq := by
        rw [h.data_eq, harrive, hmin, List.take_add, List.append_assoc]
      pending_eq := by rw [h.pending_eq, harrive, hmin, List.drop_drop]
      arrivals := h.arrivals
      whole := fun hw => by
        rw [scheduleAfter_bytes hneed, ← hn]
        exact h.whole (by omega)
      starved := fun _ h0 => by omega }

/-- A polling read of a schedule without errors, on a stream that still holds
what it asks for, does what `Served` says with the reads its deadline pays
for. -/
theorem pollLoop_of_arrivals (count deadlineMs : Nat) {steps : List IoStep}
    (hsteps : OnlyArrivals steps) (remaining : Nat) (pending got : Bytes)
    (hmore : count - got.length ≤ pending.length) :
    ∃ data timedOut left,
      pollLoop count deadlineMs steps remaining pending got =
        (.stored data timedOut, left) ∧
      Served steps (count - got.length) (readBudget deadlineMs remaining)
        pending got data timedOut left := by
  induction steps generalizing remaining pending got with
  | nil =>
      by_cases hfull : count ≤ got.length
      · refine ⟨_, _, _, by simp only [pollLoop, if_pos hfull]; rfl, ?_⟩
        rw [Nat.sub_eq_zero_of_le hfull]
        exact .nothing hsteps _ _ _
      · refine ⟨_, _, _, by simp only [pollLoop, if_neg hfull]; rfl, ?_⟩
        exact .timeout hsteps (by omega) (arrivingWithin_nil _) _ _
  | cons s rest ih =>
      have hrest := hsteps.tail
      by_cases hfull : count ≤ got.length
      · refine ⟨_, _, _, by simp only [pollLoop, if_pos hfull]; rfl, ?_⟩
        rw [Nat.sub_eq_zero_of_le hfull]
        exact .nothing hsteps _ _ _
      have hneed : 0 < count - got.length := by omega
      by_cases hspent : 0 < deadlineMs ∧ remaining = 0
      · refine ⟨_, _, _,
          by simp only [pollLoop, if_neg hfull, if_pos hspent]; rfl, ?_⟩
        have hbudget : readBudget deadlineMs remaining = 0 := by
          simp [readBudget, hspent.2, Nat.ne_of_gt hspent.1]
        exact .timeout hsteps hneed (by rw [hbudget, arrivingWithin_zero]) _ _
      -- the budget still pays for at least one read
      obtain ⟨reads, hreads⟩ : ∃ reads,
          readBudget deadlineMs remaining = reads + 1 := by
        refine ⟨readBudget deadlineMs remaining - 1, ?_⟩
        unfold readBudget
        split <;> omega
      have hskip : ∀ s', (s' = .pollInterrupted ∨ s' = .ready .interrupted) →
          ∃ data timedOut left,
            pollLoop count deadlineMs (s' :: rest) remaining pending got =
              (.stored data timedOut, left) ∧
            Served (s' :: rest) (count - got.length)
              (readBudget deadlineMs remaining) pending got data timedOut
              left := by
        intro s' hs'
        obtain ⟨data, timedOut, left, hrun, hserved⟩ :=
          ih hrest remaining pending got hmore
        refine ⟨data, timedOut, left, ?_, hserved.interrupted hs' hneed⟩
        rcases hs' with rfl | rfl <;>
          simp only [pollLoop, if_neg hfull, if_neg hspent, hrun]
      match s, hsteps with
      | .pollInterrupted, _ => exact hskip _ (.inl rfl)
      | .ready .interrupted, _ => exact hskip _ (.inr rfl)
      | .hangup, h => exact absurd List.mem_cons_self h.1
      | .ready .failed, h => exact absurd List.mem_cons_self h.2
      | .quiet, _ =>
          refine ⟨_, _, _,
            by simp only [pollLoop, if_neg hfull, if_neg hspent]; rfl, ?_⟩
          exact .timeout hrest hneed (by rw [hreads]; rfl) _ _
      | .ready (.bytes more), _ =>
          have hend : pending ≠ [] := by
            rintro rfl
            simp at hmore
            omega
          obtain ⟨n, hn⟩ : ∃ n, n = min (more + 1) (count - got.length) :=
            ⟨_, rfl⟩
          by_cases hzero : deadlineMs = 0
          · -- a single read, whatever it brings
            have hone : reads = 0 := by simp_all [readBudget]
            refine ⟨got ++ pending.take n, false, ⟨pending.drop n, rest⟩,
              by simp only [pollLoop, if_neg hfull, if_neg hspent, if_neg hend,
                if_pos hzero, ← hn], ?_⟩
            rw [hreads, hone]
            have hmin : min (count - got.length) (more + 1) = n := by omega
            constructor
            · simp [arrivingWithin_bytes, hmin]
            · simp [arrivingWithin_bytes, hmin]
            · exact hrest
            · intro hw
              rw [arrivingWithin_bytes, arrivingWithin_zero] at hw
              have hdone : count - got.length - n = 0 := by omega
              simp [scheduleAfter_bytes hneed, ← hn, hdone]
            · intro _ h0
              simp [arrivingWithin_bytes] at h0
          · have hlen : count - (got ++ pending.take n).length =
                count - got.length - n := by
              simp only [List.length_append, List.length_take]
              omega
            obtain ⟨data, timedOut, left, hrun, hserved⟩ :=
              ih hrest (remaining - 10) (pending.drop n) (got ++ pending.take n)
                (by rw [hlen, List.length_drop]; omega)
            refine ⟨data, timedOut, left, ?_, ?_⟩
            · simp only [pollLoop, if_neg hfull, if_neg hspent, if_neg hend,
                if_neg hzero, ← hn, hrun]
            · have hreads' : readBudget deadlineMs (remaining - 10) = reads := by
                simp only [readBudget, if_neg hzero] at hreads ⊢
                omega
              rw [hlen, hreads'] at hserved
              rw [hreads]
              exact hserved.fragment hneed hn

/-- Polling a closed stream stores nothing. -/
theorem pollLoop_closed (count deadlineMs : Nat) (steps : List IoStep)
    (remaining : Nat) :
    ∃ outcome left,
      pollLoop count deadlineMs steps remaining [] [] = (outcome, ⟨[], left⟩) ∧
      (outcome = .error ∨ ∃ timedOut, outcome = .stored [] timedOut) := by
  induction steps generalizing remaining with
  | nil => unfold pollLoop; split <;> exact ⟨_, _, rfl, by simp⟩
  | cons s rest ih =>
      unfold pollLoop
      split
      · exact ⟨_, _, rfl, by simp⟩
      split
      · exact ⟨_, _, rfl, by simp⟩
      match s with
      | .quiet => exact ⟨_, _, rfl, by simp⟩
      | .pollInterrupted => exact ih remaining
      | .hangup => exact ⟨_, _, rfl, by simp⟩
      | .ready .interrupted => exact ih remaining
      | .ready .failed => exact ⟨_, _, rfl, by simp⟩
      | .ready (.bytes more) => exact ⟨_, _, rfl, by simp⟩

/-! ## What is left of the schedule -/

theorem readAll_schedule_suffix (count : Nat) (steps : List IoStep)
    (pending got : Bytes) :
    (readAll count steps pending got).2.schedule <:+ steps := by
  induction steps generalizing pending got with
  | nil => exact List.suffix_refl _
  | cons s rest ih =>
      have htail : rest <:+ s :: rest := List.suffix_cons s rest
      unfold readAll
      split
      · exact List.suffix_refl _
      split
      · split
        · exact htail
        · exact (ih _ _).trans htail
      · exact htail
      · exact (ih _ _).trans htail

theorem pollLoop_schedule_suffix (count deadlineMs : Nat) (steps : List IoStep)
    (remaining : Nat) (pending got : Bytes) :
    (pollLoop count deadlineMs steps remaining pending got).2.schedule <:+
      steps := by
  induction steps generalizing remaining pending got with
  | nil => unfold pollLoop; split <;> exact List.suffix_refl _
  | cons s rest ih =>
      have htail : rest <:+ s :: rest := List.suffix_cons s rest
      unfold pollLoop
      split
      · exact List.suffix_refl _
      split
      · exact List.suffix_refl _
      match s with
      | .quiet => exact htail
      | .pollInterrupted => exact (ih _ _ _).trans htail
      | .hangup => exact htail
      | .ready .interrupted => exact (ih _ _ _).trans htail
      | .ready .failed => exact htail
      | .ready (.bytes more) =>
          dsimp only
          split
          · exact htail
          split
          · exact htail
          · exact (ih _ _ _).trans htail

theorem readAllDeadline_schedule_suffix (conn : Conn) (count : Nat)
    (deadlineMs : Int) :
    (readAllDeadline conn count deadlineMs).2.schedule <:+ conn.schedule := by
  unfold readAllDeadline
  split
  · exact readAll_schedule_suffix _ _ _ _
  · exact pollLoop_schedule_suffix _ _ _ _ _ _

/-- A call moves along the schedule. -/
theorem frameRead_schedule_suffix (conn : Conn) (deadlineMs : Int) :
    (frameRead conn deadlineMs).2.schedule <:+ conn.schedule := by
  have hhead := readAllDeadline_schedule_suffix conn frameHeaderSize deadlineMs
  unfold frameRead
  match hread : readAllDeadline conn frameHeaderSize deadlineMs with
  | (.error, conn') => simpa [hread] using hhead
  | (.stored header timedOut, conn') =>
      rw [hread] at hhead
      dsimp only
      split_ifs <;> try exact hhead
      have hbody := readAllDeadline_schedule_suffix conn' (le32Value header)
        (payloadDeadline deadlineMs)
      refine List.IsSuffix.trans ?_ hhead
      unfold framePayload
      match hrest : readAllDeadline conn' (le32Value header)
          (payloadDeadline deadlineMs) with
      | (.error, conn'') => simpa [hrest] using hbody
      | (.stored data timedOut', conn'') =>
          rw [hrest] at hbody
          dsimp only
          split_ifs <;> exact hbody

end StarBridge
