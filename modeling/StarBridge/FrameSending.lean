import StarBridge.FrameStream

/-!
# Sending one frame

`frame_write` writes a frame in two parts.  The payload goes out in a loop that
starts again after a short write and after EINTR.  The four bytes of the header
are one `write` whose count must be 4, and the length they hold is narrowed to
32 bits before it is compared with `FRAME_MAX_PAYLOAD`.

`writeContinued` is the frame as the payload loop would send the whole of it.
`frame_write_iff` compares the two for every length and every schedule: they
part when the header's `write` is cut short or interrupted although more of it
could be written, and when a length of 2^32 or more is small modulo 2^32.
-/

namespace StarBridge

/-! ## The loop that continues -/

/-- A write loop that starts again after a short write and after EINTR and stops
at any other error: whether it finished, what it wrote, and the schedule
left. -/
def writeAll : List WriteStep → Bytes → Bytes → Bool × Bytes × List WriteStep
  | [], left, out => (true, out ++ left, [])
  | step :: rest, left, out =>
      if left = [] then (true, out, step :: rest)
      else
        match step with
        | .wrote more =>
            writeAll rest (left.drop (more + 1)) (out ++ left.take (more + 1))
        | .interrupted => writeAll rest left out
        | .failed => (false, out, rest)

/-- A frame sent by such a loop, the header first. -/
def writeContinued (writes : List WriteStep) (json : Bytes) : Bool × Bytes :=
  match writeAll writes (le32 json.length) [] with
  | (false, sent, _) => (false, sent)
  | (true, sent, rest) => writePayload rest json sent

/-- What `frame_write` owes its caller. -/
structure AllOrNothing (writes : List WriteStep) (json : Bytes) : Prop where
  /-- Success means an admissible length and the whole frame on the stream. -/
  truthful : (frameWrite writes json).1 = true ↔
    json.length ≤ frameMaxPayload ∧
      (frameWrite writes json).2 = le32 json.length ++ json
  /-- A payload that is too large is refused before anything is written. -/
  refuses : frameMaxPayload < json.length → frameWrite writes json = (false, [])
  /-- A write that could be continued is. -/
  continues : json.length ≤ frameMaxPayload →
    frameWrite writes json = writeContinued writes json

/-- No further byte can be written: only EINTR before an error. -/
def NoMoreTaken : List WriteStep → Prop
  | .interrupted :: rest => NoMoreTaken rest
  | .failed :: _ => True
  | _ => False

/-- The header goes out in the first `write`, or what that leaves of it cannot
be written at all. -/
def HeaderTaken : List WriteStep → Prop
  | .wrote more :: rest => frameHeaderSize ≤ more + 1 ∨ NoMoreTaken rest
  | .interrupted :: rest => NoMoreTaken rest
  | _ => True

/-- The first `write` takes nothing. -/
def NothingTaken : List WriteStep → Prop
  | .interrupted :: _ => True
  | .failed :: _ => True
  | _ => False

/-! ## What the loop gives -/

/-- Nothing left to write. -/
theorem writeAll_done (writes : List WriteStep) (out : Bytes) :
    writeAll writes [] out = (true, out, writes) := by
  cases writes <;> simp [writeAll]

/-- Where no further byte can be written, the loop gives up with what it had. -/
theorem writeAll_of_noMore {writes : List WriteStep} (h : NoMoreTaken writes)
    {left : Bytes} (hleft : left ≠ []) (out : Bytes) :
    ∃ rest, writeAll writes left out = (false, out, rest) := by
  induction writes with
  | nil => exact h.elim
  | cons step rest ih =>
      cases step with
      | wrote more => exact h.elim
      | interrupted =>
          obtain ⟨rest', hrest'⟩ := ih h
          exact ⟨rest', by simp only [writeAll, if_neg hleft, hrest']⟩
      | failed => exact ⟨rest, by simp only [writeAll, if_neg hleft]⟩

/-- The loop never takes anything back. -/
theorem length_le_writeAll (writes : List WriteStep) (left out : Bytes) :
    out.length ≤ (writeAll writes left out).2.1.length := by
  induction writes generalizing left out with
  | nil => simp [writeAll]
  | cons step rest ih =>
      by_cases hleft : left = []
      · simp [writeAll, hleft]
      cases step with
      | wrote more =>
          simp only [writeAll, if_neg hleft]
          have hmore := ih (left.drop (more + 1)) (out ++ left.take (more + 1))
          simp only [List.length_append] at hmore
          omega
      | interrupted =>
          simp only [writeAll, if_neg hleft]
          exact ih left out
      | failed => simp [writeAll, hleft]

/-- Where a byte can still be written, the loop writes one or finishes. -/
theorem writeAll_of_more {writes : List WriteStep} (h : ¬ NoMoreTaken writes)
    {left : Bytes} (hleft : left ≠ []) (out : Bytes) :
    out.length < (writeAll writes left out).2.1.length := by
  have hpos : 0 < left.length := List.length_pos_iff.mpr hleft
  induction writes with
  | nil =>
      simp only [writeAll, List.length_append]
      omega
  | cons step rest ih =>
      cases step with
      | wrote more =>
          have hgrow := length_le_writeAll rest (left.drop (more + 1))
            (out ++ left.take (more + 1))
          simp only [writeAll, if_neg hleft]
          simp only [List.length_append, List.length_take] at hgrow
          omega
      | interrupted =>
          simp only [writeAll, if_neg hleft]
          exact ih h
      | failed => exact (h trivial).elim

/-- The payload loop adds to what was written. -/
theorem length_le_writePayload (writes : List WriteStep) (left out : Bytes) :
    out.length ≤ (writePayload writes left out).2.length := by
  induction writes generalizing left out with
  | nil => simp [writePayload]
  | cons step rest ih =>
      by_cases hleft : left = []
      · simp [writePayload, hleft]
      cases step with
      | wrote more =>
          simp only [writePayload, if_neg hleft]
          have hmore := ih (left.drop (more + 1)) (out ++ left.take (more + 1))
          simp only [List.length_append] at hmore
          omega
      | interrupted =>
          simp only [writePayload, if_neg hleft]
          exact ih left out
      | failed => simp [writePayload, hleft]

/-- What a continued frame puts on the stream is at least what the header's loop
did. -/
theorem length_le_writeContinued (writes : List WriteStep) (json : Bytes) :
    (writeAll writes (le32 json.length) []).2.1.length ≤
      (writeContinued writes json).2.length := by
  unfold writeContinued
  match writeAll writes (le32 json.length) [] with
  | (false, sent, _) => exact Nat.le_refl _
  | (true, sent, rest) => exact length_le_writePayload rest json sent

/-! ## The header -/

theorem le32_ne_nil (n : Nat) : le32 n ≠ [] := by simp [le32]

/-- The header's write can be told from a continued one exactly when something
more of the header could have been written. -/
theorem frameWrite_continues_iff {writes : List WriteStep} {json : Bytes}
    (hsize : json.length ≤ frameMaxPayload) :
    frameWrite writes json = writeContinued writes json ↔
      HeaderTaken writes := by
  have hmod : json.length % 4294967296 = json.length :=
    Nat.mod_eq_of_lt (by unfold frameMaxPayload at hsize; omega)
  have hsmall := Nat.not_lt.mpr hsize
  have hheader := le32_ne_nil json.length
  match writes with
  | [] =>
      simp [frameWrite, writeContinued, writeAll, HeaderTaken, hmod, hsmall]
  | .failed :: rest =>
      simp [frameWrite, writeContinued, writeAll, HeaderTaken, hmod, hsmall,
        hheader]
  | .interrupted :: rest =>
      simp only [frameWrite, hmod, if_neg hsmall, HeaderTaken]
      have hstep : writeAll (.interrupted :: rest) (le32 json.length) [] =
          writeAll rest (le32 json.length) [] := by
        simp only [writeAll, if_neg hheader]
      constructor
      · intro heq
        by_contra hmore
        have hgrow := writeAll_of_more hmore hheader []
        have hlen := length_le_writeContinued (.interrupted :: rest) json
        rw [← heq, hstep] at hlen
        simp only [List.length_nil] at hlen hgrow
        omega
      · intro hnone
        obtain ⟨rest', hrest'⟩ := writeAll_of_noMore hnone hheader []
        simp only [writeContinued, hstep, hrest']
  | .wrote more :: rest =>
      simp only [frameWrite, hmod, if_neg hsmall, HeaderTaken]
      have hstep : writeAll (.wrote more :: rest) (le32 json.length) [] =
          writeAll rest ((le32 json.length).drop (more + 1))
            ((le32 json.length).take (more + 1)) := by
        simp only [writeAll, if_neg hheader, List.nil_append]
      by_cases hshort : more + 1 < frameHeaderSize
      · -- part of the header is still to be written
        have hleft : (le32 json.length).drop (more + 1) ≠ [] := by
          intro hnil
          have hlen := List.drop_eq_nil_iff.mp hnil
          rw [le32_length] at hlen
          unfold frameHeaderSize at hshort
          omega
        simp only [if_pos hshort]
        constructor
        · intro heq
          by_contra hmore
          have hgrow := writeAll_of_more (fun h => hmore (.inr h)) hleft
            ((le32 json.length).take (more + 1))
          have hlen := length_le_writeContinued (.wrote more :: rest) json
          rw [← heq, hstep] at hlen
          dsimp only at hlen
          omega
        · intro htaken
          have hnone : NoMoreTaken rest :=
            htaken.resolve_left (Nat.not_le.mpr hshort)
          obtain ⟨rest', hrest'⟩ := writeAll_of_noMore hnone hleft
            ((le32 json.length).take (more + 1))
          simp only [writeContinued, hstep, hrest']
      · have hwhole : (le32 json.length).length ≤ more + 1 :=
          Nat.not_lt.mp hshort
        simp only [if_neg hshort, writeContinued, hstep,
          List.take_of_length_le hwhole, List.drop_of_length_le hwhole,
          writeAll_done]
        exact iff_of_true trivial (.inl hwhole)

/-! ## The verdict -/

/-- A write that reports failure has not put the whole frame on the stream. -/
theorem writePayload_short_of_false {writes : List WriteStep}
    {left out sent : Bytes} (h : writePayload writes left out = (false, sent)) :
    sent ≠ out ++ left := by
  induction writes generalizing left out with
  | nil => simp [writePayload] at h
  | cons step rest ih =>
      by_cases hleft : left = []
      · simp [writePayload, hleft] at h
      cases step with
      | wrote more =>
          simp only [writePayload, if_neg hleft] at h
          have hne := ih h
          rwa [List.append_assoc, List.take_append_drop] at hne
      | interrupted =>
          simp only [writePayload, if_neg hleft] at h
          exact ih h
      | failed =>
          simp only [writePayload, if_neg hleft, Prod.mk.injEq, true_and] at h
          subst h
          simpa using hleft

/-- An admissible frame was written exactly when `frame_write` says so. -/
theorem frameWrite_true_iff {writes : List WriteStep} {json : Bytes}
    (hsize : json.length ≤ frameMaxPayload) :
    (frameWrite writes json).1 = true ↔
      (frameWrite writes json).2 = le32 json.length ++ json := by
  have hmod : json.length % 4294967296 = json.length :=
    Nat.mod_eq_of_lt (by unfold frameMaxPayload at hsize; omega)
  constructor
  · intro htrue
    exact frameWrite_eq_of_true hsize (Prod.ext htrue rfl)
  · intro hwhole
    simp only [frameWrite, hmod, if_neg (Nat.not_lt.mpr hsize)] at hwhole ⊢
    cases writes with
    | nil => rfl
    | cons step rest =>
        cases step with
        | interrupted => simp [le32] at hwhole
        | failed => simp [le32] at hwhole
        | wrote more =>
            dsimp only at hwhole ⊢
            by_cases hshort : more + 1 < frameHeaderSize
            · simp only [if_pos hshort] at hwhole
              have hlen := congrArg List.length hwhole
              simp only [List.length_take, List.length_append, le32_length] at hlen
              unfold frameHeaderSize at hshort
              omega
            · simp only [if_neg hshort] at hwhole ⊢
              by_contra hfalse
              exact writePayload_short_of_false
                (Prod.ext (Bool.eq_false_iff.mpr hfalse) rfl) hwhole

/-- A length whose low 32 bits are small gets past the check. -/
theorem frameWrite_refuses_iff {writes : List WriteStep} {json : Bytes} :
    frameWrite writes json = (false, []) ↔
      frameMaxPayload < json.length % 4294967296 ∨ NothingTaken writes := by
  by_cases hmod : frameMaxPayload < json.length % 4294967296
  · simp [frameWrite, hmod]
  simp only [frameWrite, if_neg hmod, or_iff_right hmod]
  cases writes with
  | nil => simp [writePayload, NothingTaken]
  | cons step rest =>
      cases step with
      | interrupted => simp [NothingTaken]
      | failed => simp [NothingTaken]
      | wrote more =>
          refine iff_of_false ?_ (fun h => h)
          intro heq
          dsimp only at heq
          by_cases hshort : more + 1 < frameHeaderSize
          · rw [if_pos hshort] at heq
            simp [le32] at heq
          · -- the header is on the stream before the payload loop starts
            rw [if_neg hshort] at heq
            have hlen := length_le_writePayload rest json
              (le32 (json.length % 4294967296))
            rw [heq] at hlen
            simp at hlen

/-- `frame_write` is all or nothing exactly when the header's one `write` takes
it whole or nothing more of it can be written, and a payload that is too large
is too large modulo 2^32 as well or meets an error at once. -/
theorem frame_write_iff (writes : List WriteStep) (json : Bytes) :
    AllOrNothing writes json ↔
      if json.length ≤ frameMaxPayload then HeaderTaken writes
      else frameMaxPayload < json.length % 4294967296 ∨ NothingTaken writes := by
  by_cases hsize : json.length ≤ frameMaxPayload
  · simp only [if_pos hsize]
    constructor
    · intro h
      exact (frameWrite_continues_iff hsize).mp (h.continues hsize)
    · intro htaken
      exact
        { truthful := by
            rw [frameWrite_true_iff hsize]
            simp only [hsize, true_and]
          refuses := fun hlarge => absurd hsize (Nat.not_le.mpr hlarge)
          continues := fun _ => (frameWrite_continues_iff hsize).mpr htaken }
  · simp only [if_neg hsize]
    constructor
    · intro h
      exact frameWrite_refuses_iff.mp (h.refuses (Nat.not_le.mp hsize))
    · intro hrefused
      have hnothing := frameWrite_refuses_iff.mpr hrefused
      exact
        { truthful := by simp [hnothing, hsize]
          refuses := fun _ => hnothing
          continues := fun h => absurd h hsize }

/-- A header of which the first `write` takes two bytes is not finished, though
the next `write` would take the rest. -/
theorem header_cut_short :
    ¬ AllOrNothing [.wrote 1, .wrote 7] [123, 125] := by
  intro h
  have hcontinued := h.continues (by decide)
  exact absurd hcontinued (by decide)

end StarBridge
