import StarBridge.NativeFrame
import StarBridge.Runs

/-!
# Streams of frames

What successive calls of `frame_read` make of the byte stream that successive
calls of `frame_write` produced.

Without a deadline the reader is the decoder of length-prefixed framing: it
returns the frames one by one, for every fragmentation and EINTR pattern, and
a stream that ends inside a frame yields an error there and no payload.

With a deadline it is not.  A call that runs out of time, or that was only
allowed one read, returns the error and drops the bytes it had stored, so the
next call takes payload bytes for a header.  `DeadlineCovers` is the exact
condition on a call and the schedule before it under which this does not
happen: nothing arrives in the time allowed, or the frame does.
-/

namespace StarBridge

open Descriptor Framing Runs

/-- The wire form of a list of payloads. -/
def wire (frames : List Bytes) : Bytes := encodeAll frameCodec frames

@[simp] theorem wire_nil : wire [] = [] := rfl

theorem wire_cons (p : Bytes) (ps : List Bytes) :
    wire (p :: ps) = encode frameCodec p ++ wire ps := rfl

theorem wire_append (ps qs : List Bytes) :
    wire (ps ++ qs) = wire ps ++ wire qs :=
  encodeAll_append frameCodec ps qs

/-- Every payload is short enough for `frame_write`. -/
def Sendable (frames : List Bytes) : Prop :=
  ∀ p ∈ frames, p.length ≤ frameMaxPayload

instance (frames : List Bytes) : Decidable (Sendable frames) :=
  inferInstanceAs (Decidable (∀ p ∈ frames, p.length ≤ frameMaxPayload))

/-! ## Writing -/

/-- A payload loop that finishes has written the payload, in however many
pieces. -/
theorem writePayload_eq_of_true {writes : List WriteStep} {left out sent : Bytes}
    (h : writePayload writes left out = (true, sent)) : sent = out ++ left := by
  induction writes generalizing left out with
  | nil => simpa [writePayload, eq_comm] using h
  | cons w rest ih =>
      by_cases hleft : left = []
      · simpa [writePayload, hleft, eq_comm] using h
      · cases w with
        | wrote more =>
            simp only [writePayload, if_neg hleft] at h
            rw [ih h, List.append_assoc, List.take_append_drop]
        | interrupted =>
            simp only [writePayload, if_neg hleft] at h
            exact ih h
        | failed => simp [writePayload, hleft] at h

/-- A `frame_write` that reports success has put exactly one frame on the
stream. -/
theorem frameWrite_eq_of_true {writes : List WriteStep} {json sent : Bytes}
    (hsize : json.length ≤ frameMaxPayload)
    (h : frameWrite writes json = (true, sent)) :
    sent = encode frameCodec json := by
  have hmod : json.length % 4294967296 = json.length :=
    Nat.mod_eq_of_lt (by unfold frameMaxPayload at hsize; omega)
  have hframe : encode frameCodec json = le32 json.length ++ json := rfl
  simp only [frameWrite, hmod, if_neg (Nat.not_lt.mpr hsize)] at h
  match writes with
  | [] => exact hframe ▸ writePayload_eq_of_true h
  | .wrote more :: rest =>
      by_cases hshort : more + 1 < frameHeaderSize
      · simp [hshort] at h
      · simp only [if_neg hshort] at h
        exact hframe ▸ writePayload_eq_of_true h
  | .interrupted :: rest => simp at h
  | .failed :: rest => simp at h

/-- Successful writes put the frames on the stream in order. -/
theorem frameWrites_eq_wire {calls : List (Bytes × List WriteStep)}
    (hsize : Sendable (calls.map (·.1))) {stream : Bytes}
    (h : frameWrites calls = some stream) : stream = wire (calls.map (·.1)) := by
  induction calls generalizing stream with
  | nil => simpa [frameWrites, eq_comm] using h
  | cons c rest ih =>
      obtain ⟨json, writes⟩ := c
      have hjson : json.length ≤ frameMaxPayload := hsize json (by simp)
      have hrest : Sendable (rest.map (·.1)) := fun p hp =>
        hsize p (List.mem_cons_of_mem _ hp)
      match hw : frameWrite writes json with
      | (false, _) => simp [frameWrites, hw] at h
      | (true, sent) =>
          simp only [frameWrites, hw, Option.map_eq_some_iff] at h
          obtain ⟨later, hlater, rfl⟩ := h
          rw [frameWrite_eq_of_true hjson hw, ih hrest hlater]
          rfl

/-! ## Reading without a deadline -/

/-- A blocking read stores what the stream still holds of the bytes asked
for. -/
theorem readAllDeadline_blocking (conn : Conn) (harr : OnlyArrivals conn.schedule)
    {deadlineMs : Int} (hblock : deadlineMs < 0) (count : Nat) :
    ∃ left, OnlyArrivals left ∧
      readAllDeadline conn count deadlineMs =
        (.stored (conn.pending.take count) false,
          ⟨conn.pending.drop count, left⟩) := by
  obtain ⟨left, hleft, hrun⟩ :=
    readAll_of_arrivals harr conn.pending [] (Nat.zero_le count)
  exact ⟨left, hleft, by simpa [readAllDeadline, hblock] using hrun⟩

theorem payloadDeadline_blocking {deadlineMs : Int} (hblock : deadlineMs < 0) :
    payloadDeadline deadlineMs < 0 := by
  unfold payloadDeadline
  split <;> omega

/-- Once four header bytes announce an admissible length, the payload decides
the call. -/
theorem frameRead_of_header {conn conn' : Conn} {deadlineMs : Int}
    {header : Bytes} {timedOut : Bool}
    (hhead : readAllDeadline conn frameHeaderSize deadlineMs =
      (.stored header timedOut, conn'))
    (hlen : header.length = frameHeaderSize)
    (hfit : le32Value header ≤ frameMaxPayload) :
    frameRead conn deadlineMs =
      if le32Value header = 0 then (.ok [], conn')
      else framePayload conn' (le32Value header) deadlineMs := by
  have hnonempty : ¬ frameHeaderSize = 0 := by decide
  rw [frameRead, hhead]
  simp only [hlen, if_neg hnonempty, if_neg (Nat.lt_irrefl _),
    if_neg (Nat.not_lt.mpr hfit)]

/-- A short header fails the call. -/
theorem frameRead_of_short_header {conn conn' : Conn} {deadlineMs : Int}
    {header : Bytes} {timedOut : Bool}
    (hhead : readAllDeadline conn frameHeaderSize deadlineMs =
      (.stored header timedOut, conn'))
    (hlen : header.length < frameHeaderSize) :
    ∃ e, frameRead conn deadlineMs = (.error e, conn') := by
  by_cases hzero : header.length = 0
  · simp only [frameRead, hhead, if_pos hzero]
    exact ⟨_, rfl⟩
  · simp only [frameRead, hhead, if_neg hzero, if_pos hlen]
    exact ⟨_, rfl⟩

/-- A payload that is stored whole is returned. -/
theorem framePayload_of_whole {conn conn' : Conn} {len : Nat} {deadlineMs : Int}
    {data : Bytes} {timedOut : Bool}
    (hbody : readAllDeadline conn len (payloadDeadline deadlineMs) =
      (.stored data timedOut, conn'))
    (hlen : data.length = len) (hpos : len ≠ 0) :
    framePayload conn len deadlineMs = (.ok data, conn') := by
  simp only [framePayload, hbody, hlen, if_neg hpos, if_neg (Nat.lt_irrefl _)]

/-- A payload that is stored in part is dropped with an error. -/
theorem framePayload_of_part {conn conn' : Conn} {len : Nat} {deadlineMs : Int}
    {data : Bytes} {timedOut : Bool}
    (hbody : readAllDeadline conn len (payloadDeadline deadlineMs) =
      (.stored data timedOut, conn'))
    (hlen : data.length < len) :
    ∃ e, framePayload conn len deadlineMs = (.error e, conn') := by
  by_cases hzero : data.length = 0
  · simp only [framePayload, hbody, if_pos hzero]
    exact ⟨_, rfl⟩
  · simp only [framePayload, hbody, if_neg hzero, if_pos hlen]
    exact ⟨_, rfl⟩

/-- **A blocking `frame_read` is the decoder of the framing.**  A whole frame at
the front of the stream is returned, and it alone is used up. -/
theorem frameRead_blocking_ok (conn : Conn) (harr : OnlyArrivals conn.schedule)
    {deadlineMs : Int} (hblock : deadlineMs < 0) {p rest : Bytes}
    (hdecode : decodeOne frameCodec conn.pending = some (p, rest)) :
    ∃ left, OnlyArrivals left ∧
      frameRead conn deadlineMs = (.ok p, ⟨rest, left⟩) := by
  obtain ⟨left, hleft, hhead⟩ :=
    readAllDeadline_blocking conn harr hblock frameHeaderSize
  obtain ⟨hlong, hfit, hbodylen, rfl, rfl⟩ :
      frameHeaderSize ≤ conn.pending.length ∧
        le32Value (conn.pending.take frameHeaderSize) ≤ frameMaxPayload ∧
        le32Value (conn.pending.take frameHeaderSize) ≤
          (conn.pending.drop frameHeaderSize).length ∧
        (conn.pending.drop frameHeaderSize).take
          (le32Value (conn.pending.take frameHeaderSize)) = p ∧
        (conn.pending.drop frameHeaderSize).drop
          (le32Value (conn.pending.take frameHeaderSize)) = rest :=
    decodeOne_eq_some frameCodec hdecode
  have hlen : (conn.pending.take frameHeaderSize).length = frameHeaderSize := by
    rw [List.length_take]
    exact Nat.min_eq_left hlong
  rw [frameRead_of_header hhead hlen hfit]
  by_cases hzero : le32Value (conn.pending.take frameHeaderSize) = 0
  · exact ⟨left, hleft, by simp [hzero]⟩
  · obtain ⟨left', hleft', hbody⟩ :=
      readAllDeadline_blocking ⟨conn.pending.drop frameHeaderSize, left⟩
        hleft (payloadDeadline_blocking hblock)
        (le32Value (conn.pending.take frameHeaderSize))
    refine ⟨left', hleft', ?_⟩
    rw [if_neg hzero]
    exact framePayload_of_whole hbody
      (by rw [List.length_take]; exact Nat.min_eq_left hbodylen) hzero

/-- A blocking `frame_read` fails on a stream that does not decode. -/
theorem frameRead_blocking_error (conn : Conn)
    (harr : OnlyArrivals conn.schedule) {deadlineMs : Int}
    (hblock : deadlineMs < 0) (hdecode : decodeOne frameCodec conn.pending = none) :
    ∃ e conn', frameRead conn deadlineMs = (.error e, conn') := by
  obtain ⟨left, hleft, hhead⟩ :=
    readAllDeadline_blocking conn harr hblock frameHeaderSize
  by_cases hlong : conn.pending.length < frameHeaderSize
  · obtain ⟨e, he⟩ := frameRead_of_short_header hhead
      (by rw [List.length_take]; omega)
    exact ⟨e, _, he⟩
  have hlen : (conn.pending.take frameHeaderSize).length = frameHeaderSize := by
    rw [List.length_take]
    omega
  by_cases hfit : le32Value (conn.pending.take frameHeaderSize) ≤ frameMaxPayload
  · have hbodylen : (conn.pending.drop frameHeaderSize).length <
        le32Value (conn.pending.take frameHeaderSize) :=
      body_short_of_decodeOne_none frameCodec hdecode (Nat.le_of_not_lt hlong) hfit
    rw [frameRead_of_header hhead hlen hfit, if_neg (by omega)]
    obtain ⟨left', -, hbody⟩ :=
      readAllDeadline_blocking ⟨conn.pending.drop frameHeaderSize, left⟩
        hleft (payloadDeadline_blocking hblock)
        (le32Value (conn.pending.take frameHeaderSize))
    obtain ⟨e, he⟩ := framePayload_of_part hbody
      (Nat.lt_of_le_of_lt (List.length_take_le' _ _) hbodylen)
    exact ⟨e, _, he⟩
  · refine ⟨.payloadTooLarge, ⟨conn.pending.drop frameHeaderSize, left⟩, ?_⟩
    have hnonempty : ¬ frameHeaderSize = 0 := by decide
    rw [frameRead, hhead]
    simp only [hlen, if_neg hnonempty, if_neg (Nat.lt_irrefl _),
      if_pos (Nat.lt_of_not_le hfit)]

/-- A closed stream yields the end-of-stream error. -/
theorem frameRead_blocking_nil {steps : List IoStep} (harr : OnlyArrivals steps)
    {deadlineMs : Int} (hblock : deadlineMs < 0) :
    ∃ left, frameRead ⟨[], steps⟩ deadlineMs = (.error .readError, ⟨[], left⟩) := by
  obtain ⟨left, -, hhead⟩ :=
    readAllDeadline_blocking ⟨[], steps⟩ harr hblock frameHeaderSize
  exact ⟨left, by simp [frameRead, hhead]⟩

/-- Blocking calls return the frames at the front of a stream one by one. -/
theorem frameReads_blocking {frames : List Bytes} (hsize : Sendable frames)
    {steps : List IoStep} (harr : OnlyArrivals steps) {deadlines : List Int}
    (hblock : ∀ d ∈ deadlines, d < 0) (hcount : deadlines.length = frames.length)
    (tail : Bytes) :
    ∃ left, OnlyArrivals left ∧
      frameReads ⟨wire frames ++ tail, steps⟩ deadlines =
        (frames.map .ok, ⟨tail, left⟩) := by
  induction frames generalizing steps deadlines with
  | nil =>
      obtain rfl := List.length_eq_zero_iff.mp hcount
      exact ⟨steps, harr, by simp [frameReads]⟩
  | cons p ps ih =>
      obtain ⟨d, ds, rfl⟩ := List.exists_cons_of_length_eq_add_one hcount
      have hdecode : decodeOne frameCodec (wire (p :: ps) ++ tail) =
          some (p, wire ps ++ tail) := by
        rw [wire_cons, List.append_assoc]
        exact decodeOne_encode_append frameCodec (hsize p List.mem_cons_self) _
      obtain ⟨left, hleft, hread⟩ := frameRead_blocking_ok
        ⟨wire (p :: ps) ++ tail, steps⟩ harr
        (hblock d List.mem_cons_self) hdecode
      obtain ⟨left', hleft', hrest⟩ :=
        ih (fun q hq => hsize q (List.mem_cons_of_mem _ hq)) hleft
          (fun e he => hblock e (List.mem_cons_of_mem _ he))
          (by simpa using hcount)
      exact ⟨left', hleft', by simp [frameReads, hread, hrest]⟩

/-- Calls in two groups. -/
theorem frameReads_append (conn : Conn) (before after : List Int) :
    frameReads conn (before ++ after) =
      ((frameReads conn before).1 ++
          (frameReads (frameReads conn before).2 after).1,
        (frameReads (frameReads conn before).2 after).2) := by
  induction before generalizing conn with
  | nil => rfl
  | cons d ds ih => simp [frameReads, ih]

/-- **Frame codec round trip.**  Whatever successive `frame_write` calls sent
comes back from successive blocking `frame_read` calls, for every
fragmentation and EINTR pattern, followed by the end-of-stream error.  A stream
cut inside a frame yields the frames before it and then an error. -/
theorem frame_codec_round_trip {calls : List (Bytes × List WriteStep)}
    (hsize : Sendable (calls.map (·.1))) {stream : Bytes}
    (hwrite : frameWrites calls = some stream) {steps : List IoStep}
    (harr : OnlyArrivals steps) {deadlines : List Int}
    (hblock : ∀ d ∈ deadlines, d < 0) :
    (deadlines.length = calls.length + 1 →
      (frameReads ⟨stream, steps⟩ deadlines).1 =
        (calls.map (·.1)).map .ok ++ [.error .readError]) ∧
    (∀ before p after cut, calls.map (·.1) = before ++ p :: after →
      0 < cut → cut < frameHeaderSize + p.length →
      deadlines.length = before.length + 1 →
      ∃ e, (frameReads ⟨stream.take ((wire before).length + cut), steps⟩
        deadlines).1 = before.map .ok ++ [.error e]) := by
  obtain rfl := frameWrites_eq_wire hsize hwrite
  refine ⟨fun hcount => ?_, fun before p after cut hsplit _ hcut hcount => ?_⟩
  · obtain ⟨front, d, rfl⟩ : ∃ front d, deadlines = front ++ [d] :=
      ⟨_, _, (List.dropLast_concat_getLast
        (List.ne_nil_of_length_eq_add_one hcount)).symm⟩
    obtain ⟨left, hleft, hreads⟩ := frameReads_blocking hsize harr
      (fun e he => hblock e (by simp [he]) : ∀ e ∈ front, e < 0)
      (by simpa using hcount) []
    obtain ⟨left', hend⟩ := frameRead_blocking_nil hleft
      (hblock d (by simp))
    rw [List.append_nil] at hreads
    simp [frameReads_append, hreads, frameReads, hend]
  · obtain ⟨front, d, rfl⟩ : ∃ front d, deadlines = front ++ [d] :=
      ⟨_, _, (List.dropLast_concat_getLast
        (List.ne_nil_of_length_eq_add_one hcount)).symm⟩
    have hp : p.length ≤ frameMaxPayload := hsize p (by rw [hsplit]; simp)
    have hbefore : Sendable before := fun q hq =>
      hsize q (by rw [hsplit]; simp [hq])
    have hstream : (wire (calls.map (·.1))).take ((wire before).length + cut) =
        wire before ++ (encode frameCodec p).take cut := by
      have hin : cut ≤ (encode frameCodec p).length := by
        rw [encode_length]
        exact Nat.le_of_lt hcut
      rw [hsplit, wire_append, wire_cons, List.take_length_add_append,
        List.take_append_of_le_length hin]
    obtain ⟨left, hleft, hreads⟩ := frameReads_blocking hbefore harr
      (fun e he => hblock e (by simp [he]) : ∀ e ∈ front, e < 0)
      (by simpa using hcount) ((encode frameCodec p).take cut)
    obtain ⟨e, conn', hend⟩ := frameRead_blocking_error
      ⟨(encode frameCodec p).take cut, left⟩ hleft
      (hblock d (by simp)) (decodeOne_of_cut frameCodec hp hcut)
    exact ⟨e, by simp [hstream, frameReads_append, hreads, frameReads, hend]⟩

/-- An empty payload and a two-byte one, written in pieces and read one byte at
a time around interrupted reads. -/
theorem frame_codec_round_trip_two :
    (frameReads ⟨[0, 0, 0, 0, 2, 0, 0, 0, 123, 125],
        [.ready (.bytes 0), .ready .interrupted, .ready (.bytes 1)]⟩
      [-1, -1, -1]).1 = [.ok [], .ok [123, 125], .error .readError] :=
  (frame_codec_round_trip (by decide)
    (by decide : frameWrites [([], []), ([123, 125], [.wrote 3, .wrote 0])] = some _)
    (by decide) (by decide)).1 rfl

/-! ## Reading under deadlines -/

/-- The length announced by the header at the front of the stream. -/
def announcedLength (conn : Conn) : Nat :=
  le32Value (conn.pending.take frameHeaderSize)

/-- How many bytes the schedule brings to a poll loop with this deadline. -/
def arrivingInTime (deadlineMs : Int) (steps : List IoStep) : Nat :=
  arrivingWithin (readBudget deadlineMs.toNat deadlineMs.toNat) steps

/-- The deadline is long enough for the frame at the front of the stream, or
the stream is quiet for the whole of it. -/
def DeadlineCovers (conn : Conn) (deadlineMs : Int) : Prop :=
  conn.pending = [] ∨ deadlineMs < 0 ∨
    arrivingInTime deadlineMs conn.schedule = 0 ∨
    (frameHeaderSize ≤ arrivingInTime deadlineMs conn.schedule ∧
      announcedLength conn ≤ arrivingInTime (payloadDeadline deadlineMs)
        (scheduleAfter frameHeaderSize conn.schedule))

instance (conn : Conn) (deadlineMs : Int) :
    Decidable (DeadlineCovers conn deadlineMs) :=
  inferInstanceAs (Decidable (_ ∨ _ ∨ _ ∨ _))

/-- The stream holds these frames, and the descriptor does not fail. -/
def Carries (frames : List Bytes) (conn : Conn) : Prop :=
  conn.pending = wire frames ∧ OnlyArrivals conn.schedule

/-- The call returns the first of the frames and uses up just that one, or it
fails and uses up nothing. -/
def KeepsFrames (frames : List Bytes) (conn : Conn) (deadlineMs : Int) : Prop :=
  match frameRead conn deadlineMs with
  | (.ok p, conn') => ∃ ps, frames = p :: ps ∧ conn'.pending = wire ps
  | (.error _, conn') => conn'.pending = wire frames

/-- A call on a closed stream fails, and there is nothing to lose. -/
theorem frameRead_closed {conn : Conn} (hcarries : Carries [] conn)
    (deadlineMs : Int) :
    ∃ e left, frameRead conn deadlineMs = (.error e, ⟨[], left⟩) := by
  obtain ⟨pending, steps⟩ := conn
  obtain ⟨rfl, harr⟩ : pending = [] ∧ OnlyArrivals steps := hcarries
  by_cases hblock : deadlineMs < 0
  · obtain ⟨left, hread⟩ := frameRead_blocking_nil harr hblock
    exact ⟨_, left, hread⟩
  · obtain ⟨outcome, left, hpoll, hout⟩ :=
      pollLoop_closed frameHeaderSize deadlineMs.toNat steps deadlineMs.toNat
    have hread : readAllDeadline ⟨[], steps⟩ frameHeaderSize deadlineMs =
        (outcome, ⟨[], left⟩) := by
      simpa [readAllDeadline, hblock] using hpoll
    rcases hout with rfl | ⟨timedOut, rfl⟩
    · simp only [frameRead, hread]
      exact ⟨_, left, rfl⟩
    · obtain ⟨e, he⟩ := frameRead_of_short_header hread (by decide)
      exact ⟨e, left, he⟩

/-- A polling read, in terms of the bytes that arrive in time. -/
theorem readAllDeadline_polling (conn : Conn) (harr : OnlyArrivals conn.schedule)
    {deadlineMs : Int} (hpoll : ¬ deadlineMs < 0) (count : Nat)
    (hmore : count ≤ conn.pending.length) :
    ∃ timedOut left, OnlyArrivals left ∧
      readAllDeadline conn count deadlineMs =
        (.stored (conn.pending.take
            (min count (arrivingInTime deadlineMs conn.schedule))) timedOut,
          ⟨conn.pending.drop
            (min count (arrivingInTime deadlineMs conn.schedule)), left⟩) ∧
      (count ≤ arrivingInTime deadlineMs conn.schedule →
        left = scheduleAfter count conn.schedule) := by
  obtain ⟨data, timedOut, left, hrun, hserved⟩ :=
    pollLoop_of_arrivals count deadlineMs.toNat harr
      deadlineMs.toNat conn.pending [] (by simpa using hmore)
  obtain ⟨pending', steps'⟩ := left
  obtain rfl := hserved.data_eq
  obtain rfl : pending' = _ := hserved.pending_eq
  refine ⟨timedOut, steps', hserved.arrivals, ?_, fun hw => ?_⟩
  · simpa [readAllDeadline, hpoll, arrivingInTime] using hrun
  · exact (hserved.whole (by simpa [arrivingInTime] using hw)).2

/-- What a failing call that used up `n` bytes means for the frames. -/
theorem keepsFrames_of_error {frames : List Bytes} {conn conn' : Conn}
    {deadlineMs : Int} {e : FrameError} {n : Nat}
    (hpending : conn.pending = wire frames)
    (hread : frameRead conn deadlineMs = (.error e, conn'))
    (hused : conn'.pending = conn.pending.drop n) (hn : n ≤ conn.pending.length) :
    KeepsFrames frames conn deadlineMs ↔ n = 0 := by
  rw [KeepsFrames, hread, ← hpending]
  constructor
  · intro h
    have hlen := congrArg List.length (hused.symm.trans h)
    rw [List.length_drop] at hlen
    omega
  · rintro rfl
    exact hused

/-- A polling call on a stream with a frame at its front. -/
theorem keepsFrames_polling_iff {p : Bytes} {ps : List Bytes}
    (hp : p.length ≤ frameMaxPayload) {conn : Conn}
    (hcarries : Carries (p :: ps) conn) {deadlineMs : Int}
    (hpoll : ¬ deadlineMs < 0) :
    KeepsFrames (p :: ps) conn deadlineMs ↔
      arrivingInTime deadlineMs conn.schedule = 0 ∨
        (frameHeaderSize ≤ arrivingInTime deadlineMs conn.schedule ∧
          p.length ≤ arrivingInTime (payloadDeadline deadlineMs)
            (scheduleAfter frameHeaderSize conn.schedule)) := by
  obtain ⟨hpending, harr⟩ := hcarries
  have hfront : conn.pending.take frameHeaderSize = le32 p.length := by
    rw [hpending]
    exact take_width_encode_append frameCodec p (wire ps)
  have hback : conn.pending.drop frameHeaderSize = p ++ wire ps := by
    rw [hpending]
    exact drop_width_encode_append frameCodec p (wire ps)
  have hlong : conn.pending.length =
      frameHeaderSize + p.length + (wire ps).length := by
    rw [hpending, wire_cons, List.length_append, encode_length]
    rfl
  obtain ⟨timedOut, left, hleft, hhead, hsched⟩ :=
    readAllDeadline_polling conn harr hpoll frameHeaderSize (by omega)
  by_cases hwhole : frameHeaderSize ≤ arrivingInTime deadlineMs conn.schedule
  · -- the header arrives; the payload decides
    have hpos : arrivingInTime deadlineMs conn.schedule ≠ 0 := by
      unfold frameHeaderSize at hwhole
      omega
    obtain rfl := hsched hwhole
    rw [Nat.min_eq_left hwhole, hfront, hback] at hhead
    have hvalue : le32Value (le32 p.length) = p.length :=
      frameCodec.read_write _ hp
    have hcall := frameRead_of_header hhead rfl (hvalue.symm ▸ hp)
    rw [hvalue] at hcall
    by_cases hempty : p.length = 0
    · obtain rfl := List.length_eq_zero_iff.mp hempty
      rw [if_pos hempty] at hcall
      simp [KeepsFrames, hcall, hpos, hwhole]
    · rw [if_neg hempty] at hcall
      have hpoll' : ¬ payloadDeadline deadlineMs < 0 := by
        unfold payloadDeadline
        split <;> omega
      obtain ⟨timedOut', left', -, hbody, -⟩ := readAllDeadline_polling
        ⟨p ++ wire ps, scheduleAfter frameHeaderSize conn.schedule⟩
        hleft hpoll' p.length (by simp)
      dsimp only at hbody
      by_cases hfit : p.length ≤ arrivingInTime (payloadDeadline deadlineMs)
          (scheduleAfter frameHeaderSize conn.schedule)
      · rw [Nat.min_eq_left hfit, List.take_left, List.drop_left] at hbody
        rw [framePayload_of_whole hbody rfl hempty] at hcall
        simp [KeepsFrames, hcall, hwhole, hfit]
      · rw [Nat.min_eq_right (by omega)] at hbody
        obtain ⟨e, he⟩ := framePayload_of_part hbody
          (by rw [List.length_take]; omega)
        rw [he] at hcall
        rw [keepsFrames_of_error hpending hcall
          (n := frameHeaderSize + arrivingInTime (payloadDeadline deadlineMs)
            (scheduleAfter frameHeaderSize conn.schedule))
          (by rw [← List.drop_drop, hback]) (by omega)]
        simp only [hpos, hfit, and_false, or_false, iff_false]
        unfold frameHeaderSize
        omega
  · rw [Nat.min_eq_right (by omega)] at hhead
    obtain ⟨e, he⟩ := frameRead_of_short_header hhead
      (by rw [List.length_take]; omega)
    rw [keepsFrames_of_error hpending he rfl (by omega)]
    simp [hwhole]

/-- **One call, exactly.**  On a stream of frames a call keeps them in step iff
its deadline covers the frame at the front. -/
theorem keepsFrames_iff {frames : List Bytes} (hsize : Sendable frames)
    {conn : Conn} (hcarries : Carries frames conn) (deadlineMs : Int) :
    KeepsFrames frames conn deadlineMs ↔ DeadlineCovers conn deadlineMs := by
  cases frames with
  | nil =>
      obtain ⟨e, left, hread⟩ := frameRead_closed hcarries deadlineMs
      have hnil : conn.pending = [] := hcarries.1
      simp [KeepsFrames, DeadlineCovers, hread, hnil]
  | cons p ps =>
      have hp : p.length ≤ frameMaxPayload := hsize p List.mem_cons_self
      have hpending : conn.pending = encode frameCodec p ++ wire ps :=
        hcarries.1
      have hannounced : announcedLength conn = p.length := by
        rw [announcedLength, hpending]
        exact (congrArg le32Value
          (take_width_encode_append frameCodec p (wire ps))).trans
          (frameCodec.read_write _ hp)
      have hnonempty : conn.pending ≠ [] := by
        rw [hpending]
        exact List.cons_ne_nil _ _
      by_cases hblock : deadlineMs < 0
      · obtain ⟨left, -, hread⟩ := frameRead_blocking_ok conn hcarries.2 hblock
          (hpending ▸ decodeOne_encode_append frameCodec hp (wire ps))
        simp [KeepsFrames, DeadlineCovers, hread, hblock]
      · rw [keepsFrames_polling_iff hp hcarries hblock, DeadlineCovers,
          hannounced]
        simp [hnonempty, hblock]

/-- The frames a list of results returned. -/
def payloads (results : List FrameResult) : List Bytes :=
  results.filterMap Except.toOption

/-- The descriptor after a call. -/
def afterCall (conn : Conn) (deadlineMs : Int) : Conn :=
  (frameRead conn deadlineMs).2

theorem frameReads_snd (conn : Conn) (deadlines : List Int) :
    (frameReads conn deadlines).2 = stateAfter afterCall conn deadlines := by
  induction deadlines generalizing conn with
  | nil => rfl
  | cons d ds ih => simp [frameReads, ih, afterCall]

/-- Calls whose deadlines cover their frames return a prefix of what was sent,
and leave the rest on the stream. -/
theorem frameReads_covered {frames : List Bytes} (hsize : Sendable frames)
    {conn : Conn} (hcarries : Carries frames conn) {deadlines : List Int}
    (hcover : AllSteps afterCall DeadlineCovers conn deadlines) :
    ∃ rest, frames = payloads (frameReads conn deadlines).1 ++ rest ∧
      Carries rest (frameReads conn deadlines).2 := by
  induction deadlines generalizing frames conn with
  | nil => exact ⟨frames, rfl, hcarries⟩
  | cons d ds ih =>
      obtain ⟨hd, hds⟩ := hcover
      have hkeeps := (keepsFrames_iff hsize hcarries d).mpr hd
      have harr := hcarries.2.suffix (frameRead_schedule_suffix conn d)
      simp only [KeepsFrames] at hkeeps
      simp only [afterCall] at hds
      match hread : frameRead conn d with
      | (.ok p, conn') =>
          rw [hread] at hkeeps harr hds
          obtain ⟨ps, rfl, hpending⟩ := hkeeps
          obtain ⟨rest, hps, hrest⟩ := ih
            (fun q hq => hsize q (List.mem_cons_of_mem _ hq)) ⟨hpending, harr⟩ hds
          refine ⟨rest, ?_, by simpa [frameReads, hread] using hrest⟩
          simp [frameReads, hread, payloads, Except.toOption] at hps ⊢
          exact hps
      | (.error e, conn') =>
          rw [hread] at hkeeps harr hds
          obtain ⟨rest, hps, hrest⟩ := ih hsize ⟨hkeeps, harr⟩ hds
          refine ⟨rest, ?_, by simpa [frameReads, hread] using hrest⟩
          simp [frameReads, hread, payloads, Except.toOption] at hps ⊢
          exact hps

/-- What the calls on a stream of frames owe to their callers: the payloads
returned are a prefix of those sent, and a call that times out loses no byte. -/
def FramesInStep (frames : List Bytes) (steps : List IoStep)
    (deadlines : List Int) : Prop :=
  (payloads (frameReads ⟨wire frames, steps⟩ deadlines).1) <+: frames ∧
    ∀ before d after, deadlines = before ++ d :: after →
      let conn := (frameReads ⟨wire frames, steps⟩ before).2
      (frameRead conn d).1 = .error .timeout →
        (frameRead conn d).2.pending = conn.pending

/-- **Frames stay in step under deadlines that cover them.**  In every run of
calls each of whose deadlines is long enough for the frame it meets, or finds
the stream quiet, the payloads come back in order and unaltered and no byte is
lost. -/
theorem frames_in_step_of_covered {frames : List Bytes} (hsize : Sendable frames)
    {steps : List IoStep} (harr : OnlyArrivals steps) {deadlines : List Int}
    (hcover : AllSteps afterCall DeadlineCovers ⟨wire frames, steps⟩ deadlines) :
    FramesInStep frames steps deadlines := by
  have hstart : Carries frames ⟨wire frames, steps⟩ := ⟨rfl, harr⟩
  refine ⟨?_, ?_⟩
  · obtain ⟨rest, hframes, -⟩ := frameReads_covered hsize hstart hcover
    exact ⟨rest, hframes.symm⟩
  · rintro before d after rfl conn htimeout
    obtain ⟨rest, hframes, hrest⟩ :=
      frameReads_covered hsize hstart (AllSteps.append_iff.mp hcover).1
    have hd := hcover.at_step
    rw [← frameReads_snd] at hd
    have hsend : Sendable rest := fun q hq =>
      hsize q (by rw [hframes]; exact List.mem_append_right _ hq)
    have hkeeps := (keepsFrames_iff hsend hrest d).mpr hd
    rw [KeepsFrames] at hkeeps
    match hread : frameRead conn d with
    | (.ok p, conn') => simp [hread] at htimeout
    | (.error e, conn') =>
        rw [show frameRead (frameReads ⟨wire frames, steps⟩ before).2 d =
          (.error e, conn') from hread] at hkeeps
        exact hkeeps.trans hrest.1.symm

/-- One call finds the stream quiet, the next has time for the frame. -/
theorem frames_in_step_of_covered_two :
    FramesInStep [[123, 125]]
      [.quiet, .ready (.bytes 3), .pollInterrupted, .ready (.bytes 1)]
      [100, 100] :=
  frames_in_step_of_covered (by decide) (by decide) (by
    simp only [AllSteps]
    decide)

/-- Half of a header arrives before a 100 ms deadline: the call times out and
drops those two bytes. -/
theorem frames_in_step_fails_on_half_header :
    ¬ ∀ frames, Sendable frames → ∀ steps, OnlyArrivals steps →
      ∀ deadlines, FramesInStep frames steps deadlines := by
  intro h
  have hkept := (h [[123, 125]] (by decide)
    [.ready (.bytes 1), .quiet, .ready (.bytes 3)] (by decide) [100]).2
    [] 100 [] rfl (by rfl)
  revert hkept
  decide

end StarBridge
