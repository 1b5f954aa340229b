import StarBridge.StreamSequence

/-!
# The stream on a slow socket

The emitters of a stream hand each event to one `write` and do not look at what
became of it: they go on to the heartbeat, advance their counters and return
true.  A client that reads slowly makes such a `write` take a part of its bytes,
and the next event is written behind that part.

`StreamSocket.pieces` is what each `write` put on the wire.  `whole_events_iff`
says for which calls and which schedules nothing but whole units ever gets there
and every call that returns true has written its event.
-/

namespace StarBridge

open CText Runs

/-! ## The socket -/

/-- The head of the response. -/
def streamHead : Bytes :=
  lit "HTTP/1.1 200 OK\r\nContent-Type: text/event-stream\r\nCache-Control: no-cache\r\nConnection: keep-alive\r\nAccess-Control-Allow-Origin: *\r\n\r\n"

def heartbeatComment : Bytes := lit ":heartbeat\n\n"

def doneMarker : Bytes := lit "[DONE]\n"

/-- The bytes of a write. -/
def SseWrite.bytes : SseWrite → Bytes
  | .headers => streamHead
  | .heartbeat => heartbeatComment
  | .event name data => sseFrame name data
  | .cut frame => frame

/-- The emitters, `responses_stream_emit_created` among them. -/
inductive EmitCall
  | created (now : Nat)
  | call (c : StreamCall)
  deriving DecidableEq, Repr

namespace EmitCall

/-- The value a call returns, and the stream after it, where its writes go out. -/
def emit (s : ResponsesStreamState) : EmitCall → Bool × ResponsesStreamState
  | created now => (true, responsesStreamEmitCreated now s)
  | call c => c.emit s

/-- The marker behind the last event of a response. -/
def marker : EmitCall → List Bytes
  | call (.completed _ _) => [doneMarker]
  | _ => []

/-- What a call hands to `write`, one after the other. -/
def units (s : ResponsesStreamState) (c : EmitCall) : List Bytes :=
  ((c.emit s).2.wire.drop s.wire.length).map SseWrite.bytes ++ c.marker

/-- The event a call writes, if it writes one, as it is before any buffer cuts it. -/
def event (s : ResponsesStreamState) : EmitCall → Option (Bytes × Bytes)
  | created now => some (lit "response.created", createdData s.id s.model now)
  | call c => c.event s

/-- The buffer that cuts the data of a call. -/
def room : EmitCall → Nat
  | created _ => 131072
  | call c => c.room

end EmitCall

/-- A stream, and what each `write` put on the wire. -/
structure StreamSocket where
  stream : ResponsesStreamState
  pieces : List Bytes
  deriving DecidableEq, Repr

/-- What writes put on the wire, the first of them being the `n`-th of the socket.
The `n`-th write takes at most `takes n` bytes, and none when it fails. -/
def putOn (takes : Nat → Nat) : Nat → List Bytes → List Bytes
  | _, [] => []
  | n, unit :: units => unit.take (takes n) :: putOn takes (n + 1) units

namespace StreamSocket

/-- `responses_stream_init`. -/
def fresh (id model : Bytes) : StreamSocket := ⟨responsesStreamInit id model, []⟩

/-- A call of an emitter: the value it returns, and the socket after it. -/
def emit (takes : Nat → Nat) (k : StreamSocket) (c : EmitCall) : Bool × StreamSocket :=
  let put := fun units => k.pieces ++ putOn takes k.pieces.length units
  match c, k.stream.headersSent with
  | .created _, false =>
      -- only the write of the head is looked at
      if takes k.pieces.length < streamHead.length then
        (false, { k with pieces := put [streamHead] })
      else ((c.emit k.stream).1, ⟨(c.emit k.stream).2, put (c.units k.stream)⟩)
  | _, _ => ((c.emit k.stream).1, ⟨(c.emit k.stream).2, put (c.units k.stream)⟩)

def step (takes : Nat → Nat) (k : StreamSocket) (c : EmitCall) : StreamSocket :=
  (k.emit takes c).2

/-- What a call put on the wire, write by write. -/
def wrote (takes : Nat → Nat) (k : StreamSocket) (c : EmitCall) : List Bytes :=
  (k.step takes c).pieces.drop k.pieces.length

end StreamSocket

/-! ## Whole events -/

/-- What may stand behind the head: complete events, heartbeats and the marker. -/
inductive IsUnit : Bytes → Prop
  | event (name data : Bytes) : IsUnit (sseFrame name data)
  | heartbeat : IsUnit heartbeatComment
  | done : IsUnit doneMarker

/-- What is on the wire, without the writes that put nothing there. -/
def onWire (pieces : List Bytes) : List Bytes := pieces.filter fun p => p ≠ []

/-- The head, and whole units behind it, or nothing at all. -/
def WholeUnits (pieces : List Bytes) : Prop :=
  onWire pieces = [] ∨ ∃ units, onWire pieces = streamHead :: units ∧ ∀ u ∈ units, IsUnit u

/-- A call that returns true has written its complete event. -/
def WritesWhole (takes : Nat → Nat) (k : StreamSocket) (c : EmitCall) : Prop :=
  (k.emit takes c).1 = true →
    ∃ e ∈ c.event k.stream, sseFrame e.1 e.2 ∈ k.wrote takes c

/-- Calls write whole events: each that returns true has written its own, and
nothing else is on the wire. -/
structure WholeEvents (takes : Nat → Nat) (k : StreamSocket) (calls : List EmitCall) : Prop where
  returns : AllSteps (StreamSocket.step takes) (WritesWhole takes) k calls
  wire : WholeUnits (stateAfter (StreamSocket.step takes) k calls).pieces

/-! ## The condition -/

/-- Every one of these writes takes all its bytes, or none. -/
def AllOrNone (takes : Nat → Nat) : Nat → List Bytes → Prop
  | _, [] => True
  | n, unit :: units => (takes n = 0 ∨ unit.length ≤ takes n) ∧ AllOrNone takes (n + 1) units

/-- What a call writes behind its event. -/
def EmitCall.trailer : EmitCall → List Bytes
  | created _ => [heartbeatComment]
  | call c => c.beats.map SseWrite.bytes ++ (call c).marker

/-- The event of a call, if it has one to write, fits its buffers and is the
`n`-th write, which takes all of it; what is behind it is taken whole or not at
all. -/
def EmitCall.TakenWhole (takes : Nat → Nat) (s : ResponsesStreamState) (n : Nat) (c : EmitCall) :
    Prop :=
  ∀ e ∈ c.event s, e.2.length < c.room ∧ (sseFrame e.1 e.2).length ≤ takes n ∧
    AllOrNone takes (n + 1) c.trailer

/-- A call that a slow client does not disturb: the head has been taken, or is
taken now, or the call ends with the head not taken at all; and the event is
taken whole. -/
def Undisturbed (takes : Nat → Nat) (k : StreamSocket) (c : EmitCall) : Prop :=
  match c with
  | .created _ =>
      if k.stream.headersSent then c.TakenWhole takes k.stream k.pieces.length
      else takes k.pieces.length = 0 ∨
        streamHead.length ≤ takes k.pieces.length ∧
          c.TakenWhole takes k.stream (k.pieces.length + 1)
  | .call call =>
      (call.event k.stream).isSome → k.stream.headersSent = true ∧
        c.TakenWhole takes k.stream k.pieces.length

/-! ## How units begin -/

theorem head_sseFrame (name data : Bytes) : (sseFrame name data).head? = some 101 := rfl

theorem IsUnit.head {u : Bytes} (h : IsUnit u) :
    u.head? = some 101 ∨ u = heartbeatComment ∨ u = doneMarker := by
  cases h with
  | event name data => exact Or.inl (head_sseFrame name data)
  | heartbeat => exact Or.inr (Or.inl rfl)
  | done => exact Or.inr (Or.inr rfl)

/-- A heartbeat or a marker. -/
def IsComment (u : Bytes) : Prop := u = heartbeatComment ∨ u = doneMarker

theorem IsComment.isUnit {u : Bytes} (h : IsComment u) : IsUnit u := by
  rcases h with rfl | rfl
  · exact .heartbeat
  · exact .done

theorem IsComment.head {u : Bytes} (h : IsComment u) :
    u.head? = some 58 ∨ u.head? = some 91 := by
  rcases h with rfl | rfl
  · exact Or.inl rfl
  · exact Or.inr rfl

theorem IsComment.ne_nil {u : Bytes} (h : IsComment u) : u ≠ [] := by
  rintro rfl
  rcases h.head with hhead | hhead
  all_goals cases hhead

theorem head_take {u : Bytes} {n : Nat} (h : u.take n ≠ []) : (u.take n).head? = u.head? := by
  cases u with
  | nil => rw [List.take_nil]
  | cons c u =>
      cases n with
      | zero => exact absurd rfl h
      | succ n => rfl

/-- A part of a heartbeat or a marker is a unit only if it is all of it. -/
theorem IsComment.take_isUnit {u : Bytes} (h : IsComment u) {n : Nat} (hunit : IsUnit (u.take n)) :
    u.length ≤ n := by
  have hne : u.take n ≠ [] := by
    intro hnil
    rw [hnil] at hunit
    rcases hunit.head with hhead | hhead | hhead
    all_goals cases hhead
  have hsame := head_take hne
  have hwhole : u.take n = u := by
    rcases hunit.head with hhead | hhead | hhead
    · rw [hsame] at hhead
      rcases h.head with hcomment | hcomment
      all_goals
        rw [hcomment] at hhead
        cases hhead
    · rw [hhead] at hsame ⊢
      rcases h with rfl | rfl
      · rfl
      · cases hsame
    · rw [hhead] at hsame ⊢
      rcases h with rfl | rfl
      · cases hsame
      · rfl
  have hlen := congrArg List.length hwhole
  rw [List.length_take] at hlen
  omega

/-! ## Writes -/

theorem mem_putOn {takes : Nat → Nat} {n : Nat} {units : List Bytes} {piece : Bytes}
    (h : piece ∈ putOn takes n units) : ∃ u ∈ units, ∃ m, piece = u.take m := by
  induction units generalizing n with
  | nil => cases h
  | cons unit units ih =>
      rcases List.mem_cons.mp h with rfl | h
      · exact ⟨unit, List.mem_cons_self, _, rfl⟩
      · obtain ⟨u, hu, m, hm⟩ := ih h
        exact ⟨u, List.mem_cons_of_mem _ hu, m, hm⟩

/-- Heartbeats and markers are whole on the wire iff their writes take all or
nothing. -/
theorem comments_whole_iff (takes : Nat → Nat) {comments : List Bytes}
    (h : ∀ u ∈ comments, IsComment u) (n : Nat) :
    (∀ p ∈ onWire (putOn takes n comments), IsUnit p) ↔ AllOrNone takes n comments := by
  induction comments generalizing n with
  | nil => exact ⟨fun _ => trivial, fun _ p hp => by cases hp⟩
  | cons u comments ih =>
      have hu := h u List.mem_cons_self
      rw [AllOrNone, ← ih (fun v hv => h v (List.mem_cons_of_mem _ hv)), putOn, onWire,
        List.filter_cons]
      by_cases htaken : u.take (takes n) = []
      · have hnone : takes n = 0 := by
          rcases List.take_eq_nil_iff.mp htaken with hzero | hnil
          · exact hzero
          · exact absurd hnil hu.ne_nil
        rw [if_neg (by simp [htaken])]
        exact ⟨fun hrest => ⟨Or.inl hnone, hrest⟩, fun hboth => hboth.2⟩
      · rw [if_pos (by simp [htaken]), List.forall_mem_cons]
        have hsome : takes n ≠ 0 := fun hzero => htaken (by rw [hzero, List.take_zero])
        constructor
        · rintro ⟨hunit, hrest⟩
          exact ⟨Or.inr (hu.take_isUnit hunit), hrest⟩
        · rintro ⟨hall, hrest⟩
          refine ⟨?_, hrest⟩
          rw [List.take_of_length_le (hall.resolve_left hsome)]
          exact hu.isUnit

theorem onWire_append (first second : List Bytes) :
    onWire (first ++ second) = onWire first ++ onWire second := List.filter_append ..

/-- What was whole in the end was whole before. -/
theorem WholeUnits.of_append {first second : List Bytes} (h : WholeUnits (first ++ second)) :
    WholeUnits first := by
  unfold WholeUnits at h ⊢
  rw [onWire_append] at h
  rcases h with hnil | ⟨units, hwire, hunits⟩
  · exact Or.inl (List.append_eq_nil_iff.mp hnil).1
  · cases hfirst : onWire first with
    | nil => exact Or.inl rfl
    | cons p rest =>
        rw [hfirst, List.cons_append] at hwire
        obtain ⟨hhead, htail⟩ := List.cons.inj hwire
        rw [← htail] at hunits
        exact Or.inr ⟨rest, by rw [hhead], fun u hu => hunits u (List.mem_append_left _ hu)⟩

/-- The head has been taken, and what is behind it is whole. -/
def HeadTaken (pieces : List Bytes) : Prop :=
  ∃ units, onWire pieces = streamHead :: units ∧ ∀ u ∈ units, IsUnit u

/-- Behind the head, more is whole iff each piece of it is. -/
theorem HeadTaken.append_iff {first : List Bytes} (h : HeadTaken first) (second : List Bytes) :
    WholeUnits (first ++ second) ↔ ∀ p ∈ onWire second, IsUnit p := by
  obtain ⟨units, hwire, hunits⟩ := h
  unfold WholeUnits
  rw [onWire_append, hwire, List.cons_append]
  constructor
  · rintro (hnil | ⟨units', heq, hunits'⟩)
    · cases hnil
    · obtain ⟨-, rfl⟩ := List.cons.inj heq
      exact fun p hp => hunits' p (List.mem_append_right _ hp)
  · intro hsecond
    refine Or.inr ⟨units ++ onWire second, rfl, fun u hu => ?_⟩
    rcases List.mem_append.mp hu with hu | hu
    · exact hunits u hu
    · exact hsecond u hu

/-- The event and what is behind it, on the wire behind the head. -/
theorem event_whole_iff (takes : Nat → Nat) {first : List Bytes} (h : HeadTaken first)
    {name data sent : Bytes} {comments : List Bytes} (hcomments : ∀ u ∈ comments, IsComment u)
    (n : Nat) :
    (sseFrame name data ∈ putOn takes n (sent :: comments) ∧
        WholeUnits (first ++ putOn takes n (sent :: comments))) ↔
      sent.take (takes n) = sseFrame name data ∧ AllOrNone takes (n + 1) comments := by
  have hother : sseFrame name data ∉ putOn takes (n + 1) comments := by
    intro hmem
    obtain ⟨u, hu, m, hm⟩ := mem_putOn hmem
    have hne : u.take m ≠ [] := by
      rw [← hm]
      intro hnil
      have hhead := head_sseFrame name data
      rw [hnil] at hhead
      cases hhead
    have hhead := head_take hne
    rw [← hm, head_sseFrame] at hhead
    rcases (hcomments u hu).head with hcomment | hcomment
    all_goals
      rw [hcomment] at hhead
      cases hhead
  rw [h.append_iff, ← comments_whole_iff takes hcomments (n + 1), putOn, List.mem_cons]
  constructor
  · rintro ⟨hmem, hunits⟩
    have hsent := hmem.resolve_right hother
    refine ⟨hsent.symm, fun p hp => hunits p ?_⟩
    rw [onWire, List.filter_cons]
    split
    · exact List.mem_cons_of_mem _ hp
    · exact hp
  · rintro ⟨hsent, hunits⟩
    refine ⟨Or.inl hsent.symm, ?_⟩
    rw [hsent, onWire, List.filter_cons]
    split
    · exact List.forall_mem_cons.mpr ⟨.event name data, hunits⟩
    · exact hunits

/-! ## What an event becomes -/

/-- The event of a call, as its buffers leave it. -/
def EmitCall.sent (c : EmitCall) (name data : Bytes) : Bytes :=
  match c with
  | created _ => sseFrame name (clip 131072 data)
  | call c => (c.sent name data).bytes

theorem clipped_take_iff (name data : Bytes) {size : Nat} (hsize : 0 < size) (m : Nat) :
    (sseFrame name (clip size data)).take m = sseFrame name data ↔
      data.length < size ∧ (sseFrame name data).length ≤ m := by
  constructor
  · intro h
    have hlen := congrArg List.length h
    rw [List.length_take, length_sseFrame, length_sseFrame name data] at hlen
    have hclip := length_clip_lt hsize data
    have hshort : data.length < size := by omega
    rw [clip_eq_self hshort] at h
    refine ⟨hshort, ?_⟩
    have hsame := congrArg List.length h
    rw [List.length_take] at hsame
    omega
  · rintro ⟨hshort, hm⟩
    rw [clip_eq_self hshort, List.take_of_length_le hm]

theorem getLast_sseFrame (name data : Bytes) : (sseFrame name data).getLast? = some 10 :=
  List.getLast?_append_of_ne_nil _ (List.cons_ne_nil _ _)

theorem framed_take_iff (name data : Bytes) (m : Nat) :
    (framedWrite name (clip 131200 data)).bytes.take m = sseFrame name data ↔
      data.length < 131200 - (sseFrame name []).length ∧ (sseFrame name data).length ≤ m := by
  constructor
  · intro h
    have hlen := congrArg List.length h
    rw [List.length_take] at hlen
    have hfits : data.length < 131200 - (sseFrame name []).length := by
      by_contra hlong
      have hwhole := length_sseFrame name data
      have hcut := length_sseFrame name (clip 131200 data)
      have hclip : (clip 131200 data).length = min 131199 data.length := List.length_take ..
      unfold framedWrite at h hlen
      split_ifs at h hlen with hsmall heq
      · rw [SseWrite.bytes] at hlen
        omega
      · -- the terminator of the buffer stands for the last line break
        have hbound : (clip 131200 (sseFrame name (clip 131200 data)) ++ [0]).length = 131200 := by
          rw [List.length_append, clip, List.length_take, List.length_singleton]
          omega
        rw [SseWrite.bytes, hbound] at hlen
        rw [SseWrite.bytes, clip_eq_self (show data.length < 131200 by omega),
          List.take_of_length_le] at h
        · have hlast := congrArg List.getLast? h
          rw [List.getLast?_concat, getLast_sseFrame] at hlast
          cases hlast
        · rw [List.length_append, clip, List.length_take, List.length_singleton]
          omega
      · have hbound : (clip 131200 (sseFrame name (clip 131200 data))).length = 131199 := by
          rw [clip, List.length_take]
          omega
        rw [SseWrite.bytes] at hlen
        omega
    refine ⟨hfits, ?_⟩
    rw [framedWrite_of_fits hfits, SseWrite.bytes] at hlen
    omega
  · rintro ⟨hfits, hm⟩
    rw [framedWrite_of_fits hfits, SseWrite.bytes, List.take_of_length_le hm]

/-- The whole event is taken iff it fits its buffers and the write takes it. -/
theorem sent_take_iff {s : ResponsesStreamState} {c : EmitCall} {e : Bytes × Bytes}
    (h : c.event s = some e) (m : Nat) :
    (c.sent e.1 e.2).take m = sseFrame e.1 e.2 ↔
      e.2.length < c.room ∧ (sseFrame e.1 e.2).length ≤ m := by
  cases c with
  | created now => exact clipped_take_iff e.1 e.2 (by decide) m
  | call c =>
      cases c with
      | reasoningDelta delta =>
          obtain ⟨at_, -, rfl⟩ := Option.map_eq_some_iff.mp h
          rw [EmitCall.sent, StreamCall.sent, EmitCall.room, StreamCall.room]
          exact framed_take_iff _ _ m
      | functionCallDelta delta =>
          obtain ⟨at_, -, rfl⟩ := Option.map_eq_some_iff.mp h
          rw [EmitCall.sent, StreamCall.sent, EmitCall.room, StreamCall.room]
          exact framed_take_iff _ _ m
      | failed reason =>
          have hshort := length_clip_lt (show 0 < 2048 by decide) e.2
          rw [EmitCall.sent, StreamCall.sent, SseWrite.bytes,
            clip_eq_self (hshort.trans (by decide)), EmitCall.room, StreamCall.room]
          exact clipped_take_iff e.1 e.2 (by decide) m
      | _ => exact clipped_take_iff e.1 e.2 (by decide) m

theorem trailer_comments (c : EmitCall) : ∀ u ∈ c.trailer, IsComment u := by
  have hbeat : ∀ u ∈ [heartbeatComment], IsComment u := by
    intro u hu
    exact Or.inl (List.mem_singleton.mp hu)
  cases c with
  | created now => exact hbeat
  | call c =>
      cases c with
      | completed now incomplete =>
          intro u hu
          rcases List.mem_cons.mp hu with hu | hu
          · exact Or.inl hu
          · exact Or.inr (List.mem_singleton.mp hu)
      | textDelta => exact fun u hu => by cases hu
      | reasoningDelta => exact fun u hu => by cases hu
      | functionCallDelta => exact fun u hu => by cases hu
      | _ => exact hbeat

/-! ## What a call hands to the socket -/

theorem units_of_none {s : ResponsesStreamState} {c : StreamCall} (h : c.event s = none) :
    (EmitCall.call c).units s = [] := by
  have hemit := emit_of_event_none h
  have hmarker : (EmitCall.call c).marker = [] := by
    cases c with
    | completed now incomplete => cases h
    | _ => rfl
  rw [EmitCall.units, hmarker, EmitCall.emit, hemit, List.drop_length]
  rfl

theorem units_of_event {s : ResponsesStreamState} {c : StreamCall} {e : Bytes × Bytes}
    (h : c.event s = some e) :
    (EmitCall.call c).units s =
      (EmitCall.call c).sent e.1 e.2 :: (EmitCall.call c).trailer := by
  have hwire : (EmitCall.emit s (.call c)).2.wire = s.wire ++ c.sent e.1 e.2 :: c.beats :=
    (emitted_of_event h).wire
  rw [EmitCall.units, hwire, List.drop_left]
  rfl

theorem units_created (s : ResponsesStreamState) (now : Nat) :
    (EmitCall.created now).units s =
      (if s.headersSent then [] else [streamHead]) ++
        (EmitCall.created now).sent (lit "response.created") (createdData s.id s.model now) ::
          (EmitCall.created now).trailer := by
  rw [EmitCall.units, EmitCall.emit, responsesStreamEmitCreated, wire_beat_send,
    responsesStreamSendHeaders]
  cases s.headersSent with
  | true =>
      rw [if_pos rfl, List.drop_left]
      rfl
  | false =>
      rw [if_neg Bool.false_ne_true, List.append_assoc, List.drop_left]
      rfl

/-! ## One call -/

/-- While the head has not been sent there is nothing on the wire; then the head
is there, and whole units behind it. -/
structure StreamSocket.Whole (k : StreamSocket) : Prop where
  before_head : k.stream.headersSent = false → onWire k.pieces = []
  behind_head : k.stream.headersSent = true → HeadTaken k.pieces

theorem StreamSocket.Whole.wholeUnits {k : StreamSocket} (h : k.Whole) :
    WholeUnits k.pieces := by
  cases hsent : k.stream.headersSent with
  | false => exact Or.inl (h.before_head hsent)
  | true => exact Or.inr (h.behind_head hsent)

/-- A socket call that is not the one that writes the head. -/
theorem emit_plain (takes : Nat → Nat) {k : StreamSocket} {c : EmitCall}
    (h : k.stream.headersSent = true ∨ ∃ call, c = .call call) :
    k.emit takes c = ((c.emit k.stream).1,
      ⟨(c.emit k.stream).2, k.pieces ++ putOn takes k.pieces.length (c.units k.stream)⟩) := by
  unfold StreamSocket.emit
  rcases h with hsent | ⟨call, rfl⟩
  · rw [hsent]
    cases c <;> rfl
  · rfl

/-- Behind the head, a call with an event is whole iff its event is taken whole. -/
theorem whole_event_iff (takes : Nat → Nat) {s : ResponsesStreamState} {first : List Bytes}
    (hfirst : HeadTaken first) {c : EmitCall} {e : Bytes × Bytes} (h : c.event s = some e)
    (n : Nat) :
    (sseFrame e.1 e.2 ∈ putOn takes n (c.sent e.1 e.2 :: c.trailer) ∧
        WholeUnits (first ++ putOn takes n (c.sent e.1 e.2 :: c.trailer))) ↔
      c.TakenWhole takes s n := by
  rw [event_whole_iff takes hfirst (trailer_comments c), sent_take_iff h]
  unfold EmitCall.TakenWhole
  rw [h]
  constructor
  · rintro ⟨⟨hfits, htaken⟩, hrest⟩ e' he'
    cases he'
    exact ⟨hfits, htaken, hrest⟩
  · intro hwhole
    obtain ⟨hfits, htaken, hrest⟩ := hwhole e rfl
    exact ⟨⟨hfits, htaken⟩, hrest⟩

/-! ### The ways a call can go -/

theorem emit_silent (takes : Nat → Nat) {k : StreamSocket} {c : StreamCall}
    (h : c.event k.stream = none) : k.emit takes (.call c) = (false, k) := by
  rw [emit_plain takes (Or.inr ⟨c, rfl⟩), units_of_none h, EmitCall.emit, emit_of_event_none h,
    putOn, List.append_nil]

/-- A call that has an event to write and does not have to send the head. -/
theorem emit_event (takes : Nat → Nat) {k : StreamSocket} {c : EmitCall} {e : Bytes × Bytes}
    (hplain : k.stream.headersSent = true ∨ ∃ call, c = .call call)
    (h : c.event k.stream = some e) :
    ∃ s, s.headersSent = k.stream.headersSent ∧
      k.emit takes c =
        (true, ⟨s, k.pieces ++ putOn takes k.pieces.length (c.sent e.1 e.2 :: c.trailer)⟩) := by
  rw [emit_plain takes hplain]
  cases c with
  | created now =>
      cases h
      have hsent : k.stream.headersSent = true := by
        rcases hplain with hsent | ⟨call, hcall⟩
        · exact hsent
        · cases hcall
      refine ⟨responsesStreamEmitCreated now k.stream, ?_, ?_⟩
      · rw [responsesStreamEmitCreated, responsesStreamSendHeaders, if_pos hsent]
        rfl
      · rw [units_created, if_pos hsent, List.nil_append]
        rfl
  | call c =>
      have hemitted := emitted_of_event h
      have hreturns : (EmitCall.emit k.stream (.call c)).1 = true := hemitted.returns
      refine ⟨(EmitCall.emit k.stream (.call c)).2, hemitted.headers, ?_⟩
      rw [units_of_event h, hreturns]

theorem emit_head_refused (takes : Nat → Nat) {k : StreamSocket} (now : Nat)
    (hsent : k.stream.headersSent = false)
    (htakes : takes k.pieces.length < streamHead.length) :
    k.emit takes (.created now) =
      (false, { k with pieces := k.pieces ++ [streamHead.take (takes k.pieces.length)] }) := by
  unfold StreamSocket.emit
  rw [hsent]
  exact if_pos htakes

theorem emit_head (takes : Nat → Nat) {k : StreamSocket} (now : Nat)
    (hsent : k.stream.headersSent = false)
    (htakes : streamHead.length ≤ takes k.pieces.length) :
    ∃ s, s.headersSent = true ∧
      k.emit takes (.created now) =
        (true, ⟨s, k.pieces ++ [streamHead] ++ putOn takes (k.pieces.length + 1)
          ((EmitCall.created now).sent (lit "response.created")
            (createdData k.stream.id k.stream.model now) :: (EmitCall.created now).trailer)⟩) := by
  refine ⟨responsesStreamEmitCreated now k.stream, ?_, ?_⟩
  · rw [responsesStreamEmitCreated, responsesStreamSendHeaders, hsent,
      if_neg Bool.false_ne_true]
    rfl
  · unfold StreamSocket.emit
    rw [hsent]
    dsimp only
    rw [if_neg (Nat.not_lt.mpr htakes), units_created, hsent, if_neg Bool.false_ne_true,
      List.singleton_append, putOn, List.take_of_length_le htakes, List.append_assoc]
    rfl

/-! ### Whole or not -/

theorem head_streamHead : streamHead.head? = some 72 := by decide +kernel

theorem sseFrame_ne_head (name data : Bytes) : sseFrame name data ≠ streamHead := by
  intro heq
  have hhead := head_sseFrame name data
  rw [heq, head_streamHead] at hhead
  cases hhead

theorem onWire_singleton {piece : Bytes} (h : piece ≠ []) : onWire [piece] = [piece] := by
  simp [onWire, h]

theorem streamHead_ne_nil : streamHead ≠ [] := by
  intro hnil
  have hhead := head_streamHead
  rw [hnil] at hhead
  cases hhead

theorem headTaken_append {first : List Bytes} (h : onWire first = []) :
    HeadTaken (first ++ [streamHead]) := by
  refine ⟨[], ?_, fun u hu => by cases hu⟩
  rw [onWire_append, h, onWire_singleton streamHead_ne_nil]
  rfl

/-- Where the head has been taken, a call is whole iff it is undisturbed. -/
theorem whole_behind_head (takes : Nat → Nat) {k : StreamSocket} (hhead : HeadTaken k.pieces)
    {c : EmitCall} {e : Bytes × Bytes} (h : c.event k.stream = some e) {s : ResponsesStreamState}
    (hemit : k.emit takes c =
      (true, ⟨s, k.pieces ++ putOn takes k.pieces.length (c.sent e.1 e.2 :: c.trailer)⟩)) :
    (WritesWhole takes k c ∧ WholeUnits (k.step takes c).pieces) ↔
      c.TakenWhole takes k.stream k.pieces.length := by
  rw [← whole_event_iff takes hhead h, StreamSocket.step, hemit]
  refine and_congr_left fun _ => ?_
  unfold WritesWhole StreamSocket.wrote StreamSocket.step
  rw [hemit, List.drop_left, h]
  constructor
  · intro hwhole
    obtain ⟨e', he', hmem⟩ := hwhole rfl
    cases he'
    exact hmem
  · exact fun hmem _ => ⟨e, rfl, hmem⟩

theorem undisturbed_call {takes : Nat → Nat} {k : StreamSocket} {c : StreamCall} :
    Undisturbed takes k (.call c) ↔
      ((c.event k.stream).isSome → k.stream.headersSent = true ∧
        (EmitCall.call c).TakenWhole takes k.stream k.pieces.length) := Iff.rfl

/-- A call without an event changes nothing. -/
theorem whole_silent (takes : Nat → Nat) {k : StreamSocket} (h : k.Whole) {c : StreamCall}
    (hevent : c.event k.stream = none) :
    (WritesWhole takes k (.call c) ∧ WholeUnits (k.step takes (.call c)).pieces) ↔
      Undisturbed takes k (.call c) := by
  rw [undisturbed_call, hevent]
  unfold WritesWhole StreamSocket.step
  rw [emit_silent takes hevent]
  constructor
  · intro _ hsome
    cases hsome
  · intro _
    exact ⟨fun hfalse => absurd hfalse Bool.false_ne_true, h.wholeUnits⟩

theorem head_framedWrite (name data : Bytes) :
    (framedWrite name data).bytes.head? = some 101 := by
  unfold framedWrite
  split_ifs
  · rfl
  · rfl
  · rfl

theorem head_sent (c : EmitCall) (name data : Bytes) : (c.sent name data).head? = some 101 := by
  cases c with
  | created now => exact head_sseFrame name _
  | call c =>
      cases c with
      | reasoningDelta => exact head_framedWrite name _
      | functionCallDelta => exact head_framedWrite name _
      | _ => exact head_sseFrame name _

/-- The head is not a part of an event and what is behind it. -/
theorem head_not_mem_putOn (takes : Nat → Nat) (n : Nat) (c : EmitCall) (name data : Bytes) :
    streamHead ∉ putOn takes n (c.sent name data :: c.trailer) := by
  intro hmem
  obtain ⟨u, hu, m, hm⟩ := mem_putOn hmem
  have hne : u.take m ≠ [] := by
    rw [← hm]
    exact streamHead_ne_nil
  have hhead := head_take hne
  rw [← hm, head_streamHead] at hhead
  rcases List.mem_cons.mp hu with hu | hu
  · rw [hu, head_sent] at hhead
    exact absurd hhead (by decide)
  · rcases (trailer_comments c u hu).head with hcomment | hcomment
    all_goals
      rw [hcomment] at hhead
      exact absurd hhead (by decide)

/-- In front of the head no event is whole. -/
theorem not_whole_before_head (takes : Nat → Nat) {k : StreamSocket}
    (hempty : onWire k.pieces = []) {c : StreamCall} {e : Bytes × Bytes}
    (hevent : c.event k.stream = some e) :
    ¬ (WritesWhole takes k (.call c) ∧ WholeUnits (k.step takes (.call c)).pieces) := by
  rintro ⟨hwrites, hwhole⟩
  obtain ⟨s, -, hemit⟩ := emit_event takes (Or.inr ⟨c, rfl⟩) hevent
  obtain ⟨e', -, hmem⟩ := hwrites (by rw [hemit])
  unfold StreamSocket.wrote StreamSocket.step at hmem
  unfold StreamSocket.step at hwhole
  rw [hemit] at hmem hwhole
  dsimp only at hmem hwhole
  rw [List.drop_left] at hmem
  unfold WholeUnits at hwhole
  rw [onWire_append, hempty, List.nil_append] at hwhole
  have hne : sseFrame e'.1 e'.2 ≠ [] := by
    intro hnil
    have hhead := head_sseFrame e'.1 e'.2
    rw [hnil] at hhead
    cases hhead
  rcases hwhole with hnil | ⟨units, hwire, -⟩
  · have hlisted : sseFrame e'.1 e'.2 ∈ onWire (putOn takes k.pieces.length
        ((EmitCall.call c).sent e.1 e.2 :: (EmitCall.call c).trailer)) :=
      List.mem_filter.mpr ⟨hmem, decide_eq_true hne⟩
    rw [hnil] at hlisted
    cases hlisted
  · have hlisted : streamHead ∈ onWire (putOn takes k.pieces.length
        ((EmitCall.call c).sent e.1 e.2 :: (EmitCall.call c).trailer)) := by
      rw [hwire]
      exact List.mem_cons_self
    exact head_not_mem_putOn takes _ _ _ _ (List.mem_filter.mp hlisted).1

/-- The call that sends the head is whole iff it is undisturbed. -/
theorem whole_created_iff (takes : Nat → Nat) {k : StreamSocket}
    (hsent : k.stream.headersSent = false) (hempty : onWire k.pieces = []) (now : Nat) :
    (WritesWhole takes k (.created now) ∧ WholeUnits (k.step takes (.created now)).pieces) ↔
      Undisturbed takes k (.created now) := by
  have hdisturbed : Undisturbed takes k (.created now) ↔
      (takes k.pieces.length = 0 ∨ streamHead.length ≤ takes k.pieces.length ∧
        (EmitCall.created now).TakenWhole takes k.stream (k.pieces.length + 1)) := by
    unfold Undisturbed
    rw [if_neg (by rw [hsent]; exact Bool.false_ne_true)]
  rw [hdisturbed]
  rcases Nat.lt_or_ge (takes k.pieces.length) streamHead.length with hshort | hlong
  · have hrefused := emit_head_refused takes now hsent hshort
    unfold WritesWhole StreamSocket.step
    rw [hrefused]
    dsimp only
    constructor
    · rintro ⟨-, hwhole⟩
      left
      by_contra hsome
      have hpiece : streamHead.take (takes k.pieces.length) ≠ [] := by
        intro hnil
        rcases List.take_eq_nil_iff.mp hnil with hzero | hhead
        · exact hsome hzero
        · exact streamHead_ne_nil hhead
      unfold WholeUnits at hwhole
      rw [onWire_append, hempty, onWire_singleton hpiece, List.nil_append] at hwhole
      rcases hwhole with hnil | ⟨units, hwire, -⟩
      · cases hnil
      · have hlen := congrArg List.length (List.cons.inj hwire).1
        rw [List.length_take] at hlen
        omega
    · rintro (hzero | ⟨hlong, -⟩)
      · refine ⟨fun hfalse => absurd hfalse Bool.false_ne_true, Or.inl ?_⟩
        rw [onWire_append, hempty, hzero]
        rfl
      · omega
  · obtain ⟨s, -, hemit⟩ := emit_head takes now hsent hlong
    have hevent : (EmitCall.created now).event k.stream =
        some (lit "response.created", createdData k.stream.id k.stream.model now) := rfl
    have hpos := List.length_pos_of_ne_nil streamHead_ne_nil
    have hnonzero : takes k.pieces.length ≠ 0 := by omega
    rw [or_iff_right hnonzero, and_iff_right hlong,
      ← whole_event_iff takes (headTaken_append hempty) hevent]
    unfold WritesWhole StreamSocket.wrote StreamSocket.step
    rw [hemit]
    dsimp only
    refine and_congr_left fun _ => ?_
    rw [List.append_assoc, List.drop_left, hevent, List.singleton_append]
    constructor
    · intro hwhole
      obtain ⟨e', he', hmem⟩ := hwhole rfl
      cases he'
      exact (List.mem_cons.mp hmem).resolve_left (sseFrame_ne_head _ _)
    · exact fun hmem _ => ⟨_, rfl, List.mem_cons_of_mem _ hmem⟩

/-- **One call** on a whole stream is whole iff it is undisturbed. -/
theorem whole_step_iff (takes : Nat → Nat) {k : StreamSocket} (h : k.Whole) (c : EmitCall) :
    (WritesWhole takes k c ∧ WholeUnits (k.step takes c).pieces) ↔ Undisturbed takes k c := by
  cases c with
  | created now =>
      cases hsent : k.stream.headersSent with
      | true =>
          obtain ⟨s, -, hemit⟩ := emit_event takes (Or.inl hsent)
            (show (EmitCall.created now).event k.stream = some _ from rfl)
          rw [whole_behind_head takes (h.behind_head hsent) rfl hemit, Undisturbed, if_pos hsent]
      | false => exact whole_created_iff takes hsent (h.before_head hsent) now
  | call c =>
      cases hevent : c.event k.stream with
      | none => exact whole_silent takes h hevent
      | some e =>
          rw [undisturbed_call, hevent]
          cases hsent : k.stream.headersSent with
          | true =>
              obtain ⟨s, -, hemit⟩ := emit_event takes (Or.inl hsent)
                (show (EmitCall.call c).event k.stream = some e from hevent)
              rw [whole_behind_head takes (h.behind_head hsent)
                (show (EmitCall.call c).event k.stream = some e from hevent) hemit]
              exact ⟨fun htaken _ => ⟨rfl, htaken⟩, fun hboth => (hboth rfl).2⟩
          | false =>
              constructor
              · intro hwhole
                exact absurd hwhole (not_whole_before_head takes (h.before_head hsent) hevent)
              · intro hboth
                exact absurd (hboth rfl).1 Bool.false_ne_true

theorem HeadTaken.of_whole {first second : List Bytes} (h : HeadTaken first)
    (hwhole : WholeUnits (first ++ second)) : HeadTaken (first ++ second) := by
  obtain ⟨units, hwire, -⟩ := h
  rcases hwhole with hnil | htaken
  · rw [onWire_append, hwire] at hnil
    cases hnil
  · exact htaken

/-- A call that has an event to write, behind the head, leaves the stream whole. -/
theorem StreamSocket.Whole.event {takes : Nat → Nat} {k : StreamSocket} (h : k.Whole)
    {c : EmitCall} {e : Bytes × Bytes} (hevent : c.event k.stream = some e)
    (hsent : k.stream.headersSent = true) (hc : Undisturbed takes k c) :
    (k.step takes c).Whole := by
  have hwhole := ((whole_step_iff takes h c).mpr hc).2
  obtain ⟨s, hheaders, hemit⟩ := emit_event takes (Or.inl hsent) hevent
  rw [StreamSocket.step, hemit] at hwhole ⊢
  refine ⟨fun hfalse => ?_, fun _ => (h.behind_head hsent).of_whole hwhole⟩
  rw [hheaders, hsent] at hfalse
  cases hfalse

/-- An undisturbed call leaves a whole stream whole. -/
theorem StreamSocket.Whole.step {takes : Nat → Nat} {k : StreamSocket} (h : k.Whole)
    {c : EmitCall} (hc : Undisturbed takes k c) : (k.step takes c).Whole := by
  cases c with
  | call c =>
      cases hevent : c.event k.stream with
      | none =>
          rw [StreamSocket.step, emit_silent takes hevent]
          exact h
      | some e =>
          have hsent := (undisturbed_call.mp hc (by rw [hevent]; rfl)).1
          exact h.event (show (EmitCall.call c).event k.stream = some e from hevent) hsent hc
  | created now =>
      cases hsent : k.stream.headersSent with
      | true => exact h.event rfl hsent hc
      | false =>
          have hempty := h.before_head hsent
          have hwhole := ((whole_step_iff takes h _).mpr hc).2
          rcases Nat.lt_or_ge (takes k.pieces.length) streamHead.length with hshort | hlong
          · -- nothing of the head has been taken
            unfold Undisturbed at hc
            rw [if_neg (by rw [hsent]; exact Bool.false_ne_true)] at hc
            have hzero : takes k.pieces.length = 0 := by
              rcases hc with hzero | ⟨hlong, -⟩
              · exact hzero
              · omega
            rw [StreamSocket.step, emit_head_refused takes now hsent hshort]
            refine ⟨fun _ => ?_, fun htrue => ?_⟩
            · rw [onWire_append, hempty, hzero]
              rfl
            · rw [hsent] at htrue
              cases htrue
          · obtain ⟨s, hheaders, hemit⟩ := emit_head takes now hsent hlong
            rw [StreamSocket.step, hemit] at hwhole ⊢
            refine ⟨fun hfalse => ?_, fun _ => (headTaken_append hempty).of_whole hwhole⟩
            rw [hheaders] at hfalse
            cases hfalse

theorem step_pieces (takes : Nat → Nat) (k : StreamSocket) (c : EmitCall) :
    ∃ more, (k.step takes c).pieces = k.pieces ++ more := by
  unfold StreamSocket.step StreamSocket.emit
  dsimp only
  split
  · split_ifs
    · exact ⟨_, rfl⟩
    · exact ⟨_, rfl⟩
  · exact ⟨_, rfl⟩

theorem run_pieces (takes : Nat → Nat) (k : StreamSocket) (calls : List EmitCall) :
    ∃ more, (stateAfter (StreamSocket.step takes) k calls).pieces = k.pieces ++ more := by
  induction calls generalizing k with
  | nil => exact ⟨[], (List.append_nil _).symm⟩
  | cons c calls ih =>
      obtain ⟨more, hstep⟩ := step_pieces takes k c
      obtain ⟨rest, hrun⟩ := ih (k.step takes c)
      exact ⟨more ++ rest, by rw [stateAfter_cons, hrun, hstep, List.append_assoc]⟩

/-! ## Runs -/

theorem wholeEvents_iff (takes : Nat → Nat) {k : StreamSocket} (h : k.Whole)
    (calls : List EmitCall) :
    WholeEvents takes k calls ↔
      AllSteps (StreamSocket.step takes) (Undisturbed takes) k calls := by
  induction calls generalizing k with
  | nil => exact ⟨fun _ => trivial, fun _ => ⟨trivial, h.wholeUnits⟩⟩
  | cons c calls ih =>
      constructor
      · rintro ⟨⟨hwrites, hrest⟩, hwire⟩
        obtain ⟨more, hmore⟩ := run_pieces takes (k.step takes c) calls
        rw [stateAfter_cons, hmore] at hwire
        have hc := (whole_step_iff takes h c).mp ⟨hwrites, hwire.of_append⟩
        rw [← hmore] at hwire
        exact ⟨hc, (ih (h.step hc)).mp ⟨hrest, hwire⟩⟩
      · rintro ⟨hc, hrest⟩
        obtain ⟨hreturns, hwire⟩ := (ih (h.step hc)).mpr hrest
        exact ⟨⟨((whole_step_iff takes h c).mpr hc).1, hreturns⟩, hwire⟩

theorem fresh_whole (id model : Bytes) : (StreamSocket.fresh id model).Whole :=
  ⟨fun _ => rfl, fun hsent => absurd hsent Bool.false_ne_true⟩

/-- **Whole events on the wire**, exactly: for every sequence of calls and every
schedule of the socket. -/
theorem whole_events_iff (takes : Nat → Nat) (id model : Bytes) (calls : List EmitCall) :
    WholeEvents takes (StreamSocket.fresh id model) calls ↔
      AllSteps (StreamSocket.step takes) (Undisturbed takes) (StreamSocket.fresh id model) calls :=
  wholeEvents_iff takes (fresh_whole id model) calls

/-- What the client has received: the head, and units one after the other. -/
theorem WholeUnits.bytes {pieces : List Bytes} (h : WholeUnits pieces) :
    pieces.flatten = [] ∨
      ∃ units : List Bytes, pieces.flatten = streamHead ++ units.flatten ∧
        ∀ u ∈ units, IsUnit u := by
  rw [← List.flatten_filter_ne_nil]
  change (onWire pieces).flatten = [] ∨ _
  rcases h with hnil | ⟨units, hwire, hunits⟩
  · exact Or.inl (by rw [hnil]; rfl)
  · exact Or.inr ⟨units, by rw [← List.flatten_cons, ← hwire]; rfl, hunits⟩

/-- A client that takes 20 bytes of the first event, and everything else. -/
def slowClient (n : Nat) : Nat := if n = 1 then 20 else 131200

/-- A short write is not noticed: the call returns true, and the next event is
written behind the part that was taken. -/
theorem event_cut_on_wire :
    ¬ ∀ (takes : Nat → Nat) (id model : Bytes) (calls : List EmitCall),
      WholeEvents takes (StreamSocket.fresh id model) calls := by
  intro h
  have hreturns := (h slowClient (lit "resp-stream") (lit "m")
    [.created 0, .call .outputItemAdded]).returns.1
  have htrue : ((StreamSocket.fresh (lit "resp-stream") (lit "m")).emit slowClient
      (.created 0)).1 = true := by decide +kernel
  obtain ⟨e, he, hmem⟩ := hreturns htrue
  cases he
  revert hmem
  decide +kernel

end StarBridge
