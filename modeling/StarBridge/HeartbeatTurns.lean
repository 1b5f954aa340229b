import StarBridge.Heartbeat
import StarBridge.StaleFrames

/-!
# The heartbeat beside a turn

A turn and the heartbeat's wait read frames from one stream.  What keeps them
apart is the flag `turn_active`: the heartbeat tests it once, before its ping,
and `handle_response_native` sets it before it begins a turn; `handle_compact`
does not set it, and a cancellation clears it.  `LinkState` has both threads and
the agent, and `heartbeat_steals_nothing` says which starts and which decisions
the flag would have to exclude.
-/

namespace StarBridge

open CText Loops Runs

/-- A frame on the stream, and whether it belongs to a turn. -/
structure StreamFrame where
  ofTurn : Bool
  text : Bytes
  deriving DecidableEq, Repr

/-- Where `heartbeat_loop` stands. -/
inductive BeatPhase
  | asleep
  | decided
  | waiting (remaining : Nat)
  deriving DecidableEq, Repr

/-- Where the server stands: outside a turn, in `turn_begin`, in
`turn_await_ack`, in `turn_process_events`, or in front of `turn_cleanup`. -/
inductive ServerPhase
  | idle
  | opening (env : TurnEnv) (turn : TurnState)
  | awaiting (env : TurnEnv) (turn : TurnState) (left : Nat)
  | processing (env : TurnEnv) (turn : TurnState)
  | closing (turn : TurnState)

/-- The flag the heartbeat tests. -/
def ServerPhase.turnActive : ServerPhase → Bool
  | .idle => false
  | .opening _ turn => turn.engine.turnActive
  | .awaiting _ turn _ => turn.engine.turnActive
  | .processing _ turn => turn.engine.turnActive
  | .closing turn => turn.engine.turnActive

def ServerPhase.isOpening : ServerPhase → Bool
  | .opening .. => true
  | _ => false

/-- The phases that read frames. -/
def ServerPhase.reading : ServerPhase → Bool
  | .idle => false
  | .closing _ => false
  | _ => true

/-- The turn of `handle_compact`, which leaves the flag as it is. -/
def compactTurn : TurnState := { freshTurn none with engine := ⟨false, false, []⟩ }

/-! ## The server -/

/-- After a round of the event loop. -/
def afterRound (env : TurnEnv) : Progress TurnState TurnEnd → ServerPhase
  | .running turn => .processing env turn
  | .ended e => .closing e.state

/-- After a read of `turn_await_ack`; an accepted request goes on to the event
loop. -/
def afterWait (env : TurnEnv) (turn : TurnState) : Progress Nat AckEnd → ServerPhase
  | .running left => .awaiting env turn left
  | .ended e =>
      if e.ok then afterRound env (settle env (turn.enter env))
      else .closing (turn.afterAck env e)

/-- The server has read a frame; in `turn_begin` it is the reply to a session
request. -/
def ServerPhase.takes (text : Bytes) : ServerPhase → ServerPhase
  | .awaiting env turn left => afterWait env turn (ackRead env left (some text))
  | .processing env turn => afterRound env (turnEvent env turn (.frame text))
  | phase => phase

/-- A read of the server has run into its deadline. -/
def ServerPhase.idles (late : List Bytes) : ServerPhase → ServerPhase
  | .awaiting env turn left => afterWait env turn (ackRead env left none)
  | .processing env turn => afterRound env (turnEvent env turn (.idle late))
  | phase => phase

/-- The event loop has looked at its listening socket. -/
def ServerPhase.serves (connections : List Bytes) : ServerPhase → ServerPhase
  | .processing env turn => afterRound env (turnEvent env turn (.control connections))
  | phase => phase

/-! ## Both threads and the agent -/

/-- The stream with everyone who writes to it or reads from it.  The agent
`owes` frames while it is at work on what a turn has written; `stolen` are the
frames of turns that the heartbeat's wait has taken. -/
structure LinkState where
  server : ServerPhase
  beat : BeatPhase
  wire : List StreamFrame
  owes : Bool
  stolen : List Bytes

/-- An open connection outside any turn. -/
def LinkState.start : LinkState := ⟨.idle, .asleep, [], false, []⟩

/-- A step of the heartbeat thread, of the server or of the agent. -/
inductive LinkEvent
  | beatDecides
  | beatPings
  | beatReads
  | beatTimesOut
  | turnStarts (env : TurnEnv) (stream : Option ResponsesStreamState)
  | compactStarts (env : TurnEnv)
  | sessionWritten
  | requestWritten
  | beginFails
  | serverReads
  | serverIdles (late : List Bytes)
  | serverServes (connections : List Bytes)
  | turnCloses
  | agentSends (text : Bytes)
  | agentFinishes
  | agentAnswers (text : Bytes)

/-- What is left of the heartbeat's wait after a read. -/
def BeatPhase.after : Progress Nat Bool → BeatPhase
  | .running left => .waiting left
  | .ended _ => .asleep

/-- The heartbeat's wait takes a frame off the stream. -/
def LinkState.beatReads (s : LinkState) : LinkState :=
  match s.beat, s.wire with
  | .waiting remaining, f :: rest =>
      { s with wire := rest, beat := .after (waitPongRead remaining (some f.text)),
               stolen := if f.ofTurn then s.stolen ++ [f.text] else s.stolen }
  | _, _ => s

/-- The server takes a frame off the stream. -/
def LinkState.serverReads (s : LinkState) : LinkState :=
  match s.wire with
  | [] => s
  | f :: rest =>
      if s.server.reading then { s with wire := rest, server := s.server.takes f.text } else s

/-- The server begins a turn, unless one is under way. -/
def LinkState.begin (env : TurnEnv) (turn : TurnState) (s : LinkState) : LinkState :=
  match s.server with
  | .idle => { s with server := .opening env turn }
  | _ => s

/-- One step of either thread or of the agent; a step that is not possible is
none. -/
def linkStep (timeout : Nat) (s : LinkState) : LinkEvent → LinkState
  | .beatDecides =>
      if s.beat = .asleep ∧ s.server.turnActive = false then { s with beat := .decided } else s
  | .beatPings => if s.beat = .decided then { s with beat := .waiting timeout } else s
  | .beatReads => s.beatReads
  | .beatTimesOut => if s.beat = .decided then s else { s with beat := .asleep }
  | .turnStarts env stream => s.begin env (freshTurn stream)
  | .compactStarts env => s.begin env compactTurn
  | .sessionWritten => if s.server.isOpening then { s with owes := true } else s
  | .requestWritten =>
      match s.server with
      | .opening env turn => { s with server := .awaiting env turn 5, owes := true }
      | _ => s
  | .beginFails =>
      match s.server with
      | .opening _ turn => { s with server := .closing turn }
      | _ => s
  | .serverReads => s.serverReads
  | .serverIdles late => { s with server := s.server.idles late }
  | .serverServes connections => { s with server := s.server.serves connections }
  | .turnCloses =>
      match s.server with
      | .closing _ => { s with server := .idle }
      | _ => s
  | .agentSends text => if s.owes then { s with wire := s.wire ++ [⟨true, text⟩] } else s
  | .agentFinishes => { s with owes := false }
  | .agentAnswers text => { s with wire := s.wire ++ [⟨false, text⟩] }

/-- No turn has a frame on the stream, or will have one before the next turn
writes. -/
def LinkState.Quiet (s : LinkState) : Prop :=
  s.server.isOpening = false ∧ s.owes = false ∧ ∀ f ∈ s.wire, f.ofTurn = false

/-- The heartbeat does not go ahead while a turn has frames to come, and no turn
begins until the heartbeat's round is over. -/
def Apart (s : LinkState) : LinkEvent → Prop
  | .beatDecides => s.server.turnActive = false → s.Quiet
  | .turnStarts _ _ => s.beat = .asleep
  | .compactStarts _ => s.beat = .asleep
  | _ => True

/-! ## A round outside a turn -/

theorem afterRound_isOpening (env : TurnEnv) (p : Progress TurnState TurnEnd) :
    (afterRound env p).isOpening = false := by
  cases p with
  | running turn => rfl
  | ended e => rfl

theorem afterWait_isOpening (env : TurnEnv) (turn : TurnState) (p : Progress Nat AckEnd) :
    (afterWait env turn p).isOpening = false := by
  cases p with
  | running left => rfl
  | ended e =>
      unfold afterWait
      dsimp only
      split
      · exact afterRound_isOpening env _
      · rfl

/-- Only the start of a turn opens one. -/
theorem takes_isOpening (phase : ServerPhase) (text : Bytes) :
    (phase.takes text).isOpening = phase.isOpening := by
  cases phase with
  | awaiting env turn left => exact afterWait_isOpening env turn _
  | processing env turn => exact afterRound_isOpening env _
  | idle => rfl
  | opening env turn => rfl
  | closing turn => rfl

theorem idles_isOpening (phase : ServerPhase) (late : List Bytes) :
    (phase.idles late).isOpening = phase.isOpening := by
  cases phase with
  | awaiting env turn left => exact afterWait_isOpening env turn (ackRead env left none)
  | processing env turn => exact afterRound_isOpening env _
  | idle => rfl
  | opening env turn => rfl
  | closing turn => rfl

theorem serves_isOpening (phase : ServerPhase) (connections : List Bytes) :
    (phase.serves connections).isOpening = phase.isOpening := by
  cases phase with
  | processing env turn => exact afterRound_isOpening env _
  | awaiting env turn left => rfl
  | idle => rfl
  | opening env turn => rfl
  | closing turn => rfl

/-- Nothing has been stolen, and a round of the heartbeat is on only while the
stream is quiet. -/
structure LinkState.Separate (s : LinkState) : Prop where
  kept : s.stolen = []
  quiet : s.beat ≠ .asleep → s.Quiet

theorem LinkState.Separate.start : LinkState.start.Separate :=
  ⟨rfl, fun h => absurd rfl h⟩

/-- A read of the heartbeat on a quiet stream takes nothing of a turn. -/
theorem LinkState.Separate.beatReads {s : LinkState} (h : s.Separate) :
    s.beatReads.Separate := by
  unfold LinkState.beatReads
  split
  · rename_i remaining f rest hbeat hwire
    have hquiet := h.quiet (by rw [hbeat]; simp)
    have hfree : ∀ g ∈ f :: rest, g.ofTurn = false := hwire ▸ hquiet.2.2
    constructor
    · have hf : f.ofTurn = false := hfree f List.mem_cons_self
      simpa [hf] using h.kept
    · intro _
      refine ⟨hquiet.1, hquiet.2.1, ?_⟩
      intro g hg
      exact hfree g (List.mem_cons_of_mem f hg)
  · exact h

theorem LinkState.Separate.serverReads {s : LinkState} (h : s.Separate) :
    s.serverReads.Separate := by
  unfold LinkState.serverReads
  cases hwire : s.wire with
  | nil => exact h
  | cons f rest =>
      dsimp only
      split
      · refine ⟨h.kept, ?_⟩
        intro hbeat
        obtain ⟨hopening, howes, hfree⟩ := h.quiet hbeat
        refine ⟨(takes_isOpening _ _).trans hopening, howes, ?_⟩
        intro g hg
        apply hfree
        rw [hwire]
        exact List.mem_cons_of_mem f hg
      · exact h

/-- The server begins a turn while the heartbeat is asleep. -/
theorem LinkState.Separate.begin {s : LinkState} (h : s.Separate)
    (hbeat : s.beat = .asleep) (env : TurnEnv) (turn : TurnState) :
    (s.begin env turn).Separate := by
  unfold LinkState.begin
  split
  · exact ⟨h.kept, fun hawake => absurd hbeat hawake⟩
  · exact h

/-- The server goes on without opening a turn. -/
theorem LinkState.Separate.server {s : LinkState} (h : s.Separate) {phase : ServerPhase}
    (hopening : s.server.isOpening = false → phase.isOpening = false) :
    { s with server := phase }.Separate := by
  refine ⟨h.kept, ?_⟩
  intro hbeat
  obtain ⟨hclosed, howes, hfree⟩ := h.quiet hbeat
  exact ⟨hopening hclosed, howes, hfree⟩

theorem LinkState.Separate.step (timeout : Nat) {s : LinkState} (h : s.Separate)
    {e : LinkEvent} (hapart : Apart s e) : (linkStep timeout s e).Separate := by
  cases e with
  | beatDecides =>
      unfold linkStep
      dsimp only
      split
      · rename_i hguard
        have hquiet : s.Quiet := hapart hguard.2
        exact ⟨h.kept, fun _ => hquiet⟩
      · exact h
  | beatPings =>
      unfold linkStep
      dsimp only
      split
      · rename_i hdecided
        have hquiet : s.Quiet := h.quiet (by rw [hdecided]; simp)
        exact ⟨h.kept, fun _ => hquiet⟩
      · exact h
  | beatReads => exact h.beatReads
  | beatTimesOut =>
      unfold linkStep
      dsimp only
      split
      · exact h
      · exact ⟨h.kept, fun hawake => absurd rfl hawake⟩
  | turnStarts env stream => exact h.begin hapart env _
  | compactStarts env => exact h.begin hapart env _
  | sessionWritten =>
      unfold linkStep
      dsimp only
      split
      · rename_i hopening
        refine ⟨h.kept, ?_⟩
        intro hbeat
        have hclosed := (h.quiet hbeat).1
        rw [hopening] at hclosed
        cases hclosed
      · exact h
  | requestWritten =>
      unfold linkStep
      dsimp only
      split
      · rename_i env turn hserver
        refine ⟨h.kept, ?_⟩
        intro hbeat
        have hclosed := (h.quiet hbeat).1
        rw [hserver] at hclosed
        cases hclosed
      · exact h
  | beginFails =>
      unfold linkStep
      dsimp only
      split
      · exact h.server fun _ => rfl
      · exact h
  | serverReads => exact h.serverReads
  | serverIdles late => exact h.server (idles_isOpening s.server late).trans
  | serverServes connections => exact h.server (serves_isOpening s.server connections).trans
  | turnCloses =>
      unfold linkStep
      dsimp only
      split
      · exact h.server fun _ => rfl
      · exact h
  | agentSends text =>
      unfold linkStep
      dsimp only
      split
      · rename_i howes
        refine ⟨h.kept, ?_⟩
        intro hbeat
        have hdone := (h.quiet hbeat).2.1
        rw [howes] at hdone
        cases hdone
      · exact h
  | agentFinishes =>
      refine ⟨h.kept, ?_⟩
      intro hbeat
      obtain ⟨hopening, -, hfree⟩ := h.quiet hbeat
      exact ⟨hopening, rfl, hfree⟩
  | agentAnswers text =>
      refine ⟨h.kept, ?_⟩
      intro hbeat
      obtain ⟨hopening, howes, hfree⟩ := h.quiet hbeat
      refine ⟨hopening, howes, ?_⟩
      intro g hg
      rcases List.mem_append.mp hg with hold | hnew
      · exact hfree g hold
      · rw [List.mem_singleton.mp hnew]

/-- **The heartbeat steals no turn frame** in any state of a run whose turns
begin while the heartbeat sleeps, and in which the heartbeat goes ahead only when
no turn has frames to come. -/
theorem heartbeat_steals_nothing (timeout : Nat) (events : List LinkEvent)
    (h : AllSteps (linkStep timeout) Apart .start events) (done rest : List LinkEvent)
    (hsplit : events = done ++ rest) :
    (stateAfter (linkStep timeout) .start done).stolen = [] := by
  rw [hsplit] at h
  have hkeep : ∀ (s : LinkState) (e : LinkEvent),
      s.Separate → Apart s e → (linkStep timeout s e).Separate :=
    fun s e hs he => hs.step timeout he
  have hdone := (AllSteps.append_iff.mp h).1
  exact (stateAfter_invariant hkeep LinkState.Separate.start hdone).kept

/-- A round, then a turn that starts when it is over. -/
theorem heartbeat_before_turn :
    (stateAfter (linkStep 60000) .start
      [.beatDecides, .beatPings, .agentAnswers (lit "\x7b\"type\":\"pong\",\"status\":\"ok\"\x7d"),
        .beatReads, .turnStarts sampleTurnEnv none, .requestWritten, .beatDecides,
        .agentSends acceptance,
        .serverReads]).stolen = [] := by
  have hquiet : LinkState.start.Quiet :=
    ⟨rfl, rfl, fun f hf => absurd hf (by simp [LinkState.start])⟩
  apply heartbeat_steals_nothing 60000 _ _ _ [] (List.append_nil _).symm
  refine ⟨fun _ => hquiet, trivial, trivial, trivial, ?_, trivial, ?_, trivial, trivial, trivial⟩
  · show (linkStep 60000 _ .beatReads).beat = .asleep
    decide +kernel
  · intro hclear
    cases hclear

/-! ## A turn the flag does not cover -/

/-- With the flag clear the heartbeat can bring itself to wait. -/
theorem heartbeat_can_wait (timeout : Nat) {s : LinkState}
    (hclear : s.server.turnActive = false) :
    ∃ beats : List LinkEvent, ∃ remaining,
      (∀ e ∈ beats, e = .beatDecides ∨ e = .beatPings) ∧
        stateAfter (linkStep timeout) s beats = { s with beat := .waiting remaining } := by
  cases hbeat : s.beat with
  | asleep =>
      refine ⟨[.beatDecides, .beatPings], timeout, ?_, ?_⟩
      · intro e he
        simpa using he
      · have hdecides : linkStep timeout s .beatDecides = { s with beat := .decided } :=
          if_pos ⟨hbeat, hclear⟩
        rw [stateAfter_cons, hdecides]
        rfl
  | decided =>
      refine ⟨[.beatPings], timeout, ?_, ?_⟩
      · intro e he
        exact Or.inr (List.mem_singleton.mp he)
      · exact if_pos hbeat
  | waiting remaining =>
      refine ⟨[], remaining, ?_, ?_⟩
      · intro e he
        cases he
      · rw [stateAfter_nil, ← hbeat]

/-- **Only the flag protects a turn**: while it is clear, the heartbeat's own
steps can take any frame of a turn that is on the stream. -/
theorem heartbeat_can_steal {timeout : Nat} {s : LinkState} {f : StreamFrame}
    (hclear : s.server.turnActive = false) (hwire : f ∈ s.wire) (hturn : f.ofTurn = true) :
    ∃ beats : List LinkEvent,
      (∀ e ∈ beats, e = .beatDecides ∨ e = .beatPings ∨ e = .beatReads) ∧
        f.text ∈ (stateAfter (linkStep timeout) s beats).stolen := by
  generalize hframes : s.wire = frames at hwire
  induction frames generalizing s with
  | nil => cases hwire
  | cons g rest ih =>
      obtain ⟨beats, remaining, hbeats, hwaits⟩ := heartbeat_can_wait timeout hclear
      have hbeats' : ∀ e ∈ beats, e = .beatDecides ∨ e = .beatPings ∨ e = .beatReads := by
        intro e he
        rcases hbeats e he with hdecides | hpings
        · exact Or.inl hdecides
        · exact Or.inr (Or.inl hpings)
      have hreads : (stateAfter (linkStep timeout) s (beats ++ [.beatReads])) =
          { s with wire := rest, beat := .after (waitPongRead remaining (some g.text)),
                   stolen := if g.ofTurn then s.stolen ++ [g.text] else s.stolen } := by
        rw [stateAfter_append, hwaits]
        show LinkState.beatReads _ = _
        unfold LinkState.beatReads
        rw [hframes]
      rcases List.mem_cons.mp hwire with hhead | hrest
      · refine ⟨beats ++ [.beatReads], ?_, ?_⟩
        · intro e he
          rcases List.mem_append.mp he with hold | hnew
          · exact hbeats' e hold
          · exact Or.inr (Or.inr (List.mem_singleton.mp hnew))
        · rw [hreads, ← hhead, hturn]
          exact List.mem_append_right _ List.mem_cons_self
      · obtain ⟨more, hmore, hstolen⟩ := ih (s := stateAfter (linkStep timeout) s
          (beats ++ [.beatReads])) (by rw [hreads]; exact hclear) (by rw [hreads]) hrest
        refine ⟨beats ++ [.beatReads] ++ more, ?_, ?_⟩
        · intro e he
          rcases List.mem_append.mp he with hold | hnew
          · rcases List.mem_append.mp hold with hbeat | hread
            · exact hbeats' e hbeat
            · exact Or.inr (Or.inr (List.mem_singleton.mp hread))
          · exact hmore e hnew
        · rw [stateAfter_append]
          exact hstolen

/-- A compact turn leaves the flag clear; the heartbeat pings in the middle of
it and takes the acknowledgement. -/
theorem heartbeat_steals_ack :
    (stateAfter (linkStep 60000) .start
      [.compactStarts sampleTurnEnv, .requestWritten, .beatDecides, .beatPings,
        .agentSends acceptance,
        .beatReads]).stolen =
      [acceptance] := by
  decide +kernel

end StarBridge
