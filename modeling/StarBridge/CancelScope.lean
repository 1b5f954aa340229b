import StarBridge.SessionRuns
import StarBridge.StaleFrames
import StarBridge.StdioTurns
import StarBridge.TurnBegin

/-!
# How far a cancellation reaches

A cancellation belongs to the request it comes with: a `DELETE` between two
turns, a turn that is cancelled while it runs, a stream whose client takes
nothing.  Here a sequence of requests is compared with the same sequence where
no cancellation leaves a trace in the bridge.  In framed mode every turn clears
the flag, and what a cancellation can leave is frames nobody has read yet; in
stdio mode nothing clears the flag.
-/

namespace StarBridge

open CText Loops Runs

/-! ## Turns of a framed agent, one after another -/

/-- The frames among what the event loop meets. -/
def framesOf (events : List LoopEvent) : List Bytes :=
  events.filterMap fun e =>
    match e with
    | .frame text => some text
    | _ => none

/-- What the event loop has not got to when it ends. -/
def eventsLeft (env : TurnEnv) (s : TurnState) (events : List LoopEvent) : List LoopEvent :=
  match settle env (s.enter env) with
  | .running s => leftover (turnEvent env) s events
  | .ended _ => events

/-- A turn, and what comes from the agent while it runs: behind the frames that
are unread already, to the reads in front of the event loop and to the loop. -/
structure FramedClient where
  env : TurnEnv
  input : TurnInput
  stream : Option ResponsesStreamState
  early : List (Option Bytes)
  events : List LoopEvent

/-- A framed bridge between two requests. -/
structure FramedServer where
  world : SessionWorld
  cancelled : Bool
  currentRequestId : Bytes
  unread : List Bytes
  inTurn : Bool

/-- A turn that has been served, if it is over, and what it leaves. -/
structure ServedTurn where
  turn : Option FramedTurn
  world : SessionWorld
  unread : List Bytes

/-- The configuration of a turn, with its request id. -/
def FramedClient.turnEnv (env : SessionEnv) (c : FramedClient) : TurnEnv :=
  { c.env with
    requestId := lit "req-" ++ decimal c.input.requestNumber
    stdinOpen := env.stdinOpen }

/-- The turn as it begins; `turn_begin` clears the flag. -/
def FramedClient.start (cancelled : Bool) (c : FramedClient) : TurnState :=
  { freshTurn c.stream with engine := (EngineState.mk cancelled true []).uncancelled }

/-- The session frames `turn_begin` waits for an answer to: the save of the
session before, and the opening of the turn's own. -/
def sessionFrames (env : SessionEnv) (w : SessionWorld) (t : TurnInput) : Nat × Nat :=
  let frames := (beginSession env w t).frames
  (frames.countP fun f =>
      match f with
      | .session (.saveState _ _) => true
      | _ => false,
    frames.countP fun f =>
      match f with
      | .session (.saveState _ _) => false
      | .session _ => true
      | _ => false)

/-- The turn with the answers its session frames get. -/
def FramedClient.answered (env : SessionEnv) (w : SessionWorld) (c : FramedClient)
    (reads : List (Option Bytes)) : TurnInput :=
  let saves := (sessionFrames env w c.input).1
  { c.input with
    saveReply := { c.input.saveReply with ack := (reads.take saves).head?.join }
    openReply := { c.input.openReply with ack := (reads.drop saves).head?.join } }

/-- A framed turn from `turn_begin` to `turn_cleanup`. -/
def FramedClient.serve (env : SessionEnv) (s : FramedServer) (c : FramedClient) : ServedTurn :=
  let reads := s.unread.map some ++ c.early
  let begun := (turnBegin env s.world (c.answered env s.world reads)).outcome.world
  let counts := sessionFrames env s.world c.input
  let reads := reads.drop (counts.1 + counts.2)
  let turn := c.start s.cancelled
  match run (ackRead (c.turnEnv env)) 5 reads with
  | .running _ => ⟨none, begun, []⟩
  | .ended e =>
      let behind := (leftover (ackRead (c.turnEnv env)) 5 reads).filterMap id
      if e.ok then
        let events := behind.map .frame ++ c.events
        match turnProcessEvents (c.turnEnv env) turn events with
        | .running _ => ⟨none, begun, []⟩
        | .ended t =>
            let rest := framesOf (eventsLeft (c.turnEnv env) turn events)
            let ended : FramedTurn := ⟨.processed t.outcome, t.state⟩
            if t.outcome = .completed then
              -- the save of the session reads its answer like any other frame
              let reply := { c.input.finalSaveReply with ack := rest.head? }
              let saved := saveAfterTurn env begun { c.input with finalSaveReply := reply }
              ⟨some ended, saved.world, rest.drop saved.frames.length⟩
            else ⟨some ended, begun, rest⟩
      else
        ⟨some ⟨.notAccepted e, turn.afterAck (c.turnEnv env) e⟩, begun,
          behind ++ framesOf c.events⟩

/-- A request to a framed bridge, with what the agent sends when it is served:
in answer to a cancel frame, and to a health frame. -/
inductive FramedRequest
  | turn (c : FramedClient)
  | delete (replies : List Bytes)
  | health (replies : List Bytes)
  | other

/-- The engine after a `DELETE` between two turns. -/
def FramedServer.afterDelete (env : SessionEnv) (s : FramedServer) : EngineState :=
  engineCancel env.stdinOpen s.currentRequestId ⟨s.cancelled, false, []⟩

/-- The bridge after a request.  A turn that is not over lets no other request
in. -/
def framedStep (env : SessionEnv) (s : FramedServer) (r : FramedRequest) : FramedServer :=
  if s.inTurn then s
  else
    match r with
    | .turn c =>
        let served := c.serve env s
        { world := served.world
          cancelled := false
          currentRequestId := (c.turnEnv env).requestId
          unread := served.unread
          inTurn := served.turn.isNone }
    | .delete replies =>
        let after := s.afterDelete env
        { s with
          cancelled := after.cancelled
          unread := s.unread ++ if after.sent = [] then [] else replies }
    | .health replies => { s with unread := (s.unread ++ replies).drop 1 }
    | .other => s

/-- The turn a request is, once it is over. -/
def framedOut (env : SessionEnv) (s : FramedServer) : FramedRequest → Option FramedTurn
  | .turn c => if s.inTurn then none else (c.serve env s).turn
  | _ => none

/-- The turns of a sequence of requests. -/
def framedTurns (env : SessionEnv) (s : FramedServer) (requests : List FramedRequest) :
    List (Option FramedTurn) :=
  trace (framedStep env) (framedOut env) s requests

/-! ## Cancellations that end with their turn -/

/-- The turn was cancelled while it ran. -/
def ServedTurn.wasCancelled (served : ServedTurn) : Bool :=
  served.turn.any fun t => t.state.engine.cancelled

/-- The bridge after a request that leaves no trace of a cancellation: a
`DELETE` changes nothing, and a turn that is cancelled takes its frames with
it. -/
def scopedFramedStep (env : SessionEnv) (s : FramedServer) (r : FramedRequest) : FramedServer :=
  if s.inTurn then s
  else
    match r with
    | .turn c =>
        if (c.serve env s).wasCancelled then { framedStep env s r with unread := [] }
        else framedStep env s r
    | .delete _ => s
    | r => framedStep env s r

/-- The turns where no cancellation outlives the request it belongs to. -/
def scopedFramedTurns (env : SessionEnv) (s : FramedServer) (requests : List FramedRequest) :
    List (Option FramedTurn) :=
  trace (scopedFramedStep env) (framedOut env) s requests

/-- A cancellation that leaves no frame behind: the agent has nothing to say to
the cancel frame of a `DELETE`, if there is one, and a turn that is cancelled
has read what the agent sent for it. -/
def LeavesNothing (env : SessionEnv) (s : FramedServer) (r : FramedRequest) : Prop :=
  s.inTurn = false →
    match r with
    | .turn c => (c.serve env s).wasCancelled = true → (c.serve env s).unread = []
    | .delete replies => env.stdinOpen = true → s.cancelled = false → replies = []
    | _ => True

/-- Two bridges that differ in the flag alone. -/
def FramedServer.Alike (s t : FramedServer) : Prop :=
  t = { s with cancelled := t.cancelled }

/-- A `DELETE` the agent does not answer changes the flag alone. -/
theorem delete_alike {env : SessionEnv} {s : FramedServer} {replies : List Bytes}
    (h : env.stdinOpen = true → s.cancelled = false → replies = []) :
    s.unread ++ (if (s.afterDelete env).sent = [] then [] else replies) = s.unread := by
  unfold FramedServer.afterDelete engineCancel
  split
  · exact List.append_nil _
  · rename_i hlive
    split
    · rename_i hopen
      rw [h hopen (Bool.not_eq_true _ |>.mp hlive), ite_self, List.append_nil]
    · exact List.append_nil _

/-- One request, beside the same request where its cancellation leaves no
trace. -/
theorem framedStep_alike (env : SessionEnv) {s t : FramedServer} (h : s.Alike t)
    {r : FramedRequest} (hr : LeavesNothing env s r) :
    framedOut env s r = framedOut env t r ∧
      (framedStep env s r).Alike (scopedFramedStep env t r) := by
  rw [h]
  generalize t.cancelled = flag
  have hserve : ∀ c : FramedClient, c.serve env { s with cancelled := flag } = c.serve env s :=
    fun c => rfl
  unfold framedStep scopedFramedStep
  by_cases hturn : s.inTurn = true
  · refine ⟨?_, ?_⟩
    · cases r with
      | turn c => exact (if_pos hturn).trans (if_pos hturn).symm
      | delete replies => rfl
      | health replies => rfl
      | other => rfl
    · rw [if_pos hturn, if_pos hturn]
      rfl
  · have hquiet := hr (Bool.not_eq_true _ |>.mp hturn)
    rw [if_neg hturn, if_neg hturn]
    cases r with
    | turn c =>
        refine ⟨rfl, ?_⟩
        dsimp only at hquiet ⊢
        rw [hserve]
        split
        · rename_i hcancelled
          rw [framedStep, if_neg hturn]
          dsimp only
          rw [hserve]
          exact congrArg (FramedServer.mk _ _ _ · _) (hquiet hcancelled).symm
        · rw [framedStep, if_neg hturn]
          rfl
    | delete replies =>
        refine ⟨rfl, ?_⟩
        exact congrArg (FramedServer.mk _ _ _ · _) (delete_alike hquiet).symm
    | health replies =>
        refine ⟨rfl, ?_⟩
        dsimp only
        rw [framedStep, if_neg hturn]
        rfl
    | other =>
        refine ⟨rfl, ?_⟩
        dsimp only
        rw [framedStep, if_neg hturn]
        rfl

/-- **Framed mode.**  A sequence of requests in which no cancellation leaves a
frame behind is served as if none left any trace. -/
theorem framedTurns_scoped (env : SessionEnv) (s : FramedServer)
    (requests : List FramedRequest)
    (h : AllSteps (framedStep env) (LeavesNothing env) s requests) :
    framedTurns env s requests = scopedFramedTurns env s requests := by
  refine trace_eq_of_steps (R := FramedServer.Alike) ?_ ?_ h
  · intro s t r halike hr
    exact framedStep_alike env halike hr
  · unfold FramedServer.Alike
    rfl

/-! ## What a cancellation can leave behind -/

/-- The wait is over after its last read; what is behind that read is left. -/
theorem awaitAck_stops (env : TurnEnv) (last : Option Bytes) {left : Nat} (hpos : 0 < left)
    {frames : List Bytes} (hle : left ≤ frames.length) :
    ∃ e post, run (ackRead env) left (frames.map some ++ [last]) = .ended e ∧
      leftover (ackRead env) left (frames.map some ++ [last]) = post ++ [last] := by
  induction frames generalizing left with
  | nil => exact absurd hpos (not_lt.mpr hle)
  | cons f rest ih =>
      rw [List.map_cons, List.cons_append, run_cons, leftover]
      cases hverdict : ackVerdict env f with
      | some verdict =>
          rw [ackRead_decided hverdict]
          exact ⟨verdict, rest.map some, rfl, rfl⟩
      | none =>
          rw [ackRead_skipped hverdict]
          by_cases hlast : left ≤ 1
          · rw [if_pos hlast]
            exact ⟨.exhausted, rest.map some, rfl, rfl⟩
          · rw [if_neg hlast]
            refine ih (by omega) ?_
            rw [List.length_cons] at hle
            omega

/-- A frame that is skipped by a wait. -/
def strayPong : Bytes := lit "\x7b\"type\":\"pong\"\x7d"

/-- A turn without a session, whose request the agent accepts at the last read;
one frame in its event loop is enough to end it. -/
def lateAcceptance : FramedClient where
  env := { sampleTurnEnv with maxTurnEvents := 1, maxTurnEvents_int := by decide }
  input := { sampleTurn (List.replicate 256 97) with requestNumber := 2 }
  stream := none
  early := [some strayPong, some strayPong, some strayPong, some strayPong, some acceptance]
  events := []

theorem lateAcceptance_sessionFrames (env : SessionEnv) (w : SessionWorld) :
    sessionFrames env w lateAcceptance.input = (0, 0) := by
  have hkey : sessionKey env.workspace (List.replicate 256 97) = [] := by
    unfold sessionKey
    rw [if_neg]
    simp only [sessionKeyText, List.length_append, List.length_replicate]
    omega
  have hframes : (beginSession env w lateAcceptance.input).frames = [] := by
    have hnamed : beginSession env w lateAcceptance.input =
        beginNamed env w lateAcceptance.input (List.replicate 256 97) := rfl
    rw [hnamed, beginNamed]
    dsimp only
    rw [if_pos hkey]
  unfold sessionFrames
  rw [hframes]
  rfl

/-- A frame of the turn ends its event loop. -/
theorem lateAcceptance_loop (env : SessionEnv) (s : TurnState) (events : List LoopEvent) :
    ∃ e, turnProcessEvents (lateAcceptance.turnEnv env) s (events ++ [.frame acceptance]) =
      .ended e := by
  have hlast : ∀ t, ∃ e, turnEvent (lateAcceptance.turnEnv env) t (.frame acceptance) =
      .ended e := by
    intro t
    have hecho : echoesId (lateAcceptance.turnEnv env) acceptance = true := by
      have hsame : echoesId (lateAcceptance.turnEnv env) acceptance =
          echoesId (lateAcceptance.turnEnv sampleEnv) acceptance := rfl
      rw [hsame]
      decide +kernel
    have htype : (nativeParseFrame (lateAcceptance.turnEnv env).parser acceptance).type =
        .ack := by
      have hsame : (lateAcceptance.turnEnv env).parser =
          (lateAcceptance.turnEnv sampleEnv).parser := rfl
      rw [hsame]
      decide +kernel
    have hown : ¬ ((nativeParseFrame (lateAcceptance.turnEnv env).parser acceptance).id ≠ [] ∧
        ¬ echoesId (lateAcceptance.turnEnv env) acceptance = true) := fun h => h.2 hecho
    have hraw : ∀ u : TurnState, dispatchEvent (lateAcceptance.turnEnv env) u acceptance
        (nativeParseFrame (lateAcceptance.turnEnv env).parser acceptance) =
          .running (rawFrame (lateAcceptance.turnEnv env) u acceptance) := by
      intro u
      unfold dispatchEvent
      rw [htype]
    have hsettle : ∀ u : TurnState, 1 ≤ u.eventCount →
        ∃ e, settle (lateAcceptance.turnEnv env) u = .ended e := by
      intro u hu
      have hlimit : (lateAcceptance.turnEnv env).maxTurnEvents = 1 := rfl
      unfold settle
      rw [hlimit, if_neg (by omega)]
      exact ⟨_, rfl⟩
    obtain ⟨e, he⟩ := hsettle (rawFrame (lateAcceptance.turnEnv env)
      { t.beat with remainingTimeout := (lateAcceptance.turnEnv env).fullTimeout } acceptance)
      (Nat.le_add_left 1 _)
    refine ⟨e, he ▸ ?_⟩
    unfold turnEvent
    dsimp only
    unfold frameEvent
    dsimp only
    rw [if_neg hown, hraw, Progress.bind_running]
  have hrun : ∀ t, ∃ e, run (turnEvent (lateAcceptance.turnEnv env)) t
      (events ++ [.frame acceptance]) = .ended e := by
    induction events with
    | nil =>
        intro t
        obtain ⟨e, he⟩ := hlast t
        exact ⟨e, by rw [List.nil_append, run_cons, he]; rfl⟩
    | cons event rest ih =>
        intro t
        rw [List.cons_append, run_cons]
        cases turnEvent (lateAcceptance.turnEnv env) t event with
        | running u => exact ih u
        | ended e => exact ⟨e, rfl⟩
  unfold turnProcessEvents
  cases settle (lateAcceptance.turnEnv env) (s.enter (lateAcceptance.turnEnv env)) with
  | running t => exact hrun t
  | ended e => exact ⟨e, rfl⟩

/-- With nothing unread the turn is accepted and goes on. -/
theorem lateAcceptance_fresh (env : SessionEnv) (s : FramedServer) (h : s.unread = []) :
    (lateAcceptance.serve env s).turn = none := by
  have hwait : run (ackRead (lateAcceptance.turnEnv env)) 5 lateAcceptance.early =
      .ended .accepted := by
    have hsame : run (ackRead (lateAcceptance.turnEnv env)) 5 lateAcceptance.early =
        run (ackRead (lateAcceptance.turnEnv sampleEnv)) 5 lateAcceptance.early := rfl
    rw [hsame]
    decide +kernel
  have hbehind : leftover (ackRead (lateAcceptance.turnEnv env)) 5 lateAcceptance.early = [] := by
    have hsame : leftover (ackRead (lateAcceptance.turnEnv env)) 5 lateAcceptance.early =
        leftover (ackRead (lateAcceptance.turnEnv sampleEnv)) 5 lateAcceptance.early := rfl
    rw [hsame]
    decide +kernel
  have hloop : turnProcessEvents (lateAcceptance.turnEnv env) (lateAcceptance.start s.cancelled)
      (List.map LoopEvent.frame (List.filterMap id []) ++ lateAcceptance.events) =
        .running ((lateAcceptance.start s.cancelled).enter (lateAcceptance.turnEnv env)) := rfl
  have hdrop : ∀ reads : List (Option Bytes), reads.drop ((0, 0).1 + (0, 0).2) = reads :=
    fun _ => rfl
  unfold FramedClient.serve
  dsimp only
  rw [lateAcceptance_sessionFrames, h]
  rw [List.map_nil, List.nil_append, hdrop, hwait, hbehind]
  dsimp only
  rw [if_pos (show AckEnd.accepted.ok = true from rfl), hloop]

/-- **A frame that is left behind matters.**  Whatever the frames are that a
cancellation has left unread, there is a turn that is over because of them, and
would have gone on without them. -/
theorem leftover_changes_turn (env : SessionEnv) (s : FramedServer) (hidle : s.inTurn = false)
    (hleft : s.unread ≠ []) :
    framedOut env s (.turn lateAcceptance) ≠
      framedOut env { s with unread := [] } (.turn lateAcceptance) := by
  have hnone : framedOut env { s with unread := [] } (.turn lateAcceptance) = none := by
    unfold framedOut
    dsimp only
    rw [lateAcceptance_fresh env { s with unread := [] } rfl, ite_self]
  have hreads : s.unread.map some ++ lateAcceptance.early =
      (s.unread ++ List.replicate 4 strayPong).map some ++ [some acceptance] := by
    rw [List.map_append, List.append_assoc]
    rfl
  have hlong : 5 ≤ (s.unread ++ List.replicate 4 strayPong).length := by
    have hlen := List.length_pos_iff.mpr hleft
    rw [List.length_append, List.length_replicate]
    omega
  have hdrop : ∀ reads : List (Option Bytes), reads.drop ((0, 0).1 + (0, 0).2) = reads :=
    fun _ => rfl
  obtain ⟨e, post, hwait, hbehind⟩ := awaitAck_stops (lateAcceptance.turnEnv env)
    (some acceptance) (by decide : 0 < 5) hlong
  rw [hnone]
  unfold framedOut FramedClient.serve
  dsimp only
  rw [if_neg (by simp [hidle]), lateAcceptance_sessionFrames, hreads, hdrop, hwait, hbehind]
  dsimp only
  split
  · obtain ⟨ended, hended⟩ := lateAcceptance_loop env (lateAcceptance.start s.cancelled)
      ((post.filterMap id).map .frame)
    have hevents : List.map LoopEvent.frame (List.filterMap id (post ++ [some acceptance])) ++
        lateAcceptance.events = (post.filterMap id).map .frame ++ [.frame acceptance] := by
      have hnone : lateAcceptance.events = [] := rfl
      rw [List.filterMap_append, List.map_append, hnone, List.append_nil]
      rfl
    rw [hevents, hended]
    dsimp only
    split
    · exact Option.some_ne_none _
    · exact Option.some_ne_none _
  · exact Option.some_ne_none _

/-! ## Exactly when cancellations end with their turn -/

/-- The request is a `DELETE`. -/
def FramedRequest.isDelete : FramedRequest → Bool
  | .delete _ => true
  | _ => false

/-- Two bridges no turns tell apart, as long as no `DELETE` comes between
them. -/
def SameNext (env : SessionEnv) (s t : FramedServer) : Prop :=
  ∀ later : List FramedRequest, (∀ r ∈ later, r.isDelete = false) →
    framedTurns env s later = framedTurns env t later

/-- Wherever a sequence of requests has come to, the turns that come next are
those that would come if no cancellation so far had left a trace. -/
def FramedScoped (env : SessionEnv) (s : FramedServer) (requests : List FramedRequest) : Prop :=
  ∀ before, before <+: requests →
    SameNext env (stateAfter (framedStep env) s before)
      (stateAfter (scopedFramedStep env) s before)

/-- A request that is no `DELETE` does not see the flag. -/
theorem framedStep_flag (env : SessionEnv) {s t : FramedServer} (h : s.Alike t)
    {r : FramedRequest} (hr : r.isDelete = false) :
    framedOut env s r = framedOut env t r ∧ (framedStep env s r).Alike (framedStep env t r) := by
  rw [h]
  generalize t.cancelled = flag
  unfold framedStep
  by_cases hturn : s.inTurn = true
  · rw [if_pos hturn, if_pos hturn]
    refine ⟨?_, rfl⟩
    cases r with
    | turn c => exact (if_pos hturn).trans (if_pos hturn).symm
    | delete replies => rfl
    | health replies => rfl
    | other => rfl
  · rw [if_neg hturn, if_neg hturn]
    cases r with
    | turn c => exact ⟨rfl, rfl⟩
    | delete replies => cases hr
    | health replies => exact ⟨rfl, rfl⟩
    | other => exact ⟨rfl, rfl⟩

/-- Two bridges that differ in the flag alone are the same to the turns that
come next. -/
theorem sameNext_of_alike (env : SessionEnv) {s t : FramedServer} (h : s.Alike t) :
    SameNext env s t := by
  intro later hlater
  refine trace_eq_of_steps (R := FramedServer.Alike) ?_ h (AllSteps.of_forall hlater s)
  intro s t r halike hr
  exact framedStep_flag env halike hr

/-- Health requests read frames that are unread, one each. -/
theorem sameNext_health (env : SessionEnv) {s t : FramedServer} (hs : s.inTurn = false)
    (ht : t.inTurn = false) {read replies : List Bytes}
    (h : SameNext env { s with unread := read ++ replies } { t with unread := read }) :
    SameNext env { s with unread := replies } { t with unread := [] } := by
  induction read with
  | nil => exact h
  | cons frame rest ih =>
      apply ih
      intro later hlater
      have hall : ∀ r ∈ FramedRequest.health [] :: later, r.isDelete = false := by
        intro r hr
        rcases List.mem_cons.mp hr with hr | hr
        · rw [hr]
          rfl
        · exact hlater r hr
      have hboth := (List.cons_eq_cons.mp (h (.health [] :: later) hall)).2
      unfold framedTurns
      unfold framedStep at hboth
      dsimp only at hboth
      rw [if_neg (by simp [hs]), if_neg (by simp [ht]), List.append_nil, List.append_nil] at hboth
      exact hboth

/-- A turn shows the frames one bridge has and the other has not. -/
theorem not_sameNext_of_unread (env : SessionEnv) {s : FramedServer} (hidle : s.inTurn = false)
    (hleft : s.unread ≠ []) (flag : Bool) :
    ¬ SameNext env s { s with cancelled := flag, unread := [] } := by
  intro h
  have hone := h [.turn lateAcceptance] fun r hr => by rw [List.mem_singleton.mp hr]; rfl
  have hflag : FramedServer.Alike { s with unread := [] }
      { s with cancelled := flag, unread := [] } := rfl
  have hsame := (framedStep_flag env hflag (r := .turn lateAcceptance) rfl).1
  rw [framedTurns, framedTurns, trace, trace] at hone
  exact leftover_changes_turn env s hidle hleft ((List.cons_eq_cons.mp hone).1.trans hsame.symm)

/-- A cancellation whose request is followed by the turns it would be followed
by anyhow has left nothing behind. -/
theorem leavesNothing_of_sameNext (env : SessionEnv) {s t : FramedServer} (h : s.Alike t)
    {r : FramedRequest} (hsame : SameNext env (framedStep env s r) (scopedFramedStep env t r)) :
    LeavesNothing env s r := by
  intro hidle
  have hopen : ¬ s.inTurn = true := by simp [hidle]
  rw [h] at hsame
  generalize t.cancelled = flag at hsame
  unfold framedStep scopedFramedStep at hsame
  rw [if_neg hopen, if_neg hopen] at hsame
  cases r with
  | turn c =>
      intro hcancelled
      by_contra hleft
      have hserve : c.serve env { s with cancelled := flag } = c.serve env s := rfl
      dsimp only at hsame
      rw [hserve, if_pos hcancelled, framedStep, if_neg hopen] at hsame
      have hended : (c.serve env s).turn.isNone = false := by
        unfold ServedTurn.wasCancelled at hcancelled
        cases hturn : (c.serve env s).turn with
        | none => rw [hturn] at hcancelled; cases hcancelled
        | some ended => rfl
      exact not_sameNext_of_unread env hended hleft false hsame
  | delete replies =>
      intro hstdin hlive
      by_contra hleft
      have hafter : s.afterDelete env =
          ⟨true, false, [.cancel (if s.currentRequestId = [] then lit "cancel-1"
            else s.currentRequestId)]⟩ := by
        unfold FramedServer.afterDelete engineCancel
        rw [hlive, hstdin]
        rfl
      dsimp only at hsame
      rw [hafter, if_neg (List.cons_ne_nil _ _)] at hsame
      have hread := sameNext_health env (s := { s with cancelled := true })
        (t := { s with cancelled := flag }) hidle hidle hsame
      exact not_sameNext_of_unread env (s := { s with cancelled := true, unread := replies })
        hidle hleft flag hread
  | health replies => trivial
  | other => trivial

/-- **Framed mode**, exactly: no turn that can come shows a cancellation that is
over iff every cancellation has left nothing behind. -/
theorem framedScoped_iff (env : SessionEnv) (s : FramedServer)
    (requests : List FramedRequest) :
    FramedScoped env s requests ↔
      AllSteps (framedStep env) (LeavesNothing env) s requests := by
  refine views_agree_iff (R := FramedServer.Alike) ?_ ?_ ?_ (show s.Alike s from rfl) requests
  · intro s t halike
    exact sameNext_of_alike env halike
  · intro s t r halike hr
    exact (framedStep_alike env halike hr).2
  · intro s t r halike hsame
    exact leavesNothing_of_sameNext env halike hsame

end StarBridge
