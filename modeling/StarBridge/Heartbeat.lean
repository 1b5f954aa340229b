import StarBridge.JsonUtils
import StarBridge.Loops
import StarBridge.Runs

/-!
# The heartbeat

While no turn is active the heartbeat thread pings the agent and waits for its
pong.  A round without one marks the connection unhealthy, and turns are then
refused; a round with one records the time and nothing else.
`health_reflects_iff` says when the state of the connection still tells how the
latest round went.
-/

namespace StarBridge

open CText Loops Runs

/-- `ConnectionState`. -/
inductive ConnectionState
  | disconnected
  | connecting
  | connected
  | handshaking
  | ready
  | unhealthy
  | closed
  deriving DecidableEq, Repr

/-- The connections `handle_response_native` serves a turn on. -/
def servesTurn : ConnectionState → Bool
  | .ready | .connected | .handshaking => true
  | _ => false

/-! ## Waiting for a pong -/

/-- The frames `engine_wait_pong` takes for a pong. -/
def isPong (frame : Bytes) : Bool :=
  occurs (lit "\"type\":\"pong\"") (cstr frame) &&
    occurs (lit "\"status\":\"ok\"") (cstr frame)

/-- One read of `engine_wait_pong`, with `remaining` milliseconds left: any
other frame costs 100 of them. -/
def waitPongRead (remaining : Nat) : Option Bytes → Progress Nat Bool
  | none => .ended false
  | some resp =>
      if isPong resp then .ended true
      else if remaining ≤ 100 then .ended false
      else .running (remaining - 100)

/-- `engine_wait_pong`, on the frames that arrive before its deadline. -/
def engineWaitPong (timeout : Nat) (frames : List Bytes) : Bool :=
  ((run waitPongRead timeout (frames.map some ++ [none])).result?).getD false

/-! ## Rounds and turns -/

/-- What the heartbeat and the turns have to do with one another, and how the
round completed last went. -/
structure HealthState where
  connection : ConnectionState
  turnActive : Bool
  lastRound : Option Bool
  deriving DecidableEq

/-- The connection as the server finds it: the handshake is over. -/
def HealthState.opened : HealthState := ⟨.ready, false, none⟩

/-- What happens on a connection that stays open. -/
inductive HealthEvent
  | heartbeat (frames : List Bytes)
  | turnRequested
  | compactRequested
  | turnCancelled
  | turnEnded

/-- One round of `heartbeat_loop`, skipped while a turn is active. -/
def HealthState.heartbeat (timeout : Nat) (frames : List Bytes) (s : HealthState) :
    HealthState :=
  if s.turnActive then s
  else if engineWaitPong timeout frames then { s with lastRound := some true }
  else { s with connection := .unhealthy, lastRound := some false }

/-- One event.  A turn that is not refused is marked active, a compact turn is
not; a cancellation inside a turn and the end of either kind of turn clear the
mark. -/
def healthStep (timeout : Nat) (s : HealthState) : HealthEvent → HealthState
  | .heartbeat frames => s.heartbeat timeout frames
  | .turnRequested => if servesTurn s.connection then { s with turnActive := true } else s
  | .compactRequested => s
  | .turnCancelled => { s with turnActive := false }
  | .turnEnded => { s with turnActive := false }

/-- The connection is unhealthy, and turns are refused, only when the latest
round failed. -/
def HealthState.Reflects (s : HealthState) : Prop :=
  (s.connection = .unhealthy → s.lastRound = some false) ∧
    (servesTurn s.connection = false → s.lastRound = some false)

/-- The agent answers a heartbeat on a connection that has been marked
unhealthy. -/
def AnswersAgain (timeout : Nat) (s : HealthState) (e : HealthEvent) : Prop :=
  s.connection = .unhealthy ∧ s.turnActive = false ∧
    ∃ frames, e = .heartbeat frames ∧ engineWaitPong timeout frames = true

variable (timeout : Nat)

/-- Nothing but a failed round changes the state of the connection. -/
theorem connection_healthStep (s : HealthState) (e : HealthEvent) :
    (healthStep timeout s e).connection = s.connection ∨
      ((healthStep timeout s e).connection = .unhealthy ∧
        (healthStep timeout s e).lastRound = some false) := by
  cases e with
  | heartbeat frames =>
      unfold healthStep HealthState.heartbeat
      dsimp only
      split
      · exact Or.inl rfl
      · split
        · exact Or.inl rfl
        · exact Or.inr ⟨rfl, rfl⟩
  | turnRequested =>
      unfold healthStep
      dsimp only
      split
      · exact Or.inl rfl
      · exact Or.inl rfl
  | compactRequested => exact Or.inl rfl
  | turnCancelled => exact Or.inl rfl
  | turnEnded => exact Or.inl rfl

/-- A connection is ready, or it is unhealthy since a round failed. -/
def HealthState.Known (s : HealthState) : Prop :=
  s.connection = .ready ∨ (s.connection = .unhealthy ∧ s.lastRound = some false)

theorem HealthState.Known.reflects {s : HealthState} (h : s.Known) : s.Reflects := by
  rcases h with hready | ⟨-, hlast⟩
  · constructor
    · intro hunhealthy
      rw [hready] at hunhealthy
      cases hunhealthy
    · intro hrefused
      rw [hready] at hrefused
      cases hrefused
  · exact ⟨fun _ => hlast, fun _ => hlast⟩

/-- A round that does not bring an unhealthy connection's agent back keeps what
is known. -/
theorem HealthState.Known.step {s : HealthState} (h : s.Known) {e : HealthEvent}
    (hsilent : ¬ AnswersAgain timeout s e) : (healthStep timeout s e).Known := by
  rcases connection_healthStep timeout s e with hsame | hfailed
  · rcases h with hready | ⟨hunhealthy, hlast⟩
    · exact Or.inl (hsame.trans hready)
    · refine Or.inr ⟨hsame.trans hunhealthy, ?_⟩
      cases e with
      | heartbeat frames =>
          unfold healthStep HealthState.heartbeat
          dsimp only
          by_cases hactive : s.turnActive = true
          · rw [if_pos hactive]
            exact hlast
          · rw [if_neg hactive]
            have hpong : ¬ engineWaitPong timeout frames = true := by
              intro hpong
              exact hsilent ⟨hunhealthy, by simpa using hactive, frames, rfl, hpong⟩
            rw [if_neg hpong]
      | turnRequested =>
          unfold healthStep
          dsimp only
          split
          · exact hlast
          · exact hlast
      | compactRequested => exact hlast
      | turnCancelled => exact hlast
      | turnEnded => exact hlast
  · exact Or.inr hfailed

/-- An answer to an unhealthy connection leaves it unhealthy. -/
theorem AnswersAgain.not_reflects {s : HealthState} {e : HealthEvent}
    (h : AnswersAgain timeout s e) : ¬ (healthStep timeout s e).Reflects := by
  obtain ⟨hunhealthy, hactive, frames, rfl, hpong⟩ := h
  have hafter : healthStep timeout s (.heartbeat frames) = { s with lastRound := some true } := by
    show s.heartbeat timeout frames = _
    rw [HealthState.heartbeat, if_neg (by simp [hactive]), if_pos hpong]
  intro hreflects
  rw [hafter] at hreflects
  have hlast := hreflects.1 hunhealthy
  cases hlast

/-- **Health reflects the latest heartbeat**, exactly: in every state of a run,
iff the agent answers no heartbeat after the connection was marked unhealthy. -/
theorem health_reflects_iff (events : List HealthEvent) :
    (∀ done rest, events = done ++ rest →
        (stateAfter (healthStep timeout) .opened done).Reflects) ↔
      AllSteps (healthStep timeout) (fun s e => ¬ AnswersAgain timeout s e) .opened events := by
  have hstart : HealthState.opened.Known := Or.inl rfl
  generalize HealthState.opened = s at hstart
  induction events generalizing s with
  | nil =>
      refine ⟨fun _ => trivial, fun _ done rest hsplit => ?_⟩
      have hdone := (List.append_eq_nil_iff.mp hsplit.symm).1
      rw [hdone]
      exact hstart.reflects
  | cons e events ih =>
      constructor
      · intro h
        have hsilent : ¬ AnswersAgain timeout s e := by
          intro hanswers
          exact hanswers.not_reflects timeout (h [e] events rfl)
        refine ⟨hsilent, (ih _ (hstart.step timeout hsilent)).mp ?_⟩
        intro done rest hsplit
        exact h (e :: done) rest (congrArg (e :: ·) hsplit)
      · intro h done rest hsplit
        obtain ⟨hsilent, hrest⟩ := h
        cases done with
        | nil => exact hstart.reflects
        | cons d done =>
            obtain ⟨rfl, htail⟩ := List.cons.inj hsplit
            exact (ih _ (hstart.step timeout hsilent)).mpr hrest done rest htail

/-- A missed pong, then one in time: the connection stays unhealthy and the next
turn is refused. -/
theorem health_stays_unhealthy :
    ¬ (stateAfter (healthStep 60000) .opened
        [.heartbeat [],
          .heartbeat [lit "\x7b\"type\":\"pong\",\"status\":\"ok\"\x7d"]]).Reflects := by
  intro h
  have hlast := h.1 (by decide +kernel)
  exact absurd hlast (by decide +kernel)

end StarBridge
