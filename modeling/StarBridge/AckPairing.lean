import StarBridge.Runs
import StarBridge.SessionRuns

/-!
# Whose acknowledgement a session call reads

Each of the four session calls of the engine writes a frame and waits ten
seconds for one answer.  Nothing in an answer says what it answers, and an
answer that comes too late stays on the connection for whoever reads next.  The
agent is taken to answer every frame it gets, in order; when an answer arrives
is up to the schedule.
-/

namespace StarBridge

open CText Runs

/-- A session call of the engine. -/
inductive SessionCall
  | load (key stateId : Bytes)
  | save (key stateId : Bytes)
  | switch (fromKey toKey toStateId : Bytes)
  | create (key metadata : Bytes)
  deriving DecidableEq, Repr

/-- The frame a call writes. -/
def SessionCall.frame (env : SessionEnv) : SessionCall → SessionFrame
  | load key stateId => .loadState key stateId
  | save key stateId => .saveState key stateId
  | switch fromKey toKey toStateId => .switchState fromKey toKey toStateId
  | create key metadata =>
      .createState key env.workspace env.codexModel env.contextTokens metadata

/-- The call. -/
def SessionCall.step (env : SessionEnv) (now : Bytes) (reply : AgentReply) (w : SessionWorld) :
    SessionCall → SessionStep
  | load key stateId => engineLoadSessionState key stateId now reply w
  | save key stateId => engineSaveSessionState key stateId reply w
  | switch fromKey toKey toStateId => engineSwitchSessionState fromKey toKey toStateId reply w
  | create key metadata => engineCreateSessionState env key metadata now reply w

/-- A call, what the agent makes of it and answers, and whether an answer has
arrived when the wait of the call is over. -/
structure ScheduledCall where
  call : SessionCall
  now : Bytes
  accepts : Bool
  answer : Bytes
  inTime : Bool

/-- The bridge and the agent between two calls: the answers nobody has read, each
with the number of its call, and how many calls there have been. -/
structure CallLink where
  world : SessionWorld
  late : List (Nat × Bytes)
  made : Nat

/-- The link before the first call. -/
def CallLink.opened (w : SessionWorld) : CallLink := ⟨w, [], 0⟩

/-- The answers a call has in front of it: its own is the last. -/
def CallLink.queue (s : CallLink) (c : ScheduledCall) : List (Nat × Bytes) :=
  s.late ++ [(s.made, c.answer)]

/-- The answer a call reads: the first there is. -/
def CallLink.read (s : CallLink) (c : ScheduledCall) : Option (Nat × Bytes) :=
  if c.inTime then (s.queue c).head? else none

/-- A call over the link. -/
def CallLink.run (env : SessionEnv) (s : CallLink) (c : ScheduledCall) : SessionStep :=
  c.call.step env c.now ⟨c.accepts, (s.read c).map (·.2)⟩ s.world

/-- The link after a call; a frame that does not fit its buffer is not sent, and
so not answered. -/
def callStep (env : SessionEnv) (s : CallLink) (c : ScheduledCall) : CallLink where
  world := (s.run env c).world
  late :=
    if (c.call.frame env).Fits then if c.inTime then (s.queue c).tail else s.queue c
    else s.late
  made := s.made + 1

/-- A call that returns true has read its own answer, and the agent has accepted
the call. -/
def OwnAcceptance (env : SessionEnv) (s : CallLink) (c : ScheduledCall) : Prop :=
  (s.run env c).ok = true → c.accepts = true ∧ (s.read c).map (·.1) = some s.made

/-- No acceptance for another: the answer to an earlier call that is read in its
place does not pass for an acceptance, and its own does only if it is one. -/
def AnswersPaired (env : SessionEnv) (s : CallLink) (c : ScheduledCall) : Prop :=
  (c.call.frame env).Fits → c.inTime = true →
    (∀ first ∈ s.late.head?, ackAccepted first.2 = false) ∧
      (s.late = [] → ackAccepted c.answer = true → c.accepts = true)

/-- The answers nobody has read belong to calls that are over. -/
def CallLink.Past (s : CallLink) : Prop := ∀ a ∈ s.late, a.1 < s.made

/-- What a call returns. -/
theorem run_ok (env : SessionEnv) (s : CallLink) (c : ScheduledCall) :
    (s.run env c).ok = true ↔
      (c.call.frame env).Fits ∧ ∃ a, s.read c = some a ∧ ackAccepted a.2 = true := by
  have hok : (s.run env c).ok =
      (decide (c.call.frame env).Fits && ((s.read c).map (·.2)).any ackAccepted) := by
    unfold CallLink.run SessionCall.step SessionCall.frame
    cases c.call with
    | load key stateId => exact exchange_ok _ _ _ _
    | save key stateId => exact exchange_ok _ _ _ _
    | switch fromKey toKey toStateId => exact exchange_ok _ _ _ _
    | create key metadata => exact exchange_ok _ _ _ _
  rw [hok, Bool.and_eq_true, decide_eq_true_iff]
  refine and_congr_right fun _ => ?_
  cases s.read c with
  | none => simp
  | some a => simp

/-- Calls leave behind answers to calls that are over. -/
theorem CallLink.Past.step {s : CallLink} (h : s.Past) (env : SessionEnv) (c : ScheduledCall) :
    (callStep env s c).Past := by
  have hqueue : ∀ a ∈ s.queue c, a.1 < s.made + 1 := by
    intro a ha
    rcases List.mem_append.mp ha with ha | ha
    · exact Nat.lt_succ_of_lt (h a ha)
    · rw [List.mem_singleton.mp ha]
      exact Nat.lt_succ_self _
  intro a ha
  unfold callStep at ha
  dsimp only at ha
  split at ha
  · split at ha
    · exact hqueue a (List.mem_of_mem_tail ha)
    · exact hqueue a ha
  · exact Nat.lt_succ_of_lt (h a ha)

/-- One call, exactly. -/
theorem CallLink.Past.ownAcceptance_iff {s : CallLink} (h : s.Past) (env : SessionEnv)
    (c : ScheduledCall) : OwnAcceptance env s c ↔ AnswersPaired env s c := by
  unfold OwnAcceptance AnswersPaired
  rw [run_ok]
  unfold CallLink.read CallLink.queue
  by_cases hfits : (c.call.frame env).Fits
  · by_cases htime : c.inTime = true
    · rw [if_pos htime, forall_prop_of_true hfits, forall_prop_of_true htime]
      cases hlate : s.late with
      | nil =>
          constructor
          · intro hown
            refine ⟨fun first hfirst => absurd hfirst (by simp), ?_⟩
            intro _ hpasses
            exact (hown ⟨hfits, _, rfl, hpasses⟩).1
          · intro hpaired hok
            obtain ⟨-, a, ha, hpasses⟩ := hok
            cases ha
            exact ⟨hpaired.2 rfl hpasses, rfl⟩
      | cons first rest =>
          -- an answer to an earlier call is not the call's own
          have hpast : first.1 ≠ s.made := (h first (by rw [hlate]; exact List.mem_cons_self)).ne
          constructor
          · intro hown
            refine ⟨?_, fun hnil => absurd hnil (List.cons_ne_nil _ _)⟩
            intro first' hfirst
            cases hfirst
            by_contra hpasses
            have hread := (hown ⟨hfits, first, rfl, Bool.not_eq_false _ |>.mp hpasses⟩).2
            exact hpast (Option.some.inj hread)
          · intro hpaired hok
            obtain ⟨-, a, ha, hpasses⟩ := hok
            cases ha
            rw [hpaired.1 first rfl] at hpasses
            cases hpasses
    · rw [if_neg htime]
      refine iff_of_true ?_ fun _ h => absurd h htime
      intro hok
      obtain ⟨-, a, ha, -⟩ := hok
      cases ha
  · exact iff_of_true (fun hok => absurd hok.1 hfits) fun h => absurd h hfits

/-- **Acknowledgements are paired with their calls** in a schedule, exactly: iff
no call is given the acceptance of another, or an answer that only looks like
one. -/
theorem acks_paired_iff (env : SessionEnv) (w : SessionWorld) (calls : List ScheduledCall) :
    AllSteps (callStep env) (OwnAcceptance env) (.opened w) calls ↔
      AllSteps (callStep env) (AnswersPaired env) (.opened w) calls := by
  refine AllSteps.iff_of_invariant CallLink.Past ?_ ?_ fun a h => absurd h List.not_mem_nil
  · intro s c h
    exact h.ownAcceptance_iff env c
  · intro s c h _
    exact h.step env c

/-- A wait that ran out, of a call that was answered. -/
def ScheduledCall.TimedOut (env : SessionEnv) (c : ScheduledCall) : Bool :=
  decide (c.call.frame env).Fits && !c.inTime

/-- **Every wait that runs out shifts the calls after it** by one more answer,
for good. -/
theorem late_length (env : SessionEnv) (s : CallLink) (calls : List ScheduledCall) :
    (stateAfter (callStep env) s calls).late.length =
      s.late.length + calls.countP fun c => c.TimedOut env := by
  induction calls generalizing s with
  | nil => rfl
  | cons c rest ih =>
      have hstep : (callStep env s c).late.length =
          s.late.length + if c.TimedOut env then 1 else 0 := by
        have hqueue : (s.queue c).length = s.late.length + 1 :=
          List.length_append.trans (congrArg _ List.length_singleton)
        unfold callStep ScheduledCall.TimedOut
        by_cases hfits : (c.call.frame env).Fits
        · cases htime : c.inTime with
          | true =>
              have htail : (s.queue c).tail.length = s.late.length := by
                rw [List.length_tail, hqueue, Nat.add_sub_cancel]
              simpa [hfits] using htail
          | false => simpa [hfits] using hqueue
        · simp [hfits]
      rw [stateAfter_cons, ih, hstep, List.countP_cons]
      omega

/-- A save whose acceptance comes late, then a load the agent refuses: the load
reads the acceptance of the save. -/
theorem acks_paired_fails_on_late_answer :
    ¬ AllSteps (callStep sampleEnv) (OwnAcceptance sampleEnv) (.opened (freshWorld none))
      [⟨.save (lit "k") (lit "s1"), lit "7", true,
          lit "\x7b\"type\":\"ack\",\"status\":\"accepted\"\x7d", false⟩,
        ⟨.load (lit "k") (lit "s2"), lit "7", false,
          lit "\x7b\"type\":\"ack\",\"status\":\"rejected\"\x7d", true⟩] := by
  intro h
  have haccepts := (h.2.1 (by decide +kernel)).1
  cases haccepts

end StarBridge
