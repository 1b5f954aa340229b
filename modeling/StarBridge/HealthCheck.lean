import StarBridge.Heartbeat
import StarBridge.JsonText

/-!
# Health checks beside the heartbeat

`engine_health_check` and the heartbeat send requests on one connection and read
their answers from one stream.  Each takes whatever frame comes first and drops
it if it is not the answer it waits for.  With an agent that answers every
request, in any order, `probes_served` says when no request goes unanswered.
-/

namespace StarBridge

open CText Loops Runs

/-- The id of the request `engine_health_check` sends. -/
def healthId (now healthSeq : Nat) : Bytes :=
  clip 64 (lit "health_" ++ decimal now ++ lit "_" ++ decimal healthSeq)

/-- The test `engine_health_check` puts its one frame to. -/
def healthOk (healthId resp : Bytes) : Bool :=
  occurs (lit "\"type\":\"health\"") (cstr resp) && occurs healthId (cstr resp) &&
    occurs (lit "\"status\":\"ok\"") (cstr resp)

/-- A request of the bridge that waits for a reply. -/
inductive Probe
  | ping (n : Nat)
  | health (n : Nat)
  deriving DecidableEq, Repr

/-- An agent that answers every ping with a pong and every health request with
a health frame for its id; the `n`th request is made at the time `now n`. -/
structure AnsweringAgent where
  now : Nat → Nat
  reply : Probe → Bytes
  pong : ∀ n, isPong (reply (.ping n)) = true
  health : ∀ n, healthOk (healthId (now n) (n + 1)) (reply (.health n)) = true
  pong_not_health : ∀ n m, healthOk (healthId (now m) (m + 1)) (reply (.ping n)) = false

/-! ## Both threads -/

/-- What the two threads share, and where each stands. -/
structure ProbeState where
  asked : List Probe
  wire : List Probe
  waiting : Option Nat
  checking : Option Nat
  pings : Nat
  checks : Nat
  connection : ConnectionState
  results : List Bool
  deriving DecidableEq

/-- An open connection with nothing on it. -/
def ProbeState.start : ProbeState := ⟨[], [], none, none, 0, 0, .ready, []⟩

/-- A step of the heartbeat thread, of the server or of the agent. -/
inductive ProbeEvent
  | heartbeatPings
  | heartbeatReads
  | heartbeatTimesOut
  | checkStarts
  | checkReads
  | checkTimesOut
  | agentReplies (p : Probe)

/-- No reply is there or on its way. -/
def ProbeState.Silent (s : ProbeState) : Prop := s.asked = [] ∧ s.wire = []

instance (s : ProbeState) : Decidable s.Silent :=
  inferInstanceAs (Decidable (_ ∧ _))

/-- The heartbeat's wait takes a frame off the stream. -/
def ProbeState.heartbeatReads (agent : AnsweringAgent) (s : ProbeState) : ProbeState :=
  match s.waiting, s.wire with
  | some remaining, p :: rest =>
      match waitPongRead remaining (some (agent.reply p)) with
      | .running left => { s with wire := rest, waiting := some left }
      | .ended true => { s with wire := rest, waiting := none }
      | .ended false => { s with wire := rest, waiting := none, connection := .unhealthy }
  | _, _ => s

/-- `engine_health_check` takes a frame off the stream, and that decides. -/
def ProbeState.checkReads (agent : AnsweringAgent) (s : ProbeState) : ProbeState :=
  match s.checking, s.wire with
  | some n, p :: rest =>
      { s with wire := rest, checking := none,
               results := s.results ++
                 [healthOk (healthId (agent.now n) (n + 1)) (agent.reply p)] }
  | _, _ => s

/-- One step of either thread or of the agent.  A step that is not possible is
none; a wait runs into its deadline when nothing will come. -/
def probeStep (agent : AnsweringAgent) (timeout : Nat) (s : ProbeState) :
    ProbeEvent → ProbeState
  | .heartbeatPings =>
      if s.waiting = none then
        { s with waiting := some timeout, asked := s.asked ++ [.ping s.pings],
                 pings := s.pings + 1 }
      else s
  | .heartbeatReads => s.heartbeatReads agent
  | .heartbeatTimesOut =>
      if s.waiting ≠ none ∧ s.Silent then
        { s with waiting := none, connection := .unhealthy }
      else s
  | .checkStarts =>
      if s.checking = none then
        { s with checking := some s.checks, asked := s.asked ++ [.health s.checks],
                 checks := s.checks + 1 }
      else s
  | .checkReads => s.checkReads agent
  | .checkTimesOut =>
      if s.checking ≠ none ∧ s.Silent then
        { s with checking := none, results := s.results ++ [false] }
      else s
  | .agentReplies p =>
      if p ∈ s.asked then { s with asked := s.asked.erase p, wire := s.wire ++ [p] } else s

/-- Every health check has succeeded, and no round has marked the connection
unhealthy. -/
def ProbeState.Served (s : ProbeState) : Prop :=
  s.connection ≠ .unhealthy ∧ ∀ result ∈ s.results, result = true

/-- Whoever reads finds the reply to its own request. -/
def OwnReply (s : ProbeState) : ProbeEvent → Prop
  | .heartbeatReads => s.waiting ≠ none → ∀ n, s.wire.head? ≠ some (.health n)
  | .checkReads => s.checking ≠ none → ∀ n, s.wire.head? ≠ some (.ping n)
  | _ => True

/-- The requests whose reply has not been read. -/
def ProbeState.outstanding (s : ProbeState) : List Probe := s.asked ++ s.wire

/-- The ping whose pong the heartbeat waits for: the last one. -/
def ProbeState.awaitedPong (s : ProbeState) : List Probe :=
  if s.waiting = none then [] else [.ping (s.pings - 1)]

/-- The request whose answer `engine_health_check` waits for. -/
def ProbeState.awaitedHealth (s : ProbeState) : List Probe :=
  s.checking.toList.map .health

/-- All is well so far, and each thread's reply is still to be read. -/
structure ProbeState.Paired (s : ProbeState) : Prop where
  served : s.Served
  replies : s.outstanding.Perm (s.awaitedPong ++ s.awaitedHealth)

/-- A health check whose reply has been taken. -/
def ProbeState.Robbed (s : ProbeState) : Prop :=
  s.checking ≠ none ∧ ∀ n, Probe.health n ∉ s.outstanding

variable (agent : AnsweringAgent) (timeout : Nat)

/-! ## What a step does -/

theorem heartbeatReads_of_none {s : ProbeState} (h : s.waiting = none ∨ s.wire = []) :
    s.heartbeatReads agent = s := by
  unfold ProbeState.heartbeatReads
  rcases h with h | h
  · rw [h]
  · rw [h]
    cases s.waiting <;> rfl

theorem checkReads_of_none {s : ProbeState} (h : s.checking = none ∨ s.wire = []) :
    s.checkReads agent = s := by
  unfold ProbeState.checkReads
  rcases h with h | h
  · rw [h]
  · rw [h]
    cases s.checking <;> rfl

/-- The heartbeat's read takes the first frame, and touches no health check. -/
theorem heartbeatReads_frame {s : ProbeState} {p : Probe} {rest : List Probe}
    {remaining : Nat} (hwaiting : s.waiting = some remaining) (hwire : s.wire = p :: rest) :
    (s.heartbeatReads agent).asked = s.asked ∧ (s.heartbeatReads agent).wire = rest ∧
      (s.heartbeatReads agent).checking = s.checking ∧
      (s.heartbeatReads agent).results = s.results := by
  unfold ProbeState.heartbeatReads
  rw [hwaiting, hwire]
  dsimp only
  cases waitPongRead remaining (some (agent.reply p)) with
  | running left => exact ⟨rfl, rfl, rfl, rfl⟩
  | ended ok => cases ok <;> exact ⟨rfl, rfl, rfl, rfl⟩

/-- Its pong ends the heartbeat's wait. -/
theorem heartbeatReads_pong {s : ProbeState} {n : Nat} {rest : List Probe} {remaining : Nat}
    (hwaiting : s.waiting = some remaining) (hwire : s.wire = .ping n :: rest) :
    s.heartbeatReads agent = { s with wire := rest, waiting := none } := by
  have hread : waitPongRead remaining (some (agent.reply (.ping n))) = .ended true := by
    unfold waitPongRead
    dsimp only
    rw [if_pos (agent.pong n)]
  unfold ProbeState.heartbeatReads
  rw [hwaiting, hwire]
  dsimp only
  rw [hread]

theorem checkReads_frame {s : ProbeState} {p : Probe} {rest : List Probe} {n : Nat}
    (hchecking : s.checking = some n) (hwire : s.wire = p :: rest) :
    s.checkReads agent =
      { s with wire := rest, checking := none,
               results := s.results ++
                 [healthOk (healthId (agent.now n) (n + 1)) (agent.reply p)] } := by
  unfold ProbeState.checkReads
  rw [hchecking, hwire]

/-! ## Nothing goes wrong while each reads its own -/

theorem ProbeState.Served.append {s : ProbeState} (h : s.Served) :
    ∀ result ∈ s.results ++ [true], result = true := by
  intro result hresult
  rcases List.mem_append.mp hresult with hold | hnew
  · exact h.2 result hold
  · exact List.mem_singleton.mp hnew

/-- On a silent connection nobody waits. -/
theorem ProbeState.Paired.not_waiting {s : ProbeState} (h : s.Paired) (hsilent : s.Silent) :
    s.waiting = none ∧ s.checking = none := by
  have hreplies := h.replies
  rw [outstanding, hsilent.1, hsilent.2] at hreplies
  obtain ⟨hpong, hhealth⟩ := List.append_eq_nil_iff.mp hreplies.symm.eq_nil
  constructor
  · by_contra hwaiting
    rw [awaitedPong, if_neg hwaiting] at hpong
    cases hpong
  · cases hchecking : s.checking with
    | none => rfl
    | some n =>
        rw [awaitedHealth, hchecking] at hhealth
        cases hhealth

/-- A reply that is read is one that is awaited. -/
theorem ProbeState.Paired.read {s : ProbeState} (h : s.Paired) {p : Probe}
    {rest : List Probe} (hwire : s.wire = p :: rest) :
    p ∈ s.awaitedPong ++ s.awaitedHealth ∧
      (p :: (s.asked ++ rest)).Perm (s.awaitedPong ++ s.awaitedHealth) := by
  have hmoved : (p :: (s.asked ++ rest)).Perm (s.awaitedPong ++ s.awaitedHealth) := by
    refine List.Perm.trans ?_ h.replies
    rw [outstanding, hwire]
    exact List.perm_middle.symm
  exact ⟨hmoved.subset List.mem_cons_self, hmoved⟩

theorem ProbeState.Paired.heartbeatReads {s : ProbeState} (h : s.Paired)
    (hown : OwnReply s .heartbeatReads) : (s.heartbeatReads agent).Paired := by
  cases hwaiting : s.waiting with
  | none =>
      rw [heartbeatReads_of_none agent (Or.inl hwaiting)]
      exact h
  | some remaining =>
      cases hwire : s.wire with
      | nil =>
          rw [heartbeatReads_of_none agent (Or.inr hwire)]
          exact h
      | cons p rest =>
          cases p with
          | health n =>
              have hhead := hown (by rw [hwaiting]; simp) n
              rw [hwire] at hhead
              exact absurd rfl hhead
          | ping n =>
              obtain ⟨hmem, hmoved⟩ := h.read hwire
              have hpong : s.awaitedPong = [.ping (s.pings - 1)] := by
                rw [awaitedPong, if_neg (by rw [hwaiting]; simp)]
              have hn : n = s.pings - 1 := by
                rw [hpong] at hmem
                simpa [awaitedHealth] using hmem
              rw [heartbeatReads_pong agent hwaiting hwire]
              refine ⟨h.served, ?_⟩
              rw [hpong, ← hn] at hmoved
              exact hmoved.cons_inv

theorem ProbeState.Paired.checkReads {s : ProbeState} (h : s.Paired)
    (hown : OwnReply s .checkReads) : (s.checkReads agent).Paired := by
  cases hchecking : s.checking with
  | none =>
      rw [checkReads_of_none agent (Or.inl hchecking)]
      exact h
  | some n =>
      cases hwire : s.wire with
      | nil =>
          rw [checkReads_of_none agent (Or.inr hwire)]
          exact h
      | cons p rest =>
          cases p with
          | ping m =>
              have hhead := hown (by rw [hchecking]; simp) m
              rw [hwire] at hhead
              exact absurd rfl hhead
          | health m =>
              obtain ⟨hmem, hmoved⟩ := h.read hwire
              have hhealth : s.awaitedHealth = [.health n] := by
                rw [awaitedHealth, hchecking]
                rfl
              have hm : m = n := by
                rw [hhealth] at hmem
                rcases List.mem_append.mp hmem with hpong | hmine
                · unfold awaitedPong at hpong
                  split at hpong
                  · cases hpong
                  · cases List.mem_singleton.mp hpong
                · cases List.mem_singleton.mp hmine
                  rfl
              subst hm
              rw [checkReads_frame agent hchecking hwire, agent.health m]
              refine ⟨⟨h.served.1, h.served.append⟩, ?_⟩
              rw [hhealth] at hmoved
              have hcons := hmoved.trans (List.perm_append_singleton _ _)
              have hrest : (s.asked ++ rest).Perm s.awaitedPong := hcons.cons_inv
              simpa [outstanding, awaitedHealth, awaitedPong] using hrest

theorem ProbeState.Paired.step {s : ProbeState} (h : s.Paired) {e : ProbeEvent}
    (hown : OwnReply s e) : (probeStep agent timeout s e).Paired := by
  cases e with
  | heartbeatPings =>
      unfold probeStep
      dsimp only
      by_cases hwaiting : s.waiting = none
      · rw [if_pos hwaiting]
        refine ⟨h.served, ?_⟩
        have hpong : s.awaitedPong = [] := by rw [awaitedPong, if_pos hwaiting]
        have hreplies := h.replies
        rw [hpong, List.nil_append] at hreplies
        have hmoved : (s.asked ++ [Probe.ping s.pings] ++ s.wire).Perm
            (.ping s.pings :: (s.asked ++ s.wire)) := by
          rw [List.append_assoc]
          exact List.perm_middle
        exact hmoved.trans (hreplies.cons _)
      · rw [if_neg hwaiting]
        exact h
  | heartbeatReads => exact h.heartbeatReads agent hown
  | heartbeatTimesOut =>
      unfold probeStep
      dsimp only
      split
      · rename_i hguard
        exact absurd (h.not_waiting hguard.2).1 hguard.1
      · exact h
  | checkStarts =>
      unfold probeStep
      dsimp only
      by_cases hchecking : s.checking = none
      · rw [if_pos hchecking]
        refine ⟨h.served, ?_⟩
        have hhealth : s.awaitedHealth = [] := by
          rw [awaitedHealth, hchecking]
          rfl
        have hreplies := h.replies
        rw [hhealth, List.append_nil] at hreplies
        have hmoved : (s.asked ++ [Probe.health s.checks] ++ s.wire).Perm
            (.health s.checks :: (s.asked ++ s.wire)) := by
          rw [List.append_assoc]
          exact List.perm_middle
        refine (hmoved.trans (hreplies.cons _)).trans ?_
        exact (List.perm_append_singleton _ _).symm
      · rw [if_neg hchecking]
        exact h
  | checkReads => exact h.checkReads agent hown
  | checkTimesOut =>
      unfold probeStep
      dsimp only
      split
      · rename_i hguard
        exact absurd (h.not_waiting hguard.2).2 hguard.1
      · exact h
  | agentReplies p =>
      unfold probeStep
      dsimp only
      split
      · rename_i hasked
        refine ⟨h.served, ?_⟩
        have hmoved : (s.asked.erase p ++ (s.wire ++ [p])).Perm (s.asked ++ s.wire) := by
          have hfront : (p :: s.asked.erase p).Perm s.asked := (List.perm_cons_erase hasked).symm
          have hback : (s.asked.erase p ++ (s.wire ++ [p])).Perm
              (p :: (s.asked.erase p ++ s.wire)) := by
            rw [← List.append_assoc]
            exact List.perm_append_singleton _ _
          exact hback.trans (hfront.append_right s.wire)
        exact hmoved.trans h.replies
      · exact h

/-! ## What has gone wrong stays wrong -/

theorem not_served_append {s : ProbeState} (h : ¬ s.Served) (result : Bool) :
    ¬ (s.connection ≠ .unhealthy ∧ ∀ r ∈ s.results ++ [result], r = true) := by
  intro hserved
  apply h
  refine ⟨hserved.1, ?_⟩
  intro r hr
  exact hserved.2 r (List.mem_append_left _ hr)

theorem not_served_step {s : ProbeState} (h : ¬ s.Served) (e : ProbeEvent) :
    ¬ (probeStep agent timeout s e).Served := by
  cases e with
  | heartbeatPings =>
      unfold probeStep
      dsimp only
      split
      · exact h
      · exact h
  | heartbeatReads =>
      show ¬ (s.heartbeatReads agent).Served
      unfold ProbeState.heartbeatReads
      split
      · split
        · exact h
        · exact h
        · exact fun hserved => hserved.1 rfl
      · exact h
  | heartbeatTimesOut =>
      unfold probeStep
      dsimp only
      split
      · exact fun hserved => hserved.1 rfl
      · exact h
  | checkStarts =>
      unfold probeStep
      dsimp only
      split
      · exact h
      · exact h
  | checkReads =>
      show ¬ (s.checkReads agent).Served
      unfold ProbeState.checkReads
      split
      · exact not_served_append h _
      · exact h
  | checkTimesOut =>
      unfold probeStep
      dsimp only
      split
      · exact not_served_append h _
      · exact h
  | agentReplies p =>
      unfold probeStep
      dsimp only
      split
      · exact h
      · exact h

/-- A false result is never taken back. -/
theorem not_served_of_false {s : ProbeState} (h : false ∈ s.results) : ¬ s.Served := by
  intro hserved
  have hfalse := hserved.2 false h
  cases hfalse

/-- A health check whose reply has been taken fails, or still waits. -/
theorem ProbeState.Robbed.step {s : ProbeState} (h : s.Robbed) (e : ProbeEvent) :
    (probeStep agent timeout s e).Robbed ∨ ¬ (probeStep agent timeout s e).Served := by
  obtain ⟨hchecking, hnone⟩ := h
  have hgone : ∀ {asked wire : List Probe}, (∀ p ∈ asked ++ wire, p ∈ s.outstanding) →
      ∀ n, Probe.health n ∉ asked ++ wire :=
    fun hsub n hn => hnone n (hsub _ hn)
  cases e with
  | heartbeatPings =>
      unfold probeStep
      dsimp only
      split
      · refine Or.inl ⟨hchecking, ?_⟩
        intro n hn
        simp only [outstanding, List.mem_append, List.mem_singleton, reduceCtorEq, or_false] at hn
        exact hnone n (List.mem_append.mpr hn)
      · exact Or.inl ⟨hchecking, hnone⟩
  | heartbeatReads =>
      show (s.heartbeatReads agent).Robbed ∨ _
      cases hwaiting : s.waiting with
      | none =>
          rw [heartbeatReads_of_none agent (Or.inl hwaiting)]
          exact Or.inl ⟨hchecking, hnone⟩
      | some remaining =>
          cases hwire : s.wire with
          | nil =>
              rw [heartbeatReads_of_none agent (Or.inr hwire)]
              exact Or.inl ⟨hchecking, hnone⟩
          | cons p rest =>
              obtain ⟨hasked, hrest, hcheck, -⟩ := heartbeatReads_frame agent hwaiting hwire
              refine Or.inl ⟨by rw [hcheck]; exact hchecking, ?_⟩
              unfold outstanding
              rw [hasked, hrest]
              refine hgone ?_
              intro q hq
              unfold outstanding
              rw [hwire]
              simp only [List.mem_append, List.mem_cons] at hq ⊢
              tauto
  | heartbeatTimesOut =>
      unfold probeStep
      dsimp only
      split
      · exact Or.inr fun hserved => hserved.1 rfl
      · exact Or.inl ⟨hchecking, hnone⟩
  | checkStarts =>
      unfold probeStep
      dsimp only
      rw [if_neg hchecking]
      exact Or.inl ⟨hchecking, hnone⟩
  | checkReads =>
      obtain ⟨n, hn⟩ := Option.ne_none_iff_exists'.mp hchecking
      cases hwire : s.wire with
      | nil =>
          refine Or.inl ?_
          show (s.checkReads agent).Robbed
          rw [checkReads_of_none agent (Or.inr hwire)]
          exact ⟨hchecking, hnone⟩
      | cons p rest =>
          refine Or.inr (not_served_of_false ?_)
          show false ∈ (s.checkReads agent).results
          rw [checkReads_frame agent hn hwire]
          cases p with
          | ping m =>
              rw [agent.pong_not_health m n]
              exact List.mem_append_right _ List.mem_cons_self
          | health m =>
              refine absurd ?_ (hnone m)
              rw [outstanding, hwire]
              exact List.mem_append_right _ List.mem_cons_self
  | checkTimesOut =>
      unfold probeStep
      dsimp only
      split
      · exact Or.inr (not_served_of_false (List.mem_append_right _ List.mem_cons_self))
      · exact Or.inl ⟨hchecking, hnone⟩
  | agentReplies p =>
      unfold probeStep
      dsimp only
      split
      · rename_i hasked
        refine Or.inl ⟨hchecking, hgone ?_⟩
        intro q hq
        simp only [outstanding, List.mem_append, List.mem_singleton] at hq ⊢
        rcases hq with hq | hq | hq
        · exact Or.inl (List.mem_of_mem_erase hq)
        · exact Or.inr hq
        · rw [hq]
          exact Or.inl hasked
      · exact Or.inl ⟨hchecking, hnone⟩

/-- The heartbeat's read of a health frame robs the check that waits for it. -/
theorem ProbeState.Paired.heartbeat_robs {s : ProbeState} (h : s.Paired)
    (hother : ¬ OwnReply s .heartbeatReads) : (s.heartbeatReads agent).Robbed := by
  unfold OwnReply at hother
  push Not at hother
  obtain ⟨hwaiting, n, hhead⟩ := hother
  obtain ⟨remaining, hremaining⟩ := Option.ne_none_iff_exists'.mp hwaiting
  obtain ⟨rest, hwire⟩ := List.head?_eq_some_iff.mp hhead
  obtain ⟨hmem, hmoved⟩ := h.read hwire
  obtain ⟨hasked, hrest, hcheck, -⟩ := heartbeatReads_frame agent hremaining hwire
  have hpong : s.awaitedPong = [.ping (s.pings - 1)] := by
    rw [awaitedPong, if_neg hwaiting]
  cases hchecking : s.checking with
  | none =>
      rw [hpong, awaitedHealth, hchecking] at hmem
      cases List.mem_singleton.mp hmem
  | some m =>
      refine ⟨by rw [hcheck, hchecking]; simp, ?_⟩
      have hhealth : s.awaitedHealth = [.health m] := by
        rw [awaitedHealth, hchecking]
        rfl
      have hn : n = m := by
        rw [hpong, hhealth] at hmem
        simpa using hmem
      have hleft : (s.asked ++ rest).Perm [.ping (s.pings - 1)] := by
        rw [hpong, hhealth, hn] at hmoved
        exact (hmoved.trans (List.perm_append_singleton _ _)).cons_inv
      intro k hk
      unfold outstanding at hk
      rw [hasked, hrest] at hk
      cases List.mem_singleton.mp (hleft.subset hk)

/-- A health check that reads a pong fails. -/
theorem check_fails_on_pong {s : ProbeState} (hother : ¬ OwnReply s .checkReads) :
    ¬ (s.checkReads agent).Served := by
  unfold OwnReply at hother
  push Not at hother
  obtain ⟨hchecking, n, hhead⟩ := hother
  obtain ⟨m, hm⟩ := Option.ne_none_iff_exists'.mp hchecking
  obtain ⟨rest, hwire⟩ := List.head?_eq_some_iff.mp hhead
  apply not_served_of_false
  rw [checkReads_frame agent hm hwire, agent.pong_not_health n m]
  exact List.mem_append_right _ List.mem_cons_self

/-- Whoever takes another's reply fails, or robs a health check of it. -/
theorem ProbeState.Paired.robs {s : ProbeState} (h : s.Paired) {e : ProbeEvent}
    (hother : ¬ OwnReply s e) :
    (probeStep agent timeout s e).Robbed ∨ ¬ (probeStep agent timeout s e).Served := by
  cases e with
  | heartbeatReads => exact Or.inl (h.heartbeat_robs agent hother)
  | checkReads => exact Or.inr (check_fails_on_pong agent hother)
  | heartbeatPings => exact absurd trivial hother
  | heartbeatTimesOut => exact absurd trivial hother
  | checkStarts => exact absurd trivial hother
  | checkTimesOut => exact absurd trivial hother
  | agentReplies p => exact absurd trivial hother

/-! ## Whole runs -/

/-- The run has gone wrong for good. -/
def ProbeState.Lost (s : ProbeState) : Prop := s.Robbed ∨ ¬ s.Served

theorem ProbeState.Lost.step {s : ProbeState} (h : s.Lost) (e : ProbeEvent) :
    (probeStep agent timeout s e).Lost := by
  rcases h with hrobbed | hfailed
  · exact hrobbed.step agent timeout e
  · exact Or.inr (not_served_step agent timeout hfailed e)

theorem ProbeState.Paired.start : ProbeState.start.Paired := by
  refine ⟨⟨?_, ?_⟩, ?_⟩
  · intro hunhealthy
    cases hunhealthy
  · intro result hresult
    cases hresult
  · exact List.Perm.refl _

/-- A run that ends with every check answered, and all well, had each thread
read its own reply. -/
theorem ProbeState.Paired.own_of_served {s : ProbeState} (h : s.Paired)
    {events : List ProbeEvent}
    (hdone : (stateAfter (probeStep agent timeout) s events).checking = none)
    (hserved : (stateAfter (probeStep agent timeout) s events).Served) :
    AllSteps (probeStep agent timeout) OwnReply s events := by
  induction events generalizing s with
  | nil => trivial
  | cons e events ih =>
      by_cases hown : OwnReply s e
      · exact ⟨hown, ih (h.step agent timeout hown) hdone hserved⟩
      · have hlost : (probeStep agent timeout s e).Lost := h.robs agent timeout hown
        have hkeep : ∀ (t : ProbeState) (i : ProbeEvent),
            t.Lost → (probeStep agent timeout t i).Lost :=
          fun t i ht => ht.step agent timeout i
        rcases stateAfter_invariant_of_step hkeep hlost events with hrobbed | hfailed
        · exact absurd hdone hrobbed.1
        · exact absurd hserved hfailed

/-- **No one starves**, exactly: while each thread that reads finds its own
reply first, every health check that ends has succeeded and no round has marked
the connection unhealthy; and a run that ends so, with no check under way, is
one in which each read found its own. -/
theorem probes_served (events : List ProbeEvent) :
    (AllSteps (probeStep agent timeout) OwnReply .start events →
        ∀ done rest, events = done ++ rest →
          (stateAfter (probeStep agent timeout) .start done).Served) ∧
      ((stateAfter (probeStep agent timeout) .start events).checking = none →
        (stateAfter (probeStep agent timeout) .start events).Served →
          AllSteps (probeStep agent timeout) OwnReply .start events) := by
  constructor
  · intro hown done rest hsplit
    rw [hsplit] at hown
    have hkeep : ∀ (s : ProbeState) (e : ProbeEvent),
        s.Paired → OwnReply s e → (probeStep agent timeout s e).Paired :=
      fun s e hs he => hs.step agent timeout he
    have hfirst := (AllSteps.append_iff.mp hown).1
    exact (stateAfter_invariant hkeep ProbeState.Paired.start hfirst).served
  · exact ProbeState.Paired.start.own_of_served agent timeout

/-! ## An agent, and a pong in the wrong place -/

/-- The frame that answers a health request. -/
def healthFrame (id : Bytes) : Bytes :=
  lit "\x7b\"type\":\"health\",\"id\":\"" ++ id ++ lit "\",\"status\":\"ok\"\x7d"

theorem zero_not_mem_healthId (now healthSeq : Nat) : (0 : UInt8) ∉ healthId now healthSeq := by
  intro hzero
  have hmem := List.mem_of_mem_take hzero
  simp only [List.mem_append] at hmem
  rcases hmem with ((hword | hnow) | hbar) | hseq
  · exact absurd hword (by decide)
  · exact (CJson.plainText_decimal now).zero_not_mem hnow
  · exact absurd hbar (by decide)
  · exact (CJson.plainText_decimal healthSeq).zero_not_mem hseq

theorem healthOk_healthFrame {id : Bytes} (hid : 0 ∉ id) :
    healthOk id (healthFrame id) = true := by
  have hzero : 0 ∉ healthFrame id := by
    intro hmem
    simp only [healthFrame, List.mem_append] at hmem
    rcases hmem with (hopen | hmem) | hclose
    · exact absurd hopen (by decide)
    · exact hid hmem
    · exact absurd hclose (by decide)
  unfold healthOk
  rw [cstr, upTo_eq_self hzero]
  have htype : occurs (lit "\"type\":\"health\"") (healthFrame id) = true := by
    apply (occurs_iff _ _).mpr
    refine ⟨lit "\x7b", lit ",\"id\":\"" ++ id ++ lit "\",\"status\":\"ok\"\x7d", ?_⟩
    simp [healthFrame, lit]
  have hmine : occurs id (healthFrame id) = true := by
    apply (occurs_iff _ _).mpr
    exact ⟨_, _, rfl⟩
  have hstatus : occurs (lit "\"status\":\"ok\"") (healthFrame id) = true := by
    apply (occurs_iff _ _).mpr
    refine ⟨lit "\x7b\"type\":\"health\",\"id\":\"" ++ id ++ lit "\",", lit "\x7d", ?_⟩
    simp [healthFrame, lit]
  rw [htype, hmine, hstatus]
  rfl

/-- An agent that answers in the documented frames, asked at time zero. -/
def documentedAgent : AnsweringAgent where
  now := fun _ => 0
  reply
    | .ping _ => lit "\x7b\"type\":\"pong\",\"status\":\"ok\"\x7d"
    | .health n => healthFrame (healthId 0 (n + 1))
  pong := fun _ => by
    have hpong : isPong (lit "\x7b\"type\":\"pong\",\"status\":\"ok\"\x7d") = true := by
      decide +kernel
    exact hpong
  health := fun n => healthOk_healthFrame (zero_not_mem_healthId 0 (n + 1))
  pong_not_health := fun _ m => by
    have htype : occurs (lit "\"type\":\"health\"")
        (cstr (lit "\x7b\"type\":\"pong\",\"status\":\"ok\"\x7d")) = false := by
      decide +kernel
    show healthOk _ (lit "\x7b\"type\":\"pong\",\"status\":\"ok\"\x7d") = false
    rw [healthOk, htype]
    rfl

/-- A health check made while the heartbeat's pong is on its way reads the pong,
and fails. -/
theorem check_takes_pong :
    ¬ (stateAfter (probeStep documentedAgent 60000) .start
        [.heartbeatPings, .checkStarts, .agentReplies (.ping 0), .agentReplies (.health 0),
          .checkReads]).Served := by
  apply not_served_of_false
  have hpong := documentedAgent.pong_not_health 0 0
  show false ∈ [healthOk (healthId 0 1) (documentedAgent.reply (.ping 0))]
  exact List.mem_singleton.mpr hpong.symm

end StarBridge
