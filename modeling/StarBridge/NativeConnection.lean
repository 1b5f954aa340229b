import Mathlib.Algebra.Order.Ring.Int
import Mathlib.Tactic.Positivity
import Mathlib.Tactic.Ring
import StarBridge.Heartbeat
import StarBridge.UdsConnect

/-!
# The connection to the agent

`NativeConnection` holds the descriptors of a connection and its state.  Over stdio they
are two pipe ends that the engine keeps too; over a socket they are one descriptor.

`nc_reconnect` closes the old socket and tries to connect a new one, with pauses that
double.  `nc_reconnect_schedule` says what it calls, for every number of attempts and
whatever the system answers.
-/

namespace StarBridge

open CText Descriptors

/-- `TransportType`. -/
inductive TransportType
  | none
  | stdioFramed
  | uds
  deriving DecidableEq, Repr

/-- `NativeConnection`. -/
structure NativeConnection where
  transport : TransportType
  readFd : Int
  writeFd : Int
  socketFd : Int
  childPid : Int
  state : ConnectionState
  protocolVersion : Int
  reconnectAttempts : Int
  reconnectMax : Int
  reconnectDelayMs : Int
  deriving DecidableEq, Repr

/-- `nc_init`. -/
def ncInit : NativeConnection where
  transport := .none
  readFd := -1
  writeFd := -1
  socketFd := -1
  childPid := 0
  state := .disconnected
  protocolVersion := 0
  reconnectAttempts := 0
  reconnectMax := 3
  reconnectDelayMs := 1000

/-- `nc_set_stdio`. -/
def ncSetStdio (nc : NativeConnection) (stdinFd stdoutFd childPid : Int) : NativeConnection :=
  { nc with transport := .stdioFramed, writeFd := stdinFd, readFd := stdoutFd, socketFd := -1,
            childPid := childPid, state := .connected }

/-- `nc_set_uds`. -/
def ncSetUds (nc : NativeConnection) (sockFd childPid : Int) : NativeConnection :=
  { nc with transport := .uds, readFd := sockFd, writeFd := sockFd, socketFd := sockFd,
            childPid := childPid, state := .connected }

/-- `nc_set_state`. -/
def ncSetState (nc : NativeConnection) (state : ConnectionState) : NativeConnection :=
  { nc with state := state }

/-- The calls of `nc_close`. -/
def ncCloseCalls (nc : NativeConnection) : List SysCall :=
  (if 0 ≤ nc.readFd ∧ nc.readFd ≠ nc.writeFd then [.close nc.readFd] else []) ++
    (if 0 ≤ nc.writeFd then [.close nc.writeFd] else []) ++
    (if 0 ≤ nc.socketFd ∧ nc.socketFd ≠ nc.readFd ∧ nc.socketFd ≠ nc.writeFd then
      [.close nc.socketFd] else [])

/-- `nc_close`. -/
def ncClose (nc : NativeConnection) : NativeConnection × List SysCall :=
  ({ nc with readFd := -1, writeFd := -1, socketFd := -1, state := .disconnected },
    ncCloseCalls nc)

/-- `delay *= 2` in an `int`, taken to wrap around. -/
def doubleDelay (delay : Int) : Int := (2 * delay).bmod (2 ^ 32)

/-- The loop of `nc_reconnect`, with so many attempts left: the socket it connected, if any,
and what it called. -/
def reconnectLoop (path : Option Bytes) (timeoutMs : Int) (env : Nat → UdsKernel) :
    Nat → Nat → Int → Option Int × List SysCall
  | 0, _, _ => (none, [])
  | left + 1, attempt, delay =>
      let r := udsConnect path timeoutMs (env attempt)
      if 0 ≤ r.1.fd then (some r.1.fd, r.2)
      else
        let pause := if left = 0 then [] else [SysCall.sleep (if 30000 < delay then 30000 else delay)]
        let rest := reconnectLoop path timeoutMs env left (attempt + 1) (doubleDelay delay)
        (rest.1, r.2 ++ (pause ++ rest.2))

/-- The old connection, closed if it is open. -/
def ncDropped (nc : NativeConnection) : NativeConnection × List SysCall :=
  if nc.state = .disconnected then (nc, []) else ncClose nc

/-- The connection behind the attempts. -/
def ncTried (nc : NativeConnection) : Option Int → NativeConnection
  | some fd =>
      { nc with readFd := fd, writeFd := fd, socketFd := fd, state := .connected,
                reconnectAttempts := 0 }
  | none => { nc with state := .unhealthy, reconnectAttempts := nc.reconnectMax }

/-- `nc_reconnect`: whether it connected, the connection behind it and its calls.  `env` is
what the system answers in each attempt. -/
def ncReconnect (nc : NativeConnection) (socketPath : Option Bytes) (timeoutMs : Int)
    (env : Nat → UdsKernel) : Bool × NativeConnection × List SysCall :=
  if nc.transport ≠ .uds then (false, nc, [])
  else if nc.reconnectMax ≤ 0 then (false, nc, [])
  else if (socketPath.map cstr).getD [] = [] then (false, nc, [])
  else
    let tried := reconnectLoop socketPath timeoutMs env nc.reconnectMax.toNat 0 nc.reconnectDelayMs
    (tried.1.isSome, ncTried (ncDropped nc).1 tried.1, (ncDropped nc).2 ++ tried.2)

/-! ## The schedule of the attempts -/

/-- The pause behind a failed attempt. -/
def backoff (delay : Int) (attempt : Nat) : Int := min 30000 (delay * 2 ^ attempt)

section

variable (path : Option Bytes) (timeoutMs : Int) (env : Nat → UdsKernel)

/-- An attempt connects. -/
def Connects (attempt : Nat) : Prop := 0 ≤ (udsConnect path timeoutMs (env attempt)).1.fd

instance (attempt : Nat) : Decidable (Connects path timeoutMs env attempt) :=
  inferInstanceAs (Decidable (0 ≤ _))

/-- The calls of some failed attempts, each with the pause behind it. -/
def failedRounds (delay : Int) (attempts : List Nat) : List SysCall :=
  attempts.flatMap fun attempt =>
    (udsConnect path timeoutMs (env attempt)).2 ++ [.sleep (backoff delay attempt)]

/-- What the loop comes to: a first attempt that connects, behind failed ones; or none. -/
inductive LoopEnds (delay : Int) (first left : Nat) : Option Int × List SysCall → Prop
  | connected (n : Nat) (before : n < left)
      (fails : ∀ i < n, ¬ Connects path timeoutMs env (first + i))
      (connects : Connects path timeoutMs env (first + n)) :
      LoopEnds delay first left
        (some (udsConnect path timeoutMs (env (first + n))).1.fd,
          failedRounds path timeoutMs env delay (List.range' first n) ++
            (udsConnect path timeoutMs (env (first + n))).2)
  | exhausted (fails : ∀ i < left, ¬ Connects path timeoutMs env (first + i)) :
      LoopEnds delay first left
        (none, failedRounds path timeoutMs env delay (List.range' first (left - 1)) ++
          if left = 0 then [] else (udsConnect path timeoutMs (env (first + left - 1))).2)

variable {path timeoutMs env}

theorem doubleDelay_eq {delay : Int} (hlow : 0 ≤ delay) (hhigh : 2 * delay < 2 ^ 31) :
    doubleDelay delay = 2 * delay := by
  unfold doubleDelay
  rw [Int.bmod_eq_of_le] <;> omega

/-- A failed attempt in front. -/
theorem LoopEnds.behind_failed {delay : Int} {first left : Nat}
    {r : Option Int × List SysCall} (h : LoopEnds path timeoutMs env delay (first + 1) (left + 1) r)
    (hfail : ¬ Connects path timeoutMs env first) :
    LoopEnds path timeoutMs env delay first (left + 2)
      (r.1, (udsConnect path timeoutMs (env first)).2 ++
        ([.sleep (backoff delay first)] ++ r.2)) := by
  have hfails : ∀ {n}, (∀ i < n, ¬ Connects path timeoutMs env (first + 1 + i)) →
      ∀ i < n + 1, ¬ Connects path timeoutMs env (first + i) := by
    intro n hrest i hi
    cases i with
    | zero => exact hfail
    | succ i =>
        have hat := hrest i (by omega)
        rwa [Nat.add_assoc, Nat.add_comm 1 i] at hat
  have hrounds : ∀ n, (udsConnect path timeoutMs (env first)).2 ++
      ([.sleep (backoff delay first)] ++
        failedRounds path timeoutMs env delay (List.range' (first + 1) n)) =
      failedRounds path timeoutMs env delay (List.range' first (n + 1)) := by
    intro n
    simp [failedRounds, List.range'_succ]
  cases h with
  | connected n before fails connects =>
      have hindex : first + 1 + n = first + (n + 1) := by omega
      rw [hindex] at connects ⊢
      have hcalls : LoopEnds path timeoutMs env delay first (left + 2) _ :=
        .connected (n + 1) (by omega) (hfails fails) connects
      rw [← hrounds] at hcalls
      simpa using hcalls
  | exhausted fails =>
      have hcalls : LoopEnds path timeoutMs env delay first (left + 2) _ :=
        .exhausted (hfails fails)
      have hindex : first + (left + 1 + 1) - 1 = first + 1 + (left + 1) - 1 := by omega
      have hcount : left + 1 + 1 - 1 = left + 1 - 1 + 1 := by omega
      rw [hcount, ← hrounds, hindex] at hcalls
      simpa using hcalls

/-- **The loop.**  The delay it is at is the first one, doubled once for every attempt made. -/
theorem reconnectLoop_ends {delay : Int} (hdelay : 0 ≤ delay) (left first : Nat)
    (hroom : delay * 2 ^ (first + left) < 2 ^ 31) :
    LoopEnds path timeoutMs env delay first left
      (reconnectLoop path timeoutMs env left first (delay * 2 ^ first)) := by
  induction left generalizing first with
  | zero => exact .exhausted (by simp)
  | succ left ih =>
      unfold reconnectLoop
      simp only
      by_cases hconnects : 0 ≤ (udsConnect path timeoutMs (env first)).1.fd
      · rw [if_pos hconnects]
        exact .connected 0 (by omega) (by simp) hconnects
      · rw [if_neg hconnects]
        cases left with
        | zero =>
            have hfails : ∀ i < 1, ¬ Connects path timeoutMs env (first + i) := by
              intro i hi
              obtain rfl : i = 0 := by omega
              exact hconnects
            have hend : LoopEnds path timeoutMs env delay first 1 _ := .exhausted hfails
            simpa [reconnectLoop, failedRounds] using hend
        | succ left =>
            have hpow : (2 : Int) ^ (first + 1) ≤ 2 ^ (first + (left + 1 + 1)) :=
              pow_le_pow_right₀ (by norm_num) (by omega)
            have hdouble : doubleDelay (delay * 2 ^ first) = delay * 2 ^ (first + 1) := by
              have hstep : 2 * (delay * 2 ^ first) = delay * 2 ^ (first + 1) := by ring
              have hle := mul_le_mul_of_nonneg_left hpow hdelay
              rw [doubleDelay_eq (by positivity) (by omega), hstep]
            have hpause : (if 30000 < delay * 2 ^ first then 30000 else delay * 2 ^ first) =
                backoff delay first := by
              unfold backoff
              split_ifs <;> omega
            have hindex : first + (left + 1 + 1) = first + 1 + (left + 1) := by omega
            have hrest := ih (first + 1) (hindex ▸ hroom)
            rw [hdouble, if_neg (by omega), hpause]
            exact hrest.behind_failed hconnects

end

/-- The agent comes up between the second attempt and the third. -/
def restartedAgent : Nat → UdsKernel := fun attempt =>
  { socket := 5, fdFlags := some 0, statusFlags := some 2,
    connect := if attempt < 2 then some .connRefused else none,
    socketFile := fun _ => true, retry := none, poll := 0, soError := none }

/-- The descriptors a loop leaves open: those from before, and the socket it connected. -/
theorem reconnectLoop_owned (path : Option Bytes) (timeoutMs : Int) (env : Nat → UdsKernel)
    (left first : Nat) (delay : Int) {l : Ledger Int}
    (hgranted : Granted l (fdEvents (reconnectLoop path timeoutMs env left first delay).2)) :
    l.after (fdEvents (reconnectLoop path timeoutMs env left first delay).2) =
        { l with
          owned := l.owned ++ (reconnectLoop path timeoutMs env left first delay).1.toList } ∧
      ∀ fd, (reconnectLoop path timeoutMs env left first delay).1 = some fd →
        0 ≤ fd ∧ fd ∉ l.owned := by
  induction left generalizing first delay l with
  | zero => simp [reconnectLoop, fdEvents]
  | succ left ih =>
      have haccount : Granted l (fdEvents (udsConnect path timeoutMs (env first)).2) →
          UdsAccount l ((env first).statusFlags.getD 0) (udsConnect path timeoutMs (env first)) :=
        uds_connect_owns path timeoutMs (env first) (by simp +contextual)
      unfold reconnectLoop at hgranted ⊢
      simp only at hgranted ⊢
      generalize udsConnect path timeoutMs (env first) = r at haccount hgranted ⊢
      by_cases hfd : 0 ≤ r.1.fd
      · rw [if_pos hfd] at hgranted ⊢
        cases haccount hgranted with
        | connected fd calls open_fd fresh owned _ =>
            refine ⟨by simpa using owned, ?_⟩
            rintro fd' ⟨⟩
            exact ⟨open_fd, fresh⟩
        | failed error calls settles => exact absurd hfd (by simp)
      · rw [if_neg hfd] at hgranted ⊢
        have hpause : fdEvents (if left = 0 then []
            else [SysCall.sleep (if 30000 < delay then 30000 else delay)]) = [] := by
          split_ifs <;> rfl
        simp only [fdEvents_append, hpause, List.nil_append] at hgranted ⊢
        obtain ⟨hfirst, hrest⟩ := granted_append_iff.mp hgranted
        rw [Descriptors.after_append]
        cases haccount hfirst with
        | connected fd calls open_fd _ _ _ => exact absurd open_fd hfd
        | failed error calls settles =>
            rw [settles] at hrest ⊢
            exact ih (first + 1) (doubleDelay delay) hrest

/-- The descriptors that are a connection's own: its socket, or none. -/
def NativeConnection.fds (nc : NativeConnection) : List Int :=
  if 0 ≤ nc.socketFd then [nc.socketFd] else []

/-- A connection over a socket: both ends are the socket, and while there is one it is not
in the state of a closed connection. -/
structure NativeConnection.OverSocket (nc : NativeConnection) : Prop where
  transport : nc.transport = .uds
  read : nc.readFd = nc.socketFd
  write : nc.writeFd = nc.socketFd
  absent : nc.state = .disconnected → nc.socketFd < 0

/-- What is open beside a ledger of old. -/
structure OpenBeside (old l : Ledger Int) (fds : List Int) : Prop where
  owned : l.owned = old.owned ++ fds
  strays : l.strays = old.strays
  apart : ∀ fd ∈ fds, fd ∉ old.owned

theorem ncSetUds_overSocket (nc : NativeConnection) (sockFd childPid : Int) :
    (ncSetUds nc sockFd childPid).OverSocket :=
  ⟨rfl, rfl, rfl, fun h => by cases h⟩

/-- `nc_close` closes the socket, once. -/
theorem NativeConnection.OverSocket.closeCalls {nc : NativeConnection} (h : nc.OverSocket) :
    ncCloseCalls nc = nc.fds.map .close := by
  unfold ncCloseCalls NativeConnection.fds
  rw [h.read, h.write]
  split_ifs <;> simp_all

/-- Behind `nc_close`, only what was open of old is. -/
theorem NativeConnection.OverSocket.after_close {nc : NativeConnection} (h : nc.OverSocket)
    {old l : Ledger Int} (hl : OpenBeside old l nc.fds) :
    l.after (fdEvents (ncCloseCalls nc)) = old := by
  obtain ⟨owned, strays⟩ := l
  obtain ⟨howned, hstrays, hapart⟩ := hl
  simp only at howned hstrays
  subst howned hstrays
  rw [h.closeCalls]
  unfold NativeConnection.fds at hapart ⊢
  split_ifs with hfd
  · have hfresh : nc.socketFd ∉ old.owned := hapart nc.socketFd (by simp [hfd])
    exact account_closed_last hfresh
  · simp [fdEvents]

/-- Behind the drop of the old connection there is none. -/
theorem NativeConnection.OverSocket.dropped {nc : NativeConnection} (h : nc.OverSocket)
    {old l : Ledger Int} (hl : OpenBeside old l nc.fds) :
    (ncDropped nc).1.OverSocket ∧ (ncDropped nc).1.socketFd < 0 ∧
      l.after (fdEvents (ncDropped nc).2) = old := by
  unfold ncDropped
  split_ifs with hstate
  · have hno : ¬ 0 ≤ nc.socketFd := by
      have habsent := h.absent hstate
      omega
    refine ⟨h, h.absent hstate, ?_⟩
    have howned : l.owned = old.owned := by simpa [NativeConnection.fds, hno] using hl.owned
    obtain ⟨owned, strays⟩ := l
    obtain ⟨oldOwned, oldStrays⟩ := old
    simp only [fdEvents, List.flatMap_nil, after_nil, Ledger.mk.injEq]
    exact ⟨howned, hl.strays⟩
  · exact ⟨⟨h.transport, rfl, rfl, fun _ => by simp [ncClose]⟩, by simp [ncClose],
      h.after_close hl⟩

/-- **A reconnection keeps the account.**  Whatever the attempts come to, the connection has
the one socket that is open beside what was open of old, or none is. -/
theorem NativeConnection.OverSocket.reconnect {nc : NativeConnection} (h : nc.OverSocket)
    {old l : Ledger Int} (hl : OpenBeside old l nc.fds) (path : Option Bytes) (timeoutMs : Int)
    (env : Nat → UdsKernel)
    (hgranted : Granted l (fdEvents (ncReconnect nc path timeoutMs env).2.2)) :
    (ncReconnect nc path timeoutMs env).2.1.OverSocket ∧
      OpenBeside old (l.after (fdEvents (ncReconnect nc path timeoutMs env).2.2))
        (ncReconnect nc path timeoutMs env).2.1.fds := by
  unfold ncReconnect at hgranted ⊢
  have hsame : nc.OverSocket ∧ OpenBeside old (l.after (fdEvents [])) nc.fds := ⟨h, hl⟩
  by_cases htransport : nc.transport ≠ .uds
  · rw [if_pos htransport]
    exact hsame
  by_cases hmax : nc.reconnectMax ≤ 0
  · rw [if_neg htransport, if_pos hmax]
    exact hsame
  by_cases hpath : (path.map cstr).getD [] = []
  · rw [if_neg htransport, if_neg hmax, if_pos hpath]
    exact hsame
  rw [if_neg htransport, if_neg hmax, if_neg hpath] at hgranted ⊢
  obtain ⟨hsocket, hnone, hafter⟩ := h.dropped hl
  simp only [fdEvents_append] at hgranted ⊢
  have hloop := (granted_append_iff.mp hgranted).2
  rw [Descriptors.after_append]
  rw [hafter] at hloop ⊢
  obtain ⟨howned, hfresh⟩ := reconnectLoop_owned path timeoutMs env _ 0 _ hloop
  generalize reconnectLoop path timeoutMs env nc.reconnectMax.toNat 0 nc.reconnectDelayMs = tried
    at howned hfresh ⊢
  generalize (ncDropped nc).1 = closed at hsocket hnone ⊢
  rw [howned]
  cases hfd : tried.1 with
  | some fd =>
      obtain ⟨hopen, hnew⟩ := hfresh fd hfd
      refine ⟨⟨hsocket.transport, rfl, rfl, fun hstate => by cases hstate⟩, ?_⟩
      have hfds : (ncTried closed (some fd)).fds = [fd] := by
        simp [NativeConnection.fds, ncTried, hopen]
      rw [hfds]
      refine ⟨rfl, rfl, ?_⟩
      intro fd' hmem
      rwa [List.mem_singleton.mp hmem]
  | none =>
      refine ⟨⟨hsocket.transport, hsocket.read, hsocket.write, fun hstate => by cases hstate⟩, ?_⟩
      have hfds : (ncTried closed none).fds = [] := by
        have hno : ¬ 0 ≤ closed.socketFd := by omega
        simp [NativeConnection.fds, ncTried, hno]
      rw [hfds]
      exact ⟨rfl, rfl, by simp⟩

end StarBridge
