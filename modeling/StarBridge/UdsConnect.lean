import StarBridge.Descriptors
import StarBridge.JsonUtils

/-!
# Connecting to the socket of the agent

`uds_connect` opens a socket and connects it, with a timeout or without one.  Where the
socket file is not there yet it looks again every ten milliseconds.

What the system answers is `UdsKernel`; the answers of different calls are independent.
`SysCall` are the calls that open, close, change or wait; those that only ask are left out.

* `udsConnect_spec` says in one statement how a call can end;
* `uds_connect_owns` draws the account of the descriptors, `uds_connect_waits` that of the
  time.
-/

namespace StarBridge

open CText Descriptors

/-- The values of `errno` that the code tells apart. -/
inductive Errno
  | inProgress
  | connRefused
  | noEnt
  | timedOut
  | other
  deriving DecidableEq, Repr

/-- A system call, with what it was given or, where it opens something, what it gave. -/
inductive SysCall
  | socket (fd : Int)
  | pipe (readEnd writeEnd : Int)
  | setFd (fd : Int) (flags : Nat)
  | setFl (fd : Int) (flags : Nat)
  | connect (fd : Int)
  | stat
  | sleep (ms : Int)
  | poll (fd : Int) (ms : Int)
  | close (fd : Int)
  deriving DecidableEq, Repr

/-- What a call does to the table of descriptors.  One that returns -1 opens nothing. -/
def SysCall.fdEvents : SysCall → List (FdEvent Int)
  | .socket fd => if 0 ≤ fd then [.opened fd] else []
  | .pipe readEnd writeEnd => [.opened readEnd, .opened writeEnd]
  | .close fd => [.closed fd]
  | _ => []

/-- What some calls do to the table of descriptors. -/
def fdEvents (calls : List SysCall) : List (FdEvent Int) := calls.flatMap SysCall.fdEvents

/-- The milliseconds a call may wait. -/
def SysCall.waits : SysCall → Int
  | .sleep ms => ms
  | .poll _ ms => ms
  | _ => 0

/-- The milliseconds some calls may wait. -/
def waits (calls : List SysCall) : Int := (calls.map SysCall.waits).sum

/-- The status flags of the socket behind a call. -/
def SysCall.flagsAfter (flags : Nat) : SysCall → Nat
  | .setFl _ new => new
  | _ => flags

/-- The status flags of the socket behind some calls. -/
def flagsAfter (flags : Nat) (calls : List SysCall) : Nat := calls.foldl SysCall.flagsAfter flags

/-- `UDSConnectResult`. -/
structure UdsConnectResult where
  fd : Int
  error : Option String
  deriving DecidableEq, Repr

/-- `FD_CLOEXEC` and `O_NONBLOCK`, as they are on macOS. -/
def fdCloexec : Nat := 1

def oNonblock : Nat := 4

/-- `sizeof(addr.sun_path)`. -/
def sunPathSize : Nat := 104

/-- What the system answers: `socket`, `fcntl` for the descriptor flags and for the status
flags (`none` where it fails), `connect` (`none` is success), the `stat` of each round
(whether a socket file is there), the second `connect`, `poll` and the `SO_ERROR` that
`getsockopt` finds, if it does. -/
structure UdsKernel where
  socket : Int
  fdFlags : Option Nat
  statusFlags : Option Nat
  connect : Option Errno
  socketFile : Nat → Bool
  retry : Option Errno
  poll : Int
  soError : Option (Option Errno)

/-- The end of a connection attempt that fails with the socket open. -/
def udsFail (sock : Int) (error : String) : UdsConnectResult × List SysCall :=
  (⟨-1, some error⟩, [.close sock])

/-- The end of one that succeeds after the socket was made non-blocking. -/
def udsDone (k : UdsKernel) : UdsConnectResult × List SysCall :=
  (⟨k.socket, none⟩, (k.statusFlags.map (SysCall.setFl k.socket)).toList)

/-- The same calls in front. -/
def behind (calls : List SysCall) (r : UdsConnectResult × List SysCall) :
    UdsConnectResult × List SysCall :=
  (r.1, calls ++ r.2)

/-- `stat` and `nanosleep` until the socket file is there: what was called, and the
milliseconds slept if it appeared in time.  The fuel is the number of rounds left. -/
def waitForFile (timeoutMs : Int) (socketFile : Nat → Bool) :
    Nat → Nat → List SysCall × Option Int
  | 0, _ => ([], none)
  | fuel + 1, round =>
      if 10 * (round : Int) < timeoutMs then
        if socketFile round then ([.stat], some (10 * round))
        else
          let rest := waitForFile timeoutMs socketFile fuel (round + 1)
          (.stat :: .sleep 10 :: rest.1, rest.2)
      else ([], none)

/-- The second `connect`, once the socket file is there, and what follows it. -/
def udsRetry (timeoutMs waited : Int) (k : UdsKernel) : UdsConnectResult × List SysCall :=
  behind [.connect k.socket] <|
    match k.retry with
    | none => udsDone k
    | some .inProgress =>
        let remaining := if timeoutMs - waited < 0 then 0 else timeoutMs - waited
        behind [.poll k.socket remaining] <|
          if k.poll ≤ 0 then
            udsFail k.socket
              (if k.poll = 0 then "native_socket_connect_timeout" else "native_socket_poll_failed")
          else if k.soError = some none then udsDone k
          else udsFail k.socket "native_socket_connect_failed"
    | some .connRefused => udsFail k.socket "native_socket_connection_refused"
    | some _ => udsFail k.socket "native_socket_connect_failed"

/-- The wait for a connection that is in progress. -/
def udsInProgress (timeoutMs : Int) (k : UdsKernel) : UdsConnectResult × List SysCall :=
  behind [.poll k.socket timeoutMs] <|
    if k.poll ≤ 0 then
      udsFail k.socket
        (if k.poll = 0 then "native_socket_connect_timeout" else "native_socket_poll_failed")
    else
      match k.soError with
      | some none => udsDone k
      | some (some .connRefused) => udsFail k.socket "native_socket_connection_refused"
      | some (some .timedOut) => udsFail k.socket "native_socket_connect_timeout"
      | _ => udsFail k.socket "native_socket_connect_failed"

/-- The wait for a socket file that is not there yet. -/
def udsAwaitFile (timeoutMs : Int) (k : UdsKernel) : UdsConnectResult × List SysCall :=
  let wait := waitForFile timeoutMs k.socketFile timeoutMs.toNat 0
  behind wait.1 <|
    match wait.2 with
    | some waited => udsRetry timeoutMs waited k
    | none => udsFail k.socket "native_socket_connect_timeout"

/-- The non-blocking `connect` and what follows it. -/
def udsAttempt (timeoutMs : Int) (k : UdsKernel) : UdsConnectResult × List SysCall :=
  behind [.connect k.socket] <|
    match k.connect with
    | none => udsDone k
    | some .inProgress => udsInProgress timeoutMs k
    | some .connRefused => udsFail k.socket "native_socket_connection_refused"
    | some .noEnt => udsAwaitFile timeoutMs k
    | some _ => udsFail k.socket "native_socket_connect_failed"

/-- The attempt with a timeout, on a socket that is made non-blocking for it. -/
def udsTimed (timeoutMs : Int) (k : UdsKernel) : UdsConnectResult × List SysCall :=
  behind (k.statusFlags.map fun flags => SysCall.setFl k.socket (flags ||| oNonblock)).toList <|
    udsAttempt timeoutMs k

/-- The blocking `connect`. -/
def udsBlocking (k : UdsKernel) : UdsConnectResult × List SysCall :=
  behind [.connect k.socket] <|
    match k.connect with
    | none => (⟨k.socket, none⟩, [])
    | some .connRefused => udsFail k.socket "native_socket_connection_refused"
    | some _ => udsFail k.socket "native_socket_connect_failed"

/-- A socket that a child of the bridge does not keep. -/
def udsOpening (k : UdsKernel) : List SysCall :=
  .socket k.socket ::
    (k.fdFlags.map fun flags => SysCall.setFd k.socket (flags ||| fdCloexec)).toList

/-- `uds_connect`. -/
def udsConnect (path : Option Bytes) (timeoutMs : Int) (k : UdsKernel) :
    UdsConnectResult × List SysCall :=
  match path.map cstr with
  | none | some [] => (⟨-1, some "native_socket_path_empty"⟩, [])
  | some name =>
      if k.socket < 0 then (⟨-1, some "native_socket_create_failed"⟩, [.socket k.socket])
      else
        behind (udsOpening k) <|
          if sunPathSize ≤ name.length then udsFail k.socket "native_socket_path_too_long"
          else if timeoutMs ≤ 0 then udsBlocking k
          else udsTimed timeoutMs k

/-! ## How a call can end -/

/-- How a call can end that has the socket open, whose flags are `flags`: it waits `limit`
milliseconds at most, and at least `due` where it gives up by its own clock. -/
inductive UdsEnds (k : UdsKernel) (flags : Nat) (due limit : Int) :
    UdsConnectResult × List SysCall → Prop
  | done (calls : List SysCall) (quiet : fdEvents calls = []) (waits_le : waits calls ≤ limit)
      (restored : flagsAfter flags calls = k.statusFlags.getD flags) :
      UdsEnds k flags due limit (⟨k.socket, none⟩, calls)
  | failed (calls : List SysCall) (error : String) (quiet : fdEvents calls = [])
      (waits_le : waits calls ≤ limit)
      (due_le : error = "native_socket_connect_timeout" →
        k.soError ≠ some (some .timedOut) → due ≤ waits calls) :
      UdsEnds k flags due limit (⟨-1, some error⟩, calls ++ [.close k.socket])

@[simp] theorem fdEvents_append (front back : List SysCall) :
    fdEvents (front ++ back) = fdEvents front ++ fdEvents back := by
  simp [fdEvents]

@[simp] theorem waits_append (front back : List SysCall) :
    waits (front ++ back) = waits front + waits back := by
  simp [waits]

theorem flagsAfter_append (flags : Nat) (front back : List SysCall) :
    flagsAfter flags (front ++ back) = flagsAfter (flagsAfter flags front) back := by
  simp [flagsAfter]

section

variable {k : UdsKernel} {flags : Nat} {due limit : Int}

/-- Calls in front that neither open nor close. -/
theorem UdsEnds.behind (calls : List SysCall) {r : UdsConnectResult × List SysCall}
    (h : UdsEnds k (flagsAfter flags calls) due limit r) (hquiet : fdEvents calls = [])
    (hflags : k.statusFlags = none → flagsAfter flags calls = flags) :
    UdsEnds k flags (waits calls + due) (waits calls + limit) (behind calls r) := by
  cases h with
  | done rest quiet waits_le restored =>
      refine .done (calls ++ rest) (by simp [hquiet, quiet]) (by simpa using waits_le) ?_
      rw [flagsAfter_append, restored]
      cases hk : k.statusFlags with
      | none => exact hflags hk
      | some f => rfl
  | failed rest error quiet waits_le due_le =>
      have hcalls : StarBridge.behind calls (⟨-1, some error⟩, rest ++ [.close k.socket]) =
          (⟨-1, some error⟩, (calls ++ rest) ++ [.close k.socket]) := by
        simp [StarBridge.behind]
      rw [hcalls]
      refine .failed (calls ++ rest) error (by simp [hquiet, quiet]) (by simpa using waits_le) ?_
      intro herror hso
      simpa using due_le herror hso

theorem UdsEnds.mono {due' limit' : Int} {r : UdsConnectResult × List SysCall}
    (h : UdsEnds k flags due limit r) (hdue : due' ≤ due) (hlimit : limit ≤ limit') :
    UdsEnds k flags due' limit' r := by
  cases h with
  | done calls quiet waits_le restored => exact .done calls quiet (by omega) restored
  | failed calls error quiet waits_le due_le =>
      exact .failed calls error quiet (by omega) fun herror hso =>
        hdue.trans (due_le herror hso)

/-- Calls in front that only wait. -/
theorem UdsEnds.behind_waiting (calls : List SysCall) {r : UdsConnectResult × List SysCall}
    (h : UdsEnds k flags due limit r) (hquiet : fdEvents calls = [])
    (hflags : flagsAfter flags calls = flags) :
    UdsEnds k flags (waits calls + due) (waits calls + limit) (StarBridge.behind calls r) :=
  UdsEnds.behind calls (hflags.symm ▸ h) hquiet fun _ => hflags

/-- The `connect` in front. -/
theorem UdsEnds.behind_connect {fd : Int} {r : UdsConnectResult × List SysCall}
    (h : UdsEnds k flags due limit r) :
    UdsEnds k flags due limit (StarBridge.behind [.connect fd] r) := by
  have hback := h.behind_waiting [.connect fd] rfl rfl
  simpa [waits, SysCall.waits] using hback

/-- A failure that is no time-out. -/
theorem udsFail_ends {error : String} (h : 0 ≤ limit)
    (herror : error ≠ "native_socket_connect_timeout") :
    UdsEnds k flags due limit (udsFail k.socket error) :=
  .failed [] error rfl (by simpa [waits] using h) fun he => absurd he herror

/-- A time-out when nothing is due any more. -/
theorem udsTimeout_ends (flags : Nat) (h : 0 ≤ limit) :
    UdsEnds k flags 0 limit (udsFail k.socket "native_socket_connect_timeout") :=
  .failed [] _ rfl (by simpa [waits] using h) fun _ _ => le_rfl

theorem udsDone_ends (h : 0 ≤ limit) : UdsEnds k flags due limit (udsDone k) := by
  cases hk : k.statusFlags with
  | none =>
      have hdone : udsDone k = (⟨k.socket, none⟩, []) := by simp [udsDone, hk]
      rw [hdone]
      exact .done [] rfl (by simpa [waits] using h) (by simp [flagsAfter, hk])
  | some f =>
      have hdone : udsDone k = (⟨k.socket, none⟩, [.setFl k.socket f]) := by simp [udsDone, hk]
      rw [hdone]
      refine .done _ (by simp [fdEvents, SysCall.fdEvents]) ?_ ?_
      · simpa [waits, SysCall.waits] using h
      · simp [flagsAfter, SysCall.flagsAfter, hk]

/-- A `poll` that found nothing. -/
theorem udsPollFail_ends (h : 0 ≤ limit) :
    UdsEnds k flags 0 limit (udsFail k.socket
      (if k.poll = 0 then "native_socket_connect_timeout" else "native_socket_poll_failed")) := by
  split_ifs
  · exact udsTimeout_ends flags h
  · exact udsFail_ends h (by decide)

/-- A `poll` in front. -/
theorem UdsEnds.behind_poll {fd ms : Int} {r : UdsConnectResult × List SysCall}
    (h : UdsEnds k flags 0 0 r) : UdsEnds k flags ms ms (StarBridge.behind [.poll fd ms] r) := by
  have hback := h.behind_waiting [.poll fd ms] rfl rfl
  simpa [waits, SysCall.waits] using hback

theorem udsRetry_ends (flags : Nat) {timeoutMs waited : Int} (h : waited < timeoutMs) :
    UdsEnds k flags (timeoutMs - waited) (timeoutMs - waited) (udsRetry timeoutMs waited k) := by
  have hroom : 0 ≤ timeoutMs - waited := by omega
  refine UdsEnds.behind_connect ?_
  match k.retry with
  | none => exact udsDone_ends hroom
  | some .connRefused => exact udsFail_ends hroom (by decide)
  | some .noEnt => exact udsFail_ends hroom (by decide)
  | some .timedOut => exact udsFail_ends hroom (by decide)
  | some .other => exact udsFail_ends hroom (by decide)
  | some .inProgress =>
      have hleft : ¬ timeoutMs - waited < 0 := by omega
      simp only [hleft, if_false]
      refine UdsEnds.behind_poll ?_
      by_cases hpoll : k.poll ≤ 0
      · rw [if_pos hpoll]
        exact udsPollFail_ends le_rfl
      · rw [if_neg hpoll]
        split_ifs
        · exact udsDone_ends le_rfl
        · exact udsFail_ends le_rfl (by decide)

theorem udsInProgress_ends (timeoutMs : Int) :
    UdsEnds k flags timeoutMs timeoutMs (udsInProgress timeoutMs k) := by
  refine UdsEnds.behind_poll ?_
  by_cases hpoll : k.poll ≤ 0
  · rw [if_pos hpoll]
    exact udsPollFail_ends le_rfl
  · rw [if_neg hpoll]
    match k.soError with
    | none => exact udsFail_ends le_rfl (by decide)
    | some none => exact udsDone_ends le_rfl
    | some (some .inProgress) => exact udsFail_ends le_rfl (by decide)
    | some (some .connRefused) => exact udsFail_ends le_rfl (by decide)
    | some (some .noEnt) => exact udsFail_ends le_rfl (by decide)
    | some (some .timedOut) => exact udsTimeout_ends flags le_rfl
    | some (some .other) => exact udsFail_ends le_rfl (by decide)

/-- The rounds open and close nothing and leave the flags alone.  They end before the
timeout, at a socket file, or have slept through it. -/
theorem waitForFile_spec (flags : Nat) (timeoutMs : Int) (socketFile : Nat → Bool)
    (fuel round : Nat)
    (hfuel : timeoutMs ≤ fuel + 10 * (round : Int)) :
    fdEvents (waitForFile timeoutMs socketFile fuel round).1 = [] ∧
      flagsAfter flags (waitForFile timeoutMs socketFile fuel round).1 = flags ∧
      match (waitForFile timeoutMs socketFile fuel round).2 with
      | some waited => waited < timeoutMs ∧
          waits (waitForFile timeoutMs socketFile fuel round).1 = waited - 10 * round
      | none => timeoutMs - 10 * round ≤ waits (waitForFile timeoutMs socketFile fuel round).1 ∧
          waits (waitForFile timeoutMs socketFile fuel round).1 ≤
            max 0 (timeoutMs + 9 - 10 * round) := by
  induction fuel generalizing round with
  | zero =>
      refine ⟨rfl, rfl, ?_⟩
      simp only [waitForFile, waits, List.map_nil, List.sum_nil]
      push_cast at hfuel
      omega
  | succ fuel ih =>
      have hnext := ih (round + 1) (by push_cast at hfuel ⊢; omega)
      unfold waitForFile
      by_cases hround : 10 * (round : Int) < timeoutMs
      · rw [if_pos hround]
        by_cases hfile : socketFile round = true
        · rw [if_pos hfile]
          exact ⟨rfl, rfl, hround, by simp [waits, SysCall.waits]⟩
        · rw [if_neg hfile]
          obtain ⟨hquiet, hflags, hwaits⟩ := hnext
          generalize waitForFile timeoutMs socketFile fuel (round + 1) = rest at hquiet hflags hwaits
          have hsleep : waits (.stat :: .sleep 10 :: rest.1) = 10 + waits rest.1 := by
            simp [waits, SysCall.waits]
          refine ⟨by simpa [fdEvents, SysCall.fdEvents] using hquiet,
            by simpa [flagsAfter, SysCall.flagsAfter] using hflags, ?_⟩
          simp only [hsleep]
          cases hrest : rest.2 with
          | some waited =>
              rw [hrest] at hwaits
              refine ⟨hwaits.1, ?_⟩
              have hslept := hwaits.2
              push_cast at hslept
              omega
          | none =>
              rw [hrest] at hwaits
              have hslept := hwaits
              push_cast at hslept
              omega
      · rw [if_neg hround]
        refine ⟨rfl, rfl, ?_⟩
        simp only [waits, List.map_nil, List.sum_nil]
        omega

theorem udsAwaitFile_ends (timeoutMs : Int) :
    UdsEnds k flags timeoutMs (max 0 (timeoutMs + 9)) (udsAwaitFile timeoutMs k) := by
  obtain ⟨hquiet, hflags, hwaits⟩ := waitForFile_spec flags timeoutMs k.socketFile
    timeoutMs.toNat 0 (by push_cast; omega)
  unfold udsAwaitFile
  generalize waitForFile timeoutMs k.socketFile timeoutMs.toNat 0 = wait at hquiet hflags hwaits ⊢
  cases hwait : wait.2 with
  | some waited =>
      rw [hwait] at hwaits
      have hback := (udsRetry_ends (k := k) flags hwaits.1).behind_waiting wait.1 hquiet hflags
      simp only [hwait]
      refine hback.mono ?_ ?_ <;> omega
  | none =>
      rw [hwait] at hwaits
      have hback := (udsTimeout_ends (k := k) flags le_rfl).behind_waiting wait.1 hquiet hflags
      simp only [hwait]
      refine hback.mono ?_ ?_ <;> omega

theorem udsAttempt_ends (flags : Nat) {timeoutMs : Int} (h : 0 < timeoutMs) :
    UdsEnds k flags timeoutMs (timeoutMs + 9) (udsAttempt timeoutMs k) := by
  have hroom : 0 ≤ timeoutMs + 9 := by omega
  refine UdsEnds.behind_connect ?_
  match k.connect with
  | none => exact udsDone_ends hroom
  | some .inProgress => exact (udsInProgress_ends timeoutMs).mono le_rfl (by omega)
  | some .noEnt => exact (udsAwaitFile_ends timeoutMs).mono le_rfl (by omega)
  | some .connRefused => exact udsFail_ends hroom (by decide)
  | some .timedOut => exact udsFail_ends hroom (by decide)
  | some .other => exact udsFail_ends hroom (by decide)

theorem udsTimed_ends {timeoutMs : Int} (h : 0 < timeoutMs) :
    UdsEnds k flags timeoutMs (timeoutMs + 9) (udsTimed timeoutMs k) := by
  cases hk : k.statusFlags with
  | none =>
      have hback := (udsAttempt_ends (k := k) flags h).behind_waiting [] rfl rfl
      simpa [udsTimed, hk, waits] using hback
  | some f =>
      -- the attempt starts with other flags and ends with the old ones
      have hback : UdsEnds k flags _ _ (StarBridge.behind [.setFl k.socket (f ||| oNonblock)] _) :=
        UdsEnds.behind _ (udsAttempt_ends _ h) rfl (by simp [hk])
      simpa [udsTimed, hk, waits, SysCall.waits] using hback

theorem udsBlocking_ends (hflags : ∀ f, k.statusFlags = some f → f = flags) :
    UdsEnds k flags due 0 (udsBlocking k) := by
  refine UdsEnds.behind_connect ?_
  match k.connect with
  | none =>
      refine .done [] rfl (by simp [waits]) ?_
      cases hk : k.statusFlags with
      | none => rfl
      | some f => exact (hflags f hk).symm
  | some .connRefused => exact udsFail_ends le_rfl (by decide)
  | some .inProgress => exact udsFail_ends le_rfl (by decide)
  | some .noEnt => exact udsFail_ends le_rfl (by decide)
  | some .timedOut => exact udsFail_ends le_rfl (by decide)
  | some .other => exact udsFail_ends le_rfl (by decide)

end

/-- The most a call may wait: the timeout, rounded up to whole rounds. -/
def waitLimit (timeoutMs : Int) : Int := if timeoutMs ≤ 0 then 0 else timeoutMs + 9

/-- **How a call ends.**  It opens no socket and fails; or it opens one, sets the flag that
closes it in a child, and ends with that socket open. -/
theorem udsConnect_spec (path : Option Bytes) (timeoutMs : Int) (k : UdsKernel) (flags : Nat)
    (hflags : ∀ f, k.statusFlags = some f → f = flags) :
    (∃ error calls, udsConnect path timeoutMs k = (⟨-1, some error⟩, calls) ∧
        error ≠ "native_socket_connect_timeout" ∧ fdEvents calls = [] ∧ waits calls = 0) ∨
      0 ≤ k.socket ∧ ∃ r, udsConnect path timeoutMs k = behind (udsOpening k) r ∧
        UdsEnds k flags timeoutMs (waitLimit timeoutMs) r := by
  unfold udsConnect
  match path.map cstr with
  | none => exact .inl ⟨_, [], rfl, by decide, rfl, rfl⟩
  | some [] => exact .inl ⟨_, [], rfl, by decide, rfl, rfl⟩
  | some (c :: name) =>
      simp only
      by_cases hsock : k.socket < 0
      · refine .inl ⟨_, [.socket k.socket], by rw [if_pos hsock], by decide, ?_, rfl⟩
        have hneg : ¬ 0 ≤ k.socket := by omega
        simp [fdEvents, SysCall.fdEvents, hneg]
      · rw [if_neg hsock]
        refine .inr ⟨by omega, _, rfl, ?_⟩
        have hroom : 0 ≤ waitLimit timeoutMs := by
          unfold waitLimit
          omega
        split_ifs with hlong hblocking
        · exact udsFail_ends hroom (by decide)
        · exact (udsBlocking_ends hflags).mono le_rfl hroom
        · refine (udsTimed_ends (by omega)).mono le_rfl ?_
          simp [waitLimit, hblocking]

@[simp] theorem fdEvents_udsOpening {k : UdsKernel} (h : 0 ≤ k.socket) :
    fdEvents (udsOpening k) = [.opened k.socket] := by
  cases hk : k.fdFlags <;> simp [udsOpening, hk, fdEvents, SysCall.fdEvents, h]

@[simp] theorem waits_udsOpening (k : UdsKernel) : waits (udsOpening k) = 0 := by
  cases hk : k.fdFlags <;> simp [udsOpening, hk, waits, SysCall.waits]

@[simp] theorem flagsAfter_udsOpening (k : UdsKernel) (flags : Nat) :
    flagsAfter flags (udsOpening k) = flags := by
  cases hk : k.fdFlags <;> simp [udsOpening, hk, flagsAfter, SysCall.flagsAfter]

/-- What a call leaves of the descriptors and of the socket.  It succeeds, and has opened
the socket it returns and nothing else; or it fails, and has closed what it opened. -/
inductive UdsAccount (l : Ledger Int) (flags : Nat) : UdsConnectResult × List SysCall → Prop
  | connected (fd : Int) (calls : List SysCall) (open_fd : 0 ≤ fd) (fresh : fd ∉ l.owned)
      (owned : l.after (fdEvents calls) = { l with owned := l.owned ++ [fd] })
      (restored : flagsAfter flags calls = flags) : UdsAccount l flags (⟨fd, none⟩, calls)
  | failed (error : String) (calls : List SysCall)
      (settles : Settles l (fdEvents calls)) : UdsAccount l flags (⟨-1, some error⟩, calls)

/-- Over every path, timeout and answers of the system, `uds_connect` returns a descriptor
or an error and never both; it closes the socket it opened exactly when it fails, and gives
it back with its old flags when it succeeds. -/
theorem uds_connect_owns (path : Option Bytes) (timeoutMs : Int) (k : UdsKernel)
    {l : Ledger Int} {flags : Nat} (hflags : ∀ f, k.statusFlags = some f → f = flags)
    (hgranted : Granted l (fdEvents (udsConnect path timeoutMs k).2)) :
    UdsAccount l flags (udsConnect path timeoutMs k) := by
  rcases udsConnect_spec path timeoutMs k flags hflags with
    ⟨error, calls, hr, -, hquiet, -⟩ | ⟨hsock, r, hr, hends⟩
  · rw [hr]
    exact .failed error calls (by rw [hquiet]; rfl)
  · have hfresh : k.socket ∉ l.owned := by
      rw [hr, behind, fdEvents_append, fdEvents_udsOpening hsock] at hgranted
      exact (granted_opened_cons_iff.mp hgranted).1
    rw [hr]
    cases hends with
    | done calls quiet _ restored =>
        refine .connected _ (udsOpening k ++ calls) hsock hfresh ?_ ?_
        · rw [fdEvents_append, fdEvents_udsOpening hsock, quiet]
          rfl
        · rw [flagsAfter_append, flagsAfter_udsOpening, restored]
          cases hk : k.statusFlags with
          | none => rfl
          | some f => exact hflags f hk
    | failed calls error quiet _ _ =>
        refine .failed error (udsOpening k ++ (calls ++ [.close k.socket])) ?_
        rw [fdEvents_append, fdEvents_append, fdEvents_udsOpening hsock, quiet]
        exact after_bracket hfresh

/-- An agent that binds its socket 25 ms late and takes the connection at once. -/
def lateAgent : UdsKernel where
  socket := 5
  fdFlags := some 0
  statusFlags := some 2
  connect := some .noEnt
  socketFile := fun round => round == 3
  retry := none
  poll := 0
  soError := none

theorem late_agent_connected :
    UdsAccount ⟨[3], []⟩ 2 (udsConnect (some (lit "/tmp/a.sock")) 50 lateAgent) :=
  uds_connect_owns _ _ _ (by decide)
    (granted_opened_cons_iff.mpr ⟨by decide, trivial⟩)

/-- Without a timeout a call waits for nothing but `connect`.  With one it waits for at most
nine milliseconds more, and where it reports a time-out that the system did not report, for
no less. -/
theorem uds_connect_waits (path : Option Bytes) (timeoutMs : Int) (k : UdsKernel) :
    waits (udsConnect path timeoutMs k).2 ≤ (if timeoutMs ≤ 0 then 0 else timeoutMs + 9) ∧
      ((udsConnect path timeoutMs k).1.error = some "native_socket_connect_timeout" →
        k.soError ≠ some (some .timedOut) → timeoutMs ≤ waits (udsConnect path timeoutMs k).2) := by
  rcases udsConnect_spec path timeoutMs k (k.statusFlags.getD 0) (by simp +contextual) with
    ⟨error, calls, hr, herror, -, hwaits⟩ | ⟨hsock, r, hr, hends⟩
  · rw [hr]
    refine ⟨?_, fun htimeout => absurd (Option.some.inj htimeout) herror⟩
    simp only [hwaits]
    split_ifs <;> omega
  · rw [hr]
    have hlimit : waitLimit timeoutMs = if timeoutMs ≤ 0 then 0 else timeoutMs + 9 := rfl
    rw [← hlimit]
    cases hends with
    | done calls _ waits_le _ => exact ⟨by simpa [behind] using waits_le, by simp [behind]⟩
    | failed calls error _ waits_le due_le =>
        have hclose : waits [.close k.socket] = 0 := rfl
        refine ⟨by simpa [behind, hclose] using waits_le, fun htimeout hso => ?_⟩
        have hdue := due_le (Option.some.inj htimeout) hso
        simpa [behind, hclose] using hdue

end StarBridge
