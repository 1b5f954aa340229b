import StarBridge.NativeConnection

/-!
# The life of an engine

`engine_init` opens the connection to the agent, `engine_reconnect_uds` may replace it, and
`engine_destroy` closes it.  Over stdio the two pipe ends stand twice, in the engine and in
its `NativeConnection`, and each of them closes them.

A life is an `engine_init`, any operations on the engine, and an `engine_destroy`.
`life_settled_iff` says which lives close every descriptor they opened and none twice;
`stdio_life_closes` says what goes wrong over stdio.

Only what concerns the descriptors is here; what `engine_destroy` writes and reads before is
`destroyFrames`.
-/

namespace StarBridge

open CText Descriptors Runs

/-! ## The engine -/

/-- The arguments of `engine_init` that decide what it opens. -/
structure EngineArgs where
  command : Bool
  workspace : Bool
  framedMode : Bool
  transport : Option Bytes
  socketPath : Option Bytes
  ownerMode : Option Bytes

/-- What the system answers `engine_init`: whether the buffers are allocated, the pipes (the
end to read from and the one to write to), the process id `fork` returns, and what the
socket does. -/
structure InitKernel where
  allocates : Bool
  inPipe : Option (Nat × Nat)
  outPipe : Option (Nat × Nat)
  errPipe : Option (Nat × Nat)
  fork : Int
  uds : UdsKernel

/-- The part of `BridgeEngine` that concerns its connection. -/
structure BridgeEngine where
  framedMode : Bool
  stdinFd : Int
  stdoutFd : Int
  stderrFd : Int
  childPid : Int
  turnActive : Bool
  cancelled : Bool
  nc : NativeConnection
  deriving DecidableEq, Repr

/-- `transport && strcmp(transport, "uds") == 0`. -/
def EngineArgs.useUds (args : EngineArgs) : Bool := args.transport.map cstr = some (lit "uds")

/-- `owner_mode && strcmp(owner_mode, "connect_existing") == 0`. -/
def EngineArgs.connectExisting (args : EngineArgs) : Bool :=
  args.ownerMode.map cstr = some (lit "connect_existing")

/-- `BRIDGE_SOCKET_CONNECT_TIMEOUT_MS`.  `engine_init` sets its own timeout to zero before it
looks at it, so this is what counts. -/
def bridgeSocketConnectTimeoutMs : Int := 30000

/-- The engine over a connected socket. -/
def udsEngine (args : EngineArgs) (sockFd childPid : Int) : BridgeEngine where
  framedMode := args.framedMode
  stdinFd := -1
  stdoutFd := -1
  stderrFd := -1
  childPid := childPid
  turnActive := false
  cancelled := false
  nc := ncSetState (ncSetUds ncInit sockFd childPid) .connected

/-- The engine over the pipes of its child. -/
def stdioEngine (args : EngineArgs) (stdinFd stdoutFd stderrFd childPid : Int) :
    BridgeEngine where
  framedMode := args.framedMode
  stdinFd := stdinFd
  stdoutFd := stdoutFd
  stderrFd := stderrFd
  childPid := childPid
  turnActive := false
  cancelled := false
  nc := ncSetState (ncSetStdio ncInit stdinFd stdoutFd childPid) .connected

/-- The socket of `engine_init`, with a child or without one. -/
def initUds (args : EngineArgs) (childPid : Int) (uds : UdsKernel) :
    Option BridgeEngine × List SysCall :=
  let r := udsConnect args.socketPath bridgeSocketConnectTimeoutMs uds
  (if r.1.fd < 0 then none else some (udsEngine args r.1.fd childPid), r.2)

/-- The pipes of `engine_init`: `||` stops at the first that fails. -/
def initPipes (k : InitKernel) : List SysCall × Option ((Nat × Nat) × (Nat × Nat) × (Nat × Nat)) :=
  match k.inPipe, k.outPipe, k.errPipe with
  | none, _, _ => ([], none)
  | some i, none, _ => ([.pipe i.1 i.2], none)
  | some i, some o, none => ([.pipe i.1 i.2, .pipe o.1 o.2], none)
  | some i, some o, some e => ([.pipe i.1 i.2, .pipe o.1 o.2, .pipe e.1 e.2], some (i, o, e))

/-- The pipes and the child of `engine_init`. -/
def initStdio (args : EngineArgs) (k : InitKernel) : Option BridgeEngine × List SysCall :=
  match initPipes k with
  | (calls, none) => (none, calls)
  | (calls, some (i, o, e)) =>
      let closed := calls ++ [.close i.1, .close o.2, .close e.2]
      if k.fork < 0 then (none, closed ++ [.close i.2, .close o.1, .close e.1])
      else (some (stdioEngine args i.2 o.1 e.1 k.fork), closed)

/-- `engine_init`. -/
def engineInit (args : EngineArgs) (k : InitKernel) : Option BridgeEngine × List SysCall :=
  if !args.workspace || !k.allocates then (none, [])
  else if args.useUds then
    if args.connectExisting then
      if (args.socketPath.map cstr).getD [] = [] then (none, []) else initUds args 0 k.uds
    else if !args.command || k.fork < 0 then (none, [])
    else initUds args k.fork k.uds
  else if !args.command then (none, [])
  else initStdio args k

/-- `engine_destroy`: what it closes. -/
def engineDestroy (eng : BridgeEngine) : List SysCall :=
  (if 0 < eng.stdinFd then [.close eng.stdinFd] else []) ++
    (if 0 < eng.stdoutFd then [.close eng.stdoutFd] else []) ++
    (if 0 < eng.stderrFd then [.close eng.stderrFd] else []) ++ ncCloseCalls eng.nc

/-! ## Lives -/

/-- An operation on an engine: a turn begins or ends (`engine_set_turn_active`), is cancelled
or its cancellation forgotten, the state of the connection changes in the handshake or by a
heartbeat, or `engine_reconnect_uds` is called. -/
inductive LifeOp
  | turnActive (active : Bool)
  | cancelled (cancelled : Bool)
  | handshaking
  | ready
  | unhealthy
  | reconnect (socketPath : Option Bytes) (timeoutMs : Int) (env : Nat → UdsKernel)

/-- `engine_reconnect_uds`. -/
def engineReconnectUds (eng : BridgeEngine) (socketPath : Option Bytes) (timeoutMs : Int)
    (env : Nat → UdsKernel) : BridgeEngine × List SysCall :=
  if eng.turnActive && !eng.cancelled then (eng, [])
  else
    ({ eng with nc := (ncReconnect eng.nc socketPath timeoutMs env).2.1 },
      (ncReconnect eng.nc socketPath timeoutMs env).2.2)

/-- One operation. -/
def lifeOp (eng : BridgeEngine) : LifeOp → BridgeEngine × List SysCall
  | .turnActive active => ({ eng with turnActive := active }, [])
  | .cancelled cancelled => ({ eng with cancelled := cancelled }, [])
  | .handshaking => ({ eng with nc := ncSetState eng.nc .handshaking }, [])
  | .ready => ({ eng with nc := ncSetState eng.nc .ready }, [])
  | .unhealthy => ({ eng with nc := ncSetState eng.nc .unhealthy }, [])
  | .reconnect socketPath timeoutMs env => engineReconnectUds eng socketPath timeoutMs env

/-- The engine behind an operation, and its calls. -/
def lifeStep (eng : BridgeEngine) (op : LifeOp) : BridgeEngine := (lifeOp eng op).1

def lifeCalls (eng : BridgeEngine) (op : LifeOp) : List SysCall := (lifeOp eng op).2

/-- The calls of some operations and of the `engine_destroy` behind them. -/
def restOfLife (eng : BridgeEngine) (ops : List LifeOp) : List SysCall :=
  outputs lifeStep lifeCalls eng ops ++ engineDestroy (stateAfter lifeStep eng ops)

/-- The calls of a life. -/
def life (args : EngineArgs) (k : InitKernel) (ops : List LifeOp) : List SysCall :=
  match engineInit args k with
  | (none, calls) => calls
  | (some eng, calls) => calls ++ restOfLife eng ops

theorem restOfLife_cons (eng : BridgeEngine) (op : LifeOp) (ops : List LifeOp) :
    restOfLife eng (op :: ops) = lifeCalls eng op ++ restOfLife (lifeStep eng op) ops := by
  simp [restOfLife, outputs]

/-! ## Over a socket -/

/-- The engine has no pipes, and its connection is one over a socket. -/
structure BridgeEngine.OverSocket (eng : BridgeEngine) : Prop where
  stdin : eng.stdinFd = -1
  stdout : eng.stdoutFd = -1
  stderr : eng.stderrFd = -1
  nc : eng.nc.OverSocket

/-- A new state that is not that of a closed connection. -/
theorem NativeConnection.OverSocket.setState {nc : NativeConnection} (h : nc.OverSocket)
    {state : ConnectionState} (hstate : state ≠ .disconnected) : (ncSetState nc state).OverSocket :=
  ⟨h.transport, h.read, h.write, fun heq => absurd heq hstate⟩

/-- **One operation** keeps the account of the socket. -/
theorem BridgeEngine.OverSocket.step {eng : BridgeEngine} (h : eng.OverSocket) (op : LifeOp)
    {old l : Ledger Int} (hl : OpenBeside old l eng.nc.fds)
    (hgranted : Granted l (fdEvents (lifeCalls eng op))) :
    (lifeStep eng op).OverSocket ∧
      OpenBeside old (l.after (fdEvents (lifeCalls eng op))) (lifeStep eng op).nc.fds := by
  cases op with
  | turnActive active => exact ⟨⟨h.stdin, h.stdout, h.stderr, h.nc⟩, hl⟩
  | cancelled cancelled => exact ⟨⟨h.stdin, h.stdout, h.stderr, h.nc⟩, hl⟩
  | handshaking =>
      exact ⟨⟨h.stdin, h.stdout, h.stderr, h.nc.setState (by decide)⟩, hl⟩
  | ready => exact ⟨⟨h.stdin, h.stdout, h.stderr, h.nc.setState (by decide)⟩, hl⟩
  | unhealthy => exact ⟨⟨h.stdin, h.stdout, h.stderr, h.nc.setState (by decide)⟩, hl⟩
  | reconnect socketPath timeoutMs env =>
      unfold lifeCalls lifeStep lifeOp engineReconnectUds at *
      by_cases hblocked : (eng.turnActive && !eng.cancelled) = true
      · simp only [hblocked, if_true] at hgranted ⊢
        exact ⟨h, hl⟩
      · simp only [hblocked] at hgranted ⊢
        obtain ⟨hnc, hopen⟩ := h.nc.reconnect hl socketPath timeoutMs env hgranted
        exact ⟨⟨h.stdin, h.stdout, h.stderr, hnc⟩, hopen⟩

/-- **The rest of a life** closes the socket and whatever took its place. -/
theorem BridgeEngine.OverSocket.rest {eng : BridgeEngine} (h : eng.OverSocket)
    (ops : List LifeOp) {old l : Ledger Int} (hl : OpenBeside old l eng.nc.fds)
    (hgranted : Granted l (fdEvents (restOfLife eng ops))) :
    l.after (fdEvents (restOfLife eng ops)) = old := by
  induction ops generalizing eng l with
  | nil =>
      have hdestroy : restOfLife eng [] = ncCloseCalls eng.nc := by
        simp [restOfLife, outputs, engineDestroy, h.stdin, h.stdout, h.stderr]
      rw [hdestroy]
      exact h.nc.after_close hl
  | cons op ops ih =>
      rw [restOfLife_cons, fdEvents_append] at hgranted ⊢
      obtain ⟨hfirst, hrest⟩ := granted_append_iff.mp hgranted
      obtain ⟨hstep, hopen⟩ := h.step op hl hfirst
      rw [Descriptors.after_append]
      exact ih hstep hopen hrest

/-- What `engine_init` makes of a socket. -/
theorem udsEngine_overSocket (args : EngineArgs) (sockFd childPid : Int) :
    (udsEngine args sockFd childPid).OverSocket :=
  ⟨rfl, rfl, rfl, (ncSetUds_overSocket ncInit sockFd childPid).setState (by decide)⟩

/-- A life that begins with a connected socket, or with none. -/
theorem settled_initUds (args : EngineArgs) (childPid : Int) (uds : UdsKernel)
    (ops : List LifeOp) {l : Ledger Int} :
    let init := initUds args childPid uds
    Granted l (fdEvents (init.2 ++ (init.1.map (restOfLife · ops)).getD [])) →
      Settles l (fdEvents (init.2 ++ (init.1.map (restOfLife · ops)).getD [])) := by
  intro init hgranted
  simp only [init, initUds] at hgranted ⊢
  rw [fdEvents_append] at hgranted ⊢
  obtain ⟨hconnect, hrest⟩ := granted_append_iff.mp hgranted
  have haccount : UdsAccount l (uds.statusFlags.getD 0) _ :=
    uds_connect_owns args.socketPath bridgeSocketConnectTimeoutMs uds (by simp +contextual) hconnect
  unfold Settles
  rw [Descriptors.after_append]
  generalize udsConnect args.socketPath bridgeSocketConnectTimeoutMs uds = r at haccount hrest ⊢
  cases haccount with
  | connected fd calls open_fd fresh owned _ =>
      have hfd : ¬ fd < 0 := by omega
      simp only [hfd, if_false, Option.map_some, Option.getD_some, owned] at hrest ⊢
      refine (udsEngine_overSocket args fd childPid).rest ops ?_ hrest
      have hfds : (udsEngine args fd childPid).nc.fds = [fd] := by
        simp [udsEngine, ncSetState, ncSetUds, NativeConnection.fds, open_fd]
      rw [hfds]
      exact ⟨rfl, rfl, by simpa using fresh⟩
  | failed error calls settles =>
      simp only [Int.reduceNeg, Int.reduceLT, if_true, Option.map_none, Option.getD_none]
      rw [settles]
      rfl

/-! ## Over stdio -/

/-- The engine has three pipe ends, and its connection two of them. -/
structure BridgeEngine.OverPipes (eng : BridgeEngine) (stdinFd stdoutFd stderrFd : Int) : Prop where
  stdin : eng.stdinFd = stdinFd
  stdout : eng.stdoutFd = stdoutFd
  stderr : eng.stderrFd = stderrFd
  transport : eng.nc.transport = .stdioFramed
  write : eng.nc.writeFd = stdinFd
  read : eng.nc.readFd = stdoutFd
  socket : eng.nc.socketFd = -1

section

variable {eng : BridgeEngine} {stdinFd stdoutFd stderrFd : Int}

/-- **One operation** leaves the pipe ends alone, and calls nothing. -/
theorem BridgeEngine.OverPipes.step (h : eng.OverPipes stdinFd stdoutFd stderrFd) (op : LifeOp) :
    (lifeStep eng op).OverPipes stdinFd stdoutFd stderrFd ∧ lifeCalls eng op = [] := by
  obtain ⟨hin, hout, herr, htransport, hwrite, hread, hsocket⟩ := h
  cases op with
  | turnActive active => exact ⟨⟨hin, hout, herr, htransport, hwrite, hread, hsocket⟩, rfl⟩
  | cancelled cancelled => exact ⟨⟨hin, hout, herr, htransport, hwrite, hread, hsocket⟩, rfl⟩
  | handshaking => exact ⟨⟨hin, hout, herr, htransport, hwrite, hread, hsocket⟩, rfl⟩
  | ready => exact ⟨⟨hin, hout, herr, htransport, hwrite, hread, hsocket⟩, rfl⟩
  | unhealthy => exact ⟨⟨hin, hout, herr, htransport, hwrite, hread, hsocket⟩, rfl⟩
  | reconnect socketPath timeoutMs env =>
      have hsame : ncReconnect eng.nc socketPath timeoutMs env = (false, eng.nc, []) := by
        simp [ncReconnect, htransport]
      have hkept : lifeOp eng (.reconnect socketPath timeoutMs env) = (eng, []) := by
        simp only [lifeOp, engineReconnectUds, hsame]
        split_ifs <;> rfl
      unfold lifeStep lifeCalls
      rw [hkept]
      exact ⟨⟨hin, hout, herr, htransport, hwrite, hread, hsocket⟩, rfl⟩

/-- The closes of `engine_destroy` over stdio: its own, and then those of `nc_close`. -/
def pipeCloses (stdinFd stdoutFd stderrFd : Int) : List SysCall :=
  (if 0 < stdinFd then [.close stdinFd] else []) ++
    (if 0 < stdoutFd then [.close stdoutFd] else []) ++
    (if 0 < stderrFd then [.close stderrFd] else []) ++ [.close stdoutFd, .close stdinFd]

/-- **The rest of a life** is its `engine_destroy`. -/
theorem BridgeEngine.OverPipes.rest (h : eng.OverPipes stdinFd stdoutFd stderrFd)
    (hin : 0 ≤ stdinFd) (hout : 0 ≤ stdoutFd) (hne : stdoutFd ≠ stdinFd) (ops : List LifeOp) :
    restOfLife eng ops = pipeCloses stdinFd stdoutFd stderrFd := by
  induction ops generalizing eng with
  | nil =>
      have hclose : ncCloseCalls eng.nc = [.close stdoutFd, .close stdinFd] := by
        simp [ncCloseCalls, h.read, h.write, h.socket, hin, hout, hne]
      simp [restOfLife, outputs, engineDestroy, hclose, h.stdin, h.stdout, h.stderr, pipeCloses]
  | cons op ops ih =>
      obtain ⟨hstep, hcalls⟩ := h.step op
      rw [restOfLife_cons, hcalls, ih hstep, List.nil_append]

end

/-- A close of an open descriptor, wherever it stands. -/
theorem account_closed_between {δ : Type*} [DecidableEq δ] {front back strays : List δ} {fd : δ}
    (h : fd ∉ front) :
    (⟨front ++ fd :: back, strays⟩ : Ledger δ).account (.closed fd) =
      ⟨front ++ back, strays⟩ := by
  simp [Ledger.account, List.erase_append_right _ h]

/-- A close of one that is not open. -/
theorem account_closed_stray {δ : Type*} [DecidableEq δ] {owned strays : List δ} {fd : δ}
    (h : fd ∉ owned) :
    (⟨owned, strays⟩ : Ledger δ).account (.closed fd) = ⟨owned, strays ++ [fd]⟩ := by
  simp [Ledger.account, h]

/-- The ledger behind the pipes of a child and the ends that the bridge gives away. -/
theorem after_pipes {δ : Type*} [DecidableEq δ] {base strays : List δ} {a b c d e f : δ}
    (hapart : ∀ x ∈ [a, b, c, d, e, f], x ∉ base) (hdistinct : [a, b, c, d, e, f].Nodup) :
    (⟨base, strays⟩ : Ledger δ).after
        [.opened a, .opened b, .opened c, .opened d, .opened e, .opened f,
          .closed a, .closed d, .closed f] = ⟨base ++ [b, c, e], strays⟩ := by
  simp only [List.mem_cons, List.not_mem_nil, or_false, forall_eq_or_imp, forall_eq] at hapart
  obtain ⟨ha, hb, hc, hd, he, hf⟩ := hapart
  simp only [List.nodup_cons, List.mem_cons, List.not_mem_nil, not_or, or_false] at hdistinct
  obtain ⟨-, ⟨-, hbd, -, hbf⟩, ⟨hcd, -, hcf⟩, -, hef, -⟩ := hdistinct
  have hopen : (⟨base, strays⟩ : Ledger δ).after
      [.opened a, .opened b, .opened c, .opened d, .opened e, .opened f] =
        ⟨base ++ a :: [b, c, d, e, f], strays⟩ := by
    simp [Ledger.after, stateAfter, Ledger.account]
  have hsplit : ([.opened a, .opened b, .opened c, .opened d, .opened e, .opened f,
      .closed a, .closed d, .closed f] : List (FdEvent δ)) =
      [.opened a, .opened b, .opened c, .opened d, .opened e, .opened f] ++
        [.closed a, .closed d, .closed f] := rfl
  rw [hsplit, Descriptors.after_append, hopen]
  simp only [after_cons, after_nil]
  rw [account_closed_between ha]
  have hd' : d ∉ base ++ [b, c] := by
    simp [hd, Ne.symm hbd, Ne.symm hcd]
  have hf' : f ∉ base ++ [b, c, e] := by
    simp [hf, Ne.symm hbf, Ne.symm hcf, Ne.symm hef]
  have hsecond : base ++ [b, c, d, e, f] = (base ++ [b, c]) ++ d :: [e, f] := by simp
  rw [hsecond, account_closed_between hd']
  have hthird : base ++ [b, c] ++ [e, f] = (base ++ [b, c, e]) ++ f :: [] := by simp
  rw [hthird, account_closed_between hf']
  simp

/-- What is left of a descriptor behind a close that spares zero. -/
def spared (fd : Int) : List Int := if 0 < fd then [] else [fd]

theorem mem_spared {x fd : Int} (h : x ∈ spared fd) : x = fd := by
  unfold spared at h
  split_ifs at h
  · cases h
  · exact List.mem_singleton.mp h

/-- A close that spares zero. -/
theorem after_spare {front back strays : List Int} {fd : Int} (h : fd ∉ front) :
    (⟨front ++ fd :: back, strays⟩ : Ledger Int).after
        (fdEvents (if 0 < fd then [.close fd] else [])) = ⟨front ++ spared fd ++ back, strays⟩ := by
  unfold spared
  split_ifs
  · simpa [fdEvents, SysCall.fdEvents] using account_closed_between h
  · simp [fdEvents]

/-- A second close, which does not spare zero. -/
theorem after_second {front back strays : List Int} {fd : Int} (hfront : fd ∉ front)
    (hback : fd ∉ back) :
    (⟨front ++ spared fd ++ back, strays⟩ : Ledger Int).account (.closed fd) =
      ⟨front ++ back, strays ++ if 0 < fd then [fd] else []⟩ := by
  unfold spared
  split_ifs
  · have habsent : fd ∉ front ++ [] ++ back := by simp [hfront, hback]
    rw [account_closed_stray habsent, List.append_nil]
  · have hsplit : front ++ [fd] ++ back = front ++ fd :: back := by simp
    rw [hsplit, account_closed_between hfront, List.append_nil]

/-- The ledger behind `engine_destroy` over stdio: a pipe end that is above zero is closed
twice where the connection has it too, and one that is zero is closed by the connection
alone. -/
theorem after_pipeCloses {base strays : List Int} {a b e : Int}
    (hapart : ∀ x ∈ [a, b, e], x ∉ base) (hdistinct : [a, b, e].Nodup) :
    (⟨base ++ [a, b, e], strays⟩ : Ledger Int).after (fdEvents (pipeCloses a b e)) =
      ⟨base ++ spared e, strays ++ [b, a].filter (0 < ·)⟩ := by
  simp only [List.mem_cons, List.not_mem_nil, or_false, forall_eq_or_imp, forall_eq] at hapart
  obtain ⟨hna, hnb, hne⟩ := hapart
  simp only [List.nodup_cons, List.mem_cons, List.not_mem_nil, not_or, or_false,
    not_false_eq_true, List.nodup_nil, and_true] at hdistinct
  obtain ⟨⟨hab, hae⟩, hbe⟩ := hdistinct
  have hout : b ∉ base ++ spared a := by
    simp only [List.mem_append, not_or]
    exact ⟨hnb, fun h => hab (mem_spared h).symm⟩
  have herr : e ∉ base ++ spared a ++ spared b := by
    simp only [List.mem_append, not_or]
    exact ⟨⟨hne, fun h => hae (mem_spared h).symm⟩, fun h => hbe (mem_spared h).symm⟩
  unfold pipeCloses
  simp only [fdEvents_append, Descriptors.after_append]
  rw [after_spare hna, after_spare hout]
  have hlast : base ++ spared a ++ spared b ++ [e] = (base ++ spared a ++ spared b) ++ e :: [] := by
    simp
  rw [hlast, after_spare herr, List.append_nil]
  simp only [fdEvents, List.flatMap_cons, List.flatMap_nil, SysCall.fdEvents, List.append_nil,
    List.singleton_append, after_cons, after_nil]
  rw [after_second hout fun h => hbe (mem_spared h)]
  rw [after_second hna fun h => hae (mem_spared h)]
  by_cases ha : 0 < a <;> by_cases hb : 0 < b <;> simp [ha, hb]

/-- The descriptors of three pipes that the system handed out one after another. -/
theorem granted_pipes {l : Ledger Int} {a b c d e f : Int} {rest : List (FdEvent Int)}
    (h : Granted l ([.opened a, .opened b, .opened c, .opened d, .opened e, .opened f] ++ rest)) :
    (∀ x ∈ [a, b, c, d, e, f], x ∉ l.owned) ∧ [a, b, c, d, e, f].Nodup := by
  have hopened : Granted l ([a, b, c, d, e, f].map .opened) := (granted_append_iff.mp h).1
  obtain ⟨hdistinct, hapart⟩ := granted_opened_iff.mp hopened
  exact ⟨hapart, hdistinct⟩

/-! ## Whole lives -/

/-- The life gets as far as the pipes. -/
def ReachesPipes (args : EngineArgs) (k : InitKernel) : Prop :=
  args.workspace = true ∧ k.allocates = true ∧ args.useUds = false ∧ args.command = true

/-- The calls of `engine_init` that open the pipes and close the ends of the child. -/
def pipeCalls (i o e : Nat × Nat) : List SysCall :=
  [.pipe i.1 i.2, .pipe o.1 o.2, .pipe e.1 e.2, .close i.1, .close o.2, .close e.2]

theorem engineInit_pipes {args : EngineArgs} {k : InitKernel} (h : ReachesPipes args k) :
    engineInit args k = initStdio args k := by
  obtain ⟨hworkspace, hallocates, huds, hcommand⟩ := h
  simp [engineInit, hworkspace, hallocates, huds, hcommand]

/-- A started engine over stdio: its pipes, and the calls that opened them. -/
theorem started_of_init {args : EngineArgs} {k : InitKernel} {eng : BridgeEngine}
    {calls : List SysCall} (huds : args.useUds = false)
    (hinit : engineInit args k = (some eng, calls)) :
    ReachesPipes args k ∧ 0 ≤ k.fork ∧ ∃ i o e, k.inPipe = some i ∧ k.outPipe = some o ∧
      k.errPipe = some e ∧ eng = stdioEngine args i.2 o.1 e.1 k.fork ∧ calls = pipeCalls i o e := by
  have hreaches : ReachesPipes args k := by
    unfold engineInit at hinit
    simp only [huds, Bool.false_eq_true, if_false] at hinit
    split_ifs at hinit with hno hcommand
    · cases hinit
    · cases hinit
    · simp only [Bool.or_eq_true, Bool.not_eq_true', not_or, Bool.not_eq_false] at hno hcommand
      exact ⟨hno.1, hno.2, huds, hcommand⟩
  rw [engineInit_pipes hreaches] at hinit
  unfold initStdio initPipes at hinit
  match hi : k.inPipe, ho : k.outPipe, he : k.errPipe with
  | none, _, _ => simp [hi] at hinit
  | some i, none, _ => simp [hi, ho] at hinit
  | some i, some o, none => simp [hi, ho, he] at hinit
  | some i, some o, some e =>
      simp only [hi, ho, he] at hinit
      split_ifs at hinit with hfork
      · cases hinit
      · cases hinit
        exact ⟨hreaches, by omega, i, o, e, rfl, rfl, rfl, rfl, rfl⟩

theorem fdEvents_pipeCalls (i o e : Nat × Nat) :
    fdEvents (pipeCalls i o e) =
      [.opened (i.1 : Int), .opened (i.2 : Int), .opened (o.1 : Int), .opened (o.2 : Int),
        .opened (e.1 : Int), .opened (e.2 : Int),
        .closed (i.1 : Int), .closed (o.2 : Int), .closed (e.2 : Int)] := rfl

/-- The ledger behind a whole life over stdio. -/
theorem after_stdio_life (args : EngineArgs) {i o e : Nat × Nat} (childPid : Int)
    (ops : List LifeOp) {l : Ledger Int}
    (hgranted : Granted l (fdEvents
      (pipeCalls i o e ++ restOfLife (stdioEngine args i.2 o.1 e.1 childPid) ops))) :
    (o.1 : Int) ≠ i.2 ∧
      l.after (fdEvents
          (pipeCalls i o e ++ restOfLife (stdioEngine args i.2 o.1 e.1 childPid) ops)) =
        ⟨l.owned ++ spared e.1, l.strays ++ [(o.1 : Int), (i.2 : Int)].filter (0 < ·)⟩ := by
  have hpipes : (stdioEngine args i.2 o.1 e.1 childPid).OverPipes i.2 o.1 e.1 :=
    ⟨rfl, rfl, rfl, rfl, rfl, rfl, rfl⟩
  rw [fdEvents_append, fdEvents_pipeCalls] at hgranted
  obtain ⟨hapart, hdistinct⟩ := granted_pipes hgranted
  -- the ends that the bridge keeps
  have hkept : List.Sublist [(i.2 : Int), (o.1 : Int), (e.1 : Int)]
      [(i.1 : Int), (i.2 : Int), (o.1 : Int), (o.2 : Int), (e.1 : Int), (e.2 : Int)] :=
    .cons _ (.cons_cons _ (.cons_cons _ (.cons _ (.cons_cons _ (.cons _ .slnil)))))
  have hne : (o.1 : Int) ≠ i.2 := by
    have hends := (List.nodup_cons.mp (hdistinct.sublist hkept)).1
    exact fun heq => hends (by simp [heq])
  refine ⟨hne, ?_⟩
  rw [hpipes.rest (by omega) (by omega) hne, fdEvents_append, Descriptors.after_append,
    fdEvents_pipeCalls, after_pipes hapart hdistinct]
  exact after_pipeCloses (fun x hx => hapart x (hkept.subset hx)) (hdistinct.sublist hkept)

/-- Over stdio a life closes the pipe it writes to and the pipe it reads from twice, first as
the engine's and then as the connection's; of the three, a descriptor zero is spared by the
engine, and left open if it is the one for errors. -/
theorem stdio_life_closes (args : EngineArgs) (k : InitKernel) (ops : List LifeOp)
    {eng : BridgeEngine} {calls : List SysCall} {l : Ledger Int} (huds : args.useUds = false)
    (hinit : engineInit args k = (some eng, calls))
    (hgranted : Granted l (fdEvents (life args k ops))) :
    l.after (fdEvents (life args k ops)) =
      { owned := l.owned ++ if 0 < eng.stderrFd then [] else [eng.stderrFd]
        strays := l.strays ++ [eng.stdoutFd, eng.stdinFd].filter (0 < ·) } := by
  obtain ⟨-, -, i, o, e, -, -, -, rfl, rfl⟩ := started_of_init huds hinit
  have hlife : life args k ops =
      pipeCalls i o e ++ restOfLife (stdioEngine args i.2 o.1 e.1 k.fork) ops := by
    simp [life, hinit]
  rw [hlife] at hgranted ⊢
  exact (after_stdio_life args k.fork ops hgranted).2

/-- A child that starts, with pipes that have the first free numbers. -/
def pipedArgs : EngineArgs where
  command := true
  workspace := true
  framedMode := true
  transport := none
  socketPath := none
  ownerMode := none

def pipedKernel : InitKernel where
  allocates := true
  inPipe := some (3, 4)
  outPipe := some (5, 6)
  errPipe := some (7, 8)
  fork := 42
  uds := { socket := -1, fdFlags := none, statusFlags := none, connect := none,
           socketFile := fun _ => false, retry := none, poll := 0, soError := none }

theorem piped_life_closes :
    (⟨[0, 1, 2], []⟩ : Ledger Int).after (fdEvents (life pipedArgs pipedKernel [.ready])) =
      ⟨[0, 1, 2], [5, 4]⟩ :=
  stdio_life_closes pipedArgs pipedKernel [.ready] rfl rfl (by decide)

/-- A pipe fails behind another, or the child starts. -/
def LeavesPipes (k : InitKernel) : Prop :=
  k.inPipe ≠ none ∧ (k.outPipe = none ∨ k.errPipe = none ∨ 0 ≤ k.fork)

/-- A life that does not get to the pipes. -/
theorem settled_of_not_reachesPipes {args : EngineArgs} {k : InitKernel} (ops : List LifeOp)
    {l : Ledger Int} (h : ¬ ReachesPipes args k)
    (hgranted : Granted l (fdEvents (life args k ops))) :
    Settles l (fdEvents (life args k ops)) := by
  have hsocket : ∀ childPid, engineInit args k = initUds args childPid k.uds →
      Settles l (fdEvents (life args k ops)) := by
    intro childPid hinit
    have hlife : life args k ops = (initUds args childPid k.uds).2 ++
        ((initUds args childPid k.uds).1.map (restOfLife · ops)).getD [] := by
      rw [life, hinit]
      generalize initUds args childPid k.uds = init
      obtain ⟨eng?, calls⟩ := init
      cases eng? <;> simp
    rw [hlife] at hgranted ⊢
    exact settled_initUds args childPid k.uds ops hgranted
  have hnothing : engineInit args k = (none, []) → Settles l (fdEvents (life args k ops)) := by
    intro hinit
    simp [life, hinit, fdEvents, Settles]
  by_cases hfails : (!args.workspace || !k.allocates) = true
  · exact hnothing (by rw [engineInit, if_pos hfails])
  by_cases huds : args.useUds = true
  · have hinit : engineInit args k = if args.connectExisting then
          if (args.socketPath.map cstr).getD [] = [] then (none, []) else initUds args 0 k.uds
        else if !args.command || k.fork < 0 then (none, [])
        else initUds args k.fork k.uds := by
      rw [engineInit, if_neg hfails, if_pos huds]
    split_ifs at hinit
    · exact hnothing hinit
    · exact hsocket _ hinit
    · exact hnothing hinit
    · exact hsocket _ hinit
  · refine hnothing ?_
    have hcommand : (!args.command) = true := by
      simp only [Bool.or_eq_true, Bool.not_eq_true', not_or, Bool.not_eq_false,
        Bool.not_eq_true] at hfails huds ⊢
      by_contra hgiven
      exact h ⟨hfails.1, hfails.2, huds, by simpa using hgiven⟩
    rw [engineInit, if_neg hfails, if_neg huds, if_pos hcommand]

/-- The pipes of a child that did not start are all closed. -/
theorem settled_unstarted {i o e : Nat × Nat} {l : Ledger Int}
    (hgranted : Granted l (fdEvents
      (pipeCalls i o e ++ [.close i.2, .close o.1, .close e.1]))) :
    Settles l (fdEvents (pipeCalls i o e ++ [.close i.2, .close o.1, .close e.1])) := by
  rw [fdEvents_append, fdEvents_pipeCalls] at hgranted
  obtain ⟨hapart, hdistinct⟩ := granted_pipes hgranted
  unfold Settles
  rw [fdEvents_append, Descriptors.after_append, fdEvents_pipeCalls, after_pipes hapart hdistinct]
  have hclose : ∀ (fd : Int) (back : List Int), fd ∈ [(i.1 : Int), i.2, o.1, o.2, e.1, e.2] →
      (⟨l.owned ++ fd :: back, l.strays⟩ : Ledger Int).account (.closed fd) =
        ⟨l.owned ++ back, l.strays⟩ :=
    fun fd back hfd => account_closed_between (hapart fd hfd)
  simp only [fdEvents, List.flatMap_cons, List.flatMap_nil, SysCall.fdEvents, List.append_nil,
    List.singleton_append, after_cons, after_nil]
  rw [hclose _ _ (by simp), hclose _ _ (by simp), hclose _ _ (by simp), List.append_nil]

/-- Over every life, with whatever the system answers and whatever happens to the engine
between its beginning and its end: each descriptor that is opened is closed, and none is
closed twice, unless the life gets to the pipes and then either starts the child or has a
later pipe fail. -/
theorem life_settled_iff (args : EngineArgs) (k : InitKernel) (ops : List LifeOp)
    {l : Ledger Int} (hgranted : Granted l (fdEvents (life args k ops))) :
    Settles l (fdEvents (life args k ops)) ↔ ¬ (ReachesPipes args k ∧ LeavesPipes k) := by
  by_cases hreaches : ReachesPipes args k
  swap
  · exact iff_of_true (settled_of_not_reachesPipes ops hreaches hgranted) fun h => hreaches h.1
  have hinit := engineInit_pipes hreaches
  unfold life at hgranted ⊢
  rw [hinit] at hgranted ⊢
  unfold initStdio initPipes at hgranted ⊢
  unfold LeavesPipes Settles
  match hi : k.inPipe, ho : k.outPipe, he : k.errPipe with
  | none, _, _ => simp [fdEvents]
  | some i, none, _ =>
      refine iff_of_false (fun h => ?_) fun h => h ⟨hreaches, by simp, .inl rfl⟩
      have howned := congrArg (List.length ∘ Ledger.owned) h
      simp [fdEvents, SysCall.fdEvents, Ledger.account] at howned
  | some i, some o, none =>
      refine iff_of_false (fun h => ?_) fun h => h ⟨hreaches, by simp, .inr (.inl rfl)⟩
      have howned := congrArg (List.length ∘ Ledger.owned) h
      simp [fdEvents, SysCall.fdEvents, Ledger.account] at howned
  | some i, some o, some e =>
      simp only [hi, ho, he] at hgranted ⊢
      by_cases hfork : k.fork < 0
      · rw [if_pos hfork] at hgranted ⊢
        refine iff_of_true (settled_unstarted hgranted) ?_
        rintro ⟨-, -, h | h | h⟩
        · cases h
        · cases h
        · omega
      · rw [if_neg hfork] at hgranted ⊢
        refine iff_of_false (fun h => ?_) fun h => h ⟨hreaches, by simp, .inr (.inr (by omega))⟩
        obtain ⟨hne, hafter⟩ := after_stdio_life args k.fork ops hgranted
        have hstrays := congrArg Ledger.strays (hafter.symm.trans h)
        have hnone : [(o.1 : Int), (i.2 : Int)].filter (0 < ·) = [] :=
          List.append_right_eq_self.mp hstrays
        simp only [List.filter_eq_nil_iff, List.mem_cons, List.not_mem_nil, or_false,
          forall_eq_or_imp, forall_eq, decide_eq_true_eq] at hnone
        omega

theorem piped_life_unsettled :
    Settles ⟨[0, 1, 2], []⟩ (fdEvents (life pipedArgs pipedKernel [.ready])) ↔
      ¬ (ReachesPipes pipedArgs pipedKernel ∧ LeavesPipes pipedKernel) :=
  life_settled_iff pipedArgs pipedKernel [.ready] (by decide)

end StarBridge
