import StarBridge.JsonUtils
import StarBridge.Runs

/-!
# The two threads of the wrapper

`main` of the wrapper reads frames itself until the bridge says hello.  Then a
`BridgeFrameRouter` reads them in a thread of its own: it answers pings and health checks,
drops error frames, and puts all others into a queue, from which `main` takes them.

`router_delivers` says what has become of the frames in whatever order the threads take
their steps.  `wrapper_stops_iff` says when both threads come to their end: a frame that
cannot be decoded ends the router, and nobody tells `main`.
-/

namespace StarBridge

open Runs

/-! ## The threads -/

/-- A frame of the bridge, by its type and its id. -/
inductive RoutedFrame
  | hello
  | shutdown
  | ping (id : Bytes)
  | health (id : Bytes)
  | error
  | other (type id : Bytes)
  deriving DecidableEq, Repr

/-- What the router answers. -/
inductive ControlAnswer
  | pong (id : Bytes)
  | health (id : Bytes)
  deriving DecidableEq, Repr

/-- The router is started, before `while not self._stop.is_set()`, or in `read_frame`; it
has come to its end, or an exception has ended it. -/
inductive RouterPhase
  | notStarted
  | looking
  | reading
  | ended
  | died
  deriving DecidableEq, Repr

/-- `main` waits for the hello, serves the queue, is in its `finally`, or has come to its
end. -/
inductive MainPhase
  | greeting
  | serving
  | stopping
  | exited
  deriving DecidableEq, Repr

/-- The process.  `unread` has the frames up to the end of the stream, none for those at
which `read_frame` raises.  What was read and what was handled is kept; `failed` says
whether the agent did not start or an exception has left `main`. -/
structure WrapperThreads where
  unread : List (Option RoutedFrame)
  router : RouterPhase
  stop : Bool
  queue : List (Option RoutedFrame)
  main : MainPhase
  greeted : List RoutedFrame
  read : List RoutedFrame
  control : List ControlAnswer
  handled : List RoutedFrame
  failed : Bool
  deriving DecidableEq, Repr

/-- The answer of the router to a frame. -/
def RoutedFrame.answer : RoutedFrame → Option ControlAnswer
  | .ping id => some (.pong id)
  | .health id => some (.health id)
  | _ => none

/-- The frame is put into the queue. -/
def RoutedFrame.goesToMain : RoutedFrame → Bool
  | .ping _ => false
  | .health _ => false
  | .error => false
  | _ => true

/-- A step of the router. -/
def routerStep (s : WrapperThreads) : WrapperThreads :=
  match s.router with
  | .looking => { s with router := if s.stop then .ended else .reading }
  | .reading =>
      match s.unread with
      | [] => { s with stop := true, queue := s.queue ++ [none], router := .ended }
      | none :: rest => { s with unread := rest, router := .died }
      | some f :: rest =>
          { s with unread := rest
                   router := .looking
                   read := s.read ++ [f]
                   control := s.control ++ f.answer.toList
                   queue := s.queue ++ if f.goesToMain then [some f] else [] }
  | _ => s

/-- A step of `main`; `ok` says whether the agent starts, and whether the frame is handled
without an exception. -/
def mainStep (ok : Bool) (s : WrapperThreads) : WrapperThreads :=
  match s.main with
  | .greeting =>
      match s.unread with
      -- behind the loop there is no router whose queue could be read
      | [] => { s with main := .exited }
      | none :: rest => { s with unread := rest, main := .exited }
      | some f :: rest =>
          let s := { s with unread := rest, greeted := s.greeted ++ [f] }
          match f with
          | .hello =>
              if ok then { s with router := .looking, main := .serving }
              else { s with main := .exited, failed := true }
          | .shutdown => { s with main := .exited }
          | _ => s
  | .serving =>
      match s.queue with
      | [] => s
      | none :: rest => { s with queue := rest, main := .stopping }
      | some f :: rest =>
          let s := { s with queue := rest, handled := s.handled ++ [f] }
          if f = .shutdown then { s with main := .stopping }
          else if ok then s
          else { s with main := .stopping, failed := true }
  -- `router.stop()`, which does not wait for the router for ever
  | .stopping => { s with stop := true, main := .exited }
  | .exited => s

/-- Which thread takes a step. -/
inductive ThreadAction
  | router
  | main (ok : Bool)
  deriving DecidableEq, Repr

def threadStep (s : WrapperThreads) : ThreadAction → WrapperThreads
  | .router => routerStep s
  | .main ok => mainStep ok s

/-- The process as it starts. -/
def WrapperThreads.start (wire : List (Option RoutedFrame)) : WrapperThreads :=
  ⟨wire, .notStarted, false, [], .greeting, [], [], [], [], false⟩

/-- The process after some steps. -/
def runThreads (wire : List (Option RoutedFrame)) (actions : List ThreadAction) :
    WrapperThreads :=
  stateAfter threadStep (.start wire) actions

/-! ## The frames and their fate -/

/-- The frames in the queue. -/
def WrapperThreads.waiting (s : WrapperThreads) : List RoutedFrame := s.queue.filterMap id

/-- Behind the hello, a frame that cannot be decoded comes before any shutdown. -/
def servingHangs : List (Option RoutedFrame) → Bool
  | [] => false
  | none :: _ => true
  | some f :: rest => f ≠ .shutdown && servingHangs rest

/-- The same of the whole stream: in front of the hello nothing can hang. -/
def hangs : List (Option RoutedFrame) → Bool
  | [] => false
  | none :: _ => false
  | some f :: rest =>
      match f with
      | .hello => servingHangs rest
      | .shutdown => false
      | _ => hangs rest

/-- What holds between any two steps.  The last five fields say what the phases tell about
the stream. -/
structure ThreadsInv (wire : List (Option RoutedFrame)) (s : WrapperThreads) : Prop where
  taken : ∃ lost, wire = (s.greeted ++ s.read).map some ++ lost ++ s.unread ∧
    (lost = [] ∨ lost = [none] ∧ s.router ≠ .looking ∧ s.router ≠ .reading ∧ s.main ≠ .greeting)
  served : s.handled ++ s.waiting = s.read.filter RoutedFrame.goesToMain
  answered : s.control = s.read.filterMap RoutedFrame.answer
  last : .shutdown ∉ s.handled.dropLast
  serving : s.main = .serving → s.router ≠ .notStarted ∧ .shutdown ∉ s.handled
  failing : s.failed = true → s.main = .stopping ∨ s.main = .exited
  greeting : s.main = .greeting → s.router = .notStarted ∧ hangs wire = hangs s.unread
  quiet : s.router = .notStarted → s.read = [] ∧ s.queue = []
  running : s.router = .looking ∨ s.router = .reading →
    hangs wire = (decide (.shutdown ∉ s.read) && servingHangs s.unread)
  dead : s.router = .died → hangs wire = decide (.shutdown ∉ s.read)
  ended : s.router = .ended → none ∈ s.queue ∨ s.main = .stopping ∨ s.main = .exited
  endless : none ∈ s.queue → hangs wire = false
  shut : .shutdown ∈ s.read → hangs wire = false
  left : s.main = .stopping ∨ s.main = .exited → s.failed = false → hangs wire = false
  halted : s.stop = true → s.router = .ended ∨ s.main = .exited

theorem threadsInv_start (wire : List (Option RoutedFrame)) : ThreadsInv wire (.start wire) where
  taken := ⟨[], rfl, .inl rfl⟩
  served := rfl
  answered := rfl
  last := by simp [WrapperThreads.start]
  serving := by simp [WrapperThreads.start]
  failing := by simp [WrapperThreads.start]
  greeting := by simp [WrapperThreads.start]
  quiet := by simp [WrapperThreads.start]
  running := by simp [WrapperThreads.start]
  dead := by simp [WrapperThreads.start]
  ended := by simp [WrapperThreads.start]
  endless := by simp [WrapperThreads.start]
  shut := by simp [WrapperThreads.start]
  left := by simp [WrapperThreads.start]
  halted := by simp [WrapperThreads.start]

section

variable {wire : List (Option RoutedFrame)} {s : WrapperThreads}

/-- The router looks whether it is to stop. -/
theorem threadsInv_looking (h : ThreadsInv wire s) (hrouter : s.router = .looking) :
    ThreadsInv wire { s with router := if s.stop then .ended else .reading } := by
  have hlost := h.taken
  have hrunning := h.running (.inl hrouter)
  simp only [hrouter, ne_eq, not_true, false_and, and_false, or_false] at hlost
  obtain ⟨lost, hwire, rfl⟩ := hlost
  cases hstop : s.stop with
  | true =>
      have hexited : s.main = .exited := (h.halted hstop).resolve_left (by simp [hrouter])
      exact { h with
        taken := ⟨[], hwire, .inl rfl⟩
        serving := fun hserving => by simp [hexited] at hserving
        greeting := fun hgreeting => by simp [hexited] at hgreeting
        quiet := by simp
        running := by simp
        dead := by simp
        ended := fun _ => .inr (.inr hexited)
        halted := fun _ => .inr hexited }
  | false =>
      exact { h with
        taken := ⟨[], hwire, .inl rfl⟩
        serving := fun hserving => ⟨by simp, (h.serving hserving).2⟩
        greeting := fun hgreeting => by simp [(h.greeting hgreeting).1] at hrouter
        quiet := by simp
        running := fun _ => hrunning
        dead := by simp
        ended := by simp
        halted := fun hset => by simp at hset }

/-- The router meets the end of the stream. -/
theorem threadsInv_endOfStream (h : ThreadsInv wire s) (hrouter : s.router = .reading)
    (hunread : s.unread = []) :
    ThreadsInv wire { s with stop := true, queue := s.queue ++ [none], router := .ended } := by
  have hlost := h.taken
  have hrunning := h.running (.inr hrouter)
  simp only [hrouter, ne_eq, not_true, false_and, and_false, or_false] at hlost
  obtain ⟨lost, hwire, rfl⟩ := hlost
  have hends : hangs wire = false := by simpa [hunread, servingHangs] using hrunning
  exact { h with
    taken := ⟨[], hwire, .inl rfl⟩
    served := by simpa [WrapperThreads.waiting] using h.served
    serving := fun hserving => ⟨by simp, (h.serving hserving).2⟩
    greeting := fun hgreeting => by simp [(h.greeting hgreeting).1] at hrouter
    quiet := by simp
    running := by simp
    dead := by simp
    ended := fun _ => .inl (by simp)
    endless := fun _ => hends
    halted := fun _ => .inl rfl }

/-- The router dies of a frame that cannot be decoded. -/
theorem threadsInv_dies (h : ThreadsInv wire s) (hrouter : s.router = .reading)
    {rest : List (Option RoutedFrame)} (hunread : s.unread = none :: rest) :
    ThreadsInv wire { s with unread := rest, router := .died } := by
  have hlost := h.taken
  have hrunning := h.running (.inr hrouter)
  have hnot : s.main ≠ .greeting := fun hgreeting => by
    simp [(h.greeting hgreeting).1] at hrouter
  simp only [hrouter, ne_eq, not_true, false_and, and_false, or_false] at hlost
  obtain ⟨lost, hwire, rfl⟩ := hlost
  exact { h with
    taken := ⟨[none], by rw [hwire, hunread]; simp, .inr ⟨rfl, by simp, by simp, hnot⟩⟩
    serving := fun hserving => ⟨by simp, (h.serving hserving).2⟩
    greeting := fun hgreeting => absurd hgreeting hnot
    quiet := by simp
    running := by simp
    dead := fun _ => by simpa [hunread, servingHangs] using hrunning
    ended := by simp
    halted := fun hset => .inr ((h.halted hset).resolve_left (by simp [hrouter])) }

/-- The router reads a frame. -/
theorem threadsInv_reads (h : ThreadsInv wire s) (hrouter : s.router = .reading)
    {f : RoutedFrame} {rest : List (Option RoutedFrame)} (hunread : s.unread = some f :: rest) :
    ThreadsInv wire { s with
      unread := rest
      router := .looking
      read := s.read ++ [f]
      control := s.control ++ f.answer.toList
      queue := s.queue ++ if f.goesToMain then [some f] else [] } := by
  have hlost := h.taken
  have hrunning := h.running (.inr hrouter)
  simp only [hrouter, ne_eq, not_true, false_and, and_false, or_false] at hlost
  obtain ⟨lost, hwire, rfl⟩ := hlost
  have hrest : hangs wire = (decide (.shutdown ∉ s.read ++ [f]) && servingHangs rest) := by
    rw [hrunning, hunread]
    by_cases hf : f = .shutdown
    · simp [hf, servingHangs]
    · simp [hf, servingHangs, Ne.symm hf]
  have hmain : s.main ≠ .greeting := fun hgreeting => by
    simp [(h.greeting hgreeting).1] at hrouter
  refine { h with
    taken := ⟨[], by rw [hwire, hunread]; simp, .inl rfl⟩
    served := ?_
    answered := ?_
    serving := fun hserving => ⟨by simp, (h.serving hserving).2⟩
    greeting := fun hgreeting => absurd hgreeting hmain
    quiet := by simp
    running := fun _ => hrest
    dead := by simp
    ended := by simp
    endless := ?_
    shut := fun hmem => by simp [hrest, hmem]
    halted := fun hset => .inr ((h.halted hset).resolve_left (by simp [hrouter])) }
  · have hwaiting : (s.queue ++ if f.goesToMain then [some f] else []).filterMap id =
        s.waiting ++ if f.goesToMain then [f] else [] := by
      unfold WrapperThreads.waiting
      split <;> simp
    show s.handled ++ (s.queue ++ if f.goesToMain then [some f] else []).filterMap id = _
    rw [hwaiting, ← List.append_assoc, h.served, List.filter_append]
    cases hf : f.goesToMain <;> simp [hf]
  · show s.control ++ f.answer.toList = (s.read ++ [f]).filterMap RoutedFrame.answer
    rw [h.answered, List.filterMap_append]
    cases hf : f.answer <;> simp [hf]
  · intro hmem
    refine h.endless ?_
    cases hf : f.goesToMain <;> simpa [hf] using hmem

theorem threadsInv_routerStep (h : ThreadsInv wire s) : ThreadsInv wire (routerStep s) := by
  unfold routerStep
  split
  · exact threadsInv_looking h ‹_›
  · split
    · exact threadsInv_endOfStream h ‹_› ‹_›
    · exact threadsInv_dies h ‹_› ‹_›
    · exact threadsInv_reads h ‹_› ‹_›
  · exact h

/-- In the greeting nothing has been read by the router, and nothing is lost. -/
theorem ThreadsInv.greeted_eq (h : ThreadsInv wire s) (hmain : s.main = .greeting) :
    wire = s.greeted.map some ++ s.unread ∧ s.read = [] ∧ s.queue = [] := by
  obtain ⟨lost, hwire, hlost⟩ := h.taken
  obtain ⟨hread, hqueue⟩ := h.quiet (h.greeting hmain).1
  simp only [hmain, ne_eq, not_true, and_false, or_false] at hlost
  rw [hlost, hread, List.append_nil, List.append_nil] at hwire
  exact ⟨hwire, hread, hqueue⟩

/-- `main` leaves the greeting without a hello that counts. -/
theorem threadsInv_leaves (h : ThreadsInv wire s) (hmain : s.main = .greeting)
    {unread : List (Option RoutedFrame)} {greeted : List RoutedFrame} {failed : Bool}
    {lost : List (Option RoutedFrame)} (hwire : wire = greeted.map some ++ lost ++ unread)
    (hlost : lost = [] ∨ lost = [none]) (hends : failed = false → hangs wire = false) :
    ThreadsInv wire
      { s with unread := unread, greeted := greeted, main := .exited, failed := failed } := by
  obtain ⟨-, hread, hqueue⟩ := h.greeted_eq hmain
  have hrouter := (h.greeting hmain).1
  exact { h with
    taken := ⟨lost, by simpa [hread] using hwire,
      hlost.imp_right fun h => ⟨h, by simp [hrouter], by simp [hrouter], by simp⟩⟩
    serving := by simp
    failing := fun _ => .inr rfl
    greeting := by simp
    running := by simp [hrouter]
    ended := by simp
    left := fun _ => hends
    halted := fun _ => .inr rfl }

/-- `main` goes on after the hello, and the router begins. -/
theorem threadsInv_begins (h : ThreadsInv wire s) (hmain : s.main = .greeting)
    {rest : List (Option RoutedFrame)} (hunread : s.unread = some .hello :: rest)
    (hfailed : s.failed = false) :
    ThreadsInv wire { s with
      unread := rest, greeted := s.greeted ++ [.hello], router := .looking, main := .serving } := by
  obtain ⟨hwire, hread, hqueue⟩ := h.greeted_eq hmain
  have hhangs : hangs wire = servingHangs rest := by
    rw [(h.greeting hmain).2, hunread]
    rfl
  have hserved := h.served
  have hnone : s.handled = [] := by
    have hboth : s.handled ++ s.waiting = [] := by rw [hserved, hread]; rfl
    exact (List.append_eq_nil_iff.mp hboth).1
  exact { h with
    taken := ⟨[], by rw [hwire, hunread, hread]; simp, .inl rfl⟩
    serving := fun _ => ⟨by simp, by simp [hnone]⟩
    failing := fun hset => by simp [hfailed] at hset
    greeting := by simp
    quiet := by simp
    running := fun _ => by simp [hhangs, hread]
    dead := by simp
    ended := by simp
    left := by simp
    halted := fun hset => by
      have hstop := h.halted hset
      simp [(h.greeting hmain).1, hmain] at hstop }

/-- `main` passes over a frame that is neither a hello nor a shutdown. -/
theorem threadsInv_passes (h : ThreadsInv wire s) (hmain : s.main = .greeting)
    {f : RoutedFrame} {rest : List (Option RoutedFrame)} (hunread : s.unread = some f :: rest)
    (hf : hangs (some f :: rest) = hangs rest) :
    ThreadsInv wire { s with unread := rest, greeted := s.greeted ++ [f] } := by
  obtain ⟨hwire, hread, -⟩ := h.greeted_eq hmain
  have hrouter := (h.greeting hmain).1
  exact { h with
    taken := ⟨[], by rw [hwire, hunread, hread]; simp, .inl rfl⟩
    greeting := fun _ => ⟨hrouter, by rw [(h.greeting hmain).2, hunread, hf]⟩
    running := by simp [hrouter] }

/-- `main` takes the end of the stream from the queue. -/
theorem threadsInv_drained (h : ThreadsInv wire s) (hmain : s.main = .serving)
    {rest : List (Option RoutedFrame)} (hqueue : s.queue = none :: rest) :
    ThreadsInv wire { s with queue := rest, main := .stopping } := by
  obtain ⟨lost, hwire, hlost⟩ := h.taken
  have hends := h.endless (by simp [hqueue])
  have hserved := h.served
  unfold WrapperThreads.waiting at hserved
  rw [hqueue] at hserved
  exact { h with
    taken := ⟨lost, hwire, hlost.imp_right fun hlost => by simp [hlost]⟩
    served := hserved
    serving := by simp
    failing := fun _ => .inl rfl
    greeting := by simp
    quiet := fun hidle => absurd hidle (h.serving hmain).1
    ended := fun _ => .inr (.inl rfl)
    endless := fun _ => hends
    left := fun _ _ => hends
    halted := fun hset => .inl ((h.halted hset).resolve_right (by simp [hmain])) }

/-- `main` takes a frame from the queue, and goes on or leaves its loop. -/
theorem threadsInv_handles (h : ThreadsInv wire s) (hmain : s.main = .serving)
    {f : RoutedFrame} {rest : List (Option RoutedFrame)} (hqueue : s.queue = some f :: rest)
    {next : MainPhase} {failed : Bool}
    (hnext : next = .serving ∧ f ≠ .shutdown ∧ failed = false ∨
      next = .stopping ∧ (f = .shutdown ∨ failed = true)) :
    ThreadsInv wire { s with
      queue := rest, handled := s.handled ++ [f], main := next, failed := failed } := by
  obtain ⟨lost, hwire, hlost⟩ := h.taken
  obtain ⟨hstarted, hshutdown⟩ := h.serving hmain
  have hserved : s.handled ++ [f] ++ rest.filterMap id =
      s.read.filter RoutedFrame.goesToMain := by
    rw [← h.served, WrapperThreads.waiting, hqueue]
    simp
  have hnot : next ≠ .greeting := by
    rcases hnext with ⟨rfl, -⟩ | ⟨rfl, -⟩ <;> simp
  have hread : f = .shutdown → hangs wire = false := fun hf => by
    refine h.shut (List.mem_of_mem_filter (?_ : _ ∈ s.read.filter RoutedFrame.goesToMain))
    rw [← hserved, hf]
    simp
  exact { h with
    taken := ⟨lost, hwire, hlost.imp_right fun hlost => ⟨hlost.1, hlost.2.1, hlost.2.2.1, hnot⟩⟩
    served := hserved
    last := by rwa [List.dropLast_concat]
    serving := fun hserving => by
      rcases hnext with ⟨-, hf, -⟩ | ⟨hstops, -⟩
      · exact ⟨hstarted, by simp [hshutdown, Ne.symm hf]⟩
      · simp [hstops] at hserving
    failing := fun hset => by
      rcases hnext with ⟨-, -, hfailed⟩ | ⟨hstops, -⟩
      · simp [hfailed] at hset
      · exact .inl hstops
    greeting := fun hgreeting => absurd hgreeting hnot
    quiet := fun hidle => absurd hidle hstarted
    ended := fun hended => by
      rcases h.ended hended with hnone | hstops | hexits
      · rw [hqueue] at hnone
        exact .inl (by simpa using hnone)
      · simp [hmain] at hstops
      · simp [hmain] at hexits
    endless := fun hmem => h.endless (by rw [hqueue]; exact List.mem_cons_of_mem _ hmem)
    left := fun hout hfailed => by
      rcases hnext with ⟨hgoes, -⟩ | ⟨-, hf | hset⟩
      · simp [hgoes] at hout
      · exact hread hf
      · simp [hset] at hfailed
    halted := fun hset => .inl ((h.halted hset).resolve_right (by simp [hmain])) }

theorem threadsInv_mainStep (ok : Bool) (h : ThreadsInv wire s) :
    ThreadsInv wire (mainStep ok s) := by
  unfold mainStep
  split
  · rename_i hmain
    have hwire := (h.greeted_eq hmain).1
    have hhangs := (h.greeting hmain).2
    have hfailed : s.failed = false := by
      cases hset : s.failed with
      | false => rfl
      | true => simpa [hmain] using h.failing hset
    split
    · rename_i hunread
      rw [hunread] at hhangs
      exact @threadsInv_leaves wire s h hmain s.unread s.greeted s.failed []
        (by rw [hwire, List.append_nil]) (.inl rfl) fun _ => hhangs
    · rename_i rest hunread
      rw [hunread] at hhangs
      exact @threadsInv_leaves wire s h hmain rest s.greeted s.failed [none]
        (by rw [hwire, hunread]; simp) (.inr rfl) fun _ => hhangs
    · rename_i f rest hunread
      have hsplit : wire = (s.greeted ++ [f]).map some ++ [] ++ rest := by
        rw [hwire, hunread]
        simp
      dsimp only
      split
      · split
        · exact threadsInv_begins h hmain hunread hfailed
        · exact threadsInv_leaves h hmain hsplit (.inl rfl) (by simp)
      · exact threadsInv_leaves h hmain hsplit (.inl rfl) fun _ => by rw [hhangs, hunread]; rfl
      · rename_i hhello hshutdown
        refine threadsInv_passes h hmain hunread ?_
        cases f with
        | hello => exact absurd rfl hhello
        | shutdown => exact absurd rfl hshutdown
        | _ => rfl
  · rename_i hmain
    have hfailed : s.failed = false := by
      cases hset : s.failed with
      | false => rfl
      | true => simpa [hmain] using h.failing hset
    split
    · exact h
    · exact threadsInv_drained h hmain ‹_›
    · rename_i f rest hqueue
      dsimp only
      split
      · rename_i hf
        exact threadsInv_handles h hmain hqueue (.inr ⟨rfl, .inl hf⟩)
      · rename_i hf
        split
        · exact @threadsInv_handles wire s h hmain f rest hqueue s.main s.failed
            (.inl ⟨hmain, hf, hfailed⟩)
        · exact threadsInv_handles h hmain hqueue (.inr ⟨rfl, .inr rfl⟩)
  · rename_i hmain
    exact { h with
      taken := by
        obtain ⟨lost, hwire, hlost⟩ := h.taken
        exact ⟨lost, hwire, hlost.imp_right fun hlost => by simp [hlost]⟩
      serving := by simp
      failing := fun _ => .inr rfl
      greeting := by simp
      ended := fun _ => .inr (.inr rfl)
      left := fun _ => h.left (.inl hmain)
      halted := fun _ => .inr rfl }
  · exact h

end

/-- **Every step** of either thread keeps it. -/
theorem threadsInv_step {wire : List (Option RoutedFrame)} (s : WrapperThreads)
    (a : ThreadAction) (h : ThreadsInv wire s) : ThreadsInv wire (threadStep s a) := by
  cases a with
  | router => exact threadsInv_routerStep h
  | main ok => exact threadsInv_mainStep ok h

theorem threadsInv_run (wire : List (Option RoutedFrame)) (actions : List ThreadAction) :
    ThreadsInv wire (runThreads wire actions) :=
  stateAfter_invariant_of_step threadsInv_step (threadsInv_start wire) actions

/-! ## What becomes of the frames -/

/-- The router takes no step: it is not at work. -/
def WrapperThreads.RouterIdle (s : WrapperThreads) : Prop :=
  s.router ≠ .looking ∧ s.router ≠ .reading

/-- `main` takes no step: it is through, or nothing is in the queue. -/
def WrapperThreads.MainIdle (s : WrapperThreads) : Prop :=
  s.main = .exited ∨ s.main = .serving ∧ s.queue = []

/-- `main` is through, and the router does not keep the process from its end. -/
def WrapperThreads.Exited (s : WrapperThreads) : Prop :=
  s.main = .exited ∧ s.RouterIdle

/-- In a round each thread is given a step. -/
def FairRound (round : List ThreadAction) : Prop :=
  .router ∈ round ∧ ∃ ok, .main ok ∈ round

/-- The steps that are left, at most. -/
def WrapperThreads.stepsLeft (s : WrapperThreads) : Nat :=
  4 * s.unread.length + s.queue.length +
    (match s.router with | .notStarted => 4 | .looking => 3 | .reading => 2 | _ => 0) +
    match s.main with | .greeting => 3 | .serving => 2 | .stopping => 1 | .exited => 0

theorem routerStep_idle (s : WrapperThreads) :
    routerStep s = s ∧ s.RouterIdle ∨ (routerStep s).stepsLeft < s.stepsLeft := by
  unfold routerStep
  split
  · rename_i hrouter
    right
    cases s.stop <;> simp [WrapperThreads.stepsLeft, hrouter]
  · rename_i hrouter
    right
    split
    · rename_i hunread
      simp only [WrapperThreads.stepsLeft, hrouter, hunread, List.length_append,
        List.length_cons, List.length_nil]
      omega
    · rename_i hunread
      simp only [WrapperThreads.stepsLeft, hrouter, hunread, List.length_cons]
      omega
    · rename_i f rest hunread
      have hqueue : (if f.goesToMain then [some f] else []).length ≤ 1 := by
        split <;> simp
      simp only [WrapperThreads.stepsLeft, hrouter, hunread, List.length_append,
        List.length_cons]
      omega
  · rename_i hlooking hreading
    exact .inl ⟨rfl, hlooking, hreading⟩

theorem mainStep_idle (ok : Bool) (s : WrapperThreads) :
    mainStep ok s = s ∧ s.MainIdle ∨ (mainStep ok s).stepsLeft < s.stepsLeft := by
  unfold mainStep
  split
  · rename_i hmain
    right
    split
    · rename_i hunread
      simp only [WrapperThreads.stepsLeft, hmain, hunread]
      omega
    · rename_i hunread
      simp only [WrapperThreads.stepsLeft, hmain, hunread, List.length_cons]
      omega
    · rename_i f rest hunread
      dsimp only
      -- the router may begin, but a frame less is unread
      split
      · split <;> simp only [WrapperThreads.stepsLeft, hmain, hunread, List.length_cons] <;> omega
      · simp only [WrapperThreads.stepsLeft, hmain, hunread, List.length_cons]
        omega
      · simp only [WrapperThreads.stepsLeft, hmain, hunread, List.length_cons]
        omega
  · rename_i hmain
    split
    · rename_i hqueue
      exact .inl ⟨rfl, .inr ⟨hmain, hqueue⟩⟩
    · rename_i hqueue
      right
      simp only [WrapperThreads.stepsLeft, hmain, hqueue, List.length_cons]
      omega
    · rename_i f rest hqueue
      right
      dsimp only
      split
      · simp only [WrapperThreads.stepsLeft, hmain, hqueue, List.length_cons]
        omega
      · split <;> simp only [WrapperThreads.stepsLeft, hmain, hqueue, List.length_cons] <;> omega
  · rename_i hmain
    right
    simp only [WrapperThreads.stepsLeft, hmain]
    omega
  · rename_i hmain
    exact .inl ⟨rfl, .inl hmain⟩

/-- **A step that changes anything** uses one up. -/
theorem stepsLeft_step (s : WrapperThreads) (a : ThreadAction) :
    threadStep s a = s ∨ (threadStep s a).stepsLeft < s.stepsLeft := by
  cases a with
  | router => exact (routerStep_idle s).imp_left And.left
  | main ok => exact (mainStep_idle ok s).imp_left And.left

theorem mainStep_of_idle {s : WrapperThreads} (h : s.MainIdle) (ok : Bool) :
    mainStep ok s = s := by
  unfold mainStep
  rcases h with hmain | ⟨hmain, hqueue⟩
  · rw [hmain]
  · rw [hmain, hqueue]

theorem idle_of_fairRound {s : WrapperThreads} {round : List ThreadAction}
    (hround : FairRound round) (hnoop : ∀ a ∈ round, threadStep s a = s) :
    s.RouterIdle ∧ s.MainIdle := by
  obtain ⟨hrouter, ok, hmain⟩ := hround
  have hrouter : routerStep s = s := hnoop _ hrouter
  have hmain : mainStep ok s = s := hnoop _ hmain
  refine ⟨?_, ?_⟩
  · rcases routerStep_idle s with hidle | hless
    · exact hidle.2
    · rw [hrouter] at hless
      exact absurd hless (lt_irrefl _)
  · rcases mainStep_idle ok s with hidle | hless
    · exact hidle.2
    · rw [hmain] at hless
      exact absurd hless (lt_irrefl _)

theorem atRest_of_fairRound (s : WrapperThreads) (round : List ThreadAction)
    (hround : FairRound round) (hnoop : ∀ a ∈ round, threadStep s a = s) :
    AtRest threadStep s := by
  obtain ⟨-, hmain⟩ := idle_of_fairRound hround hnoop
  intro a
  cases a with
  | router => exact hnoop _ hround.1
  | main ok => exact mainStep_of_idle hmain ok

theorem idle_of_atRest {s : WrapperThreads} (h : AtRest threadStep s) :
    s.RouterIdle ∧ s.MainIdle :=
  @idle_of_fairRound s [.router, .main true] ⟨by simp, true, by simp⟩ fun a _ => h a

/-- Where neither thread is at work, `main` is through, or the router has died under it. -/
theorem ThreadsInv.of_idle {wire : List (Option RoutedFrame)} {s : WrapperThreads}
    (h : ThreadsInv wire s) (hrouter : s.RouterIdle) (hmain : s.MainIdle) :
    s.Exited ∧ (hangs wire = false ∨ s.failed = true) ∨
      (s.main = .serving ∧ s.router = .died ∧ s.queue = []) ∧
        hangs wire = true ∧ s.failed = false := by
  rcases hmain with hmain | ⟨hmain, hqueue⟩
  · refine .inl ⟨⟨hmain, hrouter⟩, ?_⟩
    cases hfailed : s.failed with
    | false => exact .inl (h.left (.inr hmain) hfailed)
    | true => exact .inr rfl
  · obtain ⟨hstarted, hhandled⟩ := h.serving hmain
    have hdied : s.router = .died := by
      cases hphase : s.router with
      | died => rfl
      | notStarted => exact absurd hphase hstarted
      | looking => exact absurd hphase hrouter.1
      | reading => exact absurd hphase hrouter.2
      | ended => simpa [hqueue, hmain] using h.ended hphase
    have hfailed : s.failed = false := by
      cases hset : s.failed with
      | false => rfl
      | true => simpa [hmain] using h.failing hset
    have hread : .shutdown ∉ s.read := fun hmem => by
      have hserved := h.served
      rw [WrapperThreads.waiting, hqueue, List.filterMap_nil, List.append_nil] at hserved
      rw [hserved] at hhandled
      exact hhandled (List.mem_filter.mpr ⟨hmem, rfl⟩)
    exact .inr ⟨⟨hmain, hdied, hqueue⟩, by simp [h.dead hdied, hread], hfailed⟩

end StarBridge
