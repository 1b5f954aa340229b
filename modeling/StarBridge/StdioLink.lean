import StarBridge.Runs
import StarBridge.StdioReader

/-!
# A stdio agent and its bridge, side by side

The agent prints into a pipe, the reader thread takes bytes out of it and puts lines
into the text ring, and the server writes an input, waits, and takes what the ring
holds.  A step of any of them may come at any time; each byte is stamped with the
number of inputs that were written when it was printed.

Bytes keep their order on the way, so an answer has a byte that is older than its
input iff the oldest byte in the ring is (`answers_fresh_iff`).  It never is where
nothing is on the way when an input is written (`answers_fresh_of_settled`).
-/

namespace StarBridge

open RingBuffer Runs

/-! ## The system -/

/-- A byte, and how many inputs were written before it. -/
abbrev Stamped := UInt8 × Nat

/-- Stamped bytes; a line feed that the reader writes has the stamp of the byte it
stands for. -/
def stampedBytes : Alphabet Stamped := ⟨Prod.fst, fun a => (10, a.2), fun _ => rfl⟩

/-- What is on the way between the agent and an answer. -/
structure StdioLink where
  /-- How many inputs were written, and whether the last one is still unanswered. -/
  asked : Nat
  answering : Bool
  /-- The agent has closed its end. -/
  closed : Bool
  pipe : List Stamped
  /-- `read_buf`, `line` and what is still to be pushed. -/
  readBuf : List Stamped
  line : List Stamped
  due : List (List Stamped)
  ring : Ring Stamped bridgeBufferSize

/-- A step of the agent (`print`, `close`), of the reader (`fetch`, `scan`, `push`,
`finish`) or of the server (`ask`, `take`). -/
inductive StdioLinkEvent
  | print (c : UInt8)
  | close
  | fetch (n : Nat)
  | scan
  | push
  | finish
  | ask
  | take
  deriving DecidableEq, Repr

/-- `read_buf` of `fd_reader_loop`. -/
def readBufSize : Nat := 1024

/-- One step, given the size of an answer's content buffer.  A step whose time has
not come does nothing. -/
def stdioLinkStep (maxLen : Nat) (s : StdioLink) : StdioLinkEvent → StdioLink
  | .print c => if s.closed then s else { s with pipe := s.pipe ++ [(c, s.asked)] }
  | .close => { s with closed := true }
  | .fetch n =>
      if s.readBuf = [] ∧ s.due = [] then
        { s with readBuf := s.pipe.take (min n readBufSize),
                 pipe := s.pipe.drop (min n readBufSize) }
      else s
  | .scan =>
      if s.due = [] then
        match s.readBuf with
        | [] => s
        | c :: rest =>
            { s with readBuf := rest,
                     line := (stampedBytes.scan s.line c).1,
                     due := (stampedBytes.scan s.line c).2 }
      else s
  | .push =>
      match s.due with
      | [] => s
      | text :: rest => { s with due := rest, ring := stampedBytes.enginePushText s.ring text }
  | .finish =>
      if s.closed ∧ s.pipe = [] ∧ s.readBuf = [] ∧ s.due = [] then
        { s with line := [], due := stampedBytes.flush s.line }
      else s
  | .ask => if s.answering then s else { s with asked := s.asked + 1, answering := true }
  | .take =>
      if s.answering then { s with answering := false, ring := (s.ring.read maxLen).2 } else s

/-- The answer that a step takes: its request and its text. -/
def takenAnswer (maxLen : Nat) (s : StdioLink) : StdioLinkEvent → List (Nat × List Stamped)
  | .take => if s.answering then [(s.asked, (s.ring.read maxLen).1)] else []
  | _ => []

/-- The answers of a run. -/
def takenAnswers (maxLen : Nat) (s : StdioLink) (events : List StdioLinkEvent) :
    List (Nat × List Stamped) :=
  outputs (stdioLinkStep maxLen) (takenAnswer maxLen) s events

/-- An answer has nothing that was printed before its input was written. -/
def FreshAnswer (answer : Nat × List Stamped) : Prop := ∀ a ∈ answer.2, answer.1 ≤ a.2

/-- The link as the bridge starts it. -/
def StdioLink.start : StdioLink :=
  ⟨0, false, false, [], [], [], [], Ring.empty (0, 0) bridgeBufferSize_pos⟩

/-! ## The order of the bytes -/

/-- Everything on the way, in the order in which it arrives. -/
def StdioLink.onWay (s : StdioLink) : List Stamped :=
  s.ring.held ++ (s.due.flatten ++ (s.line ++ (s.readBuf ++ s.pipe)))

/-- The stamps on the way, and the number of inputs behind them. -/
def StdioLink.stamps (s : StdioLink) : List Nat := s.onWay.map Prod.snd ++ [s.asked]

/-- Bytes are on the way in the order in which they were printed. -/
def StdioLink.Ordered (s : StdioLink) : Prop := s.stamps.Pairwise (· ≤ ·)

theorem held_push_sublist (ring : Ring Stamped bridgeBufferSize) (text : List Stamped) :
    (stampedBytes.enginePushText ring text).held.Sublist (ring.held ++ text) := by
  rw [Alphabet.enginePushText, Ring.held_append]
  refine (List.drop_sublist _ _).trans ?_
  exact (List.Sublist.refl _).append (List.takeWhile_sublist _)

/-- A stamp may come twice. -/
theorem pairwise_again {front back : List Nat} {t : Nat}
    (h : (front ++ t :: back).Pairwise (· ≤ ·)) : (front ++ t :: t :: back).Pairwise (· ≤ ·) := by
  rw [List.pairwise_append] at h ⊢
  obtain ⟨hfront, hback, hle⟩ := h
  refine ⟨hfront, List.pairwise_cons.mpr ⟨?_, hback⟩, ?_⟩
  · intro u hu
    rcases List.mem_cons.mp hu with rfl | hu
    · exact le_rfl
    · exact (List.pairwise_cons.mp hback).1 u hu
  · intro u hu v hv
    rcases List.mem_cons.mp hv with rfl | hv
    · exact hle u hu v List.mem_cons_self
    · exact hle u hu v hv

/-- The last stamp may grow. -/
theorem pairwise_later {front : List Nat} {t : Nat} (h : (front ++ [t]).Pairwise (· ≤ ·)) :
    (front ++ [t + 1]).Pairwise (· ≤ ·) := by
  rw [List.pairwise_append] at h ⊢
  obtain ⟨hfront, -, hle⟩ := h
  refine ⟨hfront, List.pairwise_singleton _ _, ?_⟩
  intro u hu v hv
  rw [List.mem_singleton.mp hv]
  exact (hle u hu t List.mem_cons_self).trans (Nat.le_succ t)

/-- What the reader makes of a byte has the stamps of what it had. -/
theorem stamps_scan (line : List Stamped) (c : Stamped) :
    List.Sublist
      (((stampedBytes.scan line c).2.flatten ++ (stampedBytes.scan line c).1).map Prod.snd)
      (line.map Prod.snd ++ [c.2]) := by
  unfold Alphabet.scan
  split
  · simp [stampedBytes]
  · split
    · simp
    · simp

/-- Stamps that were lost, or one that came again. -/
def Thinned (stamps stamps' : List Nat) : Prop :=
  stamps'.Sublist stamps ∨
    ∃ front t back, stamps = front ++ t :: back ∧ stamps' = front ++ t :: t :: back

/-- **What a step does to the stamps**, unless an input is written. -/
theorem stamps_step (maxLen : Nat) (s : StdioLink) {e : StdioLinkEvent} (he : e ≠ .ask) :
    Thinned s.stamps (stdioLinkStep maxLen s e).stamps := by
  have hsame : Thinned s.stamps s.stamps := Or.inl (List.Sublist.refl _)
  cases e with
  | ask => exact absurd rfl he
  | close => exact hsame
  | print c =>
      simp only [stdioLinkStep]
      split
      · exact hsame
      · refine Or.inr ⟨s.onWay.map Prod.snd, s.asked, [], rfl, ?_⟩
        simp [StdioLink.stamps, StdioLink.onWay]
  | fetch n =>
      simp only [stdioLinkStep]
      split
      · rename_i hidle
        refine Or.inl (List.Sublist.append (List.Sublist.map _ ?_) (List.Sublist.refl _))
        simp only [StdioLink.onWay, hidle.1, List.nil_append, List.take_append_drop]
        exact List.Sublist.refl _
      · exact hsame
  | scan =>
      simp only [stdioLinkStep]
      split
      · rename_i hdue
        split
        · exact hsame
        · rename_i c rest hbuf
          refine Or.inl (List.Sublist.append ?_ (List.Sublist.refl _))
          have hscan := stamps_scan s.line c
          simp only [StdioLink.onWay, hdue, hbuf, List.map_append, List.flatten_nil,
            List.nil_append, List.map_cons] at hscan ⊢
          refine (List.Sublist.refl _).append ?_
          have hrest := hscan.append (List.Sublist.refl (rest.map Prod.snd ++ s.pipe.map Prod.snd))
          simpa only [List.append_assoc, List.nil_append, List.cons_append] using hrest
      · exact hsame
  | push =>
      simp only [stdioLinkStep]
      split
      · exact hsame
      · rename_i text rest hdue
        refine Or.inl (List.Sublist.append (List.Sublist.map _ ?_) (List.Sublist.refl _))
        have hring := held_push_sublist s.ring text
        simp only [StdioLink.onWay, hdue, List.flatten_cons, List.append_assoc]
        rw [← List.append_assoc s.ring.held]
        exact hring.append (List.Sublist.refl _)
  | finish =>
      simp only [stdioLinkStep]
      split
      · rename_i hidle
        obtain ⟨-, hpipe, hbuf, hdue⟩ := hidle
        cases hlast : s.line.getLast? with
        | none =>
            have hflush : stampedBytes.flush s.line = [] := by rw [Alphabet.flush, hlast]
            have hline := List.getLast?_eq_none_iff.mp hlast
            rw [hflush]
            simpa [StdioLink.stamps, StdioLink.onWay, hpipe, hbuf, hdue, hline] using hsame
        | some c =>
            obtain ⟨front, hline⟩ := List.getLast?_eq_some_iff.mp hlast
            have hflush : stampedBytes.flush s.line = [s.line, [(10, c.2)]] := by
              rw [Alphabet.flush, hlast]
              rfl
            refine Or.inr ⟨s.ring.held.map Prod.snd ++ front.map Prod.snd, c.2, [s.asked], ?_, ?_⟩
            · simp [StdioLink.stamps, StdioLink.onWay, hpipe, hbuf, hdue, hline]
            · rw [hflush]
              simp [StdioLink.stamps, StdioLink.onWay, hpipe, hbuf, hline]
      · exact hsame
  | take =>
      simp only [stdioLinkStep]
      split
      · refine Or.inl (List.Sublist.append (List.Sublist.map _ ?_) (List.Sublist.refl _))
        refine List.Sublist.append ?_ (List.Sublist.refl _)
        rw [(Ring.held_read _ _).2]
        exact List.drop_sublist _ _
      · exact hsame

/-- **One step** keeps the bytes in order. -/
theorem StdioLink.Ordered.step {s : StdioLink} (h : s.Ordered) (maxLen : Nat) (e : StdioLinkEvent) :
    (stdioLinkStep maxLen s e).Ordered := by
  by_cases he : e = .ask
  · subst he
    simp only [stdioLinkStep]
    split
    · exact h
    · exact pairwise_later h
  · rcases stamps_step maxLen s he with hlost | ⟨front, t, back, hstamps, hstamps'⟩
    · exact List.Pairwise.sublist hlost h
    · rw [StdioLink.Ordered, hstamps] at h
      rw [StdioLink.Ordered, hstamps']
      exact pairwise_again h

/-! ## Fresh answers -/

/-- The step takes an answer, and the oldest byte in the ring was printed before the
input was written. -/
def TakesOld (maxLen : Nat) (s : StdioLink) (e : StdioLinkEvent) : Prop :=
  e = .take ∧ s.answering = true ∧ 1 < maxLen ∧ ∃ a ∈ s.ring.held.head?, a.2 < s.asked

/-- **One answer** is fresh iff the oldest byte in the ring is. -/
theorem takenAnswer_fresh_iff {s : StdioLink} (h : s.Ordered) (maxLen : Nat) (e : StdioLinkEvent) :
    (∀ answer ∈ takenAnswer maxLen s e, FreshAnswer answer) ↔ ¬ TakesOld maxLen s e := by
  by_cases htake : e = .take ∧ s.answering = true
  · obtain ⟨rfl, hanswering⟩ := htake
    have hout : takenAnswer maxLen s .take = [(s.asked, s.ring.held.take (maxLen - 1))] := by
      rw [← (Ring.held_read _ _).1]
      exact if_pos hanswering
    have hring : (s.ring.held.map Prod.snd).Pairwise (· ≤ ·) := by
      refine List.Pairwise.sublist (List.Sublist.map _ ?_)
        (List.Pairwise.sublist (List.sublist_append_left _ _) h)
      exact List.sublist_append_left _ _
    rw [hout, List.forall_mem_singleton]
    unfold FreshAnswer TakesOld
    cases hheld : s.ring.held with
    | nil => simp
    | cons a rest =>
        rw [hheld, List.map_cons, List.pairwise_cons] at hring
        have hfirst : ∀ b ∈ a :: rest, a.2 ≤ b.2 := by
          intro b hb
          rcases List.mem_cons.mp hb with rfl | hb
          · exact le_rfl
          · exact hring.1 b.2 (List.mem_map_of_mem hb)
        rw [List.head?_cons]
        constructor
        · rintro hall ⟨-, -, hroom, _, ⟨rfl⟩, hold⟩
          have hmem : a ∈ (a :: rest).take (maxLen - 1) := by
            rw [List.take_cons (by omega)]
            exact List.mem_cons_self
          exact absurd (hall a hmem) (by omega)
        · intro hnot b hb
          by_contra hold
          have hroom : 1 < maxLen := by
            by_contra hnone
            rw [Nat.sub_eq_zero_of_le (by omega), List.take_zero] at hb
            cases hb
          have hle := hfirst b (List.mem_of_mem_take hb)
          exact hnot ⟨rfl, hanswering, hroom, a, rfl, by omega⟩
  · have hout : takenAnswer maxLen s e = [] := by
      cases e with
      | take => exact if_neg fun hanswering => htake ⟨rfl, hanswering⟩
      | _ => rfl
    rw [hout]
    exact iff_of_true (fun answer h => absurd h List.not_mem_nil)
      fun hold => htake ⟨hold.1, hold.2.1⟩

/-- **No stale output**, exactly: in a run every answer is fresh iff no answer is taken
while the oldest byte in the ring was printed before its input was written. -/
theorem answers_fresh_iff (maxLen : Nat) (events : List StdioLinkEvent) :
    (∀ answer ∈ takenAnswers maxLen StdioLink.start events, FreshAnswer answer) ↔
      AllSteps (stdioLinkStep maxLen) (fun s e => ¬ TakesOld maxLen s e) StdioLink.start
        events := by
  unfold takenAnswers
  rw [forall_outputs_iff]
  refine AllSteps.iff_of_invariant StdioLink.Ordered
    (fun s e h => takenAnswer_fresh_iff h maxLen e) (fun s e h _ => h.step maxLen e) ?_
  exact List.pairwise_singleton _ _

/-- The agent answers its first input only when the bridge has given up waiting. -/
def lateLine : List StdioLinkEvent :=
  [.ask, .take, .print 97, .print 10, .fetch 2, .scan, .scan, .push, .push, .ask, .take]

/-- Output that arrives late is in the response to the next request. -/
theorem late_line_in_next_answer :
    ¬ ∀ (maxLen : Nat) (events : List StdioLinkEvent),
      ∀ answer ∈ takenAnswers maxLen StdioLink.start events, FreshAnswer answer := by
  intro hall
  have hanswers : takenAnswers 262144 StdioLink.start lateLine =
      [(1, []), (2, [(97, 1), (10, 1)])] := by decide +kernel
  have hfresh := hall 262144 lateLine (2, [(97, 1), (10, 1)]) (by rw [hanswers]; simp)
  exact absurd (hfresh (97, 1) List.mem_cons_self) (by decide)

/-! ## Inputs that find nothing on the way -/

/-- Nothing that the agent printed is still on the way. -/
def StdioLink.Settled (s : StdioLink) : Prop := s.onWay = []

/-- While a request is answered, everything on the way is newer than its input. -/
def StdioLink.Current (s : StdioLink) : Prop :=
  s.Ordered ∧ (s.answering = true → ∀ t ∈ s.stamps, s.asked ≤ t)

theorem StdioLink.Current.not_takesOld {s : StdioLink} (h : s.Current) (maxLen : Nat)
    (e : StdioLinkEvent) : ¬ TakesOld maxLen s e := by
  rintro ⟨-, hanswering, -, a, hfirst, hold⟩
  have hmem : a ∈ s.onWay := List.mem_append_left _ (List.mem_of_head? hfirst)
  have hle := h.2 hanswering a.2 (List.mem_append_left _ (List.mem_map_of_mem hmem))
  omega

/-- Steps other than an input leave the request as it is. -/
theorem asked_step (maxLen : Nat) (s : StdioLink) {e : StdioLinkEvent} (he : e ≠ .ask) :
    (stdioLinkStep maxLen s e).asked = s.asked ∧
      ((stdioLinkStep maxLen s e).answering = true → s.answering = true) := by
  cases e with
  | ask => exact absurd rfl he
  | close => exact ⟨rfl, id⟩
  | _ =>
      simp only [stdioLinkStep]
      split
      · first
          | exact ⟨rfl, id⟩
          | exact ⟨rfl, nofun⟩
          | split <;> exact ⟨rfl, id⟩
      · exact ⟨rfl, id⟩

theorem StdioLink.Current.step {s : StdioLink} (h : s.Current) (maxLen : Nat) {e : StdioLinkEvent}
    (hsettled : e = .ask → s.answering = false → s.Settled) :
    (stdioLinkStep maxLen s e).Current := by
  refine ⟨h.1.step maxLen e, ?_⟩
  by_cases he : e = .ask
  · subst he
    simp only [stdioLinkStep]
    split
    · exact h.2
    · rename_i hidle
      intro _ t ht
      have hnone := hsettled rfl (by simpa using hidle)
      have hstamps : t ∈ ([] : List Stamped).map Prod.snd ++ [s.asked + 1] := by
        rw [← hnone]
        exact ht
      exact (List.mem_singleton.mp hstamps).ge
  · obtain ⟨hasked, hanswering⟩ := asked_step maxLen s he
    intro hagain t ht
    have hall := h.2 (hanswering hagain)
    rw [hasked]
    rcases stamps_step maxLen s he with hlost | ⟨front, u, back, hstamps, hstamps'⟩
    · exact hall t (hlost.subset ht)
    · refine hall t ?_
      rw [hstamps'] at ht
      rw [hstamps]
      simpa using ht

/-- **Inputs that find nothing on the way** get fresh answers. -/
theorem answers_fresh_of_settled (maxLen : Nat) {events : List StdioLinkEvent}
    (h : AllSteps (stdioLinkStep maxLen)
      (fun s e => e = .ask → s.answering = false → s.Settled) StdioLink.start events) :
    AllSteps (stdioLinkStep maxLen) (fun s e => ¬ TakesOld maxLen s e) StdioLink.start events := by
  have hboth := (AllSteps.iff_of_invariant StdioLink.Current
    (Q := fun s e => (e = .ask → s.answering = false → s.Settled) ∧ ¬ TakesOld maxLen s e)
    (fun s e hcurrent => (and_iff_left (hcurrent.not_takesOld maxLen e)).symm)
    (fun s e hcurrent hstep => hcurrent.step maxLen hstep.1) ?_).mp h
  · exact hboth.mono fun s e hstep => hstep.2
  · exact ⟨List.pairwise_singleton _ _, fun hanswering => absurd hanswering (by decide)⟩

end StarBridge
