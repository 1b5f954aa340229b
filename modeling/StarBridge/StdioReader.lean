import Mathlib.Data.List.Count
import StarBridge.ManagedConfig
import StarBridge.RingBuffers
import StarBridge.StdioTurns

/-!
# The text of a stdio agent

`fd_reader_loop` collects what the agent prints in a line buffer and puts every
line into the text ring, with a line feed behind it.  A carriage return is
dropped, and so is the byte that finds the line buffer full.  A line is put in as
a C string, up to its first terminator.

`printed_eq_wanted_iff` says when the ring is given the stream itself, but for the
carriage returns and a last line feed.
-/

namespace StarBridge

open CText RingBuffer

/-! ## The reader -/

/-- What the reader works on: the byte that a symbol is, and the line feed that is
written in its place. -/
structure Alphabet (α : Type) where
  code : α → UInt8
  feed : α → α
  code_feed : ∀ a, code (feed a) = 10

/-- Bytes. -/
def plainBytes : Alphabet UInt8 := ⟨id, fun _ => 10, fun _ => rfl⟩

/-- `sizeof(line)`. -/
def lineSize : Nat := 4096

theorem bridgeBufferSize_pos : 0 < bridgeBufferSize := by decide

/-- The result of a `read`; the loop ends at the end of the stream. -/
inductive AgentRead (α : Type)
  | bytes (data : List α)
  | interrupted
  | failed

namespace Alphabet

variable {α : Type} (A : Alphabet α)

/-- One byte that was read: the line, and the texts that are pushed. -/
def scan (line : List α) (c : α) : List α × List (List α) :=
  if A.code c = 10 ∨ lineSize ≤ line.length + 1 then ([], [line, [A.feed c]])
  else if A.code c = 13 then (line, [])
  else (line ++ [c], [])

/-- The bytes of one `read`. -/
def scanAll (line : List α) : List α → List α × List (List α)
  | [] => (line, [])
  | c :: rest =>
      let after := scanAll (A.scan line c).1 rest
      (after.1, (A.scan line c).2 ++ after.2)

/-- The texts that are pushed when the stream has ended. -/
def flush (line : List α) : List (List α) :=
  match line.getLast? with
  | none => []
  | some c => [line, [A.feed c]]

/-- `fd_reader_loop`: the texts that are pushed. -/
def fdReaderLoop (line : List α) : List (AgentRead α) → List (List α)
  | [] => A.flush line
  | .bytes data :: rest =>
      (A.scanAll line data).2 ++ fdReaderLoop (A.scanAll line data).1 rest
  | _ :: rest => fdReaderLoop line rest

/-- What `strlen` counts of a text. -/
def shown (text : List α) : List α := text.takeWhile fun a => A.code a ≠ 0

/-- `engine_push_text`. -/
def enginePushText (ring : Ring α bridgeBufferSize) (text : List α) :
    Ring α bridgeBufferSize := ring.append (A.shown text)

/-- The texts pushed for the rest of a stream. -/
def pushes (line : List α) (stream : List α) : List (List α) :=
  (A.scanAll line stream).2 ++ A.flush (A.scanAll line stream).1

/-- The bytes that reads bring. -/
def arrived : List (AgentRead α) → List α
  | [] => []
  | .bytes data :: rest => data ++ arrived rest
  | _ :: rest => arrived rest

theorem scanAll_append (line front back : List α) :
    A.scanAll line (front ++ back) =
      ((A.scanAll (A.scanAll line front).1 back).1,
        (A.scanAll line front).2 ++ (A.scanAll (A.scanAll line front).1 back).2) := by
  induction front generalizing line with
  | nil => rfl
  | cons c front ih =>
      rw [List.cons_append, scanAll, ih, scanAll]
      simp only [List.append_assoc]

/-- **Fragmentation does not matter**: what is pushed depends on the stream. -/
theorem fdReaderLoop_eq (line : List α) (reads : List (AgentRead α)) :
    A.fdReaderLoop line reads = A.pushes line (arrived reads) := by
  induction reads generalizing line with
  | nil => rfl
  | cons outcome rest ih =>
      cases outcome with
      | bytes data =>
          rw [fdReaderLoop, arrived, ih, pushes, pushes, scanAll_append, List.append_assoc]
      | interrupted => exact ih line
      | failed => exact ih line

/-- What the ring holds after texts were pushed. -/
theorem held_enginePushText (ring : Ring α bridgeBufferSize) (texts : List (List α)) :
    (texts.foldl A.enginePushText ring).held =
      keepLast (bridgeBufferSize - 1) (ring.held ++ texts.flatMap A.shown) := by
  induction texts generalizing ring with
  | nil =>
      have hroom := ring.room
      rw [List.flatMap_nil, List.append_nil, keepLast_eq_self]
      · rfl
      · rw [Ring.length_held]
        omega
  | cons text texts ih =>
      rw [List.foldl_cons, ih, enginePushText, Ring.held_append, keepLast_append,
        List.flatMap_cons, List.append_assoc]

end Alphabet

/-! ## The bytes that are pushed -/

/-- What the ring is given for the rest of a stream. -/
def printed (line stream : Bytes) : Bytes :=
  (plainBytes.pushes line stream).flatMap plainBytes.shown

/-- What it should be given. -/
def wanted (line stream : Bytes) : Bytes := endLine (line ++ stream.filter (· ≠ 13))

theorem shown_eq_self {text : Bytes} (h : 0 ∉ text) : plainBytes.shown text = text := by
  refine List.takeWhile_eq_self_iff.mpr fun c hc => ?_
  exact decide_eq_true fun heq => h (heq ▸ hc)

theorem printed_nil (line : Bytes) :
    printed line [] = if line = [] then [] else plainBytes.shown line ++ [10] := by
  unfold printed Alphabet.pushes Alphabet.scanAll Alphabet.flush
  cases hlast : line.getLast? with
  | none => rw [if_pos (List.getLast?_eq_none_iff.mp hlast)]; rfl
  | some c =>
      rw [if_neg (by rintro rfl; cases hlast)]
      rfl

/-- A byte that ends a line. -/
theorem printed_break {line : Bytes} {c : UInt8} (h : c = 10 ∨ lineSize ≤ line.length + 1)
    (rest : Bytes) :
    printed line (c :: rest) = plainBytes.shown line ++ 10 :: printed [] rest := by
  have hscan : plainBytes.scan line c = ([], [line, [10]]) := if_pos h
  unfold printed Alphabet.pushes
  have hten : plainBytes.shown [10] = [10] := rfl
  rw [Alphabet.scanAll, hscan]
  simp only [List.cons_append, List.nil_append, List.flatMap_cons, hten]

theorem printed_return {line : Bytes} (h : line.length + 1 < lineSize) (rest : Bytes) :
    printed line (13 :: rest) = printed line rest := by
  have hscan : plainBytes.scan line 13 = (line, []) := by
    have hnot : ¬ ((13 : UInt8) = 10 ∨ lineSize ≤ line.length + 1) := by
      rintro (h10 | hfull)
      · cases h10
      · omega
    exact (if_neg hnot).trans (if_pos rfl)
  unfold printed Alphabet.pushes
  rw [Alphabet.scanAll, hscan]
  rfl

theorem printed_byte {line : Bytes} {c : UInt8} (hfeed : c ≠ 10) (hreturn : c ≠ 13)
    (h : line.length + 1 < lineSize) (rest : Bytes) :
    printed line (c :: rest) = printed (line ++ [c]) rest := by
  have hscan : plainBytes.scan line c = (line ++ [c], []) := by
    have hnot : ¬ (c = 10 ∨ lineSize ≤ line.length + 1) := by
      rintro (h10 | hfull)
      · exact hfeed h10
      · omega
    exact (if_neg hnot).trans (if_neg hreturn)
  unfold printed Alphabet.pushes
  rw [Alphabet.scanAll, hscan]
  rfl

/-- **Cases of the reader**, as it takes the next byte of a stream. -/
theorem printed_induct {motive : Bytes → Bytes → Prop} (nil : ∀ line, motive line [])
    (feed : ∀ line rest, motive [] rest → motive line (10 :: rest))
    (full : ∀ line c rest, c ≠ 10 → lineSize ≤ line.length + 1 → motive [] rest →
      motive line (c :: rest))
    (ret : ∀ line rest, line.length + 1 < lineSize → motive line rest → motive line (13 :: rest))
    (byte : ∀ line c rest, c ≠ 10 → c ≠ 13 → line.length + 1 < lineSize →
      motive (line ++ [c]) rest → motive line (c :: rest)) (line stream : Bytes) :
    motive line stream := by
  induction stream generalizing line with
  | nil => exact nil line
  | cons c rest ih =>
      by_cases hfeed : c = 10
      · subst hfeed
        exact feed line rest (ih [])
      · rcases Nat.lt_or_ge (line.length + 1) lineSize with hlt | hfull
        · by_cases hreturn : c = 13
          · subst hreturn
            exact ret line rest hlt (ih line)
          · exact byte line c rest hfeed hreturn hlt (ih (line ++ [c]))
        · exact full line c rest hfeed hfull (ih [])

/-! ## What is wanted of them -/

theorem endLine_line {line : Bytes} (hne : line ≠ []) (h : 10 ∉ line) :
    endLine line = line ++ [10] :=
  if_pos ⟨hne, fun hlast => h (List.mem_of_getLast? hlast)⟩

theorem endLine_append_cons (front : Bytes) (c : UInt8) (back : Bytes) :
    endLine (front ++ c :: back) = front ++ endLine (c :: back) := by
  have hlast : (front ++ c :: back).getLast? = (c :: back).getLast? :=
    List.getLast?_append_of_ne_nil front (List.cons_ne_nil c back)
  unfold endLine
  rw [hlast]
  by_cases hbreak : (c :: back).getLast? = some 10
  · rw [if_neg fun h => h.2 hbreak, if_neg fun h => h.2 hbreak]
  · rw [if_pos ⟨by simp, hbreak⟩, if_pos ⟨by simp, hbreak⟩, List.append_assoc]

theorem endLine_feed (back : Bytes) : endLine (10 :: back) = 10 :: endLine back := by
  cases back with
  | nil => rfl
  | cons c back => exact endLine_append_cons [10] c back

theorem wanted_feed (line rest : Bytes) :
    wanted line (10 :: rest) = line ++ 10 :: wanted [] rest := by
  have hfilter : (10 :: rest).filter (· ≠ 13) = 10 :: rest.filter (· ≠ 13) := rfl
  rw [wanted, hfilter, endLine_append_cons, endLine_feed]
  rfl

theorem wanted_return (line rest : Bytes) : wanted line (13 :: rest) = wanted line rest := rfl

theorem wanted_byte (line : Bytes) {c : UInt8} (h : c ≠ 13) (rest : Bytes) :
    wanted line (c :: rest) = wanted (line ++ [c]) rest := by
  have hfilter : (c :: rest).filter (· ≠ 13) = c :: rest.filter (· ≠ 13) := by simp [h]
  rw [wanted, wanted, hfilter, List.append_assoc]
  rfl

theorem prefix_wanted (line stream : Bytes) : line <+: wanted line stream := by
  unfold wanted endLine
  split
  · exact (List.prefix_append _ _).trans (List.prefix_append _ _)
  · exact List.prefix_append _ _

theorem shown_append (line more : Bytes) :
    plainBytes.shown line <+: plainBytes.shown (line ++ more) := by
  unfold Alphabet.shown
  rw [List.takeWhile_append]
  split
  · rename_i hall
    rw [(List.takeWhile_sublist _).eq_of_length hall]
    exact List.prefix_append _ _
  · exact List.prefix_rfl

/-- The line in the buffer comes first. -/
theorem prefix_printed (line stream : Bytes) :
    plainBytes.shown line <+: printed line stream := by
  induction line, stream using printed_induct with
  | nil line =>
      rw [printed_nil]
      split
      · rename_i hnil
        rw [hnil]
        exact List.prefix_rfl
      · exact List.prefix_append _ _
  | feed line rest ih =>
      rw [printed_break (Or.inl rfl)]
      exact List.prefix_append _ _
  | full line c rest hfeed hfull ih =>
      rw [printed_break (Or.inr hfull)]
      exact List.prefix_append _ _
  | ret line rest hlt ih =>
      rw [printed_return hlt]
      exact ih
  | byte line c rest hfeed hreturn hlt ih =>
      rw [printed_byte hfeed hreturn hlt]
      exact (shown_append line [c]).trans ih

/-- Only line ends. -/
def onlyBreaks (text : Bytes) : Bool := text.all fun d => d = 10 || d = 13

theorem onlyBreaks_iff {text : Bytes} :
    onlyBreaks text = true ↔ ∀ d ∈ text, d = 10 ∨ d = 13 := by
  simp [onlyBreaks]

/-- How many line feeds the ring is given beyond the stream, where it is given the
whole stream: nothing is cut off a line, unless it is a carriage return and
nothing but line ends follows. -/
def surplus (n : Nat) : Bytes → Option Nat
  | [] => some 0
  | c :: rest =>
      if c = 10 then surplus 0 rest
      else if n + 1 < lineSize then surplus (if c = 13 then n else n + 1) rest
      else if c = 13 ∧ onlyBreaks rest = true then some (if 10 ∈ rest then 1 else 0)
      else none

/-- Behind a line feed of its own, a text with line ends only is as wanted but for
that. -/
theorem surplus_behind_feed {rest : Bytes} (hzero : 0 ∉ rest) (k : Nat) :
    10 :: printed [] rest = wanted [] rest ++ List.replicate k 10 ↔
      (∀ d ∈ rest, d = 10 ∨ d = 13) ∧ k = 1 := by
  induction rest with
  | nil =>
      have hnil : wanted [] [] = [] := rfl
      rw [printed_nil, if_pos rfl, hnil, List.nil_append]
      constructor
      · intro h
        have hlen := congrArg List.length h
        rw [List.length_replicate] at hlen
        exact ⟨fun d hd => absurd hd List.not_mem_nil, hlen.symm⟩
      · rintro ⟨-, rfl⟩
        rfl
  | cons c rest ih =>
      have hrest := ih fun h => hzero (List.mem_cons_of_mem _ h)
      rw [List.forall_mem_cons]
      by_cases hfeed : c = 10
      · subst hfeed
        rw [printed_break (Or.inl rfl), wanted_feed, shown_eq_self List.not_mem_nil]
        simpa using hrest
      · by_cases hreturn : c = 13
        · subst hreturn
          rw [printed_return (by decide), wanted_return]
          simpa using hrest
        · rw [wanted_byte _ hreturn]
          refine iff_of_false ?_ ?_
          · intro h
            have hline : [c] <+: wanted ([] ++ [c]) rest ++ List.replicate k 10 :=
              (prefix_wanted [c] rest).trans (List.prefix_append _ _)
            rw [← h] at hline
            exact hfeed (List.cons_prefix_cons.mp hline).1
          · rintro ⟨⟨h | h, -⟩, -⟩
            · exact hfeed h
            · exact hreturn h

/-- The same where the line buffer was full. -/
theorem surplus_behind_line {line rest : Bytes} (hne : line ≠ []) (hbreak : 10 ∉ line)
    (hzero : 0 ∉ rest) (k : Nat) :
    line ++ 10 :: printed [] rest = wanted line rest ++ List.replicate k 10 ↔
      (∀ d ∈ rest, d = 10 ∨ d = 13) ∧ k = if 10 ∈ rest then 1 else 0 := by
  induction rest with
  | nil =>
      have hwanted : wanted line [] = line ++ [10] := by
        rw [wanted, List.filter_nil, List.append_nil, endLine_line hne hbreak]
      rw [printed_nil, if_pos rfl, hwanted, List.self_eq_append_right, List.replicate_eq_nil_iff]
      simp
  | cons c rest ih =>
      have htail : 0 ∉ rest := fun h => hzero (List.mem_cons_of_mem _ h)
      by_cases hfeed : c = 10
      · subst hfeed
        rw [printed_break (Or.inl rfl), wanted_feed, shown_eq_self List.not_mem_nil,
          List.append_assoc, List.append_cancel_left_eq]
        simpa using surplus_behind_feed htail k
      · by_cases hreturn : c = 13
        · subst hreturn
          rw [printed_return (by decide), wanted_return]
          simpa using ih htail
        · rw [wanted_byte _ hreturn]
          refine iff_of_false ?_ ?_
          · intro h
            have hline := (prefix_wanted (line ++ [c]) rest).trans
              (List.prefix_append _ (List.replicate k 10))
            rw [← h] at hline
            have hc := (List.prefix_append_right_inj line).mp hline
            exact hfeed (List.cons_prefix_cons.mp hc).1
          · rintro ⟨h, -⟩
            rcases h c List.mem_cons_self with h | h
            · exact hfeed h
            · exact hreturn h

/-- **What the ring is given**, where the stream has no terminator: the stream as it
is wanted and some line feeds, exactly as many as `surplus` says. -/
theorem printed_eq_wanted_iff {line : Bytes} (hbreak : 10 ∉ line)
    (hzero : 0 ∉ line) {stream : Bytes} (hstream : 0 ∉ stream) (k : Nat) :
    printed line stream = wanted line stream ++ List.replicate k 10 ↔
      surplus line.length stream = some k := by
  induction line, stream using printed_induct with
  | nil line =>
      have hprinted : printed line [] = wanted line [] := by
        rw [printed_nil, shown_eq_self hzero]
        unfold wanted
        rw [List.filter_nil, List.append_nil]
        split
        · rename_i hnil
          rw [hnil]
          rfl
        · rename_i hne
          exact (endLine_line hne hbreak).symm
      rw [hprinted, List.self_eq_append_right, List.replicate_eq_nil_iff, surplus,
        Option.some_inj, eq_comm]
  | feed line rest ih =>
      have hrest := ih List.not_mem_nil List.not_mem_nil
        fun h => hstream (List.mem_cons_of_mem _ h)
      rw [printed_break (Or.inl rfl), wanted_feed, shown_eq_self hzero, List.append_assoc,
        List.append_cancel_left_eq, List.cons_append, List.cons.injEq, and_iff_right rfl, hrest]
      rfl
  | full line c rest hfeed hfull ih =>
      have htail : 0 ∉ rest := fun h => hstream (List.mem_cons_of_mem _ h)
      have hne : line ≠ [] := by
        rintro rfl
        exact absurd hfull (by decide)
      rw [printed_break (Or.inr hfull), shown_eq_self hzero, surplus, if_neg hfeed,
        if_neg (by omega)]
      by_cases hreturn : c = 13
      · subst hreturn
        rw [wanted_return, surplus_behind_line hne hbreak htail, ← onlyBreaks_iff]
        grind
      · rw [wanted_byte _ hreturn, if_neg fun h => hreturn h.1]
        refine iff_of_false ?_ nofun
        intro h
        have hpre := (prefix_wanted (line ++ [c]) rest).trans
          (List.prefix_append _ (List.replicate k 10))
        rw [← h] at hpre
        have hc := (List.prefix_append_right_inj line).mp hpre
        exact hfeed (List.cons_prefix_cons.mp hc).1
  | ret line rest hlt ih =>
      rw [printed_return hlt, wanted_return, surplus, if_neg (by decide), if_pos hlt, if_pos rfl]
      exact ih hbreak hzero fun h => hstream (List.mem_cons_of_mem _ h)
  | byte line c rest hfeed hreturn hlt ih =>
      have hc : c ≠ 0 := fun h => hstream (h ▸ List.mem_cons_self)
      rw [printed_byte hfeed hreturn hlt, wanted_byte _ hreturn, surplus, if_neg hfeed,
        if_pos hlt, if_neg hreturn]
      have hrest := ih (by simp [hbreak, Ne.symm hfeed]) (by simp [hzero, Ne.symm hc])
        fun h => hstream (List.mem_cons_of_mem _ h)
      rwa [List.length_append] at hrest

end StarBridge
