import StarBridge.ListingCompaction

/-!
# The text of the wrapper's answers

The wrapper takes color sequences out of the agent's lines, hides the lines in which the
agent talks to its tools, and puts what is left together with `format_ds4_response`,
which takes colors out again, drops status lines and trims the whole.

A line that these leave as it is can be found in the answer (`infix_formatDs4Response`).
-/

namespace StarBridge

namespace PyStr

/-! ## Trimmed text -/

/-- No white space stands at an end of the text. -/
def Trimmed (s : PyStr) : Prop :=
  (∀ c ∈ s.head?, isPySpace c = false) ∧ ∀ c ∈ s.getLast?, isPySpace c = false

theorem head?_dropWhile_isPySpace (s : PyStr) :
    ∀ c ∈ (s.dropWhile isPySpace).head?, isPySpace c = false := by
  intro c hc
  have hnot := List.head?_dropWhile_not isPySpace s
  rw [Option.mem_def.mp hc] at hnot
  exact hnot

theorem infix_dropWhile {s t : PyStr} (hfirst : ∀ c ∈ s.head?, isPySpace c = false)
    (h : s <:+: t) : s <:+: t.dropWhile isPySpace := by
  induction t with
  | nil => exact h
  | cons c rest ih =>
      rw [List.dropWhile_cons]
      split
      · rename_i hspace
        rcases List.infix_cons_iff.mp h with hfront | hrest
        · cases s with
          | nil => exact List.nil_infix
          | cons d s =>
              obtain ⟨hsame, -⟩ := List.cons_prefix_cons.mp hfront
              have hnot := hfirst d rfl
              rw [hsame, hspace] at hnot
              cases hnot
        · exact ih hrest
      · exact h

/-- Text in the midst of a text is still there when the text is trimmed, unless white
space stands at one of its ends. -/
theorem Trimmed.infix_strip {s t : PyStr} (hs : Trimmed s) (h : s <:+: t) : s <:+: strip t := by
  have hleft := infix_dropWhile hs.1 h
  have hlast : ∀ c ∈ s.reverse.head?, isPySpace c = false := by
    rw [List.head?_reverse]
    exact hs.2
  have hright := infix_dropWhile hlast (List.reverse_infix.mpr hleft)
  rw [← List.reverse_infix, List.reverse_reverse] at hright
  exact hright

theorem strip_infix (s : PyStr) : strip s <:+: s := by
  have hright := (List.dropWhile_suffix isPySpace (l := (s.dropWhile isPySpace).reverse)).isInfix
  rw [← List.reverse_infix, List.reverse_reverse] at hright
  exact hright.trans (List.dropWhile_suffix isPySpace).isInfix

theorem trimmed_strip (s : PyStr) : Trimmed (strip s) := by
  constructor
  · intro c hc
    have hfront : strip s <+: s.dropWhile isPySpace := by
      have hback := List.dropWhile_suffix isPySpace (l := (s.dropWhile isPySpace).reverse)
      rw [← List.reverse_prefix, List.reverse_reverse] at hback
      exact hback
    refine head?_dropWhile_isPySpace s c ?_
    obtain ⟨rest, hsplit⟩ := hfront
    rw [← hsplit, List.head?_append, Option.mem_def.mp hc]
    rfl
  · rw [strip, List.getLast?_reverse]
    exact head?_dropWhile_isPySpace _

end PyStr

/-! ## Colors -/

/-- `[0-9;]`. -/
def isAnsiParam (c : Char) : Bool := c.isDigit || c == ';'

/-- The length of the color sequence at the front of a text: `\x1b\[[0-9;]*m`. -/
def ansiLength (text : PyStr) : Option Nat :=
  if "\x1b[".toList.isPrefixOf text then
    let rest := text.drop 2
    if (rest.dropWhile isAnsiParam).head? = some 'm' then
      some ((rest.takeWhile isAnsiParam).length + 3)
    else none
  else none

/-- `_strip_ansi` behind so many characters of a color sequence. -/
def stripAnsiFrom : Nat → PyStr → PyStr
  | _, [] => []
  | skip + 1, _ :: rest => stripAnsiFrom skip rest
  | 0, c :: rest =>
      match ansiLength (c :: rest) with
      | some n => stripAnsiFrom (n - 1) rest
      | none => c :: stripAnsiFrom 0 rest

/-- `_strip_ansi`. -/
def stripAnsi (text : PyStr) : PyStr := stripAnsiFrom 0 text

theorem stripAnsiFrom_sublist (skip : Nat) (text : PyStr) :
    List.Sublist (stripAnsiFrom skip text) text := by
  induction text generalizing skip with
  | nil =>
      cases skip with
      | zero => exact List.Sublist.refl _
      | succ skip => exact List.Sublist.refl _
  | cons c rest ih =>
      cases skip with
      | zero =>
          rw [stripAnsiFrom]
          split
          · exact (ih _).cons c
          · exact (ih 0).cons_cons c
      | succ skip => exact (ih skip).cons c

/-- Taking out colors only takes out. -/
theorem stripAnsi_sublist (text : PyStr) : List.Sublist (stripAnsi text) text :=
  stripAnsiFrom_sublist 0 text

/-- A color sequence ends before its line does. -/
theorem ansiLength_append (text rest : PyStr) :
    ansiLength (text ++ '\n' :: rest) = ansiLength text := by
  have hopens : "\x1b[".toList.isPrefixOf (text ++ '\n' :: rest) =
      "\x1b[".toList.isPrefixOf text := by
    rcases text with _ | ⟨c, _ | ⟨d, text⟩⟩
    · rfl
    · simp [List.isPrefixOf]
    · simp [List.isPrefixOf]
  unfold ansiLength
  rw [hopens]
  split
  · rename_i hopen
    obtain ⟨params, hparams⟩ := List.isPrefixOf_iff_prefix.mp hopen
    have hdrop : (text ++ '\n' :: rest).drop 2 = text.drop 2 ++ '\n' :: rest := by
      rw [← hparams]
      rfl
    dsimp only
    rw [hdrop, List.dropWhile_append, List.takeWhile_append]
    cases hleft : (text.drop 2).dropWhile isAnsiParam with
    | nil => simp [isAnsiParam]
    | cons c left =>
        have hshort : ((text.drop 2).takeWhile isAnsiParam).length ≠ (text.drop 2).length := by
          intro hlength
          have hall := (List.takeWhile_prefix isAnsiParam).eq_of_length hlength
          rw [List.dropWhile_eq_nil_iff.mpr (List.takeWhile_eq_self_iff.mp hall)] at hleft
          cases hleft
        rw [if_neg hshort]
        simp
  · rfl

theorem ansiLength_le {text : PyStr} {n : Nat} (h : ansiLength text = some n) :
    n ≤ text.length := by
  unfold ansiLength at h
  split at h
  · rename_i hopen
    obtain ⟨rest, rfl⟩ := List.isPrefixOf_iff_prefix.mp hopen
    dsimp only at h
    split at h
    · rename_i hm
      have hsplit : rest.takeWhile isAnsiParam ++ rest.dropWhile isAnsiParam = rest :=
        List.takeWhile_append_dropWhile
      have hlength := congrArg List.length hsplit
      have hpos : 0 < (rest.dropWhile isAnsiParam).length := by
        refine List.length_pos_iff.mpr fun hnil => ?_
        have hhead : (rest.dropWhile isAnsiParam).head? = some 'm' := hm
        rw [hnil] at hhead
        cases hhead
      have hn : (rest.takeWhile isAnsiParam).length + 3 = n := Option.some.inj h
      have htwo : "\x1b[".toList.length = 2 := rfl
      rw [List.length_append] at hlength ⊢
      omega
    · cases h
  · cases h

theorem stripAnsiFrom_append {skip : Nat} {text : PyStr} (h : skip ≤ text.length) (rest : PyStr) :
    stripAnsiFrom skip (text ++ '\n' :: rest) =
      stripAnsiFrom skip text ++ '\n' :: stripAnsi rest := by
  induction text generalizing skip with
  | nil =>
      obtain rfl := Nat.le_zero.mp h
      have hnone : ansiLength ('\n' :: rest) = none := ansiLength_append [] rest
      show stripAnsiFrom 0 ('\n' :: rest) = '\n' :: stripAnsi rest
      rw [stripAnsiFrom, hnone]
      rfl
  | cons c text ih =>
      cases skip with
      | zero =>
          have hsame := ansiLength_append (c :: text) rest
          rw [List.cons_append] at hsame ⊢
          rw [stripAnsiFrom, stripAnsiFrom, hsame]
          cases hlength : ansiLength (c :: text) with
          | none =>
              dsimp only
              rw [ih (Nat.zero_le _), List.cons_append]
          | some n =>
              have hle := ansiLength_le hlength
              rw [List.length_cons] at hle
              exact ih (by omega)
      | succ skip => exact ih (Nat.le_of_succ_le_succ h)

/-- Colors are taken out line by line. -/
theorem stripAnsi_join (lines : List PyStr) :
    stripAnsi (['\n'].intercalate lines) = ['\n'].intercalate (lines.map stripAnsi) := by
  induction lines with
  | nil => rfl
  | cons line rest ih =>
      cases rest with
      | nil => rw [List.map_singleton, List.intercalate_singleton, List.intercalate_singleton]
      | cons next rest =>
          rw [List.map_cons, List.map_cons, List.intercalate_cons_cons, List.intercalate_cons_cons,
            List.append_assoc, List.singleton_append, List.append_assoc, List.singleton_append,
            ← List.map_cons, ← ih]
          exact stripAnsiFrom_append (Nat.zero_le _) _

/-- A text without an escape character has no colors. -/
theorem stripAnsi_append_of_plain {front : PyStr} (h : '\x1b' ∉ front) (rest : PyStr) :
    stripAnsi (front ++ rest) = front ++ stripAnsi rest := by
  induction front with
  | nil => rfl
  | cons c front ih =>
      rw [List.mem_cons, not_or] at h
      obtain ⟨hc, hfront⟩ := h
      have hnone : ansiLength (c :: front ++ rest) = none := by
        refine if_neg ?_
        simp [List.isPrefixOf, hc]
      rw [List.cons_append] at hnone ⊢
      rw [stripAnsi, stripAnsiFrom, hnone]
      exact congrArg (c :: ·) (ih hfront)

/-! ## Tool transcript lines -/

/-- A letter as the pattern's `IGNORECASE` compares it with a small letter. -/
def foldCase (c : Char) : Char :=
  if c.isUpper then c.toLower
  else if c = 'İ' ∨ c = 'ı' then 'i'
  else if c = 'ſ' then 's'
  else if c.toNat = 8490 then 'k'
  else c

/-- What follows a word at the front of a text, whatever the case of its letters. -/
def afterWord (word : String) (l : PyStr) : Option PyStr :=
  if word.toList.isPrefixOf (l.map foldCase) then some (l.drop word.length) else none

/-- `\s+` and then a word. -/
def spacesThen (word : String) (l : PyStr) : Bool :=
  match l with
  | c :: rest => isPySpace c && (afterWord word (rest.dropWhile isPySpace)).isSome
  | [] => false

/-- `_TOOL_LINE_RE`, searched in a text. -/
def toolLineFound (t : PyStr) : Bool :=
  let l := t.dropWhile isPySpace
  (["🛠️", "🛠", "[tool", "executing", "running tool"].any fun word => (afterWord word l).isSome) ||
    (match afterWord "tool" l with
      | some rest => (afterWord "call" (rest.dropWhile isPySpace)).isSome
      | none => false) ||
    (t.tails.any fun tail =>
      match afterWord "list" tail with
      | some rest => spacesThen "path=" rest
      | none => false) ||
    (match afterWord "$" l with
      | some rest => ["ls", "find", "cat", "grep", "read", "write", "cd", "pwd"].any fun word =>
          (afterWord word (rest.dropWhile isPySpace)).isSome
      | none => false) ||
    (["find", "list", "read", "write"].any fun word =>
      match afterWord word l with
      | some (c :: rest) =>
          isPySpace c && ((rest.dropWhile isPySpace).takeWhile (· != '\n')).tails.any fun tail =>
            (afterWord "path=" tail).isSome
      | _ => false)

/-- `str.lower`, as far as the keywords of tool lines need it. -/
def lowerText (t : PyStr) : PyStr := t.map Char.toLower

/-- `_is_tool_transcript_line`. -/
def isToolTranscriptLine (text : PyStr) : Bool :=
  let t := PyStr.strip text
  if t.isEmpty then false
  else
    toolLineFound t || decide ("🛠".toList <:+: t) ||
      (decide ("path=".toList <:+: t) &&
        ["list", "find", "read", "tool"].any fun k => decide (k.toList <:+: lowerText t))

/-! ## The answer -/

/-- What a line begins with that only tells how the agent is. -/
def statusTag : PyStr := "+DWARFSTAR".toList

/-- `WAITING_MARKER`. -/
def waitingMarker : PyStr := "+DWARFSTAR_WAITING".toList

/-- What the answer says where there is none. -/
def noOutputMessage : PyStr :=
  "ds4-agent error: no output (check agent binary, model path, --chdir=ds4-home for metal/, preflight errors above, and that +DWARFSTAR_WAITING was emitted). See .codex-bridge-debug.log and /tmp/ds4_traces/ for the exact argv and last lines.".toList

/-- `format_ds4_response`. -/
def formatDs4Response (stdout stderr : PyStr) : PyStr :=
  let lines := (stripAnsi stdout).splitOn '\n'
  let cleanLines := lines.filter fun l => !statusTag.isPrefixOf l
  let cleanOutput := PyStr.strip (['\n'].intercalate cleanLines)
  if cleanOutput ≠ [] then cleanOutput
  else
    let err := PyStr.strip stderr
    if err ≠ [] then "ds4-agent error: ".toList ++ err else noOutputMessage

/-- A line is part of the text that lines are joined to. -/
theorem infix_intercalate_of_mem {line : PyStr} {lines : List PyStr} (sep : PyStr)
    (h : line ∈ lines) : line <:+: sep.intercalate lines := by
  induction lines with
  | nil => cases h
  | cons first rest ih =>
      cases rest with
      | nil =>
          rw [List.intercalate_singleton, List.mem_singleton.mp h]
      | cons next rest =>
          rw [List.intercalate_cons_cons, List.append_assoc]
          rcases List.mem_cons.mp h with rfl | hrest
          · exact (List.prefix_append _ _).isInfix
          · exact (ih hrest).trans ((List.suffix_append _ _).trans (List.suffix_append _ _)).isInfix

/-- **What a line says is in the answer**, unless it is a status line. -/
theorem infix_formatDs4Response {lines : List PyStr} (hlines : ∀ line ∈ lines, '\n' ∉ line)
    {line s : PyStr} (hline : line ∈ lines)
    (hstatus : statusTag.isPrefixOf (stripAnsi line) = false) (hs : s <:+: stripAnsi line)
    (htrimmed : PyStr.Trimmed s) (stderr : PyStr) :
    s <:+: formatDs4Response (['\n'].intercalate lines) stderr := by
  by_cases hempty : s = []
  · rw [hempty]
    exact List.nil_infix
  · have hfeeds : ∀ l ∈ lines.map stripAnsi, '\n' ∉ l := by
      intro l hl
      obtain ⟨l', hl', rfl⟩ := List.mem_map.mp hl
      exact fun hmem => hlines l' hl' ((stripAnsi_sublist l').subset hmem)
    have hsplit : (stripAnsi (['\n'].intercalate lines)).splitOn '\n' = lines.map stripAnsi := by
      rw [stripAnsi_join]
      refine List.splitOn_intercalate '\n' hfeeds ?_
      intro hnil
      rw [List.map_eq_nil_iff.mp hnil] at hline
      cases hline
    have hclean : stripAnsi line ∈
        (lines.map stripAnsi).filter fun l => !statusTag.isPrefixOf l :=
      List.mem_filter.mpr ⟨List.mem_map_of_mem hline, by rw [hstatus]; rfl⟩
    have hinfix := htrimmed.infix_strip (hs.trans (infix_intercalate_of_mem ['\n'] hclean))
    have hsome : PyStr.strip (['\n'].intercalate
        ((lines.map stripAnsi).filter fun l => !statusTag.isPrefixOf l)) ≠ [] := by
      intro hnil
      rw [hnil] at hinfix
      exact hempty (List.eq_nil_of_infix_nil hinfix)
    unfold formatDs4Response
    dsimp only
    rw [hsplit, if_pos hsome]
    exact hinfix

end StarBridge
