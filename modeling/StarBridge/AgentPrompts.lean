import StarBridge.Continuations
import StarBridge.PtyReader
import StarBridge.Words

/-!
# What the wrapper writes to the agent

The agent reads one prompt a line.  `Ds4PersistentSession` puts each prompt on a line of its
own, word by word, and asks for the state of the agent with the commands `/save` and
`/switch`.  `agent_reads_commands` says that the agent reads exactly the words it was sent.

What `_parse_saved_session_id` finds in the answer to `/save` can stand in a command
(`SavedId`), and is the first of the best candidates (`saved_id_iff`).

The line of a request can itself begin with a slash: `slash_line_iff` says when.
-/

namespace StarBridge

open CText Utf8 Words Continuations

/-! ## The saved id -/

/-- `[A-Za-z0-9]`. -/
def isAlnum (c : Char) : Bool := c.isAlphanum

/-- `[A-Za-z0-9._-]`. -/
def isIdChar (c : Char) : Bool := isAlnum c || c == '.' || c == '_' || c == '-'

/-- `\w`, given which characters that are not ASCII count as letters or digits. -/
def isWordChar (letter : Char → Bool) (c : Char) : Bool :=
  if c.toNat < 128 then isAlnum c || c == '_' else letter c

/-- `\b` between two characters, of which none stands for the end of the text. -/
def boundary (letter : Char → Bool) (before behind : Option Char) : Bool :=
  before.any (isWordChar letter) != behind.any (isWordChar letter)

/-- The length of `[A-Za-z0-9][A-Za-z0-9._-]{3,}\b` at the front of a text: as long as can be,
from this length down. -/
def idLengthFrom (letter : Char → Bool) (text : PyStr) : Nat → Option Nat
  | 0 => none
  | n + 1 =>
      if n + 1 < 4 then none
      else if boundary letter text[n]? text[n + 1]? then some (n + 1)
      else idLengthFrom letter text n

/-- The length of the id at the front of a text, behind a character. -/
def idLength (letter : Char → Bool) (before : Option Char) (text : PyStr) : Option Nat :=
  if boundary letter before text.head? && text.head?.any isAlnum then
    idLengthFrom letter text (text.takeWhile isIdChar).length
  else none

/-- `_SAVED_ID_RE.findall`, behind a character and with some characters to skip. -/
def findIds (letter : Char → Bool) : Nat → Option Char → PyStr → List PyStr
  | _, _, [] => []
  | skip + 1, _, c :: rest => findIds letter skip (some c) rest
  | 0, before, c :: rest =>
      match idLength letter before (c :: rest) with
      | some n => (c :: rest).take n :: findIds letter (n - 1) (some c) rest
      | none => findIds letter 0 (some c) rest

/-- `_id_score`. -/
def idScore (tok : PyStr) : Nat :=
  if tok.any Char.isDigit then
    (if '-' ∈ tok ∨ '_' ∈ tok then 2 else 1) * 100 + tok.length
  else 0

/-- The tokens of a line that score, with their totals. -/
def lineCandidates (letter : Char → Bool) (line : PyStr) : List (Nat × PyStr) :=
  let bonus := if "save".toList <:+: lower line then 1000 else 0
  (findIds letter 0 none line).filterMap fun tok =>
    if idScore tok = 0 then none else some (bonus + idScore tok, tok)

/-- One candidate in the loops of `_parse_saved_session_id`. -/
def betterId (best : Nat × Option PyStr) (candidate : Nat × PyStr) : Nat × Option PyStr :=
  if best.1 < candidate.1 then (candidate.1, some candidate.2) else best

/-- The candidates of a text, line by line. -/
def idCandidates (letter : Char → Bool) (text : PyStr) : List (Nat × PyStr) :=
  (text.splitOnP Continuations.isLineBreak).flatMap (lineCandidates letter)

/-- `_parse_saved_session_id`. -/
def parseSavedSessionId (letter : Char → Bool) (text : PyStr) : Option PyStr :=
  ((idCandidates letter text).foldl betterId (0, none)).2

/-- What a saved id looks like. -/
structure IsSavedId (tok : PyStr) : Prop where
  long : 4 ≤ tok.length
  chars : ∀ c ∈ tok, isIdChar c = true
  starts : tok.head?.any isAlnum = true
  digit : tok.any Char.isDigit = true

/-- An id that may stand in a command. -/
structure SavedId where
  text : PyStr
  saved : IsSavedId text

section

variable {letter : Char → Bool}

theorem idLengthFrom_spec {text : PyStr} {bound n : Nat}
    (h : idLengthFrom letter text bound = some n) : 4 ≤ n ∧ n ≤ bound := by
  induction bound with
  | zero => cases h
  | succ bound ih =>
      rw [idLengthFrom] at h
      split_ifs at h with hshort hboundary
      · rw [← Option.some.inj h]
        omega
      · have hrest := ih h
        omega

/-- An id at the front of a text. -/
theorem idLength_spec {before : Option Char} {text : PyStr} {n : Nat}
    (h : idLength letter before text = some n) :
    (text.take n).length = n ∧ 4 ≤ n ∧ (∀ c ∈ text.take n, isIdChar c = true) ∧
      (text.take n).head?.any isAlnum = true := by
  unfold idLength at h
  split at h
  · rename_i hstart
    rw [Bool.and_eq_true] at hstart
    obtain ⟨hlong, hbound⟩ := idLengthFrom_spec h
    have hlength : (text.takeWhile isIdChar).length ≤ text.length :=
      (List.takeWhile_prefix isIdChar).length_le
    refine ⟨List.length_take_of_le (by omega), hlong, fun c hc => ?_, ?_⟩
    · have hfront : text.take n <+: text.takeWhile isIdChar :=
        List.prefix_of_prefix_length_le (List.take_prefix n text)
          (List.takeWhile_prefix isIdChar) (by rw [List.length_take]; omega)
      exact List.mem_takeWhile_imp (hfront.subset hc)
    · rw [List.head?_take, if_neg (by omega)]
      exact hstart.2
  · cases h

/-- **What is found** looks like an id and stands in the line. -/
theorem findIds_spec {skip : Nat} {before : Option Char} {line tok : PyStr}
    (h : tok ∈ findIds letter skip before line) :
    4 ≤ tok.length ∧ (∀ c ∈ tok, isIdChar c = true) ∧ tok.head?.any isAlnum = true ∧
      tok <:+: line := by
  induction line generalizing skip before with
  | nil =>
      rw [findIds] at h
      cases h
  | cons c rest ih =>
      cases skip with
      | succ skip =>
          rw [findIds] at h
          obtain ⟨hlong, hchars, hstart, hin⟩ := ih h
          exact ⟨hlong, hchars, hstart, hin.trans (List.suffix_cons c rest).isInfix⟩
      | zero =>
          rw [findIds] at h
          cases hlength : idLength letter before (c :: rest) with
          | none =>
              rw [hlength] at h
              obtain ⟨hlong, hchars, hstart, hin⟩ := ih h
              exact ⟨hlong, hchars, hstart, hin.trans (List.suffix_cons c rest).isInfix⟩
          | some n =>
              rw [hlength] at h
              rcases List.mem_cons.mp h with heq | hrest
              · obtain ⟨htake, hlong, hchars, hstart⟩ := idLength_spec hlength
                rw [heq]
                exact ⟨htake.symm ▸ hlong, hchars, hstart, (List.take_prefix n _).isInfix⟩
              · obtain ⟨hlong, hchars, hstart, hin⟩ := ih hrest
                exact ⟨hlong, hchars, hstart, hin.trans (List.suffix_cons c rest).isInfix⟩

theorem idCandidates_spec {text : PyStr} {candidate : Nat × PyStr}
    (h : candidate ∈ idCandidates letter text) : 0 < candidate.1 ∧ IsSavedId candidate.2 := by
  unfold idCandidates lineCandidates at h
  obtain ⟨line, -, hline⟩ := List.mem_flatMap.mp h
  obtain ⟨tok, htok, hscore⟩ := List.mem_filterMap.mp hline
  obtain ⟨hlong, hchars, hstart, -⟩ := findIds_spec htok
  split at hscore
  · cases hscore
  · rename_i hne
    rw [← Option.some.inj hscore]
    refine ⟨by omega, hlong, hchars, hstart, ?_⟩
    unfold idScore at hne
    split at hne
    · assumption
    · exact absurd rfl hne

/-- **The loops keep the first of the best.** -/
theorem foldl_betterId (candidates : List (Nat × PyStr)) (best : Nat × Option PyStr) :
    (candidates.foldl betterId best = best ∧ ∀ c ∈ candidates, c.1 ≤ best.1) ∨
      ∃ front total tok back, candidates = front ++ (total, tok) :: back ∧
        candidates.foldl betterId best = (total, some tok) ∧ best.1 < total ∧
        (∀ c ∈ front, c.1 < total) ∧ ∀ c ∈ back, c.1 ≤ total := by
  induction candidates generalizing best with
  | nil => exact .inl ⟨rfl, by simp⟩
  | cons candidate rest ih =>
      rw [List.foldl_cons]
      unfold betterId at ih ⊢
      by_cases hbetter : best.1 < candidate.1
      · right
        rw [if_pos hbetter]
        rcases ih (candidate.1, some candidate.2) with
          ⟨hsame, hrest⟩ | ⟨front, total, tok, back, hsplit, hbest, hmore, hfront, hback⟩
        · exact ⟨[], candidate.1, candidate.2, rest, rfl, hsame, hbetter, by simp, hrest⟩
        · refine ⟨candidate :: front, total, tok, back, by rw [hsplit]; rfl, hbest,
            hbetter.trans hmore, fun c hc => ?_, hback⟩
          rcases List.mem_cons.mp hc with rfl | hin
          · exact hmore
          · exact hfront c hin
      · rw [if_neg hbetter]
        rcases ih best with
          ⟨hsame, hrest⟩ | ⟨front, total, tok, back, hsplit, hbest, hmore, hfront, hback⟩
        · refine .inl ⟨hsame, fun c hc => ?_⟩
          rcases List.mem_cons.mp hc with rfl | hin
          · exact Nat.le_of_not_lt hbetter
          · exact hrest c hin
        · refine .inr ⟨candidate :: front, total, tok, back, by rw [hsplit]; rfl, hbest, hmore,
            fun c hc => ?_, hback⟩
          rcases List.mem_cons.mp hc with rfl | hin
          · omega
          · exact hfront c hin

theorem foldl_betterId_lt {candidates : List (Nat × PyStr)} {total : Nat}
    (h : ∀ c ∈ candidates, c.1 < total) {best : Nat × Option PyStr} (hbest : best.1 < total) :
    (candidates.foldl betterId best).1 < total := by
  induction candidates generalizing best with
  | nil => exact hbest
  | cons candidate rest ih =>
      refine ih (fun c hc => h c (List.mem_cons_of_mem _ hc)) ?_
      unfold betterId
      split
      · exact h candidate List.mem_cons_self
      · exact hbest

theorem foldl_betterId_le {candidates : List (Nat × PyStr)} {best : Nat × Option PyStr}
    (h : ∀ c ∈ candidates, c.1 ≤ best.1) : candidates.foldl betterId best = best := by
  induction candidates with
  | nil => rfl
  | cons candidate rest ih =>
      have hkeep : betterId best candidate = best :=
        if_neg (Nat.not_lt_of_le (h candidate List.mem_cons_self))
      rw [List.foldl_cons, hkeep]
      exact ih fun c hc => h c (List.mem_cons_of_mem _ hc)

/-- What is parsed looks like an id. -/
theorem isSavedId_of_parse {text tok : PyStr} (h : parseSavedSessionId letter text = some tok) :
    IsSavedId tok := by
  unfold parseSavedSessionId at h
  rcases foldl_betterId (idCandidates letter text) (0, none) with
    ⟨hsame, -⟩ | ⟨front, total, tok', back, hsplit, hbest, -, -, -⟩
  · rw [hsame] at h
    cases h
  · rw [hbest] at h
    rw [← Option.some.inj h]
    refine (idCandidates_spec (?_ : (total, tok') ∈ idCandidates letter text)).2
    rw [hsplit]
    exact List.mem_append_right _ List.mem_cons_self

/-- The id in the answer to `/save`. -/
def SavedId.parse (letter : Char → Bool) (text : PyStr) : Option SavedId :=
  (parseSavedSessionId letter text).pmap (fun tok saved => ⟨tok, saved⟩)
    fun _ h => isSavedId_of_parse h

/-- Every id that is parsed may stand in a command. -/
theorem SavedId.map_text_parse (text : PyStr) :
    (SavedId.parse letter text).map SavedId.text = parseSavedSessionId letter text := by
  unfold SavedId.parse
  rw [Option.map_pmap, Option.pmap_eq_map, Option.map_id']

/-- **The saved id** is the first of the best candidates: none scores more, and those before
it score less.  It looks like an id, and there is one as soon as there is a candidate. -/
theorem saved_id_iff (text : PyStr) :
    (∀ tok, parseSavedSessionId letter text = some tok ↔
      IsSavedId tok ∧ ∃ front total back,
        idCandidates letter text = front ++ (total, tok) :: back ∧
        (∀ c ∈ front, c.1 < total) ∧ ∀ c ∈ back, c.1 ≤ total) ∧
      (parseSavedSessionId letter text = none ↔ idCandidates letter text = []) := by
  have hfound : ∀ {front : List (Nat × PyStr)} {total : Nat} {tok : PyStr}
      {back : List (Nat × PyStr)}, idCandidates letter text = front ++ (total, tok) :: back →
      (∀ c ∈ front, c.1 < total) → (∀ c ∈ back, c.1 ≤ total) →
      parseSavedSessionId letter text = some tok := by
    intro front total tok back hsplit hfront hback
    have hmem : (total, tok) ∈ idCandidates letter text := by
      rw [hsplit]
      exact List.mem_append_right _ List.mem_cons_self
    have hless : (front.foldl betterId (0, none)).1 < total :=
      foldl_betterId_lt hfront (idCandidates_spec hmem).1
    have hstep : betterId (front.foldl betterId (0, none)) (total, tok) = (total, some tok) :=
      if_pos hless
    unfold parseSavedSessionId
    rw [hsplit, List.foldl_append, List.foldl_cons, hstep, foldl_betterId_le hback]
  rcases foldl_betterId (idCandidates letter text) (0, none) with
    ⟨hsame, hnone⟩ | ⟨front, total, tok, back, hsplit, hbest, -, hfront, hback⟩
  · have hempty : idCandidates letter text = [] := by
      rw [List.eq_nil_iff_forall_not_mem]
      intro c hc
      exact absurd (idCandidates_spec hc).1 (Nat.not_lt_of_le (hnone c hc))
    have hparse : parseSavedSessionId letter text = none := by
      unfold parseSavedSessionId
      rw [hsame]
    refine ⟨fun tok => ?_, iff_of_true hparse hempty⟩
    rw [hparse, hempty]
    simp
  · have hparse := hfound hsplit hfront hback
    refine ⟨fun tok' => ⟨fun h => ?_, fun h => ?_⟩, ?_⟩
    · refine ⟨isSavedId_of_parse h, front, total, back, ?_, hfront, hback⟩
      rw [hparse] at h
      rw [← Option.some.inj h, hsplit]
    · obtain ⟨-, front', total', back', hsplit', hfront', hback'⟩ := h
      exact hfound hsplit' hfront' hback'
    · rw [hparse, hsplit]
      simp

example : parseSavedSessionId (fun _ => true)
    "[2026-11-20] wrote 12345678 bytes\nSaved session kv-9f3a2b.\n".toList =
      some "kv-9f3a2b".toList := by
  decide +kernel

end

/-! ## The texts of the prompts -/

/-- `ws_prefix`, behind the workspace. -/
def workspaceAdvice : PyStr :=
  ["\n",
    "You are operating inside this exact directory for the current task. ",
    "All file listing, searching, reading, writing, and exploration MUST target paths under it. ",
    "Ignore any paths or 'current project' mentions from history or prior context that point ",
    "elsewhere. ",
    "If your tools take a path, prefer relative paths under this root or absolute under it.\n\n"
    ].flatMap String.toList

/-- `completion_directive`. -/
def completionDirective : PyStr :=
  ["\n\n## Task Completion Requirement\n",
    "After any tool calls, exploration, directory scanning, file listings, or printing of raw ",
    "results, ",
    "you MUST continue your response (in the same turn / same generation, before you would ",
    "normally finish or yield) ",
    "with a complete, self-contained final answer that fully addresses the user's ORIGINAL ",
    "request. ",
    "Do not end the response after raw tool output, listings, or a high-level plan ",
    "announcement.\n",
    "For review, analysis, 'understand intent/state/improvements with effort and benefit ",
    "scores', or similar tasks, ",
    "structure the conclusion with clear sections in natural prose and markdown suitable for ",
    "the Codex app UI:\n",
    "- Intent of the project/folder\n",
    "- Current state (structure, key files like README.md / src/ / tests/ / docs/, maturity ",
    "from what you actually explored)\n",
    "- Potential improvements (list several; for each give a short description plus Effort: ",
    "Low/Medium/High and Benefit: Low/Medium/High scores)\n",
    "Stream any intermediate thinking or plan as normal, but the *final content you emit for ",
    "this input* must contain the synthesized completion summary with the scored sections. ",
    "The visible answer after tools/exploration must be the structured review, not just the ",
    "plan or raw scans."].flatMap String.toList

/-- `cont_prompt` of the later continuations. -/
def finalNudgePrompt : PyStr :=
  ["FINAL NUDGE - LAST GENERATION FOR THIS REQUEST. The visible response so far was ",
    "only planning or exploration setup, and it was curtailed before the actual answer. ",
    "Stop *all* further planning, meta-commentary, \"Let me...\", or new exploration ",
    "announcements. ",
    "Based on everything explored so far for the ORIGINAL request, IMMEDIATELY output ONLY ",
    "the complete self-contained structured final answer. It *must* contain at minimum the ",
    "sections:\n",
    "- Intent of the project/folder\n",
    "- Current state (structure, key files like README.md / src/ / tests/ / docs/, ",
    "maturity from what you actually explored)\n",
    "- Potential improvements (several concrete ones; for each: short description + ",
    "Effort: Low/Medium/High and Benefit: Low/Medium/High scores)\n",
    "No more plan sentences of any kind. The final visible content of *this* turn must be ",
    "exactly the scored review summary. Deliver the full structured answer with the scores now, ",
    "before your next WAITING."].flatMap String.toList

/-- `cont_prompt` of the first ones. -/
def continuePrompt : PyStr :=
  ["Continue the original task immediately. Do not emit another high-level plan. ",
    "Use list/find/read (and other tools as needed) against paths under the WORKSPACE_ROOT ",
    "established for this session. After exploration or any tool results/listings, ",
    "MUST produce (in this generation, before your next WAITING) the complete ",
    "self-contained structured final answer for the ORIGINAL user request. ",
    "For a review/analysis task include at minimum these sections in natural prose/markdown:\n",
    "- Intent of the project/folder\n",
    "- Current state (structure, key files like README.md / src/ / tests/ / docs/, ",
    "maturity from what you actually explored)\n",
    "- Potential improvements (several; for each: short description + Effort: Low/Medium/High ",
    "and Benefit: Low/Medium/High scores)\n",
    "Deliver the synthesized summary now; stream any intermediate thinking as normal. ",
    "The final output of this turn must contain the scored review, not just raw scans or plans."
    ].flatMap String.toList

/-- `force_prompt`. -/
def forcePrompt : PyStr :=
  ["STOP. Output the structured review summary for the ORIGINAL request RIGHT NOW. ",
    "Use exactly these sections (natural prose/markdown, no plans, no more tools, no echoes):\n",
    "- Intent of the project/folder\n",
    "- Current state (structure, key files like README.md / src/ / tests/ / docs/, ",
    "maturity from prior exploration of WORKSPACE_ROOT)\n",
    "- Potential improvements (several with Effort: Low/Medium/High and Benefit: ",
    "Low/Medium/High)\n",
    "This is the visible final answer. Emit it before WAITING."].flatMap String.toList

/-- The text of an extra prompt. -/
def extraPromptText : ExtraPrompt → PyStr
  | .goOn => continuePrompt
  | .finalNudge => finalNudgePrompt
  | .force => forcePrompt

/-! ## What is written -/

/-- What the session writes: a prompt, the command for saving, or the one for going back to
what was saved. -/
inductive SessionCommand
  | prompt (text : PyStr)
  | save
  | switch (sha : SavedId)

/-- The line of a command: `one_line` of a prompt. -/
def SessionCommand.line : SessionCommand → PyStr
  | .prompt text => unwords ' ' (PyStr.split text)
  | .save => "/save".toList
  | .switch sha => "/switch ".toList ++ sha.text

/-- The bytes that a command writes to the standard input of the agent. -/
def SessionCommand.payload (c : SessionCommand) : Bytes :=
  (c.line ++ ['\n']).flatMap String.utf8EncodeChar

/-- What the agent is to read. -/
def SessionCommand.words : SessionCommand → List PyStr
  | .prompt text => PyStr.split text
  | .save => ["/save".toList]
  | .switch sha => ["/switch".toList, sha.text]

/-- An agent that reads its input line by line: the words of every line, and the bytes of
a line that has not ended. -/
def agentReads (stdin : Bytes) : List (List PyStr) × Bytes :=
  ((takeLines 10 stdin).1.map fun line => PyStr.split (decode line), (takeLines 10 stdin).2)

theorem split_eq_words (text : PyStr) : PyStr.split text = words isPySpace text := rfl

/-- The characters of an id are no blanks. -/
theorem isPySpace_of_isIdChar {c : Char} (h : isIdChar c = true) : isPySpace c = false := by
  have hrange : 45 ≤ c.toNat ∧ c.toNat ≤ 122 := by
    have hbetween : ∀ {low high : Char}, c.val ≥ low.val ∧ c.val ≤ high.val →
        45 ≤ low.toNat → high.toNat ≤ 122 → 45 ≤ c.toNat ∧ c.toNat ≤ 122 :=
      fun h hlow hhigh => ⟨hlow.trans (UInt32.le_iff_toNat_le.mp h.1),
        (UInt32.le_iff_toNat_le.mp h.2).trans hhigh⟩
    simp only [isIdChar, isAlnum, Bool.or_eq_true, beq_iff_eq] at h
    rcases h with ((halnum | rfl) | rfl) | rfl
    · rcases (Bool.or_eq_true _ _).mp (show (c.isAlpha || c.isDigit) = true from halnum) with
        halpha | hdigit
      · rcases (Bool.or_eq_true _ _).mp (show (c.isUpper || c.isLower) = true from halpha) with
          hupper | hlower
        · exact hbetween (of_decide_eq_true hupper) (by decide) (by decide)
        · exact hbetween ((Bool.and_eq_true_iff.mp hlower).imp of_decide_eq_true of_decide_eq_true)
            (by decide) (by decide)
      · exact hbetween ((Bool.and_eq_true_iff.mp hdigit).imp of_decide_eq_true of_decide_eq_true)
          (by decide) (by decide)
    · decide
    · decide
    · decide
  obtain ⟨hlow, hhigh⟩ := hrange
  simp only [isPySpace, Bool.or_eq_false_iff, Bool.and_eq_false_iff, decide_eq_false_iff_not,
    beq_eq_false_iff_ne]
  omega

/-- A saved id is a word. -/
theorem SavedId.isWord (sha : SavedId) : Words.IsWord isPySpace sha.text where
  ne_nil := by
    intro hnil
    have hlong := sha.saved.long
    rw [hnil] at hlong
    exact absurd hlong (by decide)
  not_blank := fun c hc => isPySpace_of_isIdChar (sha.saved.chars c hc)

/-- **The line has the words**, and is one line. -/
theorem SessionCommand.line_spec (c : SessionCommand) :
    PyStr.split c.line = c.words ∧ '\n' ∉ c.line := by
  cases c with
  | prompt text =>
      have hwords : ∀ word ∈ PyStr.split text, Words.IsWord isPySpace word :=
        fun word hword => isWord_of_mem_words hword
      refine ⟨words_unwords (by decide) hwords, fun hmem => ?_⟩
      rcases mem_unwords hmem with hsep | ⟨word, hword, hin⟩
      · exact absurd hsep (by decide)
      · exact absurd ((hwords word hword).not_blank _ hin) (by decide)
  | save => exact ⟨by decide, by decide⟩
  | switch sha =>
      have hsave : Words.words isPySpace "/switch".toList = ["/switch".toList] := by decide
      have hline : "/switch ".toList ++ sha.text = "/switch".toList ++ ' ' :: sha.text := rfl
      refine ⟨?_, fun hmem => ?_⟩
      · show Words.words isPySpace ("/switch ".toList ++ sha.text) = ["/switch".toList, sha.text]
        rw [hline, words_append_cons (by decide), words_of_isWord sha.isWord, hsave]
        rfl
      · rcases List.mem_append.mp hmem with hfront | hback
        · exact absurd hfront (by decide)
        · exact absurd (sha.isWord.not_blank _ hback) (by decide)

/-- A line feed stands in no other character. -/
theorem feed_mem_of_encoded {text : PyStr} (h : 10 ∈ text.flatMap String.utf8EncodeChar) :
    '\n' ∈ text := by
  obtain ⟨front, rest, hsplit⟩ := List.append_of_mem h
  have hdecode := decode_encoded text
  have hstarts : Starts (10 :: rest) := by
    intro b hb
    rw [← Option.some.inj hb]
    decide
  rw [hsplit, decode_cut hstarts, decode_ascii_cons (by decide)] at hdecode
  rw [← hdecode]
  exact List.mem_append_right _ List.mem_cons_self

/-- **The agent reads what was written.**  Whatever commands a session is given, its agent
finds one line for each of them, with the words that were to be read, and nothing behind. -/
theorem agent_reads_commands (commands : List SessionCommand) :
    agentReads (commands.flatMap SessionCommand.payload) =
      (commands.map SessionCommand.words, []) := by
  unfold agentReads
  induction commands with
  | nil => rfl
  | cons c rest ih =>
      obtain ⟨hwords, hline⟩ := c.line_spec
      have hfeed : 10 ∉ c.line.flatMap String.utf8EncodeChar := fun hmem =>
        hline (feed_mem_of_encoded hmem)
      have hpayload : c.payload = c.line.flatMap String.utf8EncodeChar ++ [10] := by
        unfold SessionCommand.payload
        rw [List.flatMap_append]
        rfl
      have hdecode : decode (c.line.flatMap String.utf8EncodeChar ++ [10]) = c.line ++ ['\n'] := by
        rw [← hpayload]
        exact decode_encoded _
      have hsplit : PyStr.split (c.line ++ ['\n']) = c.words := by
        rw [split_eq_words, words_append_cons (by decide), words_nil, List.append_nil,
          ← split_eq_words, hwords]
      obtain ⟨hlines, hleft⟩ := Prod.mk.inj ih
      rw [List.flatMap_cons, hpayload, List.append_assoc, List.singleton_append,
        takeLines_line hfeed, hleft]
      dsimp only
      rw [List.map_cons, List.map_cons, hlines, hdecode, hsplit]

/-! ## The lines of a request -/

/-- What of a request frame decides on its own prompt, besides `WrapperRequest`. -/
structure SessionTag where
  resetSession : Bool
  previousResponseId : PyStr

/-- `base`. -/
def basePrompt (tag : SessionTag) (input : PyStr) : PyStr :=
  if tag.resetSession then "[Session: new]\n".toList ++ input
  else if tag.previousResponseId ≠ [] then
    "[Session: ".toList ++ (tag.previousResponseId ++ ("]\n".toList ++ input))
  else input

/-- The prompt of the request itself, with `ws` for the workspace of the bridge. -/
def requestPrompt (tag : SessionTag) (input workspaceRoot : PyStr) : PyStr :=
  let request : WrapperRequest := ⟨some input, workspaceRoot⟩
  let ws := if workspaceRoot = [] then ['.'] else workspaceRoot
  let prompt :=
    if ws ≠ ['.'] ∧ replyExactly request = false then
      "WORKSPACE_ROOT=".toList ++ (ws ++ (workspaceAdvice ++ basePrompt tag input))
    else basePrompt tag input
  if reviewTask request then prompt ++ completionDirective else prompt

/-- The commands of a request: its own prompt, and the extra ones that the answers of the
agent call for. -/
def requestCommands (tag : SessionTag) (input workspaceRoot : PyStr)
    (agent : Nat → PromptResult) : Option (List SessionCommand) :=
  (answerRequest ⟨some input, workspaceRoot⟩ agent).map fun answer =>
    .prompt (requestPrompt tag input workspaceRoot) ::
      answer.prompts.map fun p => .prompt (extraPromptText p)

/-- The line is a command to the agent. -/
def SlashLine (line : PyStr) : Prop := line.head? = some '/'

/-- The line of a prompt begins like the prompt. -/
theorem slashLine_prompt_iff (text : PyStr) :
    SlashLine (SessionCommand.prompt text).line ↔ (text.dropWhile isPySpace).head? = some '/' := by
  show (unwords ' ' (words isPySpace text)).head? = some '/' ↔ _
  rw [head?_unwords_words]

/-- A prompt that begins with another character. -/
theorem not_slashLine_of_head? {c : Char} {text : PyStr} (h : text.head? = some c)
    (hspace : isPySpace c = false) (hslash : c ≠ '/') :
    ¬ SlashLine (SessionCommand.prompt text).line := by
  obtain ⟨rest, rfl⟩ := List.head?_eq_some_iff.mp h
  rw [slashLine_prompt_iff, List.dropWhile_cons_of_neg (by simp [hspace])]
  simpa using hslash

/-- The first piece of a text of several. -/
theorem flatMap_toList_cons {s : String} {cs : List Char} (h : s = String.ofList cs)
    (rest : List String) :
    (s :: rest).flatMap String.toList = cs ++ rest.flatMap String.toList := by
  rw [List.flatMap_cons, h, String.toList_ofList]

theorem head?_flatMap_toList {s : String} {c : Char} {cs : List Char}
    (h : s = String.ofList (c :: cs)) (rest : List String) :
    ((s :: rest).flatMap String.toList).head? = some c := by
  rw [flatMap_toList_cons h]
  rfl

theorem not_slashLine_extraPrompt (p : ExtraPrompt) :
    ¬ SlashLine (SessionCommand.prompt (extraPromptText p)).line := by
  cases p with
  | goOn =>
      have hhead : continuePrompt.head? = some 'C' := head?_flatMap_toList rfl _
      exact not_slashLine_of_head? hhead (by decide) (by decide)
  | finalNudge =>
      have hhead : finalNudgePrompt.head? = some 'F' := head?_flatMap_toList rfl _
      exact not_slashLine_of_head? hhead (by decide) (by decide)
  | force =>
      have hhead : forcePrompt.head? = some 'S' := head?_flatMap_toList rfl _
      exact not_slashLine_of_head? hhead (by decide) (by decide)

/-- What stands behind a text that is no blank line does not matter. -/
theorem slashLine_append_iff {text behind : PyStr} {c : Char}
    (h : (behind.dropWhile isPySpace).head? = some c) (hslash : c ≠ '/') :
    ((text ++ behind).dropWhile isPySpace).head? = some '/' ↔
      (text.dropWhile isPySpace).head? = some '/' := by
  induction text with
  | nil =>
      rw [List.nil_append, h]
      simpa using hslash
  | cons d text ih =>
      cases hd : isPySpace d with
      | true =>
          rw [List.cons_append, List.dropWhile_cons_of_pos hd, List.dropWhile_cons_of_pos hd, ih]
      | false =>
          rw [List.cons_append, List.dropWhile_cons_of_neg (by simp [hd]),
            List.dropWhile_cons_of_neg (by simp [hd])]
          rfl

/-- The workspace is not put in front of the input. -/
def Bare (input workspaceRoot : PyStr) : Prop :=
  workspaceRoot = [] ∨ workspaceRoot = ['.'] ∨ replyExactly ⟨some input, workspaceRoot⟩ = true

theorem slashLine_basePrompt_iff (tag : SessionTag) (input : PyStr) :
    SlashLine (SessionCommand.prompt (basePrompt tag input)).line ↔
      tag.resetSession = false ∧ tag.previousResponseId = [] ∧
        (input.dropWhile isPySpace).head? = some '/' := by
  unfold basePrompt
  split
  · rename_i hreset
    exact iff_of_false (not_slashLine_of_head? (c := '[') rfl (by decide) (by decide))
      fun h => by simp [hreset] at h
  · rename_i hreset
    split
    · rename_i hprevious
      exact iff_of_false (not_slashLine_of_head? (c := '[') rfl (by decide) (by decide))
        fun h => hprevious h.2.1
    · rename_i hprevious
      rw [slashLine_prompt_iff]
      simp only [Bool.not_eq_true] at hreset
      rw [not_not] at hprevious
      simp [hreset, hprevious]

theorem head?_completionDirective :
    (completionDirective.dropWhile isPySpace).head? = some '#' := by
  have hfirst : ∃ rest, completionDirective = '\n' :: '\n' :: '#' :: rest :=
    ⟨_, flatMap_toList_cons rfl _⟩
  obtain ⟨rest, hrest⟩ := hfirst
  rw [hrest]
  rfl

theorem slashLine_requestPrompt_iff (tag : SessionTag) (input workspaceRoot : PyStr) :
    SlashLine (SessionCommand.prompt (requestPrompt tag input workspaceRoot)).line ↔
      Bare input workspaceRoot ∧ tag.resetSession = false ∧ tag.previousResponseId = [] ∧
        (input.dropWhile isPySpace).head? = some '/' := by
  have hreview : ∀ (review : Bool) (prompt : PyStr),
      SlashLine (SessionCommand.prompt
          (if review = true then prompt ++ completionDirective else prompt)).line ↔
        SlashLine (SessionCommand.prompt prompt).line := by
    intro review prompt
    cases review with
    | false => rfl
    | true =>
        rw [if_pos rfl, slashLine_prompt_iff, slashLine_prompt_iff,
          slashLine_append_iff head?_completionDirective (by decide)]
  have hws : (if workspaceRoot = [] then ['.'] else workspaceRoot) ≠ ['.'] ∧
      replyExactly ⟨some input, workspaceRoot⟩ = false ↔ ¬ Bare input workspaceRoot := by
    unfold Bare
    by_cases hempty : workspaceRoot = []
    · simp [hempty]
    · simp [hempty]
  unfold requestPrompt
  dsimp only
  rw [hreview]
  by_cases hbare : Bare input workspaceRoot
  · rw [if_neg fun h => hws.mp h hbare, slashLine_basePrompt_iff]
    simp [hbare]
  · rw [if_pos (hws.mpr hbare)]
    exact iff_of_false (not_slashLine_of_head? (c := 'W') rfl (by decide) (by decide))
      fun h => hbare h.1

example : requestPrompt ⟨false, []⟩ "/switch kv-9f3a2b, then reply exactly ok".toList
    "/work".toList = "/switch kv-9f3a2b, then reply exactly ok".toList := by
  decide +kernel

end StarBridge
