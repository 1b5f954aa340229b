import StarBridge.Marking
import StarBridge.Redaction

/-!
# What redaction writes

Both redactors move the rest of the text behind a marker of ten bytes without
looking at the size of the buffer, so a secret shorter than the marker makes the
text longer.  `redactLineWrites` and `redactKeyWrites` say how far each
replacement writes; the rest is read off `Marking`, of which the two redactors
are instances: one marks lines from a needle on, the other what stands behind
`KEY=` up to a delimiter.

`redaction_iff` says when all writes stay within the buffer: when the text fits
at every needle and after every line (or word), as far as it is cut off there.
The other two properties hold of every text.
-/

namespace StarBridge

open CText Marking

/-! ## How far the replacements write -/

/-- Where `redact_line_value` stops writing in each replacement: one behind the
terminator that `memmove` brings along.  The text searched starts at `offset`. -/
def redactLineWrites (needle : Bytes) : Nat → Nat → Bytes → List Nat
  | 0, _, _ => []
  | fuel + 1, offset, text =>
      match after needle text with
      | none => []
      | some rest =>
          let p := offset + (before needle text).length
          let lineEnd := rest.dropWhile inLine
          (p + redacted.length + lineEnd.length + 1) ::
            redactLineWrites needle fuel (p + redacted.length) lineEnd

/-- The same for some needles in turn. -/
def redactTextWrites : List Bytes → Bytes → List Nat
  | [], _ => []
  | needle :: rest, text =>
      redactLineWrites needle text.length 0 text ++
        redactTextWrites rest (redactLineValue needle text)

/-- Where `debug_trace_redact_text` stops writing in each replacement. -/
def debugTraceWrites (text : Bytes) : List Nat := redactTextWrites needles text

/-- Where `redact_key_value` stops writing in each replacement. -/
def redactKeyWrites (key : Bytes) : Nat → Nat → Bytes → List Nat
  | 0, _, _ => []
  | fuel + 1, offset, text =>
      match after key text with
      | none => []
      | some [] => []
      | some (c :: rest) =>
          let value := offset + (before key text).length + key.length
          if c = 61 then
            let tail := rest.dropWhile inValue
            (value + 1 + redacted.length + tail.length + 1) ::
              redactKeyWrites key fuel (value + 1 + redacted.length) tail
          else redactKeyWrites key fuel value (c :: rest)

/-- The keys of `tool_runner_redact_secrets`, in order. -/
def secretKeys : List Bytes := [lit "GOOGLE_SEARCH_API_KEY", lit "GOOGLE_SEARCH_CX"]

/-- Where `tool_runner_redact_secrets` stops writing in each replacement. -/
def toolRunnerWrites (text : Bytes) : List Nat :=
  redactKeyWrites (lit "GOOGLE_SEARCH_API_KEY") text.length 0 text ++
    redactKeyWrites (lit "GOOGLE_SEARCH_CX")
      (redactKeyValue (lit "GOOGLE_SEARCH_API_KEY") text).length 0
      (redactKeyValue (lit "GOOGLE_SEARCH_API_KEY") text)

/-- What `debug_trace_redact_text` owes a text in a buffer of `n` bytes. -/
structure TraceRedaction (n : Nat) (text : Bytes) : Prop where
  inBounds : ∀ stop ∈ debugTraceWrites text, stop ≤ n
  removed : ∀ needle ∈ needles, ¬ needle <:+: debugTraceRedactText text
  idempotent : debugTraceRedactText (debugTraceRedactText text) = debugTraceRedactText text

/-- What `tool_runner_redact_secrets` owes a text in a buffer of `n` bytes:
behind each `KEY=` stands the marker and then a delimiter or the end. -/
structure ToolRedaction (n : Nat) (text : Bytes) : Prop where
  inBounds : ∀ stop ∈ toolRunnerWrites text, stop ≤ n
  removed : ∀ key ∈ secretKeys, ∀ front back,
    toolRunnerRedactSecrets text = front ++ (key ++ [61]) ++ back →
      ∃ rest, back = redacted ++ rest ∧ ∀ c ∈ rest.head?, inValue c = false
  idempotent :
    toolRunnerRedactSecrets (toolRunnerRedactSecrets text) = toolRunnerRedactSecrets text

/-! ## The two redactors -/

/-- A pass of `redact_line_value`. -/
def linePass (needle : Bytes) : Pass UInt8 := ⟨needle, false⟩

/-- A pass of `redact_key_value`. -/
def keyPass (key : Bytes) : Pass UInt8 := ⟨key ++ [61], true⟩

/-- A pattern that a redactor can have, decided byte by byte. -/
def fitPattern (inside : UInt8 → Bool) (pattern : Bytes) : Bool :=
  !pattern.isEmpty && pattern.all inside && !pattern.contains 91 &&
    !decide (pattern <:+: lit "redacted]")

theorem of_fitPattern {inside : UInt8 → Bool} {pattern : Bytes}
    (h : fitPattern inside pattern = true) :
    pattern ≠ [] ∧ (∀ c ∈ pattern, inside c = true) ∧ (91 : UInt8) ∉ pattern ∧
      ¬ pattern <:+: lit "redacted]" := by
  simpa [fitPattern, and_assoc] using h

theorem needles_inLine :
    ∀ p ∈ needles.map linePass, p.pattern ≠ [] ∧ (∀ c ∈ p.pattern, inLine c = true) ∧
      (91 : UInt8) ∉ p.pattern ∧ ¬ p.pattern <:+: lit "redacted]" := by
  have hall : ((needles.map linePass).all fun p => fitPattern inLine p.pattern) = true := by
    decide
  exact fun p hp => of_fitPattern (List.all_eq_true.mp hall p hp)

theorem secretKeys_inValue :
    ∀ p ∈ secretKeys.map keyPass, p.pattern ≠ [] ∧ (∀ c ∈ p.pattern, inValue c = true) ∧
      (91 : UInt8) ∉ p.pattern ∧ ¬ p.pattern <:+: lit "redacted]" := by
  have hall : ((secretKeys.map keyPass).all fun p => fitPattern inValue p.pattern) = true := by
    decide
  exact fun p hp => of_fitPattern (List.all_eq_true.mp hall p hp)

theorem redacted_inside : ∀ c ∈ redacted, inLine c = true ∧ inValue c = true := by
  have hall : (redacted.all fun c => inLine c && inValue c) = true := by decide
  exact fun c hc => Bool.and_eq_true_iff.mp (List.all_eq_true.mp hall c hc)

theorem redacted_eq : redacted = 91 :: lit "redacted]" := by decide

/-- `debug_trace_redact_text` marks lines from a needle on. -/
def traceRedactor : Redactor UInt8 where
  inside := inLine
  mark := redacted
  passes := needles.map linePass
  pattern_ne p hp := (needles_inLine p hp).1
  pattern_inside p hp := (needles_inLine p hp).2.1
  mark_inside c hc := (redacted_inside c hc).1
  apart p hp _ _ _ h := by
    rw [redacted_eq] at h
    exact apart_of_opener (needles_inLine p hp).2.2.1 (needles_inLine p hp).2.2.2 h

/-- `tool_runner_redact_secrets` marks words from behind `KEY=` on. -/
def toolRedactor : Redactor UInt8 where
  inside := inValue
  mark := redacted
  passes := secretKeys.map keyPass
  pattern_ne p hp := (secretKeys_inValue p hp).1
  pattern_inside p hp := (secretKeys_inValue p hp).2.1
  mark_inside c hc := (redacted_inside c hc).2
  apart p hp _ _ _ h := by
    rw [redacted_eq] at h
    exact apart_of_opener (secretKeys_inValue p hp).2.2.1 (secretKeys_inValue p hp).2.2.2 h

/-- The first replacement of a line pass. -/
theorem step_linePass (needle text : Bytes) :
    traceRedactor.step (linePass needle) text =
      (after needle text).map fun rest =>
        (before needle text ++ redacted, rest.dropWhile inLine) := by
  have hshown : (linePass needle).shown = [] := rfl
  unfold Redactor.step
  rw [hshown, List.append_nil]
  rfl

theorem redactLineFrom_eq (needle : Bytes) (fuel : Nat) (text : Bytes) :
    redactLineFrom needle fuel text =
      traceRedactor.runFrom (linePass needle) fuel text := by
  induction fuel generalizing text with
  | zero => rfl
  | succ fuel ih =>
      rw [redactLineFrom, Redactor.runFrom, step_linePass]
      cases after needle text with
      | none => rfl
      | some rest =>
          dsimp only [Option.map_some]
          rw [ih]

theorem redactLineWrites_eq (needle : Bytes) (fuel offset : Nat) (text : Bytes) :
    redactLineWrites needle fuel offset text =
      traceRedactor.sizesFrom (linePass needle) fuel offset text := by
  induction fuel generalizing offset text with
  | zero => rfl
  | succ fuel ih =>
      rw [redactLineWrites, Redactor.sizesFrom, step_linePass]
      cases after needle text with
      | none => rfl
      | some rest =>
          dsimp only [Option.map_some]
          rw [ih, List.length_append, ← Nat.add_assoc]

/-- `debug_trace_redact_text` makes the passes of its needles. -/
theorem debugTraceRedactText_eq (text : Bytes) :
    debugTraceRedactText text = traceRedactor.runAll traceRedactor.passes text := by
  unfold debugTraceRedactText Redactor.runAll traceRedactor
  rw [List.foldl_map]
  congr 1
  funext text needle
  exact redactLineFrom_eq needle text.length text

theorem debugTraceWrites_eq (text : Bytes) :
    debugTraceWrites text = traceRedactor.sizesAll traceRedactor.passes text := by
  have hall : ∀ (list : List Bytes) (text : Bytes), redactTextWrites list text =
      traceRedactor.sizesAll (list.map linePass) text := by
    intro list
    induction list with
    | nil => exact fun _ => rfl
    | cons needle list ih =>
        intro text
        rw [redactTextWrites, redactLineWrites_eq, ih, redactLineValue, redactLineFrom_eq]
        rfl
  exact hall needles text

/-! ## Keys that are not followed by `=` -/

/-- No proper end of the key is a beginning of it. -/
def Solid (key : Bytes) : Prop := ∀ d, 0 < d → d < key.length → ¬ key.drop d <+: key

/-- Where the key is not followed by `=`, no `KEY=` starts up to its end. -/
theorem search_past_key {key text rest : Bytes} (hsolid : Solid key)
    (hafter : after key text = some rest) (hnot : rest.head? ≠ some 61) :
    after (key ++ [61]) text = after (key ++ [61]) rest ∧
      before (key ++ [61]) text = before key text ++ key ++ before (key ++ [61]) rest := by
  have hcut := before_append_after hafter
  have hnone : ∀ k < (before key text ++ key).length,
      ¬ key ++ [61] <+: (before key text ++ key ++ rest).drop k := by
    intro k hk hpre
    have hkey : key <+: (before key text ++ key ++ rest).drop k :=
      (List.prefix_append key [61]).trans hpre
    obtain ⟨back, hback⟩ := hkey
    rw [hcut] at hback
    have hfront := length_before_le
      (show text = text.take k ++ key ++ back by
        rw [List.append_assoc, hback, List.take_append_drop])
    rw [List.length_take] at hfront
    rw [List.length_append] at hk
    obtain ⟨d, rfl⟩ := Nat.exists_eq_add_of_le (Nat.le_trans hfront (Nat.min_le_left _ _))
    have hdrop : (before key text ++ key ++ rest).drop ((before key text).length + d) =
        key.drop d ++ rest := by
      rw [List.append_assoc, ← List.drop_drop, List.drop_left,
        List.drop_append_of_le_length (by omega)]
    rw [hdrop] at hpre
    rcases Nat.eq_zero_or_pos d with rfl | hpos
    · rw [List.drop_zero] at hpre
      have hnext := (List.prefix_append_right_inj key).mp hpre
      obtain ⟨more, rfl⟩ := hnext
      exact hnot rfl
    · refine hsolid d hpos (by omega) ?_
      refine List.prefix_of_prefix_length_le (List.prefix_append _ rest)
        ((List.prefix_append key [61]).trans hpre) ?_
      rw [List.length_drop]
      omega
  have hskip := after_skip (show ∀ back, back <:+ before key text ++ key → back ≠ [] →
      ¬ key ++ [61] <+: back ++ rest by
    intro back hback hne hpre
    have hpos := List.length_pos_of_ne_nil hne
    have hle := hback.length_le
    refine hnone ((before key text ++ key).length - back.length) (by omega) ?_
    rw [List.drop_append_of_le_length (by omega), ← List.suffix_iff_eq_drop.mp hback]
    exact hpre)
  rw [hcut] at hskip
  exact hskip

/-- Where it is, `KEY=` is found there. -/
theorem search_at_key {key text rest : Bytes} (hafter : after key text = some (61 :: rest)) :
    after (key ++ [61]) text = some rest ∧ before (key ++ [61]) text = before key text := by
  have hcut := before_append_after hafter
  have hwhole : text = before key text ++ (key ++ [61]) ++ rest :=
    hcut.symm.trans (by simp only [List.append_assoc, List.singleton_append])
  have hoccurs : occurs (key ++ [61]) text = true :=
    (occurs_iff _ _).mpr ⟨before key text, rest, hwhole.symm⟩
  obtain ⟨rest', hrest'⟩ := Option.isSome_iff_exists.mp hoccurs
  have hcut' := before_append_after hrest'
  have hlate := length_before_le hwhole
  have hearly := length_before_le
    (show text = before (key ++ [61]) text ++ key ++ ([61] ++ rest') by
      rw [List.append_assoc, ← List.append_assoc key, ← List.append_assoc, hcut'])
  have hlength := Nat.le_antisymm hlate hearly
  have hsame := List.append_inj (hcut'.trans hwhole) (by
    simp only [List.length_append, hlength])
  have hsame' := List.append_inj hsame.1 hlength
  exact ⟨by rw [hrest', hsame.2], hsame'.1⟩

/-! ## The tool runner's passes -/

theorem secretKeys_solid : ∀ key ∈ secretKeys, Solid key := by
  intro key hkey d hpos hlt
  have hall : ∀ key ∈ secretKeys, ∀ d < key.length, 0 < d → ¬ key.drop d <+: key := by
    decide
  exact hall key hkey d hlt hpos

/-- The first replacement of a key pass. -/
theorem step_keyPass (key text : Bytes) :
    toolRedactor.step (keyPass key) text =
      (after (key ++ [61]) text).map fun rest =>
        (before (key ++ [61]) text ++ (key ++ [61]) ++ redacted, rest.dropWhile inValue) := rfl

/-- A pass for `KEY=` goes over a key that is not followed by `=`. -/
theorem run_past_key {key text rest : Bytes} (hkey : key ∈ secretKeys)
    (hafter : after key text = some rest) (hnext : rest.head? ≠ some 61) :
    toolRedactor.run (keyPass key) text =
        before key text ++ key ++ toolRedactor.run (keyPass key) rest ∧
      ∀ offset, toolRedactor.sizes (keyPass key) offset text =
        toolRedactor.sizes (keyPass key) (offset + (before key text).length + key.length)
          rest := by
  have hne := toolRedactor.pattern_ne _ (List.mem_map_of_mem hkey : keyPass key ∈ _)
  obtain ⟨hafter', hbefore'⟩ := search_past_key (secretKeys_solid key hkey) hafter hnext
  cases hsearch : after (key ++ [61]) rest with
  | none =>
      obtain ⟨hrun, hsizes⟩ := toolRedactor.run_of_none
        (show toolRedactor.step (keyPass key) text = none by
          rw [step_keyPass, hafter', hsearch]
          rfl)
      obtain ⟨hrun', hsizes'⟩ := toolRedactor.run_of_none
        (show toolRedactor.step (keyPass key) rest = none by
          rw [step_keyPass, hsearch]
          rfl)
      have hcut := before_append_after hafter
      exact ⟨by rw [hrun, hrun', hcut], fun offset => by rw [hsizes, hsizes']⟩
  | some value =>
      obtain ⟨hrun, hsizes⟩ := toolRedactor.run_of_some hne
        (show toolRedactor.step (keyPass key) text = some _ by
          rw [step_keyPass, hafter', hbefore', hsearch]
          rfl)
      obtain ⟨hrun', hsizes'⟩ := toolRedactor.run_of_some hne
        (show toolRedactor.step (keyPass key) rest = some _ by
          rw [step_keyPass, hsearch]
          rfl)
      refine ⟨by rw [hrun, hrun']; simp only [List.append_assoc], fun offset => ?_⟩
      rw [hsizes, hsizes']
      simp only [List.length_append, Nat.add_assoc]

/-- The loop of `redact_key_value` is a pass for `KEY=`. -/
theorem redactKeyFrom_eq {key : Bytes} (hkey : key ∈ secretKeys) (fuel : Nat) (text : Bytes)
    (hfuel : text.length ≤ fuel) :
    redactKeyFrom key fuel text = toolRedactor.run (keyPass key) text ∧
      ∀ offset, redactKeyWrites key fuel offset text =
        toolRedactor.sizes (keyPass key) offset text := by
  have hpass : keyPass key ∈ toolRedactor.passes := List.mem_map_of_mem hkey
  have hne := toolRedactor.pattern_ne _ hpass
  induction fuel generalizing text with
  | zero =>
      obtain rfl := List.length_eq_zero_iff.mp (Nat.le_zero.mp hfuel)
      exact ⟨rfl, fun _ => rfl⟩
  | succ fuel ih =>
      unfold redactKeyFrom redactKeyWrites
      cases hafter : after key text with
      | none =>
          have hnone : toolRedactor.step (keyPass key) text = none := by
            rw [step_keyPass, Option.map_eq_none_iff]
            refine Option.not_isSome_iff_eq_none.mp fun hsome => ?_
            have hinfix := (occurs_iff (key ++ [61]) text).mp hsome
            have hoccurs := (occurs_iff key text).mpr
              ((List.prefix_append key [61]).isInfix.trans hinfix)
            rw [occurs, hafter] at hoccurs
            cases hoccurs
          obtain ⟨hrun, hsizes⟩ := toolRedactor.run_of_none hnone
          exact ⟨hrun.symm, fun offset => (hsizes offset).symm⟩
      | some rest =>
          have hcut := before_append_after hafter
          have hlength := congrArg List.length hcut
          simp only [List.length_append] at hlength
          have hpos : 0 < key.length := List.length_pos_of_ne_nil fun hnil => by
            revert hkey
            rw [hnil]
            decide
          by_cases hnext : rest.head? = some 61
          · obtain ⟨value, rfl⟩ : ∃ value, rest = 61 :: value := by
              cases rest with
              | nil => cases hnext
              | cons c value => exact ⟨value, by rw [Option.some.inj hnext]⟩
            obtain ⟨hafter', hbefore'⟩ := search_at_key hafter
            have hstep : toolRedactor.step (keyPass key) text =
                some (before key text ++ (key ++ [61]) ++ redacted, value.dropWhile inValue) := by
              rw [step_keyPass, hafter', hbefore', Option.map_some]
            have hle := (List.dropWhile_sublist (p := inValue) (l := value)).length_le
            obtain ⟨hrest, hrestSizes⟩ := ih (value.dropWhile inValue) (by
              simp only [List.length_cons] at hlength
              omega)
            obtain ⟨hrun, hsizes⟩ := toolRedactor.run_of_some hne hstep
            rw [hrun]
            dsimp only
            rw [if_pos rfl, hrest]
            refine ⟨by simp only [List.append_assoc], fun offset => ?_⟩
            have hoffset : offset + (before key text).length + key.length + 1 +
                redacted.length =
                  offset + (before key text ++ (key ++ [61]) ++ redacted).length := by
              simp only [List.length_append, List.length_singleton]
              omega
            rw [hsizes, if_pos rfl, hrestSizes, hoffset]
          · obtain ⟨hrest, hrestSizes⟩ := ih rest (by omega)
            have hpast := run_past_key hkey hafter hnext
            rw [hpast.1]
            cases rest with
            | nil =>
                have hnil : toolRedactor.run (keyPass key) [] = [] := rfl
                have hnil' : ∀ offset, toolRedactor.sizes (keyPass key) offset [] = [] :=
                  fun _ => rfl
                dsimp only
                rw [hnil, List.append_nil]
                rw [List.append_nil] at hcut
                exact ⟨hcut.symm, fun offset => by rw [hpast.2, hnil']⟩
            | cons c rest =>
                have hc : c ≠ 61 := fun heq => hnext (by rw [heq]; rfl)
                dsimp only
                rw [if_neg hc, hrest]
                refine ⟨rfl, fun offset => ?_⟩
                rw [if_neg hc, hpast.2, hrestSizes]

theorem toolRunnerRedactSecrets_eq (text : Bytes) :
    toolRunnerRedactSecrets text = toolRedactor.runAll toolRedactor.passes text ∧
      toolRunnerWrites text = toolRedactor.sizesAll toolRedactor.passes text := by
  have hapi : lit "GOOGLE_SEARCH_API_KEY" ∈ secretKeys := List.mem_cons_self
  have hcx : lit "GOOGLE_SEARCH_CX" ∈ secretKeys :=
    List.mem_cons_of_mem _ List.mem_cons_self
  obtain ⟨hrun, hsizes⟩ := redactKeyFrom_eq hapi text.length text (Nat.le_refl _)
  have hfirst : redactKeyValue (lit "GOOGLE_SEARCH_API_KEY") text =
      toolRedactor.run (keyPass (lit "GOOGLE_SEARCH_API_KEY")) text := hrun
  obtain ⟨hrun', hsizes'⟩ := redactKeyFrom_eq hcx _
    (toolRedactor.run (keyPass (lit "GOOGLE_SEARCH_API_KEY")) text) (Nat.le_refl _)
  unfold toolRunnerRedactSecrets toolRunnerWrites
  rw [hfirst, hsizes, hsizes']
  exact ⟨hrun', congrArg _ (List.append_nil _).symm⟩

/-! ## Redaction -/

/-- The trace's redaction keeps its promise exactly on the texts that fit. -/
theorem traceRedaction_iff {n : Nat} {text : Bytes} (hsize : text.length < n) :
    TraceRedaction n text ↔ traceRedactor.Fits n text := by
  have hbounds := traceRedactor.sizesAll_le_iff_fits (n := n) hsize
  rw [← debugTraceWrites_eq] at hbounds
  constructor
  · intro h
    exact hbounds.mp h.inBounds
  · intro hfits
    exact
      { inBounds := hbounds.mpr hfits
        removed := fun needle hneedle hinfix => by
          obtain ⟨front, back, hcut⟩ := hinfix
          rw [debugTraceRedactText_eq] at hcut
          have hbehind := traceRedactor.behind_pattern
            (List.mem_map_of_mem hneedle : linePass needle ∈ traceRedactor.passes) hcut.symm
          cases hbehind.1
        idempotent := by
          simp only [debugTraceRedactText_eq, traceRedactor.runAll_runAll] }

/-- The tool runner's redaction keeps its promise exactly on the texts that fit. -/
theorem toolRedaction_iff {n : Nat} {text : Bytes} (hsize : text.length < n) :
    ToolRedaction n text ↔ toolRedactor.Fits n text := by
  have hbounds := toolRedactor.sizesAll_le_iff_fits (n := n) hsize
  rw [← (toolRunnerRedactSecrets_eq text).2] at hbounds
  constructor
  · intro h
    exact hbounds.mp h.inBounds
  · intro hfits
    exact
      { inBounds := hbounds.mpr hfits
        removed := fun key hkey front back hcut => by
          rw [(toolRunnerRedactSecrets_eq text).1] at hcut
          exact (toolRedactor.behind_pattern
            (List.mem_map_of_mem hkey : keyPass key ∈ toolRedactor.passes) hcut).2
        idempotent := by
          simp only [(toolRunnerRedactSecrets_eq _).1, toolRedactor.runAll_runAll] }

/-- Redaction stays inside its buffer, removes what it looks for and is
idempotent exactly on the texts that fit at every needle (or key) and after
every line (or word). -/
theorem redaction_iff {n : Nat} {text : Bytes} (hsize : text.length < n) :
    (TraceRedaction n text ↔ traceRedactor.Fits n text) ∧
      (ToolRedaction n text ↔ toolRedactor.Fits n text) :=
  ⟨traceRedaction_iff hsize, toolRedaction_iff hsize⟩

/-- A text with a cookie and a short value of a key, in 64 bytes. -/
theorem redaction_iff_cookie :
    (TraceRedaction 64 (lit "Cookie: theme=dark\nGOOGLE_SEARCH_CX=1") ↔
        traceRedactor.Fits 64 (lit "Cookie: theme=dark\nGOOGLE_SEARCH_CX=1")) ∧
      (ToolRedaction 64 (lit "Cookie: theme=dark\nGOOGLE_SEARCH_CX=1") ↔
        toolRedactor.Fits 64 (lit "Cookie: theme=dark\nGOOGLE_SEARCH_CX=1")) :=
  redaction_iff (by decide +kernel)

/-- A path of 127 bytes that ends in `api_key` does not leave room for the
marker in the 128 bytes the trace keeps it in. -/
theorem redaction_overruns :
    ¬ TraceRedaction 128 (List.replicate 120 120 ++ lit "api_key") := by
  intro h
  have hover : ¬ ∀ stop ∈ debugTraceWrites (List.replicate 120 120 ++ lit "api_key"),
      stop ≤ 128 := by
    decide +kernel
  exact hover h.inBounds

end StarBridge
