import StarBridge.CommandLine
import StarBridge.Drafts
import StarBridge.IndexPersistence
import StarBridge.NativeUsage
import StarBridge.StreamPayloads

/-!
# Two reports of the usage

The bridge reports the tokens of a turn twice.  `resp_normalize_usage` parses the usage
object, caps the reasoning tokens and takes them off the text tokens, and
`resp_usage_to_json` prints what is left of zero.  `codex_stream_completed` searches the
text of the object for its keys and prints the numbers behind them.

`usage_reports_iff` says when the two say the same, and that the tokens of the output add
up.
-/

namespace StarBridge

open CText JsonGrammar

/-! ## The usage of a response -/

/-- The counts of a `ResponseObject`. -/
structure ResponseUsage where
  promptTokens : Int32
  completionTokens : Int32
  totalTokens : Int32
  inputTextTokens : Int32
  inputCachedTokens : Int32
  inputAudioTokens : Int32
  outputTextTokens : Int32
  outputReasoningTokens : Int32
  deriving DecidableEq, Repr

/-- A member that is a number, given what its literal amounts to as an `int`. -/
def numberOf (numberToInt : Bytes → Int32) (usage : CJson) (name : Bytes) : Option Int32 :=
  match CJson.getObjectItem usage name with
  | some (.number literal) => some (numberToInt literal)
  | _ => none

/-- `resp_normalize_usage`.  Sums that are no `int` wrap around. -/
def respNormalizeUsage (numberToInt : Bytes → Int32) (promptTokens completionTokens : Int32)
    (usageJson : Bytes) : ResponseUsage :=
  let r : ResponseUsage :=
    { promptTokens := promptTokens
      completionTokens := completionTokens
      totalTokens := promptTokens + completionTokens
      inputTextTokens := promptTokens
      inputCachedTokens := 0
      inputAudioTokens := 0
      outputTextTokens := completionTokens
      outputReasoningTokens := 0 }
  if cstr usageJson = [] then r
  else
    match CJson.parse usageJson with
    | none => r
    | some usage =>
        let cacheHit := (numberOf numberToInt usage (lit "cache_hit")).getD 0
        let r := { r with inputCachedTokens := r.inputCachedTokens + cacheHit }
        let cacheCreate := (numberOf numberToInt usage (lit "cache_create")).getD 0
        let r := { r with inputCachedTokens := r.inputCachedTokens + cacheCreate }
        match numberOf numberToInt usage (lit "reasoning_tokens") with
        | none => r
        | some reasoning =>
            let reasoning :=
              if r.outputTextTokens < reasoning then r.outputTextTokens else reasoning
            { r with
              outputReasoningTokens := reasoning
              outputTextTokens := r.completionTokens - reasoning }

/-- `%d`. -/
def printedInt (n : Int32) : Bytes := signedDecimal n.toInt

/-- `resp_usage_to_json`, into a buffer of `maxLen` bytes. -/
def respUsageToJson (r : ResponseUsage) (maxLen : Nat) : Draft UInt8 :=
  let pt := r.promptTokens
  let ct := r.completionTokens
  let tt := r.totalTokens
  if tt = 0 ∧ pt = 0 ∧ ct = 0 then .start
  else
    let pt := if pt = 0 then (if ct < tt then tt - ct else 0) else pt
    let ct := if ct = 0 then (if pt < tt then tt - pt else 0) else ct
    let tt := if tt = 0 then pt + ct else tt
    Draft.printAll maxLen
      ([lit "\"usage\":\x7b\"input_tokens\":" ++ printedInt pt ++ lit ",\"output_tokens\":" ++
          printedInt ct ++ lit ",\"total_tokens\":" ++ printedInt tt,
        lit ",\"input_tokens_details\":\x7b\"text_tokens\":" ++ printedInt r.inputTextTokens] ++
      (if 0 < r.inputCachedTokens then
        [lit ",\"cached_tokens\":" ++ printedInt r.inputCachedTokens] else []) ++
      (if 0 < r.inputAudioTokens then
        [lit ",\"audio_tokens\":" ++ printedInt r.inputAudioTokens] else []) ++
      [lit "\x7d",
        lit ",\"output_tokens_details\":\x7b\"text_tokens\":" ++ printedInt r.outputTextTokens] ++
      (if 0 < r.outputReasoningTokens then
        [lit ",\"reasoning_tokens\":" ++ printedInt r.outputReasoningTokens] else []) ++
      [lit "\x7d", lit "\x7d"])

/-! ## The usage of a stream -/

/-- What `codex_stream_completed` takes for the number of a key: the digits that follow the
first place where the key is found. -/
def scanCount (key usageJson : Bytes) : Int32 :=
  let behind := (after key (cstr usageJson)).getD []
  let val := behind.dropWhile fun c => c = 58 || JsonGrammar.isBlank c
  if val.head?.any CJson.isDigit then (argInt val).toInt32 else 0

/-- `usage_buf`, before it is cut. -/
def usageText (promptTokens completionTokens cached reasoning : Int32) : Bytes :=
  lit "\"usage\":\x7b\"input_tokens\":" ++ printedInt promptTokens ++ lit ",\"output_tokens\":" ++
    printedInt completionTokens ++ lit ",\"total_tokens\":" ++
    printedInt (promptTokens + completionTokens) ++
    lit ",\"input_tokens_details\":\x7b\"text_tokens\":" ++ printedInt promptTokens ++
    lit ",\"cached_tokens\":" ++ printedInt cached ++
    lit "\x7d,\"output_tokens_details\":\x7b\"text_tokens\":" ++ printedInt completionTokens ++
    lit ",\"reasoning_tokens\":" ++ printedInt reasoning ++ lit "\x7d\x7d"

/-- `usage_buf`. -/
def usageBuf (promptTokens completionTokens : Int32) (usageJson : Bytes) : Bytes :=
  if 0 < promptTokens ∨ 0 < completionTokens then
    let cached := scanCount (lit "\"cache_hit\"") usageJson
    let cached := cached + scanCount (lit "\"cache_create\"") usageJson
    let reasoning := scanCount (lit "\"reasoning_tokens\"") usageJson
    clip 512 (usageText promptTokens completionTokens cached reasoning)
  else []

/-- The arguments of `codex_stream_completed`, but for the usage. -/
structure Completion where
  id : Bytes
  model : Bytes
  now : Nat
  finalText : Bytes
  incompleteDetails : Bytes
  sequenceNumber : Nat

namespace Completion

variable (e : Completion)

/-- The data of the event in front of the usage. -/
def front : Bytes :=
  lit "\x7b\"type\":\"response.completed\",\"response\":\x7b\"id\":\"" ++ shownId e.id ++
    lit "\",\"object\":\"response\",\"created_at\":" ++ decimal e.now ++
    lit ",\"status\":\"completed\",\"error\":null," ++
    (if e.incompleteDetails = [] then lit "\"incomplete_details\":null"
      else lit "\"incomplete_details\":\"" ++
        jsonEscape e.incompleteDetails (2 * e.incompleteDetails.length + 32) ++ lit "\"") ++
    lit ",\"instructions\":null,\"max_output_tokens\":null,\"model\":\"" ++
    shownModel e.model ++
    lit "\",\"output\":[\x7b\"id\":\"msg_0\",\"type\":\"message\",\"status\":\"completed\",\"role\":\"assistant\",\"content\":[\x7b\"type\":\"output_text\",\"text\":\"" ++
    jsonEscape e.finalText 131072 ++
    lit "\",\"annotations\":[]\x7d]\x7d],\"parallel_tool_calls\":true,\"previous_response_id\":null,\"reasoning\":null,\"store\":false,\"temperature\":1,\"text\":\x7b\"format\":\x7b\"type\":\"text\"\x7d\x7d,\"tool_choice\":\"auto\",\"tools\":[],\"top_p\":1,\"truncation\":\"disabled\""

/-- The data of the event behind the usage. -/
def back : Bytes :=
  lit ",\"user\":null,\"metadata\":\x7b\x7d\x7d,\"sequence_number\":" ++
    decimal e.sequenceNumber ++ lit "\x7d"

/-- The data of the event. -/
def data (usage : Bytes) : Bytes :=
  clip 131072 (e.front ++ (if usage = [] then [] else 44 :: usage) ++ e.back)

set_option maxRecDepth 2000 in
/-- The event of a turn without usage is the one that the text streams send. -/
theorem data_nil :
    e.data [] =
      clip 131072 (completedData e.id e.model e.now e.finalText e.incompleteDetails
        e.sequenceNumber) := by
  rw [data, if_pos rfl, List.append_nil]
  refine congrArg (clip 131072) ?_
  rw [front, back, completedData, shownId, shownModel]
  simp only [List.append_assoc]
  repeat rw [lit_ofList]
  rfl

end Completion

/-- `codex_stream_completed`: the data of the event. -/
def codexStreamCompleted (e : Completion) (promptTokens completionTokens : Int32)
    (usageJson : Bytes) : Bytes :=
  e.data (usageBuf promptTokens completionTokens usageJson)

/-! ## What a report says -/

/-- The counts of a report. -/
structure UsageReport where
  input : Int
  output : Int
  total : Int
  cached : Int
  reasoning : Int
  text : Int
  deriving DecidableEq, Repr

/-- No count is there. -/
def UsageReport.nothing : UsageReport := ⟨0, 0, 0, 0, 0, 0⟩

/-- The number at a path, and zero where there is none. -/
def countAt (path : List Bytes) (v : Value) : Int :=
  match v.follow (path.map .member) with
  | some (.number literal) => atoi literal
  | _ => 0

/-- The counts of a usage object. -/
def UsageReport.ofValue (v : Value) : UsageReport where
  input := countAt [lit "input_tokens"] v
  output := countAt [lit "output_tokens"] v
  total := countAt [lit "total_tokens"] v
  cached := countAt [lit "input_tokens_details", lit "cached_tokens"] v
  reasoning := countAt [lit "output_tokens_details", lit "reasoning_tokens"] v
  text := countAt [lit "output_tokens_details", lit "text_tokens"] v

/-- What a text says about the usage at its front. -/
def ReadsUsage (s : Bytes) (report : UsageReport) : Prop :=
  (∃ body v left, s = lit "\"usage\":" ++ body ∧ Reads body (.value v) left ∧
      report = .ofValue v) ∨
    (¬ lit "\"usage\":" <+: s ∧ report = .nothing)

/-! ### Usage objects -/

def tokensMember (name : Bytes) (h : Plain name) (n : Int32) : Member :=
  .ofNumber name h (isNumber_signedDecimal n.toInt)

def textTokens (n : Int32) : Member := tokensMember (lit "text_tokens") (by decide +kernel) n

def reasoningTokens (n : Int32) : Member :=
  tokensMember (lit "reasoning_tokens") (by decide +kernel) n

def cachedTokens (n : Int32) : Member := tokensMember (lit "cached_tokens") (by decide +kernel) n

def audioTokens (n : Int32) : Member := tokensMember (lit "audio_tokens") (by decide +kernel) n

/-- The members of a usage object. -/
def usageMembers (input output total : Int32) (inputDetails outputDetails : List Member) :
    List Member :=
  [tokensMember (lit "input_tokens") (by decide +kernel) input,
    tokensMember (lit "output_tokens") (by decide +kernel) output,
    tokensMember (lit "total_tokens") (by decide +kernel) total,
    .ofObject (lit "input_tokens_details") (by decide +kernel) inputDetails,
    .ofObject (lit "output_tokens_details") (by decide +kernel) outputDetails]

/-- The usage object with its name. -/
def usageField (ms : List Member) : Bytes := lit "\"usage\":" ++ Member.object ms

/-- A count reads back. -/
theorem atoi_printedInt (n : Int32) : atoi (printedInt n) = n.toInt :=
  readsInts_atoi _ ⟨n.le_toInt, n.toInt_lt⟩

/-- The number under a name. -/
def countIn (name : Bytes) (ms : List (Bytes × Value)) : Int :=
  match lookup name ms with
  | some (.number literal) => atoi literal
  | _ => 0

theorem countIn_of_mem {name : Bytes} {h : Plain name} {n : Int32} (ms : List Member)
    (hnodup : (ms.map (·.name)).Nodup) (hmem : tokensMember name h n ∈ ms) :
    countIn name (Member.values ms) = n.toInt := by
  have hfound : lookup name (Member.values ms) = some (.number (printedInt n)) := by
    refine lookup_of_mem ?_ (List.mem_map_of_mem hmem)
    rwa [Member.values, List.map_map]
  rw [countIn, hfound]
  exact atoi_printedInt n

theorem countIn_of_not_mem {name : Bytes} {ms : List Member} (h : name ∉ ms.map (·.name)) :
    countIn name (Member.values ms) = 0 := by
  have hnone : lookup name (Member.values ms) = none := by
    apply lookup_of_not_mem
    rwa [Member.values, List.map_map]
  rw [countIn, hnone]

theorem countAt_member (name : Bytes) (ms : List (Bytes × Value)) :
    countAt [name] (.object ms) = countIn name ms := by
  unfold countAt countIn
  simp only [Value.follow, List.map_cons, List.map_nil, List.foldlM_cons, List.foldlM_nil,
    Value.hop]
  cases lookup name ms <;> rfl

theorem countAt_details {outer name : Bytes} {ms details : List (Bytes × Value)}
    (h : lookup outer ms = some (.object details)) :
    countAt [outer, name] (.object ms) = countIn name details := by
  unfold countAt countIn
  simp only [Value.follow, List.map_cons, List.map_nil, List.foldlM_cons, List.foldlM_nil,
    Value.hop, h, Option.bind_eq_bind, Option.bind_some]
  cases lookup name details <;> rfl

theorem ofValue_usageMembers (input output total : Int32)
    (inputDetails outputDetails : List Member) :
    UsageReport.ofValue
        (.object (Member.values (usageMembers input output total inputDetails outputDetails))) =
      { input := input.toInt
        output := output.toInt
        total := total.toInt
        cached := countIn (lit "cached_tokens") (Member.values inputDetails)
        reasoning := countIn (lit "reasoning_tokens") (Member.values outputDetails)
        text := countIn (lit "text_tokens") (Member.values outputDetails) } := by
  have hnodup : ((usageMembers input output total inputDetails outputDetails).map
      (·.name)).Nodup := by
    show [lit "input_tokens", lit "output_tokens", lit "total_tokens",
      lit "input_tokens_details", lit "output_tokens_details"].Nodup
    decide
  have hvalues : ((Member.values (usageMembers input output total inputDetails
      outputDetails)).map Prod.fst).Nodup := by
    rwa [Member.values, List.map_map]
  have hinput : lookup (lit "input_tokens_details") (Member.values (usageMembers input output
      total inputDetails outputDetails)) = some (.object (Member.values inputDetails)) :=
    lookup_of_mem hvalues (by simp [usageMembers, Member.values, Member.ofObject])
  have houtput : lookup (lit "output_tokens_details") (Member.values (usageMembers input output
      total inputDetails outputDetails)) = some (.object (Member.values outputDetails)) :=
    lookup_of_mem hvalues (by simp [usageMembers, Member.values, Member.ofObject])
  rw [UsageReport.ofValue, countAt_member, countAt_member, countAt_member,
    countAt_details hinput, countAt_details houtput, countAt_details houtput,
    countIn_of_mem _ hnodup (n := input) (List.mem_cons_self ..),
    countIn_of_mem _ hnodup (n := output) (List.mem_cons_of_mem _ (List.mem_cons_self ..)),
    countIn_of_mem _ hnodup (n := total)
      (List.mem_cons_of_mem _ (List.mem_cons_of_mem _ (List.mem_cons_self ..)))]

/-- A count behind its name. -/
theorem labelled_eq {label name : Bytes} (h : Plain name)
    (hlabel : label = 44 :: (quote name ++ [58])) (n : Int32) :
    label ++ printedInt n = Member.led [tokensMember name h n] := by
  rw [hlabel]
  simp [Member.led, tokensMember, Member.ofNumber, printedInt]

theorem length_led_tokensMember_le {name : Bytes} (h : Plain name) (n : Int32) :
    (Member.led [tokensMember name h n]).length ≤ name.length + 15 := by
  have hn : (printedInt n).length ≤ 11 := CJson.length_int32_le n
  rw [← labelled_eq h rfl n]
  simp only [List.length_append, List.length_cons, List.length_nil, quote]
  omega

theorem length_usageField_le (input output total inputText outputText : Int32)
    (inputDetails outputDetails : List Member) :
    (usageField (usageMembers input output total (textTokens inputText :: inputDetails)
        (textTokens outputText :: outputDetails))).length ≤
      220 + (Member.led inputDetails).length + (Member.led outputDetails).length := by
  have hshort : ∀ n : Int32, (signedDecimal n.toInt).length ≤ 11 := CJson.length_int32_le
  have hinput := hshort input
  have houtput := hshort output
  have htotal := hshort total
  have hinputText := hshort inputText
  have houtputText := hshort outputText
  rw [usageField]
  simp only [usageMembers, textTokens, tokensMember, Member.object, Member.led, Member.ofObject,
    Member.ofNumber, quote, List.flatMap_cons, List.flatMap_nil, List.append_assoc,
    List.cons_append, List.nil_append]
  repeat rw [lit_ofList]
  simp only [List.length_append, List.length_map, List.length_cons, List.length_nil]
  omega

theorem readsUsage_usageField {ms : List Member} {rest : Bytes} (hrest : Ends rest)
    {report : UsageReport} :
    ReadsUsage (usageField ms ++ rest) report ↔
      report = .ofValue (.object (Member.values ms)) := by
  have hprints := Member.prints_object_of_members ms
  unfold usageField
  rw [List.append_assoc]
  constructor
  · intro h
    rcases h with ⟨body, v, left, heq, hread, hreport⟩ | ⟨hnot, -⟩
    · rw [← List.append_cancel_left heq] at hread
      rw [hreport, (hprints.unique hrest hread).1]
    · exact absurd (List.prefix_append ..) hnot
  · intro h
    exact Or.inl ⟨_, _, rest, rfl, hprints rest hrest, h⟩

/-- A usage object that is cut says nothing. -/
theorem readsUsage_front {ms : List Member} {front back : Bytes}
    (h : front ++ back = usageField ms) (hback : back ≠ []) {report : UsageReport}
    (hreads : ReadsUsage front report) : report = .nothing := by
  rcases hreads with ⟨body, v, left, rfl, hread, -⟩ | ⟨-, hreport⟩
  · rw [usageField, List.append_assoc] at h
    have hprints := Member.prints_object_of_members ms
    rw [← List.append_cancel_left h] at hprints
    rw [← hread.skip_eq] at hread
    exact absurd hread (hprints.not_reads_front hback)
  · exact hreport

theorem readsUsage_of_not_prefix {s : Bytes} (hnot : ¬ lit "\"usage\":" <+: s)
    {report : UsageReport} : ReadsUsage s report ↔ report = .nothing := by
  constructor
  · intro h
    rcases h with ⟨body, v, left, heq, -⟩ | ⟨-, hreport⟩
    · exact absurd ⟨body, heq.symm⟩ hnot
    · exact hreport
  · exact fun h => Or.inr ⟨hnot, h⟩

theorem readsUsage_nil {report : UsageReport} : ReadsUsage [] report ↔ report = .nothing :=
  readsUsage_of_not_prefix (by decide)

/-! ### The usage of a stream -/

theorem usageText_eq (promptTokens completionTokens cached reasoning : Int32) :
    usageText promptTokens completionTokens cached reasoning =
      usageField (usageMembers promptTokens completionTokens (promptTokens + completionTokens)
        [textTokens promptTokens, cachedTokens cached]
        [textTokens completionTokens, reasoningTokens reasoning]) := by
  rw [usageText, usageField]
  simp only [usageMembers, textTokens, cachedTokens, reasoningTokens, tokensMember, printedInt,
    Member.object, Member.led, Member.ofObject, Member.ofNumber, quote, List.flatMap_cons,
    List.flatMap_nil, List.append_assoc, List.cons_append, List.nil_append]
  repeat rw [lit_ofList]
  rfl

theorem usageText_ne_nil (promptTokens completionTokens cached reasoning : Int32) :
    usageText promptTokens completionTokens cached reasoning ≠ [] := by
  rw [usageText_eq, usageField, lit_ofList]
  exact List.cons_ne_nil _ _

theorem length_usageText_lt (promptTokens completionTokens cached reasoning : Int32) :
    (usageText promptTokens completionTokens cached reasoning).length < 512 := by
  have hcached : (Member.led [cachedTokens cached]).length ≤ (lit "cached_tokens").length + 15 :=
    length_led_tokensMember_le _ cached
  have hreasoning : (Member.led [reasoningTokens reasoning]).length ≤
      (lit "reasoning_tokens").length + 15 := length_led_tokensMember_le _ reasoning
  have hnames : (lit "cached_tokens").length = 13 ∧ (lit "reasoning_tokens").length = 16 :=
    ⟨length_lit _, length_lit _⟩
  have hlength := length_usageField_le promptTokens completionTokens
    (promptTokens + completionTokens) promptTokens completionTokens [cachedTokens cached]
    [reasoningTokens reasoning]
  rw [usageText_eq]
  omega

/-! ### The usage of a response -/

/-- A count that is printed if it is more than zero. -/
def positive (m : Int32 → Member) (n : Int32) : List Member := if 0 < n then [m n] else []

theorem countIn_positive {name : Bytes} {h : Plain name} {n : Int32} (fixed : List Member)
    (hnodup : (fixed.map (·.name) ++ [name]).Nodup) :
    countIn name (Member.values (fixed ++ positive (tokensMember name h) n)) = max n.toInt 0 := by
  have hname : name ∉ fixed.map (·.name) := fun hmem =>
    (List.nodup_append.mp hnodup).2.2 _ hmem _ (List.mem_singleton_self _) rfl
  unfold positive
  by_cases hpos : 0 < n
  · have hnat : 0 < n.toInt := Int32.lt_iff_toInt_lt.mp hpos
    rw [if_pos hpos, countIn_of_mem (n := n) (h := h) _ ?_ (List.mem_append_right _ ?_)]
    · omega
    · rwa [List.map_append]
    · exact List.mem_singleton_self _
  · have hnat : ¬ 0 < n.toInt := fun h => hpos (Int32.lt_iff_toInt_lt.mpr h)
    rw [if_neg hpos, List.append_nil, countIn_of_not_mem hname]
    omega

theorem flatten_positive {m : Int32 → Member} {label : Bytes}
    (h : ∀ n, label ++ printedInt n = Member.led [m n]) (n : Int32) :
    (if 0 < n then [label ++ printedInt n] else []).flatten = Member.led (positive m n) := by
  unfold positive
  split
  · rw [List.flatten_singleton, h]
  · rfl

theorem length_led_positive {m : Int32 → Member} {k : Nat}
    (h : ∀ n, (Member.led [m n]).length ≤ k) (n : Int32) :
    (Member.led (positive m n)).length ≤ k := by
  unfold positive
  split
  · exact h n
  · exact Nat.zero_le k

namespace ResponseUsage

variable (r : ResponseUsage)

def inputDetails : List Member :=
  textTokens r.inputTextTokens ::
    (positive cachedTokens r.inputCachedTokens ++ positive audioTokens r.inputAudioTokens)

def outputDetails : List Member :=
  textTokens r.outputTextTokens :: positive reasoningTokens r.outputReasoningTokens

/-- The members of the object that `resp_usage_to_json` prints. -/
def members : List Member :=
  let pt := r.promptTokens
  let ct := r.completionTokens
  let tt := r.totalTokens
  let pt := if pt = 0 then (if ct < tt then tt - ct else 0) else pt
  let ct := if ct = 0 then (if pt < tt then tt - pt else 0) else ct
  let tt := if tt = 0 then pt + ct else tt
  usageMembers pt ct tt r.inputDetails r.outputDetails

theorem respUsageToJson_text (maxLen : Nat) :
    (respUsageToJson r maxLen).text =
      if r.totalTokens = 0 ∧ r.promptTokens = 0 ∧ r.completionTokens = 0 then []
      else clip maxLen (usageField r.members) := by
  have hcachedLabel : lit ",\"cached_tokens\":" = 44 :: (quote (lit "cached_tokens") ++ [58]) := by
    decide
  have haudioLabel : lit ",\"audio_tokens\":" = 44 :: (quote (lit "audio_tokens") ++ [58]) := by
    decide
  have hreasoningLabel :
      lit ",\"reasoning_tokens\":" = 44 :: (quote (lit "reasoning_tokens") ++ [58]) := by
    decide
  have hcached := flatten_positive (m := cachedTokens) (labelled_eq _ hcachedLabel)
    r.inputCachedTokens
  have haudio := flatten_positive (m := audioTokens) (labelled_eq _ haudioLabel)
    r.inputAudioTokens
  have hreasoning := flatten_positive (m := reasoningTokens) (labelled_eq _ hreasoningLabel)
    r.outputReasoningTokens
  rw [respUsageToJson]
  dsimp only
  by_cases hnone : r.totalTokens = 0 ∧ r.promptTokens = 0 ∧ r.completionTokens = 0
  · rw [if_pos hnone, if_pos hnone]
    rfl
  · rw [if_neg hnone, if_neg hnone, Draft.printAll_text, members]
    refine congrArg (clip maxLen) ?_
    simp only [List.flatten_append]
    rw [hcached, haudio, hreasoning]
    rw [usageField]
    simp only [usageMembers, inputDetails, outputDetails, textTokens, tokensMember, printedInt,
      Member.object, Member.led, Member.ofObject, Member.ofNumber, quote,
      List.flatMap_cons, List.flatMap_append,
      List.flatMap_nil, List.flatten_cons, List.flatten_nil,
      List.append_assoc, List.cons_append, List.nil_append]
    repeat rw [lit_ofList]
    rfl

theorem length_members_lt : (usageField r.members).length < 512 := by
  have hcached := length_led_positive (m := cachedTokens)
    (length_led_tokensMember_le (by decide)) r.inputCachedTokens
  have haudio := length_led_positive (m := audioTokens)
    (length_led_tokensMember_le (by decide)) r.inputAudioTokens
  have hreasoning := length_led_positive (m := reasoningTokens)
    (length_led_tokensMember_le (by decide)) r.outputReasoningTokens
  have hcachedName : (lit "cached_tokens").length = 13 := length_lit _
  have haudioName : (lit "audio_tokens").length = 12 := length_lit _
  have hreasoningName : (lit "reasoning_tokens").length = 16 := length_lit _
  have hdetails : (Member.led (positive cachedTokens r.inputCachedTokens ++
      positive audioTokens r.inputAudioTokens)).length ≤ 55 := by
    rw [Member.led_append, List.length_append]
    omega
  refine Nat.lt_of_le_of_lt (length_usageField_le ..) ?_
  omega

end ResponseUsage

/-! ## The counts of an object -/

/-- The number that the usage object has under a name. -/
def countOf (numberToInt : Bytes → Int32) (usageJson name : Bytes) : Int32 :=
  ((CJson.parse usageJson).bind fun usage => numberOf numberToInt usage name).getD 0

/-- The reasoning tokens, no more than there are tokens. -/
def cappedReasoning (numberToInt : Bytes → Int32) (completionTokens : Int32)
    (usageJson : Bytes) : Int32 :=
  let reasoning := countOf numberToInt usageJson (lit "reasoning_tokens")
  if completionTokens < reasoning then completionTokens else reasoning

theorem parse_of_cstr_nil {text : Bytes} (h : cstr text = []) : CJson.parse text = none := by
  unfold CJson.parse
  rw [h]
  rfl

/-- **The counts of a response**, whether or not there is an object to parse. -/
theorem respNormalizeUsage_eq (numberToInt : Bytes → Int32) (promptTokens : Int32)
    {completionTokens : Int32} (h : 0 ≤ completionTokens) (usageJson : Bytes) :
    respNormalizeUsage numberToInt promptTokens completionTokens usageJson =
      { promptTokens := promptTokens
        completionTokens := completionTokens
        totalTokens := promptTokens + completionTokens
        inputTextTokens := promptTokens
        inputCachedTokens := countOf numberToInt usageJson (lit "cache_hit") +
          countOf numberToInt usageJson (lit "cache_create")
        inputAudioTokens := 0
        outputTextTokens :=
          completionTokens - cappedReasoning numberToInt completionTokens usageJson
        outputReasoningTokens := cappedReasoning numberToInt completionTokens usageJson } := by
  have hnot : ¬ completionTokens < 0 := Int32.not_lt.mpr h
  rw [respNormalizeUsage]
  dsimp only
  by_cases hnil : cstr usageJson = []
  · rw [if_pos hnil, cappedReasoning, countOf, countOf, countOf, parse_of_cstr_nil hnil]
    simp [hnot]
  · rw [if_neg hnil, cappedReasoning, countOf, countOf, countOf]
    cases CJson.parse usageJson with
    | none => simp [hnot]
    | some usage =>
        dsimp only [Option.bind_some]
        split
        next hnone => simp [hnone, hnot]
        next reasoning hsome => simp [hsome]

/-! ## The two reports -/

/-- The counts of a turn.  None is negative, and their sum is an `int`. -/
structure TokenCounts where
  prompt : Int32
  completion : Int32
  prompt_nonneg : 0 ≤ prompt.toInt
  completion_nonneg : 0 ≤ completion.toInt
  fits : prompt.toInt + completion.toInt < 2 ^ 31

namespace TokenCounts

variable (c : TokenCounts)

theorem toInt_total : (c.prompt + c.completion).toInt = c.prompt.toInt + c.completion.toInt := by
  have hprompt := c.prompt_nonneg
  have hcompletion := c.completion_nonneg
  have hfits := c.fits
  rw [Int32.toInt_add]
  exact Int.bmod_eq_of_le (by omega) (by omega)

/-- Whether a count is there. -/
theorem pos_iff : 0 < c.prompt ∨ 0 < c.completion ↔ ¬ (c.prompt = 0 ∧ c.completion = 0) := by
  have hprompt := c.prompt_nonneg
  have hcompletion := c.completion_nonneg
  rw [Int32.lt_iff_toInt_lt, Int32.lt_iff_toInt_lt, ← Int32.toInt_inj, ← Int32.toInt_inj]
  show (0 : Int) < _ ∨ (0 : Int) < _ ↔ ¬ (_ = (0 : Int) ∧ _ = (0 : Int))
  omega

variable (numberToInt : Bytes → Int32) (e : Completion) (usageJson : Bytes)

/-- The response of the turn. -/
def response : ResponseUsage := respNormalizeUsage numberToInt c.prompt c.completion usageJson

/-- The numbers that the search finds. -/
def scannedCached : Int32 :=
  scanCount (lit "\"cache_hit\"") usageJson + scanCount (lit "\"cache_create\"") usageJson

/-- The event has room for the usage. -/
def HasRoom : Prop :=
  e.front.length + (usageText c.prompt c.completion (scannedCached usageJson)
    (scanCount (lit "\"reasoning_tokens\"") usageJson)).length + 1 < 131072

/-- What a response reports. -/
def responseReport : UsageReport where
  input := c.prompt.toInt
  output := c.completion.toInt
  total := c.prompt.toInt + c.completion.toInt
  cached := max (countOf numberToInt usageJson (lit "cache_hit") +
    countOf numberToInt usageJson (lit "cache_create")).toInt 0
  reasoning := max (cappedReasoning numberToInt c.completion usageJson).toInt 0
  text := (c.completion - cappedReasoning numberToInt c.completion usageJson).toInt

/-- What an event reports. -/
def eventReport : UsageReport where
  input := c.prompt.toInt
  output := c.completion.toInt
  total := c.prompt.toInt + c.completion.toInt
  cached := (scannedCached usageJson).toInt
  reasoning := (scanCount (lit "\"reasoning_tokens\"") usageJson).toInt
  text := c.completion.toInt

theorem ofValue_response :
    UsageReport.ofValue (.object (Member.values (c.response numberToInt usageJson).members)) =
      c.responseReport numberToInt usageJson := by
  have hcompletion : 0 ≤ c.completion := Int32.le_iff_toInt_le.mpr c.completion_nonneg
  have hprompt : (if c.prompt = 0 then
      (if c.completion < c.prompt + c.completion then c.prompt + c.completion - c.completion
        else 0) else c.prompt) = c.prompt := by
    split
    next hzero => simp [hzero]
    next => rfl
  have hoff : (if c.completion = 0 then
      (if c.prompt < c.prompt + c.completion then c.prompt + c.completion - c.prompt
        else 0) else c.completion) = c.completion := by
    split
    next hzero => simp [hzero]
    next => rfl
  have hnames : [lit "text_tokens", lit "reasoning_tokens"].Nodup := by decide
  have hnames' : [lit "text_tokens", lit "cached_tokens"].Nodup := by decide
  have htext : ∀ n m : Int32, countIn (lit "text_tokens") (Member.values (textTokens n ::
      positive reasoningTokens m)) = n.toInt := by
    intro n m
    refine countIn_of_mem _ ?_ (List.mem_cons_self ..)
    unfold positive
    split
    · exact hnames
    · exact List.pairwise_singleton _ _
  have hreasoning : ∀ n m : Int32, countIn (lit "reasoning_tokens") (Member.values
      (textTokens n :: positive reasoningTokens m)) = max m.toInt 0 := fun n m =>
    countIn_positive [textTokens n] hnames
  have hcached : ∀ n m : Int32, countIn (lit "cached_tokens") (Member.values
      (textTokens n :: (positive cachedTokens m ++ positive audioTokens 0))) = max m.toInt 0 := by
    intro n m
    rw [show positive audioTokens 0 = [] from rfl, List.append_nil]
    exact countIn_positive [textTokens n] hnames'
  rw [response, respNormalizeUsage_eq _ _ hcompletion, ResponseUsage.members,
    ResponseUsage.inputDetails, ResponseUsage.outputDetails]
  dsimp only
  rw [hprompt, hoff, ite_self, ofValue_usageMembers, htext, hreasoning, hcached, c.toInt_total]
  rfl

theorem ofValue_event :
    UsageReport.ofValue (.object (Member.values (usageMembers c.prompt c.completion
        (c.prompt + c.completion) [textTokens c.prompt, cachedTokens (scannedCached usageJson)]
        [textTokens c.completion,
          reasoningTokens (scanCount (lit "\"reasoning_tokens\"") usageJson)]))) =
      c.eventReport usageJson := by
  have hnames : [lit "text_tokens", lit "reasoning_tokens"].Nodup := by decide
  have hnames' : [lit "text_tokens", lit "cached_tokens"].Nodup := by decide
  have htext : ∀ n m : Int32, countIn (lit "text_tokens") (Member.values [textTokens n,
      reasoningTokens m]) = n.toInt := fun n m =>
    countIn_of_mem [textTokens n, reasoningTokens m] hnames (List.mem_cons_self ..)
  have hreasoning : ∀ n m : Int32, countIn (lit "reasoning_tokens") (Member.values
      [textTokens n, reasoningTokens m]) = m.toInt := fun n m =>
    countIn_of_mem [textTokens n, reasoningTokens m] hnames
      (List.mem_cons_of_mem _ (List.mem_cons_self ..))
  have hcached : ∀ n m : Int32, countIn (lit "cached_tokens") (Member.values
      [textTokens n, cachedTokens m]) = m.toInt := fun n m =>
    countIn_of_mem [textTokens n, cachedTokens m] hnames'
      (List.mem_cons_of_mem _ (List.mem_cons_self ..))
  rw [ofValue_usageMembers, c.toInt_total, hcached, hreasoning, htext]
  rfl

/-- What a response says. -/
theorem readsUsage_response (report : UsageReport) :
    ReadsUsage (respUsageToJson (c.response numberToInt usageJson) 2048).text report ↔
      report = if c.prompt = 0 ∧ c.completion = 0 then .nothing
        else c.responseReport numberToInt usageJson := by
  have hcompletion : 0 ≤ c.completion := Int32.le_iff_toInt_le.mpr c.completion_nonneg
  have hcounts : (c.response numberToInt usageJson).promptTokens = c.prompt ∧
      (c.response numberToInt usageJson).completionTokens = c.completion ∧
      (c.response numberToInt usageJson).totalTokens = c.prompt + c.completion := by
    rw [response, respNormalizeUsage_eq _ _ hcompletion]
    exact ⟨rfl, rfl, rfl⟩
  rw [ResponseUsage.respUsageToJson_text, hcounts.1, hcounts.2.1, hcounts.2.2]
  by_cases hzero : c.prompt = 0 ∧ c.completion = 0
  · have hall : c.prompt + c.completion = 0 ∧ c.prompt = 0 ∧ c.completion = 0 := by
      rw [hzero.1, hzero.2]
      exact ⟨rfl, rfl, rfl⟩
    rw [if_pos hall, if_pos hzero]
    exact readsUsage_nil
  · have hlength := (c.response numberToInt usageJson).length_members_lt
    rw [if_neg fun h => hzero h.2, if_neg hzero, clip_eq_self (by omega),
      ← List.append_nil (usageField _), readsUsage_usageField ends_nil,
      c.ofValue_response numberToInt usageJson]

/-- What stands in the place of the usage. -/
theorem drop_event (hcounts : ¬ (c.prompt = 0 ∧ c.completion = 0)) :
    (codexStreamCompleted e c.prompt c.completion usageJson).drop (e.front.length + 1) =
      (usageText c.prompt c.completion (scannedCached usageJson)
        (scanCount (lit "\"reasoning_tokens\"") usageJson) ++ e.back).take
        (131071 - (e.front.length + 1)) := by
  have hlength := length_usageText_lt c.prompt c.completion (scannedCached usageJson)
    (scanCount (lit "\"reasoning_tokens\"") usageJson)
  have hbuf : usageBuf c.prompt c.completion usageJson = usageText c.prompt c.completion
      (scannedCached usageJson) (scanCount (lit "\"reasoning_tokens\"") usageJson) := by
    rw [usageBuf, if_pos (c.pos_iff.mpr hcounts)]
    exact clip_eq_self hlength
  rw [codexStreamCompleted, hbuf, Completion.data, if_neg (usageText_ne_nil _ _ _ _), clip,
    List.drop_take, List.append_assoc, List.drop_append, List.drop_of_length_le (Nat.le_succ _),
    Nat.add_sub_cancel_left, List.nil_append, List.cons_append, List.drop_succ_cons,
    List.drop_zero]

theorem back_eq :
    e.back = 44 :: (lit "\"user\":null,\"metadata\":\x7b\x7d\x7d,\"sequence_number\":" ++
      (decimal e.sequenceNumber ++ lit "\x7d")) := by
  rw [Completion.back, List.append_assoc]
  repeat rw [lit_ofList]
  rfl

/-- Behind the usage the number of an object cannot go on. -/
theorem ends_take_back (n : Nat) : Ends (e.back.take n) := by
  rw [back_eq]
  cases n with
  | zero => exact ends_nil
  | succ n => exact ends_cons (Or.inr (Or.inl rfl)) _

theorem readsUsage_event_zero (hcounts : c.prompt = 0 ∧ c.completion = 0)
    {report : UsageReport} :
    ReadsUsage ((codexStreamCompleted e c.prompt c.completion usageJson).drop
        (e.front.length + 1)) report ↔ report = .nothing := by
  have hbuf : usageBuf c.prompt c.completion usageJson = [] :=
    if_neg fun h => c.pos_iff.mp h hcounts
  rw [codexStreamCompleted, hbuf, Completion.data, if_pos rfl, clip, List.drop_take,
    List.append_nil, List.drop_append, List.drop_of_length_le (Nat.le_succ _),
    Nat.add_sub_cancel_left, back_eq, List.nil_append, List.drop_succ_cons, List.drop_zero]
  refine readsUsage_of_not_prefix fun hfront => ?_
  have hshort : lit "\"usage\":" <+:
      lit "\"user\":null,\"metadata\":\x7b\x7d\x7d,\"sequence_number\":" :=
    List.prefix_of_prefix_length_le (hfront.trans (List.take_prefix ..))
      (List.prefix_append ..) (by decide)
  revert hshort
  decide

/-- An event with room for the usage. -/
theorem readsUsage_event (hcounts : ¬ (c.prompt = 0 ∧ c.completion = 0))
    (hroom : c.HasRoom e usageJson) {report : UsageReport} :
    ReadsUsage ((codexStreamCompleted e c.prompt c.completion usageJson).drop
        (e.front.length + 1)) report ↔ report = c.eventReport usageJson := by
  unfold HasRoom at hroom
  rw [c.drop_event e usageJson hcounts, List.take_append, List.take_of_length_le (by omega),
    usageText_eq, readsUsage_usageField (ends_take_back e _), ofValue_event]

/-- An event that is cut before the usage ends. -/
theorem nothing_of_readsUsage_event (hcounts : ¬ (c.prompt = 0 ∧ c.completion = 0))
    (hroom : ¬ c.HasRoom e usageJson) {report : UsageReport}
    (h : ReadsUsage ((codexStreamCompleted e c.prompt c.completion usageJson).drop
        (e.front.length + 1)) report) : report = .nothing := by
  unfold HasRoom at hroom
  rw [c.drop_event e usageJson hcounts, List.take_append_of_le_length (by omega)] at h
  refine readsUsage_front ((List.take_append_drop ..).trans (usageText_eq ..)) ?_ h
  have hlength := List.length_pos_of_ne_nil (usageText_ne_nil c.prompt c.completion
    (scannedCached usageJson) (scanCount (lit "\"reasoning_tokens\"") usageJson))
  refine List.ne_nil_of_length_pos ?_
  rw [List.length_drop]
  omega

/-- **Two reports agree**: the response and the event report the same counts, and the
tokens of the output add up. -/
def ReportsAgree : Prop :=
  ∃ report,
    ReadsUsage ((codexStreamCompleted e c.prompt c.completion usageJson).drop
      (e.front.length + 1)) report ∧
    ReadsUsage (respUsageToJson (respNormalizeUsage numberToInt c.prompt c.completion usageJson)
      2048).text report ∧
    report.reasoning ≤ c.completion.toInt ∧
    report.text + report.reasoning = c.completion.toInt

/-- The counts of a report are those of the response where they are those of the event. -/
theorem reports_eq_iff :
    c.eventReport usageJson = c.responseReport numberToInt usageJson ∧
        (scanCount (lit "\"reasoning_tokens\"") usageJson).toInt = 0 ↔
      (scannedCached usageJson).toInt =
          max (countOf numberToInt usageJson (lit "cache_hit") +
            countOf numberToInt usageJson (lit "cache_create")).toInt 0 ∧
        scanCount (lit "\"reasoning_tokens\"") usageJson = 0 ∧
        cappedReasoning numberToInt c.completion usageJson = 0 := by
  unfold eventReport responseReport
  have hzero : (scanCount (lit "\"reasoning_tokens\"") usageJson).toInt = 0 ↔
      scanCount (lit "\"reasoning_tokens\"") usageJson = 0 := Int32.toInt_inj (y := 0)
  rw [UsageReport.mk.injEq, hzero]
  constructor
  · intro h
    obtain ⟨⟨-, -, -, hcached, hreasoning, htext⟩, hscanned⟩ := h
    have hsame := Int32.toInt_inj.mp htext
    exact ⟨hcached, hscanned, by grind⟩
  · intro h
    obtain ⟨hcached, hscanned, hcapped⟩ := h
    refine ⟨⟨rfl, rfl, rfl, hcached, ?_, ?_⟩, hscanned⟩
    · rw [hscanned, hcapped]
      rfl
    · rw [hcapped, Int32.sub_zero]

/-- What the search finds is what the object has, and nothing is taken off the text
tokens. -/
structure FindsCounts : Prop where
  room : c.HasRoom e usageJson
  cached : (scannedCached usageJson).toInt =
    max (countOf numberToInt usageJson (lit "cache_hit") +
      countOf numberToInt usageJson (lit "cache_create")).toInt 0
  scanned : scanCount (lit "\"reasoning_tokens\"") usageJson = 0
  reasoning : countOf numberToInt usageJson (lit "reasoning_tokens") = 0 ∨
    c.completion = 0 ∧ 0 < countOf numberToInt usageJson (lit "reasoning_tokens")

theorem cappedReasoning_eq_zero_iff :
    cappedReasoning numberToInt c.completion usageJson = 0 ↔
      countOf numberToInt usageJson (lit "reasoning_tokens") = 0 ∨
        c.completion = 0 ∧ 0 < countOf numberToInt usageJson (lit "reasoning_tokens") := by
  have hcompletion : ¬ c.completion < 0 :=
    Int32.not_lt.mpr (Int32.le_iff_toInt_le.mpr c.completion_nonneg)
  unfold cappedReasoning
  dsimp only
  generalize countOf numberToInt usageJson (lit "reasoning_tokens") = n
  split_ifs with hcapped
  · grind
  · grind

end TokenCounts

/-- **Two reports of the usage**, for every turn and every text of a usage object. -/
theorem usage_reports_iff (numberToInt : Bytes → Int32) (c : TokenCounts) (usageJson : Bytes)
    (e : Completion) :
    c.ReportsAgree numberToInt e usageJson ↔
      c.prompt = 0 ∧ c.completion = 0 ∨ c.FindsCounts numberToInt e usageJson := by
  have hresponse := fun report => c.readsUsage_response numberToInt usageJson report
  unfold TokenCounts.ReportsAgree
  by_cases hcounts : c.prompt = 0 ∧ c.completion = 0
  · refine ⟨fun _ => Or.inl hcounts, fun _ => ⟨.nothing, ?_, ?_, ?_, ?_⟩⟩
    · exact (c.readsUsage_event_zero e usageJson hcounts).mpr rfl
    · exact (hresponse _).mpr (if_pos hcounts).symm
    · rw [hcounts.2]
      decide
    · rw [hcounts.2]
      decide
  · rw [or_iff_right hcounts]
    constructor
    · intro h
      obtain ⟨report, hevent, hreads, hle, hsum⟩ := h
      have hreport := (hresponse report).mp hreads
      rw [if_neg hcounts] at hreport
      by_cases hroom : c.HasRoom e usageJson
      · rw [c.readsUsage_event e usageJson hcounts hroom] at hevent
        have hnone : (scanCount (lit "\"reasoning_tokens\"") usageJson).toInt = 0 := by
          rw [hevent] at hsum
          exact add_eq_left.mp hsum
        obtain ⟨hcached, hscanned, hcapped⟩ :=
          (c.reports_eq_iff numberToInt usageJson).mp ⟨hevent.symm.trans hreport, hnone⟩
        exact ⟨hroom, hcached, hscanned,
          (c.cappedReasoning_eq_zero_iff numberToInt usageJson).mp hcapped⟩
      · -- the response reports the counts, and the event nothing
        have hnothing := c.nothing_of_readsUsage_event e usageJson hcounts hroom hevent
        rw [hreport] at hnothing
        have hprompt : c.prompt.toInt = 0 := congrArg UsageReport.input hnothing
        have hcompletion : c.completion.toInt = 0 := congrArg UsageReport.output hnothing
        exact absurd ⟨Int32.toInt_inj.mp hprompt, Int32.toInt_inj.mp hcompletion⟩ hcounts
    · intro h
      have hcapped := (c.cappedReasoning_eq_zero_iff numberToInt usageJson).mpr h.reasoning
      obtain ⟨hsame, hnone⟩ :=
        (c.reports_eq_iff numberToInt usageJson).mpr ⟨h.cached, h.scanned, hcapped⟩
      refine ⟨c.eventReport usageJson, ?_, ?_, ?_, ?_⟩
      · exact (c.readsUsage_event e usageJson hcounts h.room).mpr rfl
      · exact (hresponse _).mpr (by rw [if_neg hcounts, hsame])
      · exact hnone.trans_le c.completion_nonneg
      · exact (congrArg (c.completion.toInt + ·) hnone).trans (Int.add_zero _)

/-- The counts of a turn with 400 tokens in its prompt and 100 in its output. -/
def reasoningCounts : TokenCounts where
  prompt := 400
  completion := 100
  prompt_nonneg := by decide
  completion_nonneg := by decide
  fits := by decide

/-- Reasoning tokens make the two reports differ, whatever reads the numbers. -/
theorem usage_reports_fail :
    ¬ ∀ (numberToInt : Bytes → Int32) (c : TokenCounts) (usageJson : Bytes) (e : Completion),
      (CJson.parse usageJson).map isObject = some true →
        c.ReportsAgree numberToInt e usageJson := by
  intro h
  have hagree := h (fun text => (atoi text).toInt32) reasoningCounts
    (lit "\x7b\"reasoning_tokens\":25\x7d") ⟨lit "resp", lit "ds4", 0, [], [], 5⟩
    (by decide +kernel)
  rcases (usage_reports_iff _ _ _ _).mp hagree with ⟨hprompt, -⟩ | hfinds
  · revert hprompt
    decide
  · have hscanned := hfinds.scanned
    revert hscanned
    decide +kernel

end StarBridge
