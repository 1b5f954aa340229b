import StarBridge.PrintedJson
import StarBridge.RequestParser

/-!
# The texts of a request

A client's input array carries texts in several shapes.  The parser reads some
of them: an item is kept as one text, and a text is in it if the block or the
item it stands in is of a type the parser reads it from.  Where all texts are
so, the agent is given every one of them, whole and in order; elsewhere a text
is lost without an error.
-/

namespace StarBridge

open CText Loops

namespace RequestParser

/-! ## What a client's item carries -/

/-- The text of a content block. -/
def blockTexts (block : CJson) : List Bytes :=
  let type := block.stringField (lit "type")
  if isType type (lit "text") (lit "input_text") ∨ type = some (lit "output_text") then
    (block.stringValue (lit "text")).toList
  else []

/-- The content of a message: one text, or the texts of its blocks. -/
def contentTexts (obj : CJson) : List Bytes :=
  match obj.getObjectItem (lit "content") with
  | some (.string value) => [value]
  | some (.array blocks) => blocks.flatMap blockTexts
  | _ => []

/-- The texts an item carries: the content of a message, and a top-level
text. -/
def carriedTexts (obj : CJson) : List Bytes :=
  (if itemKind obj = .message then contentTexts obj else []) ++
    (obj.stringValue (lit "text")).toList

/-! ## What the parser does not read -/

/-- What `parse_content_block` makes of the type of a message. -/
def markType (type : InputItemType) (block : CJson) : InputItemType :=
  let blockType := block.stringField (lit "type")
  if isType blockType (lit "tool_call") (lit "function_call") then .toolCall
  else if isType blockType (lit "reasoning_summary") (lit "reasoning") then .reasoning
  else type

/-- The text of a block that `parse_content_block` passes over. -/
def passedTexts (block : CJson) : List Bytes :=
  if block.stringField (lit "type") = some (lit "output_text") then
    (block.stringValue (lit "text")).toList
  else []

/-- The texts in the content of a message that do not reach the agent: a content
that is a string, the texts of `output_text` blocks, and all texts when the last
block that marks the message is a tool call. -/
def lostContent (obj : CJson) : List Bytes :=
  match obj.getObjectItem (lit "content") with
  | some (.string value) => [value]
  | some (.array blocks) =>
      if blocks.foldl markType .message = .toolCall then blocks.flatMap blockTexts
      else blocks.flatMap passedTexts
  | _ => []

/-- The texts of an item that do not reach the agent as they are.  An item of an
unknown type is passed on as JSON, its text with escapes. -/
def lostTexts (obj : CJson) : List Bytes :=
  let text := (obj.stringValue (lit "text")).toList
  match itemKind obj with
  | .text | .reasoning => []
  | .unknown => text.filter fun t => escapeAll t ≠ t
  | .message => lostContent obj ++ text
  | .image | .toolCall | .toolOutput | .computer => text

/-- The item carries no terminator in a text, and nothing in a place where the
parser loses it. -/
structure KeepsTexts (obj : CJson) : Prop where
  zero_not_mem : ∀ t ∈ carriedTexts obj, 0 ∉ t
  lost : ∀ t ∈ lostTexts obj, t = []

instance (obj : CJson) : Decidable (KeepsTexts obj) :=
  decidable_of_iff ((∀ t ∈ carriedTexts obj, 0 ∉ t) ∧ ∀ t ∈ lostTexts obj, t = [])
    ⟨fun h => ⟨h.1, h.2⟩, fun h => ⟨h.1, h.2⟩⟩

/-! ## Messages -/

/-- A block marks the message it stands in. -/
theorem parseContentBlock_type (printNumber : Bytes → Bytes) (item : InputItem)
    (block : CJson) :
    (parseContentBlock printNumber item block).type = markType item.type block := by
  by_cases htext : isType (block.stringField (lit "type")) (lit "text") (lit "input_text")
  · have htool : ¬ isType (block.stringField (lit "type")) (lit "tool_call")
        (lit "function_call") := by
      rcases htext with h | h <;> rw [h] <;> decide
    have hreasoning : ¬ isType (block.stringField (lit "type")) (lit "reasoning_summary")
        (lit "reasoning") := by
      rcases htext with h | h <;> rw [h] <;> decide
    simp only [parseContentBlock, markType, if_pos htext, if_neg htool, if_neg hreasoning]
    split <;> rfl
  · by_cases htool : isType (block.stringField (lit "type")) (lit "tool_call")
        (lit "function_call")
    · simp only [parseContentBlock, markType, if_neg htext, if_pos htool]
    · by_cases hreasoning : isType (block.stringField (lit "type")) (lit "reasoning_summary")
          (lit "reasoning")
      · simp only [parseContentBlock, markType, if_neg htext, if_neg htool, if_pos hreasoning]
        split <;> rfl
      · simp only [parseContentBlock, markType, if_neg htext, if_neg htool, if_neg hreasoning]

/-- The blocks of a message decide its type. -/
theorem foldl_parseContentBlock_type (printNumber : Bytes → Bytes) (blocks : List CJson)
    (item : InputItem) :
    (blocks.foldl (parseContentBlock printNumber) item).type =
      blocks.foldl markType item.type := by
  induction blocks generalizing item with
  | nil => rfl
  | cons block rest ih =>
      rw [List.foldl_cons, List.foldl_cons, ih, parseContentBlock_type]

/-- A message stays one, or becomes a tool call or a reasoning item. -/
theorem foldl_markType (blocks : List CJson) {type : InputItemType}
    (h : type = .message ∨ type = .toolCall ∨ type = .reasoning) :
    blocks.foldl markType type = .message ∨ blocks.foldl markType type = .toolCall ∨
      blocks.foldl markType type = .reasoning := by
  induction blocks generalizing type with
  | nil => exact h
  | cons block rest ih =>
      rw [List.foldl_cons]
      apply ih
      simp only [markType]
      split
      · exact Or.inr (Or.inl rfl)
      · split
        · exact Or.inr (Or.inr rfl)
        · exact h

/-- A block adds its text to the message behind those of the blocks before. -/
theorem parseContentBlock_text (printNumber : Bytes → Bytes) (item : InputItem)
    {block : CJson} (hzero : ∀ t ∈ blockTexts block, 0 ∉ t)
    (hpassed : ∀ t ∈ passedTexts block, t = []) :
    ∃ more, (parseContentBlock printNumber item block).text.getD [] =
      item.text.getD [] ++ more ∧ InOrder (blockTexts block) more := by
  simp only [parseContentBlock]
  by_cases htext : isType (block.stringField (lit "type")) (lit "text") (lit "input_text")
  · rw [if_pos htext]
    have hcarried : blockTexts block = (block.stringValue (lit "text")).toList :=
      if_pos (Or.inl htext)
    rw [hcarried] at hzero ⊢
    rw [CJson.stringField_eq]
    cases hvalue : block.stringValue (lit "text") with
    | none => exact ⟨[], (List.append_nil _).symm, trivial⟩
    | some value =>
        rw [hvalue] at hzero
        have hwhole : cstr value = value := upTo_eq_self (hzero value (List.mem_singleton.mpr rfl))
        rw [Option.map_some, hwhole]
        exact ⟨lineBreak (item.text.getD []) ++ value, rfl, lineBreak (item.text.getD []), [],
          by rw [List.append_nil], trivial⟩
  · have hempty : ∀ t ∈ blockTexts block, t = [] := by
      intro t ht
      simp only [blockTexts] at ht
      split at ht
      · next hkind =>
          rcases hkind with h | hout
          · exact absurd h htext
          · exact hpassed t (by rw [passedTexts, if_pos hout]; exact ht)
      · cases ht
    rw [if_neg htext]
    have hmore : ∀ more : Bytes, InOrder (blockTexts block) more := inOrder_of_empty hempty
    split
    · exact ⟨[], (List.append_nil _).symm, hmore []⟩
    · split
      · split
        · next value _ => exact ⟨value, rfl, hmore value⟩
        · exact ⟨[], (List.append_nil _).symm, hmore []⟩
      · exact ⟨[], (List.append_nil _).symm, hmore []⟩

/-- The texts of the blocks stand in the text of the message, in block order. -/
theorem foldl_parseContentBlock_text (printNumber : Bytes → Bytes) (blocks : List CJson)
    (item : InputItem) (hzero : ∀ t ∈ blocks.flatMap blockTexts, 0 ∉ t)
    (hpassed : ∀ t ∈ blocks.flatMap passedTexts, t = []) :
    ∃ more, (blocks.foldl (parseContentBlock printNumber) item).text.getD [] =
      item.text.getD [] ++ more ∧ InOrder (blocks.flatMap blockTexts) more := by
  induction blocks generalizing item with
  | nil => exact ⟨[], (List.append_nil _).symm, trivial⟩
  | cons block rest ih =>
      rw [List.flatMap_cons, List.forall_mem_append] at hzero hpassed
      obtain ⟨first, hfirst, hone⟩ := parseContentBlock_text printNumber item hzero.1 hpassed.1
      obtain ⟨more, hmore, hrest⟩ :=
        ih (parseContentBlock printNumber item block) hzero.2 hpassed.2
      refine ⟨first ++ more, ?_, hone.append hrest⟩
      rw [List.foldl_cons, hmore, hfirst, List.append_assoc]

/-- The agent sees the text of a message, a text item and a reasoning item
whole. -/
theorem InputItem.pieces_text {item : InputItem}
    (h : item.type = .message ∨ item.type = .reasoning ∨ item.type = .text) (dest : Bytes) :
    ∃ front, (item.pieces dest).flatten = front ++ item.text.getD [] := by
  unfold InputItem.pieces
  rcases h with h | h | h
  · rw [h]
    exact ⟨lineBreak dest ++ ((if item.role = [] then lit "user" else item.role) ++ lit ": "),
      by simp [List.append_assoc]⟩
  · rw [h]
    exact ⟨lineBreak dest ++ lit "reasoning: ", by simp [List.append_assoc]⟩
  · rw [h]
    dsimp only
    split
    · next hempty => exact ⟨[], hempty.symm⟩
    · exact ⟨lineBreak dest, by simp⟩

/-- So the texts in it are shown in order. -/
theorem InputItem.pieces_inOrder {item : InputItem} {texts : List Bytes}
    (h : item.type = .message ∨ item.type = .reasoning ∨ item.type = .text)
    (htexts : InOrder texts (item.text.getD [])) (dest : Bytes) :
    InOrder texts (item.pieces dest).flatten := by
  obtain ⟨front, hfront⟩ := InputItem.pieces_text h dest
  rw [hfront]
  have hwide := htexts.widen front []
  rw [List.append_nil] at hwide
  exact hwide

/-- A message shows the texts of its blocks in order, if no block is passed over
and the message does not become a tool call. -/
theorem blocks_texts {printNumber : Bytes → Bytes} {blocks : List CJson} {item : InputItem}
    (htype : item.type = .message) (hmark : blocks.foldl markType .message ≠ .toolCall)
    (hzero : ∀ t ∈ blocks.flatMap blockTexts, 0 ∉ t)
    (hpassed : ∀ t ∈ blocks.flatMap passedTexts, t = []) (dest : Bytes) :
    InOrder (blocks.flatMap blockTexts)
      (((blocks.foldl (parseContentBlock printNumber) item).pieces dest).flatten) := by
  have hend := foldl_parseContentBlock_type printNumber blocks item
  rw [htype] at hend
  have hshown : blocks.foldl markType .message = .message ∨
      blocks.foldl markType .message = .reasoning ∨ blocks.foldl markType .message = .text := by
    rcases foldl_markType blocks (Or.inl rfl) with h | h | h
    · exact Or.inl h
    · exact absurd h hmark
    · exact Or.inr (Or.inl h)
  rw [← hend] at hshown
  obtain ⟨more, hmore, horder⟩ :=
    foldl_parseContentBlock_text printNumber blocks item hzero hpassed
  refine InputItem.pieces_inOrder hshown ?_ dest
  rw [hmore]
  have hwide := horder.widen (item.text.getD []) []
  rw [List.append_nil] at hwide
  exact hwide

/-- A message that keeps its texts shows them in order. -/
theorem message_texts {printNumber : Bytes → Bytes} {obj : CJson}
    (hzero : ∀ t ∈ contentTexts obj, 0 ∉ t) (hlost : ∀ t ∈ lostContent obj, t = [])
    (dest : Bytes) :
    InOrder (contentTexts obj) ((parseMessage printNumber obj).pieces dest).flatten := by
  unfold contentTexts at hzero ⊢
  unfold lostContent at hlost
  split at hlost
  · exact inOrder_of_empty hlost _
  · next blocks hcontent =>
      have hblocks : contentBlocks obj = blocks := by
        rw [contentBlocks, CJson.getArray, hcontent]
        rfl
      split at hlost
      · exact inOrder_of_empty hlost _
      · next hmark =>
          rw [hcontent] at hzero
          unfold parseMessage
          rw [hblocks]
          exact blocks_texts rfl hmark hzero hlost dest
  · trivial

/-! ## The other items -/

/-- A text without escapes stands in the JSON of its item as it is. -/
theorem text_infix_print {printNumber : Bytes → Bytes} {obj : CJson} {text : Bytes}
    (htext : obj.stringValue (lit "text") = some text) (hzero : 0 ∉ text)
    (hplain : escapeAll text = text) : text <:+: obj.print printNumber := by
  unfold CJson.stringValue at htext
  split at htext
  · next value hmember =>
      cases htext
      cases obj with
      | object members =>
          obtain ⟨m, hfind, hvalue⟩ := Option.map_eq_some_iff.mp hmember
          have hmem : m ∈ members := List.mem_of_find?_eq_some hfind
          have hprinted := CJson.print_infix_printMembers printNumber hmem
          rw [hvalue, CJson.print, CJson.printString, show cstr text = text from
            upTo_eq_self hzero, hplain] at hprinted
          have hquoted : text <:+: 34 :: (text ++ [34]) := ⟨[34], [34], rfl⟩
          refine (hquoted.trans hprinted).trans ⟨lit "\x7b", lit "\x7d", ?_⟩
          rw [CJson.print]
      | _ => cases hmember
  · cases htext

/-- A top-level text that is read is shown whole. -/
theorem topLevel_text {obj : CJson} (hzero : ∀ t ∈ (obj.stringValue (lit "text")).toList, 0 ∉ t) :
    InOrder (obj.stringValue (lit "text")).toList ((obj.stringField (lit "text")).getD []) := by
  rw [CJson.stringField_eq]
  cases htext : obj.stringValue (lit "text") with
  | none => trivial
  | some text =>
      rw [htext] at hzero
      have hwhole : cstr text = text := upTo_eq_self (hzero text (List.mem_singleton.mpr rfl))
      rw [Option.map_some, Option.getD_some, hwhole]
      exact inOrder_singleton.mpr (List.infix_refl text)

/-- **An item that keeps its texts shows all of them, whole and in order.** -/
theorem item_texts {printNumber : Bytes → Bytes} {obj : CJson} (h : KeepsTexts obj)
    (dest : Bytes) :
    InOrder (carriedTexts obj) (((parseInputItem printNumber obj).pieces dest).flatten) := by
  have hzero := h.zero_not_mem
  have hlost := h.lost
  unfold carriedTexts at hzero ⊢
  unfold lostTexts at hlost
  unfold parseInputItem
  -- an item that is no message has at most one text
  cases hkind : itemKind obj with
  | message =>
      rw [hkind, if_pos rfl, List.forall_mem_append] at hzero
      rw [hkind] at hlost
      replace hlost := List.forall_mem_append.mp hlost
      rw [if_pos rfl]
      have hcontent : InOrder (contentTexts obj)
          ((parseMessage printNumber obj).pieces dest).flatten :=
        message_texts hzero.1 hlost.1 dest
      have hall := hcontent.append (inOrder_of_empty hlost.2 [])
      rw [List.append_nil] at hall
      exact hall
  | text =>
      rw [hkind, if_neg (by decide), List.nil_append] at hzero
      rw [if_neg (by decide), List.nil_append]
      exact InputItem.pieces_inOrder (Or.inr (Or.inr rfl)) (topLevel_text hzero) dest
  | reasoning =>
      rw [hkind, if_neg (by decide), List.nil_append] at hzero
      rw [if_neg (by decide), List.nil_append]
      exact InputItem.pieces_inOrder (Or.inr (Or.inl rfl)) (topLevel_text hzero) dest
  | unknown =>
      rw [hkind, if_neg (by decide), List.nil_append] at hzero
      rw [hkind] at hlost
      rw [if_neg (by decide), List.nil_append]
      refine InputItem.pieces_inOrder (Or.inr (Or.inr rfl)) ?_ dest
      rw [Option.getD_some]
      cases htext : obj.stringValue (lit "text") with
      | none => trivial
      | some text =>
          rw [htext] at hzero hlost
          apply inOrder_singleton.mpr
          by_cases hplain : escapeAll text = text
          · exact text_infix_print htext (hzero text (List.mem_singleton.mpr rfl)) hplain
          · rw [hlost text (List.mem_filter.mpr
              ⟨List.mem_singleton.mpr rfl, decide_eq_true hplain⟩)]
            exact List.nil_infix
  | image | toolCall | toolOutput | computer =>
      rw [hkind] at hlost
      rw [if_neg (by decide), List.nil_append]
      exact inOrder_of_empty hlost _

/-! ## The whole input -/

/-- The text a parsed array adds shows the texts of its items in order. -/
theorem parseInputArray_texts {cfg : RequestConfig} {items : List CJson} {dest : Bytes}
    {out : List InputItem × Bytes} (hkept : ∀ item ∈ items, KeepsTexts item)
    (h : parseInputArray cfg items dest = .running out) :
    ∃ more, out.2 = dest ++ more ∧ InOrder (items.flatMap carriedTexts) more := by
  have hstep : ∀ (read : List CJson) (s : List InputItem × Bytes) (obj : CJson)
      (s' : List InputItem × Bytes),
      ((∀ item ∈ read, KeepsTexts item) →
        ∃ more, s.2 = dest ++ more ∧ InOrder (read.flatMap carriedTexts) more) →
      parseArrayItem cfg s obj = .running s' →
      (∀ item ∈ read ++ [obj], KeepsTexts item) →
        ∃ more, s'.2 = dest ++ more ∧ InOrder ((read ++ [obj]).flatMap carriedTexts) more := by
    intro read s obj s' hs hround hall
    rw [List.forall_mem_append] at hall
    obtain ⟨more, hmore, horder⟩ := hs hall.1
    have hobj : KeepsTexts obj := hall.2 obj (List.mem_singleton.mpr rfl)
    refine ⟨more ++ ((parseInputItem cfg.printNumber obj).pieces s.2).flatten, ?_, ?_⟩
    · rw [(parseArrayItem_running hround).2, hmore, List.append_assoc]
    · rw [List.flatMap_append, List.flatMap_singleton]
      exact horder.append (item_texts hobj s.2)
  have hstart : (∀ item ∈ ([] : List CJson), KeepsTexts item) →
      ∃ more, (([], dest) : List InputItem × Bytes).2 = dest ++ more ∧
        InOrder (([] : List CJson).flatMap carriedTexts) more :=
    fun _ => ⟨[], by simp, trivial⟩
  exact run_processed hstep hstart h hkept

/-- The items of the input array of a body. -/
def inputItems (body : Bytes) : List CJson :=
  ((CJson.parse body).bind fun obj => obj.getArray (lit "input")).getD []

/-- Input normalisation drops no text: the texts that the items of the input
array carry occur whole in the text for the agent, in item and block order. -/
structure DropsNoText (body : Bytes) (req : HarnessRequest) : Prop where
  inOrder : InOrder ((inputItems body).flatMap carriedTexts) req.normalizedInput

/-- A text that is carried alone occurs. -/
theorem DropsNoText.single {body : Bytes} {req : HarnessRequest} {text : Bytes}
    (h : DropsNoText body req) (htext : (inputItems body).flatMap carriedTexts = [text]) :
    text <:+: req.normalizedInput := by
  have horder := h.inOrder
  rw [htext] at horder
  exact inOrder_singleton.mp horder

/-- The array of an accepted body has been read to its end. -/
theorem inputItems_read {cfg : RequestConfig} {body : Bytes} {req : HarnessRequest}
    (h : codexParseRequest cfg body = .ok req) :
    inputItems body = [] ∨ ∃ dest, parseInputArray cfg (inputItems body) dest =
      .running (req.inputItems, req.normalizedInput) := by
  unfold inputItems
  cases hparse : CJson.parse body with
  | none => exact Or.inl rfl
  | some obj =>
      rw [Option.bind_some]
      cases hinput : obj.getObjectItem (lit "input") with
      | none => exact Or.inl (by rw [CJson.getArray, hinput]; rfl)
      | some input =>
          cases input with
          | array items =>
              have hitems : (obj.getArray (lit "input")).getD [] = items := by
                rw [CJson.getArray, hinput]
                rfl
              rw [hitems]
              exact Or.inr (parseObject_array (codexParseRequest_object hparse h) hinput)
          | _ => exact Or.inl (by rw [CJson.getArray, hinput]; rfl)

/-- **An accepted request whose items keep their texts drops no text.** -/
theorem drops_no_text (cfg : RequestConfig) (body : Bytes) (req : HarnessRequest)
    (haccept : codexParseRequest cfg body = .ok req)
    (hkept : ∀ item ∈ inputItems body, KeepsTexts item) : DropsNoText body req := by
  constructor
  rcases inputItems_read haccept with hnone | ⟨dest, hrun⟩
  · rw [hnone]
    trivial
  · obtain ⟨more, hmore, horder⟩ := parseInputArray_texts hkept hrun
    dsimp only at hmore
    rw [hmore]
    have hwide := horder.widen dest []
    rw [List.append_nil] at hwide
    exact hwide

/-- A configuration as it is shipped. -/
def shippedConfig : RequestConfig := ⟨8 * 1024 * 1024, lit "medium", id⟩

/-- A message of two blocks, and a text behind it. -/
def textsBody : Bytes :=
  lit "\x7b\"input\":[\x7b\"role\":\"user\",\"content\":[" ++
  lit "\x7b\"type\":\"input_text\",\"text\":\"one\"\x7d," ++
  lit "\x7b\"type\":\"text\",\"text\":\"two\"\x7d]\x7d," ++
  lit "\x7b\"type\":\"text\",\"text\":\"three\"\x7d]\x7d"

theorem drops_no_text_example :
    ∃ req, codexParseRequest shippedConfig textsBody = .ok req ∧ DropsNoText textsBody req := by
  have hsome : (codexParseRequest shippedConfig textsBody).toOption.isSome = true := by
    decide +kernel
  have hkept : ∀ item ∈ inputItems textsBody, KeepsTexts item := by decide +kernel
  cases hparse : codexParseRequest shippedConfig textsBody with
  | error error =>
      rw [hparse] at hsome
      cases hsome
  | ok req =>
      exact ⟨req, rfl, drops_no_text shippedConfig textsBody req hparse hkept⟩

/-- A message whose content is a string. -/
def stringBody : Bytes :=
  lit "\x7b\"input\":[\x7b\"role\":\"user\",\"content\":\"hi\"\x7d]\x7d"

/-- The agent is told that the user said something, and not what. -/
theorem drops_no_text_fails :
    ∃ req, codexParseRequest shippedConfig stringBody = .ok req ∧
      req.normalizedInput = lit "user: " ∧ ¬ DropsNoText stringBody req := by
  have htext : (codexParseRequest shippedConfig stringBody).toOption.map (·.normalizedInput) =
      some (lit "user: ") := by
    decide +kernel
  have hcarried : (inputItems stringBody).flatMap carriedTexts = [lit "hi"] := by
    decide +kernel
  cases hparse : codexParseRequest shippedConfig stringBody with
  | error error =>
      rw [hparse] at htext
      cases htext
  | ok req =>
      rw [hparse] at htext
      have hinput : req.normalizedInput = lit "user: " := Option.some.inj htext
      refine ⟨req, rfl, hinput, ?_⟩
      intro h
      have hshown := h.single hcarried
      rw [hinput, ← occurs_iff] at hshown
      exact absurd hshown (by decide +kernel)

end RequestParser

end StarBridge
