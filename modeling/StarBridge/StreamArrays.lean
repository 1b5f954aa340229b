import StarBridge.EscapeBuffer
import StarBridge.ResponsesStream

/-!
# The arrays of a stream

A stream keeps its items, their parts and the texts of these in arrays of fixed size, and
finds the current ones by their numbers.  Here every access of the source is checked: a
call that would leave an array, or read a text without an end, has no result.

`stream_stays_in_range` says that every sequence of calls has one, and what holds of the
numbers and the texts all along.
-/

namespace StarBridge.StreamArrays

open CText

/-! ## The state -/

/-- `RESPONSES_MAX_OUTPUT_ITEMS`. -/
def maxOutputItems : Nat := 16

/-- `RESPONSES_MAX_CONTENT_PARTS`. -/
def maxContentParts : Nat := 16

/-- The size of `text` and of `arguments`. -/
def partSize : Nat := 131072

/-- `ContentPart`. -/
structure PartSlot where
  type : ContentPartType
  text : Bytes
  name : Bytes
  arguments : Bytes
  seqStart : Int

/-- `OutputItem`. -/
structure ItemSlot where
  id : Bytes
  status : Bytes
  role : Bytes
  contentCount : Int
  parts : List PartSlot

/-- `StreamTerminalState`. -/
inductive StreamTerminalState
  | active
  | completed
  | cancelled
  | error
  | disconnected
  deriving DecidableEq, Repr

/-- `ResponsesStreamState`, with its arrays. -/
structure StreamState where
  id : Bytes
  model : Bytes
  sequenceNumber : Int
  headersSent : Bool
  itemCount : Int
  items : List ItemSlot
  curItem : Int
  curPart : Int
  terminalState : StreamTerminalState
  errorMessage : Bytes

/-- A part as `memset` leaves it. -/
def blankPart : PartSlot :=
  ⟨.outputText, List.replicate partSize 0, [], List.replicate partSize 0, 0⟩

/-- An item as `memset` leaves it. -/
def blankItem : ItemSlot := ⟨[], [], [], 0, List.replicate maxContentParts blankPart⟩

/-- `responses_stream_init`. -/
def responsesStreamInit (id model : Option Bytes) : StreamState where
  id := (id.map fun text => clip 64 (cstr text)).getD []
  model := (model.map fun text => clip 128 (cstr text)).getD []
  sequenceNumber := 0
  headersSent := false
  itemCount := 0
  items := List.replicate maxOutputItems blankItem
  curItem := -1
  curPart := -1
  terminalState := .active
  errorMessage := []

/-! ## Accesses -/

/-- An element of an array, if there is one of that number. -/
def fetch {α : Type*} (l : List α) (i : Int) : Option α := if 0 ≤ i then l[i.toNat]? else none

/-- An element of an array is overwritten. -/
def store {α : Type*} (l : List α) (i : Int) (a : α) : Option (List α) :=
  if 0 ≤ i ∧ i.toNat < l.length then some (l.set i.toNat a) else none

/-- `strlen` of the text in an array, if it ends there. -/
def textLength (buffer : Bytes) : Option Nat :=
  if 0 ∈ buffer then some (cstr buffer).length else none

/-- The text that has come is put behind the one in the array, if there is room. -/
def accumulate (buffer delta : Bytes) : Option Bytes :=
  (textLength buffer).bind fun current =>
    if current + delta.length < buffer.length then storeAt buffer current (delta ++ [0])
    else some buffer

/-! ## The calls -/

/-- `responses_stream_send_headers`, if the write goes well or not. -/
def responsesStreamSendHeaders (written : Bool) (s : StreamState) : Bool × StreamState :=
  if s.headersSent then (true, s)
  else if written then (true, { s with headersSent := true })
  else (false, s)

/-- The counter behind an event. -/
def StreamState.count (s : StreamState) : StreamState :=
  { s with sequenceNumber := s.sequenceNumber + 1 }

/-- `responses_stream_emit_created`. -/
def responsesStreamEmitCreated (written : Bool) (s : StreamState) : Option (Bool × StreamState) :=
  let (ok, s) := responsesStreamSendHeaders written s
  some (ok, if ok then s.count else s)

/-- `responses_stream_emit_output_item_added`, and `responses_stream_start_item`. -/
def responsesStreamEmitOutputItemAdded (s : StreamState) : Option (Bool × StreamState) :=
  let idx := s.itemCount
  if (maxOutputItems : Int) ≤ idx then some (false, s)
  else
    (fetch s.items idx).bind fun item =>
      (store s.items idx
          { item with
            id := lit "msg_" ++ decimal idx.toNat
            status := lit "in_progress"
            role := lit "assistant"
            contentCount := 0 }).map fun items =>
        (true, { s.count with
          items := items
          itemCount := s.itemCount + 1
          curItem := idx
          curPart := -1 })

/-- `responses_stream_emit_content_part_added`. -/
def responsesStreamEmitContentPartAdded (type : ContentPartType) (s : StreamState) :
    Option (Bool × StreamState) :=
  if s.curItem < 0 ∨ s.itemCount ≤ s.curItem then some (false, s)
  else
    (fetch s.items s.curItem).bind fun item =>
      let idx := item.contentCount
      if (maxContentParts : Int) ≤ idx then some (false, s)
      else
        (store item.parts idx { blankPart with type := type, seqStart := s.sequenceNumber }).bind
          fun parts =>
            (store s.items s.curItem
                { item with parts := parts, contentCount := item.contentCount + 1 }).map
              fun items => (true, { s.count with items := items, curPart := idx })

/-- The part that is current, with its item. -/
def currentPart (s : StreamState) : Option (ItemSlot × PartSlot) :=
  (fetch s.items s.curItem).bind fun item =>
    (fetch item.parts s.curPart).map fun part => (item, part)

/-- The current part is overwritten. -/
def storePart (s : StreamState) (item : ItemSlot) (part : PartSlot) : Option StreamState :=
  (store item.parts s.curPart part).bind fun parts =>
    (store s.items s.curItem { item with parts := parts }).map fun items =>
      { s with items := items }

/-- What the three emitters of deltas do, for the type of their parts and the array that
keeps the text. -/
def responsesStreamEmitDelta (type : ContentPartType)
    (keep : PartSlot → Bytes → Option PartSlot) (delta : Bytes) (s : StreamState) :
    Option (Bool × StreamState) :=
  if s.curItem < 0 ∨ s.curPart < 0 then some (false, s)
  else
    (currentPart s).bind fun (item, part) =>
      if part.type ≠ type then some (false, s)
      else
        (keep part (cstr delta)).bind fun part =>
          (storePart s.count item part).map fun s => (true, s)

/-- A piece for `text`. -/
def keepText (part : PartSlot) (delta : Bytes) : Option PartSlot :=
  (accumulate part.text delta).map fun text => { part with text := text }

/-- A piece for `arguments`. -/
def keepArguments (part : PartSlot) (delta : Bytes) : Option PartSlot :=
  (accumulate part.arguments delta).map fun arguments => { part with arguments := arguments }

/-- `responses_stream_emit_text_delta`. -/
def responsesStreamEmitTextDelta : Bytes → StreamState → Option (Bool × StreamState) :=
  responsesStreamEmitDelta .outputText keepText

/-- `responses_stream_emit_reasoning_delta`. -/
def responsesStreamEmitReasoningDelta : Bytes → StreamState → Option (Bool × StreamState) :=
  responsesStreamEmitDelta .reasoningSummary keepText

/-- `responses_stream_emit_function_call_delta`. -/
def responsesStreamEmitFunctionCallDelta : Bytes → StreamState → Option (Bool × StreamState) :=
  responsesStreamEmitDelta .functionCall keepArguments

/-- `responses_stream_emit_text_done`. -/
def responsesStreamEmitTextDone (s : StreamState) : Option (Bool × StreamState) :=
  if s.curItem < 0 ∨ s.curPart < 0 then some (false, s)
  else
    (currentPart s).bind fun (_, part) =>
      if part.type ≠ .outputText then some (false, s)
      else (textLength part.text).map fun _ => (true, s.count)

/-- `responses_stream_emit_content_part_done`. -/
def responsesStreamEmitContentPartDone (s : StreamState) : Option (Bool × StreamState) :=
  if s.curItem < 0 ∨ s.curPart < 0 then some (false, s)
  else
    (currentPart s).bind fun (_, part) =>
      (textLength part.text).map fun _ => (true, s.count)

/-- `responses_stream_emit_output_item_done`. -/
def responsesStreamEmitOutputItemDone (s : StreamState) : Option (Bool × StreamState) :=
  if s.curItem < 0 ∨ s.itemCount ≤ s.curItem then some (false, s)
  else
    (fetch s.items s.curItem).bind fun item =>
      (fetch item.parts 0).bind fun part =>
        (textLength part.text).bind fun _ =>
          (store s.items s.curItem { item with status := lit "completed" }).map fun items =>
            (true, { s.count with items := items })

/-- The first text of the first item, as `responses_stream_emit_completed` reads it. -/
def finalText (s : StreamState) : Option Nat :=
  if 0 < s.itemCount then
    (fetch s.items 0).bind fun item =>
      if 0 < item.contentCount then (fetch item.parts 0).bind fun part => textLength part.text
      else some 0
  else some 0

/-- `responses_stream_emit_completed`. -/
def responsesStreamEmitCompleted (s : StreamState) : Option (Bool × StreamState) :=
  (finalText s).map fun _ => (true, { s.count with terminalState := .completed })

/-- `responses_stream_emit_error`. -/
def responsesStreamEmitError (message : Option Bytes) (s : StreamState) :
    Option (Bool × StreamState) :=
  some (true, { s.count with
    errorMessage := clip 256 (cstr (message.getD []))
    terminalState := .error })

/-- `responses_stream_emit_failed`. -/
def responsesStreamEmitFailed (reason : Option Bytes) (s : StreamState) :
    Option (Bool × StreamState) :=
  let given := cstr (reason.getD [])
  some (true, { s.count with
    errorMessage := clip 256 (if given = [] then lit "failed" else given)
    terminalState := .error })

/-- `responses_stream_start_part`. -/
def responsesStreamStartPart (type : ContentPartType) (name : Option Bytes) (s : StreamState) :
    Option (Bool × StreamState) :=
  (responsesStreamEmitContentPartAdded type s).bind fun (ok, s) =>
    if ok = false then some (false, s)
    else
      match name with
      | none => some (true, s)
      | some name =>
          if type = .functionCall then
            (currentPart s).bind fun (item, part) =>
              (storePart s item { part with name := clip 64 (cstr name) }).map fun s => (true, s)
          else some (true, s)

/-- A call on a stream. -/
inductive StreamCall
  | created (written : Bool)
  | outputItemAdded
  | contentPartAdded (type : ContentPartType)
  | textDelta (delta : Bytes)
  | reasoningDelta (delta : Bytes)
  | functionCallDelta (delta : Bytes)
  | textDone
  | contentPartDone
  | outputItemDone
  | completed
  | error (message : Option Bytes)
  | failed (reason : Option Bytes)
  | startItem
  | startPart (type : ContentPartType) (name : Option Bytes)

/-- What a call returns, and the stream behind it. -/
def StreamCall.run (s : StreamState) : StreamCall → Option (Bool × StreamState)
  | .created written => responsesStreamEmitCreated written s
  | .outputItemAdded => responsesStreamEmitOutputItemAdded s
  | .contentPartAdded type => responsesStreamEmitContentPartAdded type s
  | .textDelta delta => responsesStreamEmitTextDelta delta s
  | .reasoningDelta delta => responsesStreamEmitReasoningDelta delta s
  | .functionCallDelta delta => responsesStreamEmitFunctionCallDelta delta s
  | .textDone => responsesStreamEmitTextDone s
  | .contentPartDone => responsesStreamEmitContentPartDone s
  | .outputItemDone => responsesStreamEmitOutputItemDone s
  | .completed => responsesStreamEmitCompleted s
  | .error message => responsesStreamEmitError message s
  | .failed reason => responsesStreamEmitFailed reason s
  | .startItem => responsesStreamEmitOutputItemAdded s
  | .startPart type name => responsesStreamStartPart type name s

/-- One call after the other. -/
def runCalls (s : StreamState) (calls : List StreamCall) : Option StreamState :=
  calls.foldlM (fun s call => (call.run s).map Prod.snd) s

/-! ## What holds all along -/

/-- The texts of a part end in their arrays. -/
structure PartSlot.Ends (part : PartSlot) : Prop where
  text : part.text.length = partSize ∧ 0 ∈ part.text
  arguments : part.arguments.length = partSize ∧ 0 ∈ part.arguments

structure ItemSlot.InRange (item : ItemSlot) : Prop where
  parts : item.parts.length = maxContentParts
  contentCount : 0 ≤ item.contentCount ∧ item.contentCount ≤ maxContentParts
  ends : ∀ part ∈ item.parts, part.Ends

/-- The numbers of a stream are in range, and its texts end in their arrays. -/
structure InRange (s : StreamState) : Prop where
  items : s.items.length = maxOutputItems
  itemCount : 0 ≤ s.itemCount ∧ s.itemCount ≤ maxOutputItems
  curItem : -1 ≤ s.curItem ∧ s.curItem < s.itemCount
  slots : ∀ item ∈ s.items, item.InRange
  curPart : s.curPart = -1 ∨ ∃ item, fetch s.items s.curItem = some item ∧
    0 ≤ s.curPart ∧ s.curPart < item.contentCount

/-! ## Accesses in range -/

section

variable {α : Type*} {l : List α} {i : Int}

theorem exists_fetch (hlow : 0 ≤ i) (hhigh : i < l.length) : ∃ a ∈ l, fetch l i = some a := by
  have hlt : i.toNat < l.length := by omega
  refine ⟨l[i.toNat], List.getElem_mem hlt, ?_⟩
  unfold fetch
  rw [if_pos hlow, List.getElem?_eq_getElem hlt]

theorem fetch_eq_some {a : α} (h : fetch l i = some a) : 0 ≤ i ∧ i < l.length ∧ a ∈ l := by
  unfold fetch at h
  split at h
  · rename_i hlow
    have hlt := (List.getElem?_eq_some_iff.mp h).1
    exact ⟨hlow, by omega, List.mem_of_getElem? h⟩
  · cases h

/-- **An overwritten array** is as long, has the new element at its place, and nothing
else that was not there. -/
theorem exists_store (hlow : 0 ≤ i) (hhigh : i < l.length) (a : α) :
    ∃ l', store l i a = some l' ∧ l'.length = l.length ∧ fetch l' i = some a ∧
      ∀ b ∈ l', b = a ∨ b ∈ l := by
  have hlt : i.toNat < l.length := by omega
  refine ⟨l.set i.toNat a, if_pos ⟨hlow, hlt⟩, List.length_set, ?_, ?_⟩
  · unfold fetch
    rw [if_pos hlow, List.getElem?_set_self hlt]
  · intro b hb
    rcases List.mem_or_eq_of_mem_set hb with hold | hnew
    · exact Or.inr hold
    · exact Or.inl hnew

end

/-- **A text with room for more** takes what has come, or stays. -/
theorem exists_accumulate {buffer : Bytes} (h : 0 ∈ buffer) (delta : Bytes) :
    ∃ buffer', accumulate buffer delta = some buffer' ∧ buffer'.length = buffer.length ∧
      0 ∈ buffer' := by
  unfold accumulate textLength
  rw [if_pos h, Option.bind_some]
  split
  · rename_i hroom
    have hinside : (cstr buffer).length + (delta ++ [0]).length ≤ buffer.length := by
      rw [List.length_append, List.length_singleton]
      omega
    unfold storeAt
    rw [if_pos hinside]
    refine ⟨_, rfl, ?_, ?_⟩
    · rw [List.length_append, List.length_append, List.length_take, List.length_drop]
      omega
    · simp
  · exact ⟨buffer, rfl, rfl, h⟩

theorem PartSlot.Ends.exists_keepText {part : PartSlot} (h : part.Ends) (delta : Bytes) :
    ∃ part', keepText part delta = some part' ∧ part'.Ends := by
  obtain ⟨text, htext, hlength, hend⟩ := exists_accumulate h.text.2 delta
  unfold keepText
  rw [htext]
  exact ⟨_, rfl, ⟨hlength.trans h.text.1, hend⟩, h.arguments⟩

theorem PartSlot.Ends.exists_keepArguments {part : PartSlot} (h : part.Ends) (delta : Bytes) :
    ∃ part', keepArguments part delta = some part' ∧ part'.Ends := by
  obtain ⟨arguments, harguments, hlength, hend⟩ := exists_accumulate h.arguments.2 delta
  unfold keepArguments
  rw [harguments]
  exact ⟨_, rfl, h.text, hlength.trans h.arguments.1, hend⟩

theorem PartSlot.Ends.textLength {part : PartSlot} (h : part.Ends) :
    textLength part.text = some (cstr part.text).length := if_pos h.text.2

theorem ends_blankPart (type : ContentPartType) (seqStart : Int) :
    PartSlot.Ends { blankPart with type := type, seqStart := seqStart } := by
  have hzero : 0 ∈ List.replicate partSize (0 : UInt8) :=
    List.mem_replicate.mpr ⟨by decide, rfl⟩
  exact ⟨⟨List.length_replicate, hzero⟩, List.length_replicate, hzero⟩

/-! ## What the calls keep -/

variable {s : StreamState}

/-- A call has a result, and leaves the stream in range. -/
def Safe (result : Option (Bool × StreamState)) : Prop :=
  ∃ ok s', result = some (ok, s') ∧ InRange s'

theorem InRange.safe (h : InRange s) (ok : Bool) : Safe (some (ok, s)) := ⟨ok, s, rfl, h⟩

theorem InRange.count (h : InRange s) : InRange s.count :=
  ⟨h.items, h.itemCount, h.curItem, h.slots, h.curPart⟩

/-- The current item. -/
theorem InRange.exists_item (h : InRange s) (hitem : ¬ (s.curItem < 0 ∨ s.itemCount ≤ s.curItem)) :
    ∃ item, fetch s.items s.curItem = some item ∧ item.InRange := by
  have hcount := h.itemCount.2
  obtain ⟨item, hmem, hfetch⟩ := exists_fetch (l := s.items) (i := s.curItem) (by omega)
    (by rw [h.items]; omega)
  exact ⟨item, hfetch, h.slots item hmem⟩

/-- The current part, and its item. -/
theorem InRange.exists_part (h : InRange s) (hpart : ¬ (s.curItem < 0 ∨ s.curPart < 0)) :
    ∃ item part, currentPart s = some (item, part) ∧ fetch s.items s.curItem = some item ∧
      item.InRange ∧ part.Ends := by
  rcases h.curPart with hnone | ⟨item, hfetch, hlow, hhigh⟩
  · omega
  · have hitem := h.slots item (fetch_eq_some hfetch).2.2
    have hcount := hitem.contentCount.2
    obtain ⟨part, hmem, hpart⟩ := exists_fetch hlow (l := item.parts)
      (by rw [hitem.parts]; omega)
    refine ⟨item, part, ?_, hfetch, hitem, hitem.ends part hmem⟩
    unfold currentPart
    rw [hfetch, Option.bind_some, hpart, Option.map_some]

/-- **The current item is overwritten** by one with as many parts at least. -/
theorem InRange.storeItem (h : InRange s) {item item' : ItemSlot}
    (hitem : fetch s.items s.curItem = some item) (hrange : item'.InRange)
    (hcount : item.contentCount ≤ item'.contentCount) :
    ∃ items, store s.items s.curItem item' = some items ∧
      fetch items s.curItem = some item' ∧ InRange { s with items := items } := by
  obtain ⟨hlow, hhigh, -⟩ := fetch_eq_some hitem
  obtain ⟨items, hstore, hlength, hfetch, hmem⟩ := exists_store hlow hhigh item'
  refine ⟨items, hstore, hfetch, hlength.trans h.items, h.itemCount, h.curItem, ?_, ?_⟩
  · intro other hother
    rcases hmem other hother with rfl | hold
    · exact hrange
    · exact h.slots other hold
  · rcases h.curPart with hnone | ⟨old, hold, hpart, hless⟩
    · exact Or.inl hnone
    · obtain rfl := Option.some.inj (hitem.symm.trans hold)
      exact Or.inr ⟨item', hfetch, hpart, lt_of_lt_of_le hless hcount⟩

/-- **The current part is overwritten.** -/
theorem InRange.storePart (h : InRange s) (hcur : ¬ (s.curItem < 0 ∨ s.curPart < 0))
    {item : ItemSlot} (hitem : fetch s.items s.curItem = some item) {part : PartSlot}
    (hpart : part.Ends) : ∃ s', storePart s item part = some s' ∧ InRange s' := by
  have hrange := h.slots item (fetch_eq_some hitem).2.2
  obtain ⟨hlow, hhigh⟩ : 0 ≤ s.curPart ∧ s.curPart < item.parts.length := by
    rcases h.curPart with hnone | ⟨old, hold, hlow, hless⟩
    · omega
    · obtain rfl := Option.some.inj (hitem.symm.trans hold)
      have hcount := hrange.contentCount.2
      rw [hrange.parts]
      omega
  obtain ⟨parts, hstore, hlength, -, hmem⟩ := exists_store hlow hhigh part
  have hrange' : ItemSlot.InRange { item with parts := parts } := by
    refine ⟨hlength.trans hrange.parts, hrange.contentCount, ?_⟩
    intro other hother
    rcases hmem other hother with rfl | hold
    · exact hpart
    · exact hrange.ends other hold
  obtain ⟨items, hitems, -, hinside⟩ := h.storeItem hitem hrange' (le_refl _)
  unfold StreamArrays.storePart
  rw [hstore, Option.bind_some, hitems]
  exact ⟨_, rfl, hinside⟩

/-! ## The calls, one by one -/

theorem safe_created (h : InRange s) (written : Bool) :
    Safe (responsesStreamEmitCreated written s) := by
  have hsent : InRange { s with headersSent := true } :=
    ⟨h.items, h.itemCount, h.curItem, h.slots, h.curPart⟩
  unfold responsesStreamEmitCreated responsesStreamSendHeaders
  by_cases hold : s.headersSent = true
  · rw [if_pos hold]
    exact h.count.safe true
  · rw [if_neg hold]
    by_cases hwritten : written = true
    · rw [if_pos hwritten]
      exact hsent.count.safe true
    · rw [if_neg hwritten]
      exact h.safe false

theorem safe_outputItemAdded (h : InRange s) : Safe (responsesStreamEmitOutputItemAdded s) := by
  unfold responsesStreamEmitOutputItemAdded
  dsimp only
  split
  · exact h.safe false
  · rename_i hroom
    obtain ⟨hlow, -⟩ := h.itemCount
    have hinside : s.itemCount < s.items.length := by
      rw [h.items]
      omega
    obtain ⟨item, hmem, hfetch⟩ := exists_fetch hlow hinside
    have hrange := h.slots item hmem
    obtain ⟨items, hstore, hlength, -, hitems⟩ := exists_store hlow hinside
      { item with
        id := lit "msg_" ++ decimal s.itemCount.toNat
        status := lit "in_progress"
        role := lit "assistant"
        contentCount := 0 }
    rw [hfetch, Option.bind_some, hstore, Option.map_some]
    refine ⟨true, _, rfl, hlength.trans h.items, ?_, ?_, ?_, Or.inl rfl⟩
    · show 0 ≤ s.itemCount + 1 ∧ s.itemCount + 1 ≤ maxOutputItems
      omega
    · show -1 ≤ s.itemCount ∧ s.itemCount < s.itemCount + 1
      omega
    · intro other hother
      rcases hitems other hother with rfl | hold
      · exact ⟨hrange.parts, ⟨le_refl _, show (0 : Int) ≤ maxContentParts by decide⟩, hrange.ends⟩
      · exact h.slots other hold

/-- **A part is added**, and is the current one, or the call fails. -/
theorem exists_contentPartAdded (h : InRange s) (type : ContentPartType) :
    ∃ ok s', responsesStreamEmitContentPartAdded type s = some (ok, s') ∧ InRange s' ∧
      (ok = true → ¬ (s'.curItem < 0 ∨ s'.curPart < 0)) := by
  unfold responsesStreamEmitContentPartAdded
  split
  · exact ⟨false, s, rfl, h, nofun⟩
  · rename_i hcur
    obtain ⟨item, hitem, hrange⟩ := h.exists_item hcur
    rw [hitem, Option.bind_some]
    dsimp only
    split
    · exact ⟨false, s, rfl, h, nofun⟩
    · rename_i hroom
      obtain ⟨hlow, -⟩ := hrange.contentCount
      have hinside : item.contentCount < item.parts.length := by
        rw [hrange.parts]
        omega
      obtain ⟨parts, hstore, hlength, -, hmem⟩ := exists_store hlow hinside
        { blankPart with type := type, seqStart := s.sequenceNumber }
      have hrange' : ItemSlot.InRange
          { item with parts := parts, contentCount := item.contentCount + 1 } := by
        refine ⟨hlength.trans hrange.parts, ?_, ?_⟩
        · show 0 ≤ item.contentCount + 1 ∧ item.contentCount + 1 ≤ maxContentParts
          omega
        · intro part hpart
          rcases hmem part hpart with rfl | hold
          · exact ends_blankPart type s.sequenceNumber
          · exact hrange.ends part hold
      obtain ⟨items, hitems, hfetch, hkept⟩ := h.storeItem hitem hrange'
        (show item.contentCount ≤ item.contentCount + 1 by omega)
      rw [hstore, Option.bind_some, hitems, Option.map_some]
      refine ⟨true, _, rfl, ⟨hkept.items, hkept.itemCount, hkept.curItem, hkept.slots, Or.inr ?_⟩,
        fun _ => ?_⟩
      · exact ⟨_, hfetch, hlow, show item.contentCount < item.contentCount + 1 by omega⟩
      · show ¬ (s.curItem < 0 ∨ item.contentCount < 0)
        omega

theorem safe_contentPartAdded (h : InRange s) (type : ContentPartType) :
    Safe (responsesStreamEmitContentPartAdded type s) := by
  obtain ⟨ok, s', hadded, hrange, -⟩ := exists_contentPartAdded h type
  exact ⟨ok, s', hadded, hrange⟩

/-- **A delta** is safe if its array takes it. -/
theorem safe_delta (h : InRange s) (type : ContentPartType)
    {keep : PartSlot → Bytes → Option PartSlot}
    (hkeep : ∀ part delta, part.Ends → ∃ part', keep part delta = some part' ∧ part'.Ends)
    (delta : Bytes) : Safe (responsesStreamEmitDelta type keep delta s) := by
  unfold responsesStreamEmitDelta
  split
  · exact h.safe false
  · rename_i hcur
    obtain ⟨item, part, hpart, hitem, -, hends⟩ := h.exists_part hcur
    rw [hpart, Option.bind_some]
    dsimp only
    split
    · exact h.safe false
    · obtain ⟨part', hkept, hends'⟩ := hkeep part (cstr delta) hends
      obtain ⟨s', hstore, hrange⟩ := h.count.storePart hcur hitem hends'
      rw [hkept, Option.bind_some, hstore, Option.map_some]
      exact hrange.safe true

theorem safe_textDone (h : InRange s) : Safe (responsesStreamEmitTextDone s) := by
  unfold responsesStreamEmitTextDone
  split
  · exact h.safe false
  · rename_i hcur
    obtain ⟨item, part, hpart, -, -, hends⟩ := h.exists_part hcur
    rw [hpart, Option.bind_some]
    dsimp only
    split
    · exact h.safe false
    · rw [hends.textLength, Option.map_some]
      exact h.count.safe true

theorem safe_contentPartDone (h : InRange s) : Safe (responsesStreamEmitContentPartDone s) := by
  unfold responsesStreamEmitContentPartDone
  split
  · exact h.safe false
  · rename_i hcur
    obtain ⟨item, part, hpart, -, -, hends⟩ := h.exists_part hcur
    rw [hpart, Option.bind_some]
    dsimp only
    rw [hends.textLength, Option.map_some]
    exact h.count.safe true

/-- Every item has a first part to read. -/
theorem ItemSlot.InRange.exists_first {item : ItemSlot} (h : item.InRange) :
    ∃ part, fetch item.parts 0 = some part ∧ part.Ends := by
  obtain ⟨part, hmem, hfetch⟩ := exists_fetch (l := item.parts) (i := 0) (le_refl _)
    (by rw [h.parts]; decide)
  exact ⟨part, hfetch, h.ends part hmem⟩

theorem safe_outputItemDone (h : InRange s) : Safe (responsesStreamEmitOutputItemDone s) := by
  unfold responsesStreamEmitOutputItemDone
  split
  · exact h.safe false
  · rename_i hcur
    obtain ⟨item, hitem, hrange⟩ := h.exists_item hcur
    obtain ⟨part, hpart, hends⟩ := hrange.exists_first
    obtain ⟨items, hstore, -, hkept⟩ := h.storeItem hitem
      (show ItemSlot.InRange { item with status := lit "completed" } from
        ⟨hrange.parts, hrange.contentCount, hrange.ends⟩) (le_refl _)
    rw [hitem, Option.bind_some, hpart, Option.bind_some, hends.textLength, Option.bind_some,
      hstore, Option.map_some]
    exact ⟨true, _, rfl, hkept.items, hkept.itemCount, hkept.curItem, hkept.slots, hkept.curPart⟩

theorem InRange.exists_finalText (h : InRange s) : ∃ length, finalText s = some length := by
  unfold finalText
  split
  · obtain ⟨item, hmem, hfetch⟩ := exists_fetch (l := s.items) (i := 0) (le_refl _)
      (by rw [h.items]; decide)
    rw [hfetch, Option.bind_some]
    split
    · obtain ⟨part, hpart, hends⟩ := (h.slots item hmem).exists_first
      rw [hpart, Option.bind_some, hends.textLength]
      exact ⟨_, rfl⟩
    · exact ⟨0, rfl⟩
  · exact ⟨0, rfl⟩

theorem safe_completed (h : InRange s) : Safe (responsesStreamEmitCompleted s) := by
  obtain ⟨length, hfinal⟩ := h.exists_finalText
  unfold responsesStreamEmitCompleted
  rw [hfinal]
  exact ⟨true, _, rfl, h.items, h.itemCount, h.curItem, h.slots, h.curPart⟩

theorem safe_startPart (h : InRange s) (type : ContentPartType) (name : Option Bytes) :
    Safe (responsesStreamStartPart type name s) := by
  obtain ⟨ok, s', hadded, hrange, hcur⟩ := exists_contentPartAdded h type
  unfold responsesStreamStartPart
  rw [hadded, Option.bind_some]
  dsimp only
  split
  · exact hrange.safe false
  · rename_i hok
    cases name with
    | none => exact hrange.safe true
    | some name =>
        dsimp only
        split
        · have hinside := hcur (Bool.eq_true_of_not_eq_false hok)
          obtain ⟨item, part, hpart, hitem, -, hends⟩ := hrange.exists_part hinside
          obtain ⟨s'', hstore, hrange'⟩ := hrange.storePart hinside hitem
            (show PartSlot.Ends { part with name := clip 64 (cstr name) } from
              ⟨hends.text, hends.arguments⟩)
          rw [hpart, Option.bind_some]
          dsimp only
          rw [hstore, Option.map_some]
          exact hrange'.safe true
        · exact hrange.safe true

/-- **Every call** is safe. -/
theorem safe_run (h : InRange s) (call : StreamCall) : Safe (call.run s) := by
  cases call with
  | created written => exact safe_created h written
  | outputItemAdded => exact safe_outputItemAdded h
  | contentPartAdded type => exact safe_contentPartAdded h type
  | textDelta delta =>
      exact safe_delta h _ (fun _ delta hends => hends.exists_keepText delta) delta
  | reasoningDelta delta =>
      exact safe_delta h _ (fun _ delta hends => hends.exists_keepText delta) delta
  | functionCallDelta delta =>
      exact safe_delta h _ (fun _ delta hends => hends.exists_keepArguments delta) delta
  | textDone => exact safe_textDone h
  | contentPartDone => exact safe_contentPartDone h
  | outputItemDone => exact safe_outputItemDone h
  | completed => exact safe_completed h
  | error message =>
      exact ⟨true, _, rfl, h.items, h.itemCount, h.curItem, h.slots, h.curPart⟩
  | failed reason =>
      exact ⟨true, _, rfl, h.items, h.itemCount, h.curItem, h.slots, h.curPart⟩
  | startItem => exact safe_outputItemAdded h
  | startPart type name => exact safe_startPart h type name

theorem inRange_init (id model : Option Bytes) : InRange (responsesStreamInit id model) where
  items := List.length_replicate
  itemCount := ⟨le_refl _, show (0 : Int) ≤ maxOutputItems by decide⟩
  curItem := ⟨le_refl _, show (-1 : Int) < 0 by decide⟩
  slots := by
    intro item hitem
    rw [List.eq_of_mem_replicate hitem]
    refine ⟨List.length_replicate, ⟨le_refl _, show (0 : Int) ≤ maxContentParts by decide⟩, ?_⟩
    intro part hpart
    rw [List.eq_of_mem_replicate hpart]
    exact ends_blankPart .outputText 0
  curPart := Or.inl rfl

theorem exists_runCalls (h : InRange s) (calls : List StreamCall) :
    ∃ s', runCalls s calls = some s' ∧ InRange s' := by
  induction calls generalizing s with
  | nil => exact ⟨s, rfl, h⟩
  | cons call calls ih =>
      obtain ⟨ok, s', hcall, hrange⟩ := safe_run h call
      obtain ⟨s'', hrun, hlast⟩ := ih hrange
      refine ⟨s'', ?_, hlast⟩
      unfold runCalls at hrun ⊢
      rw [List.foldlM_cons, hcall]
      exact hrun

/-- **A stream stays in range.**  From its start every sequence of calls has a result: no
call leaves an array.  The numbers are in range, and every text ends in its array. -/
theorem stream_stays_in_range (id model : Option Bytes) (calls : List StreamCall) :
    ∃ s, runCalls (responsesStreamInit id model) calls = some s ∧ InRange s :=
  exists_runCalls (inRange_init id model) calls

end StarBridge.StreamArrays
