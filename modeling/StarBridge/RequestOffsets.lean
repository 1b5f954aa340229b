import StarBridge.RequestFrame

/-!
# Offsets in the request frame

`frame_build_request` appends to its allocation at an offset that it only ever adds to.
`frame_build_request_never_overruns` follows the offset from append to append: it stays
inside the allocation, so the room that is left never wraps around, no append is cut, and
the loop over the input reaches its end.
-/

namespace StarBridge

open CText

/-- What `frame_build_request` allocates. -/
def requestAlloc (args : RequestArgs) : Nat :=
  args.input.length * 2 + (args.toolHistory.getD []).length + 8192

/-- The frame up to the input. -/
def requestFront (args : RequestArgs) : Draft UInt8 :=
  Draft.start.print (requestAlloc args)
    (lit "\x7b\"type\":\"request\",\"id\":\"" ++ jsonEscape args.requestId 256 ++
      lit "\",\"input\":\"")

/-- The frame behind each of its appends, the first one first. -/
def requestDrafts (args : RequestArgs) : List (Draft UInt8) :=
  let alloc := requestAlloc args
  let front := requestFront args
  let looped := front.write (escapeInputFrom alloc args.input front.off)
  let input := looped.print alloc (lit "\"")
  let effort := printMember alloc (lit ",\"reasoning_effort\":\"") args.reasoningEffort input
  let previous :=
    printMember alloc (lit ",\"previous_response_id\":\"") args.previousResponseId effort
  let settings := previous.print alloc
    (lit ",\"auto_load_resume_session\":" ++ JsonGrammar.boolText args.autoLoadResumeSession ++
      lit ",\"context_tokens\":" ++ signedDecimal args.contextTokens ++
      lit ",\"reset_session\":" ++ JsonGrammar.boolText args.resetSession)
  let mode := settings.print alloc
    (lit ",\"tool_permission_mode\":\"auto_allow_safe\",\"do_not_prompt_for_read_only_tools\":true")
  let events := mode.print alloc
    (lit ",\"accepted_events\":[\"compaction.started\",\"compaction.summary\",\"compaction.completed\"]")
  let history := match historyPrinted args.toolHistory with
    | some history => events.print alloc (lit ",\"tool_history\":" ++ history)
    | none => events
  [front, looped, input, effort, previous, settings, mode, events, history, frameBuildRequest args]

theorem fits_of_printMember {alloc : Nat} {front text : Bytes} {d : Draft UInt8}
    (h : (printMember alloc front text d).Fits alloc) : d.Fits alloc := by
  unfold printMember at h
  split at h
  · exact h
  · exact h.of_print

theorem fits_of_historyPrinted {alloc : Nat} {toolHistory : Option Bytes} {d : Draft UInt8}
    (h : (match historyPrinted toolHistory with
      | some history => d.print alloc (lit ",\"tool_history\":" ++ history)
      | none => d).Fits alloc) : d.Fits alloc := by
  split at h
  · exact h.of_print
  · exact h

/-- **A frame that fits at last** fits behind each of its appends. -/
theorem fits_requestDrafts {args : RequestArgs}
    (h : (frameBuildRequest args).Fits (requestAlloc args)) :
    ∀ d ∈ requestDrafts args, d.Fits (requestAlloc args) := by
  have hhistory := Draft.Fits.of_print (α := UInt8) h
  have hevents := fits_of_historyPrinted hhistory
  have hmode := hevents.of_print
  have hsettings := hmode.of_print
  have hprevious := hsettings.of_print
  have heffort := fits_of_printMember hprevious
  have hinput := fits_of_printMember heffort
  have hlooped := hinput.of_print
  have hfront := hlooped.of_write
  unfold requestDrafts
  simp only [List.forall_mem_cons, List.not_mem_nil, false_implies, implies_true, and_true]
  exact ⟨hfront, hlooped, hinput, heffort, hprevious, hsettings, hmode, hevents, hhistory, h⟩

theorem requestFront_off_le (args : RequestArgs) : (requestFront args).off ≤ 290 := by
  have hid := jsonEscape_length_lt (show 0 < 256 by decide) args.requestId
  have hopen : (lit "\x7b\"type\":\"request\",\"id\":\"").length = 24 := length_lit _
  have hname : (lit "\",\"input\":\"").length = 11 := length_lit _
  show 0 + (lit "\x7b\"type\":\"request\",\"id\":\"" ++ jsonEscape args.requestId 256 ++
    lit "\",\"input\":\"").length ≤ 290
  rw [List.length_append, List.length_append, hopen, hname]
  omega

/-- **The frame is built inside its allocation.**  Behind every append all that was
appended is there, and the offset is inside; in front of every byte of the input the loop
has the room that it asks for. -/
theorem frame_build_request_never_overruns {args : RequestArgs} (h : args.Passed) :
    (∀ d ∈ requestDrafts args, d.Fits (requestAlloc args)) ∧
      (∀ kept c rest, args.input = kept ++ c :: rest →
        (requestFront args).off + (kept.flatMap escapeInputByte).length + 6 < requestAlloc args) ∧
      escapeInputFrom (requestAlloc args) args.input (requestFront args).off =
        args.input.flatMap escapeInputByte := by
  have hfront := requestFront_off_le args
  refine ⟨fits_requestDrafts ((whole_frameBuildRequest h).fits (length_text_lt h)), ?_, ?_⟩
  · intro kept c rest hinput
    have hkept := length_flatMap_escapeInput_le kept
    have hlength := congrArg List.length hinput
    rw [List.length_append, List.length_cons] at hlength
    unfold requestAlloc
    omega
  · refine escapeInputFrom_eq args.input ?_
    unfold requestAlloc
    omega

/-- A request for which every byte of the input is escaped. -/
theorem frame_build_request_never_overruns_quotes :
    (frameBuildRequest (plainRequest [34, 34])).Fits (requestAlloc (plainRequest [34, 34])) := by
  have hpassed : (plainRequest [34, 34]).Passed :=
    ⟨by decide +kernel, by decide, by decide, by decide, ⟨4096, by decide⟩⟩
  have hlast : frameBuildRequest (plainRequest [34, 34]) ∈ requestDrafts (plainRequest [34, 34]) := by
    unfold requestDrafts
    simp
  exact (frame_build_request_never_overruns hpassed).1 _ hlast

end StarBridge
