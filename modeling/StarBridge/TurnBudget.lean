import StarBridge.TurnLoop

/-!
# How many frames a turn reads

`turn_process_events` gives up after `max_turn_events` events, but its counter is
not advanced by every frame: a lifecycle frame whose id is not the turn's is let
through by a `continue` in front of it.  `turn_bounded_iff` says that the cap is a
cap on the frames read iff the agent sends no such frame.
-/

namespace StarBridge

open CText Loops

/-- A read that brought a frame. -/
def LoopEvent.isFrame : LoopEvent → Bool
  | .frame _ => true
  | _ => false

/-- The frames a turn reads until it is over, or until no more come. -/
def framesRead (env : TurnEnv) (s : TurnState) (events : List LoopEvent) : Nat :=
  match settle env (s.enter env) with
  | .running s => consumed (turnEvent env) LoopEvent.isFrame s events
  | .ended _ => 0

/-- A lifecycle frame with an id that is not the turn's. -/
def ForeignLifecycle (env : TurnEnv) (frame : Bytes) : Prop :=
  (nativeParseFrame env.parser frame).id ≠ [] ∧ ¬ echoesId env frame ∧
    (nativeParseFrame env.parser frame).type.isLifecycle = true

/-- The events with frames from a set only. -/
def Brings (frames : Set Bytes) (e : LoopEvent) : Prop :=
  ∀ frame, e = .frame frame → frame ∈ frames

/-! ## What counts -/

theorem toolIntentFrame_count {env : TurnEnv} {s s' : TurnState} {toolName toolArgs : Bytes}
    (h : toolIntentFrame env s toolName toolArgs = .running s') :
    s'.eventCount = s.eventCount + 1 := by
  unfold toolIntentFrame at h
  dsimp only at h
  split at h
  · cases h
  · cases h
    obtain ⟨runs, answer, hanswer, -⟩ := answerTool_keeps env s.countTool toolName toolArgs
    rw [hanswer]
    rfl

/-- An event that the loop goes on after has been counted. -/
theorem dispatchEvent_count {env : TurnEnv} {s s' : TurnState} {frame : Bytes}
    {ev : NativeEvent} (h : dispatchEvent env s frame ev = .running s') :
    s'.eventCount = s.eventCount + 1 := by
  unfold dispatchEvent at h
  split at h
  · rename_i text _ _ _ _
    cases h
    obtain ⟨outBuf, stream, htext⟩ := textDeltaFrame_keeps env s text
    rw [htext]
  · cases h
    rfl
  · cases h
  · cases h
  · exact toolIntentFrame_count h
  · cases h
  · split at h
    · cases h
      rfl
    · cases h
      rfl
  · cases h
    rfl

/-- A frame that the loop goes on after has been counted, unless it is a foreign
lifecycle frame. -/
theorem frameEvent_count {env : TurnEnv} {s s' : TurnState} {frame : Bytes}
    (hforeign : ¬ ForeignLifecycle env frame) (h : frameEvent env s frame = .running s') :
    s'.eventCount = s.eventCount + 1 := by
  unfold frameEvent at h
  dsimp only at h
  split at h
  · rename_i hid
    unfold foreignFrame at h
    split at h
    · rename_i hlifecycle
      exact absurd ⟨hid.1, hid.2, hlifecycle⟩ hforeign
    · cases h
  · have hnext := dispatchEvent_count h
    exact hnext

/-- A foreign lifecycle frame leaves the loop where it was, with its clock reset. -/
theorem frameEvent_of_foreign {env : TurnEnv} {frame : Bytes} (h : ForeignLifecycle env frame)
    (s : TurnState) :
    frameEvent env s frame = .running { s.beat with remainingTimeout := env.fullTimeout } := by
  obtain ⟨hid, hecho, hlifecycle⟩ := h
  unfold frameEvent
  dsimp only
  rw [if_pos ⟨hid, hecho⟩, foreignFrame, if_pos hlifecycle]

/-- A round that brings no frame is not counted. -/
theorem turnEvent_count {env : TurnEnv} {s s' : TurnState} {e : LoopEvent}
    (hforeign : ∀ frame, e = .frame frame → ¬ ForeignLifecycle env frame)
    (h : turnEvent env s e = .running s') :
    s'.eventCount = s.eventCount + if e.isFrame then 1 else 0 := by
  obtain ⟨t, hevent, hsettle⟩ := Progress.bind_eq_running h
  obtain ⟨rfl, -⟩ := settle_eq_running hsettle
  cases e with
  | control connections =>
      dsimp only at hevent
      unfold controlEvent at hevent
      dsimp only at hevent
      split at hevent
      · cases hevent
      · cases hevent
        unfold TurnState.serveControl
        split <;> rfl
  | frame text => exact frameEvent_count (hforeign text rfl) hevent
  | idle late =>
      dsimp only at hevent
      unfold idleEvent at hevent
      dsimp only at hevent
      split at hevent
      · cases hevent
      · cases hevent
        rfl

/-! ## The cap -/

/-- A turn whose agent sends no foreign lifecycle frames reads no more frames than
its cap. -/
theorem framesRead_le (env : TurnEnv) (s : TurnState) {events : List LoopEvent}
    (h : ∀ e ∈ events, ∀ frame, e = .frame frame → ¬ ForeignLifecycle env frame) :
    framesRead env s events ≤ env.maxTurnEvents.toNat := by
  unfold framesRead
  split
  · rename_i t hsettle
    obtain ⟨rfl, hcount⟩ := settle_eq_running hsettle
    let budget : TurnState → Nat := fun s => (env.maxTurnEvents - s.eventCount).toNat
    have hle : consumed (turnEvent env) LoopEvent.isFrame (s.enter env) events ≤
        budget (s.enter env) := by
      refine consumed_le (I := fun s => (s.eventCount : Int) < env.maxTurnEvents) ?_ ?_ hcount h
      · intro s hs
        show 0 < (env.maxTurnEvents - s.eventCount).toNat
        omega
      · intro s e s' hs he hrun
        have hnext := turnEvent_count he hrun
        obtain ⟨t, -, hsettle⟩ := Progress.bind_eq_running hrun
        obtain ⟨rfl, hcount⟩ := settle_eq_running hsettle
        refine ⟨hcount, ?_⟩
        show (if e.isFrame then 1 else 0) + (env.maxTurnEvents - s'.eventCount).toNat ≤
          (env.maxTurnEvents - s.eventCount).toNat
        split_ifs at hnext ⊢ <;> omega
    exact hle.trans (Int.toNat_le_toNat (by simp [TurnState.enter]))
  · exact Nat.zero_le _

/-- A turn reads foreign lifecycle frames as long as they come. -/
theorem consumed_replicate_foreign {env : TurnEnv} {frame : Bytes}
    (h : ForeignLifecycle env frame) {s : TurnState}
    (hs : (s.eventCount : Int) < env.maxTurnEvents) (n : Nat) :
    consumed (turnEvent env) LoopEvent.isFrame s (List.replicate n (.frame frame)) = n := by
  induction n generalizing s with
  | zero => rfl
  | succ n ih =>
      have hround : turnEvent env s (.frame frame) =
          .running { s.beat with remainingTimeout := env.fullTimeout } := by
        unfold turnEvent
        dsimp only
        rw [frameEvent_of_foreign h s, Progress.bind_running, settle, if_pos]
        exact hs
      have hrest := ih (s := { s.beat with remainingTimeout := env.fullTimeout }) hs
      rw [List.replicate_succ, consumed, hround]
      dsimp only
      rw [hrest]
      exact Nat.add_comm 1 n

/-- **The cap on frames**, exactly.  Whatever an agent sends of its frames, in
whatever order and for however long, a turn reads at most `max_turn_events` of them
iff no lifecycle frame with a foreign id is among them, or the cap lets the turn
read none. -/
theorem turn_bounded_iff (env : TurnEnv) (s : TurnState) (frames : Set Bytes) :
    (∀ events : List LoopEvent, (∀ e ∈ events, Brings frames e) →
        framesRead env s events ≤ env.maxTurnEvents.toNat) ↔
      env.maxTurnEvents ≤ 0 ∨ ∀ frame ∈ frames, ¬ ForeignLifecycle env frame := by
  constructor
  · intro hbounded
    by_contra hnot
    rw [not_or, not_le] at hnot
    obtain ⟨hpos, hsome⟩ := hnot
    rw [not_forall₂] at hsome
    obtain ⟨frame, hmem, hforeign⟩ := hsome
    rw [not_not] at hforeign
    have hcount : (((s.enter env).eventCount : Nat) : Int) < env.maxTurnEvents := hpos
    have hle := hbounded (List.replicate (env.maxTurnEvents.toNat + 1) (.frame frame)) (by
      intro e he frame' hframe
      rw [List.eq_of_mem_replicate he] at hframe
      cases hframe
      exact hmem)
    have hsettle : settle env (s.enter env) = .running (s.enter env) := if_pos hcount
    rw [framesRead, hsettle] at hle
    dsimp only at hle
    rw [consumed_replicate_foreign hforeign hcount] at hle
    omega
  · rintro (hnone | hall) events hevents
    · have hsettle : ¬ (((s.enter env).eventCount : Nat) : Int) < env.maxTurnEvents :=
        not_lt.mpr hnone
      rw [framesRead, settle, if_neg hsettle]
      exact Nat.zero_le _
    · exact framesRead_le env s fun e he frame hframe => hall frame (hevents e he frame hframe)

/-- A ping of another turn. -/
def foreignPing : Bytes := lit "\x7b\"type\":\"ping\",\"id\":\"req-1\"\x7d"

theorem foreignPing_foreign : ForeignLifecycle sampleTurnEnv foreignPing := by
  unfold ForeignLifecycle
  decide +kernel

/-- As many pings as the cap allows, and one more, are all read. -/
theorem turn_reads_beyond_cap :
    ¬ framesRead sampleTurnEnv (freshTurn none) (List.replicate 65537 (.frame foreignPing)) ≤
      sampleTurnEnv.maxTurnEvents.toNat := by
  have hcount : ((((freshTurn none).enter sampleTurnEnv).eventCount : Nat) : Int) <
      sampleTurnEnv.maxTurnEvents := by decide
  have hsettle : settle sampleTurnEnv ((freshTurn none).enter sampleTurnEnv) =
      .running ((freshTurn none).enter sampleTurnEnv) := if_pos hcount
  rw [framesRead, hsettle]
  dsimp only
  rw [consumed_replicate_foreign foreignPing_foreign hcount]
  decide

end StarBridge
