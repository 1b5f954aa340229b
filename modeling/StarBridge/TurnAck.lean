import StarBridge.TurnEvents

/-!
# Waiting for the acknowledgement of a request

Between the request and the event loop, `turn_await_ack` reads up to five
frames for the agent's acknowledgement.  Frames of the heartbeat and frames
that carry the text of an event are skipped; the first frame that is neither
decides: an `ack` in which the request id occurs is judged by its status, and
anything else fails the turn.
-/

namespace StarBridge

open CText Loops

/-- The copying loop of `extract_json_string_field`, with `i` bytes copied. -/
def copyField (maxLen : Nat) : Bytes → Nat → Bytes
  | [], _ => []
  | c :: rest, i =>
      if c = 34 ∨ maxLen ≤ i + 1 then []
      else if c = 92 then
        match rest with
        | [] => [92]
        | e :: rest' =>
            if e = 110 then 10 :: copyField maxLen rest' (i + 1)
            else if e = 116 then 9 :: copyField maxLen rest' (i + 1)
            else if e = 13 then copyField maxLen rest' i
            else e :: copyField maxLen rest' (i + 1)
      else c :: copyField maxLen rest (i + 1)

/-- `extract_json_string_field`: what it leaves in a zeroed buffer. -/
def extractJsonStringField (json key : Bytes) (maxLen : Nat) : Bytes :=
  match after (lit "\"" ++ key ++ lit "\":\"") (cstr json) with
  | none => []
  | some rest => copyField maxLen rest 0

/-- `atoi`. -/
def atoi (s : Bytes) : Int :=
  let s := s.dropWhile isSpace
  let sign := CJson.signSpan s
  let digits := (s.drop sign.length).takeWhile CJson.isDigit
  let value : Nat := digits.foldl (fun n c => 10 * n + (c.toNat - 48)) 0
  if sign = [45] then -(value : Int) else value

/-- The ways `turn_await_ack` returns. -/
inductive AckEnd
  | accepted
  | timeout
  | invalid
  | busy (retryMs : Int)
  | rejected
  | exhausted
  deriving DecidableEq, Repr

/-- The return value of `turn_await_ack`. -/
def AckEnd.ok : AckEnd → Bool
  | .accepted => true
  | _ => false

/-- What a failed wait puts into the output buffer. -/
def AckEnd.message : AckEnd → Bytes
  | .accepted => []
  | .timeout => lit "native agent ack timeout"
  | .invalid => lit "native agent ack invalid or rejected"
  | .busy retryMs =>
      lit "native agent busy (retry_after_ms=" ++ signedDecimal retryMs ++ lit ")"
  | .rejected => lit "native agent ack rejected (unknown status)"
  | .exhausted => lit "native agent ack retry exhausted"

/-- The error frame a failed wait sends to the agent. -/
def AckEnd.report : AckEnd → Option (Bytes × Bytes)
  | .timeout => some (lit "handshake_timeout", lit "ack frame timeout")
  | .busy _ => some (lit "native_busy", lit "agent busy")
  | .exhausted => some (lit "handshake_timeout", lit "ack retry exhausted")
  | _ => none

/-- The turn after the wait. -/
def TurnState.afterAck (env : TurnEnv) (s : TurnState) (e : AckEnd) : TurnState :=
  if e.ok then s
  else
    let engine := match e.report with
      | none => s.engine
      | some (errorType, detail) => s.engine.sendError env errorType detail
    { s.say env e.message with engine }

/-- What a frame says about the request: nothing, when it is skipped. -/
def ackVerdict (env : TurnEnv) (ack : Bytes) : Option AckEnd :=
  let ev := nativeParseFrame env.parser ack
  if ev.type.isLifecycle ∨ isEventTagged ack then none
  else if ev.type ≠ .ack ∨ ¬ echoesId env ack then some .invalid
  else if ev.status = lit "busy" then
    some (.busy (atoi (extractJsonStringField ack (lit "retry_after_ms") 32)))
  else if ev.status ≠ lit "accepted" then some .rejected
  else some .accepted

/-- One read, with `left` of the five reads left, this one included. -/
def ackRead (env : TurnEnv) (left : Nat) (read : Option Bytes) : Progress Nat AckEnd :=
  match read with
  | none => .ended .timeout
  | some ack =>
      match ackVerdict env ack with
      | some e => .ended e
      | none => if left ≤ 1 then .ended .exhausted else .running (left - 1)

/-- `turn_await_ack`, on what its reads return. -/
def turnAwaitAck (env : TurnEnv) (reads : List (Option Bytes)) : Progress Nat AckEnd :=
  run (ackRead env) 5 reads

/-- A frame that is skipped costs a read and nothing else. -/
theorem ackRead_skipped {env : TurnEnv} {ack : Bytes} (h : ackVerdict env ack = none)
    (left : Nat) :
    ackRead env left (some ack) =
      if left ≤ 1 then .ended .exhausted else .running (left - 1) := by
  rw [ackRead, h]

/-- A frame that is not skipped decides. -/
theorem ackRead_decided {env : TurnEnv} {ack : Bytes} {e : AckEnd}
    (h : ackVerdict env ack = some e) (left : Nat) :
    ackRead env left (some ack) = .ended e := by
  rw [ackRead, h]

/-- Frames are skipped by their type or their tag alone. -/
theorem ackVerdict_eq_none_iff (env : TurnEnv) (ack : Bytes) :
    ackVerdict env ack = none ↔
      (nativeParseFrame env.parser ack).type.isLifecycle ∨ isEventTagged ack := by
  unfold ackVerdict
  dsimp only
  split_ifs with h <;> simp [h]

end StarBridge
