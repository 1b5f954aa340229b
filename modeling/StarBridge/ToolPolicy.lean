import StarBridge.CJson

/-!
# The tool policy

Which tool intents the bridge refuses before it runs anything: `shell` always,
and a tool whose arguments are missing or, for the three tools with a fixed
shape, are not exactly an object with the one string field it takes.  The
argument text is read by a scanner of its own, stricter than the JSON parser:
it knows no `\u` escapes and stops at the end of its buffers.
-/

namespace StarBridge

open CText

/-- `skip_ws`. -/
def skipWs (s : Bytes) : Bytes :=
  s.dropWhile fun c => c = 32 ∨ c = 9 ∨ c = 10 ∨ c = 13

/-- The loop of `decode_json_string_value`, with `i` bytes in the buffer. -/
def decodeStringFrom (maxLen : Nat) : Bytes → Nat → Option (Bytes × Bytes)
  | [], _ => none
  | c :: rest, i =>
      if c = 34 then some ([], rest)
      else if c = 92 then
        match rest with
        | [] => none
        | e :: rest' =>
            match CJson.simpleEscape e with
            | none => none
            | some b =>
                if maxLen ≤ i + 2 then none
                else (decodeStringFrom maxLen rest' (i + 1)).map
                  fun (value, left) => (b :: value, left)
      else if c < 32 ∨ maxLen ≤ i + 1 then none
      else (decodeStringFrom maxLen rest (i + 1)).map
        fun (value, left) => (c :: value, left)

/-- `decode_json_string_value`: the value and what follows it. -/
def decodeJsonStringValue (maxLen : Nat) : Bytes → Option (Bytes × Bytes)
  | [] => none
  | c :: rest => if c = 34 then decodeStringFrom maxLen rest 0 else none

/-- The rest of a text behind one expected byte and white space. -/
def expectByte (c : UInt8) : Bytes → Option Bytes
  | [] => none
  | d :: rest => if d = c then some (skipWs rest) else none

/-- `tool_args_exact_object_field`. -/
def toolArgsExactObjectField (json field : Bytes) : Bool :=
  (do
    let p ← expectByte 123 (skipWs json)
    let (key, p) ← decodeJsonStringValue 64 p
    if key = field then
      let p ← expectByte 58 (skipWs p)
      let (value, p) ← decodeJsonStringValue 2048 p
      let p ← expectByte 125 (skipWs p)
      some (decide (p = [] ∧ value ≠ []))
    else none).getD false

/-- `tool_policy_is_denied`. -/
def toolPolicyIsDenied (toolName : Bytes) : Bool := toolName = lit "shell"

/-- `tool_policy_args_valid`. -/
def toolPolicyArgsValid (toolName toolArgs : Bytes) : Bool :=
  if toolName = [] ∨ toolArgs = [] then false
  else if toolName = lit "google_search" then
    toolArgsExactObjectField toolArgs (lit "query")
  else if toolName = lit "browse_url" then toolArgsExactObjectField toolArgs (lit "url")
  else if toolName = lit "shell_command" then
    toolArgsExactObjectField toolArgs (lit "command")
  else true

/-- The reasons for which the event loop refuses a tool intent. -/
inductive ToolErrorKind
  | denied
  | malformedArgs
  deriving DecidableEq, Repr

/-- `tool_policy_error_message`. -/
def toolPolicyErrorMessage : ToolErrorKind → Bytes
  | .denied => lit "tool denied by bridge policy"
  | .malformedArgs => lit "malformed tool arguments"

/-- The check the event loop makes of a tool intent before it runs the tool. -/
def toolPolicyRefusal (toolName toolArgs : Bytes) : Option ToolErrorKind :=
  if toolPolicyIsDenied toolName then some .denied
  else if ¬ toolPolicyArgsValid toolName toolArgs then some .malformedArgs
  else none

example : toolArgsExactObjectField (lit "\x7b \"command\" : \"ls\" \x7d") (lit "command") :=
  by decide +kernel

end StarBridge
