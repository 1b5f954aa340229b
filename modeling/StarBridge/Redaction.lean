import StarBridge.JsonUtils

/-!
# Redaction

Two functions look for texts that come in front of a secret: the trace replaces
the line from such a text on, the tool runner what stands behind `KEY=` up to
the next delimiter.  Both go on behind what they have written.
-/

namespace StarBridge

open CText

/-- What stands in place of a secret. -/
def redacted : Bytes := lit "[redacted]"

/-- A byte inside a line. -/
def inLine (c : UInt8) : Bool := c ≠ 13 && c ≠ 10

/-- The loop of `redact_line_value`, for as many occurrences as it has fuel. -/
def redactLineFrom (needle : Bytes) : Nat → Bytes → Bytes
  | 0, text => text
  | fuel + 1, text =>
      match after needle text with
      | none => text
      | some rest =>
          before needle text ++ redacted ++ redactLineFrom needle fuel (rest.dropWhile inLine)

/-- `redact_line_value`. -/
def redactLineValue (needle text : Bytes) : Bytes := redactLineFrom needle text.length text

/-- The needles of `debug_trace_redact_text`, in order. -/
def needles : List Bytes :=
  [lit "Authorization:", lit "authorization:", lit "Cookie:", lit "cookie:", lit "Set-Cookie:",
    lit "set-cookie:", lit "OPENAI_API_KEY", lit "GOOGLE_SEARCH_API_KEY", lit "GOOGLE_SEARCH_CX",
    lit "api_key", lit "access_token", lit "refresh_token"]

/-- `debug_trace_redact_text`. -/
def debugTraceRedactText (text : Bytes) : Bytes :=
  needles.foldl (fun text needle => redactLineValue needle text) text

/-- A byte of a value behind `KEY=`. -/
def inValue (c : UInt8) : Bool :=
  c ≠ 32 && c ≠ 10 && c ≠ 13 && c ≠ 9 && c ≠ 34 && c ≠ 39 && c ≠ 44 && c ≠ 59

/-- The loop of `redact_key_value`. -/
def redactKeyFrom (key : Bytes) : Nat → Bytes → Bytes
  | 0, text => text
  | fuel + 1, text =>
      match after key text with
      | none => text
      | some [] => text
      | some (c :: rest) =>
          if c = 61 then
            before key text ++ key ++ [61] ++ redacted ++
              redactKeyFrom key fuel (rest.dropWhile inValue)
          else before key text ++ key ++ redactKeyFrom key fuel (c :: rest)

/-- `redact_key_value`. -/
def redactKeyValue (key text : Bytes) : Bytes := redactKeyFrom key text.length text

/-- `tool_runner_redact_secrets`. -/
def toolRunnerRedactSecrets (text : Bytes) : Bytes :=
  redactKeyValue (lit "GOOGLE_SEARCH_CX") (redactKeyValue (lit "GOOGLE_SEARCH_API_KEY") text)

end StarBridge
