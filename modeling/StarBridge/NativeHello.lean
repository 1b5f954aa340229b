import Mathlib.Data.Rat.Defs
import Mathlib.Tactic.NormNum
import StarBridge.Heartbeat
import StarBridge.JsonSpelling

/-!
# The native agent's greeting

`engine_read_native_hello` searches the text of the agent's hello frame for its
fields and reads two numbers by hand: the digit behind the first
`"protocol_version":`, and the digits behind the first `"max_frame_bytes":`.
The texts are found at any depth and in one spelling only.

`native_hello_iff` compares this with the greeting the frame is as a JSON object:
the two agree when a valid greeting is spelled as it is sought (`Sought`), and a
greeting that is not valid lacks one of the texts.
-/

namespace StarBridge

open CText JsonGrammar

/-! ## The handshake -/

/-- `BRIDGE_PROTOCOL_VERSION`. -/
def bridgeProtocolVersion : Nat := 1

/-- `BRIDGE_MAX_FRAME_BYTES`. -/
def bridgeMaxFrameBytes : Nat := 16777216

/-- What the handshake decides about a connection. -/
structure HelloConn where
  protocolVersion : Nat
  state : ConnectionState
  deriving DecidableEq

/-- The return value of `engine_read_native_hello`, the error it sends to the
agent (its `error_type` and `detail`) and the connection behind it. -/
structure HelloOutcome where
  accepted : Bool
  sent : Option (Bytes × Bytes)
  conn : HelloConn
  deriving DecidableEq

/-- A blank or a tab. -/
def isGap (c : UInt8) : Bool := c = 32 || c = 9

/-- `proto_version`: the digit behind the first `"protocol_version":`. -/
def protoVersion (frame : Bytes) : Nat :=
  match after (lit "\"protocol_version\":") frame with
  | none => 0
  | some pv =>
      match pv.dropWhile isGap with
      | [] => 0
      | c :: _ => if isDigit c then c.toNat - 48 else 0

/-- The loop that reads `nfb`, a `long`. -/
def frameBytesFrom : Int → Bytes → Int
  | nfb, [] => nfb
  | nfb, c :: mfb =>
      if isDigit c then
        frameBytesFrom ((nfb * 10 + (c.toNat - 48)).bmod 18446744073709551616) mfb
      else nfb

/-- `nfb`: the digits behind the first `"max_frame_bytes":`. -/
def frameBytes (frame : Bytes) : Option Int :=
  (after (lit "\"max_frame_bytes\":") frame).map fun mfb =>
    frameBytesFrom 0 (mfb.dropWhile isGap)

/-- `has_type`. -/
def hasType (frame : Bytes) : Bool :=
  occurs (lit "\"type\":\"hello\"") frame || occurs (lit "\"type\": \"hello\"") frame

/-- `has_role`. -/
def hasRole (frame : Bytes) : Bool :=
  occurs (lit "\"role\":\"native_agent\"") frame ||
    occurs (lit "\"role\": \"native_agent\"") frame

/-- `has_protocol`. -/
def hasProtocol (frame : Bytes) : Bool := occurs (lit "\"protocol_version\"") frame

/-- `has_agent_name`. -/
def hasAgentName (frame : Bytes) : Bool := occurs (lit "\"agent_name\"") frame

/-- `has_agent_version`. -/
def hasAgentVersion (frame : Bytes) : Bool := occurs (lit "\"agent_version\"") frame

/-- `has_supported_transports`. -/
def hasSupportedTransports (frame : Bytes) : Bool :=
  occurs (lit "\"supported_transports\"") frame

/-- A greeting that is refused with an error to the agent. -/
def HelloConn.mismatch (conn : HelloConn) (detail : Bytes) : HelloOutcome :=
  ⟨false, some (lit "protocol_mismatch", detail), conn⟩

/-- `engine_read_native_hello` on the frame that came, if one did. -/
def engineReadNativeHello (conn : HelloConn) : Option Bytes → HelloOutcome
  | none => ⟨false, none, conn⟩
  | some frame =>
      let frame := cstr frame
      if hasType frame = false then conn.mismatch (lit "missing type field in hello")
      else if hasRole frame = false then conn.mismatch (lit "missing role field in hello")
      else if hasProtocol frame = false then
        conn.mismatch (lit "missing protocol_version in hello")
      else if protoVersion frame ≠ bridgeProtocolVersion then
        conn.mismatch (lit "unsupported protocol version")
      else if hasAgentName frame = false then conn.mismatch (lit "missing agent_name")
      else if hasAgentVersion frame = false then conn.mismatch (lit "missing agent_version")
      else if hasSupportedTransports frame = false then
        conn.mismatch (lit "missing supported_transports")
      else if ∃ nfb ∈ frameBytes frame, nfb < bridgeMaxFrameBytes then ⟨false, none, conn⟩
      else ⟨true, none, ⟨protoVersion frame, .ready⟩⟩

/-! ## What a greeting is -/

/-- The number some digits make. -/
def digitsValue (digits : Octets) : Nat := digits.foldl (fun n c => n * 10 + (c.toNat - 48)) 0

/-- The number a literal stands for. -/
def numberValue (literal : Octets) : ℚ :=
  let sign : ℚ := if literal.head? = some 45 then -1 else 1
  let text := literal.dropWhile (· = 45)
  let whole := text.takeWhile isDigit
  let text := text.dropWhile isDigit
  let fraction := if text.head? = some 46 then text.tail.takeWhile isDigit else []
  let text := if text.head? = some 46 then text.tail.dropWhile isDigit else text
  let exponent : ℤ :=
    match text with
    | _ :: 45 :: digits => -digitsValue digits
    | _ :: 43 :: digits => digitsValue digits
    | _ :: digits => digitsValue digits
    | [] => 0
  sign * digitsValue (whole ++ fraction) * (10 : ℚ) ^ (exponent - fraction.length)

/-- A frame that is a JSON object. -/
structure ObjectFrame where
  text : Bytes
  members : List (Octets × Value)
  isJson : IsJson text (.object members)

/-- A valid greeting, by the members of the object. -/
structure ValidHello (members : List (Octets × Value)) : Prop where
  type : lookup (lit "type") members = some (.string (lit "hello"))
  role : lookup (lit "role") members = some (.string (lit "native_agent"))
  protocolVersion : ∃ literal, lookup (lit "protocol_version") members = some (.number literal) ∧
    numberValue literal = bridgeProtocolVersion
  agentName : (lookup (lit "agent_name") members).isSome = true
  agentVersion : (lookup (lit "agent_version") members).isSome = true
  supportedTransports : (lookup (lit "supported_transports") members).isSome = true
  maxFrameBytes : ∀ v, lookup (lit "max_frame_bytes") members = some v →
    ∃ literal, v = .number literal ∧ (bridgeMaxFrameBytes : ℚ) ≤ numberValue literal

/-- What `engine_read_native_hello` owes a frame that is a JSON object. -/
structure HelloRead (conn : HelloConn) (frame : ObjectFrame) : Prop where
  accepts : (engineReadNativeHello conn (some frame.text)).accepted = true ↔
    ValidHello frame.members
  keeps : (engineReadNativeHello conn (some frame.text)).accepted = false →
    (engineReadNativeHello conn (some frame.text)).conn = conn

/-! ## The spelling that is sought -/

/-- The texts the search knows for the fields of a greeting.  The first
`"protocol_version":` of the text, at whatever depth, is followed by the digit of
the version, and the first `"max_frame_bytes":` by enough, as a `long`. -/
structure Sought (text : Bytes) : Prop where
  type : lit "\"type\":\"hello\"" <:+: text ∨ lit "\"type\": \"hello\"" <:+: text
  role : lit "\"role\":\"native_agent\"" <:+: text ∨ lit "\"role\": \"native_agent\"" <:+: text
  protocolVersion : ∃ pv blanks digit more, after (lit "\"protocol_version\":") text = some pv ∧
    pv = blanks ++ digit :: more ∧ (∀ c ∈ blanks, isGap c = true) ∧
      digit.toNat = 48 + bridgeProtocolVersion
  agentName : lit "\"agent_name\"" <:+: text
  agentVersion : lit "\"agent_version\"" <:+: text
  supportedTransports : lit "\"supported_transports\"" <:+: text
  maxFrameBytes : ∀ mfb, after (lit "\"max_frame_bytes\":") text = some mfb →
    (bridgeMaxFrameBytes : Int) ≤
      (digitsValue ((mfb.dropWhile isGap).takeWhile isDigit) : Int).bmod 18446744073709551616

/-- The greeting is read right: a valid one is spelled as it is sought, and one
that is not valid is not. -/
structure Legible (frame : ObjectFrame) : Prop where
  spelled : ValidHello frame.members → Sought (cstr frame.text)
  lacking : ¬ ValidHello frame.members → ¬ Sought (cstr frame.text)

/-- The digits are read up to the first other byte. -/
theorem frameBytesFrom_eq (nfb : Int) (n : Nat) (mfb : Bytes)
    (h : nfb = (n : Int).bmod 18446744073709551616) :
    frameBytesFrom nfb mfb =
      (((mfb.takeWhile isDigit).foldl (fun n c => n * 10 + (c.toNat - 48)) n : Nat) : Int).bmod
        18446744073709551616 := by
  induction mfb generalizing nfb n with
  | nil => exact h
  | cons c mfb ih =>
      unfold frameBytesFrom
      by_cases hc : isDigit c = true
      · have hdigit : 48 ≤ c.toNat := by
          unfold isDigit at hc
          simp only [Bool.and_eq_true, decide_eq_true_eq] at hc
          exact hc.1
        rw [if_pos hc, List.takeWhile_cons_of_pos hc, List.foldl_cons]
        refine ih _ _ ?_
        rw [h, ← Int.bmod_add_bmod, Int.bmod_mul_bmod, Int.bmod_add_bmod]
        congr 1
        omega
      · rw [if_neg hc, List.takeWhile_cons_of_neg hc]
        exact h

/-- The digit that is taken for the version. -/
theorem protoVersion_iff (text : Bytes) :
    protoVersion text = bridgeProtocolVersion ↔
      ∃ pv blanks digit more, after (lit "\"protocol_version\":") text = some pv ∧
        pv = blanks ++ digit :: more ∧ (∀ c ∈ blanks, isGap c = true) ∧
          digit.toNat = 48 + bridgeProtocolVersion := by
  unfold protoVersion
  cases hafter : after (lit "\"protocol_version\":") text with
  | none => simp [bridgeProtocolVersion]
  | some pv =>
      have hcut := List.takeWhile_append_dropWhile (p := isGap) (l := pv)
      dsimp only
      constructor
      · intro h
        cases hdrop : pv.dropWhile isGap with
        | nil =>
            rw [hdrop] at h
            cases h
        | cons c more =>
            rw [hdrop] at h hcut
            dsimp only at h
            by_cases hc : isDigit c = true
            · rw [if_pos hc] at h
              refine ⟨pv, pv.takeWhile isGap, c, more, rfl, hcut.symm,
                fun d hd => List.mem_takeWhile_imp hd, ?_⟩
              unfold bridgeProtocolVersion at h ⊢
              omega
            · rw [if_neg hc] at h
              cases h
      · rintro ⟨pv', blanks, digit, more, hpv, rfl, hblanks, hdigit⟩
        obtain rfl := Option.some.inj hpv
        obtain rfl : digit = 49 := UInt8.toNat_inj.mp hdigit
        rw [List.dropWhile_append_of_pos hblanks]
        rfl

theorem frameBytes_iff (text : Bytes) :
    (¬ ∃ nfb ∈ frameBytes text, nfb < bridgeMaxFrameBytes) ↔
      ∀ mfb, after (lit "\"max_frame_bytes\":") text = some mfb →
        (bridgeMaxFrameBytes : Int) ≤
          (digitsValue ((mfb.dropWhile isGap).takeWhile isDigit) : Int).bmod
            18446744073709551616 := by
  have hread : ∀ mfb : Bytes, frameBytesFrom 0 mfb =
      (digitsValue (mfb.takeWhile isDigit) : Int).bmod 18446744073709551616 :=
    fun mfb => frameBytesFrom_eq 0 0 mfb rfl
  unfold frameBytes
  cases after (lit "\"max_frame_bytes\":") text with
  | none => simp
  | some mfb => simp [hread]

/-! ## The verdict -/

/-- A text that is not found. -/
theorem not_infix_of_occurs {pattern text : Bytes} (h : occurs pattern text = false) :
    ¬ pattern <:+: text := fun hinfix => by
  rw [(occurs_iff pattern text).mpr hinfix] at h
  cases h

/-- A greeting is accepted exactly when the texts are found, and refused it
leaves the connection as it was. -/
theorem engineReadNativeHello_cases (conn : HelloConn) (frame : Bytes) :
    ((engineReadNativeHello conn (some frame)).accepted = true ↔ Sought (cstr frame)) ∧
      ((engineReadNativeHello conn (some frame)).accepted = false →
        (engineReadNativeHello conn (some frame)).conn = conn) := by
  unfold engineReadNativeHello
  dsimp only
  by_cases htype : hasType (cstr frame) = false
  · rw [if_pos htype]
    obtain ⟨hclose, hspaced⟩ := Bool.or_eq_false_iff.mp htype
    exact ⟨iff_of_false Bool.false_ne_true fun h =>
      h.type.elim (not_infix_of_occurs hclose) (not_infix_of_occurs hspaced), fun _ => rfl⟩
  rw [if_neg htype]
  by_cases hrole : hasRole (cstr frame) = false
  · rw [if_pos hrole]
    obtain ⟨hclose, hspaced⟩ := Bool.or_eq_false_iff.mp hrole
    exact ⟨iff_of_false Bool.false_ne_true fun h =>
      h.role.elim (not_infix_of_occurs hclose) (not_infix_of_occurs hspaced), fun _ => rfl⟩
  rw [if_neg hrole]
  by_cases hprotocol : hasProtocol (cstr frame) = false
  · rw [if_pos hprotocol]
    refine ⟨iff_of_false Bool.false_ne_true fun h => ?_, fun _ => rfl⟩
    obtain ⟨pv, -, -, -, hafter, -⟩ := h.protocolVersion
    have hfound : lit "\"protocol_version\":" <:+: cstr frame :=
      (occurs_iff _ _).mp (by rw [occurs, hafter]; rfl)
    refine not_infix_of_occurs hprotocol (List.IsInfix.trans ?_ hfound)
    exact (List.prefix_append (lit "\"protocol_version\"") [58]).isInfix
  rw [if_neg hprotocol]
  by_cases hversion : protoVersion (cstr frame) = bridgeProtocolVersion
  swap
  · rw [if_pos hversion]
    exact ⟨iff_of_false Bool.false_ne_true fun h =>
      hversion ((protoVersion_iff _).mpr h.protocolVersion), fun _ => rfl⟩
  rw [if_neg (not_not.mpr hversion)]
  by_cases hname : hasAgentName (cstr frame) = false
  · rw [if_pos hname]
    exact ⟨iff_of_false Bool.false_ne_true fun h =>
      not_infix_of_occurs hname h.agentName, fun _ => rfl⟩
  rw [if_neg hname]
  by_cases hagent : hasAgentVersion (cstr frame) = false
  · rw [if_pos hagent]
    exact ⟨iff_of_false Bool.false_ne_true fun h =>
      not_infix_of_occurs hagent h.agentVersion, fun _ => rfl⟩
  rw [if_neg hagent]
  by_cases htransports : hasSupportedTransports (cstr frame) = false
  · rw [if_pos htransports]
    exact ⟨iff_of_false Bool.false_ne_true fun h =>
      not_infix_of_occurs htransports h.supportedTransports, fun _ => rfl⟩
  rw [if_neg htransports]
  by_cases hbytes : ∃ nfb ∈ frameBytes (cstr frame), nfb < bridgeMaxFrameBytes
  · rw [if_pos hbytes]
    exact ⟨iff_of_false Bool.false_ne_true fun h =>
      (frameBytes_iff _).mpr h.maxFrameBytes hbytes, fun _ => rfl⟩
  rw [if_neg hbytes]
  have hfound : ∀ {pattern : Bytes}, ¬ occurs pattern (cstr frame) = false →
      pattern <:+: cstr frame := fun h =>
    (occurs_iff _ _).mp (Bool.not_eq_false _ ▸ h)
  refine ⟨iff_of_true rfl ?_, fun h => by cases h⟩
  exact
    { type := (Bool.or_eq_true_iff.mp (Bool.not_eq_false _ ▸ htype)).imp
        (occurs_iff _ _).mp (occurs_iff _ _).mp
      role := (Bool.or_eq_true_iff.mp (Bool.not_eq_false _ ▸ hrole)).imp
        (occurs_iff _ _).mp (occurs_iff _ _).mp
      protocolVersion := (protoVersion_iff _).mp hversion
      agentName := hfound hname
      agentVersion := hfound hagent
      supportedTransports := hfound htransports
      maxFrameBytes := (frameBytes_iff _).mp hbytes }

/-- The handshake accepts exactly the valid greetings, among the frames that are
JSON objects, when these are legible; a refusal always leaves the connection as
it was. -/
theorem native_hello_iff (conn : HelloConn) (frame : ObjectFrame) :
    HelloRead conn frame ↔ Legible frame := by
  obtain ⟨haccepts, hkeeps⟩ := engineReadNativeHello_cases conn frame.text
  constructor
  · intro h
    have hsame := haccepts.symm.trans h.accepts
    exact ⟨hsame.mpr, fun hnot hsought => hnot (hsame.mp hsought)⟩
  · intro h
    refine ⟨haccepts.trans ⟨fun hsought => ?_, h.spelled⟩, hkeeps⟩
    by_contra hnot
    exact h.lacking hnot hsought

/-- A greeting of the version 12, valid otherwise, is accepted as one of the
version 1. -/
theorem version_twelve_accepted :
    ∃ frame : ObjectFrame,
      frame.text = lit "\x7b\"type\":\"hello\",\"role\":\"native_agent\"," ++
        lit "\"protocol_version\":12,\"agent_name\":\"a\",\"agent_version\":\"1\"," ++
        lit "\"supported_transports\":[]\x7d" ∧
      ¬ HelloRead ⟨0, .handshaking⟩ frame := by
  have hplain : ∀ text ∈ [lit "type", lit "hello", lit "role", lit "native_agent",
      lit "protocol_version", lit "agent_name", lit "a", lit "agent_version", lit "1",
      lit "supported_transports"], Plain text := by
    decide +kernel
  simp only [List.forall_mem_cons] at hplain
  obtain ⟨htype, hhello, hrole, hnative, hversion, hname, ha, hagent, hone, htransports, -⟩ :=
    hplain
  obtain ⟨members, hmembers⟩ : ∃ members : List Member, members =
      [.ofInside _ htype hhello.readString, .ofInside _ hrole hnative.readString,
        .ofNumber _ hversion (isNumber_decimal 12), .ofInside _ hname ha.readString,
        .ofInside _ hagent hone.readString, .ofEmpty _ htransports] := ⟨_, rfl⟩
  have htext : Member.object members =
      lit "\x7b\"type\":\"hello\",\"role\":\"native_agent\"," ++
        lit "\"protocol_version\":12,\"agent_name\":\"a\",\"agent_version\":\"1\"," ++
        lit "\"supported_transports\":[]\x7d" := by
    subst hmembers
    rfl
  refine ⟨⟨Member.object members, Member.values members,
    (Member.prints_object_of_members members).isJson⟩, htext, fun h => ?_⟩
  have haccepted : (engineReadNativeHello ⟨0, .handshaking⟩
      (some (Member.object members))).accepted = true := by
    rw [htext]
    decide +kernel
  obtain ⟨literal, hliteral, hvalue⟩ := (h.accepts.mp haccepted).protocolVersion
  have hlookup : lookup (lit "protocol_version") (Member.values members) =
      some (.number (lit "12")) := by
    subst hmembers
    rfl
  dsimp only at hliteral
  rw [hlookup] at hliteral
  cases hliteral
  have htwelve : numberValue (lit "12") = 12 := by decide +kernel
  rw [htwelve] at hvalue
  exact absurd hvalue (by decide +kernel)

end StarBridge
