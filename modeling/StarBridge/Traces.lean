import StarBridge.CJson
import StarBridge.Redaction
import StarBridge.SessionIndex

/-!
# What traces keep of a request

With tracing on, the bridge keeps the headers of a request for the trace of its
session, redacted, and appends a line about the request to the debug log.  The
line shows the first bytes of the raw request as they are: what is called
sanitized there is only made printable.  So a token shows wherever it starts in
front of that bound.
-/

namespace StarBridge

open CText

namespace Trace

/-! ## The functions -/

/-- The end of the headers. -/
def headerEnd : Bytes := [13, 10, 13, 10]

/-- `trace_store_headers`: what it leaves in `http_headers`. -/
def traceStoreHeaders (raw : Bytes) : Bytes :=
  debugTraceRedactText (clip 4096 (before headerEnd (cstr raw)))

/-- A byte as `debug_trace_fixture_capture` writes it. -/
def captureByte (c : UInt8) : Bytes :=
  if c = 13 then lit "\\r"
  else if c = 10 then lit "\\n"
  else if c = 34 then lit "\\\""
  else if c < 32 ∨ 126 < c then
    lit "\\x" ++ [hexDigit (c.toNat / 16), hexDigit (c.toNat % 16)]
  else [c]

/-- The first bytes of a text. -/
def captureText (size : Nat) (text : Bytes) : Bytes := (text.take size).flatMap captureByte

/-- `debug_trace_fixture_capture`: the line it appends to the log, behind its
time stamp. -/
def debugTraceFixtureCapture (requestNumber : Nat) (raw body : Bytes) : Bytes :=
  lit "fixture=1 request=" ++ decimal requestNumber ++ lit " raw_bytes=" ++
    decimal raw.length ++ lit " body_bytes=" ++ decimal body.length ++ lit " headers=\"" ++
    captureText 4096 raw ++ lit "\" body=\"" ++ captureText 2048 body ++
    (if 2048 < body.length then lit "..." else []) ++ lit "\"\n"

/-! ## Requests with a token -/

/-- A raw request with a place for the token of its `Authorization` header: the
header stands behind a line of its own before the end of the headers, its name
and its scheme in any letters. -/
structure AuthorizedRequest where
  lines : Bytes
  name : Bytes
  scheme : Bytes
  rest : Bytes
  name_eq : name.map CJson.toLower = lit "authorization"
  scheme_eq : scheme.map CJson.toLower = lit "bearer" ∨ scheme.map CJson.toLower = lit "token"
  lines_end : [13, 10] <:+ lines
  in_headers : occurs headerEnd lines = false
  rest_start : [13, 10] <+: rest

/-- What stands in front of the token. -/
def AuthorizedRequest.front (r : AuthorizedRequest) : Bytes :=
  r.lines ++ r.name ++ lit ": " ++ r.scheme

/-- The request with a token. -/
def AuthorizedRequest.raw (r : AuthorizedRequest) (token : Bytes) : Bytes :=
  r.front ++ 32 :: (token ++ r.rest)

/-- The token of a header line. -/
def IsToken (token : Bytes) : Prop := ∀ c ∈ token, c ≠ 0 ∧ c ≠ 13 ∧ c ≠ 10

/-- Nobody can tell from the traces of the request which token of `n` bytes it
had. -/
def TracesHide (r : AuthorizedRequest) (n : Nat) : Prop :=
  ∀ token token' : Bytes, IsToken token → IsToken token' → token.length = n →
    token'.length = n →
      traceStoreHeaders (r.raw token) = traceStoreHeaders (r.raw token') ∧
        ∀ requestNumber body, debugTraceFixtureCapture requestNumber (r.raw token) body =
          debugTraceFixtureCapture requestNumber (r.raw token') body

/-! ## Where a token shows -/

/-- A C string is cut in front of a place or goes on behind it. -/
theorem cstr_front (front : Bytes) :
    (∀ more, cstr (front ++ 32 :: more) = cstr front) ∨
      ∀ more, cstr (front ++ 32 :: more) = front ++ 32 :: cstr more := by
  induction front with
  | nil => exact Or.inr fun more => upTo_cons (by decide) more
  | cons c front ih =>
      by_cases hc : c = 0
      · left
        intro more
        subst hc
        rfl
      · rcases ih with h | h
        · left
          intro more
          rw [List.cons_append, cstr, cstr, upTo_cons hc, upTo_cons hc]
          exact congrArg (c :: ·) (h more)
        · right
          intro more
          rw [List.cons_append, cstr, upTo_cons hc]
          exact congrArg (c :: ·) (h more)

/-- The headers are cut in front of a place or go on behind it. -/
theorem headers_front (front : Bytes) :
    (∃ text, ∀ more, before headerEnd (cstr (front ++ 32 :: more)) = text) ∨
      ∀ more, before headerEnd (cstr (front ++ 32 :: more)) =
        front ++ 32 :: before headerEnd (cstr more) := by
  rcases cstr_front front with hcut | hgo
  · exact Or.inl ⟨before headerEnd (cstr front), fun more => by rw [hcut more]⟩
  · cases hend : occurs headerEnd front with
    | true =>
        refine Or.inl ⟨before headerEnd front, fun more => ?_⟩
        rw [hgo more, before_append hend]
    | false =>
        refine Or.inr fun more => ?_
        rw [hgo more, (skip_append_cons (by decide) hend _).2]

/-- What stands behind the first 4096 bytes is in neither trace. -/
theorem tracesHide_of_far {r : AuthorizedRequest} (hfar : 4095 ≤ r.front.length) (n : Nat) :
    TracesHide r n := by
  intro token token' _ _ hlen hlen'
  constructor
  · have hstored : clip 4096 (before headerEnd (cstr (r.raw token))) =
        clip 4096 (before headerEnd (cstr (r.raw token'))) := by
      unfold AuthorizedRequest.raw
      rcases headers_front r.front with ⟨text, htext⟩ | hgo
      · rw [htext, htext]
      · rw [hgo, hgo, clip, clip, List.take_append_of_le_length hfar,
          List.take_append_of_le_length hfar]
    rw [traceStoreHeaders, traceStoreHeaders, hstored]
  · intro requestNumber body
    have hlength : (r.raw token).length = (r.raw token').length := by
      simp only [AuthorizedRequest.raw, List.length_append, List.length_cons, hlen, hlen']
    have hwindow : (r.raw token).take 4096 = (r.raw token').take 4096 := by
      have hcut : ∀ more, (r.front ++ 32 :: more).take 4096 = (r.front ++ [32]).take 4096 := by
        intro more
        rw [← List.singleton_append, ← List.append_assoc]
        exact List.take_append_of_le_length (by
          rw [List.length_append, List.length_singleton]
          omega)
      exact (hcut _).trans (hcut _).symm
    have hcaptured : captureText 4096 (r.raw token) = captureText 4096 (r.raw token') := by
      rw [captureText, hwindow, captureText]
    rw [debugTraceFixtureCapture, debugTraceFixtureCapture, hlength, hcaptured]

/-- A token in front of that bound shows in the log: two that differ in their
first byte make different lines. -/
theorem not_tracesHide_of_near {r : AuthorizedRequest} {n : Nat} (hn : 0 < n)
    (hnear : r.front.length < 4095) : ¬ TracesHide r n := by
  intro hhide
  have htoken : ∀ c : UInt8, c ≠ 0 ∧ c ≠ 13 ∧ c ≠ 10 → IsToken (List.replicate n c) := by
    intro c hc d hd
    rw [List.eq_of_mem_replicate hd]
    exact hc
  obtain ⟨m, rfl⟩ := Nat.exists_eq_succ_of_ne_zero (Nat.ne_of_gt hn)
  obtain ⟨-, hline⟩ := hhide (List.replicate (m + 1) 97) (List.replicate (m + 1) 98)
    (htoken 97 (by decide)) (htoken 98 (by decide)) List.length_replicate List.length_replicate
  have hshown := hline 0 []
  -- the lines agree up to the first byte of the token
  have hwindow : ∀ c : UInt8, captureByte c = [c] → ∃ more,
      captureText 4096 (r.raw (List.replicate (m + 1) c)) =
        (r.front ++ [32]).flatMap captureByte ++ c :: more := by
    intro c hc
    have hraw : r.raw (List.replicate (m + 1) c) =
        (r.front ++ [32]) ++ c :: (List.replicate m c ++ r.rest) := by
      simp only [AuthorizedRequest.raw, List.replicate_succ, List.append_assoc,
        List.cons_append, List.nil_append]
    obtain ⟨k, hk⟩ : ∃ k, 4096 = (r.front ++ [32]).length + (k + 1) :=
      ⟨4094 - r.front.length, by rw [List.length_append, List.length_singleton]; omega⟩
    refine ⟨((List.replicate m c ++ r.rest).take k).flatMap captureByte, ?_⟩
    rw [captureText, hraw, hk, List.take_length_add_append, List.take_succ_cons,
      List.flatMap_append, List.flatMap_cons, hc]
    rfl
  obtain ⟨more, hmore⟩ := hwindow 97 (by decide)
  obtain ⟨more', hmore'⟩ := hwindow 98 (by decide)
  have hlength : (r.raw (List.replicate (m + 1) 97)).length =
      (r.raw (List.replicate (m + 1) 98)).length := by
    simp only [AuthorizedRequest.raw, List.length_append, List.length_cons,
      List.length_replicate]
  simp only [debugTraceFixtureCapture, hlength, hmore, hmore', List.append_assoc,
    List.append_cancel_left_eq, List.cons_append, List.cons.injEq] at hshown
  exact absurd hshown.1 (by decide)

/-- **The traces hide the token of a request iff it starts behind what the log
shows.** -/
theorem tracesHide_iff (r : AuthorizedRequest) (n : Nat) :
    TracesHide r n ↔ n = 0 ∨ 4095 ≤ r.front.length := by
  constructor
  · intro h
    by_contra hnot
    rw [not_or, Nat.not_le] at hnot
    exact not_tracesHide_of_near (Nat.pos_of_ne_zero hnot.1) hnot.2 h
  · rintro (rfl | hfar)
    · intro token token' _ _ hlen hlen'
      rw [List.eq_nil_of_length_eq_zero hlen, List.eq_nil_of_length_eq_zero hlen']
      exact ⟨rfl, fun _ _ => rfl⟩
    · exact tracesHide_of_far hfar n

/-- A request for a response. -/
def bearerRequest : AuthorizedRequest where
  lines := lit "POST /v1/responses HTTP/1.1\r\n"
  name := lit "Authorization"
  scheme := lit "Bearer"
  rest := lit "\r\n\r\n"
  name_eq := by decide +kernel
  scheme_eq := by decide +kernel
  lines_end := by decide +kernel
  in_headers := by decide +kernel
  rest_start := by decide +kernel

/-- Its line in the log shows the token. -/
theorem bearerRequest_shows : ¬ TracesHide bearerRequest 5 := by
  intro h
  have hplain : ∀ token ∈ [lit "alpha", lit "omega"],
      token.length = 5 ∧ ∀ c ∈ token, c ≠ 0 ∧ c ≠ 13 ∧ c ≠ 10 := by
    decide +kernel
  obtain ⟨hlen, halpha⟩ := hplain (lit "alpha") (by decide +kernel)
  obtain ⟨hlen', homega⟩ := hplain (lit "omega") (by decide +kernel)
  obtain ⟨-, hline⟩ := h (lit "alpha") (lit "omega") halpha homega hlen hlen'
  have hdiffer : debugTraceFixtureCapture 1 (bearerRequest.raw (lit "alpha")) [] ≠
      debugTraceFixtureCapture 1 (bearerRequest.raw (lit "omega")) [] := by
    decide +kernel
  exact hdiffer (hline 1 [])

end Trace

end StarBridge
