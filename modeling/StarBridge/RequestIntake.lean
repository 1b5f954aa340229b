import StarBridge.HttpRequest

/-!
# What becomes of a request's body

`read_http_request` and `read_http_body` together hand a body to the handlers or
refuse the request.  For a request with a `Content-Length` the outcome does not
depend on how `read` cuts it (`SizedRequest.intake_eq`), and `whole_body_iff`
says when it is the body the client sent.
-/

namespace StarBridge

open CText

/-- What reading a request comes to: a body for its handler, nothing for it, or
no end yet. -/
inductive Intake
  | body (text : Bytes) (len : Nat)
  | rejected
  | waiting
  | hangs
  deriving DecidableEq, Repr

/-- What a handler gets of what `read_http_body` makes of the buffer. -/
def BodyRead.intake : BodyRead → Intake
  | .body text len => .body text len
  | .rejected => .rejected
  | .tooLarge => .rejected
  | .hangs => .hangs

/-- The body of what the read loop has come to. -/
def RequestRead.intake (maxReq : Nat) : RequestRead → Intake
  | .request raw => (readHttpBody maxReq raw).intake
  | .tooLarge => .rejected
  | .failed => .rejected
  | .waiting => .waiting

/-- `read_http_request`, then `read_http_body`. -/
def intake (maxReq : Nat) (s : ClientStream) : Intake :=
  (readHttpRequest maxReq s).intake maxReq

/-- What a stream comes to whose request has not arrived when it ends. -/
def StreamEnd.intake (ending : StreamEnd) (handed : Intake) : Intake :=
  match ending with
  | .closed => handed
  | .failed => .rejected
  | .silent => .waiting

theorem StreamEnd.intake_read (maxReq : Nat) (ending : StreamEnd) (raw : Bytes) :
    (ending.read raw).intake maxReq =
      ending.intake ((RequestRead.request raw).intake maxReq) := by
  cases ending <;> rfl

theorem HeaderBlock.intake_take (head : HeaderBlock) {k : Nat} (hk : k < head.bytes.length)
    (maxReq : Nat) : (RequestRead.request (head.bytes.take k)).intake maxReq = .rejected := by
  unfold RequestRead.intake
  dsimp only
  rw [head.readHttpBody_take hk]
  rfl

/-! ## Requests with a length -/

/-- A request with a valid `Content-Length`. -/
structure SizedRequest where
  head : HeaderBlock
  body : Bytes
  notChunked : isChunkedRequest head.bytes = false
  sized : contentLength head.bytes = some body.length

namespace SizedRequest

variable (r : SizedRequest)

/-- The length of the whole request. -/
def total : Nat := r.head.bytes.length + r.body.length

/-- The connection it comes on, of which the first `arrived` bytes arrive. -/
def stream (arrived : Nat) (ending : StreamEnd) (cuts : Nat → Nat) : ClientStream :=
  ⟨(r.head.bytes ++ r.body).take arrived, ending, cuts⟩

/-- What is handed on when `k` bytes of the body are in the buffer. -/
def handed (k : Nat) : Intake := .body (cstr (r.body.take k)) (r.body.take k).length

/-- What becomes of the request. -/
def outcome (maxReq arrived : Nat) (ending : StreamEnd) : Intake :=
  if min arrived 1048576 < r.head.bytes.length then
    if arrived < 1048576 then ending.intake .rejected else .rejected
  else if maxReq < r.total then .rejected
  else if r.total ≤ min arrived requestCapLimit then r.handed r.body.length
  else if requestCapLimit ≤ arrived then r.handed (requestCapLimit - r.head.bytes.length)
  else ending.intake (r.handed (arrived - r.head.bytes.length))

theorem take_of_lt {n : Nat} (h : n < r.head.bytes.length) :
    (r.head.bytes ++ r.body).take n = r.head.bytes.take n :=
  List.take_append_of_le_length (Nat.le_of_lt h)

theorem take_of_le {n : Nat} (h : r.head.bytes.length ≤ n) :
    (r.head.bytes ++ r.body).take n = r.head.bytes ++ r.body.take (n - r.head.bytes.length) := by
  rw [List.take_append, List.take_of_length_le h]

theorem expected_append (rest : Bytes) :
    httpExpectedRequestLen (r.head.bytes ++ rest) = r.total := by
  rw [r.head.httpExpectedRequestLen_append, r.notChunked, r.sized]
  rfl

theorem head_pos : 0 < r.head.bytes.length := by
  have hlines := congrArg List.length r.head.lines
  have hfour : blankLine.length = 4 := rfl
  rw [List.length_append] at hlines
  omega

theorem looksComplete_append (rest : Bytes) :
    looksComplete (r.head.bytes ++ rest) = true ↔ r.body.length ≤ rest.length := by
  have hpos := r.head_pos
  unfold looksComplete
  dsimp only
  rw [r.expected_append, List.length_append, total, decide_eq_true_iff]
  constructor
  · rintro (⟨-, h⟩ | ⟨h, -⟩) <;> omega
  · intro h
    exact Or.inl ⟨by omega, by omega⟩

theorem intake_append (maxReq k : Nat) :
    (RequestRead.request (r.head.bytes ++ r.body.take k)).intake maxReq = r.handed k := by
  have hvalue := r.sized
  rw [← r.head.contentLength_append (r.body.take k)] at hvalue
  unfold contentLength at hvalue
  obtain ⟨val, hval, hparse⟩ := Option.bind_eq_some_iff.mp hvalue
  unfold RequestRead.intake readHttpBody
  dsimp only
  rw [r.head.headerLen_append, r.head.isChunkedRequest_append, r.notChunked, hval]
  dsimp only
  rw [hparse, List.drop_left, if_neg (by decide)]
  dsimp only
  rw [List.take_of_length_le (List.length_take_le' _ _)]
  rfl

/-- What holds of the buffer while the request is read: the header block is
still arriving, or the body is and the buffer has the size for it. -/
def Reading (maxReq cap len : Nat) : Prop :=
  (cap = 1048576 ∧ len < r.head.bytes.length) ∨
    (r.head.bytes.length ≤ len ∧ len < r.total ∧ r.total ≤ maxReq ∧ len ≤ cap ∧
      r.head.bytes.length ≤ 1048576 ∧ cap = grownCap maxReq r.total 1048576)

variable {r} (maxReq arrived : Nat) (ending : StreamEnd) (cuts : Nat → Nat)

theorem reading_rule :
    LoopRule maxReq (r.stream arrived ending cuts) (r.Reading maxReq)
      (fun read => read.intake maxReq = r.outcome maxReq arrived ending) := by
  have htake : ∀ n, n ≤ (r.stream arrived ending cuts).bytes.length →
      (r.stream arrived ending cuts).bytes.take n = (r.head.bytes ++ r.body).take n := by
    intro n hn
    have hn' : n ≤ arrived := Nat.le_trans hn (List.length_take_le _ _)
    show ((r.head.bytes ++ r.body).take arrived).take n = _
    rw [List.take_take, min_eq_left hn']
  have hbytes : (r.stream arrived ending cuts).bytes.length = min arrived r.total := by
    show ((r.head.bytes ++ r.body).take arrived).length = _
    rw [List.length_take, List.length_append]
    rfl
  have htotal : r.total = r.head.bytes.length + r.body.length := rfl
  have hlimit : requestCapLimit = 16777216 := rfl
  -- the buffer, with the header block complete
  have hbody : ∀ n, r.head.bytes.length ≤ n → n ≤ (r.stream arrived ending cuts).bytes.length →
      (r.stream arrived ending cuts).bytes.take n =
        r.head.bytes ++ r.body.take (n - r.head.bytes.length) := by
    intro n hhead hn
    rw [htake n hn, r.take_of_le hhead]
  refine ⟨?_, ?_, ?_, ?_, ?_⟩
  · rintro cap len (⟨rfl, hhead⟩ | ⟨hhead, hpart, hreq, hroom, hsmall, hcap⟩) hlen hfull
    · -- the header block does not fit
      rw [htake len hlen, r.take_of_lt hhead, r.head.intake_take hhead, outcome,
        if_pos (by omega), if_neg (by omega)]
    · have hspec := grownCap_spec hreq
      have hlast : len = requestCapLimit := by omega
      rw [hbody len hhead hlen, r.intake_append, outcome, if_neg (by omega),
        if_neg (by omega), if_neg (by omega), if_pos (by omega), hlast]
  · rintro cap len (⟨rfl, hhead⟩ | ⟨hhead, hpart, hreq, -, hsmall, hcap⟩) hlen hroom
    · rw [StreamEnd.intake_read, htake len (by omega), r.take_of_lt hhead,
        r.head.intake_take hhead, outcome, if_pos (by omega), if_pos (by omega)]
      rfl
    · have hspec := grownCap_spec hreq
      have hlast : len = arrived := by omega
      rw [StreamEnd.intake_read, hbody len hhead (by omega), r.intake_append, outcome,
        if_neg (by omega), if_neg (by omega), if_neg (by omega), if_neg (by omega), hlast]
      rfl
  · rintro cap len (⟨rfl, hhead⟩ | ⟨hhead, -, hreq, -⟩) n hlt hcap hn hlarge
    · by_cases hinside : n < r.head.bytes.length
      · rw [htake n hn, r.take_of_lt hinside, r.head.httpExpectedRequestLen_take hinside] at hlarge
        omega
      · rw [hbody n (by omega) hn, r.expected_append] at hlarge
        rw [outcome, if_neg (by omega), if_pos hlarge]
        rfl
    · rw [hbody n (by omega) hn, r.expected_append] at hlarge
      omega
  · intro cap len hinv n hlt hcap hn hfits hcomplete
    by_cases hinside : n < r.head.bytes.length
    · rw [htake n hn, r.take_of_lt hinside, r.head.looksComplete_take hinside] at hcomplete
      cases hcomplete
    · rw [hbody n (by omega) hn] at hfits hcomplete ⊢
      rw [r.looksComplete_append, List.length_take] at hcomplete
      rw [r.expected_append] at hfits
      have hspec := grownCap_spec hfits
      have hwhole : n - r.head.bytes.length = r.body.length := by omega
      have hroom : n ≤ requestCapLimit ∧ r.head.bytes.length ≤ 1048576 := by
        rcases hinv with ⟨rfl, hhead⟩ | ⟨-, -, -, -, hsmall, rfl⟩ <;> omega
      rw [r.intake_append, outcome, if_neg (by omega), if_neg (by omega), if_pos (by omega),
        hwhole]
  · intro cap len hinv n hlt hcap hn hfits hgoes
    by_cases hinside : n < r.head.bytes.length
    · -- still inside the header block
      rcases hinv with ⟨rfl, -⟩ | ⟨hhead, -⟩
      · rw [htake n hn, r.take_of_lt hinside, r.head.httpExpectedRequestLen_take hinside]
        exact Or.inl ⟨rfl, hinside⟩
      · omega
    · rw [hbody n (by omega) hn] at hfits hgoes ⊢
      rw [r.expected_append] at hfits ⊢
      have hspec := grownCap_spec hfits
      have hpart : n < r.total := by
        by_contra hwhole
        refine absurd ((r.looksComplete_append _).mpr ?_) (by rw [hgoes]; decide)
        rw [List.length_take]
        omega
      refine Or.inr ⟨by omega, hpart, hfits, ?_⟩
      rcases hinv with ⟨rfl, -⟩ | ⟨-, -, -, -, hsmall, rfl⟩
      · exact ⟨by omega, by omega, rfl⟩
      · rw [grownCap_of_le hspec.1]
        exact ⟨hcap, hsmall, rfl⟩

/-- What becomes of a request with a length, however `read` cuts it. -/
theorem intake_eq (r : SizedRequest) (maxReq arrived : Nat) (ending : StreamEnd)
    (cuts : Nat → Nat) :
    intake maxReq (r.stream arrived ending cuts) = r.outcome maxReq arrived ending :=
  (reading_rule maxReq arrived ending cuts).readHttpRequest (Or.inl ⟨rfl, r.head_pos⟩)

/-! ## Whole or rejected -/

/-- No body is handed on, or the body the client sent. -/
def Intact (r : SizedRequest) (result : Intake) : Prop :=
  ∀ text len, result = .body text len → text = r.body ∧ len = r.body.length

/-- The request never passes for whole when it is not: it is over the limit of
the settings or its header block does not arrive, there is no body to lose, the
body arrives within the buffer's limit and has no zero byte, or the stream does
not end by being closed. -/
def Safe (r : SizedRequest) (maxReq arrived : Nat) (ending : StreamEnd) : Prop :=
  maxReq < r.total ∨ min arrived 1048576 < r.head.bytes.length ∨ r.body = [] ∨
    (r.total ≤ min arrived requestCapLimit ∧ 0 ∉ r.body) ∨
    (arrived < min r.total requestCapLimit ∧ ending ≠ .closed)

theorem intact_handed_iff (r : SizedRequest) (k : Nat) :
    r.Intact (r.handed k) ↔ r.body = [] ∨ (r.body.length ≤ k ∧ 0 ∉ r.body) := by
  have hhanded : r.Intact (r.handed k) ↔
      cstr (r.body.take k) = r.body ∧ (r.body.take k).length = r.body.length := by
    constructor
    · intro h
      exact h _ _ rfl
    · intro h text len heq
      cases heq
      exact h
  rw [hhanded, List.length_take]
  constructor
  · rintro ⟨htext, hlen⟩
    have hk : r.body.length ≤ k := by omega
    rw [List.take_of_length_le hk] at htext
    refine Or.inr ⟨hk, ?_⟩
    rw [← htext]
    exact stop_not_mem_upTo 0 r.body
  · rintro (hnil | ⟨hk, hzero⟩)
    · rw [hnil]
      simp [cstr, upTo]
    · rw [List.take_of_length_le hk]
      exact ⟨upTo_eq_self hzero, by omega⟩

theorem intact_rejected (r : SizedRequest) : r.Intact .rejected := by
  intro text len h
  cases h

theorem intact_ending_iff (r : SizedRequest) (ending : StreamEnd) (result : Intake) :
    r.Intact (ending.intake result) ↔ ending ≠ .closed ∨ r.Intact result := by
  cases ending with
  | closed => exact ⟨Or.inr, fun h => h.resolve_left (by simp)⟩
  | failed => exact ⟨fun _ => Or.inl (by simp), fun _ => r.intact_rejected⟩
  | silent =>
      refine ⟨fun _ => Or.inl (by simp), fun _ text len h => ?_⟩
      cases h

theorem intact_outcome_iff (r : SizedRequest) (maxReq arrived : Nat) (ending : StreamEnd) :
    r.Intact (r.outcome maxReq arrived ending) ↔ r.Safe maxReq arrived ending := by
  have htotal : r.total = r.head.bytes.length + r.body.length := rfl
  have hlimit : requestCapLimit = 16777216 := rfl
  have hnil : r.body = [] ↔ r.body.length = 0 := List.length_eq_zero_iff.symm
  unfold outcome Safe
  by_cases hhead : min arrived 1048576 < r.head.bytes.length
  · rw [if_pos hhead]
    refine ⟨fun _ => Or.inr (Or.inl hhead), fun _ => ?_⟩
    split
    · exact (r.intact_ending_iff ending _).mpr (Or.inr r.intact_rejected)
    · exact r.intact_rejected
  · rw [if_neg hhead]
    by_cases hreq : maxReq < r.total
    · rw [if_pos hreq]
      exact ⟨fun _ => Or.inl hreq, fun _ => r.intact_rejected⟩
    · rw [if_neg hreq]
      by_cases hwhole : r.total ≤ min arrived requestCapLimit
      · rw [if_pos hwhole, intact_handed_iff]
        have hnot : ¬ arrived < min r.total requestCapLimit := by omega
        simp [hreq, hhead, hwhole, hnot]
      · rw [if_neg hwhole]
        by_cases hcap : requestCapLimit ≤ arrived
        · have hpart : ¬ r.body.length ≤ requestCapLimit - r.head.bytes.length := by omega
          have hnot : ¬ arrived < min r.total requestCapLimit := by omega
          rw [if_pos hcap, intact_handed_iff]
          simp [hreq, hhead, hwhole, hnot, hpart]
        · have hsome : arrived < min r.total requestCapLimit := by omega
          rw [if_neg hcap, intact_ending_iff, intact_handed_iff]
          by_cases hbody : r.body = []
          · simp [hbody]
          · have hpart : ¬ r.body.length ≤ arrived - r.head.bytes.length := by omega
            simp [hreq, hhead, hwhole, hsome, hpart, hbody]

end SizedRequest

/-- **Whole or rejected**, exactly.  Whatever body of a request with a
`Content-Length` is handed to its handler is the body the client sent, iff the
request cannot pass for whole when it is not. -/
theorem whole_body_iff (r : SizedRequest) (maxReq arrived : Nat) (ending : StreamEnd)
    (cuts : Nat → Nat) :
    r.Intact (intake maxReq (r.stream arrived ending cuts)) ↔
      r.Safe maxReq arrived ending := by
  rw [r.intake_eq]
  exact r.intact_outcome_iff maxReq arrived ending

/-- A request for a body of four bytes. -/
def fourBytes : SizedRequest where
  head := ⟨lit "POST /v1/responses HTTP/1.1\r\nContent-Length: 4\r\n\r\n", by decide +kernel⟩
  body := lit "\x7b  \x7d"
  notChunked := by decide +kernel
  sized := by decide +kernel

/-- The client closes the connection behind the second byte of four, and the
two bytes are handed on as the body. -/
theorem whole_body_fails_on_early_close :
    ¬ fourBytes.Intact (intake 1048576 (fourBytes.stream 52 .closed fun _ => 4095)) := by
  intro h
  have hshort := h (lit "\x7b ") 2 (by decide +kernel)
  exact absurd hshort.2 (by decide +kernel)

end StarBridge
