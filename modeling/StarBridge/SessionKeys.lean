import StarBridge.ControlFrames
import StarBridge.RequestFields
import StarBridge.SessionOpening

/-!
# From a request's id to the agent's key

A conversation is told by its `previous_response_id`.  The id passes the parser of
the route the request takes, is printed into a session key, and the key is escaped
into the frames that save, load, switch or create the state at the agent.  Every
one of these steps has a buffer of its own, and a conversation whose id does not
fit one of them shares its state with another.

`session_keys_iff` says for which pairs of ids the keys are told apart all the way.
-/

namespace StarBridge

open CText

/-! ## The steps -/

/-- `session_key_for`, into a buffer of `maxLen` bytes. -/
def sessionKeyFor (workspaceRoot sessionId : Bytes) (maxLen : Nat) : Bytes :=
  if (sessionKeyText workspaceRoot sessionId).length < 256 then
    clip maxLen (sessionKeyText workspaceRoot sessionId)
  else []

/-- What `handle_compact` takes from a body. -/
structure CompactBody where
  prevId : Bytes
  reasoningEffort : Bytes

/-- `parse_compact_body`, into the buffers of `handle_compact`. -/
def parseCompactBody (body : Bytes) : CompactBody :=
  match CJson.parse body with
  | none => ⟨[], []⟩
  | some obj =>
      ⟨obj.getString (lit "previous_response_id") [] 64,
        obj.getString (lit "reasoning_effort") [] 64⟩

/-- The turn of `POST /v1/responses` for a request; the rest of it is not the
request's. -/
def TurnInput.ofRequest (t : TurnInput) (req : RequestParser.HarnessRequest) : TurnInput :=
  { t with
    previousResponseId := req.previousResponseId
    reasoningEffort := req.reasoningEffort
    resetSession := req.resetSession }

/-- The turn of `POST /v1/responses/compact`. -/
def TurnInput.ofCompact (t : TurnInput) (body : CompactBody) : TurnInput :=
  { t with
    previousResponseId := body.prevId
    reasoningEffort := body.reasoningEffort
    resetSession := false }

/-- The keys in a session frame, by the names of their members. -/
def SessionFrame.keys : SessionFrame → List (Bytes × Bytes)
  | .loadState key _ => [(lit "key", key)]
  | .saveState key _ => [(lit "key", key)]
  | .switchState fromKey toKey _ => [(lit "from_key", fromKey), (lit "to_key", toKey)]
  | .createState key .. => [(lit "key", key)]

/-- A body has this `previous_response_id`. -/
def CarriesId (body id : Bytes) : Prop :=
  (RequestParser.bodyObject body).stringField (lit "previous_response_id") = some id

/-! ## What is asked of them -/

/-- An id that `previous_response_id` can hold: a C string of 1 to 255 bytes. -/
structure ResponseId where
  text : Bytes
  ne_nil : text ≠ []
  short : text.length < 256
  no_zero : 0 ∉ text

/-- The key of an id is a key, and the same one everywhere. -/
structure KeyKept (workspace : Bytes) (id : ResponseId) : Prop where
  ne_nil : sessionKey workspace id.text ≠ []
  keyFor : ∀ maxLen, 256 ≤ maxLen →
    sessionKeyFor workspace id.text maxLen = sessionKey workspace id.text
  byResponses : ∀ (env : SessionEnv) (w : SessionWorld) (t : TurnInput) cfg body req,
    env.workspace = workspace → CarriesId body id.text →
      RequestParser.codexParseRequest cfg body = .ok req → req.resetSession = false →
        turnKey env w (t.ofRequest req) = sessionKey workspace id.text
  byCompact : ∀ (env : SessionEnv) (w : SessionWorld) (t : TurnInput) body,
    env.workspace = workspace → CarriesId body id.text →
      turnKey env w (t.ofCompact (parseCompactBody body)) = sessionKey workspace id.text
  inFrames : ∀ f : SessionFrame, f.Fits → ∀ m ∈ f.keys, m.2 = sessionKey workspace id.text →
    JsonGrammar.Bears f.text m.1 (.string m.2)

/-- An id with room in every buffer on the way. -/
structure IdFits (workspace : Bytes) (id : ResponseId) : Prop where
  compact : id.text.length < 64
  escaped : Escapes 256 (sessionKeyText workspace id.text)

/-! ## Keys -/

theorem workspaceHash_lt (workspace : Bytes) : workspaceHash workspace < 2 ^ 64 := by
  unfold workspaceHash
  induction workspace using List.reverseRecOn with
  | nil => decide
  | append_singleton front c ih =>
      rw [List.foldl_append]
      exact Nat.mod_lt _ (by decide)

theorem zero_not_mem_hexadecimal (n : Nat) : 0 ∉ hexadecimal n := by
  have hdigit : ∀ d < 16, (0 : UInt8) ≠ UInt8.ofNat (Nat.digitChar d).toNat := by decide
  induction n using Nat.strongRecOn with
  | ind n ih =>
      unfold hexadecimal at ih ⊢
      rw [Nat.toDigits_eq_if (by decide)]
      by_cases hn : n < 16
      · rw [if_pos hn, List.map_singleton, List.mem_singleton]
        exact hdigit n hn
      · rw [if_neg hn, List.map_append, List.mem_append, not_or, List.map_singleton,
          List.mem_singleton]
        exact ⟨ih (n / 16) (by omega), hdigit (n % 16) (by omega)⟩

theorem zero_not_mem_sessionKeyText {workspace id : Bytes} (h : 0 ∉ id) :
    0 ∉ sessionKeyText workspace id := by
  have hmark : (0 : UInt8) ∉ lit "_" := by decide
  unfold sessionKeyText
  simp only [List.mem_append, not_or]
  exact ⟨⟨zero_not_mem_hexadecimal _, hmark⟩, h⟩

theorem length_sessionKeyText (workspace id : Bytes) :
    (sessionKeyText workspace id).length =
      (hexadecimal (workspaceHash workspace)).length + 1 + id.length := by
  rw [sessionKeyText, List.length_append, List.length_append]
  rfl

/-- Keys of different ids are different. -/
theorem sessionKeyText_inj {workspace id id' : Bytes} :
    sessionKeyText workspace id = sessionKeyText workspace id' ↔ id = id' :=
  List.append_right_inj _

theorem sessionKey_ne_nil_iff {workspace id : Bytes} :
    sessionKey workspace id ≠ [] ↔ (sessionKeyText workspace id).length < 256 := by
  unfold sessionKey
  by_cases hfits : (sessionKeyText workspace id).length < 256
  · rw [if_pos hfits]
    refine iff_of_true ?_ hfits
    intro hnil
    have hlength := length_sessionKeyText workspace id
    rw [hnil, List.length_nil] at hlength
    omega
  · rw [if_neg hfits]
    exact iff_of_false (fun h => h rfl) hfits

theorem sessionKey_eq_of_ne_nil {workspace id : Bytes} (h : sessionKey workspace id ≠ []) :
    sessionKey workspace id = sessionKeyText workspace id :=
  (sessionKey_cases workspace id).resolve_left h

theorem sessionKeyFor_eq (workspace id : Bytes) {maxLen : Nat} (h : 256 ≤ maxLen) :
    sessionKeyFor workspace id maxLen = sessionKey workspace id := by
  unfold sessionKeyFor sessionKey
  by_cases hfits : (sessionKeyText workspace id).length < 256
  · rw [if_pos hfits, if_pos hfits, clip_eq_self (by omega)]
  · rw [if_neg hfits, if_neg hfits]

/-! ## Routes -/

/-- A turn that names a session runs under the key of its name. -/
theorem turnKey_named (env : SessionEnv) (w : SessionWorld) {t : TurnInput}
    (hreset : t.resetSession = false) (hnamed : t.previousResponseId ≠ []) :
    turnKey env w t = sessionKey env.workspace t.previousResponseId := by
  rw [turnKey, effectiveSession, hreset, if_neg (by decide), if_pos hnamed]

theorem turnKey_ofRequest (env : SessionEnv) (w : SessionWorld) (t : TurnInput)
    {cfg : RequestParser.RequestConfig} {body : Bytes} {req : RequestParser.HarnessRequest}
    (id : ResponseId) (hcarries : CarriesId body id.text)
    (haccept : RequestParser.codexParseRequest cfg body = .ok req)
    (hreset : req.resetSession = false) :
    turnKey env w (t.ofRequest req) = sessionKey env.workspace id.text := by
  have hid : req.previousResponseId = id.text := by
    rw [congrArg RequestParser.HarnessRequest.previousResponseId
      (RequestParser.parseObject_fields (RequestParser.parseObject_bodyObject haccept))]
    have hfield : (RequestParser.bodyObject body).getString (lit "previous_response_id") [] 256 =
        clip 256 id.text := by
      rw [CJson.getString, hcarries]
    exact hfield.trans (clip_eq_self id.short)
  have hnamed : (t.ofRequest req).previousResponseId ≠ [] := by
    show req.previousResponseId ≠ []
    rw [hid]
    exact id.ne_nil
  rw [turnKey_named env w hreset hnamed]
  show sessionKey _ req.previousResponseId = _
  rw [hid]

theorem parseCompactBody_prevId {body id : Bytes} (h : CarriesId body id) :
    (parseCompactBody body).prevId = clip 64 id := by
  unfold CarriesId RequestParser.bodyObject at h
  unfold parseCompactBody
  cases hparse : CJson.parse body with
  | none =>
      rw [hparse] at h
      cases h
  | some obj =>
      rw [hparse] at h
      show obj.getString _ [] 64 = _
      rw [CJson.getString, show obj.stringField _ = some id from h]

theorem turnKey_ofCompact (env : SessionEnv) (w : SessionWorld) (t : TurnInput) {body : Bytes}
    (id : ResponseId) (hcarries : CarriesId body id.text) :
    turnKey env w (t.ofCompact (parseCompactBody body)) =
      sessionKey env.workspace (clip 64 id.text) := by
  have hid := parseCompactBody_prevId hcarries
  have hnamed : (t.ofCompact (parseCompactBody body)).previousResponseId ≠ [] := by
    show (parseCompactBody body).prevId ≠ []
    rw [hid]
    intro hnil
    have hlength := congrArg List.length hnil
    rw [clip, List.length_take, List.length_nil] at hlength
    have hpos := List.length_pos_iff.mpr id.ne_nil
    omega
  rw [turnKey_named env w rfl hnamed]
  show sessionKey _ (parseCompactBody body).prevId = _
  rw [hid]

/-- The body that has an id and nothing else. -/
def idBody (id : Bytes) : Bytes :=
  123 :: (CJson.quoted (lit "previous_response_id") ++ (58 :: (CJson.quoted id ++ [125])))

theorem carriesId_idBody {id : Bytes} (h : 0 ∉ id) : CarriesId (idBody id) id := by
  have hname : (0 : UInt8) ∉ lit "previous_response_id" := by decide
  have hzero : 0 ∉ CJson.quoted (lit "previous_response_id") ++ (58 :: (CJson.quoted id ++ [125])) := by
    simp only [List.mem_append, List.mem_cons, not_or]
    exact ⟨CJson.zero_not_mem_quoted hname, by decide, CJson.zero_not_mem_quoted h, by decide,
      List.not_mem_nil⟩
  have hid := CJson.reads_string 1 id
  have hmembers := CJson.ReadsMembers.last (lit "previous_response_id") hid (Or.inl rfl)
  have hparse := hmembers.parse (CJson.opensMember_quoted _ _) hzero [] (Or.inl rfl)
  rw [List.append_nil] at hparse
  unfold CarriesId RequestParser.bodyObject
  rw [show CJson.parse (idBody id) = _ from hparse]
  show CJson.stringField (.object _) _ = _
  have hfield : CJson.stringField (.object [(lit "previous_response_id", .string id)])
      (lit "previous_response_id") = some (cstr id) := rfl
  rw [hfield, show cstr id = id from upTo_eq_self h]

/-! ## Frames -/

/-- The quoted form of what `json_escape` prints is a string. -/
theorem prints_jsonEscape (text : Bytes) (maxLen : Nat) :
    ∃ kept, JsonGrammar.Prints (JsonGrammar.quote (jsonEscape text maxLen)) (.string kept) := by
  obtain ⟨kept, cut, -, hescape, -⟩ := jsonEscape_prefix text maxLen
  refine ⟨kept, ?_⟩
  rw [hescape]
  exact JsonGrammar.prints_string (readString_escapeAll kept)

/-- A member that `json_escape` printed is met whole iff it had room. -/
theorem meets_jsonEscape_iff {name text : Bytes} (hname : JsonGrammar.Plain name) (hzero : 0 ∉ text)
    (maxLen : Nat) (rest : Bytes) :
    JsonGrammar.Meets name (.string text)
        (JsonGrammar.quote name ++ 58 :: 34 :: (jsonEscape text maxLen ++ 34 :: rest)) ↔
      Escapes maxLen text := by
  obtain ⟨kept, hread, hwhole⟩ := readString_jsonEscape hzero maxLen
  rw [JsonGrammar.meets_string_iff hname, ← hwhole, hread rest]
  constructor
  · intro h
    obtain ⟨left, heq⟩ := h
    cases heq
    rfl
  · intro h
    exact ⟨rest, by rw [h]⟩

/-- A session frame begins with its type. -/
def typed (kind more : Bytes) : Bytes :=
  123 :: (JsonGrammar.quote (lit "type") ++ 58 :: (JsonGrammar.quote kind ++ 44 :: more))

/-- Behind the type of a frame. -/
theorem bears_typed_iff {kind more name : Bytes} {v : JsonGrammar.Value}
    (hkind : JsonGrammar.Plain kind) (hname : lit "type" ≠ name) :
    JsonGrammar.Bears (typed kind more) name v ↔ JsonGrammar.Meets name v more := by
  have htype : JsonGrammar.Plain (lit "type") := plain_lit (by decide)
  have hskip : ∀ s, JsonGrammar.skip (123 :: s) = 123 :: s := JsonGrammar.skip_cons (by decide)
  rw [← JsonGrammar.meets_member_iff htype hname hkind.prints]
  constructor
  · intro h
    obtain ⟨s, hopens, hmeets⟩ := h
    rw [typed, hskip] at hopens
    cases hopens
    exact hmeets
  · intro h
    exact ⟨_, hskip _, h⟩

/-- A member that `json_escape` printed into 256 bytes, in front of others. -/
def keyMember (name text more : Bytes) : Bytes :=
  JsonGrammar.quote name ++ 58 :: 34 :: (jsonEscape text 256 ++ 34 :: more)

/-- The opening of a frame with a key, and what follows the key. -/
theorem typed_eq {opening next more kind name : Bytes}
    (hopens : opening = 123 :: (JsonGrammar.quote (lit "type") ++
      58 :: (JsonGrammar.quote kind ++ 44 :: (JsonGrammar.quote name ++ [58, 34]))))
    (hnext : next = 34 :: more) (key rest : Bytes) :
    opening ++ jsonEscape key 256 ++ next ++ rest =
      typed kind (keyMember name key (more ++ rest)) := by
  rw [hopens, hnext]
  simp only [typed, keyMember, List.append_assoc, List.cons_append, List.nil_append]

/-- A frame up to its key. -/
theorem text_loadState (key stateId : Bytes) : ∃ more,
    (SessionFrame.loadState key stateId).text =
      typed (lit "load_state") (keyMember (lit "key") key more) := by
  refine ⟨lit ",\"state_id\":\"" ++ (jsonEscape stateId 256 ++ lit "\"\x7d"), ?_⟩
  rw [← typed_eq rfl rfl, SessionFrame.text, List.append_assoc _ (jsonEscape stateId 256)]
  repeat rw [lit_ofList]
  rfl

theorem text_saveState (key stateId : Bytes) : ∃ more,
    (SessionFrame.saveState key stateId).text =
      typed (lit "save_state") (keyMember (lit "key") key more) := by
  refine ⟨lit ",\"state_id\":\"" ++ (jsonEscape stateId 256 ++ lit "\"\x7d"), ?_⟩
  rw [← typed_eq rfl rfl, SessionFrame.text, List.append_assoc _ (jsonEscape stateId 256)]
  repeat rw [lit_ofList]
  rfl

theorem text_createState (key projectRoot modelId : Bytes) (budget : Int) (metadata : Bytes) :
    ∃ more, (SessionFrame.createState key projectRoot modelId budget metadata).text =
      typed (lit "create_state") (keyMember (lit "key") key more) := by
  refine ⟨lit ",\"project_root\":\"" ++ (jsonEscape projectRoot 512 ++ lit "\",\"model_id\":\"" ++
    jsonEscape modelId 256 ++ lit "\",\"context_budget\":" ++ signedDecimal budget ++
      lit ",\"metadata\":" ++ metadata ++ lit "\x7d"), ?_⟩
  rw [← typed_eq rfl rfl, SessionFrame.text]
  simp only [List.append_assoc]
  repeat rw [lit_ofList]
  rfl

theorem text_switchState (fromKey toKey stateId : Bytes) : ∃ more,
    (SessionFrame.switchState fromKey toKey stateId).text =
      typed (lit "switch_state") (keyMember (lit "from_key") fromKey
        (44 :: keyMember (lit "to_key") toKey more)) := by
  have hto : lit "\",\"to_key\":\"" =
      34 :: 44 :: (JsonGrammar.quote (lit "to_key") ++ [58, 34]) := by
    repeat rw [lit_ofList]
    rfl
  have hnext : lit "\",\"state_id\":\"" = 34 :: lit ",\"state_id\":\"" := by
    repeat rw [lit_ofList]
    rfl
  refine ⟨lit ",\"state_id\":\"" ++ (jsonEscape stateId 256 ++ lit "\"\x7d"), ?_⟩
  rw [SessionFrame.text, hto, hnext]
  simp only [typed, keyMember, List.append_assoc, List.cons_append, List.nil_append]
  repeat rw [lit_ofList]
  rfl

/-- Behind a member that `json_escape` printed. -/
theorem meets_behind_iff {name other text more : Bytes} {v : JsonGrammar.Value}
    (hplain : JsonGrammar.Plain other) (hother : other ≠ name) :
    JsonGrammar.Meets name v (keyMember other text (44 :: more)) ↔
      JsonGrammar.Meets name v more := by
  obtain ⟨kept, hprints⟩ := prints_jsonEscape text 256
  have hshape : keyMember other text (44 :: more) = JsonGrammar.quote other ++
      58 :: (JsonGrammar.quote (jsonEscape text 256) ++ 44 :: more) := by
    simp [keyMember, JsonGrammar.quote]
  rw [hshape]
  exact JsonGrammar.meets_member_iff hplain hother hprints

/-- The first member behind the type. -/
theorem bears_first_iff {kind name key more : Bytes} (hkind : JsonGrammar.Plain kind)
    (hname : JsonGrammar.Plain name) (htype : lit "type" ≠ name) (hzero : 0 ∉ key) :
    JsonGrammar.Bears (typed kind (keyMember name key more)) name (.string key) ↔
      Escapes 256 key :=
  (bears_typed_iff hkind htype).trans (meets_jsonEscape_iff hname hzero 256 more)

/-- **A key in a frame** is read back iff `json_escape` had room for it. -/
theorem bears_key_iff {f : SessionFrame} {m : Bytes × Bytes} (hm : m ∈ f.keys) (hzero : 0 ∉ m.2) :
    JsonGrammar.Bears f.text m.1 (.string m.2) ↔ Escapes 256 m.2 := by
  have hkey : JsonGrammar.Plain (lit "key") := plain_lit (by decide)
  have htype : lit "type" ≠ lit "key" := by decide
  cases f with
  | loadState key stateId =>
      cases List.mem_singleton.mp hm
      obtain ⟨more, htext⟩ := text_loadState key stateId
      rw [htext]
      exact bears_first_iff (plain_lit (by decide)) hkey htype hzero
  | saveState key stateId =>
      cases List.mem_singleton.mp hm
      obtain ⟨more, htext⟩ := text_saveState key stateId
      rw [htext]
      exact bears_first_iff (plain_lit (by decide)) hkey htype hzero
  | createState key projectRoot modelId budget metadata =>
      cases List.mem_singleton.mp hm
      obtain ⟨more, htext⟩ := text_createState key projectRoot modelId budget metadata
      rw [htext]
      exact bears_first_iff (plain_lit (by decide)) hkey htype hzero
  | switchState fromKey toKey stateId =>
      obtain ⟨more, htext⟩ := text_switchState fromKey toKey stateId
      have hkind : JsonGrammar.Plain (lit "switch_state") := plain_lit (by decide)
      have hfrom : JsonGrammar.Plain (lit "from_key") := plain_lit (by decide)
      have hto : JsonGrammar.Plain (lit "to_key") := plain_lit (by decide)
      have htypeFrom : lit "type" ≠ lit "from_key" := by decide
      have htypeTo : lit "type" ≠ lit "to_key" := by decide
      have hfromTo : lit "from_key" ≠ lit "to_key" := by decide
      rw [htext]
      rcases List.mem_cons.mp hm with heq | hm
      · cases heq
        exact bears_first_iff hkind hfrom htypeFrom hzero
      · cases List.mem_singleton.mp hm
        exact (bears_typed_iff hkind htypeTo).trans
          ((meets_behind_iff hfrom hfromTo).trans (meets_jsonEscape_iff hto hzero 256 more))

/-! ## All the way -/

/-- **One id.**  Its key is kept iff it has room in the buffer of `handle_compact`, and its
key in those of the frames. -/
theorem keyKept_iff (workspace : Bytes) (id : ResponseId) :
    KeyKept workspace id ↔ IdFits workspace id := by
  have hlength := length_sessionKeyText workspace id.text
  constructor
  · intro h
    have htext := sessionKey_eq_of_ne_nil h.ne_nil
    refine ⟨?_, ?_⟩
    · -- the body with the id, sent to the other route
      have henv : ∃ env : SessionEnv, env.workspace = workspace :=
        ⟨⟨workspace, [], 0, false, [], false, false, false, false, fun _ => 0⟩, rfl⟩
      obtain ⟨env, henv⟩ := henv
      have hkey := h.byCompact env ⟨.empty, none, [], none⟩
        ⟨0, [], [], [], false, [], 0, 0, [], [], ⟨false, none⟩, ⟨false, none⟩, false,
          ⟨false, none⟩⟩ (idBody id.text) henv (carriesId_idBody id.no_zero)
      rw [turnKey_ofCompact _ _ _ id (carriesId_idBody id.no_zero), henv] at hkey
      have hcut : sessionKey workspace (clip 64 id.text) ≠ [] := by
        rw [hkey]
        exact h.ne_nil
      rw [sessionKey_eq_of_ne_nil hcut, htext, sessionKeyText_inj] at hkey
      have hshort := length_clip_lt (by decide : 0 < 64) id.text
      rw [hkey] at hshort
      exact hshort
    · have hbears := h.inFrames (.loadState (sessionKey workspace id.text) [])
        (SessionFrame.fits_of_bufferSize rfl) _ (List.mem_singleton.mpr rfl) rfl
      rw [htext] at hbears
      exact (bears_key_iff (List.mem_singleton.mpr rfl)
        (zero_not_mem_sessionKeyText id.no_zero)).mp hbears
  · intro h
    have hhash : (hexadecimal (workspaceHash workspace)).length ≤ 16 :=
      length_hexadecimal_le (by decide) (workspaceHash_lt workspace)
    have hshort := h.compact
    have hne : sessionKey workspace id.text ≠ [] := sessionKey_ne_nil_iff.mpr (by omega)
    refine ⟨hne, fun maxLen => sessionKeyFor_eq workspace id.text, ?_, ?_, ?_⟩
    · intro env w t cfg body req henv hcarries haccept hreset
      rw [turnKey_ofRequest env w t id hcarries haccept hreset, henv]
    · intro env w t body henv hcarries
      rw [turnKey_ofCompact env w t id hcarries, henv, clip_eq_self hshort]
    · intro f _ m hm hkey
      have htext := hkey.trans (sessionKey_eq_of_ne_nil hne)
      refine (bears_key_iff hm ?_).mpr ?_
      · rw [htext]
        exact zero_not_mem_sessionKeyText id.no_zero
      · rw [htext]
        exact h.escaped

/-- Two ids are told apart all the way to the agent. -/
structure KeysApart (workspace : Bytes) (id id' : ResponseId) : Prop where
  left : KeyKept workspace id
  right : KeyKept workspace id'
  ne : sessionKey workspace id.text ≠ sessionKey workspace id'.text

/-- **Session keys tell ids apart** exactly as far as every buffer on the way has room. -/
theorem session_keys_iff {workspace : Bytes} {id id' : ResponseId} (hne : id.text ≠ id'.text) :
    KeysApart workspace id id' ↔ IdFits workspace id ∧ IdFits workspace id' := by
  rw [← keyKept_iff, ← keyKept_iff]
  constructor
  · intro h
    exact ⟨h.left, h.right⟩
  · intro h
    obtain ⟨hleft, hright⟩ := h
    refine ⟨hleft, hright, ?_⟩
    rw [sessionKey_eq_of_ne_nil hleft.ne_nil, sessionKey_eq_of_ne_nil hright.ne_nil]
    exact fun hsame => hne (sessionKeyText_inj.mp hsame)

/-- The id of `n` letters and a last one. -/
def lettersId (n : Nat) (hn : n < 255) (last : UInt8) (hlast : 0 ≠ last) : ResponseId where
  text := List.replicate n 97 ++ [last]
  ne_nil := by simp
  short := by
    rw [List.length_append, List.length_replicate]
    exact Nat.succ_lt_succ hn
  no_zero := by simp [hlast]

theorem session_keys_iff_short :
    KeysApart (lit "/w") (lettersId 8 (by decide) 98 (by decide))
        (lettersId 8 (by decide) 99 (by decide)) ↔
      IdFits (lit "/w") (lettersId 8 (by decide) 98 (by decide)) ∧
        IdFits (lit "/w") (lettersId 8 (by decide) 99 (by decide)) :=
  session_keys_iff (by decide)

/-- Two ids that differ in their 64th byte are one id to `handle_compact`. -/
theorem session_keys_collide :
    ¬ ∀ (workspace : Bytes) (id id' : ResponseId), id.text ≠ id'.text →
      KeysApart workspace id id' := by
  intro h
  have hapart := h (lit "/w") (lettersId 63 (by decide) 98 (by decide))
    (lettersId 63 (by decide) 99 (by decide)) (by decide)
  have hfits := (keyKept_iff _ _).mp hapart.left
  exact absurd hfits.compact (by decide)

end StarBridge
