import StarBridge.Keywords
import StarBridge.ToolPrompt

/-!
# The capability router

`capability_route_tools` decides on each capability in three stages: by the tool that is
named, by the types of the tools, and by what the input asks for.  Only the first of them
looks at `tool_choice`, and only at a name.  So `none` keeps a capability out exactly as
long as the input does not ask for it (`tool_choice_none_iff`).
-/

namespace StarBridge

open CText CJson

/-! ## The words -/

/-- `s_negative_image_patterns`. -/
def negativeImagePatterns : List Bytes :=
  [lit "<img", lit "src=\"", lit "src='", lit "png", lit "jpg", lit "jpeg", lit "gif",
    lit "svg", lit "icon", lit "favicon", lit "avatar", lit "thumbnail", lit "screenshot",
    lit "data:image", lit "base64", lit ".png", lit ".jpg", lit ".jpeg", lit ".gif",
    lit ".svg", lit "image/png", lit "image/jpeg", lit "image/gif", lit "image/svg",
    lit "alt=\"", lit "alt='", lit "background-image", lit "background: url",
    lit "background:url", lit "url(", lit "url('", lit "url(\"", lit "```", lit "def ",
    lit "function ", lit "const ", lit "let ", lit "var ", lit "import ", lit "require(",
    lit "<svg", lit "<canvas"]

/-- `s_negative_computer_patterns`. -/
def negativeComputerPatterns : List Bytes :=
  [lit "```", lit "def ", lit "function ", lit "const ", lit "let ", lit "var ",
    lit "computer_science", lit "computer vision", lit "computer graphics", lit "computation",
    lit "computational", lit "compute"]

/-- `s_image_strong_keywords`. -/
def imageStrongKeywords : List Bytes :=
  [lit "generate_image", lit "generate image", lit "create_image", lit "create image",
    lit "draw_image", lit "draw image", lit "make_image", lit "make image",
    lit "generate picture", lit "create picture", lit "draw picture", lit "generate photo",
    lit "create photo", lit "generate an image", lit "create an image", lit "draw an image",
    lit "generate a picture", lit "create a picture", lit "image generation",
    lit "image generator", lit "text_to_image", lit "text to image", lit "txt2img",
    lit "imagine", lit "imagine a", lit "imagine an", lit "visualize", lit "visualise",
    lit "dall-e", lit "dall e", lit "dalle", lit "midjourney", lit "stable diffusion",
    lit "stability ai", lit "openai image"]

/-- `s_image_co_pair1`. -/
def imageCoPair₁ : List Bytes :=
  [lit "generate", lit "create", lit "draw", lit "make", lit "render", lit "produce"]

/-- `s_image_co_pair2`. -/
def imageCoPair₂ : List Bytes :=
  [lit "image", lit "picture", lit "photo", lit "photograph", lit "illustration",
    lit "artwork", lit "visual"]

/-- `s_computer_strong_keywords`. -/
def computerStrongKeywords : List Bytes :=
  [lit "computer_call", lit "computer use", lit "use computer", lit "control computer",
    lit "control desktop", lit "control browser", lit "desktop control", lit "browser control",
    lit "click", lit "type on", lit "move mouse", lit "press key", lit "take screenshot",
    lit "take a screenshot", lit "screenshot the", lit "screenshot of", lit "scroll",
    lit "scroll down", lit "scroll up", lit "open browser", lit "open application",
    lit "open app", lit "use the desktop", lit "use desktop", lit "operate computer",
    lit "operate desktop"]

/-- `s_computer_action`. -/
def computerAction : List Bytes :=
  [lit "use", lit "control", lit "operate", lit "open", lit "run", lit "launch", lit "click",
    lit "type", lit "scroll"]

/-- `s_computer_target`. -/
def computerTarget : List Bytes :=
  [lit "computer", lit "desktop", lit "browser", lit "application", lit "app", lit "terminal",
    lit "window"]

/-! ## What an input asks for -/

/-- `RouteConfidence`. -/
inductive RouteConfidence
  | denied
  | weak
  | confirmed
  deriving DecidableEq, Repr

/-- `has_negative_pattern`. -/
def hasNegativePattern (input : Bytes) (len : Nat) (patterns : List Bytes) : Bool :=
  patterns.any fun pattern => 0 < countKeyword input len pattern

/-- `count_strong_keywords`. -/
def countStrongKeywords (input : Bytes) (len : Nat) (keywords : List Bytes) : Nat :=
  (keywords.map (countKeyword input len)).sum

/-- The loops over pairs of words. -/
def anyCooccurrence (input : Bytes) (len : Nat) (first second : List Bytes) (window : Nat) :
    Bool :=
  first.any fun word₁ => second.any fun word₂ => hasCooccurrence input len word₁ word₂ window

/-- `analyze_image_intent`. -/
def analyzeImageIntent (input : Bytes) (len : Nat) : RouteConfidence :=
  let negative := hasNegativePattern input len negativeImagePatterns
  if 0 < countStrongKeywords input len imageStrongKeywords then .confirmed
  else
    let together := anyCooccurrence input len imageCoPair₁ imageCoPair₂ 80
    if together && !negative then .confirmed
    else if together && negative then .weak
    else
      let mentioned := countKeyword input len (lit "image") +
        countKeyword input len (lit "picture") + countKeyword input len (lit "photo")
      if 0 < mentioned ∧ negative = false then .weak else .denied

/-- `analyze_computer_intent`. -/
def analyzeComputerIntent (input : Bytes) (len : Nat) : RouteConfidence :=
  let negative := hasNegativePattern input len negativeComputerPatterns
  if 0 < countStrongKeywords input len computerStrongKeywords then .confirmed
  else
    let together := anyCooccurrence input len computerAction computerTarget 60
    if together && !negative then .confirmed
    else if together && negative then .weak
    else .denied

/-! ## Routes -/

/-- `ToolChoiceMode`. -/
inductive ToolChoiceMode
  | none
  | auto
  | required
  | named
  deriving DecidableEq, Repr

/-- `ToolChoiceSpec`. -/
structure ToolChoiceSpec where
  mode : ToolChoiceMode
  namedTool : Bytes

/-- The capabilities, as bits of `CapabilityFlags`. -/
def capImage : Nat := 1
def capComputer : Nat := 2
def capWebSearch : Nat := 4

/-- `CapabilityRoute`. -/
structure CapabilityRoute where
  capability : Nat
  confidence : RouteConfidence
  reason : Bytes
  deriving DecidableEq, Repr

/-- `RoutingDecision`. -/
structure RoutingDecision where
  activeCapabilities : Nat
  routes : List CapabilityRoute
  deriving DecidableEq, Repr

/-- `build_route`. -/
def buildRoute (dec : RoutingDecision) (cap : Nat) (conf : RouteConfidence) (reason : Bytes) :
    RoutingDecision :=
  if 16 ≤ dec.routes.length then dec
  else
    { activeCapabilities :=
        if conf = .confirmed then dec.activeCapabilities ||| cap else dec.activeCapabilities
      routes := dec.routes ++ [⟨cap, conf, clip 256 reason⟩] }

/-- `tools_have_type`. -/
def toolsHaveType (tools : List NormalizedToolDef) (type : Bytes) : Bool :=
  tools.any fun tool => tool.type = type

/-- `tools_have_name`. -/
def toolsHaveName (tools : List NormalizedToolDef) (name : Bytes) : Bool :=
  tools.any fun tool => tool.normalizedName = name

/-- The dash in two of the reasons. -/
def conservativeDeny : Bytes := [0xE2, 0x80, 0x94] ++ lit " conservative deny"

/-- The image capability in `capability_route_tools`. -/
def imageRoute (tools : List NormalizedToolDef) (spec : Option ToolChoiceSpec) (input : Bytes)
    (len : Nat) : RouteConfidence × Bytes :=
  let named : RouteConfidence × Bytes :=
    match spec with
    | some ⟨.named, name⟩ =>
        if name = lit "image_generation" ∨ name = lit "dall-e" ∨ name = lit "dalle" then
          (.confirmed, lit "tool_choice explicitly names image tool")
        else if toolsHaveName tools name ∧ name = lit "image_generation" then
          (.confirmed, lit "tool_choice names normalized image tool")
        else (.denied, lit "no intent detected")
    | _ => (.denied, lit "no intent detected")
  let typed : RouteConfidence × Bytes :=
    if named.1 ≠ .confirmed ∧
        (toolsHaveType tools (lit "image") ∨ toolsHaveType tools (lit "image_generation")) then
      match analyzeImageIntent input len with
      | .confirmed => (.confirmed, lit "image tool type defined with strong user intent")
      | .weak => (.weak, lit "image tool type defined but user intent is weak")
      | .denied =>
          (.weak, lit "image tool type defined but no user intent " ++ conservativeDeny)
    else named
  if typed.1 = .denied then
    match analyzeImageIntent input len with
    | .confirmed => (.confirmed, lit "strong user intent for image generation")
    | .weak =>
        (.weak, lit "weak user intent " ++ [0xE2, 0x80, 0x94] ++
          lit " not activating without explicit tool_choice")
    | .denied => typed
  else typed

/-- The computer capability in `capability_route_tools`. -/
def computerRoute (tools : List NormalizedToolDef) (spec : Option ToolChoiceSpec) (input : Bytes)
    (len : Nat) : RouteConfidence × Bytes :=
  let named : RouteConfidence × Bytes :=
    match spec with
    | some ⟨.named, name⟩ =>
        if name = lit "computer" ∨ name = lit "computer_call" then
          (.confirmed, lit "tool_choice explicitly names computer tool")
        else (.denied, lit "no intent detected")
    | _ => (.denied, lit "no intent detected")
  let typed : RouteConfidence × Bytes :=
    if named.1 ≠ .confirmed ∧ toolsHaveType tools (lit "computer") then
      match analyzeComputerIntent input len with
      | .confirmed => (.confirmed, lit "computer tool type defined with strong user intent")
      | .weak => (.weak, lit "computer tool type defined but user intent is weak")
      | .denied =>
          (.weak, lit "computer tool type defined but no user intent " ++ conservativeDeny)
    else named
  if typed.1 = .denied then
    match analyzeComputerIntent input len with
    | .confirmed => (.confirmed, lit "strong user intent for computer use")
    | _ => typed
  else typed

/-- `capability_route_tools`. -/
def capabilityRouteTools (tools : List NormalizedToolDef) (spec : Option ToolChoiceSpec)
    (input : Bytes) (len : Nat) : RoutingDecision :=
  let image := imageRoute tools spec input len
  let computer := computerRoute tools spec input len
  let dec := buildRoute ⟨0, []⟩ capImage image.1 image.2
  let dec := buildRoute dec capComputer computer.1 computer.2
  buildRoute dec capWebSearch .denied
    (lit "not supported by bridge; agent handles browsing natively")

/-! ## Intent -/

/-- The input has one of the words, or two near one another and no word that speaks
against them. -/
def AsksFor (strong first second negative : List Bytes) (window : Nat) (input : Bytes) : Prop :=
  (∃ word ∈ strong, Mentions word input) ∨
    (∃ word₁ ∈ first, ∃ word₂ ∈ second, Near window word₁ word₂ input) ∧
      ∀ pattern ∈ negative, ¬ Mentions pattern input

/-- The input asks for an image. -/
def AsksForImage : Bytes → Prop :=
  AsksFor imageStrongKeywords imageCoPair₁ imageCoPair₂ negativeImagePatterns 80

/-- The input asks for the use of a computer. -/
def AsksForComputer : Bytes → Prop :=
  AsksFor computerStrongKeywords computerAction computerTarget negativeComputerPatterns 60

section

variable {input : Bytes}

theorem hasNegativePattern_iff (hzero : 0 ∉ input) (words : List Bytes) (hne : [] ∉ words) :
    hasNegativePattern input input.length words = true ↔
      ∃ word ∈ words, Mentions word input := by
  unfold hasNegativePattern
  simp only [List.any_eq_true, decide_eq_true_eq]
  refine exists_congr fun word => and_congr_right fun hin => ?_
  exact countKeyword_pos_iff hzero fun heq => hne (heq ▸ hin)

theorem countStrongKeywords_pos_iff (hzero : 0 ∉ input) (words : List Bytes)
    (hne : [] ∉ words) :
    0 < countStrongKeywords input input.length words ↔ ∃ word ∈ words, Mentions word input := by
  rw [← hasNegativePattern_iff hzero words hne]
  unfold countStrongKeywords hasNegativePattern
  induction words with
  | nil => simp
  | cons word words ih =>
      have hrest := ih (by grind)
      simp only [List.map_cons, List.sum_cons, List.any_cons, Bool.or_eq_true,
        decide_eq_true_eq]
      rw [← hrest]
      omega

theorem anyCooccurrence_iff (hzero : 0 ∉ input) {first second : List Bytes} (hfirst : [] ∉ first)
    (hsecond : [] ∉ second) (window : Nat) :
    anyCooccurrence input input.length first second window = true ↔
      ∃ word₁ ∈ first, ∃ word₂ ∈ second, Near window word₁ word₂ input := by
  unfold anyCooccurrence
  simp only [List.any_eq_true]
  refine exists_congr fun word₁ => and_congr_right fun hin₁ => ?_
  refine exists_congr fun word₂ => and_congr_right fun hin₂ => ?_
  exact hasCooccurrence_iff hzero (fun heq => hfirst (heq ▸ hin₁))
    (fun heq => hsecond (heq ▸ hin₂)) window

/-- What the two analyses make of their three searches. -/
theorem asksFor_iff (hzero : 0 ∉ input) {strong first second negative : List Bytes}
    (hstrong : [] ∉ strong) (hfirst : [] ∉ first) (hsecond : [] ∉ second)
    (hnegative : [] ∉ negative) (window : Nat) :
    AsksFor strong first second negative window input ↔
      0 < countStrongKeywords input input.length strong ∨
        anyCooccurrence input input.length first second window = true ∧
          hasNegativePattern input input.length negative = false := by
  unfold AsksFor
  rw [countStrongKeywords_pos_iff hzero strong hstrong,
    anyCooccurrence_iff hzero hfirst hsecond, ← Bool.not_eq_true,
    hasNegativePattern_iff hzero negative hnegative]
  simp only [not_exists, not_and]

/-- **An image is confirmed** iff the input asks for one. -/
theorem analyzeImageIntent_confirmed_iff (hzero : 0 ∉ input) :
    analyzeImageIntent input input.length = .confirmed ↔ AsksForImage input := by
  unfold AsksForImage
  rw [asksFor_iff hzero (by decide) (by decide) (by decide)
    (by decide)]
  unfold analyzeImageIntent
  grind

/-- **The use of a computer is confirmed** iff the input asks for it. -/
theorem analyzeComputerIntent_confirmed_iff (hzero : 0 ∉ input) :
    analyzeComputerIntent input input.length = .confirmed ↔ AsksForComputer input := by
  unfold AsksForComputer
  rw [asksFor_iff hzero (by decide) (by decide) (by decide)
    (by decide)]
  unfold analyzeComputerIntent
  grind

end

/-! ## The decision -/

/-- No capability is active and no route confirmed. -/
structure RoutingDecision.Idle (dec : RoutingDecision) : Prop where
  active : dec.activeCapabilities = 0
  routes : ∀ route ∈ dec.routes, route.confidence ≠ .confirmed

/-- The three routes of a decision, two of which can be confirmed. -/
theorem capabilityRouteTools_idle_iff (tools : List NormalizedToolDef)
    (spec : Option ToolChoiceSpec) (input : Bytes) (len : Nat) :
    (capabilityRouteTools tools spec input len).Idle ↔
      (imageRoute tools spec input len).1 ≠ .confirmed ∧
        (computerRoute tools spec input len).1 ≠ .confirmed := by
  unfold capabilityRouteTools buildRoute capImage capComputer capWebSearch
  constructor
  · intro h
    have hroutes := h.routes
    simpa using hroutes
  · intro h
    exact ⟨by simp [h.1, h.2], by simp [h.1, h.2]⟩

/-- Without a name the route is what the input asks for. -/
theorem imageRoute_confirmed_iff {spec : ToolChoiceSpec} (hmode : spec.mode ≠ .named)
    (tools : List NormalizedToolDef) (input : Bytes) (len : Nat) :
    (imageRoute tools (some spec) input len).1 = .confirmed ↔
      analyzeImageIntent input len = .confirmed := by
  unfold imageRoute
  cases analyzeImageIntent input len
  all_goals grind

theorem computerRoute_confirmed_iff {spec : ToolChoiceSpec} (hmode : spec.mode ≠ .named)
    (tools : List NormalizedToolDef) (input : Bytes) (len : Nat) :
    (computerRoute tools (some spec) input len).1 = .confirmed ↔
      analyzeComputerIntent input len = .confirmed := by
  unfold computerRoute
  cases analyzeComputerIntent input len
  all_goals grind

/-- The decision under a `tool_choice` of `none`; its name is never looked at. -/
def routedUnderNone (tools : List NormalizedToolDef) (name : Bytes) (input : CString) :
    RoutingDecision :=
  capabilityRouteTools tools (some ⟨.none, name⟩) input.val input.val.length

/-- **`tool_choice` none wins** exactly where the input asks for no capability, whatever the
tools are. -/
theorem tool_choice_none_iff (tools : List NormalizedToolDef) (name : Bytes) (input : CString) :
    (routedUnderNone tools name input).Idle ↔
      ¬ AsksForImage input.val ∧ ¬ AsksForComputer input.val := by
  have hmode : (⟨.none, name⟩ : ToolChoiceSpec).mode ≠ .named := by simp
  unfold routedUnderNone
  rw [capabilityRouteTools_idle_iff, ne_eq, ne_eq, imageRoute_confirmed_iff hmode,
    computerRoute_confirmed_iff hmode, analyzeImageIntent_confirmed_iff input.property,
    analyzeComputerIntent_confirmed_iff input.property]

/-- The input `draw image` activates the image capability against `none`. -/
theorem tool_choice_none_fails :
    ¬ ∀ (tools : List NormalizedToolDef) (name : Bytes) (input : CString),
      (routedUnderNone tools name input).Idle := by
  intro h
  have hidle := h [] [] ⟨lit "draw image", by decide +kernel⟩
  refine (capabilityRouteTools_idle_iff _ _ _ _).mp hidle |>.1 ?_
  rw [imageRoute_confirmed_iff (by decide), analyzeImageIntent_confirmed_iff (by decide +kernel)]
  refine Or.inl ⟨lit "draw image", by decide +kernel, [], [], by simp, ?_⟩
  constructor
  all_goals simp

end StarBridge
