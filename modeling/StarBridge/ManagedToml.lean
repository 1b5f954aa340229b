import StarBridge.ManagedInstall
import StarBridge.TomlLines

/-!
# What an installation does to the settings

The managed block begins with keys that are meant for the top level of
`config.toml` and goes on with a table of its own.  It is appended to the user's
text, so its first keys land in whatever table the user's text ends in.  An
installation takes effect iff that is no table at all, or the user has set the
three keys to the managed values already; and the keys and the table of the
block must not be there (`installs_iff`).
-/

namespace StarBridge

open CText Sections TomlLines

/-! ## What the block defines -/

/-- The table of the managed provider. -/
def providerTable : Bytes := lit "model_providers.star-bridge-local"

/-- The keys of the block in front of its table. -/
def ManagedSettings.topPairs (settings : ManagedSettings) : List (Bytes × Bytes) :=
  [(lit "model", lit "\"star-bridge-ds4\""),
    (lit "model_provider", lit "\"star-bridge-local\""),
    (lit "model_catalog_json", lit "\"" ++ settings.catalogPath ++ lit "\"")]

/-- The keys in the table. -/
def ManagedSettings.providerPairs (settings : ManagedSettings) (port : Int32) :
    List (Bytes × Bytes) :=
  [(lit "name", lit "\"Star Bridge Local\""),
    (lit "base_url", lit "\"http://127.0.0.1:" ++
      signedDecimal (if 0 < port then port.toInt else 8080) ++ lit "/v1\""),
    (lit "wire_api", lit "\"responses\""),
    (lit "streaming", lit "true"),
    (lit "response_timeout_ms", lit "60000"),
    (lit "context_tokens", lit "150000"),
    (lit "max_request_size", lit "131072"),
    (lit "requires_openai_auth", lit "false"),
    (lit "supports_websockets", lit "false"),
    (lit "model_reasoning_effort", lit "\"" ++
      (if settings.effort = [] then lit "medium" else settings.effort) ++ lit "\"")]

/-- Pairs in a table. -/
def inTable (table : Option Bytes) (pairs : List (Bytes × Bytes)) : List Entry :=
  pairs.map fun pair => ⟨table, pair.1, pair.2⟩

/-- What the block defines behind lines that end in a table. -/
def blockEntries (settings : ManagedSettings) (port : Int32) (table : Option Bytes) :
    List Entry :=
  inTable table settings.topPairs ++ inTable (some providerTable) (settings.providerPairs port)

/-! ## What the user has defined -/

/-- The settings outside the managed sections, each in the table it has in the
file as it is. -/
def userEntries (table : Option Bytes) (text : Bytes) : List Entry :=
  match _h : managedMarkup.next text with
  | none => entries table (linesOf text)
  | some (kept, _, rest) =>
      let gone := text.take (text.length - rest.length)
      entries table (linesOf kept) ++ userEntries (tableAfter table (linesOf gone)) rest
termination_by text.length
decreasing_by exact Markup.next_lt _h

theorem userEntries_of_noOpening {text : Bytes} (h : NoOpening text) :
    userEntries none text = entries none (linesOf text) := by
  rw [userEntries]
  split
  · rfl
  · rename_i hnext
    rw [Markup.next_of_free h.cut] at hnext
    cases hnext

/-! ## The lines of the block -/

theorem linesOf_joinLines {lines : List Bytes} (h : ∀ line ∈ lines, 10 ∉ line) (rest : Bytes) :
    linesOf (joinLines lines ++ rest) = lines.map readLine ++ linesOf rest := by
  induction lines with
  | nil => rfl
  | cons line lines ih =>
      have hshape : joinLines (line :: lines) ++ rest =
          line ++ 10 :: (joinLines lines ++ rest) := by
        simp [joinLines]
      rw [hshape, linesOf_line (h line List.mem_cons_self),
        ih fun line hline => h line (List.mem_cons_of_mem _ hline)]
      rfl

/-- A marker line, without its line break. -/
def markerLine (marker : Bytes) : Bytes := marker.dropLast

theorem markerLine_append {m : Bytes} (hm : m ∈ managedMarkup.markers) :
    markerLine m ++ [10] = m ∧ 10 ∉ markerLine m := by
  obtain ⟨front, rfl, hfront⟩ := marker_eq hm
  rw [markerLine, List.dropLast_concat]
  exact ⟨rfl, by simp [hfront]⟩

/-- A key with a quoted value. -/
theorem readLine_quoted {key text back : Bytes} (hkey : BareKey key) (htext : OneLine text)
    (hback : OneLine back) (hquote : back.getLast? = some 34) :
    readLine (key ++ 32 :: 61 :: 32 :: (34 :: text ++ back)) =
      some (.pair key (34 :: text ++ back)) := by
  refine readLine_pair hkey ⟨by simp, rfl, ?_, ?_⟩
  · rw [List.getLast?_append, hquote]
    rfl
  · intro hmem
    rcases List.mem_append.mp hmem with hmem | hmem
    · rcases List.mem_cons.mp hmem with hmem | hmem
      · cases hmem
      · exact htext.zero_not_mem hmem
    · exact hback.zero_not_mem hmem

/-- What the fixed lines of the body say. -/
theorem readLine_fixed :
    [lit "# This section is managed by star_bridge. Do not edit manually.", lit "#",
      lit "model = \"star-bridge-ds4\"", lit "model_provider = \"star-bridge-local\"", lit "",
      lit "# Force the Desktop UI picker to load our local model catalog",
      lit "[model_providers.star-bridge-local]", lit "name = \"Star Bridge Local\"",
      lit "wire_api = \"responses\"", lit "streaming = true",
      lit "response_timeout_ms = 60000", lit "context_tokens = 150000",
      lit "max_request_size = 131072", lit "requires_openai_auth = false",
      lit "supports_websockets = false",
      lit "# Reasoning effort control: Codex Desktop may update this via UI.",
      lit "# Valid values: low, medium, high, extra high",
      markerLine managedBegin, markerLine managedEnd].map readLine =
    [some .nothing, some .nothing, some (.pair (lit "model") (lit "\"star-bridge-ds4\"")),
      some (.pair (lit "model_provider") (lit "\"star-bridge-local\"")), some .nothing,
      some .nothing, some (.header providerTable),
      some (.pair (lit "name") (lit "\"Star Bridge Local\"")),
      some (.pair (lit "wire_api") (lit "\"responses\"")),
      some (.pair (lit "streaming") (lit "true")),
      some (.pair (lit "response_timeout_ms") (lit "60000")),
      some (.pair (lit "context_tokens") (lit "150000")),
      some (.pair (lit "max_request_size") (lit "131072")),
      some (.pair (lit "requires_openai_auth") (lit "false")),
      some (.pair (lit "supports_websockets") (lit "false")), some .nothing, some .nothing,
      some .nothing, some .nothing] := by
  rw [managedBegin, managedEnd, providerTable]
  repeat rw [lit_ofList]
  decide

section

variable (settings : ManagedSettings) (port : Int32)

theorem readLine_catalog :
    readLine (lit "model_catalog_json = \"" ++ settings.catalogPath ++ lit "\"") =
      some (.pair (lit "model_catalog_json")
        (lit "\"" ++ settings.catalogPath ++ lit "\"")) :=
  @readLine_quoted (lit "model_catalog_json") _ _ ⟨by decide, by decide +kernel⟩
    (oneLine_catalogPath settings) quote_line.1 quote_line.2

theorem readLine_baseUrl (number : Int) :
    readLine (lit "base_url = \"http://127.0.0.1:" ++ signedDecimal number ++ lit "/v1\"") =
      some (.pair (lit "base_url")
        (lit "\"http://127.0.0.1:" ++ signedDecimal number ++ lit "/v1\"")) :=
  @readLine_quoted (lit "base_url") (lit "http://127.0.0.1:" ++ signedDecimal number)
    (lit "/v1\"") ⟨by decide, by decide +kernel⟩
    ((oneLine_lit (by decide)).append (oneLine_signedDecimal number))
    (oneLine_lit (by decide)) rfl

theorem readLine_effort :
    readLine (lit "model_reasoning_effort = \"" ++
        (if settings.effort = [] then lit "medium" else settings.effort) ++ lit "\"") =
      some (.pair (lit "model_reasoning_effort") (lit "\"" ++
        (if settings.effort = [] then lit "medium" else settings.effort) ++ lit "\"")) :=
  @readLine_quoted (lit "model_reasoning_effort") _ _ ⟨by decide, by decide +kernel⟩
    (oneLine_effort settings) quote_line.1 quote_line.2

/-- The lines of the block. -/
def blockLines : List (Option Line) :=
  [some .nothing, some .nothing, some .nothing,
    some (.pair (lit "model") (lit "\"star-bridge-ds4\"")),
    some (.pair (lit "model_provider") (lit "\"star-bridge-local\"")), some .nothing,
    some .nothing,
    some (.pair (lit "model_catalog_json")
      (lit "\"" ++ settings.catalogPath ++ lit "\"")), some .nothing,
    some (.header providerTable),
    some (.pair (lit "name") (lit "\"Star Bridge Local\"")),
    some (.pair (lit "base_url") (lit "\"http://127.0.0.1:" ++
      signedDecimal (if 0 < port then port.toInt else 8080) ++ lit "/v1\"")),
    some (.pair (lit "wire_api") (lit "\"responses\"")),
    some (.pair (lit "streaming") (lit "true")),
    some (.pair (lit "response_timeout_ms") (lit "60000")),
    some (.pair (lit "context_tokens") (lit "150000")),
    some (.pair (lit "max_request_size") (lit "131072")),
    some (.pair (lit "requires_openai_auth") (lit "false")),
    some (.pair (lit "supports_websockets") (lit "false")), some .nothing, some .nothing,
    some .nothing,
    some (.pair (lit "model_reasoning_effort") (lit "\"" ++
      (if settings.effort = [] then lit "medium" else settings.effort) ++ lit "\"")),
    some .nothing, some .nothing]

theorem linesOf_block :
    linesOf (managedBlock settings port).text = blockLines settings port := by
  obtain ⟨hopens, hopensLine⟩ :=
    markerLine_append (m := managedBegin) (managedMarkup.opening_subset List.mem_cons_self)
  obtain ⟨hcloses, hclosesLine⟩ :=
    markerLine_append (m := managedEnd) (managedMarkup.closing_subset List.mem_cons_self)
  have htext : (managedBlock settings port).text =
      joinLines (markerLine managedBegin :: settings.bodyLines port ++ [markerLine managedEnd]) ++
        [] := by
    have hshape : (managedBlock settings port).text =
        (markerLine managedBegin ++ [10]) ++ joinLines (settings.bodyLines port) ++
          (markerLine managedEnd ++ [10]) := by
      rw [hopens, hcloses]
      rfl
    rw [hshape]
    simp [joinLines]
  have hfixed := readLine_fixed
  simp only [List.map_cons, List.map_nil, List.cons.injEq, and_true] at hfixed
  obtain ⟨h1, h2, h3, h4, h5, h6, h7, h8, h9, h10, h11, h12, h13, h14, h15, h16, h17, h18, h19⟩ :=
    hfixed
  rw [htext, linesOf_joinLines]
  · simp only [ManagedSettings.bodyLines, List.map_cons, List.map_append, List.map_nil,
      readLine_catalog, readLine_baseUrl, readLine_effort, h1, h2, h3, h4, h5, h6, h7, h8, h9,
      h10, h11, h12, h13, h14, h15, h16, h17, h18, h19]
    rfl
  · intro line hline
    rcases List.mem_append.mp hline with hline | hline
    · rcases List.mem_cons.mp hline with rfl | hline
      · exact hopensLine
      · exact (bodyLines_plain settings port line hline).1.break_not_mem
    · rw [List.mem_singleton.mp hline]
      exact hclosesLine

/-- **What the block says**, behind lines that end in a table. -/
theorem entries_block (table : Option Bytes) :
    entries table (linesOf (managedBlock settings port).text) =
      blockEntries settings port table := by
  rw [linesOf_block]
  rfl

theorem headers_block :
    headers (linesOf (managedBlock settings port).text) = [providerTable] := by
  rw [linesOf_block]
  rfl

theorem readable_block : none ∉ linesOf (managedBlock settings port).text := by
  rw [linesOf_block]
  simp [blockLines]

/-! ## The block behind the user's text -/

/-- What is in front of the block keeps its lines, but perhaps a blank one. -/
theorem linesOf_endLine_append (text back : Bytes) :
    ∃ front, linesOf (endLine text ++ back) = front ++ linesOf back ∧
      (linesOf text = front ∨ linesOf text = front ++ [some .nothing]) := by
  by_cases hnil : text = []
  · subst hnil
    exact ⟨[], rfl, Or.inr rfl⟩
  · by_cases hlast : text.getLast? = some 10
    · obtain ⟨front, rfl⟩ := List.getLast?_eq_some_iff.mp hlast
      have hend : endLine (front ++ [10]) = front ++ [10] := if_neg fun h => h.2 hlast
      refine ⟨linesOf front, ?_, Or.inr (linesOf_break front [])⟩
      rw [hend, List.append_assoc]
      exact linesOf_break front back
    · have hend : endLine text = text ++ [10] := if_pos ⟨hnil, hlast⟩
      refine ⟨linesOf text, ?_, Or.inl rfl⟩
      rw [hend, List.append_assoc]
      exact linesOf_break text back

/-- The entries of a file with the block: those of the user's text, and the
block's where that ends. -/
theorem entries_installed (text : Bytes) :
    entries none (linesOf (endLine text ++ (managedBlock settings port).text)) =
      entries none (linesOf text) ++
        blockEntries settings port (tableAfter none (linesOf text)) := by
  obtain ⟨front, hlines, hfront⟩ :=
    linesOf_endLine_append text (managedBlock settings port).text
  rw [hlines, entries_append, entries_block]
  rcases hfront with hfront | hfront
  · rw [hfront]
  · rw [hfront, entries_append_nothing, tableAfter, tableAfter, headers_append_nothing]

theorem keys_blockEntries (table : Option Bytes) :
    ((blockEntries settings port table).map Entry.place).Nodup := by
  have hkeys : (settings.topPairs ++ settings.providerPairs port).map Prod.fst =
      [lit "model", lit "model_provider", lit "model_catalog_json", lit "name", lit "base_url",
        lit "wire_api", lit "streaming", lit "response_timeout_ms", lit "context_tokens",
        lit "max_request_size", lit "requires_openai_auth", lit "supports_websockets",
        lit "model_reasoning_effort"] := rfl
  refine List.Nodup.of_map Prod.snd ?_
  have hsame : ((blockEntries settings port table).map Entry.place).map Prod.snd =
      (settings.topPairs ++ settings.providerPairs port).map Prod.fst := rfl
  rw [hsame, hkeys]
  decide

/-- Where a file with the block is well defined. -/
theorem wellDefined_installed_iff (text : Bytes) :
    WellDefined (linesOf (endLine text ++ (managedBlock settings port).text)) ↔
      WellDefined (linesOf text) ∧ providerTable ∉ headers (linesOf text) ∧
        ∀ e ∈ inTable (tableAfter none (linesOf text)) settings.topPairs,
          e.place ∉ (entries none (linesOf text)).map Entry.place := by
  obtain ⟨front, hlines, hfront⟩ :=
    linesOf_endLine_append text (managedBlock settings port).text
  have hsame : (WellDefined (linesOf text) ↔ WellDefined front) ∧
      headers (linesOf text) = headers front ∧
      entries none (linesOf text) = entries none front := by
    rcases hfront with hfront | hfront
    · rw [hfront]
      exact ⟨Iff.rfl, rfl, rfl⟩
    · rw [hfront]
      exact ⟨wellDefined_append_nothing, headers_append_nothing front,
        entries_append_nothing none front⟩
  obtain ⟨hdefined, hheaders, hentries⟩ := hsame
  rw [hdefined, hentries, tableAfter, hheaders, hlines, wellDefined_append_iff, headers_block,
    entries_block]
  constructor
  · rintro ⟨hfront, -, -, htable, -, hkeys⟩
    refine ⟨hfront, fun h => htable h List.mem_cons_self, fun e he hin => ?_⟩
    exact hkeys hin (List.mem_map_of_mem (List.mem_append_left _ he))
  · rintro ⟨hfront, htable, hkeys⟩
    refine ⟨hfront, readable_block settings port, List.nodup_singleton _, ?_,
      keys_blockEntries settings port _, ?_⟩
    · intro name hname hmem
      exact htable (List.mem_singleton.mp hmem ▸ hname)
    · intro place hplace hmem
      obtain ⟨e, he, rfl⟩ := List.mem_map.mp hmem
      rcases List.mem_append.mp he with he | he
      · exact hkeys e he hplace
      · obtain ⟨e', he', hsame⟩ := List.mem_map.mp hplace
        have hprovider : e'.table = some providerTable := by
          obtain ⟨pair, -, rfl⟩ := List.mem_map.mp he
          exact congrArg Prod.fst hsame
        rcases table_of_mem_entries he' with hnone | ⟨name, hname, hsome⟩
        · cases hprovider.symm.trans hnone
        · cases hprovider.symm.trans hsome
          exact htable hname

/-! ## Installations that take effect -/

/-- What the block is to override. -/
def overridden : List (Option Bytes × Bytes) :=
  (blockEntries settings port none).map Entry.place

/-- The installed file is well defined, has the managed values at the top level,
and keeps every setting of the user that the block does not override. -/
structure TakesEffect (old new : Bytes) : Prop where
  wellDefined : WellDefined (linesOf new)
  managed : ∀ e ∈ inTable none settings.topPairs, e ∈ entries none (linesOf new)
  kept : ∀ e ∈ userEntries none old, e.place ∉ overridden settings port →
    e ∈ entries none (linesOf new)

/-- What an installation needs of a file whose text without the managed sections
has the given lines. -/
structure Receives (old : Bytes) (lines : List (Option Line)) : Prop where
  /-- The text is well defined without the sections, and has no managed table. -/
  wellDefined : WellDefined lines
  table_free : providerTable ∉ headers lines
  /-- The table it ends in has none of the keys in front of the block's table. -/
  keys_free : ∀ e ∈ inTable (tableAfter none lines) settings.topPairs,
    e.place ∉ (entries none lines).map Entry.place
  /-- It has no table at all, or it has the managed values itself. -/
  on_top : headers lines = [] ∨
    ∀ e ∈ inTable none settings.topPairs, e ∈ entries none lines
  /-- No setting changes its table when the sections are taken out, unless the
  block puts it there again. -/
  kept : ∀ e ∈ userEntries none old, e.place ∉ overridden settings port →
    e ∈ entries none lines ∨ e ∈ inTable (tableAfter none lines) settings.topPairs

theorem table_of_mem_inTable {table : Option Bytes} {pairs : List (Bytes × Bytes)} {e : Entry}
    (he : e ∈ inTable table pairs) : e.table = table := by
  obtain ⟨pair, -, rfl⟩ := List.mem_map.mp he
  rfl

theorem takesEffect_installed_iff (old text : Bytes) :
    TakesEffect settings port old (endLine text ++ (managedBlock settings port).text) ↔
      Receives settings port old (linesOf text) := by
  have hentries := entries_installed settings port text
  constructor
  · rintro ⟨hdefined, hmanaged, hkept⟩
    obtain ⟨htext, htable, hkeys⟩ := (wellDefined_installed_iff settings port text).mp hdefined
    refine ⟨htext, htable, hkeys, ?_, ?_⟩
    · by_cases hnone : headers (linesOf text) = []
      · exact Or.inl hnone
      · refine Or.inr fun e he => ?_
        have htop := table_of_mem_inTable he
        have hin := hmanaged e he
        rw [hentries] at hin
        rcases List.mem_append.mp hin with hin | hin
        · exact hin
        · rcases List.mem_append.mp hin with hin | hin
          · have hlast := (table_of_mem_inTable hin).symm.trans htop
            exact absurd (tableAfter_eq_none_iff.mp hlast) hnone
          · cases (table_of_mem_inTable hin).symm.trans htop
    · intro e he hfree
      have hin := hkept e he hfree
      rw [hentries] at hin
      rcases List.mem_append.mp hin with hin | hin
      · exact Or.inl hin
      · rcases List.mem_append.mp hin with hin | hin
        · exact Or.inr hin
        · exact absurd (List.mem_map_of_mem (List.mem_append_right _ hin)) hfree
  · rintro ⟨htext, htable, hkeys, htop, hkept⟩
    refine ⟨(wellDefined_installed_iff settings port text).mpr ⟨htext, htable, hkeys⟩, ?_, ?_⟩
    · intro e he
      rw [hentries]
      rcases htop with hnone | hown
      · refine List.mem_append_right _ (List.mem_append_left _ ?_)
        rwa [tableAfter_eq_none_iff.mpr hnone]
      · exact List.mem_append_left _ (hown e he)
    · intro e he hfree
      rw [hentries]
      rcases hkept e he hfree with hin | hin
      · exact List.mem_append_left _ hin
      · exact List.mem_append_right _ (List.mem_append_left _ hin)

end

/-- A file without opening markers receives the block iff its lines leave room
for it. -/
theorem receives_iff_of_noOpening (settings : ManagedSettings) (port : Int32) {text : Bytes}
    (hmarkers : NoOpening text) (hvalid : WellDefined (linesOf text)) :
    Receives settings port text (linesOf text) ↔
      providerTable ∉ headers (linesOf text) ∧
        (∀ e ∈ inTable (tableAfter none (linesOf text)) settings.topPairs,
          e.place ∉ (entries none (linesOf text)).map Entry.place) ∧
        (headers (linesOf text) = [] ∨
          ∀ e ∈ inTable none settings.topPairs, e ∈ entries none (linesOf text)) := by
  constructor
  · intro h
    exact ⟨h.table_free, h.keys_free, h.on_top⟩
  · rintro ⟨htable, hkeys, htop⟩
    refine ⟨hvalid, htable, hkeys, htop, fun e he _ => Or.inl ?_⟩
    rwa [userEntries_of_noOpening hmarkers] at he

theorem noOpening_of_short {text : Bytes} (h : text.length < 31) : NoOpening text := by
  intro m hm hin
  have hlong := opening_length hm
  have hle := hin.length_le
  omega

/-- A setting of a user, in no table. -/
def sandboxConfig : Bytes := lit "sandbox_mode = \"read-only\"\n"

theorem linesOf_sandboxConfig :
    linesOf sandboxConfig =
      [some (.pair (lit "sandbox_mode") (lit "\"read-only\"")), some .nothing] := by
  rw [sandboxConfig]
  repeat rw [lit_ofList]
  decide

/-- Two lines of a user. -/
def toolsConfig : Bytes := lit "[tools]\nweb_search = true\n"

theorem linesOf_toolsConfig :
    linesOf toolsConfig = [some (.header (lit "tools")),
      some (.pair (lit "web_search") (lit "true")), some .nothing] := by
  rw [toolsConfig]
  repeat rw [lit_ofList]
  decide

end StarBridge
