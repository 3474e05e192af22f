import Orchestration.Permissions.CodexConfig

/-!
# The drift check reads what the builder writes

What a launch configuration was built for is what the drift check finds in it.
-/

namespace Orchestration.Permissions

open Js Roles
open Dispatch (Provider)
open Fallible

/-! ## The keys of the file of Codex -/

section

variable {identity : PaneIdentity} {command : String} {args : List String}
  {mcpEnv : List (String × String)} {hookCommand : List Char}

/-- The text of the file. -/
def codexConfigText (identity : PaneIdentity) (command : String) (args : List String)
    (mcpEnv : List (String × String)) (hookCommand : List Char) : List Char :=
  ['\n'].intercalate (codexConfigLines identity command args mcpEnv hookCommand) ++ ['\n']

theorem tomlActiveScalar_codexConfig {name key value : List Char} {scalar : TomlScalar}
    (hkeys : ∀ entry ∈ mcpEnv, isEnvVarName entry.1.toList = true)
    (hsandbox : "sandbox_workspace_write".toList ≠ name)
    (henv : "mcp_servers.co.env".toList ≠ name) (htrust : "trust_level".toList ≠ key)
    (hvalue : valuesIn name key (codexConfigReading command args hookCommand) [] = [value])
    (hscalar : tomlScalar? value = some scalar) :
    tomlActiveScalar (codexConfigText identity command args mcpEnv hookCommand) name key =
      some scalar := by
  rw [tomlActiveScalar, codexConfigText,
    tomlActiveAssignmentValue_codexConfig hkeys hsandbox henv htrust hvalue, Option.bind_some,
    hscalar]

/-- The server of the file is the one that the builder was given, where its strings are kept. -/
theorem codexConfigTomlHasExpectedMcp_codexConfig
    (hkeys : ∀ entry ∈ mcpEnv, isEnvVarName entry.1.toList = true)
    (hcommand : isAbsolute command.toList = true) (henv : endsWithEnv command = false) :
    codexConfigTomlHasExpectedMcp (codexConfigText identity command args mcpEnv hookCommand)
      (some command) args = true ↔ Kept command.toList ∧ ∀ arg ∈ args, Kept arg.toList := by
  have hline : valuesIn "mcp_servers.co".toList "command".toList
      (codexConfigReading command args hookCommand) [] = [tomlString command.toList] := rfl
  have hlineArgs : valuesIn "mcp_servers.co".toList "args".toList
      (codexConfigReading command args hookCommand) [] = [tomlArray (args.map String.toList)] := rfl
  have hread : tomlActiveScalar (codexConfigText identity command args mcpEnv hookCommand)
      "mcp_servers.co".toList "command".toList = some (.text (reread command.toList)) :=
    tomlActiveScalar_codexConfig hkeys (by decide) (by decide) (by decide) hline
      (tomlScalar?_string command.toList)
  have hreadArgs : tomlActiveStringArray
      (codexConfigText identity command args mcpEnv hookCommand) "mcp_servers.co".toList
      "args".toList = some ((args.map String.toList).map reread) := by
    rw [tomlActiveStringArray, codexConfigText, tomlActiveAssignmentValue_codexConfig hkeys
      (by decide) (by decide) (by decide) hlineArgs, Option.bind_some, tomlStringArray?_array]
  have htrusted : isTrustedAbsoluteCommand command.toList = true := by
    rw [endsWithEnv] at henv
    rw [isTrustedAbsoluteCommand, hcommand, henv]
    rfl
  simp only [codexConfigTomlHasExpectedMcp, hread, hreadArgs, Bool.and_eq_true, decide_eq_true_eq,
    Option.some.injEq, reread_eq_self, map_reread_eq_self, List.forall_mem_map]
  constructor
  · rintro ⟨⟨-, hkept⟩, hargs⟩
    exact ⟨hkept, hargs⟩
  · rintro ⟨hkept, hargs⟩
    rw [reread_eq_self.2 hkept]
    exact ⟨⟨htrusted, hkept⟩, hargs⟩

/-- The hook of the file is the one that reads the rules, where its command is kept. -/
theorem codexConfigTomlReferencesRuleFile_codexConfig
    (hkeys : ∀ entry ∈ mcpEnv, isEnvVarName entry.1.toList = true) {rulesPath : List Char}
    (hpath : rulesPath ≠ [])
    (hnames : "--rules ".toList ++ shellDoubleQuote rulesPath <:+: hookCommand)
    (htrusted : hookCommandUsesTrustedExecutable hookCommand = true) :
    codexConfigTomlReferencesRuleFile (codexConfigText identity command args mcpEnv hookCommand)
      rulesPath (some (String.ofList hookCommand)) = true ↔ Kept hookCommand := by
  have hhooks : tomlActiveScalar (codexConfigText identity command args mcpEnv hookCommand)
      "features".toList "hooks".toList = some (.bool true) :=
    tomlActiveScalar_codexConfig hkeys (by decide) (by decide) (by decide) rfl rfl
  have hmatcher : tomlActiveScalar (codexConfigText identity command args mcpEnv hookCommand)
      "hooks.PreToolUse".toList "matcher".toList = some (.text "Bash".toList) :=
    tomlActiveScalar_codexConfig hkeys (by decide) (by decide) (by decide) rfl rfl
  have htype : tomlActiveScalar (codexConfigText identity command args mcpEnv hookCommand)
      "hooks.PreToolUse.hooks".toList "type".toList = some (.text "command".toList) :=
    tomlActiveScalar_codexConfig hkeys (by decide) (by decide) (by decide) rfl rfl
  have hline : valuesIn "hooks.PreToolUse.hooks".toList "command".toList
      (codexConfigReading command args hookCommand) [] = [tomlString hookCommand] := rfl
  have hcommand : tomlActiveScalar (codexConfigText identity command args mcpEnv hookCommand)
      "hooks.PreToolUse.hooks".toList "command".toList = some (.text (reread hookCommand)) :=
    tomlActiveScalar_codexConfig hkeys (by decide) (by decide) (by decide) hline
      (tomlScalar?_string hookCommand)
  have hexpected : codexConfigTomlHasExpectedHookCommand
      (codexConfigText identity command args mcpEnv hookCommand) rulesPath
      (some (String.ofList hookCommand)) = true ↔ Kept hookCommand := by
    simp only [codexConfigTomlHasExpectedHookCommand, String.toList_ofList, hcommand, htrusted,
      hnames, decide_true, Bool.and_true, decide_eq_true_eq, Option.some.injEq,
      TomlScalar.text.injEq, reread_eq_self]
  rw [← hexpected, codexConfigTomlReferencesRuleFile, hhooks, hmatcher, htype]
  simp [hpath]

/-- The tools of the server need no approval. -/
theorem codexConfigTomlHasMcpAutoApprove_codexConfig
    (hkeys : ∀ entry ∈ mcpEnv, isEnvVarName entry.1.toList = true) :
    codexConfigTomlHasMcpAutoApprove
      (codexConfigText identity command args mcpEnv hookCommand) = true :=
  decide_eq_true
    (tomlActiveScalar_codexConfig hkeys (by decide) (by decide) (by decide) rfl rfl)

end

/-! ## The rules of the hook -/

theorem trim_ne_nil {c : Char} {text : List Char} (h : c ∈ text)
    (hc : isStrWhiteSpace c = false) : trim text ≠ [] := by
  intro hnil
  rw [trim, List.reverse_eq_nil_iff, List.dropWhile_eq_nil_iff] at hnil
  cases hdrop : text.dropWhile isStrWhiteSpace with
  | nil =>
    rw [List.dropWhile_eq_nil_iff] at hdrop
    simp [hdrop c h] at hc
  | cons d rest =>
    have hd : isStrWhiteSpace d = true := hnil d (by simp [hdrop])
    have hhead := @List.head_dropWhile_not _ isStrWhiteSpace text (by simp [hdrop])
    simp [hdrop, hd] at hhead

theorem written_blockList (blockList : List BlockRule) :
    (Json.obj [("version", .num 1), ("tool", .str "shell"),
      ("matcher", .str "@co/core/permissions/matchBlock"),
      ("rules", .arr (blockList.map fun rule => .obj [("id", .str rule.id),
        ("category", .str rule.category), ("description", .str rule.description)]))]).Written := by
  have hone : Json.Written (.num 1) := by
    have hsafe := @Json.Written.num 1 (by decide)
    simpa using hsafe
  have hrules : Json.Written (.arr (blockList.map fun rule => .obj [("id", .str rule.id),
      ("category", .str rule.category), ("description", .str rule.description)])) := by
    refine .arr fun item hitem => ?_
    obtain ⟨rule, -, rfl⟩ := List.mem_map.1 hitem
    refine .obj fun field hfield => ?_
    simp only [List.mem_cons, List.not_mem_nil, or_false] at hfield
    rcases hfield with rfl | rfl | rfl <;> exact .str _
  refine .obj fun field hfield => ?_
  simp only [List.mem_cons, List.not_mem_nil, or_false] at hfield
  rcases hfield with rfl | rfl | rfl | rfl
  · exact hone
  · exact .str _
  · exact .str _
  · exact hrules

theorem mem_distinctIds {blockList : List BlockRule} (hids : ∀ rule ∈ blockList, rule.id ≠ "")
    {id : String} {seen : List String} :
    id ∈ distinctIds seen (blockList.map fun rule => .obj [("id", .str rule.id),
        ("category", .str rule.category), ("description", .str rule.description)]) ↔
      id ∈ blockList.map (·.id) ∧ id ∉ seen := by
  induction blockList generalizing seen with
  | nil => simp [distinctIds]
  | cons rule blockList ih =>
    have hrest := @ih (fun r hr => hids r (List.mem_cons_of_mem rule hr))
    have hid : ruleIdOf (.obj [("id", .str rule.id), ("category", .str rule.category),
        ("description", .str rule.description)]) = some rule.id := by
      simp [ruleIdOf, Json.field?, hids rule List.mem_cons_self]
    rw [List.map_cons, distinctIds, hid]
    by_cases hseen : rule.id ∈ seen
    · simp only [List.contains_eq_mem, hseen, decide_true, if_true, hrest, List.map_cons,
        List.mem_cons]
      constructor
      · exact fun h => ⟨.inr h.1, h.2⟩
      · rintro ⟨rfl | h, hnot⟩
        · exact absurd hseen hnot
        · exact ⟨h, hnot⟩
    · simp only [List.contains_eq_mem, hseen, decide_false, Bool.false_eq_true, if_false,
        List.mem_cons, hrest, List.map_cons, not_or]
      constructor
      · rintro (rfl | ⟨h, hne, hnot⟩)
        · exact ⟨.inl rfl, hseen⟩
        · exact ⟨.inr h, hnot⟩
      · rintro ⟨rfl | h, hnot⟩
        · exact .inl rfl
        · by_cases heq : id = rule.id
          · exact .inl heq
          · exact .inr ⟨h, heq, hnot⟩

/-- The sidecar names the rules that it was written for. -/
theorem mem_readCodexHookRuleIds {blockList : List BlockRule}
    (hids : ∀ rule ∈ blockList, rule.id ≠ "") {id : String} :
    id ∈ readCodexHookRuleIds (some (buildCodexBlockListRulesJson blockList)) ↔
      id ∈ blockList.map (·.id) := by
  have hparse : parseJsonObject (some (buildCodexBlockListRulesJson blockList)) =
      some (.obj [("version", .num 1), ("tool", .str "shell"),
        ("matcher", .str "@co/core/permissions/matchBlock"),
        ("rules", .arr (blockList.map fun rule => .obj [("id", .str rule.id),
          ("category", .str rule.category), ("description", .str rule.description)]))]) := by
    have hread := parse_stringify_newline (written_blockList blockList)
    have hopen : '{' ∈ (buildCodexBlockListRulesJson blockList).toList := by
      simp [buildCodexBlockListRulesJson, jsonFile, stringify, writeJson]
    rw [parseJsonObject, Option.bind_some, if_neg (trim_ne_nil hopen (by decide)),
      buildCodexBlockListRulesJson, jsonFile, hread]
  rw [readCodexHookRuleIds, hparse]
  simp only [Json.field?, List.reverse_cons, List.reverse_nil, List.nil_append, List.cons_append]
  simp [mem_distinctIds hids]

/-! ## What the builder accepts -/

theorem requireAbsoluteCommand_eq_ok {name command value : String} :
    requireAbsoluteCommand name command = .ok value ↔
      isAbsolute command.toList = true ∧ endsWithEnv command = false ∧ command = value := by
  rw [requireAbsoluteCommand]
  cases isAbsolute command.toList
  · simp
  · cases endsWithEnv command <;> simp

theorem requireTrustedHookExecutableArgs_eq_ok {args : List String} {u : Unit} :
    requireTrustedHookExecutableArgs args = .ok u ↔
      args.length ≤ 1 ∧ ∀ arg ∈ args, isAbsolute arg.toList = true ∧ endsWithEnv arg = false := by
  match args with
  | [] => simp [requireTrustedHookExecutableArgs]
  | [script] =>
    rw [requireTrustedHookExecutableArgs]
    cases habs : isAbsolute script.toList
    · simp [habs]
    · cases henv : endsWithEnv script <;> simp [habs, henv]
  | _ :: _ :: _ => simp [requireTrustedHookExecutableArgs]

theorem requireEnvVarName_eq_ok {key label : String} {u : Unit} :
    requireEnvVarName key label = .ok u ↔ isEnvVarName key.toList = true := by
  rw [requireEnvVarName]
  cases isEnvVarName key.toList <;> simp

/-- The entries are the variables of the pane, and each has a name. -/
theorem sortedEnvEntries_eq_ok {runtime : Runtime} {env entries : List (String × String)}
    {label : String} (h : sortedEnvEntries runtime env label = .ok entries) :
    (∀ entry, entry ∈ entries ↔ entry ∈ env) ∧
      ∀ entry ∈ entries, isEnvVarName entry.1.toList = true := by
  obtain ⟨⟨⟩, hnames, hentries⟩ := bind_eq_ok.1 h
  rw [forM_eq_ok] at hnames
  rw [pure_eq_ok] at hentries
  rw [← hentries]
  exact ⟨fun entry => List.mem_mergeSort,
    fun entry hentry => requireEnvVarName_eq_ok.1 (hnames entry hentry)⟩

/-- What the builder of Codex wrote, and what it had checked before. -/
theorem buildCodexConfigArtifacts_eq_ok {runtime : Runtime} {identity : PaneIdentity}
    {artifacts : CodexConfigArtifacts}
    (h : buildCodexConfigArtifacts runtime identity = .ok artifacts) :
    ∃ cliEnv mcpEnv : List (String × String),
      ((∀ entry, entry ∈ cliEnv ↔ entry ∈ identity.coCliEnv) ∧
        ∀ entry ∈ cliEnv, isEnvVarName entry.1.toList = true) ∧
      (∀ entry ∈ mcpEnv, isEnvVarName entry.1.toList = true) ∧
      (isAbsolute identity.coMcpCommand.toList = true ∧
        endsWithEnv identity.coMcpCommand = false) ∧
      (isAbsolute identity.coCliCommand.toList = true ∧
        endsWithEnv identity.coCliCommand = false) ∧
      (identity.coCliArgs.length ≤ 1 ∧ ∀ arg ∈ identity.coCliArgs,
        isAbsolute arg.toList = true ∧ endsWithEnv arg = false) ∧
      artifacts = {
        codexConfigToml := String.ofList (codexConfigText identity identity.coMcpCommand
          identity.coMcpArgs mcpEnv (hookCommandOf cliEnv identity.coCliCommand
            identity.coCliArgs (buildCodexBlockListRulesPath identity)))
        codexMcpCommand := identity.coMcpCommand
        codexMcpArgs := identity.coMcpArgs
        codexHookCommand := String.ofList (hookCommandOf cliEnv identity.coCliCommand
          identity.coCliArgs (buildCodexBlockListRulesPath identity)) } := by
  obtain ⟨command, hcommand, h⟩ := bind_eq_ok.1 h
  obtain ⟨⟨⟩, -, h⟩ := bind_eq_ok.1 h
  obtain ⟨hookCli, hcli, h⟩ := bind_eq_ok.1 h
  obtain ⟨⟨⟩, hargs, h⟩ := bind_eq_ok.1 h
  obtain ⟨cliEnv, hcliEnv, h⟩ := bind_eq_ok.1 h
  obtain ⟨mcpEnv, hmcpEnv, h⟩ := bind_eq_ok.1 h
  obtain ⟨habs, henv, rfl⟩ := requireAbsoluteCommand_eq_ok.1 hcommand
  obtain ⟨habsCli, henvCli, rfl⟩ := requireAbsoluteCommand_eq_ok.1 hcli
  exact ⟨cliEnv, mcpEnv, sortedEnvEntries_eq_ok hcliEnv,
    (sortedEnvEntries_eq_ok hmcpEnv).2, ⟨habs, henv⟩,
    ⟨habsCli, henvCli⟩, requireTrustedHookExecutableArgs_eq_ok.1 hargs, (pure_eq_ok.1 h).symm⟩

/-! ## The files of the home -/

section

variable {cwd : List Char} {identity : PaneIdentity}

theorem resolveSegments_isolatedPath (hhome : identity.isolatedHomeDir ≠ "") (below : String) :
    resolveSegments cwd [isolatedPath identity below] =
      (below.toList.splitOn '/').foldl applySegment
        (resolveSegments cwd [identity.isolatedHomeDir.toList]) :=
  resolveSegments_strip (by simpa using hhome)

/-- The file stands where the home says. -/
theorem resolve_codexConfigToml (hhome : identity.isolatedHomeDir ≠ "") :
    resolve cwd [buildCodexConfigTomlPath identity] =
      resolve cwd [identity.isolatedHomeDir.toList, "config.toml".toList] := by
  rw [resolve, resolve, buildCodexConfigTomlPath, resolveSegments_isolatedPath hhome,
    resolveSegments_two (by simpa using hhome) (by decide) (by decide)]

/-- The rules stand below the home. -/
theorem isPathInsideDir_blockListRules (hhome : identity.isolatedHomeDir ≠ "") :
    isPathInsideDir cwd identity.isolatedHomeDir.toList
      (buildCodexBlockListRulesPath identity) = true := by
  have hsplit : "hooks/co-block-list-rules.json".toList.splitOn '/' =
      ["hooks".toList, "co-block-list-rules.json".toList] := by decide
  have hbelow : resolveSegments cwd [buildCodexBlockListRulesPath identity] =
      resolveSegments cwd [identity.isolatedHomeDir.toList] ++
        ["hooks".toList, "co-block-list-rules.json".toList] := by
    rw [buildCodexBlockListRulesPath, resolveSegments_isolatedPath hhome, hsplit, List.foldl_cons,
      List.foldl_cons, List.foldl_nil, applySegment_name (by decide), applySegment_name (by decide),
      List.append_assoc]
    rfl
  rw [isPathInsideDir, hbelow, relative_append]
  decide

end

/-! ## The check -/

/-- The strings of a pane that come back from the file of Codex as they were: none has a backslash
directly before an `n` or an `r`. -/
structure KeptPane (identity : PaneIdentity) : Prop where
  mcpCommand : Kept identity.coMcpCommand.toList
  mcpArgs : ∀ arg ∈ identity.coMcpArgs, Kept arg.toList
  cliEnv : ∀ entry ∈ identity.coCliEnv, Kept entry.2.toList
  cliCommand : Kept identity.coCliCommand.toList
  cliArgs : ∀ arg ∈ identity.coCliArgs, Kept arg.toList
  home : Kept identity.isolatedHomeDir.toList

/-- The pane has a home, and no executable of its hook has a quote in it. -/
structure PlainPane (identity : PaneIdentity) : Prop where
  home : identity.isolatedHomeDir ≠ ""
  cliCommand : '"' ∉ identity.coCliCommand.toList
  cliArgs : ∀ arg ∈ identity.coCliArgs, '"' ∉ arg.toList

theorem kept_stripTrailingSlashes {path : List Char} :
    Kept (stripTrailingSlashes path) ↔ Kept path := by
  have hsplit : path = stripTrailingSlashes path ++ (path.reverse.takeWhile (· = '/')).reverse := by
    rw [stripTrailingSlashes, ← List.reverse_append, List.takeWhile_append_dropWhile,
      List.reverse_reverse]
  have hslashes : ∀ c ∈ (path.reverse.takeWhile (· = '/')).reverse, c = '/' := by
    intro c hc
    simpa using List.mem_takeWhile_imp (List.mem_reverse.1 hc)
  generalize (path.reverse.takeWhile (· = '/')).reverse = slashes at hsplit hslashes
  conv_rhs => rw [hsplit]
  rw [Kept, Kept, List.isChain_append]
  refine ⟨fun h => ⟨h, kept_plain fun hmem => absurd (hslashes _ hmem) (by decide), ?_⟩,
    fun h => h.1⟩
  intro x hx y hy hslash
  rw [hslashes y (List.mem_of_mem_head? hy)]
  decide

theorem kept_rulesPath {identity : PaneIdentity} :
    Kept (buildCodexBlockListRulesPath identity) ↔ Kept identity.isolatedHomeDir.toList := by
  rw [← @kept_stripTrailingSlashes identity.isolatedHomeDir.toList, buildCodexBlockListRulesPath,
    isolatedPath, Kept, List.isChain_append]
  refine and_iff_left ⟨kept_plain (by decide), ?_⟩
  rintro x - y hy -
  obtain rfl := Option.some.inj hy
  decide

/-- The configuration of Codex is read as one that holds the block list exactly where the strings
of the pane are kept. -/
theorem readEnforcedConfig_codex {runtime : Runtime} {cwd : List Char} {identity : PaneIdentity}
    {blockList : List BlockRule} {config : PaneLaunchConfig}
    (hbuild : buildCodexLaunchConfig runtime identity blockList = .ok config)
    (hplain : PlainPane identity) :
    (KeptPane identity → readEnforcedConfig cwd config =
      .ok { blockedIds := readCodexHookRuleIds (some (buildCodexBlockListRulesJson blockList)) }) ∧
    (¬ KeptPane identity → readEnforcedConfig cwd config = .ok { blockedIds := [] }) := by
  obtain ⟨artifacts, hartifacts, h⟩ := bind_eq_ok.1 hbuild
  obtain ⟨prompt, -, h⟩ := bind_eq_ok.1 h
  obtain ⟨cliEnv, mcpEnv, hcliEnv, hmcpEnv, ⟨habs, henv⟩, ⟨habsCli, henvCli⟩, ⟨hone, hargs⟩,
    rfl⟩ := buildCodexConfigArtifacts_eq_ok hartifacts
  obtain rfl := pure_eq_ok.1 h
  have hkeys := fun entry hentry => (hcliEnv.2 entry hentry)
  have hhook : Kept (hookCommandOf cliEnv identity.coCliCommand identity.coCliArgs
      (buildCodexBlockListRulesPath identity)) ↔
      (∀ entry ∈ identity.coCliEnv, Kept entry.2.toList) ∧ (Kept identity.coCliCommand.toList ∧
        ∀ arg ∈ identity.coCliArgs, Kept arg.toList) ∧ Kept identity.isolatedHomeDir.toList := by
    rw [kept_hookCommandOf hkeys, kept_rulesPath]
    exact and_congr_left fun _ => forall_congr' fun entry => by rw [hcliEnv.1 entry]
  have htrusted : hookCommandUsesTrustedExecutable (hookCommandOf cliEnv identity.coCliCommand
      identity.coCliArgs (buildCodexBlockListRulesPath identity)) = true :=
    hookCommandUsesTrustedExecutable_hookCommandOf hkeys ⟨habsCli, henvCli, hplain.cliCommand⟩
      (fun arg harg => ⟨(hargs arg harg).1, (hargs arg harg).2, hplain.cliArgs arg harg⟩) hone _
  have hnames := infix_hookCommandOf cliEnv identity.coCliCommand identity.coCliArgs
    (buildCodexBlockListRulesPath identity)
  generalize hookCommandOf cliEnv identity.coCliCommand identity.coCliArgs
    (buildCodexBlockListRulesPath identity) = hookCommand at hhook htrusted hnames ⊢
  have hpath : buildCodexBlockListRulesPath identity ≠ [] := by
    simp [buildCodexBlockListRulesPath, isolatedPath]
  have hsandbox : tomlActiveScalar (codexConfigText identity identity.coMcpCommand
      identity.coMcpArgs mcpEnv hookCommand) [] "sandbox_mode".toList =
      some (.text "workspace-write".toList) :=
    tomlActiveScalar_codexConfig hmcpEnv (by decide) (by decide) (by decide) rfl rfl
  have happroval : tomlActiveScalar (codexConfigText identity identity.coMcpCommand
      identity.coMcpArgs mcpEnv hookCommand) [] "approval_policy".toList =
      some (.text "never".toList) :=
    tomlActiveScalar_codexConfig hmcpEnv (by decide) (by decide) (by decide) rfl rfl
  have hmcp : codexConfigTomlHasExpectedMcp (codexConfigText identity identity.coMcpCommand
      identity.coMcpArgs mcpEnv hookCommand) (some identity.coMcpCommand) identity.coMcpArgs =
      true ↔ _ := codexConfigTomlHasExpectedMcp_codexConfig hmcpEnv habs henv
  have hrules : codexConfigTomlReferencesRuleFile (codexConfigText identity identity.coMcpCommand
      identity.coMcpArgs mcpEnv hookCommand) (buildCodexBlockListRulesPath identity)
      (some (String.ofList hookCommand)) = true ↔ _ :=
    codexConfigTomlReferencesRuleFile_codexConfig hmcpEnv hpath hnames htrusted
  have hfile := @resolve_codexConfigToml cwd identity hplain.home
  have hinside := @isPathInsideDir_blockListRules cwd identity hplain.home
  have hgrant : codexConfigTomlHasMcpAutoApprove (codexConfigText identity identity.coMcpCommand
      identity.coMcpArgs mcpEnv hookCommand) = true :=
    codexConfigTomlHasMcpAutoApprove_codexConfig hmcpEnv
  have hkept : KeptPane identity ↔ (Kept identity.coMcpCommand.toList ∧
      ∀ arg ∈ identity.coMcpArgs, Kept arg.toList) ∧ Kept hookCommand := by
    rw [hhook]
    constructor
    · intro h
      exact ⟨⟨h.mcpCommand, h.mcpArgs⟩, h.cliEnv, ⟨h.cliCommand, h.cliArgs⟩, h.home⟩
    · rintro ⟨⟨hcommand, hmcpArgs⟩, hcliEnv, ⟨hcli, hcliArgs⟩, hhome⟩
      exact ⟨hcommand, hmcpArgs, hcliEnv, hcli, hcliArgs, hhome⟩
  simp only [readEnforcedConfig, readCodexEnforcedConfig, codexEnforces, hasPrelaunchFile,
    List.lookup_cons_self, Option.getD_some, String.toList_ofList, hsandbox, happroval, hfile,
    hinside, hgrant, List.any_cons, List.any_nil, decide_true, Bool.and_self, Bool.true_or,
    Bool.or_true, Bool.true_and, Bool.and_eq_true, hmcp, hrules, Bool.not_true]
  rw [hkept]
  exact ⟨fun h => by rw [if_pos h]; rfl, fun h => by rw [if_neg h]; rfl⟩

/-! ### Claude -/

/-- What the drift check relies on of the patterns that deny a rule. -/
def PlainPattern (pattern : String) : Prop :=
  ',' ∉ pattern.toList ∧ trim pattern.toList = pattern.toList ∧
    (pattern.toList.any fun c => !isStrWhiteSpace c) = true

instance (pattern : String) : Decidable (PlainPattern pattern) :=
  inferInstanceAs (Decidable (_ ∧ _ ∧ _))

theorem PlainPattern.ne_nil {pattern : String} (h : PlainPattern pattern) :
    pattern.toList ≠ [] := by
  obtain ⟨c, hc, -⟩ := List.any_eq_true.1 h.2.2
  exact List.ne_nil_of_mem hc

/-- The patterns of a rule, where it has some. -/
def patternsOf (id : String) : List String := (claudeDisallowedPatternsForRule id).getD []

def ruleIds : List String := BLOCK_LIST.map (·.id)

theorem mem_ruleIds_of_patterns {id : String} {patterns : List String}
    (h : claudeDisallowedPatternsForRule id = some patterns) : id ∈ ruleIds := by
  have hkeys : ∀ entry ∈ CLAUDE_RULE_PATTERNS, entry.1 ∈ ruleIds := by decide
  have hkey : (claudeDisallowedPatternsForRule id).isSome = true := by rw [h, Option.isSome_some]
  rw [claudeDisallowedPatternsForRule, List.lookup_isSome_iff] at hkey
  obtain ⟨entry, hentry, heq⟩ := hkey
  exact beq_iff_eq.1 heq ▸ hkeys entry hentry

/-- The patterns of the rules are plain, and no rule shares one with another rule. -/
theorem patternsOf_spec : ∀ id ∈ ruleIds,
    claudeDisallowedPatternsForRule id = some (patternsOf id) ∧ patternsOf id ≠ [] ∧
    ∀ pattern ∈ patternsOf id, PlainPattern pattern ∧ pattern ∉ WEB_SEARCH_TOOLS ∧
      ∀ other ∈ ruleIds, pattern ∈ patternsOf other → other = id := by
  decide

theorem plainPattern_web : ∀ pattern ∈ WEB_SEARCH_TOOLS, PlainPattern pattern := by
  decide

/-- The builder knows the patterns of every rule that it takes. -/
theorem claudeDisallowedPatterns_eq_ok {blockList : List BlockRule} {patterns : List String}
    (h : claudeDisallowedPatterns blockList = .ok patterns) :
    (∀ rule ∈ blockList, rule.id ∈ ruleIds) ∧
      patterns = blockList.flatMap fun rule => patternsOf rule.id := by
  obtain ⟨lists, hlists, h⟩ := bind_eq_ok.1 h
  obtain rfl := pure_eq_ok.1 h
  have hmap : lists = blockList.map fun rule => patternsOf rule.id := by
    refine eq_map_of_mapM (fun rule patterns hrule => ?_) hlists
    rw [patternsOf, orThrow_eq_ok.1 hrule, Option.getD_some]
  refine ⟨fun rule hrule => ?_, by rw [hmap, List.flatMap]⟩
  by_contra hnot
  have hfail : ∀ patterns, claudeDisallowedPatternsForRule rule.id ≠ some patterns :=
    fun patterns hsome => hnot (mem_ruleIds_of_patterns hsome)
  obtain ⟨patterns, hpatterns⟩ := exists_of_mapM hlists hrule
  exact hfail patterns (orThrow_eq_ok.1 hpatterns)

/-- A list of patterns is taken apart into the patterns that it was joined of. -/
theorem splitPatterns_intercalate {patterns : List String} (hne : patterns ≠ [])
    (h : ∀ pattern ∈ patterns, PlainPattern pattern) :
    splitPatterns (",".intercalate patterns).toList = patterns.map String.toList := by
  have hsplit : (",".intercalate patterns).toList.splitOn ',' = patterns.map String.toList := by
    rw [String.toList_intercalate]
    exact List.splitOn_intercalate ',' (fun part hpart => by
      obtain ⟨pattern, hpattern, rfl⟩ := List.mem_map.1 hpart
      exact (h pattern hpattern).1) (by simpa using hne)
  have hmap : (patterns.map String.toList).map trim = (patterns.map String.toList).map id := by
    refine List.map_congr_left fun part hpart => ?_
    obtain ⟨pattern, hpattern, rfl⟩ := List.mem_map.1 hpart
    exact (h pattern hpattern).2.1
  rw [splitPatterns, hsplit, hmap, List.map_id, List.filter_eq_self]
  intro part hpart
  obtain ⟨pattern, hpattern, rfl⟩ := List.mem_map.1 hpart
  exact decide_eq_true (h pattern hpattern).ne_nil

theorem flatten_map_ite {α β : Type} (f : α → β) (p : β → Bool) (xs : List α) :
    (xs.map fun x => if p (f x) then [f x] else []).flatten = (xs.map f).filter p := by
  induction xs with
  | nil => rfl
  | cons x xs ih => cases hx : p (f x) <;> simp [hx, ih]

/-- The rules whose patterns are all denied are the rules that the patterns were taken from. -/
theorem idsOfPatterns_eq {blockList : List BlockRule} {web : List String}
    (hids : ∀ rule ∈ blockList, rule.id ∈ ruleIds) (hweb : ∀ tool ∈ web, tool ∈ WEB_SEARCH_TOOLS) :
    idsOfPatterns (((blockList.flatMap fun rule => patternsOf rule.id) ++ web).map String.toList) =
      .ok (ruleIds.filter fun id => (blockList.map (·.id)).contains id) := by
  set actual := ((blockList.flatMap fun rule => patternsOf rule.id) ++ web).map String.toList
    with hactual
  have hmem : ∀ pattern : String, actual.contains pattern.toList = true ↔
      (∃ rule ∈ blockList, pattern ∈ patternsOf rule.id) ∨ pattern ∈ web := by
    intro pattern
    simp [hactual, List.mem_map, String.toList_inj]
  have hdenied : ∀ id ∈ ruleIds, ((patternsOf id).all fun pattern =>
      actual.contains pattern.toList) = (blockList.map (·.id)).contains id := by
    intro id hid
    obtain ⟨-, hne, hspec⟩ := patternsOf_spec id hid
    rw [Bool.eq_iff_iff, List.all_eq_true, List.contains_iff_mem, List.mem_map]
    constructor
    · intro hall
      obtain ⟨pattern, rest, hpatterns⟩ := List.exists_cons_of_ne_nil hne
      have hfirst : pattern ∈ patternsOf id := by simp [hpatterns]
      obtain ⟨-, hnotWeb, hother⟩ := hspec pattern hfirst
      rcases (hmem pattern).1 (hall pattern hfirst) with ⟨rule, hrule, hpattern⟩ | hpattern
      · exact ⟨rule, hrule, hother rule.id (hids rule hrule) hpattern⟩
      · exact absurd (hweb pattern hpattern) hnotWeb
    · rintro ⟨rule, hrule, rfl⟩ pattern hpattern
      exact (hmem pattern).2 (.inl ⟨rule, hrule, hpattern⟩)
  have hrules : ∀ rule ∈ BLOCK_LIST, (do
      let expected ← orThrow (claudeDisallowedPatternsForRule rule.id)
        (s!"readEnforcedConfig(claude): no --disallowedTools pattern for block rule '{rule.id}'.")
      return if expected.all fun pattern => actual.contains pattern.toList then [rule.id] else [] :
      Except String (List String)) =
        .ok (if (blockList.map (·.id)).contains rule.id then [rule.id] else []) := by
    intro rule hrule
    have hid : rule.id ∈ ruleIds := List.mem_map_of_mem hrule
    rw [(patternsOf_spec rule.id hid).1]
    change Except.ok _ = _
    rw [hdenied rule.id hid]
  rw [idsOfPatterns, mapM_eq_map hrules]
  change Except.ok _ = _
  rw [ruleIds, flatten_map_ite]

theorem dropWhile_disallowed {before rest : List String} (h : DISALLOWED_TOOLS ∉ before) :
    (before ++ rest).dropWhile (· ≠ DISALLOWED_TOOLS) =
      rest.dropWhile (· ≠ DISALLOWED_TOOLS) := by
  rw [List.dropWhile_append_of_pos]
  exact fun arg harg => decide_eq_true fun heq => h (heq ▸ harg)

/-- Texts that do not begin with a dash are no option when they are joined. -/
theorem intercalate_ne_disallowed {texts : List String}
    (h : ∀ text ∈ texts, ∃ c rest, text.toList = c :: rest ∧ c ≠ '-') :
    ",".intercalate texts ≠ DISALLOWED_TOOLS := by
  intro heq
  have hlist := congrArg String.toList heq
  rw [String.toList_intercalate] at hlist
  cases texts with
  | nil => revert hlist; decide
  | cons text texts =>
    obtain ⟨c, rest, htext, hc⟩ := h text List.mem_cons_self
    have hhead :
        ∃ more, ",".toList.intercalate ((text :: texts).map String.toList) = c :: more := by
      cases texts with
      | nil => exact ⟨rest, by simp [htext]⟩
      | cons next texts => exact ⟨_, by rw [List.map_cons, List.map_cons,
          List.intercalate_cons_cons, htext]; rfl⟩
    obtain ⟨more, hmore⟩ := hhead
    rw [hmore] at hlist
    exact hc (List.cons.inj hlist).1

theorem roleBasePrompt_ne_disallowed (role : Role) (options : RoleBasePromptOptions) :
    roleBasePrompt role options ≠ DISALLOWED_TOOLS := by
  have hhead := head_roleBasePrompt role options
  intro heq
  rw [heq] at hhead
  revert hhead
  decide

theorem rolePromptFor_ne_disallowed {identity : PaneIdentity} {prompt : String}
    (h : rolePromptFor identity = .ok (some prompt)) : prompt ≠ DISALLOWED_TOOLS := by
  rw [rolePromptFor] at h
  split at h
  · cases h
  · cases h
  · cases h
    exact roleBasePrompt_ne_disallowed _ _
  · split at h
    · cases h
    · cases h
      exact roleBasePrompt_ne_disallowed _ _

/-- The tools that a pane may use are not read as an option. -/
theorem allowedTools_ne_disallowed {web : List String}
    (hweb : ∀ tool ∈ web, tool ∈ WEB_SEARCH_TOOLS) :
    ",".intercalate (CLAUDE_ALLOWED_CO_MCP_TOOLS ++ web) ≠ DISALLOWED_TOOLS := by
  refine intercalate_ne_disallowed fun text htext => ?_
  rcases List.mem_append.1 htext with hco | htool
  · obtain ⟨tool, -, rfl⟩ := List.mem_map.1 hco
    exact ⟨'m', ("cp__co__" ++ tool).toList, by simp, by decide⟩
  · have hplain : ∀ tool ∈ WEB_SEARCH_TOOLS, ∃ c rest, tool.toList = c :: rest ∧ c ≠ '-' := by
      intro tool htool
      simp only [WEB_SEARCH_TOOLS, List.mem_cons, List.not_mem_nil, or_false] at htool
      rcases htool with rfl | rfl
      · exact ⟨'W', "ebSearch".toList, rfl, by decide⟩
      · exact ⟨'W', "ebFetch".toList, rfl, by decide⟩
    exact hplain text (hweb text htool)

/-- The option that the check looks for is the one that denies the patterns. -/
theorem head_claudeArgs {basePrompt : Option String} {webAllowed : Bool} {patterns : List String}
    {mcpConfig : Option String} (hprompt : ∀ prompt ∈ basePrompt, prompt ≠ DISALLOWED_TOOLS) :
    (((claudeArgs basePrompt webAllowed patterns mcpConfig).dropWhile
      (· ≠ DISALLOWED_TOOLS)).drop 1).head? =
      if patterns ++ (if webAllowed then [] else WEB_SEARCH_TOOLS) = [] then none
      else some (",".intercalate (patterns ++ (if webAllowed then [] else WEB_SEARCH_TOOLS))) := by
  have hweb : ∀ tool ∈ (if webAllowed then WEB_SEARCH_TOOLS else []), tool ∈ WEB_SEARCH_TOOLS := by
    cases webAllowed <;> simp
  have hallowed := allowedTools_ne_disallowed hweb
  unfold claudeArgs
  dsimp only
  generalize CLAUDE_ALLOWED_CO_MCP_TOOLS ++ (if webAllowed then WEB_SEARCH_TOOLS else []) =
    allowedTools at hallowed ⊢
  generalize patterns ++ (if webAllowed then [] else WEB_SEARCH_TOOLS) = denied
  have hbefore : DISALLOWED_TOOLS ∉
      ["--strict-mcp-config", "--permission-mode", "bypassPermissions"] ++
      claudePromptArgs basePrompt ++
      (if allowedTools.length > 0 then ["--allowedTools", ",".intercalate allowedTools]
        else []) := by
    have hoptions : DISALLOWED_TOOLS ∉ ["--strict-mcp-config", "--permission-mode",
        "bypassPermissions", "--append-system-prompt", "--allowedTools"] := by decide
    simp only [List.mem_cons, List.not_mem_nil, or_false, not_or] at hoptions
    obtain ⟨hstrict, hmode, hbypass, happend, hallow⟩ := hoptions
    simp only [List.mem_append, not_or]
    refine ⟨⟨by simp [hstrict, hmode, hbypass], ?_⟩, ?_⟩
    · cases basePrompt with
      | none => simp [claudePromptArgs]
      | some prompt => simpa [claudePromptArgs, happend] using (hprompt prompt rfl).symm
    · split
      · simpa [hallow] using hallowed.symm
      · simp
  rw [List.append_assoc, dropWhile_disallowed hbefore]
  by_cases hdenied : denied = []
  · subst hdenied
    cases mcpConfig with
    | none => rfl
    | some path =>
      have hmcp : "--mcp-config" ≠ DISALLOWED_TOOLS := by decide
      by_cases hpath : path = DISALLOWED_TOOLS <;> simp [hmcp, hpath]
  · have hoption : "--disallowedTools" = DISALLOWED_TOOLS := rfl
    rw [if_neg hdenied, if_pos (List.length_pos_iff.2 hdenied), hoption, List.cons_append,
      List.dropWhile_cons_of_neg (by simp)]
    rfl

/-- The configuration of Claude denies the rules that it was built for. -/
theorem readEnforcedConfig_claude {runtime : Runtime} {cwd : List Char} {identity : PaneIdentity}
    {blockList : List BlockRule} {config : PaneLaunchConfig}
    (hbuild : buildClaudeLaunchConfig runtime identity blockList = .ok config) :
    (∀ rule ∈ blockList, rule.id ∈ ruleIds) ∧ readEnforcedConfig cwd config =
      .ok { blockedIds := ruleIds.filter fun id => (blockList.map (·.id)).contains id } := by
  obtain ⟨basePrompt, hprompt, h⟩ := bind_eq_ok.1 hbuild
  obtain ⟨patterns, hpatterns, h⟩ := bind_eq_ok.1 h
  obtain ⟨hids, rfl⟩ := claudeDisallowedPatterns_eq_ok hpatterns
  set web := if paneMayResearchWeb identity then [] else WEB_SEARCH_TOOLS with hweb
  have hconfig : config.provider = .claude ∧
      config.env.lookup "CLAUDE_CONFIG_DIR" = some identity.isolatedHomeDir ∧
      config.args = claudeArgs basePrompt (paneMayResearchWeb identity)
        (blockList.flatMap fun rule => patternsOf rule.id) identity.coMcpConfig := by
    split at h
    · obtain rfl := pure_eq_ok.1 h
      exact ⟨rfl, List.lookup_cons_self, rfl⟩
    · obtain ⟨json, -, h⟩ := bind_eq_ok.1 h
      obtain rfl := pure_eq_ok.1 h
      exact ⟨rfl, List.lookup_cons_self, rfl⟩
  obtain ⟨hprovider, hhome, hargs⟩ := hconfig
  have hread := @head_claudeArgs basePrompt (paneMayResearchWeb identity)
    (blockList.flatMap fun rule => patternsOf rule.id) identity.coMcpConfig fun prompt hsome =>
      rolePromptFor_ne_disallowed (hsome ▸ hprompt)
  refine ⟨hids, ?_⟩
  have htools : ∀ tool ∈ web, tool ∈ WEB_SEARCH_TOOLS := by
    rw [hweb]
    cases paneMayResearchWeb identity <;> simp
  have hplain : ∀ pattern ∈ (blockList.flatMap fun rule => patternsOf rule.id) ++ web,
      PlainPattern pattern := by
    intro pattern hpattern
    rcases List.mem_append.1 hpattern with hpattern | hpattern
    · obtain ⟨rule, hrule, hpattern⟩ := List.mem_flatMap.1 hpattern
      exact ((patternsOf_spec rule.id (hids rule hrule)).2.2 pattern hpattern).1
    · exact plainPattern_web pattern (htools pattern hpattern)
  have hids' : readClaudeBlockedIds config =
      .ok (ruleIds.filter fun id => (blockList.map (·.id)).contains id) := by
    rw [readClaudeBlockedIds, hhome, if_neg (by simp), hargs, hread, ← hweb]
    by_cases hnone : (blockList.flatMap fun rule => patternsOf rule.id) ++ web = []
    · rw [if_pos hnone]
      have hrules : ∀ rule ∈ blockList, False := by
        intro rule hrule
        obtain ⟨pattern, rest, hpatterns⟩ :=
          List.exists_cons_of_ne_nil (patternsOf_spec rule.id (hids rule hrule)).2.1
        have hmem : pattern ∈ blockList.flatMap fun rule => patternsOf rule.id :=
          List.mem_flatMap.2 ⟨rule, hrule, by simp [hpatterns]⟩
        simp [(List.append_eq_nil_iff.1 hnone).1] at hmem
      obtain rfl := List.eq_nil_iff_forall_not_mem.2 hrules
      simp
    · rw [if_neg hnone]
      obtain ⟨pattern, rest, hpatterns⟩ := List.exists_cons_of_ne_nil hnone
      have hraw : trim (",".intercalate ((blockList.flatMap fun rule => patternsOf rule.id) ++
          web)).toList ≠ [] := by
        obtain ⟨c, hc, hspace⟩ :=
          List.any_eq_true.1 (hplain pattern (by simp [hpatterns])).2.2
        refine trim_ne_nil ?_ (by simpa using hspace)
        rw [hpatterns, String.toList_intercalate]
        cases rest with
        | nil => simpa using hc
        | cons next rest =>
          rw [List.map_cons, List.map_cons, List.intercalate_cons_cons]
          simp [hc]
      simp only [if_neg hraw, splitPatterns_intercalate hnone hplain]
      exact idsOfPatterns_eq hids htools
  simp only [readEnforcedConfig, hprovider, hids']
  rfl

/-! ### Both providers -/

/-- No drift is reported where the same rules are declared and enforced. -/
theorem checkBlockListDrift_eq_nil {registry : List BlockRule} {enforced : EnforcedConfig} :
    checkBlockListDrift registry enforced = [] ↔
      (∀ id, id ∈ registry.map (·.id) ↔ id ∈ enforced.blockedIds) ∧
        enforced.codexMcpPreGrantMissing = false := by
  have hgrant : (if enforced.codexMcpPreGrantMissing then [codexMcpPreGrantMissing] else []) = [] ↔
      enforced.codexMcpPreGrantMissing = false := by
    cases enforced.codexMcpPreGrantMissing <;> simp
  rw [checkBlockListDrift, List.append_eq_nil_iff, List.append_eq_nil_iff, hgrant,
    List.map_eq_nil_iff, List.map_eq_nil_iff, List.filter_eq_nil_iff, List.filter_eq_nil_iff]
  refine and_congr_left fun _ => ?_
  constructor
  · rintro ⟨hdeclared, henforced⟩ id
    constructor
    · intro hid
      obtain ⟨rule, hrule, rfl⟩ := List.mem_map.1 hid
      simpa using hdeclared rule hrule
    · intro hid
      simpa using henforced id hid
  · intro h
    refine ⟨fun rule hrule => ?_, fun id hid => ?_⟩
    · simpa using (h rule.id).1 (List.mem_map_of_mem hrule)
    · simpa using (h id).2 hid

/-- What the builder writes for a block list is read back by the drift check as that list, unless
a string of a Codex pane has a backslash directly before an `n` or an `r`; then no rule is found.
So nothing is reported exactly where the registry has the rules that are found. -/
theorem drift_of_buildPaneLaunchConfig (runtime : Runtime) (cwd : List Char) (provider : Provider)
    (identity : PaneIdentity) (blockList : List BlockRule) (config : PaneLaunchConfig)
    (hbuild : buildPaneLaunchConfig runtime provider identity blockList = .ok config)
    (hids : ∀ rule ∈ blockList, rule.id ≠ "") (hplain : provider = .codex → PlainPane identity) :
    ∃ enforced, readEnforcedConfig cwd config = .ok enforced ∧
      enforced.codexMcpPreGrantMissing = false ∧
      (∀ id, id ∈ enforced.blockedIds ↔
        id ∈ blockList.map (·.id) ∧ (provider = .codex → KeptPane identity)) ∧
      ∀ registry : List BlockRule, checkBlockListDrift registry enforced = [] ↔
        ∀ id, id ∈ registry.map (·.id) ↔
          id ∈ blockList.map (·.id) ∧ (provider = .codex → KeptPane identity) := by
  have hfinish : ∀ (enforced : EnforcedConfig) (P : Prop),
      enforced.codexMcpPreGrantMissing = false →
      (∀ id, id ∈ enforced.blockedIds ↔ id ∈ blockList.map (·.id) ∧ P) →
      ∀ registry : List BlockRule, checkBlockListDrift registry enforced = [] ↔
        ∀ id, id ∈ registry.map (·.id) ↔ id ∈ blockList.map (·.id) ∧ P := by
    intro enforced P hgrant hblocked registry
    rw [checkBlockListDrift_eq_nil, and_iff_left hgrant]
    exact forall_congr' fun id => by rw [hblocked id]
  cases provider with
  | claude =>
    obtain ⟨hknown, hconfig⟩ := @readEnforcedConfig_claude runtime cwd identity blockList config
      hbuild
    have hblocked : ∀ id, id ∈ (ruleIds.filter fun id => (blockList.map (·.id)).contains id) ↔
        id ∈ blockList.map (·.id) ∧ (Provider.claude = .codex → KeptPane identity) := by
      intro id
      rw [and_iff_left (fun heq => nomatch heq), List.mem_filter, List.contains_iff_mem,
        and_iff_right_iff_imp]
      intro hid
      obtain ⟨rule, hrule, rfl⟩ := List.mem_map.1 hid
      exact hknown rule hrule
    exact ⟨_, hconfig, rfl, hblocked, hfinish _ _ rfl hblocked⟩
  | codex =>
    obtain ⟨hread, hlost⟩ := @readEnforcedConfig_codex runtime cwd identity blockList config hbuild
      (hplain rfl)
    by_cases hkept : KeptPane identity
    · have hblocked : ∀ id, id ∈ readCodexHookRuleIds
          (some (buildCodexBlockListRulesJson blockList)) ↔
          id ∈ blockList.map (·.id) ∧ (Provider.codex = .codex → KeptPane identity) := by
        intro id
        rw [mem_readCodexHookRuleIds hids, and_iff_left fun _ => hkept]
      generalize readCodexHookRuleIds (some (buildCodexBlockListRulesJson blockList)) = blockedIds
        at hread hblocked
      exact ⟨_, hread hkept, rfl, hblocked, hfinish _ _ rfl hblocked⟩
    · have hblocked : ∀ id, id ∈ ([] : List String) ↔
          id ∈ blockList.map (·.id) ∧ (Provider.codex = .codex → KeptPane identity) := by
        intro id
        constructor
        · intro hid
          exact absurd hid List.not_mem_nil
        · rintro ⟨-, hall⟩
          exact absurd (hall rfl) hkept
      exact ⟨_, hlost hkept, rfl, hblocked, hfinish _ _ rfl hblocked⟩

/-- A pane whose strings hold quotes, brackets and signs of comments. -/
def quotedPane : PaneIdentity where
  cwd := "/work/a ] # \" b"
  isolatedHomeDir := "/homes/pane \"1\"//"
  coMcpCommand := "/opt/co \\ mcp"
  coMcpArgs := ["--root", "[\"#\"]"]
  coMcpEnv := [("ROOT", "a # b")]
  coCliCommand := "/usr/bin/node"
  coCliArgs := ["/opt/$co.js"]
  coCliEnv := [("CO_TOKEN", "\\ \" $x \\")]
  role := some .reviewer
  tmpDir := some "/tmp/]"

theorem drift_of_buildPaneLaunchConfig_quotedPane :
    ∃ config enforced, buildPaneLaunchConfig ⟨fun _ => none, compare, fun _ => ""⟩ .codex
        quotedPane BLOCK_LIST = .ok config ∧
      readEnforcedConfig "/".toList config = .ok enforced ∧
      checkBlockListDrift BLOCK_LIST enforced = [] := by
  have hbuilt : (buildPaneLaunchConfig ⟨fun _ => none, compare, fun _ => ""⟩ .codex quotedPane
      BLOCK_LIST).toOption.isSome = true := by decide +kernel
  obtain ⟨config, hbuild⟩ := exists_eq_ok hbuilt
  have hplain : PlainPane quotedPane := {
    home := by decide
    cliCommand := by decide
    cliArgs := by decide }
  have hkept : KeptPane quotedPane := {
    mcpCommand := by decide
    mcpArgs := by decide
    cliEnv := by decide
    cliCommand := by decide
    cliArgs := by decide
    home := by decide }
  obtain ⟨enforced, hread, -, -, hdrift⟩ := drift_of_buildPaneLaunchConfig
    ⟨fun _ => none, compare, fun _ => ""⟩ "/".toList .codex quotedPane BLOCK_LIST config hbuild
    (by decide) fun _ => hplain
  exact ⟨config, enforced, hbuild, hread, (hdrift BLOCK_LIST).2 fun id =>
    (and_iff_left fun _ => hkept).symm⟩

end Orchestration.Permissions
