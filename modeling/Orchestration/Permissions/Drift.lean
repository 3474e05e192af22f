import Orchestration.Permissions.PaneConfig

/-!
# Declared and enforced blocks

What a pane enforces is read from its launch configuration alone: a rule counts as enforced when
the arguments or the files of the pane say so, and the registry is compared with that.
-/

namespace Orchestration.Permissions

open Js
open Dispatch (Provider)
open Fallible

structure EnforcedConfig where
  blockedIds : List String
  codexMcpPreGrantMissing : Bool := false
deriving DecidableEq, Repr

inductive DriftKind where
  | declaredNotEnforced
  | enforcedNotDeclared
  | codexMcpPreGrantMissing
deriving DecidableEq, Repr

structure DriftViolation where
  id : String
  kind : DriftKind
  reason : String
deriving DecidableEq, Repr

def CODEX_MCP_PRE_GRANT_VIOLATION_ID : String := "@mcp-pre-grant"

def declaredNotEnforced (id : String) : DriftViolation where
  id
  kind := .declaredNotEnforced
  reason := s!"Block rule '{id}' is declared in the registry but absent from the enforced config."

def enforcedNotDeclared (id : String) : DriftViolation where
  id
  kind := .enforcedNotDeclared
  reason := s!"Enforced id '{id}' has no matching rule in the declared registry."

def codexMcpPreGrantMissing : DriftViolation where
  id := CODEX_MCP_PRE_GRANT_VIOLATION_ID
  kind := .codexMcpPreGrantMissing
  reason := "Codex block list is enforced, but the [mcp_servers.co] MCP-tool pre-grant is " ++
    "absent — a hosted codex pane would deadlock on the interactive \"allow this MCP tool?\" " ++
    "prompt (#78). Restore an auto-approve assignment under [mcp_servers.co]; this is NOT " ++
    "block-list drift."

def checkBlockListDrift (registry : List BlockRule) (enforced : EnforcedConfig) :
    List DriftViolation :=
  let declaredIds := registry.map (·.id)
  ((registry.filter fun rule => ¬ enforced.blockedIds.contains rule.id).map
      fun rule => declaredNotEnforced rule.id) ++
    ((enforced.blockedIds.filter fun id => ¬ declaredIds.contains id).map enforcedNotDeclared) ++
    (if enforced.codexMcpPreGrantMissing then [codexMcpPreGrantMissing] else [])

/-! ## Claude -/

def DISALLOWED_TOOLS : String := "--disallowedTools"

/-- The patterns that a list of them names. -/
def splitPatterns (raw : List Char) : List (List Char) :=
  ((raw.splitOn ',').map trim).filter (· ≠ [])

/-- The ids of the rules whose patterns are all denied. -/
def idsOfPatterns (actual : List (List Char)) : Except String (List String) := do
  let ids ← BLOCK_LIST.mapM fun rule => do
    let expected ← orThrow (claudeDisallowedPatternsForRule rule.id)
      (s!"readEnforcedConfig(claude): no --disallowedTools pattern for block rule '{rule.id}'.")
    return if expected.all fun pattern => actual.contains pattern.toList then [rule.id] else []
  return ids.flatten

def readClaudeBlockedIds (config : PaneLaunchConfig) : Except String (List String) :=
  if config.env.lookup "CLAUDE_CONFIG_DIR" = none then return []
  else
    match ((config.args.dropWhile (· ≠ DISALLOWED_TOOLS)).drop 1).head? with
    | none => return []
    | some raw =>
      if trim raw.toList = [] then return [] else idsOfPatterns (splitPatterns raw.toList)

/-! ## The hook of Codex -/

/-- What follows a quoted text of a shell, from behind its opening quote. -/
def quotedEnd? : List Char → Option (List Char)
  | [] => none
  | '"' :: rest => some rest
  | ['\\'] => none
  | '\\' :: c :: rest => if isLineTerminator c then none else quotedEnd? rest
  | _ :: rest => quotedEnd? rest

theorem length_of_quotedEnd? {text : List Char} : ∀ {after : List Char},
    quotedEnd? text = some after → after.length < text.length := by
  induction text using quotedEnd?.induct with
  | case1 => simp [quotedEnd?]
  | case2 rest =>
    intro after h
    rw [quotedEnd?] at h
    cases h
    exact Nat.lt_succ_self _
  | case3 => simp [quotedEnd?]
  | case4 c rest hc =>
    intro after h
    rw [quotedEnd?, if_pos hc] at h
    cases h
  | case5 c rest hc ih =>
    intro after h
    rw [quotedEnd?, if_neg hc] at h
    exact (ih h).trans (Nat.lt_succ_of_lt (Nat.lt_succ_self _))
  | case6 c rest hquote hlone hpair ih =>
    intro after h
    rw [quotedEnd?] at h
    · exact (ih h).trans (Nat.lt_succ_self _)
    all_goals assumption

/-- What follows an assignment `NAME="value"` and its white space, where the text starts with
one. -/
def afterShellAssignment? (text : List Char) : Option (List Char) :=
  let name := text.takeWhile isEnvVarChar
  match text.dropWhile isEnvVarChar with
  | '=' :: '"' :: value =>
    if ¬ isEnvVarName name then none
    else
      (quotedEnd? value).bind fun after =>
        match after with
        | c :: _ => if isStrWhiteSpace c then some (skipWhitespace after) else none
        | [] => none
  | _ => none

theorem length_of_afterShellAssignment? {text after : List Char}
    (h : afterShellAssignment? text = some after) : after.length < text.length := by
  have hdrop := (List.dropWhile_sublist isEnvVarChar (l := text)).length_le
  rw [afterShellAssignment?] at h
  split at h
  · next value hvalue =>
    rw [hvalue] at hdrop
    split_ifs at h
    obtain ⟨rest, hrest, h⟩ := Option.bind_eq_some_iff.1 h
    have hshort := length_of_quotedEnd? hrest
    split at h
    · next c more =>
      split_ifs at h
      have hskip := length_skipWhitespace (c :: more)
      cases h
      simp only [List.length_cons] at *
      omega
    · cases h
  · cases h

/-- The command without the environment that is set before it. -/
def stripHookEnvPrefix (command : List Char) : List Char :=
  match h : afterShellAssignment? command with
  | some rest => stripHookEnvPrefix rest
  | none => command
termination_by command.length
decreasing_by exact length_of_afterShellAssignment? h

/-- A word between quotes, and what follows it. -/
def quotedWord? (text : List Char) : Option (List Char × List Char) :=
  match text with
  | '"' :: rest =>
    match rest.dropWhile (· ≠ '"') with
    | _ :: after =>
      let word := rest.takeWhile (· ≠ '"')
      if word = [] then none else some (word, after)
    | [] => none
  | _ => none

def isTrustedAbsoluteCommand (command : List Char) : Bool :=
  isAbsolute command && !"/env".toList.isSuffixOf command

def HOOK_SUBCOMMAND : List Char := " hook codex-block-list --rules ".toList

def hookCommandUsesTrustedExecutable (command : List Char) : Bool :=
  match quotedWord? (stripHookEnvPrefix command) with
  | none => false
  | some (first, after) =>
    (HOOK_SUBCOMMAND.isPrefixOf after && isTrustedAbsoluteCommand first) ||
      match after with
      | ' ' :: more =>
        match quotedWord? more with
        | some (second, after) => HOOK_SUBCOMMAND.isPrefixOf after &&
            isTrustedAbsoluteCommand first && isTrustedAbsoluteCommand second
        | none => false
      | _ => false

/-! ## The files of Codex -/

def codexConfigTomlHasMcpAutoApprove (toml : List Char) : Bool :=
  tomlActiveScalar toml "mcp_servers.co".toList "default_tools_approval_mode".toList =
    some (.text "approve".toList)

def codexConfigTomlHasExpectedMcp (toml : List Char) (expectedCommand : Option String)
    (expectedArgs : List String) : Bool :=
  match expectedCommand, tomlActiveScalar toml "mcp_servers.co".toList "command".toList with
  | some expectedCommand, some (.text command) =>
    isTrustedAbsoluteCommand command && command = expectedCommand.toList &&
      tomlActiveStringArray toml "mcp_servers.co".toList "args".toList =
        some (expectedArgs.map String.toList)
  | _, _ => false

def codexConfigTomlHasExpectedHookCommand (toml rulesPath : List Char)
    (expectedHookCommand : Option String) : Bool :=
  match expectedHookCommand with
  | none => false
  | some expectedHookCommand =>
    let command := expectedHookCommand.toList
    tomlActiveScalar toml "hooks.PreToolUse.hooks".toList "command".toList =
        some (.text command) &&
      decide ("--rules ".toList ++ shellDoubleQuote rulesPath <:+: command) &&
      hookCommandUsesTrustedExecutable command

def codexConfigTomlReferencesRuleFile (toml rulesPath : List Char)
    (expectedHookCommand : Option String) : Bool :=
  rulesPath ≠ [] &&
    tomlActiveScalar toml "features".toList "hooks".toList = some (.bool true) &&
    tomlActiveScalar toml "hooks.PreToolUse".toList "matcher".toList =
      some (.text "Bash".toList) &&
    tomlActiveScalar toml "hooks.PreToolUse.hooks".toList "type".toList =
      some (.text "command".toList) &&
    codexConfigTomlHasExpectedHookCommand toml rulesPath expectedHookCommand

/-- Is there a file of these contents under the path? -/
def hasPrelaunchFile (cwd : List Char) (config : PaneLaunchConfig) (path contents : String) :
    Bool :=
  config.prelaunchFiles.any fun file =>
    resolve cwd [file.path.toList] = resolve cwd [path.toList] && file.contents = contents

def isPathInsideDir (cwd dir child : List Char) : Bool :=
  let rel := relative (resolveSegments cwd [dir]) (resolveSegments cwd [child])
  rel ≠ [] && !"..".toList.isPrefixOf rel && !isAbsolute rel

/-- The object that a text holds; an array is one too, but has no named field. -/
def parseJsonObject (raw : Option String) : Option Json :=
  raw.bind fun raw =>
    if trim raw.toList = [] then none
    else
      match parse raw with
      | some (.obj fields) => some (.obj fields)
      | some (.arr items) => some (.arr items)
      | _ => none

def ruleIdOf (item : Json) : Option String :=
  match item.field? "id" with
  | some (.str id) => if id = "" then none else some id
  | _ => none

/-- The ids of the rules, each where it stands first. -/
def distinctIds (seen : List String) : List Json → List String
  | [] => []
  | item :: rules =>
    match ruleIdOf item with
    | some id =>
      if seen.contains id then distinctIds seen rules else id :: distinctIds (id :: seen) rules
    | none => distinctIds seen rules

def readCodexHookRuleIds (raw : Option String) : List String :=
  match parseJsonObject raw with
  | none => []
  | some artifact =>
    match artifact.field? "version", artifact.field? "tool", artifact.field? "matcher",
      artifact.field? "rules" with
    | some (.num version), some (.str tool), some (.str matcher), some (.arr rules) =>
      if version = 1 ∧ tool = "shell" ∧ matcher = "@co/core/permissions/matchBlock" then
        distinctIds [] rules
      else []
    | _, _, _, _ => []

/-- Does the configuration of Codex hold the block list? -/
def codexEnforces (cwd : List Char) (config : PaneLaunchConfig) (codexHome : String) : Bool :=
  let toml := config.codexConfigToml.getD ""
  tomlActiveScalar toml.toList [] "sandbox_mode".toList =
      some (.text "workspace-write".toList) &&
    tomlActiveScalar toml.toList [] "approval_policy".toList = some (.text "never".toList) &&
    codexConfigTomlHasExpectedMcp toml.toList config.codexMcpCommand
      (config.codexMcpArgs.getD []) &&
    match config.codexConfigTomlPath, config.codexBlockListRulesPath with
    | some configPath, some rulesPath =>
      resolve cwd [configPath.toList] = resolve cwd [codexHome.toList, "config.toml".toList] &&
        isPathInsideDir cwd codexHome.toList rulesPath.toList &&
        hasPrelaunchFile cwd config configPath toml &&
        hasPrelaunchFile cwd config rulesPath (config.codexBlockListRulesJson.getD "") &&
        codexConfigTomlReferencesRuleFile toml.toList rulesPath.toList config.codexHookCommand
    | _, _ => false

def readCodexEnforcedConfig (cwd : List Char) (config : PaneLaunchConfig) : EnforcedConfig :=
  match config.env.lookup "CODEX_HOME" with
  | none => { blockedIds := [] }
  | some codexHome =>
    if codexEnforces cwd config codexHome then
      { blockedIds := readCodexHookRuleIds config.codexBlockListRulesJson
        codexMcpPreGrantMissing :=
          !codexConfigTomlHasMcpAutoApprove (config.codexConfigToml.getD "").toList }
    else { blockedIds := [] }

def readEnforcedConfig (cwd : List Char) (config : PaneLaunchConfig) :
    Except String EnforcedConfig :=
  match config.provider with
  | .claude => do return { blockedIds := ← readClaudeBlockedIds config }
  | .codex => return readCodexEnforcedConfig cwd config

end Orchestration.Permissions
