import Orchestration.Dispatch.Events
import Orchestration.Js.Json
import Orchestration.Js.Path
import Orchestration.Js.Runtime
import Orchestration.Library.Fallible
import Orchestration.Permissions.TomlText
import Orchestration.Roles.Profile

/-!
# The launch configuration of a pane

A pane is launched from an isolated home: its arguments and files name the rules of the block list
and nothing of the user's own configuration.
-/

namespace Orchestration.Permissions

open Js Roles
open Dispatch (Provider)
open Fallible

structure BlockRule where
  id : String
  category : String
  description : String
deriving DecidableEq, Repr

/-- The block list, without its predicates. -/
def BLOCK_LIST : List BlockRule := [
  { id := "git-force-push", category := "destroys-repo-or-system"
    description := "\x60git push\x60 with --force / -f / --force-with-lease rewrites shared " ++
      "history." },
  { id := "rm-rf-root-or-home", category := "destroys-repo-or-system"
    description := "\x60rm\x60 recursive+force targeting / or ~ / $HOME destroys the filesystem." },
  { id := "sudo", category := "destroys-repo-or-system"
    description := "Commands invoking \x60sudo\x60 escalate privilege in ways agents must not " ++
      "do." },
  { id := "daemon-direct", category := "destroys-repo-or-system"
    description := "\x60co run\x60 invokes the foreground router daemon directly — use the MCP " ++
      "surface instead." },
  { id := "raw-git-merge", category := "bypasses-gate"
    description := "Raw \x60git merge\x60 bypasses the review gate — use \x60co_merge\x60 " ++
      "instead." },
  { id := "raw-git-push", category := "bypasses-gate"
    description := "Raw \x60git push\x60 bypasses the review gate — use \x60co_push\x60 instead." },
  { id := "raw-gh-pr-merge", category := "bypasses-gate"
    description := "\x60gh pr create\x60 bypasses the review gate; use \x60co_pr_merge\x60 to " ++
      "open PRs. \x60gh pr merge\x60 is outside the sanctioned v1 agent surface." },
  { id := "co-in-shell", category := "breaks-single-surface"
    description := "Agents must use the MCP surface (\x60co_*\x60 tools), not the \x60co\x60 " ++
      "CLI in the shell." }]

/-- What the builder needs to know of a pane. -/
structure PaneIdentity where
  cwd : String
  isolatedHomeDir : String
  coMcpConfig : Option String := none
  coMcpCommand : String
  coMcpArgs : List String := []
  coMcpEnv : List (String × String) := []
  coCliCommand : String
  coCliArgs : List String := []
  coCliEnv : List (String × String) := []
  role : Option Role := none
  subRole : Option String := none
  tmpDir : Option String := none
deriving DecidableEq, Repr

structure PrelaunchFile where
  path : String
  contents : String
deriving DecidableEq, Repr

structure PaneLaunchConfig where
  provider : Provider
  args : List String
  env : List (String × String)
  codexConfigToml : Option String := none
  codexConfigTomlPath : Option String := none
  codexBlockListRulesJson : Option String := none
  codexBlockListRulesPath : Option String := none
  codexMcpCommand : Option String := none
  codexMcpArgs : Option (List String) := none
  codexHookCommand : Option String := none
  claudeMcpConfigJson : Option String := none
  claudeMcpConfigPath : Option String := none
  claudeSettingsJson : Option String := none
  claudeSettingsPath : Option String := none
  prelaunchFiles : List PrelaunchFile := []
deriving DecidableEq, Repr

/-! ## What both providers share -/

def rolePromptFor (identity : PaneIdentity) : Except String (Option String) :=
  match identity.role, identity.subRole with
  | none, some _ => throw "buildPaneLaunchConfig: subRole requires role."
  | none, none => pure none
  | some role, none => pure (some (roleBasePrompt role))
  | some role, some name =>
    match findSubRoleSpec role name with
    | none => throw s!"buildPaneLaunchConfig: unknown sub-role '{role}:{name}'."
    | some subRole => pure (some (roleBasePrompt role {
        subRole := some subRole.name
        subRoleApproach := some subRole.approach }))

def paneMayResearchWeb (identity : PaneIdentity) : Bool :=
  roleMayResearchWeb identity.role identity.subRole

def endsWithEnv (command : String) : Bool := "/env".toList.isSuffixOf command.toList

def requireAbsoluteCommand (name command : String) : Except String String := do
  if ¬ isAbsolute command.toList then
    throw s!"buildPaneLaunchConfig: {name} must be an absolute path, got '{command}'."
  else if endsWithEnv command then
    throw s!"buildPaneLaunchConfig: {name} must not delegate through /usr/bin/env."
  else return command

def CODEX_MCP_DELEGATING_COMMANDS : List String :=
  ["bash", "bun", "deno", "node", "nodejs", "python", "python3", "sh", "ts-node", "tsx"]

/-- `text.replace(/\.exe$/iu, '')`. -/
def dropExe (text : List Char) : List Char :=
  if (text.drop (text.length - 4)).map Char.toLower = ".exe".toList then
    text.take (text.length - 4)
  else text

def requireTrustedMcpExecutableArgs (provider : Provider) (command : String) (args : List String) :
    Except String Unit :=
  let executable := String.ofList (dropExe (basename command.toList))
  if ¬ CODEX_MCP_DELEGATING_COMMANDS.contains executable then pure ()
  else
    match args.find? fun arg => arg ≠ "--" ∧ arg.toList.head? ≠ some '-' with
    | none =>
      throw (s!"buildPaneLaunchConfig({provider}): coMcpArgs must include an absolute path when " ++
        s!"coMcpCommand delegates through '{command}'.")
    | some delegatedExecutable =>
      if ¬ isAbsolute delegatedExecutable.toList then
        throw (s!"buildPaneLaunchConfig({provider}): coMcpArgs must include an absolute path " ++
          s!"when coMcpCommand delegates through '{command}'.")
      else if endsWithEnv delegatedExecutable then
        throw (s!"buildPaneLaunchConfig({provider}): coMcpArgs must not delegate through " ++
          "/usr/bin/env.")
      else pure ()

def isEnvVarStart (c : Char) : Bool := c.isAlpha || c = '_'

def isEnvVarChar (c : Char) : Bool := c.isAlphanum || c = '_'

/-- `ENV_VAR_NAME`. -/
def isEnvVarName (key : List Char) : Bool :=
  match key with
  | [] => false
  | c :: rest => isEnvVarStart c && rest.all isEnvVarChar

def requireEnvVarName (key label : String) : Except String Unit :=
  if isEnvVarName key.toList then pure ()
  else
    throw (s!"buildPaneLaunchConfig: {label} key '{key}' is not a valid environment " ++
      "variable name.")

def sortedEnvEntries (runtime : Runtime) (env : List (String × String)) (label : String) :
    Except String (List (String × String)) := do
  let entries := env.mergeSort fun a b => runtime.localeCompare a.1 b.1 != .gt
  entries.forM fun (key, _) => requireEnvVarName key label
  return entries

/-! ## Codex -/

/-- How one character is written between double quotes of a shell. -/
def shellEscapeChar (c : Char) : List Char :=
  if c = '\\' ∨ c = '"' ∨ c = '$' ∨ c = '\x60' then ['\\', c] else [c]

def shellDoubleQuote (value : List Char) : List Char :=
  '"' :: (replaceChar '\x60' ['\\', '\x60'] <| replaceChar '$' ['\\', '$'] <|
    replaceChar '"' ['\\', '"'] <| replaceChar '\\' ['\\', '\\'] value) ++ ['"']

structure CodexConfigArtifacts where
  codexConfigToml : String
  codexMcpCommand : String
  codexMcpArgs : List String
  codexHookCommand : String

def isolatedPath (identity : PaneIdentity) (below : String) : List Char :=
  stripTrailingSlashes identity.isolatedHomeDir.toList ++ '/' :: below.toList

def buildCodexBlockListRulesPath (identity : PaneIdentity) : List Char :=
  isolatedPath identity "hooks/co-block-list-rules.json"

def buildCodexConfigTomlPath (identity : PaneIdentity) : List Char :=
  isolatedPath identity "config.toml"

def requireTrustedHookExecutableArgs (args : List String) : Except String Unit :=
  match args with
  | [] => pure ()
  | [script] =>
    if ¬ isAbsolute script.toList then
      throw "buildPaneLaunchConfig: coCliArgs must contain an absolute script path."
    else if endsWithEnv script then
      throw "buildPaneLaunchConfig: coCliArgs must not delegate through /usr/bin/env."
    else pure ()
  | _ => throw "buildPaneLaunchConfig: coCliArgs may contain at most one executable script."

/-- The command of the hook, as a shell reads it. -/
def hookCommandOf (cliEnv : List (String × String)) (hookCli : String) (hookArgs : List String)
    (rulesPath : List Char) : List Char :=
  let hookExecutable := [' '].intercalate
    ((hookCli :: hookArgs).map fun word => shellDoubleQuote word.toList)
  let hookEnvPrefix := [' '].intercalate
    (cliEnv.map fun (key, value) => key.toList ++ '=' :: shellDoubleQuote value.toList)
  let hookInvocation :=
    hookExecutable ++ " hook codex-block-list --rules ".toList ++ shellDoubleQuote rulesPath
  if hookEnvPrefix.length > 0 then hookEnvPrefix ++ ' ' :: hookInvocation else hookInvocation

def tomlAssignment (key value : String) : List Char :=
  assignmentLine key.toList (tomlString value.toList)

/-- The table that tunes the sandbox, where a key of it is set. -/
def sandboxLines (identity : PaneIdentity) : List (List Char) :=
  let writableRoots := identity.tmpDir.toList
  let sandboxKeyLines :=
    (if writableRoots.length > 0 then
      [assignmentLine "writable_roots".toList (tomlArray (writableRoots.map String.toList))]
    else []) ++
    (if paneMayResearchWeb identity then ["network_access = true".toList] else [])
  if sandboxKeyLines.length > 0 then
    "[sandbox_workspace_write]".toList :: sandboxKeyLines ++ [[]]
  else []

/-- The lines of the file. -/
def codexConfigLines (identity : PaneIdentity) (command : String) (args : List String)
    (mcpEnv : List (String × String)) (hookCommand : List Char) : List (List Char) :=
  let mcpEnvLines := mcpEnv.map fun (key, value) => tomlAssignment key value
  ["sandbox_mode = \"workspace-write\"".toList,
    "approval_policy = \"never\"".toList,
    []] ++
  sandboxLines identity ++
  ["[features]".toList,
    "hooks = true".toList,
    [],
    "[projects.".toList ++ tomlString identity.cwd.toList ++ "]".toList,
    "trust_level = \"trusted\"".toList,
    [],
    "[mcp_servers.co]".toList,
    "type = \"stdio\"".toList,
    tomlAssignment "command" command,
    assignmentLine "args".toList (tomlArray (args.map String.toList)),
    "required = true".toList,
    "startup_timeout_sec = 60".toList,
    "default_tools_approval_mode = \"approve\"".toList,
    []] ++
  (if mcpEnvLines.length > 0 then "[mcp_servers.co.env]".toList :: mcpEnvLines ++ [[]] else []) ++
  ["[[hooks.PreToolUse]]".toList,
    "matcher = \"Bash\"".toList,
    [],
    "[[hooks.PreToolUse.hooks]]".toList,
    "type = \"command\"".toList,
    assignmentLine "command".toList (tomlString hookCommand)]

def buildCodexConfigArtifacts (runtime : Runtime) (identity : PaneIdentity) :
    Except String CodexConfigArtifacts := do
  let command ← requireAbsoluteCommand "coMcpCommand" identity.coMcpCommand
  let args := identity.coMcpArgs
  requireTrustedMcpExecutableArgs .codex command args
  let rulesPath := buildCodexBlockListRulesPath identity
  let hookCli ← requireAbsoluteCommand "coCliCommand" identity.coCliCommand
  let hookArgs := identity.coCliArgs
  requireTrustedHookExecutableArgs hookArgs
  let cliEnv ← sortedEnvEntries runtime identity.coCliEnv "coCliEnv"
  let hookCommand := hookCommandOf cliEnv hookCli hookArgs rulesPath
  let mcpEnv ← sortedEnvEntries runtime identity.coMcpEnv "coMcpEnv"
  let lines := codexConfigLines identity command args mcpEnv hookCommand
  return {
    codexConfigToml := String.ofList (['\n'].intercalate lines ++ ['\n'])
    codexMcpCommand := command
    codexMcpArgs := args
    codexHookCommand := String.ofList hookCommand }

/-- A text of JSON with the line break that ends the file. -/
def jsonFile (value : Json) : String := stringify value ++ "\n"

def buildCodexBlockListRulesJson (blockList : List BlockRule) : String :=
  jsonFile (.obj [
    ("version", .num 1),
    ("tool", .str "shell"),
    ("matcher", .str "@co/core/permissions/matchBlock"),
    ("rules", .arr (blockList.map fun rule => .obj [
      ("id", .str rule.id),
      ("category", .str rule.category),
      ("description", .str rule.description)]))])

def buildCodexLaunchConfig (runtime : Runtime) (identity : PaneIdentity)
    (blockList : List BlockRule) : Except String PaneLaunchConfig := do
  let artifacts ← buildCodexConfigArtifacts runtime identity
  let codexConfigTomlPath := String.ofList (buildCodexConfigTomlPath identity)
  let codexBlockListRulesJson := buildCodexBlockListRulesJson blockList
  let codexBlockListRulesPath := String.ofList (buildCodexBlockListRulesPath identity)
  let basePrompt ← rolePromptFor identity
  let promptArgs := match basePrompt with
    | some prompt => ["-c", "developer_instructions=" ++ String.ofList (quoteText prompt)]
    | none => []
  return {
    provider := .codex
    args := ["--dangerously-bypass-hook-trust", "--ask-for-approval", "never"] ++ promptArgs
    env := [("CODEX_HOME", identity.isolatedHomeDir)]
    codexConfigToml := some artifacts.codexConfigToml
    codexConfigTomlPath := some codexConfigTomlPath
    codexBlockListRulesJson := some codexBlockListRulesJson
    codexBlockListRulesPath := some codexBlockListRulesPath
    codexMcpCommand := some artifacts.codexMcpCommand
    codexMcpArgs := some artifacts.codexMcpArgs
    codexHookCommand := some artifacts.codexHookCommand
    prelaunchFiles := [
      { path := codexConfigTomlPath, contents := artifacts.codexConfigToml },
      { path := codexBlockListRulesPath, contents := codexBlockListRulesJson }] }

/-! ## Claude -/

/-- The patterns that deny what a rule blocks. -/
def CLAUDE_RULE_PATTERNS : List (String × List String) := [
  ("git-force-push",
    ["Bash(git push --force*)", "Bash(git push -f*)", "Bash(git push --force-with-lease*)"]),
  ("rm-rf-root-or-home", ["Bash(rm -rf /*)", "Bash(rm -rf ~*)", "Bash(rm -rf $HOME*)"]),
  ("sudo", ["Bash(sudo*)"]),
  ("daemon-direct", ["Bash(co run*)"]),
  ("raw-git-merge", ["Bash(git merge*)", "Bash(git pull*)"]),
  ("raw-git-push", ["Bash(git push*)"]),
  ("raw-gh-pr-merge", ["Bash(gh pr merge*)", "Bash(gh pr create*)", "Bash(gh api*)"]),
  ("co-in-shell", ["Bash(co *)"])]

def claudeDisallowedPatternsForRule (ruleId : String) : Option (List String) :=
  CLAUDE_RULE_PATTERNS.lookup ruleId

def CLAUDE_ALLOWED_CO_MCP_TOOLS : List String :=
  let tools := (BASE_ROLES.flatMap fun role => (ROLE_PROFILES role).toolset).dedup
  (sorted tools).map ("mcp__co__" ++ ·)

def WEB_SEARCH_TOOLS : List String := ["WebSearch", "WebFetch"]

def claudeDisallowedPatterns (blockList : List BlockRule) : Except String (List String) := do
  let patterns ← blockList.mapM fun rule =>
    orThrow (claudeDisallowedPatternsForRule rule.id)
      (s!"buildPaneLaunchConfig(claude): no --disallowedTools pattern for block rule " ++
        s!"'{rule.id}'. Add an entry to CLAUDE_RULE_PATTERNS to keep the config fully " ++
        "enforced (Principle 9).")
  return patterns.flatten

/-- Single-quote a text for a shell. -/
def shellSingleQuote (value : List Char) : List Char :=
  '\'' :: replaceChar '\'' ['\'', '\\', '\'', '\''] value ++ ['\'']

def buildClaudeStatusLineCommand (statusLinePath : List Char) : String :=
  String.ofList ("tee ".toList ++ shellSingleQuote statusLinePath ++ " >/dev/null".toList)

def buildClaudeSettingsJson (statusLinePath : List Char) : String :=
  jsonFile (.obj [
    ("skipDangerousModePermissionPrompt", .bool true),
    ("skipWorkflowUsageWarning", .bool true),
    ("skipAutoPermissionPrompt", .bool true),
    ("statusLine", .obj [
      ("type", .str "command"),
      ("command", .str (buildClaudeStatusLineCommand statusLinePath))])])

def buildClaudeMcpConfigJson (runtime : Runtime) (identity : PaneIdentity) :
    Except String String := do
  let command ← requireAbsoluteCommand "coMcpCommand" identity.coMcpCommand
  let args := identity.coMcpArgs
  requireTrustedMcpExecutableArgs .claude command args
  let envEntries ← sortedEnvEntries runtime identity.coMcpEnv "coMcpEnv"
  let env := if envEntries.length > 0 then
      [("env", Json.obj (envEntries.map fun (key, value) => (key, .str value)))]
    else []
  return jsonFile (.obj [("mcpServers", .obj [("co", .obj ([
    ("command", .str command),
    ("args", .arr (args.map .str))] ++ env))])])

def claudePromptArgs (basePrompt : Option String) : List String :=
  match basePrompt with
  | some prompt => ["--append-system-prompt", prompt]
  | none => []

/-- The arguments of the command line. -/
def claudeArgs (basePrompt : Option String) (webAllowed : Bool) (patterns : List String)
    (mcpConfig : Option String) : List String :=
  let allowedTools := CLAUDE_ALLOWED_CO_MCP_TOOLS ++ (if webAllowed then WEB_SEARCH_TOOLS else [])
  let patterns := patterns ++ (if webAllowed then [] else WEB_SEARCH_TOOLS)
  ["--strict-mcp-config", "--permission-mode", "bypassPermissions"] ++
  claudePromptArgs basePrompt ++
  (if allowedTools.length > 0 then ["--allowedTools", ",".intercalate allowedTools] else []) ++
  (if patterns.length > 0 then ["--disallowedTools", ",".intercalate patterns] else []) ++
  (match mcpConfig with
    | some path => ["--mcp-config", path]
    | none => [])

def buildClaudeLaunchConfig (runtime : Runtime) (identity : PaneIdentity)
    (blockList : List BlockRule) : Except String PaneLaunchConfig := do
  let basePrompt ← rolePromptFor identity
  let patterns ← claudeDisallowedPatterns blockList
  let claudeSettingsPath := String.ofList (isolatedPath identity "settings.json")
  let statusLinePath := isolatedPath identity "co-statusline.json"
  let claudeSettingsJson := buildClaudeSettingsJson statusLinePath
  let settingsPrelaunch : PrelaunchFile :=
    { path := claudeSettingsPath, contents := claudeSettingsJson }
  let base : PaneLaunchConfig := {
    provider := .claude
    args := claudeArgs basePrompt (paneMayResearchWeb identity) patterns identity.coMcpConfig
    env := [("CLAUDE_CONFIG_DIR", identity.isolatedHomeDir), ("CLAUDE_CODE_NO_FLICKER", "1"),
      ("CO_CLAUDE_STATUSLINE_PATH", String.ofList statusLinePath)]
    claudeSettingsJson := some claudeSettingsJson
    claudeSettingsPath := some claudeSettingsPath
    prelaunchFiles := [settingsPrelaunch] }
  match identity.coMcpConfig with
  | none => return base
  | some claudeMcpConfigPath =>
    let claudeMcpConfigJson ← buildClaudeMcpConfigJson runtime identity
    return { base with
      claudeMcpConfigJson := some claudeMcpConfigJson
      claudeMcpConfigPath := some claudeMcpConfigPath
      prelaunchFiles := [settingsPrelaunch,
        { path := claudeMcpConfigPath, contents := claudeMcpConfigJson }] }

def buildPaneLaunchConfig (runtime : Runtime) (provider : Provider) (identity : PaneIdentity)
    (blockList : List BlockRule) : Except String PaneLaunchConfig :=
  match provider with
  | .claude => buildClaudeLaunchConfig runtime identity blockList
  | .codex => buildCodexLaunchConfig runtime identity blockList

end Orchestration.Permissions
