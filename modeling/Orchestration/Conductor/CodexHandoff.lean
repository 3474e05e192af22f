import Orchestration.Conductor.WarmPane

/-!
# The environment of a pane

A pane learns the path of a handoff file from its launch environment. A hosted pane
is launched either with the engine's default spec or with the isolated one that the
placements and the cold starts build.
-/

namespace Orchestration.Conductor

open Dispatch (Provider)
open Pty (Text)

/-! ## Paths -/

/-- The characters that `encodeURIComponent` keeps. -/
def isUnreserved (c : Char) : Bool :=
  'A' ≤ c && c ≤ 'Z' || 'a' ≤ c && c ≤ 'z' || '0' ≤ c && c ≤ '9' ||
    c ∈ ['-', '_', '.', '!', '~', '*', '\'', '(', ')']

def hexDigit (n : ℕ) : Char := if n < 10 then Char.ofNat (48 + n) else Char.ofNat (55 + n)

def encodeURIComponent (text : Text) : Text :=
  text.flatMap fun c =>
    if isUnreserved c then [c]
    else (String.utf8EncodeChar c).flatMap fun byte =>
      ['%', hexDigit (byte.toNat / 16), hexDigit (byte.toNat % 16)]

def agentPathSegment (agent : Text) : Except String Text :=
  let segment := encodeURIComponent agent
  if segment = [] ∨ segment = ['.'] ∨ segment = ['.', '.'] then
    .error ("codex handoff: unsafe agent id '" ++ String.ofList agent ++ "' for handoff path")
  else .ok segment

inductive ResumeHandle where
  | claude (sessionId : Text)
  | codex (codexHome : Text)
deriving DecidableEq, Repr

/-- The part of a hosted identity that its launch reads. -/
structure PaneIdentity where
  agent : Text
  /-- The program-data directory of its project, resolved. -/
  projectDataDir : Text
  provider : Provider
  resume : ResumeHandle
deriving DecidableEq, Repr

namespace PaneIdentity

variable (identity : PaneIdentity)

def codexHandoffRoot : Text := identity.projectDataDir ++ "/handoffs".toList

/-- The agent's directory. An encoded segment has no separator, so it stays under the root. -/
def codexHandoffDir : Except String Text := do
  let segment ← agentPathSegment identity.agent
  return identity.codexHandoffRoot ++ ['/'] ++ segment

/-- `codexKickoffHandoffPath` and `codexRoutedHandoffPath`. -/
def handoffPath (file : HandoffFile) : Except String Text := do
  let dir ← identity.codexHandoffDir
  return dir ++ ['/'] ++ match file with
    | .kickoff => "kickoff.txt".toList
    | .routed => "routed.txt".toList

end PaneIdentity

/-! ## Launch specs -/

/-- An environment; a later entry takes the place of an earlier one. -/
abbrev Env := List (String × Text)

def Env.get (env : Env) (key : String) : Option Text :=
  (env.reverse.find? fun entry => entry.1 == key).map Prod.snd

/-- What the isolated launch reads of the host. -/
structure HostedLaunch where
  isolatedHomeDir : Text
  /-- The trimmed GitHub token of a pane that may research the web. -/
  researchGhToken : Option Text

/-- How a pane was launched. -/
inductive Launch where
  | default
  | hosted (launch : HostedLaunch)

/-- The environment of `defaultSpawnSpec`. -/
def defaultEnv (identity : PaneIdentity) : Except String Env :=
  match identity.resume with
  | .codex codexHome => do
    let kickoff ← identity.handoffPath .kickoff
    let routed ← identity.handoffPath .routed
    return [("CODEX_HOME", codexHome), (HandoffFile.kickoff.env, kickoff),
      (HandoffFile.routed.env, routed)]
  | .claude _ => .ok []

/-- The environment of `buildPaneLaunchConfig`. -/
def paneLaunchEnv (provider : Provider) (isolatedHomeDir : Text) : Env :=
  match provider with
  | .claude => [("CLAUDE_CONFIG_DIR", isolatedHomeDir), ("CLAUDE_CODE_NO_FLICKER", ['1']),
      ("CO_CLAUDE_STATUSLINE_PATH",
        (isolatedHomeDir.reverse.dropWhile (· = '/')).reverse ++ "/co-statusline.json".toList)]
  | .codex => [("CODEX_HOME", isolatedHomeDir)]

/-- The environment of `buildHostedLaunchSpec`. -/
def hostedEnv (identity : PaneIdentity) (launch : HostedLaunch) : Except String Env := do
  let base := paneLaunchEnv identity.provider launch.isolatedHomeDir ++
    [("HOME", launch.isolatedHomeDir), ("LANG", "C.UTF-8".toList)] ++
    launch.researchGhToken.toList.map fun token => ("GH_TOKEN", token)
  if identity.provider = .codex then
    let kickoff ← identity.handoffPath .kickoff
    return base ++ [(HandoffFile.kickoff.env, kickoff)]
  else return base

def Launch.env (launch : Launch) (identity : PaneIdentity) : Except String Env :=
  match launch with
  | .default => defaultEnv identity
  | .hosted launch => hostedEnv identity launch

/-- Whether a launch sets the variable of a handoff file. -/
def Launch.provides (launch : Launch) (identity : PaneIdentity) (file : HandoffFile) : Bool :=
  match launch, file with
  | .default, _ => match identity.resume with
    | .codex _ => true
    | .claude _ => false
  | .hosted _, .kickoff => identity.provider = .codex
  | .hosted _, .routed => false

/-- The variable of the file names the path that its text is written to. -/
def Points (identity : PaneIdentity) (env : Env) (file : HandoffFile) : Prop :=
  ∃ path, identity.handoffPath file = .ok path ∧ env.get file.env = some path

theorem Env.get_append_of_mem {env : Env} {key : String} {value : Text} :
    (env ++ [(key, value)]).get key = some value := by
  simp [Env.get]

theorem Env.get_append_of_ne {env : Env} {key key' : String} {value : Text} (h : key' ≠ key) :
    (env ++ [(key', value)]).get key = env.get key := by
  simp [Env.get, h]

/-- The variables that `buildHostedLaunchSpec` sets for every pane. -/
theorem hostedBase_get (identity : PaneIdentity) (launch : HostedLaunch) (file : HandoffFile) :
    Env.get (paneLaunchEnv identity.provider launch.isolatedHomeDir ++
      [("HOME", launch.isolatedHomeDir), ("LANG", "C.UTF-8".toList)] ++
      launch.researchGhToken.toList.map fun token => ("GH_TOKEN", token)) file.env = none := by
  obtain ⟨home, token⟩ := launch
  generalize identity.provider = provider
  cases provider <;> cases file <;> cases token <;> simp [Env.get, paneLaunchEnv, HandoffFile.env]

/-- A launch gives the agent the path of exactly the files it provides. -/
theorem points_iff_provides {launch : Launch} {identity : PaneIdentity} {env : Env}
    (henv : launch.env identity = .ok env) (file : HandoffFile) :
    Points identity env file ↔ launch.provides identity file = true := by
  cases launch with
  | default =>
    cases hresume : identity.resume with
    | claude sessionId =>
      simp only [Launch.env, defaultEnv, hresume] at henv
      cases henv
      simp [Points, Env.get, Launch.provides, hresume]
    | codex codexHome =>
      simp only [Launch.env, defaultEnv, hresume] at henv
      obtain ⟨kickoff, hkickoff, henv⟩ := Fallible.bind_eq_ok.1 henv
      obtain ⟨routed, hrouted, henv⟩ := Fallible.bind_eq_ok.1 henv
      cases henv
      cases file with
      | kickoff => simp [Points, Launch.provides, hresume, hkickoff, Env.get, HandoffFile.env]
      | routed => simp [Points, Launch.provides, hresume, hrouted, Env.get, HandoffFile.env]
  | hosted launch =>
    simp only [Launch.env, hostedEnv] at henv
    split at henv
    · rename_i hcodex
      obtain ⟨kickoff, hkickoff, henv⟩ := Fallible.bind_eq_ok.1 henv
      cases henv
      cases file with
      | kickoff =>
        rw [Points, Env.get_append_of_mem]
        simp [Launch.provides, hcodex, hkickoff]
      | routed =>
        rw [Points, Env.get_append_of_ne (by decide), hostedBase_get]
        simp [Launch.provides]
    · rename_i hclaude
      cases henv
      rw [Points, hostedBase_get]
      cases file <;> simp [Launch.provides, hclaude]

end Orchestration.Conductor
