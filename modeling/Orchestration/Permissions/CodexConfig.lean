import Orchestration.Library.Splitting
import Orchestration.Permissions.Drift

/-!
# The file of Codex and its hook

The configuration that the builder writes for Codex, as the drift check reads it: every key that
is looked up has the value that was written, whatever the strings of the pane are. The command of
the hook is written for a shell before it is stored in the file, and taken apart again by the
check. Every value between double quotes is passed over as a whole, so the reader meets the
executables that were written.
-/

namespace Orchestration.Permissions

open Js
open Splitting (forall_mem_of_all)

/-! ## Quoting for a shell -/

/-- The text between the quotes. -/
def shellEscape (value : List Char) : List Char := value.flatMap shellEscapeChar

@[simp] theorem shellEscape_nil : shellEscape [] = [] := rfl

@[simp] theorem shellEscape_cons (c : Char) (value : List Char) :
    shellEscape (c :: value) = shellEscapeChar c ++ shellEscape value := rfl

@[simp] theorem shellEscape_concat (value : List Char) (c : Char) :
    shellEscape (value ++ [c]) = shellEscape value ++ shellEscapeChar c := by
  simp [shellEscape]

theorem shellDoubleQuote_eq (value : List Char) :
    shellDoubleQuote value = '"' :: (shellEscape value ++ ['"']) := by
  have htext : replaceChar '\x60' ['\\', '\x60'] (replaceChar '$' ['\\', '$'] (replaceChar '"'
      ['\\', '"'] (replaceChar '\\' ['\\', '\\'] value))) = shellEscape value := by
    simp only [replaceChar, List.flatMap_assoc, shellEscape]
    refine List.flatMap_congr fun c _ => ?_
    by_cases hslash : c = '\\'
    · simp [shellEscapeChar, hslash]
    · by_cases hquote : c = '"'
      · simp [shellEscapeChar, hquote]
      · by_cases hdollar : c = '$'
        · simp [shellEscapeChar, hdollar]
        · by_cases htick : c = '\x60' <;> simp [shellEscapeChar, *]
  rw [shellDoubleQuote, htext]
  rfl

/-- A character stands for itself, or behind a backslash. -/
theorem shellEscapeChar_cases (c : Char) :
    (shellEscapeChar c = [c] ∧ c ≠ '\\' ∧ c ≠ '"') ∨
      (shellEscapeChar c = ['\\', c] ∧ c ∈ ['\\', '"', '$', '\x60']) := by
  rw [shellEscapeChar]
  split_ifs with hspecial
  · refine .inr ⟨rfl, ?_⟩
    simpa using hspecial
  · simp only [not_or] at hspecial
    exact .inl ⟨rfl, hspecial.1, hspecial.2.1⟩

/-- The reader of quoted texts passes over what was quoted. -/
theorem quotedEnd?_shellEscape (value rest : List Char) :
    quotedEnd? (shellEscape value ++ '"' :: rest) = some rest := by
  induction value with
  | nil => rfl
  | cons c value ih =>
    rw [shellEscape_cons, List.append_assoc]
    rcases shellEscapeChar_cases c with ⟨hplain, hslash, hquote⟩ | ⟨hpair, hc⟩
    · rw [hplain, List.singleton_append, quotedEnd?, ih]
      all_goals simp_all
    · have hdot : ∀ c ∈ ['\\', '"', '$', '\x60'], isLineTerminator c = false :=
        forall_mem_of_all (by decide)
      rw [hpair]
      change quotedEnd? ('\\' :: c :: (shellEscape value ++ '"' :: rest)) = _
      rw [quotedEnd?, if_neg (by simp [hdot c hc]), ih]

theorem mem_shellEscape {d : Char} {value : List Char} (h : d ∈ shellEscape value) :
    d = '\\' ∨ d ∈ value := by
  obtain ⟨c, hc, hd⟩ := List.mem_flatMap.1 h
  rcases shellEscapeChar_cases c with ⟨hplain, -, -⟩ | ⟨hpair, -⟩
  · rw [hplain, List.mem_singleton] at hd
    exact .inr (hd ▸ hc)
  · rw [hpair, List.mem_cons, List.mem_singleton] at hd
    rcases hd with rfl | rfl
    · exact .inl rfl
    · exact .inr hc

theorem shellEscape_ne_nil {value : List Char} (h : value ≠ []) : shellEscape value ≠ [] := by
  obtain ⟨c, rest, rfl⟩ := List.exists_cons_of_ne_nil h
  rw [shellEscape_cons]
  rcases shellEscapeChar_cases c with ⟨hplain, -⟩ | ⟨hpair, -⟩
  · simp [hplain]
  · simp [hpair]

/-- A word without a quote is read up to its closing quote. -/
theorem quotedWord?_shellDoubleQuote {value : List Char} (hne : value ≠ []) (hquote : '"' ∉ value)
    (rest : List Char) :
    quotedWord? (shellDoubleQuote value ++ rest) = some (shellEscape value, rest) := by
  have hplain : ∀ c ∈ shellEscape value, decide (c ≠ '"') = true := by
    intro c hc
    rcases mem_shellEscape hc with rfl | hmem
    · decide
    · exact decide_eq_true fun heq => hquote (heq ▸ hmem)
  have htext : shellDoubleQuote value ++ rest = '"' :: (shellEscape value ++ '"' :: rest) := by
    simp [shellDoubleQuote_eq]
  rw [htext, quotedWord?, List.dropWhile_append_of_pos hplain, List.takeWhile_append_of_pos hplain]
  simp [shellEscape_ne_nil hne]

/-- A plain end of a quoted text is the end of the value. -/
theorem suffix_of_shellEscape {value «end» : List Char}
    (hplain : ∀ c ∈ «end», shellEscapeChar c = [c]) (h : «end» <:+ shellEscape value) :
    «end» <:+ value := by
  induction «end» using List.reverseRecOn generalizing value with
  | nil => exact List.nil_suffix
  | append_singleton «end» d ih =>
    cases value using List.reverseRecOn with
    | nil =>
      rw [shellEscape_nil, List.suffix_nil] at h
      simp at h
    | append_singleton value c =>
      have hlast : ∃ body, shellEscape (value ++ [c]) = body ++ [c] ∧
          (shellEscapeChar c = [c] → body = shellEscape value) := by
        rw [shellEscape_concat]
        rcases shellEscapeChar_cases c with ⟨hc, -⟩ | ⟨hc, -⟩
        · exact ⟨shellEscape value, by rw [hc], fun _ => rfl⟩
        · exact ⟨shellEscape value ++ ['\\'], by simp [hc], fun heq => by simp [hc] at heq⟩
      obtain ⟨body, hbody, hsame⟩ := hlast
      obtain ⟨front, htext⟩ := h
      rw [hbody, ← List.append_assoc] at htext
      obtain ⟨hfront, hd⟩ := List.append_inj' htext rfl
      obtain rfl : d = c := by simpa using hd
      have hvalue : front ++ «end» = shellEscape value := by
        rw [hfront, hsame (hplain d (by simp))]
      obtain ⟨before, hbefore⟩ :=
        ih (fun c hc => hplain c (List.mem_append_left _ hc)) ⟨front, hvalue⟩
      exact ⟨before, by rw [← hbefore, List.append_assoc]⟩

/-- Quoting an executable does not make it one that is not trusted. -/
theorem isTrustedAbsoluteCommand_shellEscape {command : String}
    (habs : isAbsolute command.toList = true) (henv : endsWithEnv command = false) :
    isTrustedAbsoluteCommand (shellEscape command.toList) = true := by
  have hhead : isAbsolute (shellEscape command.toList) = true := by
    generalize command.toList = value at habs
    cases value with
    | nil => simp [isAbsolute] at habs
    | cons c rest =>
      obtain rfl : c = '/' := by simpa [isAbsolute] using habs
      rfl
  have hend : "/env".toList.isSuffixOf (shellEscape command.toList) = false := by
    by_contra hsuffix
    rw [Bool.not_eq_false, List.isSuffixOf_iff_suffix] at hsuffix
    have hvalue := suffix_of_shellEscape (forall_mem_of_all (by decide)) hsuffix
    rw [endsWithEnv, ← Bool.not_eq_true, List.isSuffixOf_iff_suffix] at henv
    exact henv hvalue
  rw [isTrustedAbsoluteCommand, hhead, hend]
  rfl

/-! ## What the escapes of TOML keep -/

theorem kept_append {xs ys : List Char} (hlast : xs.getLast? ≠ some '\\') :
    Kept (xs ++ ys) ↔ Kept xs ∧ Kept ys := by
  rw [Kept, List.isChain_append]
  refine and_congr_right fun _ => and_iff_left ?_
  rintro x hx y hy rfl
  exact absurd hx hlast

theorem kept_plain {text : List Char} (h : '\\' ∉ text) : Kept text := by
  induction text with
  | nil => exact List.IsChain.nil
  | cons c text ih =>
    rw [List.mem_cons, not_or] at h
    refine List.isChain_cons.2 ⟨?_, ih h.2⟩
    rintro d - rfl
    exact absurd rfl h.1

theorem kept_plain_append {text : List Char} (h : '\\' ∉ text) (rest : List Char) :
    Kept (text ++ rest) ↔ Kept rest := by
  rw [kept_append fun hlast => h (List.mem_of_getLast? hlast), and_iff_right (kept_plain h)]

theorem head_shellEscape (c : Char) (value : List Char) :
    (shellEscape (c :: value)).head? = some c ∨ (shellEscape (c :: value)).head? = some '\\' := by
  rw [shellEscape_cons]
  rcases shellEscapeChar_cases c with ⟨hc, -⟩ | ⟨hc, -⟩
  · exact .inl (by simp [hc])
  · exact .inr (by simp [hc])

/-- Quoting for a shell keeps what was kept, and nothing else. -/
theorem kept_shellEscape {value : List Char} : Kept (shellEscape value) ↔ Kept value := by
  induction value with
  | nil => exact Iff.rfl
  | cons c value ih =>
    have hletter : ∀ e ∈ ['\\', '"', '$', '\x60'], e ≠ 'n' ∧ e ≠ 'r' :=
      forall_mem_of_all (by decide)
    -- The backslash that ends an escaped one stands before the escape of the next character.
    have hnext : (∀ d ∈ (shellEscape value).head?, c = '\\' → d ≠ 'n' ∧ d ≠ 'r') ↔
        ∀ d ∈ value.head?, c = '\\' → d ≠ 'n' ∧ d ≠ 'r' := by
      cases value with
      | nil => exact Iff.rfl
      | cons e value =>
        have hself : ('\\' : Char) ≠ 'n' ∧ ('\\' : Char) ≠ 'r' := by decide
        rcases shellEscapeChar_cases e with ⟨hplain, -⟩ | ⟨hpair, he⟩
        · simp [shellEscape_cons, hplain]
        · simp [shellEscape_cons, hpair, hletter e he, hself]
    have hvalue : Kept (c :: value) ↔
        (∀ d ∈ value.head?, c = '\\' → d ≠ 'n' ∧ d ≠ 'r') ∧ Kept value := List.isChain_cons
    rw [hvalue, shellEscape_cons, ← hnext, ← ih]
    rcases shellEscapeChar_cases c with ⟨hplain, -, -⟩ | ⟨hpair, hc⟩
    · rw [hplain]
      exact List.isChain_cons
    · rw [hpair]
      change List.IsChain _ ('\\' :: c :: shellEscape value) ↔ _
      rw [List.isChain_cons_cons, List.isChain_cons, and_iff_right fun _ => hletter c hc]
      exact Iff.rfl

theorem kept_shellDoubleQuote {value : List Char} : Kept (shellDoubleQuote value) ↔ Kept value := by
  have hopen : shellDoubleQuote value = ['"'] ++ (shellEscape value ++ ['"']) :=
    shellDoubleQuote_eq value
  rw [hopen, kept_plain_append (by decide), Kept, List.isChain_append, ← kept_shellEscape]
  refine and_iff_left ⟨List.IsChain.singleton _, ?_⟩
  rintro x - y hy -
  obtain rfl := Option.some.inj hy
  decide

@[simp] theorem getLast?_shellDoubleQuote (value : List Char) :
    (shellDoubleQuote value).getLast? = some '"' := by
  rw [shellDoubleQuote_eq, ← List.cons_append, List.getLast?_concat]

theorem kept_shellDoubleQuote_append {value rest : List Char} :
    Kept (shellDoubleQuote value ++ rest) ↔ Kept value ∧ Kept rest := by
  rw [kept_append (by simp), kept_shellDoubleQuote]

/-! ## The environment before the command -/

/-- One variable that is set before the command. -/
def envAssignment (entry : String × String) : List Char :=
  entry.1.toList ++ '=' :: shellDoubleQuote entry.2.toList

/-- The variables that are set before the command, each with a space behind it. -/
def envWords (entries : List (String × String)) : List Char :=
  entries.flatMap fun entry => envAssignment entry ++ [' ']

theorem envWords_cons (entry : String × String) (entries : List (String × String)) :
    envWords (entry :: entries) = envAssignment entry ++ ' ' :: envWords entries := by
  simp [envWords]

theorem isEnvVarChar_of_name {key : List Char} (h : isEnvVarName key = true) :
    ∀ c ∈ key, isEnvVarChar c = true := by
  cases key with
  | nil => simp
  | cons c rest =>
    simp only [isEnvVarName, isEnvVarStart, Bool.and_eq_true, List.all_eq_true] at h
    intro d hd
    rcases List.mem_cons.1 hd with rfl | hmem
    · rcases Bool.or_eq_true_iff.1 h.1 with halpha | hline
      · simp [isEnvVarChar, Char.isAlphanum, halpha]
      · simp [isEnvVarChar, hline]
    · exact h.2 d hmem

theorem isEnvVarChar_isTomlKeyChar {c : Char} (h : isEnvVarChar c = true) :
    isTomlKeyChar c = true := by
  simp only [isEnvVarChar, Bool.or_eq_true] at h
  simp only [isTomlKeyChar, Bool.or_eq_true]
  exact .inl (.inl h)

theorem afterShellAssignment?_entry {entry : String × String}
    (hkey : isEnvVarName entry.1.toList = true) {rest : List Char}
    (hrest : skipWhitespace rest = rest) :
    afterShellAssignment? (envAssignment entry ++ ' ' :: rest) = some rest := by
  have hname := isEnvVarChar_of_name hkey
  have htext : envAssignment entry ++ ' ' :: rest =
      entry.1.toList ++ '=' :: '"' :: (shellEscape entry.2.toList ++ '"' :: ' ' :: rest) := by
    simp [envAssignment, shellDoubleQuote_eq]
  have hdrop : (envAssignment entry ++ ' ' :: rest).dropWhile isEnvVarChar =
      '=' :: '"' :: (shellEscape entry.2.toList ++ '"' :: ' ' :: rest) := by
    rw [htext, List.dropWhile_append_of_pos hname]
    rfl
  have htake : (envAssignment entry ++ ' ' :: rest).takeWhile isEnvVarChar = entry.1.toList := by
    rw [htext, List.takeWhile_append_of_pos hname]
    exact List.append_nil _
  have hskip : skipWhitespace (' ' :: rest) = rest := hrest
  rw [afterShellAssignment?, hdrop, htake]
  simp only [hkey, not_true_eq_false, if_false, quotedEnd?_shellEscape, Option.bind_some, hskip]
  rfl

/-- A quoted word sets no variable. -/
theorem stripHookEnvPrefix_quote (rest : List Char) :
    stripHookEnvPrefix ('"' :: rest) = '"' :: rest := by
  have hnone : afterShellAssignment? ('"' :: rest) = none := rfl
  rw [stripHookEnvPrefix]
  split
  · next heq => simp [hnone] at heq
  · rfl

theorem skipWhitespace_cons {c : Char} (h : isStrWhiteSpace c = false) (rest : List Char) :
    skipWhitespace (c :: rest) = c :: rest := by
  simp [skipWhitespace, h]

/-- The reader passes over all the variables. -/
theorem stripHookEnvPrefix_entries {entries : List (String × String)}
    (hkeys : ∀ entry ∈ entries, isEnvVarName entry.1.toList = true) (rest : List Char) :
    stripHookEnvPrefix (envWords entries ++ '"' :: rest) = '"' :: rest := by
  induction entries with
  | nil => exact stripHookEnvPrefix_quote rest
  | cons entry entries ih =>
    have htail := ih fun e he => hkeys e (List.mem_cons_of_mem entry he)
    have hplain : skipWhitespace (envWords entries ++ '"' :: rest) =
        envWords entries ++ '"' :: rest := by
      cases entries with
      | nil => exact skipWhitespace_cons (by decide) rest
      | cons next entries =>
        have hname := hkeys next (by simp)
        rw [envWords_cons]
        obtain ⟨c, key, hkey⟩ : ∃ c key, next.1.toList = c :: key := by
          cases hnext : next.1.toList with
          | nil => simp [hnext, isEnvVarName] at hname
          | cons c key => exact ⟨c, key, rfl⟩
        have hc := isEnvVarChar_isTomlKeyChar (isEnvVarChar_of_name hname c (by simp [hkey]))
        simp only [envAssignment, hkey, List.cons_append]
        exact skipWhitespace_cons (isTomlKeyChar_spec hc).2.2.2 _
    have htext : envWords (entry :: entries) ++ '"' :: rest =
        envAssignment entry ++ ' ' :: (envWords entries ++ '"' :: rest) := by
      simp [envWords_cons]
    have hstep := afterShellAssignment?_entry (hkeys entry List.mem_cons_self) hplain
    rw [htext, stripHookEnvPrefix]
    split
    · next heq =>
      rw [hstep] at heq
      rw [← Option.some.inj heq, htail]
    · next heq => simp [hstep] at heq

/-! ## The whole command -/

/-- The executables of the hook and the file of its rules. -/
def hookInvocation (words : List String) (rulesPath : List Char) : List Char :=
  [' '].intercalate (words.map fun word => shellDoubleQuote word.toList) ++
    (HOOK_SUBCOMMAND ++ shellDoubleQuote rulesPath)

theorem hookCommandOf_eq (cliEnv : List (String × String)) (hookCli : String)
    (hookArgs : List String) (rulesPath : List Char) :
    hookCommandOf cliEnv hookCli hookArgs rulesPath =
      envWords cliEnv ++ hookInvocation (hookCli :: hookArgs) rulesPath := by
  have hinvocation : ([' '].intercalate
      ((hookCli :: hookArgs).map fun word => shellDoubleQuote word.toList) ++
      " hook codex-block-list --rules ".toList ++ shellDoubleQuote rulesPath) =
      hookInvocation (hookCli :: hookArgs) rulesPath := List.append_assoc _ _ _
  rw [hookCommandOf, hinvocation]
  change (if ([' '].intercalate (cliEnv.map envAssignment)).length > 0 then
    [' '].intercalate (cliEnv.map envAssignment) ++ ' ' ::
      hookInvocation (hookCli :: hookArgs) rulesPath
    else hookInvocation (hookCli :: hookArgs) rulesPath) = _
  cases cliEnv with
  | nil => rfl
  | cons entry entries =>
    have hjoin : [' '].intercalate ((entry :: entries).map envAssignment) ++ [' '] =
        envWords (entry :: entries) := by
      rw [List.map_cons, Splitting.intercalate_append_sep (List.cons_ne_nil _ _), ← List.map_cons,
        List.flatMap_map]
      rfl
    have hlength : 0 < ([' '].intercalate ((entry :: entries).map envAssignment)).length := by
      have hentry : 0 < (envAssignment entry).length := by simp [envAssignment]
      have htotal := congrArg List.length hjoin
      rw [envWords_cons] at htotal
      simp only [List.length_append, List.length_cons, List.length_nil] at htotal
      omega
    rw [if_pos hlength, ← hjoin, List.append_assoc]
    rfl

/-- What the drift check asks of an executable. -/
structure TrustedExecutable (command : String) : Prop where
  isAbsolute : isAbsolute command.toList = true
  endsWithEnv : endsWithEnv command = false
  no_quote : '"' ∉ command.toList

theorem TrustedExecutable.ne_nil {command : String} (h : TrustedExecutable command) :
    command.toList ≠ [] := by
  intro hnil
  have habs := h.isAbsolute
  rw [hnil] at habs
  cases habs

theorem TrustedExecutable.trusted {command : String} (h : TrustedExecutable command) :
    isTrustedAbsoluteCommand (shellEscape command.toList) = true :=
  isTrustedAbsoluteCommand_shellEscape h.isAbsolute h.endsWithEnv

theorem TrustedExecutable.quotedWord? {command : String} (h : TrustedExecutable command)
    (rest : List Char) : quotedWord? (shellDoubleQuote command.toList ++ rest) =
      some (shellEscape command.toList, rest) :=
  quotedWord?_shellDoubleQuote h.ne_nil h.no_quote rest

/-- The hook of one executable, or of an executable and its script, is trusted. -/
theorem hookCommandUsesTrustedExecutable_hookCommandOf {cliEnv : List (String × String)}
    (hkeys : ∀ entry ∈ cliEnv, isEnvVarName entry.1.toList = true) {hookCli : String}
    (hcli : TrustedExecutable hookCli) {hookArgs : List String}
    (hargs : ∀ arg ∈ hookArgs, TrustedExecutable arg) (hone : hookArgs.length ≤ 1)
    (rulesPath : List Char) :
    hookCommandUsesTrustedExecutable (hookCommandOf cliEnv hookCli hookArgs rulesPath) = true := by
  have hopen : ∃ rest, hookInvocation (hookCli :: hookArgs) rulesPath = '"' :: rest := by
    cases hookArgs <;> simp [hookInvocation, shellDoubleQuote_eq, List.intercalate]
  obtain ⟨rest, hrest⟩ := hopen
  have hstrip : stripHookEnvPrefix (hookCommandOf cliEnv hookCli hookArgs rulesPath) =
      hookInvocation (hookCli :: hookArgs) rulesPath := by
    rw [hookCommandOf_eq, hrest, stripHookEnvPrefix_entries hkeys]
  have hsub : HOOK_SUBCOMMAND.isPrefixOf
      (HOOK_SUBCOMMAND ++ shellDoubleQuote rulesPath) = true := by
    rw [List.isPrefixOf_iff_prefix]
    exact List.prefix_append _ _
  rw [hookCommandUsesTrustedExecutable, hstrip]
  match hookArgs, hone with
  | [], _ =>
    have htext : hookInvocation [hookCli] rulesPath =
        shellDoubleQuote hookCli.toList ++ (HOOK_SUBCOMMAND ++ shellDoubleQuote rulesPath) := by
      simp [hookInvocation, List.intercalate]
    rw [htext, hcli.quotedWord?]
    simp only [hsub, hcli.trusted, Bool.and_self, Bool.true_or]
  | [script], _ =>
    have hscript := hargs script (by simp)
    have htext : hookInvocation [hookCli, script] rulesPath = shellDoubleQuote hookCli.toList ++
        (' ' :: (shellDoubleQuote script.toList ++
          (HOOK_SUBCOMMAND ++ shellDoubleQuote rulesPath))) := by
      simp [hookInvocation, List.intercalate]
    rw [htext, hcli.quotedWord?]
    simp only [hscript.quotedWord?, hsub, hcli.trusted, hscript.trusted, Bool.and_self,
      Bool.or_true]

/-- The command names the file of the rules. -/
theorem infix_hookCommandOf (cliEnv : List (String × String)) (hookCli : String)
    (hookArgs : List String) (rulesPath : List Char) :
    "--rules ".toList ++ shellDoubleQuote rulesPath <:+:
      hookCommandOf cliEnv hookCli hookArgs rulesPath := by
  have hsub : HOOK_SUBCOMMAND = " hook codex-block-list ".toList ++ "--rules ".toList := rfl
  rw [hookCommandOf_eq, hookInvocation, hsub, List.append_assoc, ← List.append_assoc,
    ← List.append_assoc]
  exact (List.suffix_append _ _).isInfix

theorem kept_hookInvocation {words : List String} {rulesPath : List Char} :
    Kept (hookInvocation words rulesPath) ↔
      (∀ word ∈ words, Kept word.toList) ∧ Kept rulesPath := by
  have htail : Kept (HOOK_SUBCOMMAND ++ shellDoubleQuote rulesPath) ↔ Kept rulesPath := by
    rw [kept_plain_append (by decide), kept_shellDoubleQuote]
  induction words with
  | nil => simpa [hookInvocation] using htail
  | cons word words ih =>
    have hrest : Kept (hookInvocation words rulesPath) ↔
        (∀ word ∈ words, Kept word.toList) ∧ Kept rulesPath := ih
    rw [List.forall_mem_cons, and_assoc, ← hrest, hookInvocation]
    cases words with
    | nil => simp [hookInvocation, kept_shellDoubleQuote_append]
    | cons next words =>
      rw [List.map_cons, List.map_cons, List.intercalate_cons_cons, List.append_assoc,
        List.append_assoc, kept_shellDoubleQuote_append, kept_plain_append (by decide)]
      rfl

/-- The command survives the file of TOML that it is written to exactly where all its parts do. -/
theorem kept_hookCommandOf {cliEnv : List (String × String)}
    (hkeys : ∀ entry ∈ cliEnv, isEnvVarName entry.1.toList = true) {hookCli : String}
    {hookArgs : List String} {rulesPath : List Char} :
    Kept (hookCommandOf cliEnv hookCli hookArgs rulesPath) ↔
      (∀ entry ∈ cliEnv, Kept entry.2.toList) ∧ (Kept hookCli.toList ∧
        ∀ arg ∈ hookArgs, Kept arg.toList) ∧ Kept rulesPath := by
  have hwords : (∀ word ∈ hookCli :: hookArgs, Kept word.toList) ↔
      Kept hookCli.toList ∧ ∀ arg ∈ hookArgs, Kept arg.toList := List.forall_mem_cons
  rw [hookCommandOf_eq, ← hwords, ← kept_hookInvocation]
  induction cliEnv with
  | nil => simp [envWords]
  | cons entry entries ih =>
    have hname := isEnvVarChar_of_name (hkeys entry List.mem_cons_self)
    have hslash : '\\' ∉ entry.1.toList ++ ['='] := by
      rw [List.mem_append, not_or]
      exact ⟨fun hmem => absurd (hname _ hmem) (by decide), by decide⟩
    have htext : envWords (entry :: entries) ++ hookInvocation (hookCli :: hookArgs) rulesPath =
        (entry.1.toList ++ ['=']) ++ (shellDoubleQuote entry.2.toList ++ ([' '] ++
          (envWords entries ++ hookInvocation (hookCli :: hookArgs) rulesPath))) := by
      simp [envWords_cons, envAssignment]
    have hrest : Kept (envWords entries ++ hookInvocation (hookCli :: hookArgs) rulesPath) ↔
        (∀ entry ∈ entries, Kept entry.2.toList) ∧
          Kept (hookInvocation (hookCli :: hookArgs) rulesPath) :=
      ih fun e he => hkeys e (List.mem_cons_of_mem entry he)
    rw [htext, kept_plain_append hslash, kept_shellDoubleQuote_append,
      kept_plain_append (by decide), hrest, List.forall_mem_cons, and_assoc]

/-! ## Tables between the others -/

section

variable {name key current next : List Char}

/-- A table that another one is read past. -/
theorem valuesIn_table {header : List Char} {entries : List (List Char)} {table : List Char}
    (hheader : readTomlLine header = .section table) (hne : table ≠ name)
    (hentries : ∀ line ∈ entries, ∃ k v, readTomlLine line = .assignment k v)
    (rest : List TomlLine) :
    valuesIn name key ((if entries.length > 0 then header :: entries ++ [[]] else []).map
        readTomlLine ++ .section next :: rest) current = valuesIn name key rest next := by
  split
  · have hblank : readTomlLine [] = .blank := rfl
    have hblock : ∀ line ∈ entries.map readTomlLine, ∃ k v, line = .assignment k v := by
      intro line hline
      obtain ⟨text, htext, rfl⟩ := List.mem_map.1 hline
      exact hentries text htext
    simp only [List.map_append, List.map_cons, List.map_nil, hheader, hblank, List.cons_append,
      List.append_assoc, List.nil_append, valuesIn_section]
    rw [valuesIn_append_of_ne hne hblock]
    rfl
  · rfl

/-- The header of the project is that of a table of its own, or none. -/
theorem readTomlLine_project (cwd : List Char) :
    readTomlLine ("[projects.".toList ++ tomlString cwd ++ "]".toList) = .other ∨
      ∃ table, readTomlLine ("[projects.".toList ++ tomlString cwd ++ "]".toList) =
        .section table := by
  have hline : "[projects.".toList ++ tomlString cwd ++ "]".toList =
      '[' :: 'p' :: ("rojects.".toList ++ (tomlString cwd ++ "]".toList)) := by
    rw [List.append_assoc]
    rfl
  have hstrip : stripTomlComment false ("[projects.".toList ++ tomlString cwd ++ "]".toList) =
      "[projects.".toList ++ tomlString cwd ++ "]".toList := by
    have hplain : ∀ c ∈ "[projects.".toList, c ≠ '"' ∧ c ≠ '#' := forall_mem_of_all (by decide)
    rw [List.append_assoc, stripTomlComment_plain hplain, stripTomlComment_string]
    rfl
  have htrim : trim ("[projects.".toList ++ tomlString cwd ++ "]".toList) =
      "[projects.".toList ++ tomlString cwd ++ "]".toList := by
    refine trim_eq_self (fun c hc => ?_) fun c hc => ?_
    · rw [hline] at hc
      obtain rfl := Option.some.inj hc
      decide
    · have hlast : "]".toList = [']'] := rfl
      rw [hlast, List.getLast?_concat] at hc
      obtain rfl := Option.some.inj hc
      decide
  rw [readTomlLine, hstrip, htrim, hline]
  simp only [if_neg (List.cons_ne_nil _ _)]
  have hmatch : ∀ rest, sectionMatch? ('[' :: 'p' :: rest) = sectionBody? ('p' :: rest) := by
    intro rest
    rw [sectionMatch?]
    simp
  have hassign : ∀ rest, assignment? ('[' :: rest) = none := fun rest => rfl
  rw [hmatch, hassign]
  cases hbody : sectionBody? ('p' :: ("rojects.".toList ++ (tomlString cwd ++ "]".toList))) with
  | none => exact .inl rfl
  | some table => exact .inr ⟨table, rfl⟩

end

/-! ## The lines -/

/-- What the reader sees of the file, without the tables that it never looks into. -/
def codexConfigReading (command : String) (args : List String) (hookCommand : List Char) :
    List TomlLine := [
  .assignment "sandbox_mode".toList "\"workspace-write\"".toList,
  .assignment "approval_policy".toList "\"never\"".toList,
  .section "features".toList,
  .assignment "hooks".toList "true".toList,
  .section "mcp_servers.co".toList,
  .assignment "type".toList "\"stdio\"".toList,
  .assignment "command".toList (tomlString command.toList),
  .assignment "args".toList (tomlArray (args.map String.toList)),
  .assignment "required".toList "true".toList,
  .assignment "startup_timeout_sec".toList "60".toList,
  .assignment "default_tools_approval_mode".toList "\"approve\"".toList,
  .section "hooks.PreToolUse".toList,
  .assignment "matcher".toList "\"Bash\"".toList,
  .section "hooks.PreToolUse.hooks".toList,
  .assignment "type".toList "\"command\"".toList,
  .assignment "command".toList (tomlString hookCommand)]

theorem readTomlLine_tomlAssignment {key value : String} (hne : key.toList ≠ [])
    (hkey : ∀ c ∈ key.toList, isTomlKeyChar c = true) :
    readTomlLine (tomlAssignment key value) =
      .assignment key.toList (tomlString value.toList) :=
  readTomlLine_assignment hne hkey (tomlValue_string _)

section

variable {identity : PaneIdentity} {command : String} {args : List String}
  {mcpEnv : List (String × String)} {hookCommand : List Char} {name key current next : List Char}

/-- The table of the environment, where there is one. -/
def envTable (mcpEnv : List (String × String)) : List (List Char) :=
  let mcpEnvLines := mcpEnv.map fun (key, value) => tomlAssignment key value
  if mcpEnvLines.length > 0 then "[mcp_servers.co.env]".toList :: mcpEnvLines ++ [[]] else []

theorem valuesIn_envTable (hkeys : ∀ entry ∈ mcpEnv, isEnvVarName entry.1.toList = true)
    (henv : "mcp_servers.co.env".toList ≠ name) (rest : List TomlLine) :
    valuesIn name key ((envTable mcpEnv).map readTomlLine ++ .section next :: rest) current =
      valuesIn name key rest next := by
  refine valuesIn_table (by decide) henv (fun line hline => ?_) rest
  obtain ⟨⟨k, v⟩, hentry, rfl⟩ := List.mem_map.1 hline
  have hname := hkeys _ hentry
  refine ⟨_, _, readTomlLine_tomlAssignment (fun hnil => ?_) fun c hc =>
    isEnvVarChar_isTomlKeyChar (isEnvVarChar_of_name hname c hc)⟩
  rw [hnil] at hname
  cases hname

/-- The keys that tune the sandbox. -/
def sandboxKeyLines (identity : PaneIdentity) : List (List Char) :=
  (if identity.tmpDir.toList.length > 0 then
    [assignmentLine "writable_roots".toList (tomlArray (identity.tmpDir.toList.map String.toList))]
  else []) ++
  (if paneMayResearchWeb identity then ["network_access = true".toList] else [])

theorem mem_sandboxKeyLines {line : List Char} (h : line ∈ sandboxKeyLines identity) :
    (∃ values, line = assignmentLine "writable_roots".toList (tomlArray values)) ∨
      line = "network_access = true".toList := by
  rcases List.mem_append.1 h with h | h
  · split at h
    · exact .inl ⟨_, List.mem_singleton.1 h⟩
    · cases h
  · split at h
    · exact .inr (List.mem_singleton.1 h)
    · cases h

theorem valuesIn_sandboxLines (hsandbox : "sandbox_workspace_write".toList ≠ name)
    (rest : List TomlLine) :
    valuesIn name key ((sandboxLines identity).map readTomlLine ++ .section next :: rest) current =
      valuesIn name key rest next := by
  refine valuesIn_table (by decide) hsandbox (fun line hline => ?_) rest
  rcases mem_sandboxKeyLines hline with ⟨values, rfl⟩ | rfl
  · exact ⟨_, _, readTomlLine_assignment (by decide) (List.all_eq_true.1 (by decide))
      (tomlValue_array values)⟩
  · exact ⟨"network_access".toList, "true".toList, by decide⟩

/-- The lines that are always the same. -/
theorem readTomlLine_fixed :
    [([] : List Char), "sandbox_mode = \"workspace-write\"".toList,
      "approval_policy = \"never\"".toList, "[features]".toList, "hooks = true".toList,
      "trust_level = \"trusted\"".toList, "[mcp_servers.co]".toList, "type = \"stdio\"".toList,
      "required = true".toList, "startup_timeout_sec = 60".toList,
      "default_tools_approval_mode = \"approve\"".toList, "[[hooks.PreToolUse]]".toList,
      "matcher = \"Bash\"".toList, "[[hooks.PreToolUse.hooks]]".toList,
      "type = \"command\"".toList].map readTomlLine =
    [.blank, .assignment "sandbox_mode".toList "\"workspace-write\"".toList,
      .assignment "approval_policy".toList "\"never\"".toList, .section "features".toList,
      .assignment "hooks".toList "true".toList,
      .assignment "trust_level".toList "\"trusted\"".toList, .section "mcp_servers.co".toList,
      .assignment "type".toList "\"stdio\"".toList, .assignment "required".toList "true".toList,
      .assignment "startup_timeout_sec".toList "60".toList,
      .assignment "default_tools_approval_mode".toList "\"approve\"".toList,
      .section "hooks.PreToolUse".toList, .assignment "matcher".toList "\"Bash\"".toList,
      .section "hooks.PreToolUse.hooks".toList,
      .assignment "type".toList "\"command\"".toList] := by
  decide

/-- The lines of the file, as they are read. -/
theorem readTomlLine_codexConfigLines :
    (codexConfigLines identity command args mcpEnv hookCommand ++ [[]]).map readTomlLine =
      .assignment "sandbox_mode".toList "\"workspace-write\"".toList ::
      .assignment "approval_policy".toList "\"never\"".toList :: .blank ::
      ((sandboxLines identity).map readTomlLine ++ .section "features".toList ::
        .assignment "hooks".toList "true".toList :: .blank ::
        readTomlLine ("[projects.".toList ++ tomlString identity.cwd.toList ++ "]".toList) ::
        .assignment "trust_level".toList "\"trusted\"".toList :: .blank ::
        .section "mcp_servers.co".toList :: .assignment "type".toList "\"stdio\"".toList ::
        .assignment "command".toList (tomlString command.toList) ::
        .assignment "args".toList (tomlArray (args.map String.toList)) ::
        .assignment "required".toList "true".toList ::
        .assignment "startup_timeout_sec".toList "60".toList ::
        .assignment "default_tools_approval_mode".toList "\"approve\"".toList :: .blank ::
        ((envTable mcpEnv).map readTomlLine ++ .section "hooks.PreToolUse".toList ::
          [.assignment "matcher".toList "\"Bash\"".toList, .blank,
            .section "hooks.PreToolUse.hooks".toList,
            .assignment "type".toList "\"command\"".toList,
            .assignment "command".toList (tomlString hookCommand), .blank])) := by
  have hcommand : readTomlLine (tomlAssignment "command" command) =
      .assignment "command".toList (tomlString command.toList) :=
    readTomlLine_tomlAssignment (by decide) (List.all_eq_true.1 (by decide))
  have hhook : readTomlLine (assignmentLine "command".toList (tomlString hookCommand)) =
      .assignment "command".toList (tomlString hookCommand) :=
    readTomlLine_assignment (by decide) (List.all_eq_true.1 (by decide)) (tomlValue_string _)
  have hargs : readTomlLine (assignmentLine "args".toList (tomlArray (args.map String.toList))) =
      .assignment "args".toList (tomlArray (args.map String.toList)) :=
    readTomlLine_assignment (by decide) (List.all_eq_true.1 (by decide)) (tomlValue_array _)
  have hfixed := readTomlLine_fixed
  simp only [List.map_cons, List.map_nil, List.cons.injEq, and_true] at hfixed
  simp only [codexConfigLines, List.map_append, List.map_cons, List.map_nil, List.append_assoc,
    List.cons_append, List.nil_append, hfixed, hcommand, hargs, hhook]
  rfl

/-- The lines of the file give a key the values that the reading gives it. -/
theorem valuesIn_codexConfigLines
    (hkeys : ∀ entry ∈ mcpEnv, isEnvVarName entry.1.toList = true)
    (hsandbox : "sandbox_workspace_write".toList ≠ name)
    (henv : "mcp_servers.co.env".toList ≠ name)
    (htrust : "trust_level".toList ≠ key) :
    valuesIn name key ((codexConfigLines identity command args mcpEnv hookCommand ++ [[]]).map
        readTomlLine) [] =
      valuesIn name key (codexConfigReading command args hookCommand) [] := by
  rw [readTomlLine_codexConfigLines, codexConfigReading]
  refine valuesIn_cons_congr fun _ => valuesIn_cons_congr fun _ => ?_
  rw [valuesIn_blank, valuesIn_sandboxLines hsandbox, valuesIn_section]
  refine valuesIn_cons_congr fun _ => ?_
  -- The section of the project ends before anything is read that could be looked for.
  have hproject : ∀ lines current, valuesIn name key (.blank ::
      readTomlLine ("[projects.".toList ++ tomlString identity.cwd.toList ++ "]".toList) ::
      .assignment "trust_level".toList "\"trusted\"".toList :: .blank ::
      .section "mcp_servers.co".toList :: lines) current =
      valuesIn name key (.section "mcp_servers.co".toList :: lines) current := by
    intro lines current
    rcases readTomlLine_project identity.cwd.toList with hline | ⟨table, hline⟩
    · rw [hline, valuesIn_blank, valuesIn_other, valuesIn_assignment_of_ne htrust, valuesIn_blank]
    · rw [hline, valuesIn_blank, valuesIn_section, valuesIn_assignment_of_ne htrust, valuesIn_blank,
        valuesIn_section, valuesIn_section]
  rw [hproject]
  refine valuesIn_cons_congr fun _ => valuesIn_cons_congr fun _ => valuesIn_cons_congr fun _ =>
    valuesIn_cons_congr fun _ => valuesIn_cons_congr fun _ => valuesIn_cons_congr fun _ =>
    valuesIn_cons_congr fun _ => ?_
  rw [valuesIn_blank, valuesIn_envTable hkeys henv, valuesIn_section]
  refine valuesIn_cons_congr fun _ => ?_
  rw [valuesIn_blank]
  exact valuesIn_cons_congr fun _ => valuesIn_cons_congr fun _ => valuesIn_cons_congr fun _ => rfl

theorem oneLine_assignmentLine {key value : List Char} (hkey : OneLine key)
    (hvalue : OneLine value) : OneLine (assignmentLine key value) := by
  have hsign : OneLine [' ', '=', ' '] := by decide
  exact hkey.append (hsign.append hvalue)

theorem oneLine_of_isTomlKeyChar {key : List Char} (h : ∀ c ∈ key, isTomlKeyChar c = true) :
    OneLine key :=
  ⟨fun hmem => absurd (h _ hmem) (by decide), fun hmem => absurd (h _ hmem) (by decide)⟩

theorem oneLine_table {header : List Char} {entries : List (List Char)} (hheader : OneLine header)
    (hentries : ∀ line ∈ entries, OneLine line) :
    ∀ line ∈ (if entries.length > 0 then header :: entries ++ [[]] else []), OneLine line := by
  intro line hline
  split at hline
  · rcases List.mem_append.1 hline with hline | hline
    · rcases List.mem_cons.1 hline with rfl | hline
      · exact hheader
      · exact hentries line hline
    · obtain rfl := List.mem_singleton.1 hline
      decide
  · cases hline

/-- No line of the file is cut, whatever the strings of the pane are. -/
theorem oneLine_codexConfigLines
    (hkeys : ∀ entry ∈ mcpEnv, isEnvVarName entry.1.toList = true) :
    ∀ line ∈ codexConfigLines identity command args mcpEnv hookCommand, OneLine line := by
  have hsandbox : ∀ line ∈ sandboxLines identity, OneLine line := by
    refine oneLine_table (by decide) fun line hline => ?_
    rcases mem_sandboxKeyLines hline with ⟨values, rfl⟩ | rfl
    · exact oneLine_assignmentLine (by decide) (oneLine_array values)
    · decide
  have henv : ∀ line ∈ envTable mcpEnv, OneLine line := by
    refine oneLine_table (by decide) fun line hline => ?_
    obtain ⟨⟨k, v⟩, hentry, rfl⟩ := List.mem_map.1 hline
    have hname := isEnvVarChar_of_name (hkeys _ hentry)
    exact oneLine_assignmentLine
      (oneLine_of_isTomlKeyChar fun c hc => isEnvVarChar_isTomlKeyChar (hname c hc))
      (oneLine_string _)
  have hproject :
      OneLine ("[projects.".toList ++ tomlString identity.cwd.toList ++ "]".toList) := by
    have hopen : OneLine "[projects.".toList := by decide
    exact (hopen.append (oneLine_string _)).append (by decide)
  have hcommand : ∀ value, OneLine (assignmentLine "command".toList (tomlString value)) :=
    fun value => oneLine_assignmentLine (by decide) (oneLine_string value)
  have hargs : OneLine (assignmentLine "args".toList (tomlArray (args.map String.toList))) :=
    oneLine_assignmentLine (by decide) (oneLine_array _)
  have hcons : ∀ {line : List Char} {lines : List (List Char)}, OneLine line →
      (∀ l ∈ lines, OneLine l) → ∀ l ∈ line :: lines, OneLine l :=
    fun hline hlines => List.forall_mem_cons.2 ⟨hline, hlines⟩
  refine List.forall_mem_append.2 ⟨List.forall_mem_append.2 ⟨List.forall_mem_append.2
    ⟨List.forall_mem_append.2 ⟨by decide, hsandbox⟩, ?_⟩, henv⟩, ?_⟩
  · refine hcons (by decide) (hcons (by decide) (hcons (by decide) (hcons hproject ?_)))
    refine hcons (by decide) (hcons (by decide) (hcons (by decide) (hcons (by decide) ?_)))
    exact hcons (hcommand _) (hcons hargs (by decide))
  · refine hcons (by decide) (hcons (by decide) (hcons (by decide) (hcons (by decide) ?_)))
    exact hcons (by decide) (hcons (hcommand _) (by decide))

/-- The text of the file, read for one key. -/
theorem tomlActiveAssignmentValue_codexConfig
    (hkeys : ∀ entry ∈ mcpEnv, isEnvVarName entry.1.toList = true)
    (hsandbox : "sandbox_workspace_write".toList ≠ name)
    (henv : "mcp_servers.co.env".toList ≠ name) (htrust : "trust_level".toList ≠ key)
    {value : List Char}
    (hvalue : valuesIn name key (codexConfigReading command args hookCommand) [] = [value]) :
    tomlActiveAssignmentValue (['\n'].intercalate
        (codexConfigLines identity command args mcpEnv hookCommand) ++ ['\n']) name key =
      some value := by
  have hlines : codexConfigLines identity command args mcpEnv hookCommand ≠ [] :=
    List.cons_ne_nil _ _
  have hone := @oneLine_codexConfigLines identity command args mcpEnv hookCommand hkeys
  rw [tomlActiveAssignmentValue, Splitting.intercalate_append_sep hlines, splitLines_lines hone,
    assignmentIn_eq, valuesIn_codexConfigLines hkeys hsandbox henv htrust, hvalue]
  rfl

end

end Orchestration.Permissions
