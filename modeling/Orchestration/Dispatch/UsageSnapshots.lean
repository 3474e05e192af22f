import Orchestration.Dispatch.Policy
import Orchestration.Dispatch.Store

/-!
# What a usage snapshot leaves

A snapshot is recorded as samples, folded one after the other: the first forgets the windows
of the account, each of the others brings one, and the last may say that the account could
not be read. After it the account is pictured by this snapshot alone.
-/

namespace Orchestration.Dispatch

open Fallible Transaction

/-! ## Reading the headroom -/

def getHeadroom (t : UsageTables) (provider : Provider) (account windowKind : String) : Headroom :=
  deriveHeadroom (selectUsageAccount t provider account)
    (selectUsageBucket t provider account windowKind)

/-- A label alone names an account when one provider has it. -/
def assertAccountOnlyUnambiguous (kind account : String) (providers : List Provider) :
    Except String Unit :=
  refuse (1 < providers.eraseDups.length)
    (s!"openDispatchStore: ambiguous account-only {kind} lookup for account '{account}' matched " ++
      "providers: " ++ ", ".intercalate (Js.sorted (providers.eraseDups.map toString)) ++
      "; use the provider-aware overload")

def singleAccountOnlyMatch {ρ : Type} (kind account : String) (provider : ρ → Provider)
    (rows : List ρ) : Except String (Option ρ) := do
  assertAccountOnlyUnambiguous kind account (rows.map provider)
  return rows.head?

/-- The headroom of the account with this label, whichever provider has it. -/
def getHeadroomAccountOnly (t : UsageTables) (account windowKind : String) :
    Except String Headroom := do
  let accounts := t.accounts.rows.filter (·.account == account)
  let buckets := t.buckets.rows.filter (·.account == account)
  assertAccountOnlyUnambiguous "headroom" account
    (accounts.map (·.provider) ++ buckets.map (·.provider))
  let status ← singleAccountOnlyMatch "account status" account (·.provider) accounts
  let bucket ← singleAccountOnlyMatch "bucket" account (·.provider)
    (buckets.filter (·.windowKind == windowKind))
  return deriveHeadroom status bucket

/-! ## One sample -/

/-- The status of an account that no provider read has confirmed. -/
def Seed (t : UsageTables) (provider : Provider) (account : String) : Prop :=
  ∃ row, selectUsageAccount t provider account = some row ∧
    row.source = ACCOUNT_STATUS_SEED_SOURCE

/-- What a sample leaves of the other accounts: everything but the placeholders of its provider. -/
structure LeavesOthers (provider : Provider) (account : String) (t t' : UsageTables) : Prop where
  buckets : ∀ other kind, other ≠ (provider, account) →
    selectUsageBucket t' other.1 other.2 kind = selectUsageBucket t other.1 other.2 kind
  accounts : ∀ other, other ≠ (provider, account) →
    selectUsageAccount t' other.1 other.2 = selectUsageAccount t other.1 other.2 ∨
      other.1 = provider ∧ Seed t other.1 other.2 ∧ selectUsageAccount t' other.1 other.2 = none

theorem LeavesOthers.refl {provider : Provider} {account : String} (t : UsageTables) :
    LeavesOthers provider account t t where
  buckets _ _ _ := rfl
  accounts _ _ := .inl rfl

theorem LeavesOthers.trans {provider : Provider} {account : String} {t t' t'' : UsageTables}
    (h : LeavesOthers provider account t t') (h' : LeavesOthers provider account t' t'') :
    LeavesOthers provider account t t'' where
  buckets other kind hother := (h'.buckets other kind hother).trans (h.buckets other kind hother)
  accounts other hother := by
    rcases h.accounts other hother with hsame | ⟨hprovider, hseed, hgone⟩
    · rcases h'.accounts other hother with hsame' | ⟨hprovider, ⟨row, hrow, hsource⟩, hgone⟩
      · exact .inl (hsame'.trans hsame)
      · exact .inr ⟨hprovider, ⟨row, hsame ▸ hrow, hsource⟩, hgone⟩
    · rcases h'.accounts other hother with hsame' | ⟨-, ⟨row, hrow, -⟩, -⟩
      · exact .inr ⟨hprovider, hseed, hsame'.trans hgone⟩
      · rw [hgone] at hrow
        cases hrow

theorem selectUsageAccount_upsert (t : UsageTables) (row : UsageAccountRow) (provider : Provider)
    (account : String) : selectUsageAccount (upsertAccount t row) provider account =
      if (provider, account) = row.key then some row
      else selectUsageAccount t provider account := by
  rw [selectUsageAccount, upsertAccount, Table.find?_upsert]
  split
  · next hkey =>
    cases hfind : t.accounts.find? (provider, account) with
    | none => rfl
    | some old =>
      have hold := (Table.find?_eq_some.1 hfind).2.trans hkey
      simp only [UsageAccountRow.key, Prod.mk.injEq] at hold
      simp [hold]
  · rfl

/-- What the removal of the placeholders leaves. -/
theorem selectUsageAccount_removeSeed (t : UsageTables) (provider : Provider)
    (observed source : String) (other : Provider × String) :
    selectUsageAccount (removeSeedAccountsForProvider t provider observed source) other.1 other.2 =
        selectUsageAccount t other.1 other.2 ∨
      other ≠ (provider, observed) ∧ other.1 = provider ∧ Seed t other.1 other.2 ∧
        selectUsageAccount (removeSeedAccountsForProvider t provider observed source)
          other.1 other.2 = none := by
  unfold removeSeedAccountsForProvider
  split
  · exact .inl rfl
  · simp only [selectUsageAccount, Table.find?_filter, Seed]
    cases hfind : t.accounts.find? (other.1, other.2) with
    | none => exact .inl rfl
    | some row =>
      have hkey := (Table.find?_eq_some.1 hfind).2
      simp only [UsageAccountRow.key, Prod.mk.injEq] at hkey
      by_cases hseed : row.provider = provider ∧ row.account ≠ observed ∧
          row.source = ACCOUNT_STATUS_SEED_SOURCE
      · obtain ⟨hprovider, haccount, hsource⟩ := hseed
        refine .inr ⟨?_, hkey.1.symm.trans hprovider, ⟨row, rfl, hsource⟩, ?_⟩
        · rintro rfl
          exact haccount hkey.2
        · simp [hprovider, haccount, hsource]
      · refine .inl ?_
        simp only [Option.filter_some, ite_eq_left_iff]
        intro hremoved
        simp at hremoved
        exact absurd ⟨hremoved.1.1, hremoved.1.2, hremoved.2⟩ hseed

/-- The status of an account that was observed, and what the others keep. -/
theorem accounts_of_observed (t : UsageTables) (row : UsageAccountRow) :
    let t' := removeSeedAccountsForProvider (upsertAccount t row) row.provider row.account
      row.source
    selectUsageAccount t' row.provider row.account = some row ∧
      LeavesOthers row.provider row.account t t' ∧ t'.buckets = t.buckets := by
  intro t'
  have hbuckets : t'.buckets = t.buckets := by
    unfold t' removeSeedAccountsForProvider
    split <;> rfl
  have hsame : ∀ other, other ≠ (row.provider, row.account) →
      selectUsageAccount (upsertAccount t row) other.1 other.2 =
        selectUsageAccount t other.1 other.2 := by
    intro other hother
    rw [selectUsageAccount_upsert]
    exact if_neg hother
  refine ⟨?_, ⟨fun other kind _ => by rw [selectUsageBucket, hbuckets, selectUsageBucket], ?_⟩,
    hbuckets⟩
  · rcases selectUsageAccount_removeSeed (upsertAccount t row) row.provider row.account row.source
      (row.provider, row.account) with hkept | ⟨hne, -⟩
    · refine hkept.trans ?_
      rw [selectUsageAccount_upsert]
      exact if_pos rfl
    · exact absurd rfl hne
  · intro other hother
    rcases selectUsageAccount_removeSeed (upsertAccount t row) row.provider row.account row.source
      other with hkept | ⟨-, hprovider, hseed, hgone⟩
    · exact .inl (hkept.trans (hsame other hother))
    · refine .inr ⟨hprovider, ?_, hgone⟩
      rw [Seed, hsame other hother] at hseed
      exact hseed

/-- A window as a provider reports it. -/
def UsageBucketRow.window (row : UsageBucketRow) : UsageWindow where
  kind := row.windowKind
  usedPct := row.usedPct
  resetAt := row.resetAt

/-- The last report of a kind of window. -/
def lastOfKind (windows : List UsageWindow) (kind : String) : Option UsageWindow :=
  windows.reverse.find? (·.kind = kind)

theorem lastOfKind_concat (windows : List UsageWindow) (w : UsageWindow) (kind : String) :
    lastOfKind (windows ++ [w]) kind = if w.kind = kind then some w else lastOfKind windows kind := by
  by_cases hkind : w.kind = kind <;> simp [lastOfKind, hkind]

/-- The account is available, its windows are the last reports of their kinds, and the other
accounts are as they were. -/
structure Pictured (provider : Provider) (account : String) (windows : List UsageWindow)
    (t t' : UsageTables) : Prop where
  available : ∃ row, selectUsageAccount t' provider account = some row ∧ row.available = true
  windows : ∀ kind, (selectUsageBucket t' provider account kind).map (·.window) =
    lastOfKind windows kind
  others : LeavesOthers provider account t t'

/-- What an available sample does to the tables of the accounts, after its window. -/
theorem apply_available {t t' : UsageTables} {event : StoredEvent DispatchEvent}
    {obs : UsageObservedAvailable}
    (h : UsageProjector.apply t event (.available obs) = .ok t') :
    (∃ row, selectUsageAccount t' obs.provider obs.account = some row ∧ row.available = true) ∧
      LeavesOthers obs.provider obs.account (applyUsageWindow t obs event.ts) t' ∧
      t'.buckets = (applyUsageWindow t obs event.ts).buckets := by
  obtain ⟨_, -, h⟩ := bind_eq_ok.1 h
  have htables := pure_eq_ok.1 h
  obtain ⟨hstatus, hothers, hbuckets⟩ := accounts_of_observed (applyUsageWindow t obs event.ts) {
    provider := obs.provider
    account := obs.account
    available := true
    reason := none
    source := obs.source
    sampledAt := obs.sampledAt
    ts := event.ts }
  rw [← htables]
  exact ⟨⟨_, hstatus, rfl⟩, hothers, hbuckets⟩

theorem apply_unavailable {t t' : UsageTables} {event : StoredEvent DispatchEvent}
    {obs : UsageObservedUnavailable}
    (h : UsageProjector.apply t event (.unavailable obs) = .ok t') :
    (∃ row, selectUsageAccount t' obs.provider obs.account = some row ∧ row.available = false) ∧
      LeavesOthers obs.provider obs.account t t' ∧ t'.buckets = t.buckets := by
  obtain ⟨_, -, h⟩ := bind_eq_ok.1 h
  have htables := pure_eq_ok.1 h
  obtain ⟨hstatus, hothers, hbuckets⟩ := accounts_of_observed t {
    provider := obs.provider
    account := obs.account
    available := false
    reason := some obs.reason
    source := obs.source
    sampledAt := obs.sampledAt
    ts := event.ts }
  rw [← htables]
  exact ⟨⟨_, hstatus, rfl⟩, hothers, hbuckets⟩

theorem selectUsageBucket_of_window {t : UsageTables} {obs : UsageObservedAvailable} {ts : ℕ}
    {w : UsageWindow} (hwindow : obs.windowKind = some w.kind) (hused : obs.usedPct = some w.usedPct)
    (hreset : obs.resetAt = some w.resetAt) (provider : Provider) (account kind : String) :
    selectUsageBucket (applyUsageWindow t obs ts) provider account kind =
      if (provider, account, kind) = (obs.provider, obs.account, w.kind) then
        some {
          provider := obs.provider
          account := obs.account
          windowKind := w.kind
          usedPct := w.usedPct
          resetAt := w.resetAt
          source := obs.source
          sampledAt := obs.sampledAt
          ts }
      else selectUsageBucket t provider account kind := by
  simp only [applyUsageWindow, hwindow, hused, hreset, selectUsageBucket, Table.find?_upsert]
  refine ite_congr rfl (fun hkey => ?_) fun _ => rfl
  cases hfind : t.buckets.find? (provider, account, kind) with
  | none => rfl
  | some old =>
    have hold := (Table.find?_eq_some.1 hfind).2.trans hkey
    simp only [UsageBucketRow.key, Prod.mk.injEq] at hold
    simp [hold]

theorem selectUsageBucket_of_clear {t : UsageTables} {obs : UsageObservedAvailable} {ts : ℕ}
    (hnone : obs.windowKind = none) (provider : Provider) (account kind : String) :
    selectUsageBucket (applyUsageWindow t obs ts) provider account kind =
      if (provider, account) = (obs.provider, obs.account) then none
      else selectUsageBucket t provider account kind := by
  simp only [applyUsageWindow, hnone, selectUsageBucket, Table.find?_filter]
  cases hfind : t.buckets.find? (provider, account, kind) with
  | none => simp
  | some row =>
    have hkey := (Table.find?_eq_some.1 hfind).2
    simp only [UsageBucketRow.key, Prod.mk.injEq] at hkey
    rw [Option.filter_some, hkey.1, hkey.2.1]
    by_cases hmine : provider = obs.provider ∧ account = obs.account
    · simp [hmine]
    · have hother := not_and_or.1 hmine
      rw [if_pos (by simpa using hother), if_neg (by simpa using hmine)]

/-- The window of a sample is the account's own: the status of every account and the windows of
the others are as they were. -/
theorem leavesOthers_of_window {t : UsageTables} {obs : UsageObservedAvailable} {ts : ℕ}
    (hcomplete : obs.windowKind = none ∨ ∃ w : UsageWindow, obs.windowKind = some w.kind ∧
      obs.usedPct = some w.usedPct ∧ obs.resetAt = some w.resetAt) :
    LeavesOthers obs.provider obs.account t (applyUsageWindow t obs ts) where
  buckets other kind hother := by
    obtain hnone | ⟨w, hwindow, hused, hreset⟩ := hcomplete
    · rw [selectUsageBucket_of_clear hnone]
      exact if_neg hother
    · rw [selectUsageBucket_of_window hwindow hused hreset]
      refine if_neg fun hkey => hother ?_
      simp only [Prod.mk.injEq] at hkey
      exact Prod.ext hkey.1 hkey.2.1
  accounts other _ := by
    left
    unfold applyUsageWindow
    split <;> rfl

/-- A sample without a window forgets the windows of its account. -/
theorem Pictured.clear {t t' : UsageTables} {event : StoredEvent DispatchEvent}
    {obs : UsageObservedAvailable} (hnone : obs.windowKind = none)
    (h : UsageProjector.apply t event (.available obs) = .ok t') :
    Pictured obs.provider obs.account [] t t' := by
  obtain ⟨hstatus, hothers, hbuckets⟩ := apply_available h
  refine ⟨hstatus, fun kind => ?_, (leavesOthers_of_window (.inl hnone)).trans hothers⟩
  have hselect := @selectUsageBucket_of_clear t obs event.ts hnone obs.provider obs.account kind
  rw [selectUsageBucket, hbuckets]
  rw [selectUsageBucket, if_pos rfl] at hselect
  rw [hselect]
  rfl

/-- A window is put in the place of the one of its kind. -/
theorem Pictured.window {t₀ t t' : UsageTables} {event : StoredEvent DispatchEvent}
    {obs : UsageObservedAvailable} {windows : List UsageWindow} {w : UsageWindow}
    (hpicture : Pictured obs.provider obs.account windows t₀ t)
    (hwindow : obs.windowKind = some w.kind) (hused : obs.usedPct = some w.usedPct)
    (hreset : obs.resetAt = some w.resetAt)
    (h : UsageProjector.apply t event (.available obs) = .ok t') :
    Pictured obs.provider obs.account (windows ++ [w]) t₀ t' := by
  obtain ⟨hstatus, hothers, hbuckets⟩ := apply_available h
  refine ⟨hstatus, fun kind => ?_, hpicture.others.trans
    ((leavesOthers_of_window (.inr ⟨w, hwindow, hused, hreset⟩)).trans hothers)⟩
  have hselect := @selectUsageBucket_of_window t obs event.ts w hwindow hused hreset obs.provider
    obs.account kind
  rw [lastOfKind_concat, selectUsageBucket, hbuckets]
  rw [selectUsageBucket] at hselect
  rw [hselect]
  by_cases hkind : w.kind = kind
  · rw [if_pos hkind, if_pos (by rw [hkind])]
    rfl
  · rw [if_neg hkind, if_neg (by simpa using Ne.symm hkind)]
    exact hpicture.windows kind

/-! ## The samples of a snapshot -/

/-- The event of a sample. -/
def usageEvent (obs : UsageObserved) : NewEvent DispatchEvent where
  scope := usageScope s!"{obs.provider}:{obs.account}"
  v := 1
  payload := .usageObserved obs

theorem usage_of_commit {db db' : Db} {obs : UsageObserved}
    (h : db.commit (toProject (usageEvent obs)) = .ok db') :
    ∃ event, UsageProjector.apply db.usage event obs = .ok db'.usage := by
  obtain ⟨hfolded, -⟩ := folded_of_commit h
  have hpayload' : (db.stored (toProject (usageEvent obs))).payload =
    .dispatch (.usageObserved obs) := rfl
  generalize db'.toProjections = t at hfolded ⊢
  cases hfolded with
  | usage hpayload happly =>
    cases hpayload.symm.trans hpayload'
    exact ⟨_, happly⟩
  | cost hpayload happly hcost => cases hpayload.symm.trans hpayload' <;> cases hcost
  | mail hpayload | review hpayload | worktree hpayload | placement hpayload
  | toolUsage hpayload | plan hpayload | roles hpayload | session hpayload | archive hpayload =>
    cases hpayload.symm.trans hpayload'

/-- The sample that forgets the windows of the account. -/
def UsageSnapshot.clear (snapshot : UsageSnapshot) : UsageObservedAvailable where
  provider := snapshot.provider
  account := snapshot.account
  source := snapshot.source
  sampledAt := snapshot.sampledAt

/-- The sample of a window. -/
def UsageSnapshot.sample (snapshot : UsageSnapshot) (w : UsageWindow) : UsageObservedAvailable where
  provider := snapshot.provider
  account := snapshot.account
  windowKind := w.kind
  usedPct := w.usedPct
  resetAt := w.resetAt
  source := snapshot.source
  sampledAt := snapshot.sampledAt

/-- The samples that say what the account's windows are. -/
def UsageSnapshot.windowSamples (snapshot : UsageSnapshot) : List UsageObserved :=
  .available snapshot.clear :: snapshot.windows.map fun w => .available (snapshot.sample w)

/-- The sample that says that the account could not be read. -/
def UsageSnapshot.unavailable (snapshot : UsageSnapshot) : UsageObservedUnavailable where
  provider := snapshot.provider
  account := snapshot.account
  reason := s!"usage source '{snapshot.source}' reported account '{snapshot.account}' unavailable"
  source := snapshot.source
  sampledAt := snapshot.sampledAt

/-- A snapshot ends in a sample that it could not be read, or brings its windows. -/
theorem samples_of_snapshot {snapshot : UsageSnapshot} {events : List (NewEvent DispatchEvent)}
    (h : snapshotToObservedEvents snapshot = .ok events) :
    (snapshot.available = true ∧ events = snapshot.windowSamples.map usageEvent) ∨
    (snapshot.available = false ∧ ∃ earlier : List UsageObserved,
      (earlier = [] ∨ earlier = snapshot.windowSamples) ∧
        events = (earlier ++ [UsageObserved.unavailable snapshot.unavailable]).map usageEvent) := by
  have hevents := eq_map_of_mapM (g := usageEvent)
    (fun obs e he => (makeUsageObservedEvent_eq_ok he).2) h
  cases havailable : snapshot.available with
  | true =>
    refine .inl ⟨rfl, ?_⟩
    rw [hevents, havailable, if_pos rfl]
    rfl
  | false =>
    rw [hevents, havailable, if_neg Bool.false_ne_true]
    refine .inr ⟨rfl, ?_⟩
    split
    · exact ⟨[], .inl rfl, rfl⟩
    · exact ⟨_, .inr rfl, rfl⟩

/-- The windows of a snapshot, one after the other. -/
theorem Pictured.windows_of_commitAll {snapshot : UsageSnapshot} {t₀ : UsageTables} {db db' : Db}
    {seen : List UsageWindow} (ws : List UsageWindow)
    (hpicture : Pictured snapshot.provider snapshot.account seen t₀ db.usage)
    (h : db.commitAll ((ws.map fun w => UsageObserved.available (snapshot.sample w)).map
      fun obs => toProject (usageEvent obs)) = .ok db') :
    Pictured snapshot.provider snapshot.account (seen ++ ws) t₀ db'.usage := by
  induction ws generalizing db seen with
  | nil =>
    cases h
    rwa [List.append_nil]
  | cons w ws ih =>
    obtain ⟨mid, hmid, hrest⟩ := Db.commitAll_cons.1 h
    obtain ⟨event, happly⟩ := usage_of_commit hmid
    have hwindow : Pictured snapshot.provider snapshot.account (seen ++ [w]) t₀ mid.usage :=
      @Pictured.window _ _ _ _ (snapshot.sample w) _ w hpicture rfl rfl rfl happly
    rw [List.append_cons]
    exact ih hwindow hrest

theorem pictured_of_windowSamples {snapshot : UsageSnapshot} {db db' : Db}
    (h : db.commitAll ((snapshot.windowSamples.map usageEvent).map toProject) = .ok db') :
    Pictured snapshot.provider snapshot.account snapshot.windows db.usage db'.usage := by
  rw [List.map_map, UsageSnapshot.windowSamples, List.map_cons] at h
  obtain ⟨mid, hmid, hrest⟩ := Db.commitAll_cons.1 h
  obtain ⟨event, happly⟩ := usage_of_commit hmid
  exact Pictured.windows_of_commitAll snapshot.windows
    (@Pictured.clear _ _ _ snapshot.clear rfl happly) hrest

/-! ## The picture -/

/-- What an available account's headroom is read as. -/
def headroomOf : Option UsageWindow → Headroom
  | some w => .known w.usedPct w.resetAt
  | none => .unknown "no usage observed for this window"

theorem Pictured.headroom {provider : Provider} {account : String} {windows : List UsageWindow}
    {t t' : UsageTables} (h : Pictured provider account windows t t') (kind : String) :
    getHeadroom t' provider account kind = headroomOf (lastOfKind windows kind) := by
  obtain ⟨row, hrow, havailable⟩ := h.available
  rw [getHeadroom, hrow, ← h.windows kind]
  simp only [deriveHeadroom, havailable, if_true]
  cases selectUsageBucket t' provider account kind <;> rfl

theorem headroom_of_unavailable {t : UsageTables} {provider : Provider} {account : String}
    {row : UsageAccountRow} (hrow : selectUsageAccount t provider account = some row)
    (hunavailable : row.available = false) (bucket : Option UsageBucketRow) :
    deriveHeadroom (selectUsageAccount t provider account) bucket =
      .unknown (row.reason.getD "usage source unavailable") := by
  rw [hrow]
  simp [deriveHeadroom, hunavailable]

theorem eq_of_unambiguous {kind account : String} {providers : List Provider} {p q : Provider}
    (h : assertAccountOnlyUnambiguous kind account providers = .ok ()) (hp : p ∈ providers)
    (hq : q ∈ providers) : p = q := by
  have hone := refuse_eq_ok.1 h
  rw [← List.mem_eraseDups] at hp hq
  match hdups : providers.eraseDups with
  | [] => rw [hdups] at hp; cases hp
  | [r] =>
    rw [hdups, List.mem_singleton] at hp hq
    exact hp.trans hq.symm
  | _ :: _ :: _ => simp [hdups] at hone

/-- Rows of one provider only: the first with a label is the row of that provider. -/
theorem head?_of_unambiguous {t : UsageTables} {provider : Provider} {account : String}
    {row : UsageAccountRow} (hrow : selectUsageAccount t provider account = some row)
    {kind : String} (h : assertAccountOnlyUnambiguous kind account
      ((t.accounts.rows.filter (·.account == account)).map (·.provider)) = .ok ()) :
    (t.accounts.rows.filter (·.account == account)).head? = some row := by
  obtain ⟨hmem, hkey⟩ := Table.find?_eq_some.1 hrow
  simp only [UsageAccountRow.key, Prod.mk.injEq] at hkey
  have hlabel : row ∈ t.accounts.rows.filter (·.account == account) :=
    List.mem_filter.2 ⟨hmem, by simp [hkey.2]⟩
  cases hfirst : (t.accounts.rows.filter (·.account == account)).head? with
  | none =>
    rw [List.head?_eq_none_iff] at hfirst
    rw [hfirst] at hlabel
    cases hlabel
  | some first =>
    have hmem' := List.mem_of_mem_head? (Option.mem_def.2 hfirst)
    obtain ⟨hfirstMem, hfirstAccount⟩ := List.mem_filter.1 hmem'
    have hprovider := eq_of_unambiguous h (List.mem_map_of_mem hmem') (List.mem_map_of_mem hlabel)
    have haccount : first.account = row.account := by
      rw [hkey.2]
      simpa using hfirstAccount
    exact congrArg some (Table.eq_of_key_eq hfirstMem hmem (Prod.ext hprovider haccount))

/-- An account that could not be read has no known headroom, asked for by its provider and label
or by its label alone. -/
theorem unknown_of_unavailable {t : UsageTables} {provider : Provider} {account : String}
    {row : UsageAccountRow} (hrow : selectUsageAccount t provider account = some row)
    (hunavailable : row.available = false) (kind : String) :
    (∃ reason, getHeadroom t provider account kind = .unknown reason) ∧
      ∀ headroom, getHeadroomAccountOnly t account kind = .ok headroom →
        ∃ reason, headroom = .unknown reason := by
  refine ⟨⟨_, headroom_of_unavailable hrow hunavailable _⟩, ?_⟩
  intro headroom h
  obtain ⟨_, -, h⟩ := bind_eq_ok.1 h
  obtain ⟨status, hstatus, h⟩ := bind_eq_ok.1 h
  obtain ⟨bucket, -, h⟩ := bind_eq_ok.1 h
  obtain ⟨_, hunambiguous, hhead⟩ := bind_eq_ok.1 hstatus
  have hfirst := head?_of_unambiguous hrow hunambiguous
  rw [← pure_eq_ok.1 h, ← pure_eq_ok.1 hhead, hfirst]
  exact ⟨_, by simp only [deriveHeadroom, hunavailable]; rfl⟩

/-- A snapshot that is recorded replaces the picture of its account: after an available one the
windows are the last of each kind that it reports, after an unavailable one the headroom is
unknown. The windows of every other account stay, and so do the statuses, but for placeholders
of the provider. -/
theorem recordSnapshot_replaces {db db' : Db} {snapshot : UsageSnapshot} {result}
    (h : recordSnapshot snapshot db = .ok (result, db')) :
    (snapshot.available = true → ∀ kind,
      (selectUsageBucket db'.usage snapshot.provider snapshot.account kind).map (·.window) =
          lastOfKind snapshot.windows kind ∧
        getHeadroom db'.usage snapshot.provider snapshot.account kind =
          headroomOf (lastOfKind snapshot.windows kind)) ∧
    (snapshot.available = false → ∀ kind,
      (∃ reason, getHeadroom db'.usage snapshot.provider snapshot.account kind =
          .unknown reason) ∧
        ∀ headroom, getHeadroomAccountOnly db'.usage snapshot.account kind = .ok headroom →
          ∃ reason, headroom = .unknown reason) ∧
    LeavesOthers snapshot.provider snapshot.account db.usage db'.usage := by
  obtain ⟨events, hevents, hcommit⟩ := recordSnapshot_eq_ok h
  obtain ⟨havailable, rfl⟩ | ⟨hunavailable, earlier, hearlier, rfl⟩ := samples_of_snapshot hevents
  · have hpicture := pictured_of_windowSamples hcommit
    refine ⟨fun _ kind => ⟨hpicture.windows kind, hpicture.headroom kind⟩, ?_, hpicture.others⟩
    intro hunavailable
    rw [havailable] at hunavailable
    cases hunavailable
  · rw [List.map_append, List.map_append, Db.commitAll_append] at hcommit
    obtain ⟨mid, hmid, hlast⟩ := hcommit
    obtain ⟨last, hlast, hnil⟩ := Db.commitAll_cons.1 hlast
    cases hnil
    have hothers : LeavesOthers snapshot.provider snapshot.account db.usage mid.usage := by
      rcases hearlier with rfl | rfl
      · cases hmid
        exact .refl _
      · exact (pictured_of_windowSamples hmid).others
    obtain ⟨event, happly⟩ := usage_of_commit hlast
    obtain ⟨⟨row, hrow, hstatus⟩, hrest, -⟩ := apply_unavailable happly
    refine ⟨fun havailable => ?_, fun _ kind => unknown_of_unavailable hrow hstatus kind,
      hothers.trans hrest⟩
    rw [hunavailable] at havailable
    cases havailable

/-- A snapshot that reports the five hour window twice. -/
def twiceReported : UsageSnapshot where
  provider := .claude
  account := "claude:max"
  available := true
  windows := [⟨"five_hour", 10, "t"⟩, ⟨"five_hour", 20, "t"⟩]
  source := "probe"
  sampledAt := "s"

theorem recordSnapshot_replaces_twiceReported : ∃ db' : Db,
    getHeadroom db'.usage .claude "claude:max" "five_hour" = .known 20 "t" ∧
      getHeadroom db'.usage .claude "claude:max" "seven_day" =
        .unknown "no usage observed for this window" := by
  obtain ⟨⟨result, db'⟩, h⟩ :=
    exists_eq_ok (x := recordSnapshot twiceReported Db.atRest) (by decide +kernel)
  have hpicture := (recordSnapshot_replaces h).1 rfl
  have hfive : headroomOf (lastOfKind twiceReported.windows "five_hour") = .known 20 "t" := by
    decide +kernel
  have hseven : headroomOf (lastOfKind twiceReported.windows "seven_day") =
      .unknown "no usage observed for this window" := by
    decide +kernel
  exact ⟨db', (hpicture "five_hour").2.trans hfive, (hpicture "seven_day").2.trans hseven⟩

end Orchestration.Dispatch
