import MessageBus.Common.Globber
import MessageBus.Distributor.Roles

/-!
# Host patterns

The constructor of `core/src/JetBlack.MessageBus.Distributor/Roles/RoleManager.cs`. Of the
permissions that a feed has by host patterns it keeps the first whose pattern globs the
effective host of the connection.
-/

namespace MessageBus.Distributor
open MessageBus.Base MessageBus.Common

/-- The permissions of a feed by host patterns. -/
abbrev HostPermissions := Dictionary String Permission

variable (toUpper : UInt16 → UInt16)

/-- `host.Glob(pattern)`. -/
def globHost (host pattern : String) : Except Exception Bool :=
  Globber.glob toUpper (codeUnits host) (codeUnits pattern)

/-- The permission of the first pattern that globs the host, or one that allows nothing
and denies everything, `RoleManager.cs:28`. Patterns after the first are not looked at. -/
def firstPermission (host : String) :
    List (Sigma fun _ : String => Permission) → Except Exception Permission
  | [] => .ok ⟨.none, .all⟩
  | x :: hosts =>
    match globHost toUpper host x.1 with
    | .error e => .error e
    | .ok true => .ok x.2
    | .ok false => firstPermission host hosts

/-- `ToDictionary`, `RoleManager.cs:26–29`. -/
def selectPermissions (host : String) : List (Sigma fun _ : String => HostPermissions) →
    Dictionary String Permission → Except Exception (Dictionary String Permission)
  | [], selected => .ok selected
  | feed :: feeds, selected =>
    match firstPermission toUpper host feed.2.entries with
    | .error e => .error e
    | .ok permission =>
      if (selected.lookup feed.1).isSome then .error .argument
      else selectPermissions host feeds (selected.insert feed.1 permission)

/-- The fields that the constructor sets first, `RoleManager.cs:21–25`. -/
def RoleManager.bare (distributorPermission : DistributorRole) (host user : String)
    (impersonating forwardedFor : Option String) : RoleManager :=
  { distributorRole := distributorPermission, host, user, impersonating, forwardedFor,
    feedPermissions := ∅ }

/-- The constructor, `RoleManager.cs:13–30`. The permissions are selected for the effective
host of the fields set before them. -/
def RoleManager.new (distributorPermission : DistributorRole) (host user : String)
    (impersonating forwardedFor : Option String)
    (feedPermissions : Option (Dictionary String HostPermissions)) :
    Except Exception RoleManager :=
  let m := RoleManager.bare distributorPermission host user impersonating forwardedFor
  match feedPermissions with
  | none => .ok m
  | some feedPermissions =>
    match selectPermissions toUpper m.effectiveHost feedPermissions.entries ∅ with
    | .error e => .error e
    | .ok selected => .ok { m with feedPermissions := selected }

/-! ### The patterns of one feed -/

/-- The host matches the pattern. -/
def HostMatches (host pattern : String) : Prop :=
  Globber.GlobMatches toUpper (codeUnits host) (codeUnits pattern)

/-- The pattern overruns the host. -/
def HostOverruns (host pattern : String) : Prop :=
  Globber.GlobOverruns toUpper (codeUnits host) (codeUnits pattern)

/-- No pattern overruns the host before one matches it. -/
def NoneOverruns (host : String) (hosts : List (Sigma fun _ : String => Permission)) : Prop :=
  ∀ before x after, hosts = before ++ x :: after →
    (∀ y ∈ before, ¬ HostMatches toUpper host y.1) → ¬ HostOverruns toUpper host x.1

variable {toUpper}

private theorem noneOverruns_cons_iff {host : String} {x : Sigma fun _ : String => Permission}
    {hosts : List (Sigma fun _ : String => Permission)} :
    NoneOverruns toUpper host (x :: hosts) ↔ ¬ HostOverruns toUpper host x.1 ∧
      (¬ HostMatches toUpper host x.1 → NoneOverruns toUpper host hosts) := by
  constructor
  · intro h
    refine ⟨h [] x hosts rfl (by simp), ?_⟩
    rintro hx before y after rfl hbefore
    exact h (x :: before) y after rfl (List.forall_mem_cons.mpr ⟨hx, hbefore⟩)
  · rintro ⟨hx, hrest⟩ before y after heq hbefore
    cases before with
    | nil =>
      obtain ⟨rfl, -⟩ := List.cons.inj heq
      exact hx
    | cons z before =>
      obtain ⟨rfl, rfl⟩ := List.cons.inj heq
      obtain ⟨hz, hbefore⟩ := List.forall_mem_cons.mp hbefore
      exact hrest hz before y after rfl hbefore

/-- The selection for one feed returns exactly if no pattern overruns the host before one
matches it. -/
theorem firstPermission_eq_ok_iff {host : String}
    {hosts : List (Sigma fun _ : String => Permission)} :
    (∃ permission, firstPermission toUpper host hosts = .ok permission) ↔
      NoneOverruns toUpper host hosts := by
  induction hosts with
  | nil =>
    refine iff_of_true ⟨_, rfl⟩ ?_
    intro before x after h
    simp at h
  | cons x hosts ih =>
    have hd := Globber.decides_glob toUpper (codeUnits host) (codeUnits x.1)
    rw [noneOverruns_cons_iff, firstPermission, globHost]
    cases hg : Globber.glob toUpper (codeUnits host) (codeUnits x.1) with
    | error e =>
      rw [hg] at hd
      exact iff_of_false (by simp) fun h => h.1 hd.2
    | ok b =>
      rw [hg] at hd
      obtain ⟨hmatches, hover⟩ := hd
      cases b with
      | true =>
        exact iff_of_true ⟨_, rfl⟩ ⟨hover, fun h => absurd (hmatches.mp rfl) h⟩
      | false =>
        have hno : ¬ HostMatches toUpper host x.1 := fun h => Bool.false_ne_true (hmatches.mpr h)
        exact ih.trans ⟨fun h => ⟨hover, fun _ => h⟩, fun h => h.2 hno⟩

/-! ### The table of a connection -/

/-- What selecting over a list of feeds leaves, where it returns. -/
structure Selected (toUpper : UInt16 → UInt16) (host : String)
    (feeds : List (Sigma fun _ : String => HostPermissions))
    (before after : Dictionary String Permission) : Prop where
  listed : ∀ feed ∈ feeds, ∃ permission,
    firstPermission toUpper host feed.2.entries = .ok permission ∧
      after.lookup feed.1 = some permission
  other : ∀ feed, feed ∉ feeds.map Sigma.fst → after.lookup feed = before.lookup feed

/-- Selecting over feeds that are listed once returns exactly if the selection for each of
them returns. -/
theorem selectPermissions_cases {host : String}
    {feeds : List (Sigma fun _ : String => HostPermissions)} {before : Dictionary String Permission}
    (hnodup : (feeds.map Sigma.fst).Nodup)
    (hnew : ∀ feed ∈ feeds.map Sigma.fst, before.lookup feed = none) :
    (∃ after, selectPermissions toUpper host feeds before = .ok after ∧
      Selected toUpper host feeds before after) ∨
    (∃ e, selectPermissions toUpper host feeds before = .error e) ∧
      ∃ feed ∈ feeds, ∃ e, firstPermission toUpper host feed.2.entries = .error e := by
  induction feeds generalizing before with
  | nil => exact .inl ⟨before, rfl, by simp, fun _ _ => rfl⟩
  | cons feed feeds ih =>
    rw [List.map_cons] at hnodup hnew
    obtain ⟨hfeed, hnodup⟩ := List.nodup_cons.mp hnodup
    obtain ⟨hnone, hnew⟩ := List.forall_mem_cons.mp hnew
    rw [selectPermissions]
    cases hp : firstPermission toUpper host feed.2.entries with
    | error e => exact .inr ⟨⟨e, rfl⟩, feed, List.mem_cons_self .., e, hp⟩
    | ok permission =>
      simp only [hnone, Option.isSome_none, Bool.false_eq_true, if_false]
      have hnew' : ∀ name ∈ feeds.map Sigma.fst,
          (before.insert feed.1 permission).lookup name = none := by
        intro name hname
        have hne : name ≠ feed.1 := fun h => hfeed (h ▸ hname)
        rw [Dictionary.lookup_insert, if_neg hne]
        exact hnew name hname
      rcases ih hnodup hnew' with ⟨after, hafter, hs⟩ | ⟨herror, x, hx, hthrows⟩
      · refine .inl ⟨after, hafter, ?_, ?_⟩
        · intro x hx
          rcases List.mem_cons.mp hx with rfl | hx
          · refine ⟨permission, hp, ?_⟩
            rw [hs.other _ hfeed, Dictionary.lookup_insert, if_pos rfl]
          · exact hs.listed x hx
        · intro name hname
          rw [List.map_cons, List.mem_cons, not_or] at hname
          rw [hs.other name hname.2, Dictionary.lookup_insert, if_neg hname.1]
      · exact .inr ⟨herror, x, List.mem_cons_of_mem _ hx, hthrows⟩

namespace RoleManager

variable {distributorPermission : DistributorRole} {host user : String}
  {impersonating forwardedFor : Option String}
  {feedPermissions : Option (Dictionary String HostPermissions)}

private theorem selectPermissions_table (toUpper : UInt16 → UInt16) (host : String)
    (table : Dictionary String HostPermissions) :
    (∃ after, selectPermissions toUpper host table.entries ∅ = .ok after ∧
      Selected toUpper host table.entries ∅ after) ∨
    (∃ e, selectPermissions toUpper host table.entries ∅ = .error e) ∧
      ∃ feed ∈ table.entries, ∃ e, firstPermission toUpper host feed.2.entries = .error e :=
  selectPermissions_cases table.nodupKeys fun _ _ => AList.lookup_empty _

/-- The constructor returns exactly if for every feed no host pattern overruns the
effective host before one matches it. -/
theorem new_eq_ok_iff :
    (∃ m, new toUpper distributorPermission host user impersonating forwardedFor
      feedPermissions = .ok m) ↔
      ∀ table, feedPermissions = some table → ∀ feed hosts, table.lookup feed = some hosts →
        NoneOverruns toUpper
          (bare distributorPermission host user impersonating forwardedFor).effectiveHost
          hosts.entries := by
  cases feedPermissions with
  | none => exact iff_of_true ⟨_, rfl⟩ (by simp)
  | some table =>
    simp only [new, Option.some.injEq, forall_eq', ← firstPermission_eq_ok_iff]
    rcases selectPermissions_table toUpper
      (bare distributorPermission host user impersonating forwardedFor).effectiveHost table with
      ⟨after, hafter, hs⟩ | ⟨⟨e, he⟩, feed, hfeed, e', he'⟩
    · rw [hafter]
      refine iff_of_true ⟨_, rfl⟩ ?_
      intro feed hosts hl
      obtain ⟨permission, hp, -⟩ := hs.listed ⟨feed, hosts⟩ (Dictionary.mem_entries_iff.mpr hl)
      exact ⟨permission, hp⟩
    · rw [he]
      refine iff_of_false (by simp) fun h => ?_
      obtain ⟨permission, hp⟩ := h feed.1 feed.2 (Dictionary.mem_entries_iff.mp hfeed)
      rw [he'] at hp
      cases hp

/-- What the constructor makes: the fields it is given, and for each feed of the table the
permission selected for the effective host. -/
theorem lookup_of_new {m : RoleManager} (h : new toUpper distributorPermission host user
    impersonating forwardedFor feedPermissions = .ok m) :
    m = { bare distributorPermission host user impersonating forwardedFor with
      feedPermissions := m.feedPermissions } ∧
    ∀ feed, match feedPermissions.bind (·.lookup feed) with
      | none => m.feedPermissions.lookup feed = none
      | some hosts => ∃ permission, firstPermission toUpper
          (bare distributorPermission host user impersonating forwardedFor).effectiveHost
          hosts.entries = .ok permission ∧ m.feedPermissions.lookup feed = some permission := by
  cases feedPermissions with
  | none =>
    cases h
    exact ⟨rfl, fun _ => rfl⟩
  | some table =>
    rw [new] at h
    rcases selectPermissions_table toUpper
      (bare distributorPermission host user impersonating forwardedFor).effectiveHost table with
      ⟨after, hafter, hs⟩ | ⟨⟨e, he⟩, -⟩
    · simp only [hafter] at h
      cases h
      refine ⟨rfl, fun feed => ?_⟩
      rw [Option.bind_some]
      cases hl : table.lookup feed with
      | none =>
        have hfeed : feed ∉ table.entries.map Sigma.fst := fun hm => by
          have hkey : feed ∈ table := hm
          rw [← AList.lookup_isSome, hl] at hkey
          cases hkey
        exact (hs.other feed hfeed).trans (AList.lookup_empty _)
      | some hosts => exact hs.listed ⟨feed, hosts⟩ (Dictionary.mem_entries_iff.mpr hl)
    · simp only [he] at h
      cases h

/-- `Glob` returns exactly if the pattern does not overrun the value, and a role manager is
constructed exactly if for every feed no pattern overruns the host before one matches. -/
theorem glob_never_fails_iff (toUpper : UInt16 → UInt16) :
    (∀ value pattern, (∃ b, Globber.glob toUpper value pattern = .ok b) ↔
      ¬ Globber.GlobOverruns toUpper value pattern) ∧
    ∀ distributorPermission host user impersonating forwardedFor feedPermissions,
      (∃ m, new toUpper distributorPermission host user impersonating forwardedFor
        feedPermissions = .ok m) ↔
        ∀ table, feedPermissions = some table → ∀ feed hosts, table.lookup feed = some hosts →
          NoneOverruns toUpper
            (bare distributorPermission host user impersonating forwardedFor).effectiveHost
            hosts.entries :=
  ⟨fun _ _ => Globber.glob_eq_ok_iff, fun _ _ _ _ _ _ => new_eq_ok_iff⟩

/-- A host name shorter than the wildcards of a pattern makes the matcher read past its
end, and the constructor throw. -/
theorem glob_fails_past_host :
    (¬ ∀ (toUpper : UInt16 → UInt16) value pattern,
      ∃ b, Globber.glob toUpper value pattern = .ok b) ∧
    ¬ ∀ (toUpper : UInt16 → UInt16) distributorPermission host user impersonating forwardedFor
      feedPermissions, ∃ m, new toUpper distributorPermission host user impersonating
        forwardedFor feedPermissions = .ok m := by
  have hglob : Globber.glob Globber.toUpperAscii (codeUnits "h") (codeUnits "??.local") =
      .error .indexOutOfRange := by
    decide +kernel
  constructor
  · intro hclaim
    obtain ⟨b, hb⟩ := hclaim Globber.toUpperAscii (codeUnits "h") (codeUnits "??.local")
    rw [hglob] at hb
    cases hb
  · intro hclaim
    have hover := Globber.decides_glob Globber.toUpperAscii (codeUnits "h")
      (codeUnits "??.local")
    rw [hglob] at hover
    let hosts : HostPermissions := AList.insert "??.local" ⟨.all, .none⟩ ∅
    have hreturns := new_eq_ok_iff.mp (hclaim Globber.toUpperAscii
      ⟨.subscribe, .none, false, false, false⟩ "h" "user" none none
      (some (AList.insert "F" hosts ∅)))
    exact hreturns _ rfl "F" hosts (AList.lookup_insert _) [] _ [] rfl (by simp) hover.2

end RoleManager

end MessageBus.Distributor
