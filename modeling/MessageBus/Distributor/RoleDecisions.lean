import MessageBus.Distributor.HostPatterns

/-!
# Role decisions

A role manager memoises what it decides. The rule it decides by has no memory: allow and
deny of the distributor, then allow and deny of the permission that the feed has for the
effective host, each overriding what came before.
-/

namespace MessageBus.Distributor
open MessageBus.Base MessageBus.Common

/-! ### The rule -/

/-- Allow turns a decision to true, and deny then turns it to false. -/
def override (allow deny role : Role) (decision : Bool) : Bool :=
  let decision := if allow.hasFlag role then true else decision
  if deny.hasFlag role then false else decision

/-- The pattern globs the host. -/
def globs (toUpper : UInt16 → UInt16) (host pattern : String) : Bool :=
  match globHost toUpper host pattern with
  | .ok b => b
  | .error _ => false

/-- The permission of the first host pattern that globs the host, or allow none and deny all
when none does. -/
def permissionFor (toUpper : UInt16 → UInt16) (host : String) (hosts : HostPermissions) :
    Permission :=
  match hosts.entries.find? fun x => globs toUpper host x.1 with
  | some x => x.2
  | none => ⟨.none, .all⟩

/-- Whether a role is held on a feed, without regard to what was asked before. -/
def rule (toUpper : UInt16 → UInt16) (distributorRole : DistributorRole) (effectiveHost : String)
    (feedPermissions : Option (Dictionary String HostPermissions)) (feed : String) (role : Role) :
    Bool :=
  let decision := override distributorRole.allow distributorRole.deny role false
  match feedPermissions.bind (·.lookup feed) with
  | none => decision
  | some hosts =>
    let permission := permissionFor toUpper effectiveHost hosts
    override permission.allow permission.deny role decision

/-! ### The memo -/

namespace RoleManager

/-- The answers to queries asked one after the other. -/
def answers (m : RoleManager) : Memo → List (String × Role) → List Bool
  | _, [] => []
  | memo, q :: queries =>
    (m.queryRole memo q.1 q.2).1 :: m.answers (m.queryRole memo q.1 q.2).2 queries

/-- With a memo that remembers right, every answer is the decision. -/
theorem answers_eq_hasRole (m : RoleManager) {memo : Memo} (h : m.Remembers memo)
    (queries : List (String × Role)) :
    m.answers memo queries = queries.map fun q => m.hasRole q.1 q.2 := by
  induction queries generalizing memo with
  | nil => rfl
  | cons q queries ih =>
    obtain ⟨hanswer, hremembers⟩ := m.queryRole_eq h q.1 q.2
    rw [answers, List.map_cons, hanswer, ih hremembers]

private theorem remembers_empty (m : RoleManager) : m.Remembers ∅ := by
  intro feed role decision h
  simp at h

/-- The selection for one feed is the permission of the first pattern that globs. -/
theorem firstPermission_eq_permissionFor {toUpper : UInt16 → UInt16} {host : String}
    {hosts : HostPermissions} {permission : Permission}
    (h : firstPermission toUpper host hosts.entries = .ok permission) :
    permission = permissionFor toUpper host hosts := by
  rw [permissionFor]
  generalize hosts.entries = entries at h ⊢
  induction entries with
  | nil =>
    cases h
    rfl
  | cons x entries ih =>
    rw [firstPermission] at h
    rw [List.find?_cons, globs]
    cases hg : globHost toUpper host x.1 with
    | error e =>
      rw [hg] at h
      cases h
    | ok b =>
      rw [hg] at h
      cases b with
      | true =>
        cases h
        rfl
      | false => exact ih h

/-- A role manager decides by the rule. -/
theorem hasRole_eq_rule {toUpper : UInt16 → UInt16} {distributorRole : DistributorRole}
    {host user : String} {impersonating forwardedFor : Option String}
    {feedPermissions : Option (Dictionary String HostPermissions)} {m : RoleManager}
    (h : new toUpper distributorRole host user impersonating forwardedFor feedPermissions = .ok m)
    (feed : String) (role : Role) :
    m.hasRole feed role =
      rule toUpper distributorRole m.effectiveHost feedPermissions feed role := by
  obtain ⟨hm, hlookup⟩ := lookup_of_new h
  have hhost : m.effectiveHost =
      (bare distributorRole host user impersonating forwardedFor).effectiveHost := by
    rw [hm]
    rfl
  have hrole : m.distributorRole = distributorRole := by
    rw [hm]
    rfl
  have hfeed := hlookup feed
  rw [hasRole, rule, hhost, hrole]
  cases hl : feedPermissions.bind (·.lookup feed) with
  | none =>
    simp only [hl] at hfeed
    simp only [hfeed]
    rfl
  | some hosts =>
    simp only [hl] at hfeed
    obtain ⟨permission, hp, hselected⟩ := hfeed
    simp only [hselected, firstPermission_eq_permissionFor hp]
    rfl

/-- The answers to any queries are those of the rule, whatever was asked before each. -/
theorem answers_eq_rule {toUpper : UInt16 → UInt16} {distributorRole : DistributorRole}
    {host user : String} {impersonating forwardedFor : Option String}
    {feedPermissions : Option (Dictionary String HostPermissions)} {m : RoleManager}
    (h : new toUpper distributorRole host user impersonating forwardedFor feedPermissions = .ok m)
    (queries : List (String × Role)) :
    m.answers ∅ queries =
      queries.map fun q => rule toUpper distributorRole
        (if distributorRole.isProxyAllowed then forwardedFor.getD host else host)
        feedPermissions q.1 q.2 := by
  have hhost : m.effectiveHost =
      if distributorRole.isProxyAllowed then forwardedFor.getD host else host := by
    rw [(lookup_of_new h).1]
    rfl
  rw [answers_eq_hasRole m m.remembers_empty]
  apply List.map_congr_left
  intro q _
  rw [hasRole_eq_rule h, hhost]

/-- The role manager of `InteractorRoleTest.cs:15–48`. -/
def ofTest : Except Exception RoleManager :=
  new Globber.toUpperAscii
    { allow := .subscribe, deny := .union .authorize (.union .notify .publish),
      isAuthorizationRequired := false, isImpersonationAllowed := false, isProxyAllowed := false }
    "beast.jetblack.net" "admin" none none
    (some (AList.insert "UNAUTH" (AList.insert "*" ⟨.all, .none⟩ ∅)
      (AList.insert "AUTH" (AList.insert "beast.jetblack.net" ⟨.publish, .none⟩ ∅) ∅)))

/-- The answers are those of the rule also where a query is repeated. -/
theorem answers_eq_rule_of_test :
    ∃ m, ofTest = .ok m ∧
      m.answers ∅ [("AUTH", .notify), ("UNAUTH", .notify), ("AUTH", .publish), ("AUTH", .notify)] =
        [false, true, true, false] := by
  have hreturns : ofTest.isOk = true := by decide +kernel
  cases h : ofTest with
  | error e =>
    rw [h] at hreturns
    cases hreturns
  | ok m =>
    refine ⟨m, rfl, ?_⟩
    rw [answers_eq_rule h]
    decide +kernel

end RoleManager

end MessageBus.Distributor
