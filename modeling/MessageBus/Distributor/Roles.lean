import MessageBus.Base.Collections

/-!
# Roles

`core/src/JetBlack.MessageBus.Distributor/Roles` and the role flags of
`JetBlack.MessageBus.Common/Security/Authentication/Role.cs`. A role manager answers
from a memo of its decisions; `hasRole` is the decision it memoises.
-/

namespace MessageBus.Distributor
open MessageBus.Base

/-- `Role`: a set of flags, `Role.cs:6–14`. -/
structure Role where
  flags : BitVec 32
  deriving DecidableEq, Repr

namespace Role

/-- `Role.None`. -/
def none : Role := ⟨0x00⟩

/-- `Role.Subscribe`. -/
def subscribe : Role := ⟨0x01⟩

/-- `Role.Publish`. -/
def publish : Role := ⟨0x02⟩

/-- `Role.Notify`. -/
def notify : Role := ⟨0x04⟩

/-- `Role.Authorize`. -/
def authorize : Role := ⟨0x08⟩

/-- The operator `|` of a set of flags. -/
def union (a b : Role) : Role := ⟨a.flags ||| b.flags⟩

/-- `Role.All`. -/
def all : Role := subscribe.union (publish.union (notify.union authorize))

/-- `Enum.HasFlag`: every flag of `role` is set. -/
def hasFlag (flags role : Role) : Bool := flags.flags &&& role.flags == role.flags

end Role

/-- `DistributorRole.cs:7–22`. -/
structure DistributorRole where
  allow : Role
  deny : Role
  isAuthorizationRequired : Bool
  isImpersonationAllowed : Bool
  isProxyAllowed : Bool
  deriving DecidableEq

/-- `DistributorRole.HasRole`, `DistributorRole.cs:24–32`. -/
def DistributorRole.hasRole (r : DistributorRole) (role : Role) : Bool :=
  let decision := r.allow.hasFlag role
  if r.deny.hasFlag role then false else decision

/-- `Permission.cs`. -/
structure Permission where
  allow : Role
  deny : Role
  deriving DecidableEq

/-- `RoleManager.cs:32–39`, with the permissions that its constructor selected for the
effective host. -/
structure RoleManager where
  distributorRole : DistributorRole
  host : String
  user : String
  impersonating : Option String
  forwardedFor : Option String
  feedPermissions : Dictionary String Permission

namespace RoleManager

/-- `EffectiveUser`, `RoleManager.cs:37`. -/
def effectiveUser (m : RoleManager) : String :=
  if m.distributorRole.isImpersonationAllowed then m.impersonating.getD m.user else m.user

/-- `EffectiveHost`, `RoleManager.cs:38`. -/
def effectiveHost (m : RoleManager) : String :=
  if m.distributorRole.isProxyAllowed then m.forwardedFor.getD m.host else m.host

/-- The decision of `HasRole`, `RoleManager.cs:49–61`, made where the memo has none. -/
def hasRole (m : RoleManager) (feed : String) (role : Role) : Bool :=
  let decision := false
  let decision := if m.distributorRole.allow.hasFlag role then true else decision
  let decision := if m.distributorRole.deny.hasFlag role then false else decision
  match m.feedPermissions.lookup feed with
  | none => decision
  | some permission =>
    let decision := if permission.allow.hasFlag role then true else decision
    if permission.deny.hasFlag role then false else decision

/-- `_feedDecision`, a memo of the decisions made so far. -/
abbrev Memo := Dictionary String (Dictionary Role Bool)

/-- `HasRole`, `RoleManager.cs:41–67`: the answer and the memo it leaves. -/
def queryRole (m : RoleManager) (memo : Memo) (feed : String) (role : Role) : Bool × Memo :=
  let roleDecision := (memo.lookup feed).getD ∅
  match roleDecision.lookup role with
  | some decision => (decision, memo.insert feed roleDecision)
  | none =>
    let decision := m.hasRole feed role
    (decision, memo.insert feed (roleDecision.insert role decision))

/-- Every memoised decision is the decision that would be made again. -/
def Remembers (m : RoleManager) (memo : Memo) : Prop :=
  ∀ feed role decision, ((memo.lookup feed).getD ∅).lookup role = some decision →
    decision = m.hasRole feed role

private theorem remembers_insert (m : RoleManager) {memo : Memo} (h : m.Remembers memo)
    (feed : String) {decisions : Dictionary Role Bool}
    (hd : ∀ role decision, decisions.lookup role = some decision →
      decision = m.hasRole feed role) : m.Remembers (memo.insert feed decisions) := by
  intro feed' role decision hl
  rw [Dictionary.lookup_insert] at hl
  by_cases hf : feed' = feed
  · subst hf
    rw [if_pos rfl, Option.getD_some] at hl
    exact hd role decision hl
  · rw [if_neg hf] at hl
    exact h feed' role decision hl

/-- A query answers with the decision and keeps the memo true. -/
theorem queryRole_eq (m : RoleManager) {memo : Memo} (h : m.Remembers memo) (feed : String)
    (role : Role) : (m.queryRole memo feed role).1 = m.hasRole feed role ∧
      m.Remembers (m.queryRole memo feed role).2 := by
  simp only [queryRole]
  split
  · next decision hl =>
    exact ⟨h feed role decision hl, remembers_insert m h feed (h feed)⟩
  · refine ⟨rfl, remembers_insert m h feed ?_⟩
    intro role' decision hl
    rw [Dictionary.lookup_insert] at hl
    by_cases hr : role' = role
    · subst hr
      rw [if_pos rfl] at hl
      exact (Option.some.inj hl).symm
    · rw [if_neg hr] at hl
      exact h feed role' decision hl

end RoleManager

end MessageBus.Distributor
