import MessageBus.Base.Run
import MessageBus.Distributor.Delivery
import Mathlib.Data.Fintype.EquivFin

/-!
# The role index

`HasRole` decides for every feed name, from the roles of the distributor and the
permissions of the interactor; the index from which interactors are found by role is
filled from the feeds that the permissions list. Here are the calls of `Add` and `Remove`
in any order, and when the two agree.
-/

namespace MessageBus.Distributor
open MessageBus.Base MessageBus.Common MessageBus.Messages

/-- A distributor that grants every role, to every client and on one feed only. -/
def Settings.onFeed (feed : String) : Settings where
  distributorRole :=
    { allow := .none, deny := .none, isAuthorizationRequired := true,
      isImpersonationAllowed := false, isProxyAllowed := false }
  isDebugEnabled := false
  heartbeat := ⟨0⟩
  roleManager i :=
    if i = ⟨0⟩ then heartbeatRoleManager
    else
      { distributorRole :=
          { allow := .none, deny := .none, isAuthorizationRequired := true,
            isImpersonationAllowed := false, isProxyAllowed := false }
        host := "host", user := "user", impersonating := none, forwardedFor := none
        feedPermissions := AList.insert feed ⟨.all, .none⟩ ∅ }
  roleManager_heartbeat := if_pos rfl
  roleManager_distributorRole i hi := by rw [if_neg hi]

namespace InteractorRepository

variable (settings : Settings)

/-- A call on the repository. -/
inductive Call where
  | add (id : Guid)
  | remove (id : Guid)

/-- The repository that a call leaves. -/
def call (r : InteractorRepository) : Call → Option InteractorRepository
  | .add id => some (r.add settings id).1
  | .remove id => some (r.remove id)

/-- The index finds the registered interactors that hold the role. -/
def Agrees (r : InteractorRepository) : Prop :=
  ∀ feed, ∀ role ∈ indexedRoles, ∀ i,
    i ∈ r.findRole feed role ↔ i ∈ r.interactors ∧ settings.hasRole i feed role = true

/-- Where authorization is required, `RequestAuthorization` puts the request on the queue
of every live interactor that is registered and holds the Authorize role. -/
def AsksAuthorizers (r : InteractorRepository) : Prop :=
  settings.distributorRole.isAuthorizationRequired = true →
  ∀ s : Server, s.interactorRepository = r → ∀ c feed topic, ∀ i ∈ r.interactors,
    settings.hasRole i feed .authorize = true → (s.objects i).tokenSource = .live →
    ((Server.requestAuthorization settings s c feed topic).objects i).queued =
      (s.objects i).queued ++ [.authorizationRequest
        { clientId := c, host := settings.host c, user := settings.user c, feed, topic }]

/-- The interactor has permissions listed for every feed on which it holds a role. -/
def ListsRoles (i : Guid) : Prop :=
  ∀ feed, ∀ role ∈ indexedRoles, settings.hasRole i feed role = true → feed ∈ settings.feeds i

/-- A call that adds a new interactor adds one that lists its roles. -/
def AddsListed (_ : History InteractorRepository Call) (r : InteractorRepository)
    (c : Call) : Prop :=
  ∀ i, c = .add i → i ∉ r.interactors → ListsRoles settings i

/-- The index finds the registered interactors that hold the role on a feed that they
list. -/
def IndexesFeeds (r : InteractorRepository) : Prop :=
  ∀ feed role i, i ∈ r.findRole feed role ↔ i ∈ r.interactors ∧ feed ∈ settings.feeds i ∧
    role ∈ indexedRoles ∧ settings.hasRole i feed role = true

/-- Adding and removing keeps the index that of the listed feeds. -/
theorem indexesFeeds_call {r r' : InteractorRepository} {c : Call}
    (hr : IndexesFeeds settings r) (hc : r.call settings c = some r') :
    IndexesFeeds settings r' := by
  cases c with
  | add id =>
    cases hc
    unfold add
    simp only
    split
    · exact hr
    · next hn =>
      intro feed role i
      rw [mem_findRole, mem_listed_addFeedRoles, ← mem_findRole, hr, HashSet.mem_add]
      constructor
      · rintro (⟨rfl, hroles⟩ | ⟨hm, hroles⟩)
        · exact ⟨.inl rfl, hroles⟩
        · exact ⟨.inr hm, hroles⟩
      · rintro ⟨rfl | hm, hroles⟩
        · exact .inl ⟨rfl, hroles⟩
        · exact .inr ⟨hm, hroles⟩
  | remove id =>
    cases hc
    intro feed role i
    rw [mem_findRole, remove, mem_listed_removeFeedRoles, ← mem_findRole, hr, HashSet.mem_remove,
      and_assoc]

/-- In every run of calls the index is that of the listed feeds. -/
theorem indexesFeeds_of_run {h : History InteractorRepository Call} {r : InteractorRepository}
    (hr : Run (call settings) {} h r) : IndexesFeeds settings r := by
  refine hr.invariant ?_ fun _ _ _ hi hc => indexesFeeds_call settings hi hc
  intro feed role i
  exact iff_of_false List.not_mem_nil fun h => HashSet.notMem_empty i h.1

/-- The index agrees with the roles exactly if every registered interactor lists them. -/
theorem agrees_iff {r : InteractorRepository} (hr : IndexesFeeds settings r) :
    Agrees settings r ↔ ∀ i ∈ r.interactors, ListsRoles settings i := by
  constructor
  · intro ha i hi feed role hrole hheld
    exact ((hr feed role i).mp ((ha feed role hrole i).mpr ⟨hi, hheld⟩)).2.1
  · intro hl feed role hrole i
    rw [hr feed role i]
    constructor
    · exact fun h => ⟨h.1, h.2.2.2⟩
    · exact fun h => ⟨h.1, hl i h.1 feed role hrole h.2, hrole, h.2⟩

/-- Where the index agrees with the roles, every authorizer is asked. -/
theorem asksAuthorizers_of_agrees {r : InteractorRepository} (ha : Agrees settings r) :
    AsksAuthorizers settings r := by
  intro hreq s hs c feed topic i hi hrole hlive
  have hfound : i ∈ s.interactorRepository.findRole feed .authorize := by
    rw [hs]
    exact (ha feed .authorize (by simp [indexedRoles]) i).mpr ⟨hi, hrole⟩
  rw [Server.requestAuthorization, if_pos hreq, Server.deliver, Interactors.queued_deliver,
    if_pos hlive, addressed_map_const i _ (nodup_findRole _ _ _), if_pos hfound]

-- A call keeps every registered interactor one that lists its roles exactly if it adds no
-- other.
private theorem listsRoles_call_iff {h : History InteractorRepository Call}
    {r r' : InteractorRepository} {c : Call} (hp : ∀ i ∈ r.interactors, ListsRoles settings i)
    (hc : r.call settings c = some r') :
    (∀ i ∈ r'.interactors, ListsRoles settings i) ↔ AddsListed settings h r c := by
  cases c with
  | add id =>
    cases hc
    by_cases hm : id ∈ r.interactors
    · have hkeep : (r.add settings id).1.interactors = r.interactors := by simp [add, hm]
      rw [hkeep]
      refine iff_of_true hp ?_
      rintro i ⟨⟩ hn
      exact absurd hm hn
    · have hadd : (r.add settings id).1.interactors = r.interactors.add id := by simp [add, hm]
      rw [hadd]
      constructor
      · rintro hall i ⟨⟩ -
        exact hall id (HashSet.mem_add.mpr (.inl rfl))
      · intro hg i hi
        rcases HashSet.mem_add.mp hi with rfl | hi
        · exact hg i rfl hm
        · exact hp i hi
  | remove id =>
    cases hc
    refine iff_of_true (fun i hi => hp i (HashSet.mem_remove.mp hi).2) ?_
    rintro i ⟨⟩

/-- The index agrees with the roles throughout a run of calls, and so every authorizer is
asked, exactly if every interactor that is added lists its roles. -/
theorem index_agrees_iff {h : History InteractorRepository Call} {r : InteractorRepository}
    (hr : Run (call settings) {} h r) :
    Always (fun _ r => Agrees settings r ∧ AsksAuthorizers settings r) h r ↔
      Throughout (AddsListed settings) h := by
  have hagrees : (fun (_ : History InteractorRepository Call) r =>
      Agrees settings r ∧ AsksAuthorizers settings r) = fun _ r => Agrees settings r := by
    funext _ r
    exact propext (and_iff_left_of_imp (asksAuthorizers_of_agrees settings))
  rw [hagrees]
  apply Run.always_iff_throughout_of_step hr
  · intro feed role _ i
    exact iff_of_false List.not_mem_nil fun h => HashSet.notMem_empty i h.1
  intro h r c r' hr hp hc
  have hi := indexesFeeds_of_run settings hr
  rw [agrees_iff settings hi] at hp
  rw [agrees_iff settings (indexesFeeds_call settings hi hc)]
  exact listsRoles_call_iff settings hp hc

private theorem hasRole_of_notMem_feeds {i : Guid} {feed : String}
    (hf : feed ∉ settings.feeds i) (role : Role) :
    settings.hasRole i feed role = (settings.roleManager i).distributorRole.hasRole role := by
  have hl : (settings.roleManager i).feedPermissions.lookup feed = none :=
    AList.lookup_eq_none.mpr hf
  simp only [Settings.hasRole, RoleManager.hasRole, hl, DistributorRole.hasRole]
  cases (settings.roleManager i).distributorRole.allow.hasFlag role <;> rfl

/-- An interactor lists its roles exactly if the distributor grants it none of them on
feeds that have no permissions. -/
theorem listsRoles_iff {i : Guid} : ListsRoles settings i ↔
    ∀ role ∈ indexedRoles, (settings.roleManager i).distributorRole.hasRole role = false := by
  constructor
  · intro hl role hrole
    have hinfinite : Infinite String :=
      Infinite.of_injective String.ofList fun a b h => String.ofList_injective h
    obtain ⟨feed, hf⟩ := Infinite.exists_notMem_finset (settings.feeds i).toFinset
    rw [List.mem_toFinset] at hf
    rw [← hasRole_of_notMem_feeds settings hf, Bool.eq_false_iff]
    exact fun h => hf (hl feed role hrole h)
  · intro hnone feed role hrole hheld
    by_contra hf
    rw [hasRole_of_notMem_feeds settings hf, hnone role hrole] at hheld
    cases hheld

/-- The index agrees with the roles where they are granted by feed. -/
theorem index_agrees_of_feed :
    ∃ h r, Run (call (.onFeed "F")) {} h r ∧ r.findRole "F" .authorize = [⟨1⟩] ∧
      Always (fun _ r => Agrees (.onFeed "F") r ∧ AsksAuthorizers (.onFeed "F") r) h r := by
  obtain ⟨h, r, hr, hobs⟩ := exists_run_of_exec (call (.onFeed "F")) {}
    [.add ⟨1⟩, .add ⟨2⟩, .remove ⟨2⟩] (fun x => (x.1.map Prod.snd, x.2.findRole "F" .authorize))
    ([.remove ⟨2⟩, .add ⟨2⟩, .add ⟨1⟩], [⟨1⟩]) rfl
  simp only [Prod.mk.injEq] at hobs
  obtain ⟨hcalls, hfound⟩ := hobs
  refine ⟨h, r, hr, hfound, (index_agrees_iff (.onFeed "F") hr).mpr ?_⟩
  apply throughout_of_forall_mem (G := fun (r : InteractorRepository) (c : Call) => ∀ i,
    c = .add i → i ∉ r.interactors → ListsRoles (.onFeed "F") i)
  rintro x hx i hadd -
  have hmem : Call.add i ∈ h.map Prod.snd := hadd ▸ List.mem_map_of_mem hx
  rw [hcalls] at hmem
  apply (listsRoles_iff (.onFeed "F")).mpr
  simp only [List.mem_cons, reduceCtorEq, Call.add.injEq, List.not_mem_nil, or_false,
    false_or] at hmem
  rcases hmem with rfl | rfl <;> decide

/-- An interactor that holds the Authorize role on every feed, and lists none, is not
found. -/
theorem authorizer_not_found :
    ¬ ∀ (settings : Settings) h r, Run (call settings) {} h r →
      Always (fun _ r => Agrees settings r ∧ AsksAuthorizers settings r) h r := by
  intro hclaim
  obtain ⟨h, r, hr, hobs⟩ := exists_run_of_exec (call (.permissive true)) {} [.add ⟨1⟩]
    (fun x => (x.2.findRole "F" .authorize, decide ((⟨1⟩ : Guid) ∈ x.2.interactors)))
    ([], true) (by decide)
  simp only [Prod.mk.injEq, decide_eq_true_eq] at hobs
  obtain ⟨hnone, hreg⟩ := hobs
  have hfound := ((hclaim (.permissive true) h r hr).last.1 "F" .authorize
    (by simp [indexedRoles]) ⟨1⟩).mpr ⟨hreg, by decide⟩
  rw [hnone] at hfound
  cases hfound

end InteractorRepository

end MessageBus.Distributor
