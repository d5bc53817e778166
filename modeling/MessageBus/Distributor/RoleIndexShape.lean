import Mathlib.Data.List.Induction
import MessageBus.Distributor.RoleIndex

/-!
# The shape of the role index

`RemoveFeedRoles` takes out a role with the last of its interactors, and a feed with the
last of its roles, where a role was taken out (`InteractorRepository.cs:80–109`).
`AddFeedRoles` makes an entry for every feed that the permissions list, also for one on
which the interactor holds no role (lines 62–65). Here is when a removal undoes an
addition.
-/

namespace MessageBus.Distributor.InteractorRepository
open MessageBus.Base MessageBus.Common

variable (settings : Settings)

/-! ### Sequences of calls -/

/-- The interactor that a call adds or removes. -/
def Call.id : Call → Guid
  | .add id => id
  | .remove id => id

/-- The repository after a call. -/
def next (r : InteractorRepository) : Call → InteractorRepository
  | .add id => (r.add settings id).1
  | .remove id => r.remove id

/-- The repository after calls one after another. -/
def calls (r : InteractorRepository) (cs : List Call) : InteractorRepository :=
  cs.foldl (next settings) r

private theorem call_eq (r : InteractorRepository) (c : Call) :
    r.call settings c = some (r.next settings c) := by
  cases c with
  | add id => rfl
  | remove id => rfl

private theorem indexesFeeds_next {r : InteractorRepository} (hr : IndexesFeeds settings r)
    (c : Call) : IndexesFeeds settings (r.next settings c) :=
  indexesFeeds_call settings hr (call_eq settings r c)

/-- Every call adds an interactor of the set, or removes one. -/
def AddsIn (ids : Set Guid) (cs : List Call) : Prop :=
  ∀ id, .add id ∈ cs → id ∈ ids

/-- An interactor is registered from its addition to its removal. -/
theorem mem_interactors_next {r : InteractorRepository} {c : Call} {i : Guid} :
    i ∈ (r.next settings c).interactors ↔
      c = .add i ∨ i ∈ r.interactors ∧ c ≠ .remove i := by
  cases c with
  | add id =>
    simp only [next, add]
    split
    · next hm =>
      constructor
      · exact fun h => .inr ⟨h, Call.noConfusion⟩
      · rintro (hc | h)
        · cases hc
          exact hm
        · exact h.1
    · simp [eq_comm]
  | remove id => simp [next, remove, and_comm, eq_comm]

/-- Whether an interactor is registered depends on the calls for it. -/
theorem mem_interactors_calls {r r' : InteractorRepository} {i : Guid}
    (h : i ∈ r.interactors ↔ i ∈ r'.interactors) (cs : List Call) :
    i ∈ (r.calls settings cs).interactors ↔ i ∈ (r'.calls settings cs).interactors := by
  induction cs generalizing r r' with
  | nil => exact h
  | cons c cs ih =>
    apply ih
    rw [mem_interactors_next, mem_interactors_next, h]

private theorem notMem_interactors_calls {r : InteractorRepository} {i : Guid} {cs : List Call}
    (h : i ∉ r.interactors) (hcs : ∀ c ∈ cs, c.id ≠ i) :
    i ∉ (r.calls settings cs).interactors := by
  refine List.foldlRecOn (motive := fun r => i ∉ r.interactors) cs (next settings) h ?_
  intro r hr c hc hm
  rcases (mem_interactors_next settings).mp hm with rfl | ⟨hm, -⟩
  · exact hcs _ hc rfl
  · exact hr hm

/-! ### No entry is empty -/

/-- No feed entry is without roles, and no role entry without interactors. -/
structure Pruned (index : Dictionary String (Dictionary Role (HashSet Guid))) : Prop where
  feeds : ∀ feed roles, index.lookup feed = some roles → roles.isEmpty = false
  roles : ∀ feed roles, index.lookup feed = some roles →
    ∀ role interactors, roles.lookup role = some interactors → interactors.isEmpty = false

/-- The interactor holds one of the indexed roles on every feed that it lists. -/
def HoldsListed (i : Guid) : Prop :=
  ∀ feed ∈ settings.feeds i, ∃ role ∈ indexedRoles, settings.hasRole i feed role = true

-- What the inner loop of `AddFeedRoles` keeps.
private def RolesPruned (roles : Dictionary Role (HashSet Guid)) : Prop :=
  ∀ role interactors, roles.lookup role = some interactors → interactors.isEmpty = false

private theorem rolesPruned_addRole {id : Guid} {feed : String}
    {roles : Dictionary Role (HashSet Guid)} (h : RolesPruned roles) (role : Role) :
    RolesPruned (addRole settings id feed roles role) := by
  unfold addRole
  split
  · intro role' interactors hl
    rw [Dictionary.lookup_insert] at hl
    split at hl
    · cases hl
      exact HashSet.isEmpty_add ..
    · exact h role' interactors hl
  · exact h

private theorem isEmpty_addRoles {id : Guid} {feed : String} {role : Role} {roles : List Role}
    (hr : role ∈ roles) (hrole : settings.hasRole id feed role = true)
    (index : Dictionary Role (HashSet Guid)) :
    (roles.foldl (addRole settings id feed) index).isEmpty = false := by
  rw [Bool.eq_false_iff, ne_eq, Dictionary.isEmpty_iff]
  intro hnone
  have hm : id ∈ ((roles.foldl (addRole settings id feed) index).lookup role).getD ∅ :=
    (mem_addRoles roles).mpr (.inl ⟨rfl, hr, hrole⟩)
  rw [hnone role] at hm
  cases hm

private theorem pruned_addFeedRoles {id : Guid} (hid : HoldsListed settings id)
    {index : Dictionary String (Dictionary Role (HashSet Guid))} (h : Pruned index) :
    Pruned (addFeedRoles settings id index) := by
  refine List.foldlRecOn (motive := Pruned) (settings.feeds id) _ h ?_
  intro index hi feed hf
  obtain ⟨role, hr, hrole⟩ := hid feed hf
  have hold : RolesPruned ((index.lookup feed).getD ∅) := by
    cases hl : index.lookup feed with
    | none => exact fun role interactors h => nomatch h
    | some roles => exact hi.roles feed roles hl
  have hnew : RolesPruned
      (indexedRoles.foldl (addRole settings id feed) ((index.lookup feed).getD ∅)) :=
    List.foldlRecOn (motive := RolesPruned) _ _ hold
      fun _ h role _ => rolesPruned_addRole settings h role
  constructor
  · intro feed' roles hl
    rw [Dictionary.lookup_insert] at hl
    split at hl
    · cases hl
      exact isEmpty_addRoles settings hr hrole _
    · exact hi.feeds feed' roles hl
  · intro feed' roles hl
    rw [Dictionary.lookup_insert] at hl
    split at hl
    · cases hl
      exact hnew
    · exact hi.roles feed' roles hl

private theorem rolesPruned_removeRoles {id : Guid} {roles : Dictionary Role (HashSet Guid)}
    (h : RolesPruned roles) : RolesPruned (removeRoles id roles) := by
  intro role interactors hl
  rw [removeRoles, Dictionary.lookup_mapValues, Option.map_eq_some_iff] at hl
  obtain ⟨old, hold, rfl⟩ := hl
  rw [Dictionary.lookup_filterEntries, Option.filter_eq_some_iff] at hold
  obtain ⟨hold, hkept⟩ := hold
  by_cases hm : id ∈ old
  · simpa [isEmptied, hm] using hkept
  · rw [HashSet.remove_of_notMem hm]
    exact h role old hold

-- Where no set was emptied, every role is kept.
private theorem isEmpty_removeRoles {id : Guid} {roles : Dictionary Role (HashSet Guid)}
    (h : roles.isEmpty = false)
    (hkept : roles.entries.any (fun e => isEmptied id e.2) = false) :
    (removeRoles id roles).isEmpty = false := by
  rw [Bool.eq_false_iff, ne_eq, Dictionary.isEmpty_iff] at h ⊢
  intro hnone
  apply h
  intro role
  cases hl : roles.lookup role with
  | none => rfl
  | some interactors =>
    have hn : isEmptied id interactors = false := by
      rw [List.any_eq_false] at hkept
      exact Bool.eq_false_iff.mpr (hkept ⟨role, interactors⟩ (Dictionary.mem_entries_iff.mpr hl))
    have := hnone role
    rw [removeRoles, Dictionary.lookup_mapValues, Dictionary.lookup_filterEntries, hl] at this
    simp [Option.filter_some, hn] at this

private theorem pruned_removeFeedRoles {id : Guid}
    {index : Dictionary String (Dictionary Role (HashSet Guid))} (h : Pruned index) :
    Pruned (removeFeedRoles id index) := by
  have hof {feed : String} {roles : Dictionary Role (HashSet Guid)}
      (hl : (removeFeedRoles id index).lookup feed = some roles) :
      ∃ old, index.lookup feed = some old ∧ roles = removeRoles id old ∧
        (old.entries.any (fun e => isEmptied id e.2) &&
          (removeRoles id old).isEmpty) = false := by
    rw [removeFeedRoles, Dictionary.lookup_mapValues, Option.map_eq_some_iff] at hl
    obtain ⟨old, hold, rfl⟩ := hl
    rw [Dictionary.lookup_filterEntries, Option.filter_eq_some_iff] at hold
    exact ⟨old, hold.1, rfl, (Bool.not_eq_true' _).mp hold.2⟩
  constructor
  · intro feed roles hl
    obtain ⟨old, hold, rfl, hkept⟩ := hof hl
    rcases Bool.and_eq_false_iff.mp hkept with hnone | hne
    · exact isEmpty_removeRoles (h.feeds feed old hold) hnone
    · exact hne
  · intro feed roles hl
    obtain ⟨old, hold, rfl, -⟩ := hof hl
    exact rolesPruned_removeRoles (h.roles feed old hold)

private theorem pruned_next {r : InteractorRepository} (h : Pruned r.feedRoleInteractors) {c : Call}
    (hc : ∀ id, c = .add id → HoldsListed settings id) :
    Pruned (r.next settings c).feedRoleInteractors := by
  cases c with
  | add id =>
    simp only [next, add]
    split
    · exact h
    · exact pruned_addFeedRoles settings (hc id rfl) h
  | remove id => exact pruned_removeFeedRoles h

/-! ### The maps -/

/-- Two repositories have the same interactors, and indexes with the same feeds, under each
the same roles, and under each of these the same interactors. -/
structure SameMaps (r r' : InteractorRepository) : Prop where
  interactors : ∀ i, i ∈ r.interactors ↔ i ∈ r'.interactors
  feeds : ∀ feed, feed ∈ r.feedRoleInteractors ↔ feed ∈ r'.feedRoleInteractors
  roles : ∀ feed role, role ∈ (r.feedRoleInteractors.lookup feed).getD ∅ ↔
    role ∈ (r'.feedRoleInteractors.lookup feed).getD ∅
  listed : ∀ feed role i, i ∈ listed r.feedRoleInteractors feed role ↔
    i ∈ listed r'.feedRoleInteractors feed role

/-- In a pruned index a role has an entry if an interactor is listed. -/
theorem Pruned.mem_roles_iff {index : Dictionary String (Dictionary Role (HashSet Guid))}
    (h : Pruned index) (feed : String) (role : Role) :
    role ∈ (index.lookup feed).getD ∅ ↔ ∃ i, i ∈ InteractorRepository.listed index feed role := by
  rw [← AList.lookup_isSome, Option.isSome_iff_exists, InteractorRepository.listed]
  constructor
  · rintro ⟨interactors, hi⟩
    cases hl : index.lookup feed with
    | none =>
      rw [hl] at hi
      cases hi
    | some roles =>
      rw [hl, Option.getD_some] at hi
      rw [Option.getD_some, hi]
      exact HashSet.isEmpty_eq_false_iff.mp (h.roles feed roles hl role interactors hi)
  · rintro ⟨i, hi⟩
    cases hr : ((index.lookup feed).getD ∅).lookup role with
    | none =>
      rw [hr] at hi
      exact absurd hi (HashSet.notMem_empty i)
    | some interactors => exact ⟨interactors, rfl⟩

/-- In a pruned index a feed has an entry if one of its roles has. -/
theorem Pruned.mem_feeds_iff {index : Dictionary String (Dictionary Role (HashSet Guid))}
    (h : Pruned index) (feed : String) :
    feed ∈ index ↔ ∃ role, role ∈ (index.lookup feed).getD ∅ := by
  rw [← AList.lookup_isSome]
  cases hl : index.lookup feed with
  | none => simp
  | some roles =>
    refine iff_of_true rfl ?_
    by_contra hnone
    have hne := h.feeds feed roles hl
    rw [Bool.eq_false_iff, ne_eq, Dictionary.isEmpty_iff] at hne
    exact hne fun role => AList.lookup_eq_none.mpr fun hr => hnone ⟨role, hr⟩

/-- Pruned indexes of the same interactors are the same. -/
theorem sameMaps_of_interactors {r r' : InteractorRepository} (hr : IndexesFeeds settings r)
    (hr' : IndexesFeeds settings r') (hp : Pruned r.feedRoleInteractors)
    (hp' : Pruned r'.feedRoleInteractors) (hi : ∀ i, i ∈ r.interactors ↔ i ∈ r'.interactors) :
    SameMaps r r' := by
  have hlisted (feed : String) (role : Role) (i : Guid) :
      i ∈ listed r.feedRoleInteractors feed role ↔
        i ∈ listed r'.feedRoleInteractors feed role := by
    rw [← mem_findRole, hr, hi, ← hr', mem_findRole]
  have hroles (feed : String) (role : Role) :
      role ∈ (r.feedRoleInteractors.lookup feed).getD ∅ ↔
        role ∈ (r'.feedRoleInteractors.lookup feed).getD ∅ := by
    rw [hp.mem_roles_iff, hp'.mem_roles_iff]
    exact exists_congr (hlisted feed role)
  refine ⟨hi, fun feed => ?_, hroles, hlisted⟩
  rw [hp.mem_feeds_iff, hp'.mem_feeds_iff]
  exact exists_congr (hroles feed)

/-! ### A removal undoes an addition -/

/-- A new interactor of the set, added and then removed with calls for others in between,
leaves the maps as these calls leave them without it. -/
def UndoesAdd (ids : Set Guid) (r : InteractorRepository) : Prop :=
  ∀ id ∈ ids, id ∉ r.interactors → ∀ cs, AddsIn ids cs → (∀ c ∈ cs, c.id ≠ id) →
    SameMaps (((r.next settings (.add id)).calls settings cs).next settings (.remove id))
      (r.calls settings cs)

/-- What is expected of the maps: a removal undoes an addition, without interactors the index
is empty, and no entry of it is. -/
structure Restored (ids : Set Guid) (r : InteractorRepository) : Prop where
  undoesAdd : UndoesAdd settings ids r
  empty : r.interactors.isEmpty = true → r.feedRoleInteractors.isEmpty = true
  pruned : Pruned r.feedRoleInteractors

variable {settings} {ids : Set Guid}

/-- What calls preserve that add only interactors holding a role on each feed they list. -/
theorem pruned_calls {r : InteractorRepository} {cs : List Call}
    (hids : ∀ i ∈ ids, HoldsListed settings i) (hcs : AddsIn ids cs)
    (hr : IndexesFeeds settings r ∧ Pruned r.feedRoleInteractors) :
    IndexesFeeds settings (r.calls settings cs) ∧
      Pruned (r.calls settings cs).feedRoleInteractors := by
  refine List.foldlRecOn (motive := fun r => IndexesFeeds settings r ∧
    Pruned r.feedRoleInteractors) cs (next settings) hr ?_
  intro r hr c hc
  refine ⟨indexesFeeds_next settings hr.1 c, pruned_next settings hr.2 ?_⟩
  rintro id rfl
  exact hids id (hcs id hc)

private theorem indexesFeeds_empty : IndexesFeeds settings {} := by
  intro feed role i
  exact iff_of_false List.not_mem_nil fun h => HashSet.notMem_empty i h.1

private theorem pruned_empty : Pruned ∅ := by
  constructor
  · intro feed roles hl
    cases hl
  · intro feed roles hl
    cases hl

private theorem undoesAdd_of_pruned {r : InteractorRepository}
    (hids : ∀ i ∈ ids, HoldsListed settings i)
    (hr : IndexesFeeds settings r ∧ Pruned r.feedRoleInteractors) : UndoesAdd settings ids r := by
  intro id hid hnew cs hcs hothers
  have hadd : IndexesFeeds settings (r.next settings (.add id)) ∧
      Pruned (r.next settings (.add id)).feedRoleInteractors := by
    refine ⟨indexesFeeds_next settings hr.1 _, pruned_next settings hr.2 ?_⟩
    rintro _ ⟨⟩
    exact hids id hid
  obtain ⟨hindex, hpruned⟩ := pruned_calls hids hcs hadd
  obtain ⟨hindex', hpruned'⟩ := pruned_calls hids hcs hr
  apply sameMaps_of_interactors settings (indexesFeeds_next settings hindex (.remove id)) hindex'
    (pruned_removeFeedRoles hpruned) hpruned'
  intro i
  rw [mem_interactors_next]
  by_cases hi : i = id
  · subst hi
    exact iff_of_false (fun h => h.elim nofun fun h => h.2 rfl)
      (notMem_interactors_calls settings hnew hothers)
  · have hbefore : i ∈ (r.next settings (.add id)).interactors ↔ i ∈ r.interactors := by
      rw [mem_interactors_next]
      simp [Ne.symm hi]
    rw [mem_interactors_calls settings hbefore cs]
    simp [Ne.symm hi]

private theorem isEmpty_of_interactors {r : InteractorRepository}
    (hr : IndexesFeeds settings r ∧ Pruned r.feedRoleInteractors)
    (he : r.interactors.isEmpty = true) : r.feedRoleInteractors.isEmpty = true := by
  rw [Dictionary.isEmpty_iff]
  intro feed
  rw [AList.lookup_eq_none, hr.2.mem_feeds_iff]
  rintro ⟨role, hrole⟩
  obtain ⟨i, hi⟩ := (hr.2.mem_roles_iff feed role).mp hrole
  exact HashSet.isEmpty_iff.mp he i ((hr.1 feed role i).mp (mem_findRole.mpr hi)).1

/-- `AddFeedRoles` makes an entry for every feed that is listed. -/
theorem mem_addFeedRoles {id : Guid} {feed : String} (hf : feed ∈ settings.feeds id)
    (index : Dictionary String (Dictionary Role (HashSet Guid))) :
    feed ∈ addFeedRoles settings id index := by
  unfold addFeedRoles
  revert hf
  generalize settings.feeds id = feeds
  induction feeds using List.reverseRecOn with
  | nil => exact fun hf => absurd hf List.not_mem_nil
  | append_singleton feeds f ih =>
    intro hf
    rw [List.foldl_append, List.foldl_cons, List.foldl_nil, AList.mem_insert]
    rcases List.mem_append.mp hf with hf | hf
    · exact .inr (ih hf)
    · exact .inl (List.mem_singleton.mp hf)

/-- An interactor that leaves no empty entry on its own holds a role on every feed it lists. -/
theorem holdsListed_of_pruned {i : Guid}
    (hp : Pruned (calls settings {} [.add i]).feedRoleInteractors) : HoldsListed settings i := by
  intro feed hf
  obtain ⟨role, hrole⟩ := (hp.mem_feeds_iff feed).mp (mem_addFeedRoles hf ∅)
  obtain ⟨j, hj⟩ := (hp.mem_roles_iff feed role).mp hrole
  have hindex : IndexesFeeds settings (calls settings {} [.add i]) :=
    indexesFeeds_next settings indexesFeeds_empty (.add i)
  obtain ⟨hreg, -, hr, hheld⟩ := (hindex feed role j).mp (mem_findRole.mpr hj)
  rcases (mem_interactors_next settings (c := .add i)).mp hreg with hadd | ⟨hnone, -⟩
  · cases hadd
    exact ⟨role, hr, hheld⟩
  · exact absurd hnone (HashSet.notMem_empty j)

variable (settings ids)

/-- In every state that calls reach which add interactors of a set, the maps are restored,
exactly if every interactor of the set holds a role on each feed that it lists. -/
theorem restored_iff :
    (∀ cs, AddsIn ids cs → Restored settings ids (calls settings {} cs)) ↔
      ∀ i ∈ ids, HoldsListed settings i := by
  constructor
  · intro h i hi
    refine holdsListed_of_pruned (h [.add i] ?_).pruned
    rintro id hid
    cases List.mem_singleton.mp hid
    exact hi
  · intro hids cs hcs
    have hr := pruned_calls hids hcs ⟨indexesFeeds_empty, pruned_empty⟩
    exact ⟨undoesAdd_of_pruned hids hr, isEmpty_of_interactors hr, hr.2⟩

/-- A distributor whose clients list one feed and are denied every role on it, as on a host
that none of the feed's patterns matches (`RoleManager.cs:28`). -/
def onDeniedFeed (feed : String) : Settings :=
  let settings := Settings.onFeed feed
  { settings with
    roleManager := fun i =>
      if i = settings.heartbeat then heartbeatRoleManager
      else { settings.roleManager i with feedPermissions := AList.insert feed ⟨.none, .all⟩ ∅ }
    roleManager_heartbeat := if_pos rfl
    roleManager_distributorRole := fun i hi => by
      rw [if_neg hi]
      exact settings.roleManager_distributorRole i hi }

/-- The feed that such a client lists stays in the index once the client is gone. -/
theorem denied_feed_stays : ¬ ∀ (settings : Settings) (ids : Set Guid) (cs : List Call),
    AddsIn ids cs → Restored settings ids (calls settings {} cs) := by
  intro h
  have hall := h (onDeniedFeed "F") {⟨1⟩} [.add ⟨1⟩, .remove ⟨1⟩] (by simp [AddsIn])
  exact absurd (hall.empty rfl) (by decide)

end MessageBus.Distributor.InteractorRepository
