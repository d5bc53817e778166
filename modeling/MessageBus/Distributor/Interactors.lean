import MessageBus.Distributor.Roles
import MessageBus.Messages.Message

/-!
# Interactors and their repository

`core/src/JetBlack.MessageBus.Distributor/Interactors`. An interactor is referred to by
its `Id`, on which its equality rests: `Settings` holds what is fixed when interactors
are made, `Interactor` what changes afterwards. A write queue is kept whole, as the
messages already taken from it and those still on it.
-/

namespace MessageBus.Distributor
open MessageBus.Base MessageBus.Common MessageBus.Messages

/-! ### Interactors -/

/-- `CancellationTokenSource`, `Interactor.cs:28`. -/
inductive TokenSource where
  | live
  | cancelled
  | disposed
  deriving DecidableEq

/-- Where `QueueReceivedMessages` stands, `Interactor.cs:213–238`: `checking` at the test
of the loop, `reading` in `Message.Read`, `ending` after the loop. -/
inductive ReadTask where
  | unstarted
  | checking
  | reading
  | ending
  | completed
  deriving DecidableEq

/-- Where `WriteQueuedMessages` stands, `Interactor.cs:240–269`: `checking` at the test of
the loop or in `Take`, `writing` in `Message.Write`, `ending` after the loop. -/
inductive WriteTask where
  | unstarted
  | checking
  | writing
  | ending
  | completed
  deriving DecidableEq

/-- The state of an interactor, `Interactor.cs:26–32`. -/
structure Interactor where
  authorizations : Dictionary String (Dictionary String AuthorizationResponse) := ∅
  taken : List Message := []
  writeQueue : List Message := []
  tokenSource : TokenSource := .live
  readTask : ReadTask := .unstarted
  writeTask : WriteTask := .unstarted

namespace Interactor

/-- Every message put on the write queue so far. -/
def queued (i : Interactor) : List Message := i.taken ++ i.writeQueue

/-- `SendMessage`, `Interactor.cs:177–189`: a cancelled token drops the message, a disposed
one throws. -/
def sendMessage (i : Interactor) (message : Message) : Except Exception Interactor :=
  match i.tokenSource with
  | .live => .ok { i with writeQueue := i.writeQueue ++ [message] }
  | .cancelled => .ok i
  | .disposed => .error .objectDisposed

/-- `SendMessage` where the caller catches and logs what it throws. -/
def trySendMessage (i : Interactor) (message : Message) : Interactor :=
  match i.sendMessage message with
  | .ok i' => i'
  | .error _ => i

/-- `SetAuthorization`, `Interactor.cs:191–197`. -/
def setAuthorization (i : Interactor) (feed topic : String)
    (authorization : AuthorizationResponse) : Interactor :=
  let topicAuthorizations := (i.authorizations.lookup feed).getD ∅
  { i with authorizations :=
      i.authorizations.insert feed (topicAuthorizations.insert topic authorization) }

/-- `TryGetAuthorization`, `Interactor.cs:199–206`. -/
def tryGetAuthorization (i : Interactor) (feed topic : String) : Option AuthorizationResponse :=
  match i.authorizations.lookup feed with
  | some topicAuthorizations => topicAuthorizations.lookup topic
  | none => none

/-- `HasAuthorization`, `Interactor.cs:208–211`: the key it looks for among the topics is
the feed. -/
def hasAuthorization (i : Interactor) (feed _topic : String) : Bool :=
  match i.authorizations.lookup feed with
  | some topicAuthorizations => (topicAuthorizations.lookup feed).isSome
  | none => false

/-- `Dispose`, `Interactor.cs:293–306`, once its waits have returned. -/
def dispose (i : Interactor) : Interactor :=
  { i with tokenSource := .disposed, readTask := .completed, writeTask := .completed }

/-- A live interactor appends a message, any other ignores it. -/
theorem trySendMessage_eq (i : Interactor) (message : Message) : i.trySendMessage message =
    if i.tokenSource = .live then { i with writeQueue := i.writeQueue ++ [message] } else i := by
  unfold trySendMessage sendMessage
  cases h : i.tokenSource <;> simp

/-- To send a message leaves the token alone. -/
@[simp] theorem tokenSource_trySendMessage (i : Interactor) (message : Message) :
    (i.trySendMessage message).tokenSource = i.tokenSource := by
  rw [trySendMessage_eq]
  split <;> rfl

@[simp] private theorem authorizations_trySendMessage (i : Interactor) (message : Message) :
    (i.trySendMessage message).authorizations = i.authorizations := by
  rw [trySendMessage_eq]
  split <;> rfl

@[simp] private theorem readTask_trySendMessage (i : Interactor) (message : Message) :
    (i.trySendMessage message).readTask = i.readTask := by
  rw [trySendMessage_eq]
  split <;> rfl

@[simp] private theorem writeTask_trySendMessage (i : Interactor) (message : Message) :
    (i.trySendMessage message).writeTask = i.writeTask := by
  rw [trySendMessage_eq]
  split <;> rfl

@[simp] private theorem queued_setAuthorization (i : Interactor) (feed topic : String)
    (authorization : AuthorizationResponse) :
    (i.setAuthorization feed topic authorization).queued = i.queued := rfl

@[simp] private theorem tokenSource_setAuthorization (i : Interactor) (feed topic : String)
    (authorization : AuthorizationResponse) :
    (i.setAuthorization feed topic authorization).tokenSource = i.tokenSource := rfl

/-- A stored authorization is found under its feed and topic, and no other changes. -/
theorem tryGetAuthorization_setAuthorization (i : Interactor) (feed topic feed' topic' : String)
    (authorization : AuthorizationResponse) :
    (i.setAuthorization feed topic authorization).tryGetAuthorization feed' topic' =
      if feed' = feed ∧ topic' = topic then some authorization
      else i.tryGetAuthorization feed' topic' := by
  simp only [setAuthorization, tryGetAuthorization, Dictionary.lookup_insert]
  by_cases hf : feed' = feed
  · subst hf
    simp only [if_true, true_and, Dictionary.lookup_insert]
    cases i.authorizations.lookup feed' <;> simp
  · simp [hf]

/-- The key that `HasAuthorization` looks for: the feed as a topic. -/
theorem hasAuthorization_eq (i : Interactor) (feed topic : String) :
    i.hasAuthorization feed topic = (i.tryGetAuthorization feed feed).isSome := by
  unfold hasAuthorization tryGetAuthorization
  cases i.authorizations.lookup feed <;> rfl

end Interactor

/-- The interactors by their `Id`. -/
abbrev Interactors := Guid → Interactor

namespace Interactors

/-- Change one interactor. -/
def modify (objects : Interactors) (id : Guid) (f : Interactor → Interactor) : Interactors :=
  fun id' => if id' = id then f (objects id') else objects id'

/-- Send a message to one interactor, what it throws caught and logged. -/
def trySend (objects : Interactors) (id : Guid) (message : Message) : Interactors :=
  objects.modify id (·.trySendMessage message)

/-- One interactor is changed, and the others are as they were. -/
theorem modify_apply (objects : Interactors) (id id' : Guid) (f : Interactor → Interactor) :
    objects.modify id f id' = if id' = id then f (objects id') else objects id' := rfl

end Interactors

/-- The role manager of the heartbeat interactor, `Server.cs:80–86`. -/
def heartbeatRoleManager : RoleManager where
  distributorRole :=
    { allow := .publish, deny := .union .authorize (.union .notify .subscribe),
      isAuthorizationRequired := false, isImpersonationAllowed := false, isProxyAllowed := false }
  host := "localhost"
  user := "admin"
  impersonating := none
  forwardedFor := none
  feedPermissions := ∅

/-- What is fixed for the life of a distributor: its configuration, and the role manager
that each interactor is made with. -/
structure Settings where
  distributorRole : DistributorRole
  isDebugEnabled : Bool
  heartbeat : Guid
  roleManager : Guid → RoleManager
  roleManager_heartbeat : roleManager heartbeat = heartbeatRoleManager
  roleManager_distributorRole :
    ∀ i, i ≠ heartbeat → (roleManager i).distributorRole = distributorRole

namespace Settings

variable (settings : Settings)

/-- `Interactor.User`, `Interactor.cs:155`. -/
def user (id : Guid) : String := (settings.roleManager id).effectiveUser

/-- `Interactor.Host`, `Interactor.cs:154`. -/
def host (id : Guid) : String := (settings.roleManager id).effectiveHost

/-- `Interactor.Feeds`, `Interactor.cs:145`. -/
def feeds (id : Guid) : List String := (settings.roleManager id).feedPermissions.keys

/-- `Interactor.HasRole`, `Interactor.cs:162–165`. -/
def hasRole (id : Guid) (feed : String) (role : Role) : Bool :=
  (settings.roleManager id).hasRole feed role

/-- A distributor that allows every client the same roles on every feed. -/
def uniform (allow : Role) (isAuthorizationRequired : Bool) : Settings where
  distributorRole :=
    { allow, deny := .none, isAuthorizationRequired,
      isImpersonationAllowed := false, isProxyAllowed := false }
  isDebugEnabled := false
  heartbeat := ⟨0⟩
  roleManager i :=
    if i = ⟨0⟩ then heartbeatRoleManager
    else
      { distributorRole :=
          { allow, deny := .none, isAuthorizationRequired,
            isImpersonationAllowed := false, isProxyAllowed := false }
        host := "host", user := "user", impersonating := none, forwardedFor := none
        feedPermissions := ∅ }
  roleManager_heartbeat := if_pos rfl
  roleManager_distributorRole i hi := by rw [if_neg hi]

/-- A distributor on which every client holds every role. -/
def permissive (isAuthorizationRequired : Bool) : Settings := uniform .all isAuthorizationRequired

/-- A distributor that logs at the debug level and requires no authorization. -/
def debugging : Settings := { permissive false with isDebugEnabled := true }

end Settings

/-! ### The repository -/

/-- `InteractorRepository.cs:12–13`: the registered interactors, and for each feed and
role the interactors that its index lists; the gauge counts calls of `Add` and `Remove`. -/
structure InteractorRepository where
  interactors : HashSet Guid := ∅
  feedRoleInteractors : Dictionary String (Dictionary Role (HashSet Guid)) := ∅
  gauge : Int := 0

namespace InteractorRepository

/-- The roles the index has, in the order `AddFeedRoles` asks for them. -/
def indexedRoles : List Role := [.publish, .subscribe, .notify, .authorize]

/-- One iteration of the inner loop of `AddFeedRoles`. -/
def addRole (settings : Settings) (id : Guid) (feed : String)
    (roleInteractors : Dictionary Role (HashSet Guid)) (role : Role) :
    Dictionary Role (HashSet Guid) :=
  if settings.hasRole id feed role then
    roleInteractors.insert role (((roleInteractors.lookup role).getD ∅).add id)
  else roleInteractors

/-- `AddFeedRoles`, `InteractorRepository.cs:60–78`. -/
def addFeedRoles (settings : Settings) (id : Guid)
    (index : Dictionary String (Dictionary Role (HashSet Guid))) :
    Dictionary String (Dictionary Role (HashSet Guid)) :=
  (settings.feeds id).foldl (fun index feed =>
    let roleInteractors := (index.lookup feed).getD ∅
    index.insert feed (indexedRoles.foldl (addRole settings id feed) roleInteractors)) index

/-- `Add`, `InteractorRepository.cs:22–28`: the repository left, and what was thrown; a
registered `Id` is a duplicate key. -/
def add (settings : Settings) (r : InteractorRepository) (id : Guid) :
    InteractorRepository × Option Exception :=
  let r := { r with gauge := r.gauge + 1 }
  if id ∈ r.interactors then (r, some .argument)
  else
    ({ r with
        interactors := r.interactors.add id
        feedRoleInteractors := addFeedRoles settings id r.feedRoleInteractors }, none)

/-- Whether removing the interactor leaves its set empty. -/
def isEmptied (id : Guid) (interactors : HashSet Guid) : Bool :=
  decide (id ∈ interactors) && (interactors.remove id).isEmpty

/-- The inner loops of `RemoveFeedRoles`: a role whose set was emptied goes. -/
def removeRoles (id : Guid) (roleInteractors : Dictionary Role (HashSet Guid)) :
    Dictionary Role (HashSet Guid) :=
  (roleInteractors.filterEntries fun _ interactors => !isEmptied id interactors).mapValues
    fun _ interactors => interactors.remove id

/-- `RemoveFeedRoles`, `InteractorRepository.cs:80–109`: a feed goes with the last of its
roles, if a role went. -/
def removeFeedRoles (id : Guid) (index : Dictionary String (Dictionary Role (HashSet Guid))) :
    Dictionary String (Dictionary Role (HashSet Guid)) :=
  (index.filterEntries fun _ roleInteractors =>
    !(roleInteractors.entries.any (fun e => isEmptied id e.2) &&
      (removeRoles id roleInteractors).isEmpty)).mapValues
    fun _ roleInteractors => removeRoles id roleInteractors

/-- `Remove`, `InteractorRepository.cs:30–39`, less the call of `Dispose`. -/
def remove (r : InteractorRepository) (id : Guid) : InteractorRepository :=
  { interactors := r.interactors.remove id
    feedRoleInteractors := removeFeedRoles id r.feedRoleInteractors
    gauge := r.gauge - 1 }

/-- `Find(Guid)`, `InteractorRepository.cs:42–47`. -/
def find (r : InteractorRepository) (id : Guid) : Option Guid :=
  if id ∈ r.interactors then some id else none

/-- `Find(string, Role)`, `InteractorRepository.cs:49–58`. -/
def findRole (r : InteractorRepository) (feed : String) (role : Role) : List Guid :=
  match r.feedRoleInteractors.lookup feed with
  | some roleInteractors =>
    match roleInteractors.lookup role with
    | some interactors => interactors.toList
    | none => []
  | none => []

/-- The index lists the interactor under some feed and role. -/
def Indexed (r : InteractorRepository) (id : Guid) : Prop :=
  ∃ feed role, id ∈ r.findRole feed role

/-- The interactors that an index lists under a feed and role. -/
def listed (index : Dictionary String (Dictionary Role (HashSet Guid))) (feed : String)
    (role : Role) : HashSet Guid :=
  (((index.lookup feed).getD ∅).lookup role).getD ∅

private theorem findRole_eq (r : InteractorRepository) (feed : String) (role : Role) :
    r.findRole feed role = (listed r.feedRoleInteractors feed role).toList := by
  unfold findRole listed
  cases hf : r.feedRoleInteractors.lookup feed with
  | none => rfl
  | some roleInteractors =>
    cases hr : roleInteractors.lookup role with
    | none => simp [hr]
    | some interactors => simp [hr]

/-- `FindRole` finds what the index lists. -/
theorem mem_findRole {r : InteractorRepository} {feed : String} {role : Role} {id : Guid} :
    id ∈ r.findRole feed role ↔ id ∈ listed r.feedRoleInteractors feed role := by
  rw [findRole_eq, HashSet.mem_toList]

/-- `FindRole` finds no interactor twice. -/
theorem nodup_findRole (r : InteractorRepository) (feed : String) (role : Role) :
    (r.findRole feed role).Nodup := by
  rw [findRole_eq]
  exact HashSet.nodup _

private theorem mem_addRole {settings : Settings} {id id' : Guid} {feed : String}
    {roles : Dictionary Role (HashSet Guid)} {role role' : Role} :
    id' ∈ ((addRole settings id feed roles role).lookup role').getD ∅ ↔
      (id' = id ∧ role' = role ∧ settings.hasRole id feed role' = true) ∨
        id' ∈ (roles.lookup role').getD ∅ := by
  unfold addRole
  split
  · next hrole =>
    rw [Dictionary.lookup_insert]
    by_cases hr : role' = role
    · subst hr
      simp [hrole]
    · simp [hr]
  · next hrole =>
    have hn : ¬ (id' = id ∧ role' = role ∧ settings.hasRole id feed role' = true) := by
      rintro ⟨-, rfl, h⟩
      exact hrole h
    simp [hn]

/-- The index lists an interactor under the roles that it has. -/
theorem mem_addRoles {settings : Settings} {id id' : Guid} {feed : String}
    (roles : List Role) {index : Dictionary Role (HashSet Guid)} {role : Role} :
    id' ∈ ((roles.foldl (addRole settings id feed) index).lookup role).getD ∅ ↔
      (id' = id ∧ role ∈ roles ∧ settings.hasRole id feed role = true) ∨
        id' ∈ (index.lookup role).getD ∅ := by
  induction roles generalizing index with
  | nil => simp
  | cons r roles ih =>
    rw [List.foldl_cons, ih, mem_addRole, List.mem_cons]
    constructor
    · rintro (⟨hid, hr, hrole⟩ | ⟨hid, hr, hrole⟩ | hm)
      · exact .inl ⟨hid, .inr hr, hrole⟩
      · exact .inl ⟨hid, .inl hr, hrole⟩
      · exact .inr hm
    · rintro (⟨hid, hr | hr, hrole⟩ | hm)
      · exact .inr (.inl ⟨hid, hr, hrole⟩)
      · exact .inl ⟨hid, hr, hrole⟩
      · exact .inr (.inr hm)

/-- `AddFeedRoles` lists the interactor under the feeds that it has permissions for, and
there under the roles that it holds. -/
theorem mem_listed_addFeedRoles {settings : Settings} {id id' : Guid}
    {index : Dictionary String (Dictionary Role (HashSet Guid))} {feed : String} {role : Role} :
    id' ∈ listed (addFeedRoles settings id index) feed role ↔
      (id' = id ∧ feed ∈ settings.feeds id ∧ role ∈ indexedRoles ∧
        settings.hasRole id feed role = true) ∨ id' ∈ listed index feed role := by
  unfold addFeedRoles
  generalize settings.feeds id = feeds
  induction feeds generalizing index with
  | nil => simp
  | cons f feeds ih =>
    rw [List.foldl_cons, ih]
    simp only [listed, Dictionary.lookup_insert, List.mem_cons]
    by_cases hf : feed = f
    · subst hf
      simp only [if_true, Option.getD_some, mem_addRoles, true_or, true_and]
      constructor
      · rintro (⟨hid, -, hr⟩ | hm)
        · exact .inl ⟨hid, hr⟩
        · exact hm
      · exact .inr
    · simp only [hf, if_false, false_or]

private theorem mem_removeRoles {id id' : Guid} {roles : Dictionary Role (HashSet Guid)}
    {role : Role} : id' ∈ ((removeRoles id roles).lookup role).getD ∅ ↔
      id' ≠ id ∧ id' ∈ (roles.lookup role).getD ∅ := by
  rw [removeRoles, Dictionary.lookup_mapValues, Dictionary.lookup_filterEntries]
  cases roles.lookup role with
  | none => simp
  | some interactors =>
    rw [Option.filter_some]
    split
    · simp
    · next he =>
      -- The set that is dropped had only the interactor that is removed.
      have hempty : (interactors.remove id).isEmpty = true := by simp_all [isEmptied]
      have hn := HashSet.isEmpty_iff.mp hempty id'
      rw [HashSet.mem_remove] at hn
      simpa using hn

/-- `RemoveFeedRoles` unlists the interactor, and no other. -/
theorem mem_listed_removeFeedRoles {id id' : Guid}
    {index : Dictionary String (Dictionary Role (HashSet Guid))} {feed : String} {role : Role} :
    id' ∈ listed (removeFeedRoles id index) feed role ↔
      id' ≠ id ∧ id' ∈ listed index feed role := by
  rw [listed, removeFeedRoles, Dictionary.lookup_mapValues, Dictionary.lookup_filterEntries, listed]
  cases index.lookup feed with
  | none => simp
  | some roles =>
    rw [Option.getD_some, ← mem_removeRoles, Option.filter_some]
    split
    · simp
    · next he =>
      have hempty : (removeRoles id roles).isEmpty = true := by simp_all
      rw [Dictionary.eq_empty_of_isEmpty hempty]
      simp

/-- `Add` lists no interactor but the one it adds. -/
theorem indexed_add {settings : Settings} {r : InteractorRepository} {id id' : Guid}
    (hi : (r.add settings id).1.Indexed id') : id' = id ∨ r.Indexed id' := by
  obtain ⟨feed, role, hm⟩ := hi
  rw [mem_findRole] at hm
  simp only [add] at hm
  split at hm
  · exact .inr ⟨feed, role, mem_findRole.mpr hm⟩
  · rcases mem_listed_addFeedRoles.mp hm with ⟨hid, -⟩ | hm
    · exact .inl hid
    · exact .inr ⟨feed, role, mem_findRole.mpr hm⟩

/-- `Remove` unlists the interactor it removes, and lists no other. -/
theorem indexed_remove {r : InteractorRepository} {id id' : Guid}
    (h : (r.remove id).Indexed id') : id' ≠ id ∧ r.Indexed id' := by
  obtain ⟨feed, role, hm⟩ := h
  obtain ⟨hn, hm⟩ := mem_listed_removeFeedRoles.mp (mem_findRole.mp hm)
  exact ⟨hn, feed, role, mem_findRole.mpr hm⟩

end InteractorRepository

end MessageBus.Distributor
