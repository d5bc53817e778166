import MessageBus.Authentication.Passwords

/-!
# Overlapping runs of MakePassword

`utilities/src/MakePassword/Program.cs` beside an authenticator that watches the same file.
The file is not locked between `Load` and `Save`. What the file comes to hold was set by some
run, but a run writes back every user as it loaded them. The passwords that were set last are
kept exactly if no run overwrites what it has not loaded.
-/

namespace MessageBus.Authentication
open MessageBus.Base MessageBus.Common MessageBus.Distributor

/-- The files and the authenticator, and the manager of each process that has loaded one and
not saved it yet. -/
structure Administered (Content : Type) where
  watched : Watched Content
  loaded : Nat → Option JsonPasswordManager

namespace Administered

/-- What happens: a process loads the password file; it sets a password, for which a salt is
made, and saves; another file changes; a watcher raises `Changed`; a client is authenticated. -/
inductive Action (Content : Type) where
  | load (process : Nat)
  | save (process : Nat) (username password : String) (salt : List UInt8)
  | change (file : File) (content : Option Content)
  | raise (watcher : Watcher)
  | authenticate (connectionString : String)

variable {Content : Type} (lib : PasswordLibraries Content)

/-- The password file, whose name the processes are given too. -/
def passwordFile (s : Administered Content) : File := s.watched.authenticator.passwordFile

/-- `Load`, `Program.cs:21`. -/
def load (s : Administered Content) (process : Nat) : Administered Content :=
  { s with
    loaded := Function.update s.loaded process
      (some (.load lib.libraries s.watched.files s.passwordFile)) }

/-- `Save`, `Program.cs:25`, of what `Set` has left, and the end of the process. -/
def save (s : Administered Content) (process : Nat) (manager : JsonPasswordManager) :
    Administered Content where
  watched := s.watched.change s.passwordFile (some (manager.save lib))
  loaded := Function.update s.loaded process none

/-- The state that an action leaves. -/
def step (s : Administered Content) : Action Content → Option (Administered Content)
  | .load process => some (s.load lib process)
  | .save process username password salt =>
    match s.loaded process with
    | none => none
    | some manager =>
      if lib.readsBack username = true ∧ IsSalt salt then
        some (s.save lib process (manager.set lib salt username password))
      else none
  | .change file content =>
    if file = s.passwordFile then none else some { s with watched := s.watched.change file content }
  | .raise watcher => some { s with watched := s.watched.raise lib.libraries watcher }
  | .authenticate _ => some s

/-- An authenticator that was just constructed, and no process. -/
def start (files : Files Content) (passwordFileName roleFileName : FilePath) :
    Administered Content where
  watched := .start lib.libraries files passwordFileName roleFileName
  loaded _ := none

/-- The managers that were loaded, by a process or by the authenticator, and the one that the
file holds. -/
inductive Manager (s : Administered Content) : JsonPasswordManager → Prop
  | file : Manager s (.load lib.libraries s.watched.files s.passwordFile)
  | authenticator : Manager s s.watched.authenticator.passwordManager
  | process {process : Nat} {manager : JsonPasswordManager} :
      s.loaded process = some manager → Manager s manager

/-! ### What was set -/

/-- The password that an action sets for a user. -/
def Action.sets : Action Content → String → Option Password
  | .save _ username password salt, other =>
    if other = username then some (.create lib salt password) else none
  | _, _ => none

/-- The process that loads the file. -/
def Action.loads : Action Content → Option Nat
  | .load process => some process
  | _ => none

variable (files : Files Content) (file : File)

/-- The password of a user that was set last or, where none was set, the one that the file had
at the start. -/
def lastSet : History (Administered Content) (Action Content) → String → Option Password
  | [], username => (JsonPasswordManager.load lib.libraries files file).lookup username
  | (_, a) :: h, username => (a.sets lib username).or (lastSet h username)

/-- What had happened when the process last loaded the file. -/
def beforeLoad (process : Nat) : History (Administered Content) (Action Content) →
    History (Administered Content) (Action Content)
  | [] => []
  | (_, a) :: h => if a.loads = some process then h else beforeLoad process h

/-- The password of a user was set, or the file had it at the start. -/
def WasSet (h : History (Administered Content) (Action Content)) (username : String)
    (item : Password) : Prop :=
  (JsonPasswordManager.load lib.libraries files file).lookup username = some item ∨
    ∃ x ∈ h, x.2.sets lib username = some item

/-- Every entry was set for its user. -/
def Traced (h : History (Administered Content) (Action Content)) (manager : JsonPasswordManager) :
    Prop :=
  ∀ username item, manager.lookup username = some item → WasSet lib files file h username item

/-- A password is saved where those of the other users have not been set otherwise since the
process loaded the file. -/
def UpToDate (h : History (Administered Content) (Action Content)) (_ : Administered Content)
    (a : Action Content) : Prop :=
  ∀ process username password salt, a = .save process username password salt →
    ∀ other, other ≠ username → lastSet lib files file (beforeLoad process h) other =
      lastSet lib files file h other

/-- The file has the passwords that were set last and, once the watcher of the password file
has raised all its events, a client is authenticated exactly by the one of its user. -/
structure Kept (h : History (Administered Content) (Action Content)) (s : Administered Content) :
    Prop where
  saved : ∀ username,
    (JsonPasswordManager.load lib.libraries s.watched.files file).lookup username =
      lastSet lib files file h username
  authenticates : .password ∉ s.watched.pending → ∀ connectionString details,
    PasswordFileConnectionDetails.parse connectionString = .ok details →
      ((∃ response, s.watched.authenticator.authenticate lib.libraries connectionString =
          .ok response) ↔
        ∃ item, lastSet lib files file h details.username = some item ∧
          item.verify lib details.password = .ok true)

variable {lib files file}
variable {h : History (Administered Content) (Action Content)} {s t : Administered Content}
  {a : Action Content} {passwordFileName roleFileName : FilePath}

/-! ### Steps -/

private theorem step_save {process : Nat} {username password : String} {salt : List UInt8}
    (ha : s.step lib (.save process username password salt) = some t) :
    ∃ manager, s.loaded process = some manager ∧ lib.readsBack username = true ∧
      t = s.save lib process (manager.set lib salt username password) := by
  rw [step] at ha
  split at ha
  · cases ha
  · next manager hmanager =>
    split at ha
    · next hname =>
      cases ha
      exact ⟨manager, hmanager, hname.1, rfl⟩
    · cases ha

private theorem step_change {file' : File} {content : Option Content}
    (ha : s.step lib (.change file' content) = some t) :
    file' ≠ s.passwordFile ∧ t = { s with watched := s.watched.change file' content } := by
  rw [step] at ha
  split at ha
  · cases ha
  · next hf =>
    cases ha
    exact ⟨hf, rfl⟩

/-- What the authenticator goes by is kept, whoever changes the files. -/
theorem inv_step (hi : s.watched.Inv lib.libraries files passwordFileName roleFileName)
    (ha : s.step lib a = some t) :
    t.watched.Inv lib.libraries files passwordFileName roleFileName := by
  cases a with
  | load process =>
    cases ha
    exact hi
  | save process username password salt =>
    obtain ⟨manager, -, -, rfl⟩ := step_save ha
    exact Watched.inv_change hi _ _
  | change file' content =>
    obtain ⟨-, rfl⟩ := step_change ha
    exact Watched.inv_change hi _ _
  | raise watcher =>
    cases ha
    exact Watched.inv_raise hi watcher
  | authenticate connectionString =>
    cases ha
    exact hi

private theorem inv_of_run
    (hr : Run (step lib) (start lib files passwordFileName roleFileName) h s) :
    s.watched.Inv lib.libraries files passwordFileName roleFileName :=
  hr.invariant (P := fun s => s.watched.Inv lib.libraries files passwordFileName roleFileName)
    Watched.inv_start fun _ _ _ hi ha => inv_step hi ha

/-- A file that was saved is the manager that was saved. -/
theorem load_save {manager : JsonPasswordManager} (hm : manager.Sound lib) (process : Nat) :
    JsonPasswordManager.load lib.libraries (s.save lib process manager).watched.files
      s.passwordFile = manager := by
  apply JsonPasswordManager.load_save hm
  simp only [save, Watched.change, if_true]

/-! ### What is loaded was set -/

/-- What was set before the last step was set. -/
theorem WasSet.next {username : String} {item : Password}
    (hw : WasSet lib files file h username item) (x : Administered Content × Action Content) :
    WasSet lib files file (x :: h) username item := by
  rcases hw with hw | ⟨y, hy, hset⟩
  · exact .inl hw
  · exact .inr ⟨y, List.mem_cons_of_mem x hy, hset⟩

/-- What could be traced before the last step can be traced. -/
theorem Traced.next {manager : JsonPasswordManager} (hm : Traced lib files file h manager)
    (x : Administered Content × Action Content) : Traced lib files file (x :: h) manager :=
  fun username item hitem => (hm username item hitem).next x

/-- A password that is set is traced to the action that sets it. -/
theorem Traced.set {manager : JsonPasswordManager} (hm : Traced lib files file h manager)
    (s : Administered Content) (process : Nat) (username password : String) (salt : List UInt8) :
    Traced lib files file ((s, .save process username password salt) :: h)
      (manager.set lib salt username password) := by
  intro other item hitem
  rw [JsonPasswordManager.lookup_set] at hitem
  split at hitem
  · next hother => exact .inr ⟨_, List.mem_cons_self .., by rw [Action.sets, if_pos hother, hitem]⟩
  · exact (hm other item hitem).next _

/-- A manager was there before, or a process has set a password in one that was. -/
theorem Manager.of_step {manager : JsonPasswordManager} (hm : Manager lib t manager)
    (hsound : ∀ manager, Manager lib s manager → manager.Sound lib)
    (ha : s.step lib a = some t) : Manager lib s manager ∨
      ∃ process username password salt old, a = .save process username password salt ∧
        Manager lib s old ∧ lib.readsBack username = true ∧
        manager = old.set lib salt username password := by
  cases a with
  | load process =>
    cases ha
    left
    cases hm with
    | file => exact .file
    | authenticator => exact .authenticator
    | process hloaded =>
      simp only [load, Function.update_apply] at hloaded
      split at hloaded
      · cases hloaded
        exact .file
      · exact .process hloaded
  | save process username password salt =>
    obtain ⟨old, hold, hname, rfl⟩ := step_save ha
    cases hm with
    | file =>
      right
      refine ⟨process, username, password, salt, old, rfl, .process hold, hname, ?_⟩
      exact load_save ((hsound old (.process hold)).set salt hname password) process
    | authenticator => exact .inl .authenticator
    | process hloaded =>
      left
      simp only [save, Function.update_apply] at hloaded
      split at hloaded
      · cases hloaded
      · exact .process hloaded
  | change file' content =>
    obtain ⟨hne, rfl⟩ := step_change ha
    left
    cases hm with
    | file =>
      show Manager lib s (.load lib.libraries (s.watched.change file' content).files s.passwordFile)
      rw [Watched.load_change_of_ne hne.symm]
      exact .file
    | authenticator => exact .authenticator
    | process hloaded => exact .process hloaded
  | raise watcher =>
    cases ha
    left
    cases hm with
    | file => exact .file
    | authenticator => exact .file
    | process hloaded => exact .process hloaded
  | authenticate connectionString =>
    cases ha
    exact .inl hm

/-- Every manager can be saved, and its entries were set. -/
def AllTraced (lib : PasswordLibraries Content) (files : Files Content) (file : File)
    (h : History (Administered Content) (Action Content)) (s : Administered Content) : Prop :=
  ∀ manager, Manager lib s manager → manager.Sound lib ∧ Traced lib files file h manager

private theorem allTraced_step (hi : AllTraced lib files file h s) (ha : s.step lib a = some t) :
    AllTraced lib files file ((s, a) :: h) t := by
  intro manager hm
  rcases hm.of_step (fun manager hm => (hi manager hm).1) ha with hold | hset
  · exact ⟨(hi manager hold).1, (hi manager hold).2.next _⟩
  · obtain ⟨process, username, password, salt, old, rfl, hold, hname, rfl⟩ := hset
    obtain ⟨hsound, htraced⟩ := hi old hold
    exact ⟨hsound.set salt hname password, htraced.set s process username password salt⟩

private theorem allTraced_of_run
    (hsound : (JsonPasswordManager.load lib.libraries files passwordFileName.file).Sound lib)
    (hr : Run (step lib) (start lib files passwordFileName roleFileName) h s) :
    AllTraced lib files passwordFileName.file h s := by
  induction hr with
  | start =>
    intro manager hm
    cases hm with
    | file => exact ⟨hsound, fun username item hitem => .inl hitem⟩
    | authenticator => exact ⟨hsound, fun username item hitem => .inl hitem⟩
    | process hloaded => cases hloaded
  | next _ ha ih => exact allTraced_step ih ha

/-! ### Who is authenticated -/

private theorem authenticate_eq_ok_iff {authenticator : PasswordFileAuthenticator}
    (hsound : authenticator.passwordManager.Sound lib) {connectionString : String}
    {response : AuthenticationResponse} :
    authenticator.authenticate lib.libraries connectionString = .ok response ↔
      ∃ details, PasswordFileConnectionDetails.parse connectionString = .ok details ∧
        (∃ item, authenticator.passwordManager.lookup details.username = some item ∧
          item.verify lib details.password = .ok true) ∧
        response = ⟨details.username, "BASIC", details.impersonating, details.forwardedFor,
          details.application, authenticator.roleManager.lookup details.username⟩ := by
  have hvalid (username password : String) :
      authenticator.passwordManager.isValid lib.libraries username password = true ↔
        ∃ item, authenticator.passwordManager.lookup username = some item ∧
          item.verify lib password = .ok true := by
    rw [JsonPasswordManager.isValid]
    cases hitem : authenticator.passwordManager.lookup username with
    | none => simp
    | some item => simp [isValid_iff lib (hsound username item hitem).2]
  rw [PasswordFileAuthenticator.authenticate, Authenticator.respond, bind_eq_ok_iff]
  refine exists_congr fun details => and_congr_right fun _ => ?_
  rw [← hvalid]
  cases hv : authenticator.passwordManager.isValid lib.libraries details.username
      details.password with
  | false =>
    constructor
    · intro h
      cases h
    · rintro ⟨h, -⟩
      cases h
  | true => exact ⟨fun h => ⟨rfl, (Except.ok.inj h).symm⟩, fun h => congrArg Except.ok h.2.symm⟩

private theorem sets_eq_some {username : String} {item : Password}
    (h : a.sets lib username = some item) :
    ∃ process password salt, a = .save process username password salt ∧
      item = .create lib salt password := by
  cases a with
  | save process other password salt =>
    rw [Action.sets] at h
    split at h
    · next hother =>
      cases h
      exact ⟨process, password, salt, by rw [hother], rfl⟩
    · cases h
  | _ => cases h

/-- However runs of the program, changes of files and events of the watchers interleave, a
client is authenticated by a password that its user had at the start, or by one that hashes as
one that some run has set for the user. -/
theorem authenticated_by_set_password
    (hsound : (JsonPasswordManager.load lib.libraries files passwordFileName.file).Sound lib)
    (hr : Run (step lib) (start lib files passwordFileName roleFileName) h s)
    {connectionString : String} {response : AuthenticationResponse}
    (hauth : s.watched.authenticator.authenticate lib.libraries connectionString =
      .ok response) :
    ∃ details, PasswordFileConnectionDetails.parse connectionString = .ok details ∧
      response.user = details.username ∧
      ((∃ item, (JsonPasswordManager.load lib.libraries files passwordFileName.file).lookup
          response.user = some item ∧ item.verify lib details.password = .ok true) ∨
        ∃ x ∈ h, ∃ process password salt, x.2 = .save process response.user password salt ∧
          SameHash lib salt details.password password) := by
  obtain ⟨hloaded, htraced⟩ := allTraced_of_run hsound hr _ .authenticator
  obtain ⟨details, hparse, ⟨item, hitem, hverify⟩, rfl⟩ := (authenticate_eq_ok_iff hloaded).mp hauth
  refine ⟨details, hparse, rfl, ?_⟩
  rcases htraced details.username item hitem with hfirst | ⟨x, hx, hset⟩
  · exact .inl ⟨item, hfirst, hverify⟩
  · obtain ⟨process, password, salt, hsave, rfl⟩ := sets_eq_some hset
    exact .inr ⟨x, hx, process, password, salt, hsave, (verify_create lib salt _ _).mp hverify⟩

/-! ### Passwords that are kept -/

/-- The authenticator follows the file. -/
theorem kept_iff (hi : s.watched.Inv lib.libraries files passwordFileName roleFileName)
    (hsound : s.watched.authenticator.passwordManager.Sound lib) :
    Kept lib files passwordFileName.file h s ↔ ∀ username,
      (JsonPasswordManager.load lib.libraries s.watched.files passwordFileName.file).lookup
        username = lastSet lib files passwordFileName.file h username := by
  refine ⟨Kept.saved, fun hsaved => ⟨hsaved, fun hpending connectionString details hparse => ?_⟩⟩
  have hmanager := hi.passwordManager.resolve_left hpending
  rw [← hsaved, ← hmanager]
  constructor
  · rintro ⟨response, hresponse⟩
    obtain ⟨details', hparse', hitem, -⟩ := (authenticate_eq_ok_iff hsound).mp hresponse
    rw [hparse] at hparse'
    cases hparse'
    exact hitem
  · exact fun hitem => ⟨_, (authenticate_eq_ok_iff hsound).mpr ⟨details, hparse, hitem, rfl⟩⟩

/-- A process has what was set last when it loaded the file. -/
def LoadedLast (lib : PasswordLibraries Content) (files : Files Content) (file : File)
    (h : History (Administered Content) (Action Content)) (s : Administered Content) : Prop :=
  ∀ process manager, s.loaded process = some manager → ∀ username,
    manager.lookup username = lastSet lib files file (beforeLoad process h) username

/-- A step that saves nothing leaves the file, and what was set last. -/
theorem saved_of_step (ha : s.step lib a = some t)
    (hsave : ∀ process username password salt, a ≠ .save process username password salt)
    (username : String) :
    JsonPasswordManager.load lib.libraries t.watched.files s.passwordFile =
        JsonPasswordManager.load lib.libraries s.watched.files s.passwordFile ∧
      lastSet lib files file ((s, a) :: h) username = lastSet lib files file h username := by
  cases a with
  | save process username password salt => exact absurd rfl (hsave process username password salt)
  | change file' content =>
    obtain ⟨hne, rfl⟩ := step_change ha
    exact ⟨Watched.load_change_of_ne hne.symm content, rfl⟩
  | _ =>
    cases ha
    exact ⟨rfl, rfl⟩

/-- What a process saves are the passwords that were set last exactly if it has loaded those of
the other users. -/
theorem saved_iff {manager : JsonPasswordManager} {process : Nat} {username password : String}
    {salt : List UInt8} : (∀ other, (manager.set lib salt username password).lookup other =
        lastSet lib files file ((s, .save process username password salt) :: h) other) ↔
      ∀ other, other ≠ username → manager.lookup other = lastSet lib files file h other := by
  refine forall_congr' fun other => ?_
  rw [JsonPasswordManager.lookup_set, lastSet, Action.sets]
  by_cases hother : other = username
  · simp [hother]
  · simp [hother]

private theorem loadedLast_step (hi : LoadedLast lib files s.passwordFile h s)
    (hsaved : ∀ username,
      (JsonPasswordManager.load lib.libraries s.watched.files s.passwordFile).lookup username =
        lastSet lib files s.passwordFile h username)
    (ha : s.step lib a = some t) : LoadedLast lib files s.passwordFile ((s, a) :: h) t := by
  intro process manager hmanager username
  cases a with
  | load process' =>
    cases ha
    simp only [load, Function.update_apply] at hmanager
    split at hmanager
    · next hprocess =>
      cases hmanager
      rw [beforeLoad, Action.loads, if_pos (congrArg some hprocess.symm)]
      exact hsaved username
    · next hprocess =>
      rw [beforeLoad, Action.loads, if_neg fun h => hprocess (Option.some.inj h).symm]
      exact hi process manager hmanager username
  | save process' username' password salt =>
    obtain ⟨old, -, -, rfl⟩ := step_save ha
    simp only [save, Function.update_apply] at hmanager
    split at hmanager
    · cases hmanager
    · exact hi process manager hmanager username
  | change file' content =>
    obtain ⟨-, rfl⟩ := step_change ha
    exact hi process manager hmanager username
  | _ =>
    cases ha
    exact hi process manager hmanager username

/-- Where the file has what was set last, a step keeps it so exactly if it saves nothing that
the process has not loaded. -/
theorem saved_step_iff (hi : LoadedLast lib files s.passwordFile h s)
    (hsound : ∀ manager, Manager lib s manager → manager.Sound lib)
    (hsaved : ∀ username,
      (JsonPasswordManager.load lib.libraries s.watched.files s.passwordFile).lookup username =
        lastSet lib files s.passwordFile h username)
    (ha : s.step lib a = some t) : (∀ username,
      (JsonPasswordManager.load lib.libraries t.watched.files s.passwordFile).lookup username =
        lastSet lib files s.passwordFile ((s, a) :: h) username) ↔
      UpToDate lib files s.passwordFile h s a := by
  by_cases hsave : ∃ process username password salt, a = .save process username password salt
  · obtain ⟨process, username, password, salt, rfl⟩ := hsave
    obtain ⟨manager, hmanager, hname, rfl⟩ := step_save ha
    rw [load_save ((hsound manager (.process hmanager)).set salt hname password), saved_iff]
    simp only [UpToDate, hi process manager hmanager]
    constructor
    · rintro h process username password salt ⟨⟩
      exact h
    · exact fun h => h process username password salt rfl
  · have hno (process : Nat) (username password : String) (salt : List UInt8) :
        a ≠ .save process username password salt :=
      fun h => hsave ⟨process, username, password, salt, h⟩
    refine iff_of_true (fun username => ?_) ?_
    · obtain ⟨hfile, hlast⟩ := saved_of_step ha hno username
      rw [hfile, hlast]
      exact hsaved username
    · exact fun process username password salt h => absurd h (hno process username password salt)

/-- Overlapping runs of the program lose no password, and authentication goes by the passwords
that were set last, exactly if each run saves where those of the other users have not been set
otherwise since it loaded the file. -/
theorem passwords_kept_iff
    (hsound : (JsonPasswordManager.load lib.libraries files passwordFileName.file).Sound lib)
    (hr : Run (step lib) (start lib files passwordFileName roleFileName) h s) :
    Always (Kept lib files passwordFileName.file) h s ↔
      Throughout (UpToDate lib files passwordFileName.file) h := by
  have hfile {h : History (Administered Content) (Action Content)} {s : Administered Content}
      (hr : Run (step lib) (start lib files passwordFileName roleFileName) h s) :
      s.passwordFile = passwordFileName.file :=
    (inv_of_run hr).passwordFile
  have hall {h : History (Administered Content) (Action Content)} {s : Administered Content}
      (hr : Run (step lib) (start lib files passwordFileName roleFileName) h s)
      (manager : JsonPasswordManager) (hm : Manager lib s manager) : manager.Sound lib :=
    (allTraced_of_run hsound hr manager hm).1
  apply Run.always_iff_throughout (I := LoadedLast lib files passwordFileName.file)
    (H := fun _ _ _ => True) hr
  · exact (kept_iff Watched.inv_start hsound).mpr fun username => rfl
  · exact nofun
  · intro h r a t hr hi hp _ ha
    rw [kept_iff (inv_of_run (hr.next ha)) (hall (hr.next ha) _ .authenticator)]
    have hsaved := hp.saved
    rw [← hfile hr] at hi hsaved ⊢
    exact saved_step_iff hi (hall hr) hsaved ha
  · intro h r a t hr hi hp _ _ ha
    have hsaved := hp.saved
    rw [← hfile hr] at hi hsaved ⊢
    exact loadedLast_step hi hsaved ha
  · exact throughout_of_forall_mem (G := fun _ _ => True) fun _ _ => trivial

/-! ### Two runs of the program -/

/-- Files hold their values, every name is read back, and what is hashed is its own hash. -/
def ofPasswords : PasswordLibraries Watched.Document where
  computeHash bytes := bytes
  serialize := .passwords
  passwords := Watched.ofDocuments.passwords
  userFeedRoles := Watched.ofDocuments.userFeedRoles
  readsBack _ := true
  passwords_serialize _ _ := rfl

/-- A salt. -/
def onesSalt : List UInt8 := List.replicate saltLengthLimit 1

private theorem sound_empty : JsonPasswordManager.Sound lib ∅ := fun _ _ hitem => by
  rw [AList.lookup_empty] at hitem
  cases hitem

/-- Alice's password is set and the watcher tells of it. -/
theorem authenticated_by_set_password_of_alice :
    ∃ h s response, Run (step ofPasswords) (start ofPasswords (fun _ => none)
        ⟨"/etc/bus", "passwords.json"⟩ ⟨"/etc/bus", "roles.json"⟩) h s ∧
      s.watched.authenticator.authenticate ofPasswords.libraries
        "Username=alice;Password=secret" = .ok response ∧
      ∃ x ∈ h, ∃ process password salt, x.2 = .save process response.user password salt ∧
        SameHash ofPasswords salt "secret" password := by
  have hstart : Run (step ofPasswords) (start ofPasswords (fun _ => none)
      ⟨"/etc/bus", "passwords.json"⟩ ⟨"/etc/bus", "roles.json"⟩) [] _ := .start
  have hsteps := ((hstart.next (a := .load 0) rfl).next
    (a := .save 0 "alice" "secret" onesSalt) rfl).next (a := .raise .password) rfl
  obtain ⟨h, s, hr, hauth⟩ : ∃ h s, Run (step ofPasswords) (start ofPasswords (fun _ => none)
        ⟨"/etc/bus", "passwords.json"⟩ ⟨"/etc/bus", "roles.json"⟩) h s ∧
      s.watched.authenticator.authenticate ofPasswords.libraries
        "Username=alice;Password=secret" = .ok ⟨"alice", "BASIC", none, none, none, none⟩ :=
    ⟨_, _, hsteps, rfl⟩
  obtain ⟨details, hparse, -, hset⟩ := authenticated_by_set_password sound_empty hr hauth
  cases hparse
  refine ⟨h, s, _, hr, hauth, hset.resolve_left ?_⟩
  rintro ⟨item, hitem, -⟩
  cases hitem

/-- Bob's run overwrites the password that Alice's run has set since Bob's loaded the file. -/
theorem passwords_kept_iff_of_overlap :
    ∃ h s, Run (step ofPasswords) (start ofPasswords (fun _ => none)
        ⟨"/etc/bus", "passwords.json"⟩ ⟨"/etc/bus", "roles.json"⟩) h s ∧
      h.map Prod.snd = [.save 1 "bob" "hunter2" onesSalt, .save 0 "alice" "secret" onesSalt,
        .load 1, .load 0] ∧
      ¬ Always (Kept ofPasswords (fun _ => none) ⟨"/etc/bus", "passwords.json"⟩) h s := by
  have hstart : Run (step ofPasswords) (start ofPasswords (fun _ => none)
      ⟨"/etc/bus", "passwords.json"⟩ ⟨"/etc/bus", "roles.json"⟩) [] _ := .start
  have hr := (((hstart.next (a := .load 0) rfl).next (a := .load 1) rfl).next
    (a := .save 0 "alice" "secret" onesSalt) rfl).next
    (a := .save 1 "bob" "hunter2" onesSalt) rfl
  refine ⟨_, _, hr, rfl, fun hkept => ?_⟩
  obtain ⟨-, hlast⟩ := (passwords_kept_iff sound_empty hr).mp hkept
  have halice := hlast 1 "bob" "hunter2" onesSalt rfl "alice" (by decide)
  cases halice

end Administered

end MessageBus.Authentication
