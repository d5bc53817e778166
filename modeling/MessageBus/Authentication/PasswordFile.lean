import MessageBus.Base.Run
import MessageBus.Authentication.Handshake

/-!
# The password file authenticator

`extensions/authentication/src/JetBlack.MessageBus.Extension.PasswordFileAuthentication`.
The authenticator loads a password file and a role file, and watches for changes of
either: both watchers are made with the name of the password file
(`PasswordFileAuthenticator.cs:43`), and both call one handler, which loads the passwords
(lines 53–56). Here it runs among files that change.
-/

namespace MessageBus.Authentication
open MessageBus.Base MessageBus.Common MessageBus.Distributor

/-! ### Files -/

/-- A file, by its folder and its name there. -/
structure File where
  folder : String
  name : String
  deriving DecidableEq

/-- A path as `Path.GetDirectoryName` and `Path.GetFileName` take it apart. -/
structure FilePath where
  directoryName : String
  fileName : String

/-- The file of a path. -/
def FilePath.file (path : FilePath) : File :=
  ⟨if path.directoryName = "" then "." else path.directoryName, path.fileName⟩

/-- The contents of the files that exist. -/
abbrev Files (Content : Type) := File → Option Content

/-- `FileSystemWatcher`. -/
structure FileSystemWatcher where
  path : String
  filter : String

/-- The watcher raises `Changed` for the file. -/
def FileSystemWatcher.watches (watcher : FileSystemWatcher) (file : File) : Bool :=
  file.folder == watcher.path && file.name == watcher.filter

/-! ### Passwords and roles -/

/-- `Password.cs`: the salt and the hash of a password, as text. -/
structure Password where
  salt : String
  hash : String

/-- `PermissionConfig.cs`. -/
structure PermissionConfig where
  allow : Option (List Role)
  deny : Option (List Role)

/-- What is used of the serializer and of the hash algorithm: the values that a content
deserializes to, `none` for null, and the hash of a salt and a password. -/
structure Libraries (Content : Type) where
  passwords : Content → Option (Dictionary String Password)
  userFeedRoles : Content →
    Option (Dictionary String (Dictionary String (Dictionary String PermissionConfig)))
  makeHash : String → String → String

variable {Content : Type} (lib : Libraries Content)

/-- `Password.IsValid`, `Password.cs:29–33`. -/
def Password.isValid (item : Password) (password : String) : Bool :=
  lib.makeHash item.salt password == item.hash

/-- `JsonPasswordManager.cs`. -/
abbrev JsonPasswordManager := Dictionary String Password

/-- `JsonPasswordManager.IsValid`, `JsonPasswordManager.cs:34–37`. -/
def JsonPasswordManager.isValid (manager : JsonPasswordManager) (username password : String) :
    Bool :=
  match manager.lookup username with
  | some item => item.isValid lib password
  | none => false

/-- `JsonPasswordManager.Load`, `JsonPasswordManager.cs:39–61`. -/
def JsonPasswordManager.load (files : Files Content) (file : File) : JsonPasswordManager :=
  match files file with
  | none => ∅
  | some content => (lib.passwords content).getD ∅

/-- The roles of a list are joined. -/
def PermissionConfig.toPermission (config : PermissionConfig) : Permission where
  allow := (config.allow.map (List.foldl Role.union .none)).getD .none
  deny := (config.deny.map (List.foldl Role.union .none)).getD .none

/-- `JsonRoleManager.cs`: the permissions by user, feed and host. -/
abbrev JsonRoleManager := Dictionary String (Dictionary String (Dictionary String Permission))

/-- `JsonRoleManager.Load`, `JsonRoleManager.cs:25–56`. -/
def JsonRoleManager.load (files : Files Content) (file : File) : JsonRoleManager :=
  match files file with
  | none => ∅
  | some content =>
    match lib.userFeedRoles content with
    | none => ∅
    | some userFeedRoles =>
      Dictionary.mapValues (fun _ feeds => Dictionary.mapValues (fun _ hosts =>
        Dictionary.mapValues (fun _ config => config.toPermission) hosts) feeds) userFeedRoles

/-! ### The authenticator -/

/-- The fields of `PasswordFileAuthenticator`, `PasswordFileAuthenticator.cs:13–17`. -/
structure PasswordFileAuthenticator where
  passwordFile : File
  passwordWatcher : FileSystemWatcher
  passwordManager : JsonPasswordManager
  roleFile : File
  roleWatcher : FileSystemWatcher
  roleManager : JsonRoleManager

namespace PasswordFileAuthenticator

/-- The constructor on two paths, `PasswordFileAuthenticator.cs:24–50`: the filter of the role
watcher is the name of the password file. -/
def create (files : Files Content) (passwordFileName roleFileName : FilePath) :
    PasswordFileAuthenticator where
  passwordFile := passwordFileName.file
  passwordWatcher := ⟨passwordFileName.file.folder, passwordFileName.fileName⟩
  passwordManager := .load lib files passwordFileName.file
  roleFile := roleFileName.file
  roleWatcher := ⟨roleFileName.file.folder, passwordFileName.fileName⟩
  roleManager := .load lib files roleFileName.file

/-- The constructor, `PasswordFileAuthenticator.cs:19–51`, on the paths that the arguments
expand to. -/
def new (files : Files Content) : Option (List FilePath) →
    Except Exception PasswordFileAuthenticator
  | some [passwordFileName, roleFileName] => .ok (create lib files passwordFileName roleFileName)
  | _ => .error (.invalidArgument "Usage: <password-file> <role-file>")

/-- The authenticator takes exactly two arguments. -/
theorem new_eq_ok_iff {files : Files Content} {args : Option (List FilePath)}
    {authenticator : PasswordFileAuthenticator} : new lib files args = .ok authenticator ↔
      ∃ passwordFileName roleFileName, args = some [passwordFileName, roleFileName] ∧
        create lib files passwordFileName roleFileName = authenticator := by
  unfold new
  split
  · next passwordFileName roleFileName =>
    rw [Except.ok.injEq]
    constructor
    · exact fun h => ⟨passwordFileName, roleFileName, rfl, h⟩
    · rintro ⟨_, _, ⟨⟩, h⟩
      exact h
  · next hargs =>
    refine iff_of_false nofun ?_
    rintro ⟨p, q, rfl, -⟩
    exact hargs p q rfl

/-- `OnChanged`, `PasswordFileAuthenticator.cs:53–56`, whichever watcher raised it. -/
def onChanged (files : Files Content) (authenticator : PasswordFileAuthenticator) :
    PasswordFileAuthenticator :=
  { authenticator with passwordManager := .load lib files authenticator.passwordFile }

/-- `Authenticate`, `PasswordFileAuthenticator.cs:95–115`, once the connection string is
read. -/
def authenticate (authenticator : PasswordFileAuthenticator) :
    String → Except Exception AuthenticationResponse :=
  Authenticator.respond
    (.passwordFile (authenticator.passwordManager.isValid lib) authenticator.roleManager)

end PasswordFileAuthenticator

/-! ### Files that change -/

/-- The two watchers. -/
inductive Watcher where
  | password
  | role
  deriving DecidableEq

/-- The files, the authenticator, and the events that its watchers have yet to raise. -/
structure Watched (Content : Type) where
  files : Files Content
  authenticator : PasswordFileAuthenticator
  pending : List Watcher := []

namespace Watched

/-- What happens: a file gets another content or is deleted, a watcher raises `Changed`, a
client is authenticated. -/
inductive Action (Content : Type) where
  | change (file : File) (content : Option Content)
  | raise (watcher : Watcher)
  | authenticate (connectionString : String)

/-- The events that are due once a file has changed. -/
def due (s : Watched Content) (file : File) : List Watcher :=
  (if s.authenticator.passwordWatcher.watches file then [.password] else []) ++
    if s.authenticator.roleWatcher.watches file then [.role] else []

/-- A watcher raises `Changed`, for a change that is pending or once more. -/
def raise (s : Watched Content) (watcher : Watcher) : Watched Content :=
  { s with
    authenticator := s.authenticator.onChanged lib s.files
    pending := s.pending.erase watcher }

/-- A file changes. -/
def change (s : Watched Content) (file : File) (content : Option Content) : Watched Content :=
  { s with
    files := fun file' => if file' = file then content else s.files file'
    pending := s.pending ++ s.due file }

/-- The state that an action leaves. -/
def step (s : Watched Content) : Action Content → Option (Watched Content)
  | .change file content => some (s.change file content)
  | .raise watcher => some (s.raise lib watcher)
  | .authenticate _ => some s

/-- An authenticator that was just constructed. -/
def start (files : Files Content) (passwordFileName roleFileName : FilePath) :
    Watched Content where
  files := files
  authenticator := .create lib files passwordFileName roleFileName

/-- Watchers raise `Changed` one after another. -/
def raises (s : Watched Content) (watchers : List Watcher) : Watched Content :=
  watchers.foldl (raise lib) s

/-! ### What is kept current -/

variable (passwordFileName roleFileName : FilePath)

/-- Passwords are judged by the password file as it is and roles come from the role file as it
is: a client is answered as by an authenticator constructed now. -/
structure Current (s : Watched Content) : Prop where
  passwords : ∀ username password,
    s.authenticator.passwordManager.isValid lib username password =
      (JsonPasswordManager.load lib s.files passwordFileName.file).isValid lib username password
  feedRoles : ∀ username, s.authenticator.roleManager.lookup username =
    (JsonRoleManager.load lib s.files roleFileName.file).lookup username
  authenticates : ∀ connectionString, s.authenticator.authenticate lib connectionString =
    (PasswordFileAuthenticator.create lib s.files passwordFileName roleFileName).authenticate lib
      connectionString

/-- Once the watchers have raised all pending events, in any order, the authenticator is
current. -/
def KeptCurrent (s : Watched Content) : Prop :=
  ∀ watchers, (s.raises lib watchers).pending = [] →
    Current lib passwordFileName roleFileName (s.raises lib watchers)

variable {lib passwordFileName roleFileName}

/-- What answers a client depends on the validity of passwords and on the roles of users. -/
theorem authenticate_congr {a b : PasswordFileAuthenticator}
    (hp : ∀ username password, a.passwordManager.isValid lib username password =
      b.passwordManager.isValid lib username password)
    (hr : ∀ username, a.roleManager.lookup username = b.roleManager.lookup username)
    (connectionString : String) :
    a.authenticate lib connectionString = b.authenticate lib connectionString := by
  simp only [PasswordFileAuthenticator.authenticate, Authenticator.respond, Authenticator.method,
    hp, hr]

/-- A change of the password file that is not pending any more has been loaded, and the roles
are those that were loaded first. -/
structure Inv (lib : Libraries Content) (files : Files Content)
    (passwordFileName roleFileName : FilePath) (s : Watched Content) : Prop where
  passwordFile : s.authenticator.passwordFile = passwordFileName.file
  passwordWatcher : s.authenticator.passwordWatcher =
    ⟨passwordFileName.file.folder, passwordFileName.fileName⟩
  passwordManager : .password ∈ s.pending ∨
    s.authenticator.passwordManager = .load lib s.files passwordFileName.file
  roleManager : s.authenticator.roleManager = .load lib files roleFileName.file

variable {files : Files Content} {s : Watched Content}

/-- The invariant holds when the service starts. -/
theorem inv_start : Inv lib files passwordFileName roleFileName
    (start lib files passwordFileName roleFileName) :=
  ⟨rfl, rfl, .inr rfl, rfl⟩

/-- What is loaded from one file does not depend on the other. -/
theorem load_change_of_ne {file file' : File} (h : file' ≠ file) (content : Option Content) :
    JsonPasswordManager.load lib (s.change file content).files file' =
      JsonPasswordManager.load lib s.files file' := by
  simp only [JsonPasswordManager.load, change, if_neg h]

/-- A change of a file keeps the invariant. -/
theorem inv_change (hi : Inv lib files passwordFileName roleFileName s) (file : File)
    (content : Option Content) :
    Inv lib files passwordFileName roleFileName (s.change file content) := by
  refine ⟨hi.passwordFile, hi.passwordWatcher, ?_, hi.roleManager⟩
  by_cases hf : passwordFileName.file = file
  · -- The password watcher is made for this file.
    left
    subst hf
    have hwatch : s.authenticator.passwordWatcher.watches passwordFileName.file = true := by
      rw [hi.passwordWatcher]
      simp [FileSystemWatcher.watches, FilePath.file]
    simp [change, due, hwatch]
  · rcases hi.passwordManager with hp | hp
    · exact .inl (List.mem_append_left _ hp)
    · right
      rw [load_change_of_ne hf]
      exact hp

/-- An event that a watcher raises keeps the invariant. -/
theorem inv_raise (hi : Inv lib files passwordFileName roleFileName s) (watcher : Watcher) :
    Inv lib files passwordFileName roleFileName (s.raise lib watcher) := by
  refine ⟨hi.passwordFile, hi.passwordWatcher, .inr ?_, hi.roleManager⟩
  rw [← hi.passwordFile]
  rfl

/-- Every step keeps the invariant. -/
theorem inv_step {a : Action Content} {t : Watched Content}
    (hi : Inv lib files passwordFileName roleFileName s) (ha : s.step lib a = some t) :
    Inv lib files passwordFileName roleFileName t := by
  cases a with
  | change file content =>
    cases ha
    exact inv_change hi file content
  | raise watcher =>
    cases ha
    exact inv_raise hi watcher
  | authenticate connectionString =>
    cases ha
    exact hi

/-! ### Events are handled -/

private theorem inv_raises (hi : Inv lib files passwordFileName roleFileName s)
    (watchers : List Watcher) :
    Inv lib files passwordFileName roleFileName (s.raises lib watchers) :=
  List.foldlRecOn (motive := Inv lib files passwordFileName roleFileName) watchers (raise lib) hi
    fun _ h watcher _ => inv_raise h watcher

private theorem files_raises (s : Watched Content) (watchers : List Watcher) :
    (s.raises lib watchers).files = s.files := by
  induction watchers generalizing s with
  | nil => rfl
  | cons watcher watchers ih => exact ih (s.raise lib watcher)

private theorem pending_raises (s : Watched Content) (watchers : List Watcher) :
    (s.raises lib watchers).pending = s.pending.diff watchers := by
  induction watchers generalizing s with
  | nil => rfl
  | cons watcher watchers ih =>
    rw [List.diff_cons]
    exact ih (s.raise lib watcher)

private theorem diff_self (watchers : List Watcher) : watchers.diff watchers = [] := by
  induction watchers with
  | nil => rfl
  | cons watcher watchers ih => rw [List.diff_cons, List.erase_cons_head, ih]

/-- The roles of every user are those that were loaded first. -/
def RolesStand (lib : Libraries Content) (files files' : Files Content) (roleFileName : FilePath) :
    Prop :=
  ∀ username, (JsonRoleManager.load lib files roleFileName.file).lookup username =
    (JsonRoleManager.load lib files' roleFileName.file).lookup username

/-- An authenticator is kept current exactly as long as the role file says what it said when it
was constructed. -/
theorem keptCurrent_iff (hi : Inv lib files passwordFileName roleFileName s) :
    KeptCurrent lib passwordFileName roleFileName s ↔
      RolesStand lib files s.files roleFileName := by
  constructor
  · intro h username
    have hsettled : (s.raises lib s.pending).pending = [] := by
      rw [pending_raises, diff_self]
    have hroles := (h s.pending hsettled).feedRoles username
    rwa [(inv_raises hi s.pending).roleManager, files_raises] at hroles
  · intro h watchers hsettled
    have hinv := inv_raises hi watchers
    have hmanager : (s.raises lib watchers).authenticator.passwordManager =
        .load lib (s.raises lib watchers).files passwordFileName.file := by
      refine hinv.passwordManager.resolve_left fun hp => ?_
      rw [hsettled] at hp
      cases hp
    have hpasswords (username password : String) :
        (s.raises lib watchers).authenticator.passwordManager.isValid lib username password =
          (JsonPasswordManager.load lib (s.raises lib watchers).files
            passwordFileName.file).isValid lib username password := by
      rw [hmanager]
    have hroles (username : String) :
        (s.raises lib watchers).authenticator.roleManager.lookup username =
          (JsonRoleManager.load lib (s.raises lib watchers).files
            roleFileName.file).lookup username := by
      rw [hinv.roleManager, files_raises]
      exact h username
    exact ⟨hpasswords, hroles, authenticate_congr hpasswords hroles⟩

variable (lib files passwordFileName roleFileName)

/-- A change of the role file leaves it with the roles that were loaded first. -/
def RolesKept (_ : History (Watched Content) (Action Content)) (_ : Watched Content)
    (a : Action Content) : Prop :=
  ∀ content, a = .change roleFileName.file content →
    RolesStand lib files (fun _ => content) roleFileName

variable {lib files passwordFileName roleFileName}

private theorem rolesStand_step_iff {h : History (Watched Content) (Action Content)}
    {a : Action Content} {t : Watched Content}
    (hs : RolesStand lib files s.files roleFileName) (ha : s.step lib a = some t) :
    RolesStand lib files t.files roleFileName ↔ RolesKept lib roleFileName files h s a := by
  cases a with
  | change file content =>
    cases ha
    by_cases hf : file = roleFileName.file
    · subst hf
      have hload : JsonRoleManager.load lib (s.change roleFileName.file content).files
          roleFileName.file = JsonRoleManager.load lib (fun _ => content) roleFileName.file := by
        simp only [JsonRoleManager.load, change, if_true]
      simp only [RolesStand, RolesKept, hload, Action.change.injEq, true_and, forall_eq']
    · have hload : JsonRoleManager.load lib (s.change file content).files roleFileName.file =
          JsonRoleManager.load lib s.files roleFileName.file := by
        simp only [JsonRoleManager.load, change, if_neg (Ne.symm hf)]
      refine iff_of_true (fun username => ?_) ?_
      · rw [hload]
        exact hs username
      · rintro content' ⟨⟩
        exact absurd rfl hf
  | raise watcher =>
    cases ha
    exact iff_of_true hs nofun
  | authenticate connectionString =>
    cases ha
    exact iff_of_true hs nofun

/-- In a run that starts with the construction of the authenticator it is kept current
throughout exactly if every change of the role file leaves it with the roles that were loaded
first. -/
theorem kept_current_iff {h : History (Watched Content) (Action Content)}
    (hr : Run (step lib) (start lib files passwordFileName roleFileName) h s) :
    Always (fun _ s => KeptCurrent lib passwordFileName roleFileName s) h s ↔
      Throughout (RolesKept lib roleFileName files) h := by
  have hinv {h : History (Watched Content) (Action Content)} {s : Watched Content}
      (hr : Run (step lib) (start lib files passwordFileName roleFileName) h s) :
      Inv lib files passwordFileName roleFileName s :=
    hr.invariant inv_start fun _ _ _ hi ha => inv_step hi ha
  apply Run.always_iff_throughout_of_step hr
  · exact (keptCurrent_iff inv_start).mpr fun username => rfl
  · intro h r a t hr hp ha
    rw [keptCurrent_iff (inv_step (hinv hr) ha)]
    exact rolesStand_step_iff ((keptCurrent_iff (hinv hr)).mp hp) ha

/-! ### Two runs -/

/-- A file, as the values that it deserializes to. -/
inductive Document where
  | passwords (passwords : Dictionary String Password)
  | userFeedRoles
    (userFeedRoles : Dictionary String (Dictionary String (Dictionary String PermissionConfig)))

/-- Files hold their values; the hash is that of the one password below. -/
def ofDocuments : Libraries Document where
  passwords
    | .passwords passwords => some passwords
    | .userFeedRoles _ => none
  userFeedRoles
    | .passwords _ => none
    | .userFeedRoles userFeedRoles => some userFeedRoles
  makeHash _ _ := "gVK8WC9YyFT1gMsQHTGCgT3sSv4="

/-- A password file and a role file with one user. -/
def aliceFiles : Files Document := fun file =>
  if file = ⟨"/etc/bus", "passwords.json"⟩ then
    some (.passwords (AList.insert "alice" ⟨"c2FsdA==", "gVK8WC9YyFT1gMsQHTGCgT3sSv4="⟩ ∅))
  else if file = ⟨"/etc/bus", "roles.json"⟩ then
    some (.userFeedRoles (AList.insert "alice"
      (AList.insert "FX" (AList.insert "*" ⟨some [.subscribe], none⟩ ∅) ∅) ∅))
  else none

/-- A password that is withdrawn is not accepted once the event was raised. -/
theorem password_kept_current :
    ∃ h s, Run (step ofDocuments) (start ofDocuments aliceFiles ⟨"/etc/bus", "passwords.json"⟩
        ⟨"/etc/bus", "roles.json"⟩) h s ∧
      s.authenticator.passwordManager.isValid ofDocuments "alice" "secret" = false ∧
      Always (fun _ s => KeptCurrent ofDocuments ⟨"/etc/bus", "passwords.json"⟩
        ⟨"/etc/bus", "roles.json"⟩ s) h s := by
  obtain ⟨h, s, hr, hobs⟩ := exists_run_of_exec (step ofDocuments)
    (start ofDocuments aliceFiles ⟨"/etc/bus", "passwords.json"⟩ ⟨"/etc/bus", "roles.json"⟩)
    [.change ⟨"/etc/bus", "passwords.json"⟩ (some (.passwords ∅)), .raise .password]
    (fun x => (x.1.map Prod.snd,
      x.2.authenticator.passwordManager.isValid ofDocuments "alice" "secret"))
    ([.raise .password, .change ⟨"/etc/bus", "passwords.json"⟩ (some (.passwords ∅))], false) rfl
  simp only [Prod.mk.injEq] at hobs
  obtain ⟨hactions, hinvalid⟩ := hobs
  refine ⟨h, s, hr, hinvalid, (kept_current_iff hr).mpr ?_⟩
  apply throughout_of_forall_mem (G := fun (_ : Watched Document) (a : Action Document) =>
    ∀ content, a = .change (FilePath.file ⟨"/etc/bus", "roles.json"⟩) content →
      RolesStand ofDocuments aliceFiles (fun _ => content) ⟨"/etc/bus", "roles.json"⟩)
  rintro x hx content hchange
  have hmem : Action.change (FilePath.file ⟨"/etc/bus", "roles.json"⟩) content ∈
      h.map Prod.snd := hchange ▸ List.mem_map_of_mem hx
  rw [hactions] at hmem
  simp [FilePath.file] at hmem

/-- Roles that are withdrawn stay: no event is raised for the role file. -/
theorem roles_not_kept_current :
    ¬ ∀ (Content : Type) (lib : Libraries Content) (files : Files Content)
      (passwordFileName roleFileName : FilePath) (h : History (Watched Content) (Action Content))
      (s : Watched Content),
      Run (step lib) (start lib files passwordFileName roleFileName) h s →
        Always (fun _ s => KeptCurrent lib passwordFileName roleFileName s) h s := by
  intro hclaim
  obtain ⟨h, s, hr, hobs⟩ := exists_run_of_exec (step ofDocuments)
    (start ofDocuments aliceFiles ⟨"/etc/bus", "passwords.json"⟩ ⟨"/etc/bus", "roles.json"⟩)
    [.change ⟨"/etc/bus", "roles.json"⟩ (some (.userFeedRoles ∅))]
    (fun x => (x.2.pending, (x.2.authenticator.roleManager.lookup "alice").isSome,
      ((JsonRoleManager.load ofDocuments x.2.files
        ⟨"/etc/bus", "roles.json"⟩).lookup "alice").isSome))
    ([], true, false) rfl
  simp only [Prod.mk.injEq] at hobs
  obtain ⟨hsettled, hcached, hloaded⟩ := hobs
  have hcurrent := (hclaim Document ofDocuments aliceFiles _ _ h s hr).last [] hsettled
  have hroles := congrArg Option.isSome (hcurrent.feedRoles "alice")
  exact absurd (hcached.symm.trans (hroles.trans hloaded)) (by decide)

end Watched

end MessageBus.Authentication
