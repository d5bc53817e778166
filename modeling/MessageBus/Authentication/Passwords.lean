import Mathlib.Logic.Function.Basic
import MessageBus.Authentication.PasswordFile
import MessageBus.Base.Base64

/-!
# Passwords

`Password.cs`, `JsonPasswordManager.cs` and `utilities/src/MakePassword`. A run of the program
loads the password file, sets the password of one user and saves the file. Runs may overlap,
and the authenticator loads the file when its watchers tell of a change. SHA-1, the random
salt and the serializer are parameters, and a file is written in one step.
-/

namespace MessageBus.Authentication
open MessageBus.Base MessageBus.Common MessageBus.Common.UTF8 MessageBus.Distributor

/-! ### Hashes -/

/-- What is used of `SHA1` and of `JsonSerializer`. The serializer takes some names of users
for its own, such as `$ref`; passwords of all other names are read back. -/
structure PasswordLibraries (Content : Type) where
  computeHash : List UInt8 → List UInt8
  serialize : Dictionary String Password → Content
  passwords : Content → Option (Dictionary String Password)
  userFeedRoles : Content →
    Option (Dictionary String (Dictionary String (Dictionary String PermissionConfig)))
  readsBack : String → Bool
  passwords_serialize : ∀ d : Dictionary String Password,
    (∀ username item, d.lookup username = some item → readsBack username = true) →
      passwords (serialize d) = some d

/-- `Convert.ToBase64String`. -/
def toBase64String (bytes : List UInt8) : String := String.ofList (Base64.encode bytes)

/-- `Convert.FromBase64String`, `none` where it throws. -/
def fromBase64String (text : String) : Option (List UInt8) := Base64.decode text.toList

/-- `SaltLengthLimit`, `Password.cs:9`. -/
def saltLengthLimit : Nat := 32

/-- What `MakeSalt` can return, `Password.cs:45–59`. -/
def IsSalt (salt : List UInt8) : Prop := salt.length = saltLengthLimit ∧ 0 ∉ salt

/-- Whether bytes can be a salt is decided by their number. -/
instance (salt : List UInt8) : Decidable (IsSalt salt) := inferInstanceAs (Decidable (_ ∧ _))

variable {Content : Type} (lib : PasswordLibraries Content)

/-- `MakeHash`, `Password.cs:33–43`. -/
def makeHash (salt password : List UInt8) : String :=
  toBase64String (lib.computeHash (password ++ salt))

/-- `Create`, `Password.cs:20–25`, with the salt that was made. -/
def Password.create (salt : List UInt8) (password : String) : Password :=
  ⟨toBase64String salt, makeHash lib salt (getBytes password)⟩

/-- `IsValid`, `Password.cs:27–31`, with the exception of `FromBase64String`. -/
def Password.verify (item : Password) (password : String) : Except Exception Bool :=
  match fromBase64String item.salt with
  | none => .error .format
  | some salt => .ok (makeHash lib salt (getBytes password) == item.hash)

/-- The libraries as the authenticator uses them. A salt that is not Base64 has no hash. -/
def PasswordLibraries.libraries : Libraries Content where
  passwords := lib.passwords
  userFeedRoles := lib.userFeedRoles
  makeHash salt password :=
    ((fromBase64String salt).map fun salt => makeHash lib salt (getBytes password)).getD ""

/-- Two passwords hash to the same with the salt. -/
def SameHash (salt : List UInt8) (password other : String) : Prop :=
  lib.computeHash (getBytes password ++ salt) = lib.computeHash (getBytes other ++ salt)

@[simp]
private theorem fromBase64String_toBase64String (bytes : List UInt8) :
    fromBase64String (toBase64String bytes) = some bytes := by
  rw [fromBase64String, toBase64String, String.toList_ofList, Base64.decode_encode]

private theorem toBase64String_inj {xs ys : List UInt8} :
    toBase64String xs = toBase64String ys ↔ xs = ys := by
  constructor
  · intro h
    have hdecoded := congrArg fromBase64String h
    simpa only [fromBase64String_toBase64String, Option.some.injEq] using hdecoded
  · intro h
    rw [h]

/-- A password that was created verifies what hashes to the same. -/
theorem verify_create (salt : List UInt8) (other password : String) :
    (Password.create lib salt other).verify lib password = .ok true ↔
      SameHash lib salt password other := by
  simp only [Password.verify, Password.create, fromBase64String_toBase64String, Except.ok.injEq,
    beq_iff_eq, makeHash, toBase64String_inj, SameHash]

/-- Where the salt is Base64, the authenticator accepts what verifies. -/
theorem isValid_iff {item : Password} (hsalt : (fromBase64String item.salt).isSome = true)
    (password : String) : item.isValid lib.libraries password = true ↔
      item.verify lib password = .ok true := by
  obtain ⟨salt, hsalt⟩ := Option.isSome_iff_exists.mp hsalt
  simp only [Password.isValid, Password.verify, PasswordLibraries.libraries, hsalt,
    Option.map_some, Option.getD_some, Except.ok.injEq]

/-! ### The password file -/

/-- `Set`, `JsonPasswordManager.cs:22–25`. -/
def JsonPasswordManager.set (manager : JsonPasswordManager) (salt : List UInt8)
    (username password : String) : JsonPasswordManager :=
  AList.insert username (Password.create lib salt password) manager

/-- Every entry can be read back and has a salt that is Base64. -/
def JsonPasswordManager.Sound (manager : JsonPasswordManager) : Prop :=
  ∀ username item, manager.lookup username = some item →
    lib.readsBack username = true ∧ (fromBase64String item.salt).isSome = true

/-- `Save`, `JsonPasswordManager.cs:61–76`. -/
def JsonPasswordManager.save (manager : JsonPasswordManager) : Content := lib.serialize manager

variable {lib}

/-- After `Set` the password of the user is the new one, and the others are as they were. -/
theorem JsonPasswordManager.lookup_set (manager : JsonPasswordManager) (salt : List UInt8)
    (username password other : String) :
    (manager.set lib salt username password).lookup other =
      if other = username then some (Password.create lib salt password)
      else manager.lookup other :=
  Dictionary.lookup_insert manager other username _

/-- `Set` keeps the passwords sound, where the name of the user reads back. -/
theorem JsonPasswordManager.Sound.set {manager : JsonPasswordManager} (hm : manager.Sound lib)
    (salt : List UInt8) {username : String} (hname : lib.readsBack username = true)
    (password : String) : (manager.set lib salt username password).Sound lib := by
  intro other item hitem
  rw [JsonPasswordManager.lookup_set] at hitem
  split at hitem
  · next hother =>
    cases hitem
    rw [hother]
    exact ⟨hname, by rw [Password.create, fromBase64String_toBase64String]; rfl⟩
  · exact hm other item hitem

/-- What was saved is loaded. -/
theorem JsonPasswordManager.load_save {manager : JsonPasswordManager} (hm : manager.Sound lib)
    {files : Files Content} {file : File} (hfile : files file = some (manager.save lib)) :
    JsonPasswordManager.load lib.libraries files file = manager := by
  rw [JsonPasswordManager.load, hfile]
  show (lib.passwords (lib.serialize manager)).getD ∅ = manager
  rw [lib.passwords_serialize manager fun username item hitem => (hm username item hitem).1,
    Option.getD_some]

end MessageBus.Authentication
