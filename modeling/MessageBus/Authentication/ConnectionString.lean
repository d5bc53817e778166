import MessageBus.Common.Values

/-!
# Connection strings

A client sends its credentials as a connection string. The `ToConnectionString` of the
client authenticators in `core/src/JetBlack.MessageBus.Adapters` writes it; the `Parse` of
the server's authenticators, in `extensions/authentication/src` and in
`NullSspiAuthenticator.cs`, reads it. The fields are neither quoted nor escaped.
-/

namespace MessageBus.Authentication
open MessageBus.Base MessageBus.Common

/-! ### The client -/

/-- `Char.IsWhiteSpace` as .NET documents it. -/
def isWhiteSpace (c : Char) : Bool :=
  0x09 ≤ c.toNat && c.toNat ≤ 0x0D || 0x2000 ≤ c.toNat && c.toNat ≤ 0x200A ||
    c.toNat ∈ [0x20, 0x85, 0xA0, 0x1680, 0x2028, 0x2029, 0x202F, 0x205F, 0x3000]

/-- `string.IsNullOrWhiteSpace`. -/
def isNullOrWhiteSpace : Option String → Bool
  | none => true
  | some value => value.toList.all isWhiteSpace

/-- The client authenticators. The user name of `sspi` is the given one or, where none is
given, the one of the environment. -/
inductive ClientAuthenticator where
  | null
  | basic (username password : String) (impersonating forwardedFor application : Option String)
  | token (token : String) (impersonating forwardedFor application : Option String)
  | sspi (userName : String)

namespace ClientAuthenticator

/-- An optional field is left out where it is null or white space. -/
def appendField (name : String) (value : Option String) : String :=
  if isNullOrWhiteSpace value then "" else ";" ++ name ++ "=" ++ value.getD ""

/-- The optional fields, `BasicClientAuthenticator.cs:39–44`, which are those of
`TokenClientAuthenticator.cs:37–42`. -/
def appendFields (impersonating forwardedFor application : Option String) : String :=
  appendField "Impersonating" impersonating ++ appendField "ForwardedFor" forwardedFor ++
    appendField "Application" application

/-- `ToConnectionString`, `NullClientAuthenticator.cs:9`, `BasicClientAuthenticator.cs:34–46`,
`TokenClientAuthenticator.cs:33–44` and `SspiClientAuthenticator.cs:20–23`. -/
def toConnectionString : ClientAuthenticator → String
  | .null => ""
  | .basic username password impersonating forwardedFor application =>
    "Username=" ++ username ++ ";" ++ "Password=" ++ password ++
      appendFields impersonating forwardedFor application
  | .token value impersonating forwardedFor application =>
    "Token=" ++ value ++ appendFields impersonating forwardedFor application
  | .sspi userName => "Username=" ++ userName

end ClientAuthenticator

/-! ### The server -/

/-- `connectionString.Split(';')`. -/
def splitParts (connectionString : String) : List String :=
  (connectionString.toList.splitOn ';').map String.ofList

/-- `part.Split('=', 2)`: a part without the separator is not split. -/
def splitPart (part : String) : List String :=
  match part.toList.span (· ≠ '=') with
  | (key, []) => [String.ofList key]
  | (key, _ :: value) => [String.ofList key, String.ofList value]

/-- `ToDictionary` with the first string of a part as the key and the second as the value.
The value is selected before the key is found to be a repeated one. -/
def toDictionary : List (List String) → Dictionary String String →
    Except Exception (Dictionary String String)
  | [], dict => .ok dict
  | [key, value] :: parts, dict =>
    if (dict.lookup key).isSome then .error .argument
    else toDictionary parts (dict.insert key value)
  | _ :: _, _ => .error .indexOutOfRange

/-- The dictionary that every `Parse` begins with, `PasswordFileConnectionDetails.cs:30–32`. -/
def parseFields (connectionString : String) : Except Exception (Dictionary String String) :=
  toDictionary ((splitParts connectionString).map splitPart) ∅

/-- A field that `Parse` requires, and the message where it is missing. -/
def requireField (dict : Dictionary String String) (name message : String) :
    Except Exception String :=
  match dict.lookup name with
  | none => .error (.invalidArgument message)
  | some value => .ok value

/-- `PasswordFileConnectionDetails.cs:22–26`, and the same in `LdapConnectionDetails.cs`. -/
structure BasicConnectionDetails where
  username : String
  password : String
  impersonating : Option String
  forwardedFor : Option String
  application : Option String
  deriving DecidableEq

/-- The `Parse` that `PasswordFileConnectionDetails` and `LdapConnectionDetails` share. -/
def BasicConnectionDetails.parse (connectionString : String) :
    Except Exception BasicConnectionDetails := do
  let dict ← parseFields connectionString
  let username ← requireField dict "Username" "Failed to find \"Username\"."
  let password ← requireField dict "Password" "Failed to find \"Password\""
  return ⟨username, password, dict.lookup "Impersonating", dict.lookup "ForwardedFor",
    dict.lookup "Application"⟩

/-- `PasswordFileConnectionDetails.Parse`, `PasswordFileConnectionDetails.cs:28–48`. -/
def PasswordFileConnectionDetails.parse : String → Except Exception BasicConnectionDetails :=
  BasicConnectionDetails.parse

/-- `LdapConnectionDetails.Parse`, `LdapConnectionDetails.cs:28–48`. -/
def LdapConnectionDetails.parse : String → Except Exception BasicConnectionDetails :=
  BasicConnectionDetails.parse

/-- `JwtConnectionDetails.cs:20–23`. -/
structure JwtConnectionDetails where
  token : String
  impersonating : Option String
  forwardedFor : Option String
  application : Option String
  deriving DecidableEq

/-- `JwtConnectionDetails.Parse`, `JwtConnectionDetails.cs:25–38`. -/
def JwtConnectionDetails.parse (connectionString : String) :
    Except Exception JwtConnectionDetails := do
  let dict ← parseFields connectionString
  let token ← requireField dict "Token" "Failed to find \"Token\"."
  return ⟨token, dict.lookup "Impersonating", dict.lookup "ForwardedFor",
    dict.lookup "Application"⟩

/-- `NullSspiAuthenticator.Parse`, `NullSspiAuthenticator.cs:43–53`. -/
def NullSspiAuthenticator.parse (connectionString : String) : Except Exception String := do
  let dict ← parseFields connectionString
  requireField dict "Username" "Failed to find \"Username\"."

end MessageBus.Authentication
