import MessageBus.Authentication.ConnectionString
import MessageBus.Distributor.Roles
import MessageBus.Messages.RoundTrip

/-!
# The handshake

Before its first message a client writes its connection string, and the server's
authenticator reads it from the same stream. Nothing marks where the handshake ends: the
messages are read right if the server takes exactly the bytes that the client wrote.
-/

namespace MessageBus.Authentication
open MessageBus.Base MessageBus.Common MessageBus.Distributor MessageBus.Messages
open DataReader DataWriter

/-- `ClientAuthenticator.Authenticate`, `ClientAuthenticator.cs:37–42`: the bytes it writes. -/
def ClientAuthenticator.authenticate (client : ClientAuthenticator) : List UInt8 :=
  writeString (some client.toConnectionString)

/-- `AuthenticationResponse.cs:20–34`. -/
structure AuthenticationResponse where
  user : String
  method : String
  impersonating : Option String
  forwardedFor : Option String
  application : Option String
  feedRoles : Option (Dictionary String (Dictionary String Permission))

/-- The authenticators of the server. `isValid` is the check of a password against the
password file, `connect` and `bind` are the operations of the LDAP connection, and
`validate` is the check of a token, which finds its subject. -/
inductive Authenticator where
  | null
  | nullSspi
  | passwordFile (isValid : String → String → Bool)
    (userFeedRoles : Dictionary String (Dictionary String (Dictionary String Permission)))
  | ldap (connect : Except Exception Unit) (bind : String → String → Bool)
  | jwt (validate : String → Option String)

namespace Authenticator

/-- `Method` of each class. -/
def method : Authenticator → String
  | null => "NULL"
  | nullSspi => "NULL"
  | passwordFile _ _ => "BASIC"
  | ldap _ _ => "LDAP"
  | jwt _ => "JWT"

/-- What `Authenticate` makes of the connection string that it read:
`NullSspiAuthenticator.cs:38–40`, `PasswordFileAuthenticator.cs:99–114`,
`LdapAuthenticator.cs:35–58` and `JwtAuthenticator.cs:33–58`. The null authenticator makes
the same of any, `NullAuthenticator.cs:31`. -/
def respond (server : Authenticator) (connectionString : String) :
    Except Exception AuthenticationResponse :=
  match server with
  | null => return ⟨"nobody", server.method, none, none, none, none⟩
  | nullSspi => do
    let username ← NullSspiAuthenticator.parse connectionString
    return ⟨username, server.method, none, none, none, none⟩
  | passwordFile isValid userFeedRoles => do
    let details ← PasswordFileConnectionDetails.parse connectionString
    if !isValid details.username details.password then .error .security
    else return ⟨details.username, server.method, details.impersonating, details.forwardedFor,
      details.application, userFeedRoles.lookup details.username⟩
  | ldap connect bind => do
    let details ← LdapConnectionDetails.parse connectionString
    connect
    if !bind details.username details.password then .error .security
    else return ⟨details.username, server.method, details.impersonating, details.forwardedFor,
      details.application, none⟩
  | jwt validate => do
    let details ← JwtConnectionDetails.parse connectionString
    match validate details.token with
    | none => .error .security
    | some subject => return ⟨subject, server.method, details.impersonating,
        details.forwardedFor, details.application, none⟩

/-- The result of a method that does not read. -/
def ofExcept {α : Type} : Except Exception α → Reader Exception α
  | .ok a => .ret a
  | .error e => .fail e

/-- `Authenticate` of each class: only the null authenticator reads nothing,
`NullAuthenticator.cs:29–32`. -/
def authenticate : Authenticator → Reader Exception AuthenticationResponse
  | null => ofExcept (null.respond "")
  | server => do
    let connectionString ← readString
    ofExcept (server.respond connectionString)

/-- A connection is authenticated, and its messages are read. -/
def serve (server : Authenticator) (count : Nat) :
    Reader Exception (AuthenticationResponse × List Message) := do
  let response ← server.authenticate
  let messages ← Message.readMany count
  return (response, messages)

/-- The server accepts a connection string. -/
def Accepts (server : Authenticator) (connectionString : String) : Prop :=
  ∃ response, server.respond connectionString = .ok response

end Authenticator

/-- The authenticators that a client authenticator is documented for. -/
inductive Pairs : ClientAuthenticator → Authenticator → Prop
  | null : Pairs .null .null
  | passwordFile {username password impersonating forwardedFor application isValid
      userFeedRoles} : Pairs (.basic username password impersonating forwardedFor application)
      (.passwordFile isValid userFeedRoles)
  | ldap {username password impersonating forwardedFor application connect bind} :
      Pairs (.basic username password impersonating forwardedFor application)
        (.ldap connect bind)
  | jwt {token impersonating forwardedFor application validate} :
      Pairs (.token token impersonating forwardedFor application) (.jwt validate)
  | sspi {userName} : Pairs (.sspi userName) .nullSspi

/-- What a client writes to a stream: the handshake, then its messages. -/
def written (client : ClientAuthenticator) (messages : List (Message (Option String))) :
    List UInt8 :=
  client.authenticate ++ messages.flatMap Message.write

/-- The server takes exactly the bytes of the handshake, and reads the messages. -/
def Framed (client : ClientAuthenticator) (server : Authenticator)
    (messages : List (Message (Option String))) (split : Nat → Nat) (fuel : Nat) : Prop :=
  (∃ response s, DataReader.run fuel server.authenticate
      (Stream.ofBytes split (written client messages)) = .returned response s ∧
    s.remaining = messages.flatMap Message.write) ∧
  ∃ response read s, DataReader.run fuel (server.serve messages.length)
      (Stream.ofBytes split (written client messages)) = .returned (response, read) s ∧
    read.map (Message.contents id) = messages.map (Message.contents Message.sentText) ∧
    s.remaining = []

variable {client : ClientAuthenticator} {server : Authenticator}

/-- An authenticator that reads the connection string takes exactly its bytes. -/
theorem decode_authenticate (hpair : Pairs client server) (hnull : client ≠ .null)
    (hfits : StringFits (some client.toConnectionString)) {response : AuthenticationResponse}
    (hresponse : server.respond client.toConnectionString = .ok response)
    (rest : List UInt8) :
    server.authenticate.decode (client.authenticate ++ rest) = .done response rest := by
  have hread := (frames_readString _ hfits).done rest
  have hauthenticate : server.authenticate = readString >>= fun connectionString =>
      Authenticator.ofExcept (server.respond connectionString) := by
    cases hpair with
    | null => exact absurd rfl hnull
    | passwordFile => rfl
    | ldap => rfl
    | jwt => rfl
    | sspi => rfl
  rw [ClientAuthenticator.authenticate, hauthenticate, Reader.decode_bind, hread,
    Reader.Decoded.done_andThen, Option.getD_some, hresponse]
  rfl

/-- The null authenticator leaves the bytes of the handshake where the messages should
begin. -/
theorem not_framed_null (messages : List (Message (Option String))) (split : Nat → Nat)
    (fuel : Nat) : ¬ Framed .null .null messages split fuel := by
  rintro ⟨⟨response, s, hs, hrest⟩, -⟩
  have hd := decode_of_run hs
  have htaken : written .null messages = s.remaining := (Reader.Decoded.done.inj hd).2
  have hl := congrArg List.length (htaken.trans hrest)
  have hfour : (ClientAuthenticator.authenticate .null).length = 4 := rfl
  rw [written, List.length_append] at hl
  omega

/-- Between a documented pair whose credentials are accepted, the server reads what the
client writes exactly if the client is not the null client. -/
theorem handshake_framed_iff (hpair : Pairs client server)
    (haccepts : server.Accepts client.toConnectionString)
    (hfits : StringFits (some client.toConnectionString))
    {messages : List (Message (Option String))} (hmessages : ∀ m ∈ messages, m.Fits)
    (split : Nat → Nat) {fuel : Nat} (hfuel : (written client messages).length ≤ fuel) :
    Framed client server messages split fuel ↔ client ≠ .null := by
  constructor
  · rintro hframed rfl
    cases hpair
    exact not_framed_null messages split fuel hframed
  · intro hnull
    obtain ⟨response, hresponse⟩ := haccepts
    have hauthenticate := decode_authenticate hpair hnull hfits hresponse
      (messages.flatMap Message.write)
    have hread := Message.decode_readMany messages hmessages []
    rw [List.append_nil] at hread
    have hserve : (server.serve messages.length).decode (written client messages) =
        .done (response, messages.map Message.received) [] := by
      rw [Authenticator.serve, Reader.decode_bind, written, hauthenticate,
        Reader.Decoded.done_andThen, Reader.decode_bind, hread, Reader.Decoded.done_andThen,
        Reader.decode_pure]
    obtain ⟨s, hs, hrest⟩ := run_of_decode hserve split hfuel
    refine ⟨⟨response, run_of_decode hauthenticate split hfuel⟩, response, _, s, hs, ?_, hrest⟩
    rw [List.map_map]
    exact List.map_congr_left fun m _ => Message.contents_received m

/-- A request of a client that authenticates by password is read after the handshake. -/
theorem handshake_framed_of_password :
    Framed (.basic "john" "trustno1" none none (some "quotes"))
      (.passwordFile (fun username password => username = "john" && password = "trustno1") ∅)
      [.subscriptionRequest ⟨some "LSE", some "VOD", true⟩] (fun _ => 3) 100 :=
  (handshake_framed_iff .passwordFile ⟨_, by rfl⟩ (by decide) (by decide) _ (by decide)).mpr
    (by simp)

/-- The server takes the handshake of the null client for a message of unknown type. -/
theorem handshake_of_null_client_unread :
    ¬ ∀ (client : ClientAuthenticator) (server : Authenticator), Pairs client server →
      server.Accepts client.toConnectionString →
      StringFits (some client.toConnectionString) →
      ∀ (messages : List (Message (Option String))), (∀ m ∈ messages, m.Fits) →
      ∀ (split : Nat → Nat) (fuel : Nat), (written client messages).length ≤ fuel →
        Framed client server messages split fuel := by
  intro hclaim
  have hread : DataReader.run 20 (Authenticator.serve .null 1) (Stream.ofBytes (fun _ => 20)
      (written .null [.subscriptionRequest ⟨some "LSE", some "VOD", true⟩])) =
        .threw (.invalidData "Unknown message type 0") := by
    rfl
  obtain ⟨-, response, read, s, hs, -⟩ := hclaim .null .null .null ⟨_, rfl⟩ (by decide)
    [.subscriptionRequest ⟨some "LSE", some "VOD", true⟩] (by decide) (fun _ => 20) 20 (by decide)
  rw [List.length_singleton, hread] at hs
  cases hs

end MessageBus.Authentication
