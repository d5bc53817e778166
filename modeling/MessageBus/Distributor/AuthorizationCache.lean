import MessageBus.Distributor.Server

/-!
# The authorizations that an interactor keeps

`SetAuthorization`, `TryGetAuthorization` and `HasAuthorization` of `Interactor.cs`, over any
sequence of stored responses. The first two implement the map from feeds and topics to the
last response; the third looks under the feed as a topic.
-/

namespace MessageBus.Distributor
open MessageBus.Base MessageBus.Common MessageBus.Messages

/-- The arguments of `SetAuthorization`. -/
structure AuthorizationCall where
  feed : String
  topic : String
  authorization : AuthorizationResponse

namespace Interactor

/-- Calls of `SetAuthorization`, one after another. -/
def setAuthorizations (i : Interactor) (calls : List AuthorizationCall) : Interactor :=
  calls.foldl (fun i call => i.setAuthorization call.feed call.topic call.authorization) i

/-- The response of the last call for exactly a feed and topic. -/
def lastAuthorization (calls : List AuthorizationCall) (feed topic : String) :
    Option AuthorizationResponse :=
  (calls.reverse.find? fun call => call.feed == feed && call.topic == topic).map
    (·.authorization)

private theorem lastAuthorization_isSome_iff {calls : List AuthorizationCall}
    {feed topic : String} : (lastAuthorization calls feed topic).isSome = true ↔
      ∃ call ∈ calls, call.feed = feed ∧ call.topic = topic := by
  rw [lastAuthorization, Option.isSome_map, List.find?_isSome]
  simp

private theorem lastAuthorization_cons (call : AuthorizationCall) (calls : List AuthorizationCall)
    (feed topic : String) : lastAuthorization (call :: calls) feed topic =
      (lastAuthorization calls feed topic).or
        (if feed = call.feed ∧ topic = call.topic then some call.authorization else none) := by
  rw [lastAuthorization, lastAuthorization, List.reverse_cons, List.find?_append, Option.map_or]
  congr 1
  by_cases h : feed = call.feed ∧ topic = call.topic
  · simp [h]
  · have hcall : (call.feed == feed && call.topic == topic) = false := by
      rw [Bool.eq_false_iff, ne_eq, Bool.and_eq_true, beq_iff_eq, beq_iff_eq]
      exact fun hcall => h ⟨hcall.1.symm, hcall.2.symm⟩
    simp [h, hcall]

/-- The last response is found, otherwise what was there before the calls. -/
theorem tryGetAuthorization_setAuthorizations (calls : List AuthorizationCall) (i : Interactor)
    (feed topic : String) : (i.setAuthorizations calls).tryGetAuthorization feed topic =
      (lastAuthorization calls feed topic).or (i.tryGetAuthorization feed topic) := by
  induction calls generalizing i with
  | nil => rfl
  | cons call calls ih =>
    have hstep := ih (i.setAuthorization call.feed call.topic call.authorization)
    rw [tryGetAuthorization_setAuthorization] at hstep
    rw [lastAuthorization_cons, Option.or_assoc]
    refine hstep.trans (congrArg _ ?_)
    split <;> rfl

end Interactor

namespace Server

/-- How `AcceptAuthorization` treats a response for a client that it finds: an update is not
stored, and its event is raised with `isInitial` false. -/
def treat (settings : Settings) (s : Server) (authorizer requestor : Guid)
    (authorization : AuthorizationResponse) (isUpdate : Bool) : Server :=
  let stored := { s with
    objects := s.objects.modify requestor
      (·.setAuthorization authorization.feed authorization.topic authorization) }
  onAuthorizationResponse settings (if isUpdate then s else stored)
    (.new authorizer requestor authorization !isUpdate)

private theorem acceptAuthorization_eq_treat (settings : Settings) {s : Server} {requestor : Guid}
    {authorization : AuthorizationResponse} (authorizer : Guid)
    (hfind : s.interactorRepository.find authorization.clientId = some requestor) :
    acceptAuthorization settings s authorizer authorization =
      treat settings s authorizer requestor authorization
        ((s.objects requestor).hasAuthorization authorization.feed authorization.topic) := by
  rw [acceptAuthorization, hfind]
  rfl

end Server

namespace Interactor

/-- An interactor whose responses are those of a sequence of calls, in any state otherwise. -/
def withCalls (i : Interactor) (calls : List AuthorizationCall) : Interactor :=
  { i with authorizations := ∅ }.setAuthorizations calls

private theorem tryGetAuthorization_withCalls (i : Interactor) (calls : List AuthorizationCall)
    (feed topic : String) : (i.withCalls calls).tryGetAuthorization feed topic =
      lastAuthorization calls feed topic := by
  rw [withCalls, tryGetAuthorization_setAuthorizations]
  exact Option.or_none

/-- Whether the two lookups agree on a feed and topic after any sequence of calls, the value
found being the last response, so that `AcceptAuthorization` treats a response as an update
where one for the same feed and topic is kept. They do if and only if the calls have one for
the feed and topic exactly where they have one for the feed under itself. -/
theorem lookups_agree_iff (i : Interactor) (calls : List AuthorizationCall)
    (feed topic : String) :
    ((i.withCalls calls).hasAuthorization feed topic = true ↔
        ((i.withCalls calls).tryGetAuthorization feed topic).isSome = true) ∧
      (i.withCalls calls).tryGetAuthorization feed topic = lastAuthorization calls feed topic ∧
      (∀ (settings : Settings) (s : Server) (authorizer requestor : Guid)
        (response : AuthorizationResponse),
        s.interactorRepository.find response.clientId = some requestor →
        s.objects requestor = i.withCalls calls →
        response.feed = feed → response.topic = topic →
          s.acceptAuthorization settings authorizer response =
            s.treat settings authorizer requestor response
              (lastAuthorization calls feed topic).isSome) ↔
    ((∃ call ∈ calls, call.feed = feed ∧ call.topic = topic) ↔
      ∃ call ∈ calls, call.feed = feed ∧ call.topic = feed) := by
  rw [hasAuthorization_eq, tryGetAuthorization_withCalls, tryGetAuthorization_withCalls,
    lastAuthorization_isSome_iff, lastAuthorization_isSome_iff]
  constructor
  · intro h
    exact h.1.symm
  · intro h
    refine ⟨h.symm, rfl, fun settings s authorizer requestor response hfind hobject hf ht => ?_⟩
    subst hf ht
    have hsame : (lastAuthorization calls response.feed response.feed).isSome =
        (lastAuthorization calls response.feed response.topic).isSome := by
      rw [Bool.eq_iff_iff, lastAuthorization_isSome_iff, lastAuthorization_isSome_iff]
      exact h.symm
    rw [Server.acceptAuthorization_eq_treat settings authorizer hfind, hobject,
      hasAuthorization_eq, tryGetAuthorization_withCalls, hsame]

/-- A response that is kept for a feed and another topic is found, and yet not known to be
there. -/
theorem lookups_disagree :
    ¬ ∀ (i : Interactor) (calls : List AuthorizationCall) (feed topic : String),
      ((i.withCalls calls).hasAuthorization feed topic = true ↔
        ((i.withCalls calls).tryGetAuthorization feed topic).isSome = true) := by
  intro hclaim
  have hiff := hclaim {} [⟨"F", "T", ⟨⟨0⟩, "F", "T", false, none⟩⟩] "F" "T"
  rw [hasAuthorization_eq, tryGetAuthorization_withCalls, tryGetAuthorization_withCalls] at hiff
  exact absurd (hiff.mpr (by decide)) (by decide)

end Interactor

end MessageBus.Distributor
