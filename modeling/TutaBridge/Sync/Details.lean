import TutaBridge.Bridge.World

/-!
# The details of a mail

The body of a draft and the body of a received mail live in different places, and
the mail refers to the one it has. `load_mail_details` asks for that body. A mail
that refers to neither place has no details, and that is not a failure.
-/

namespace TutaBridge.Sync

open Tuta Bridge

variable (client : BodyClient)

/-- Where a body is stored. -/
inductive BodySource where
  | blob (id : IdTuple)
  | draft (id : IdTuple)
deriving DecidableEq, Repr

/-- The request for a body, by the tick it is made at, and the text of an error. -/
structure BodyClient where
  loadBody : Nat → Mail → BodySource → Except ApiCallError MailDetails
  errorText : ApiCallError → String

/-- The places a mail refers to. -/
def bodySources (mail : Mail) : List BodySource :=
  (mail.mailDetails.map BodySource.blob).toList ++ (mail.mailDetailsDraft.map BodySource.draft).toList

def loadMailDetailsBlob (tick : Nat) (mail : Mail) : Except ApiCallError MailDetails :=
  if mail.mailDetailsDraft.isSome then
    .error (.internalSdkError "Expected received mail, not draft")
  else
    match mail.mailDetails with
    | none => .error (.internalSdkError "Mail has no mailDetails ID")
    | some id => client.loadBody tick mail (.blob id)

def loadMailDetailsDraft (tick : Nat) (mail : Mail) : Except ApiCallError MailDetails :=
  if mail.mailDetails.isSome then
    .error (.internalSdkError "Expected draft, not received mail")
  else
    match mail.mailDetailsDraft with
    | none => .error (.internalSdkError "Mail has no mailDetailsDraft ID")
    | some id => client.loadBody tick mail (.draft id)

/-- `load_mail_details_impl`. -/
def loadMailDetailsImpl (tick : Nat) (mail : Mail) :
    Except ApiCallError (Option MailDetails) :=
  if mail.mailDetailsDraft.isSome then (loadMailDetailsDraft client tick mail).map some
  else if mail.mailDetails.isSome then (loadMailDetailsBlob client tick mail).map some
  else .ok none

def loadMailDetails (tick : Nat) (mail : Mail) : Except String (Option MailDetails) :=
  (loadMailDetailsImpl client tick mail).mapError client.errorText

/-- What the server has as the details of a mail: the body at a place the mail refers to,
or nothing for a mail that refers to none. -/
inductive ServedDetails (client : BodyClient) (mail : Mail) : Option MailDetails → Prop where
  | absent (refersToNone : bodySources mail = []) : ServedDetails client mail none
  | loaded {tick : Nat} {source : BodySource} {details : MailDetails}
      (refers : source ∈ bodySources mail)
      (answered : client.loadBody tick mail source = .ok details) :
      ServedDetails client mail (some details)

/-- The bridge with its details loaded through the client. -/
def detailsEnv (env : Env) (client : BodyClient) : Env :=
  { env with backend := { env.backend with loadMailDetails := loadMailDetails client } }

/-- What `load_mail_details` returns is what the server has. -/
theorem loadMailDetails_eq_ok_imp {client : BodyClient} {tick : Nat} {mail : Mail}
    {details : Option MailDetails} (answered : loadMailDetails client tick mail = .ok details) :
    ServedDetails client mail details := by
  unfold loadMailDetails loadMailDetailsImpl loadMailDetailsDraft loadMailDetailsBlob at answered
  cases draft : mail.mailDetailsDraft with
  | some draftId =>
    cases blob : mail.mailDetails with
    | some blobId => simp [draft, blob, Except.map, Except.mapError] at answered
    | none =>
      cases loaded : client.loadBody tick mail (.draft draftId) with
      | error failure => simp [draft, blob, loaded, Except.map, Except.mapError] at answered
      | ok body =>
        simp only [draft, blob, loaded, Except.map, Except.mapError] at answered
        cases answered
        exact .loaded (by simp [bodySources, draft]) loaded
  | none =>
    cases blob : mail.mailDetails with
    | some blobId =>
      cases loaded : client.loadBody tick mail (.blob blobId) with
      | error failure => simp [draft, blob, loaded, Except.map, Except.mapError] at answered
      | ok body =>
        simp only [draft, blob, loaded, Except.map, Except.mapError] at answered
        cases answered
        exact .loaded (by simp [bodySources, blob]) loaded
    | none =>
      simp only [draft, blob, Except.mapError] at answered
      cases answered
      exact .absent (by simp [bodySources, draft, blob])

end TutaBridge.Sync
