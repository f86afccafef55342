import Asx.Native.As2Inbound
import Asx.Native.Inbound

/-!
# Who may send

The authorizer of the AS4 endpoint in `as4/inbound.rs`: the partner is looked up by the claimed
type and id, and a profile may instead bind the claimed id to the signer's certificate. What is
read of a certificate is a parameter.
-/

namespace Asx

/-- `SenderRule`. -/
inductive SenderRule where
  | anchorAndSubject
  | anchorAndCn
  | registeredOnly
deriving DecidableEq, Repr

/-- What is read of a certificate's subject: the organizational units and `subject_cn`. -/
structure CertSubject where
  organizationalUnits : List Str
  cn : Option Str
deriving DecidableEq, Repr

/-- What the authorizer reads of the client. -/
structure AuthorizerConfig where
  partners : List ((Option Str × Str) × As2PartnerPolicy)
  rule : SenderRule
  /-- `Certificate::from_der`, and its subject. -/
  subjectOf : Bytes → Option CertSubject

/-- `unauthorized`. -/
def unauthorized (message : Str) : AsxError :=
  ⟨.securityVerificationFailed, message, .new "as4_inbound_authorize"⟩

/-- `bdew_subject_carries`. -/
def bdewSubjectCarries (subject : CertSubject) (mpId : Str) : Bool :=
  subject.organizationalUnits.any fun value => Str.trim value == mpId

/-- The check of a signer against the claimed party. -/
def signerCheck (cfg : AuthorizerConfig) (bound : CertSubject → Bool) (refusal : Str) :
    Bytes → Result Unit := fun der => do
  let subject ← Except.okOr (cfg.subjectOf der)
    (unauthorized "the signer certificate is unreadable")
  Except.rejectIf (bound subject = false) (unauthorized refusal)

/-- The check that the rule asks for. -/
def ruleCheck (cfg : AuthorizerConfig) (sender : Str) : Option (Bytes → Result Unit) :=
  match cfg.rule with
  | .anchorAndSubject => some (signerCheck cfg (bdewSubjectCarries · sender)
      ("the signer's subject (OU) does not carry the claimed MP-ID " ++ Str.debug sender ++
        " (BDEW AS4-Profil 1.2 §2.3.2, §2.3.4.4)"))
  | .anchorAndCn => some (signerCheck cfg (fun subject => subject.cn == some sender)
      ("the signer's CN is not the claimed party " ++ Str.debug sender ++ " (Peppol AS4 §4.5)"))
  | .registeredOnly => none

/-- The partner that the message is looked up as. -/
def AuthorizerConfig.registered (cfg : AuthorizerConfig) (parsed : ParsedAs4UserMessage) :
    Option As2PartnerPolicy :=
  policyFor cfg.partners parsed.fromPartyType parsed.senderPartyId

/-- `Authorizer::authorize`. -/
def authorize (cfg : AuthorizerConfig) : SenderAuthorizer := fun parsed => do
  let sender := parsed.senderPartyId
  let registered := cfg.registered parsed
  Except.rejectIf (registered = none ∧ cfg.rule = .registeredOnly)
    (unauthorized ("the sender " ++ Str.debug sender ++ " is not a configured partner"))
  let check := ruleCheck cfg sender
  let pins := (registered.map (·.pins)).getD []
  Except.rejectIf (pins = [] ∧ check.isNone)
    (unauthorized ("no pinned signing certificate for " ++ Str.debug sender))
  pure ⟨pins, check⟩

end Asx
