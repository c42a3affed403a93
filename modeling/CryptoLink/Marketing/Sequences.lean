import CryptoLink.Marketing.Service

/-!
# Drip sequences

A launch enrolls an audience; the worker takes the enrollments that are due one
step further, at most ten in a tick. What goes wrong with a statement is mostly
ignored.
-/

namespace CryptoLink

namespace Marketing

open ReadCommitted StatementPrograms

def second : Int := 1000000000

/-- A time as it comes back from RFC 3339. -/
def toSeconds (t : Int) : Int := t / second * second

def launchSequence (uuid : String) : MarketingCall Unit := do
  let found ← query (.getSequence uuid)
  let seq ← wrapping "sequence not found" (succeed found)
  let loaded ← query (.getSteps seq.id)
  let steps ← wrapping "load steps" (succeed loaded)
  if seq.status = .draft ∨ seq.status = .paused then
    match steps with
    | [] => .fail (Err.new "sequence has no steps")
    | first :: _ => do
      let audience ← wrapping "resolve audience" (resolveAudience seq.audience)
      let emails ← wrapping "filter unsubscribes" (filterUnsubscribed audience)
      if emails.isEmpty then .fail (Err.new "no eligible recipients after filtering")
      else do
        let now ← query .timeNow
        let startAt := match seq.startAt with
          | some t => if now < toSeconds t then toSeconds t else now
          | none => now
        let done ← query (.launch seq.id emails (startAt + first.offsetHours * World.hour))
        wrapping "enroll recipient" (succeed done)
  else .fail (Err.new ("cannot launch sequence in status \"" ++ seq.status.text ++ "\""))

/-- The number a count answers, or zero where it fails. -/
def counted (x : Except Err ℕ) : ℕ :=
  match x with
  | .ok n => n
  | .error _ => 0

def maybeCompleteSequence (sequenceID : Int) : MarketingCall Unit := do
  let active ← query (.countActive sequenceID)
  match active with
  | .error _ => pure ()
  | .ok n =>
    if n > 0 then pure ()
    else do
      let _ ← query (.completeSequence sequenceID)
      pure ()

def maxAttempts : Int := 3

def markEnrollmentFailed (enrollID attempts : Int) (err : Err) : MarketingCall Unit := do
  let newAttempts := attempts + 1
  if newAttempts ≥ maxAttempts then do
    let _ ← query (.failEnrollment enrollID newAttempts err)
    pure ()
  else do
    let _ ← query (.retryEnrollment enrollID newAttempts err)
    pure ()

namespace Mailer

variable (s : Mailer)

/-- After a step has been sent. -/
def advance (e : Enrollment) (nextStepIndex : Int) : MarketingCall Unit := do
  let next ← query (.getStep ⟨e.sequenceID, nextStepIndex + 1⟩)
  match next with
  | .error _ => do
      let _ ← query (.finishEnrollment e.id nextStepIndex)
      maybeCompleteSequence e.sequenceID
      s.incrementQuota
  | .ok step => do
      let started ← query (.getStartedAt e.sequenceID)
      let now ← query .timeNow
      let base := match started with
        | .ok (some t) => t
        | _ => now
      let _ ← query (.advanceEnrollment e.id nextStepIndex (base + step.offsetHours * World.hour))
      s.incrementQuota

def subjectOf (tmpl : EmailTemplate) (step : SequenceStep) : String :=
  match step.subjectOverride with
  | some subject => if subject = "" then tmpl.subject else subject
  | none => tmpl.subject

def sendStep (e : Enrollment) (tmpl : EmailTemplate) (step : SequenceStep) :
    MarketingCall Unit := do
  let token ← generateToken
  let _ ← query (.issueToken (lower (trimSpace e.email)) token)
  let body ← succeed (injectUnsubscribeFooter tmpl.bodyHTML (unsubLink token))
  let sent ← query (.sendEmail ⟨e.email, subjectOf tmpl step, body, "marketing_sequence", token,
    .step e.id (e.currentStep + 1)⟩)
  match sent with
  | .error err => markEnrollmentFailed e.id e.attemptCount err
  | .ok _ => s.advance e (e.currentStep + 1)

def nextStep (e : Enrollment) : MarketingCall Unit := do
  let found ← query (.getStep ⟨e.sequenceID, e.currentStep + 1⟩)
  match found with
  | .error _ => do
      let _ ← query (.closeEnrollment e.id .completed)
      maybeCompleteSequence e.sequenceID
  | .ok step =>
    match s.getTemplateByID (step.templateID.getD "") with
    | none =>
      markEnrollmentFailed e.id e.attemptCount
        (Err.new ("template \"" ++ step.templateID.getD "" ++ "\" missing"))
    | some tmpl => s.sendStep e tmpl step

/-- An address with a row in `marketing_unsubscribes` counts as unsubscribed. -/
def processOneEnrollment (e : Enrollment) (skipIfConverted : Bool) : MarketingCall Unit := do
  let unsubscribed ← query (.countUnsubscribed e.email)
  if counted unsubscribed > 0 then do
    let _ ← query (.closeEnrollment e.id .unsubscribed)
    pure ()
  else if skipIfConverted then do
    let converted ← query (.countConverted e.email)
    if counted converted > 0 then do
      let _ ← query (.closeEnrollment e.id .converted)
      pure ()
    else s.nextStep e
  else s.nextStep e

def batchPerTick : Int := 10

def processSequenceTick : MarketingCall Unit := do
  let quota ← s.getRemainingQuota.attempt
  match quota with
  | .error _ => pure ()
  | .ok remaining =>
    if remaining ≤ 0 then pure ()
    else do
      let due ← query (.dueEnrollments (if remaining > batchPerTick then batchPerTick
        else remaining))
      match due with
      | .error _ => pure ()
      | .ok due => Prog.each (fun d => s.processOneEnrollment d.1 d.2) due

/-- What the worker does every thirty seconds. -/
def tick : MarketingCall Unit := do
  s.processQueue
  s.processSequenceTick

end Mailer

end Marketing

end CryptoLink
