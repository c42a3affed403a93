import CryptoLink.Library.RankedListings
import CryptoLink.Library.ReadCommitted
import CryptoLink.Marketing.Footer
import CryptoLink.Repository.Statements

/-!
# Marketing tables

Campaigns with their recipients, drip sequences with their steps and
enrollments, the tokens of unsubscribe links, the daily quota, and contacts with
their consent. One definition per query. What the email service has sent, and
under which quota date an email was counted, is kept in a log. Times are
nanoseconds, dates count days.
-/

namespace CryptoLink

namespace Marketing

open KeyedTables ReadCommitted RankedListings StatementPrograms

inductive Audience where
  | merchants
  | contactsOptedIn
  | all
  deriving DecidableEq, Repr

namespace Campaign

inductive Status where
  | draft
  | sending
  | paused
  | completed
  deriving DecidableEq, Repr

def Status.text : Status → String
  | .draft => "draft"
  | .sending => "sending"
  | .paused => "paused"
  | .completed => "completed"

end Campaign

structure Campaign where
  id : Int
  uuid : String
  subject : String
  bodyHTML : String
  audience : Audience
  status : Campaign.Status
  totalRecipients : Int
  sentCount : Int
  failedCount : Int
  pendingCount : Int
  updatedAt : Int
  startedAt : Option Int
  completedAt : Option Int
  deriving DecidableEq, Repr

namespace Recipient

inductive Status where
  | pending
  | sent
  | failed
  deriving DecidableEq, Repr

end Recipient

structure Recipient where
  id : Int
  campaignID : Int
  email : String
  status : Recipient.Status
  sentAt : Option Int
  errorMessage : Option Err
  deriving DecidableEq, Repr

/-- A row of `marketing_unsubscribes`. -/
structure Unsubscribe where
  email : String
  token : String
  deriving DecidableEq, Repr

structure Quota where
  quotaDate : Int
  sentCount : Int
  dailyLimit : Int
  deriving DecidableEq, Repr

namespace Sequence

inductive Status where
  | draft
  | running
  | paused
  | completed
  | cancelled
  deriving DecidableEq, Repr

def Status.text : Status → String
  | .draft => "draft"
  | .running => "running"
  | .paused => "paused"
  | .completed => "completed"
  | .cancelled => "cancelled"

end Sequence

structure Sequence where
  id : Int
  uuid : String
  audience : Audience
  status : Sequence.Status
  skipIfConverted : Bool
  startAt : Option Int
  updatedAt : Int
  startedAt : Option Int
  completedAt : Option Int
  deriving DecidableEq, Repr

structure StepKey where
  sequenceID : Int
  stepIndex : Int
  deriving DecidableEq, Repr

structure SequenceStep where
  key : StepKey
  templateID : Option String
  subjectOverride : Option String
  offsetHours : Int
  deriving DecidableEq, Repr

namespace Enrollment

inductive Status where
  | active
  | converted
  | unsubscribed
  | completed
  | failed
  deriving DecidableEq, Repr

end Enrollment

structure Enrollment where
  id : Int
  sequenceID : Int
  email : String
  currentStep : Int
  nextSendAt : Int
  status : Enrollment.Status
  attemptCount : Int
  lastError : Option Err
  updatedAt : Int
  deriving DecidableEq, Repr

structure Contact where
  id : Int
  uuid : String
  email : String
  marketingConsent : Bool
  termsAcceptedAt : Option Int
  sourceMerchantID : Option Int
  createdAt : Int
  updatedAt : Int
  deriving DecidableEq, Repr

/-- What an email was sent for. -/
inductive Purpose where
  | campaign (recipientID : Int)
  | step (enrollmentID stepIndex : Int)
  deriving DecidableEq, Repr

/-- An email, with the token of the link in its footer and what it is for. -/
structure Email where
  recipient : String
  subject : String
  body : List UInt8
  template : String
  token : String
  purpose : Purpose
  deriving DecidableEq, Repr

inductive LogEntry where
  | sent (email : Email)
  | counted (quotaDate : Int)
  deriving DecidableEq, Repr

/-- `marketing_settings_daily_limit_chk` -/
abbrev DailyLimit := { limit : Int // 50 ≤ limit ∧ limit ≤ 250 }

structure World where
  clock : Int
  campaigns : Table Int Campaign Campaign.id
  recipients : Table Int Recipient Recipient.id
  unsubscribes : Table String Unsubscribe Unsubscribe.email
  quotas : Table Int Quota Quota.quotaDate
  /-- The single row of `marketing_settings`. -/
  dailyLimit : Option DailyLimit
  sequences : Table Int Sequence Sequence.id
  steps : Table StepKey SequenceStep SequenceStep.key
  enrollments : Table Int Enrollment Enrollment.id
  contacts : Table Int Contact Contact.id
  /-- The addresses of `users` joined with their `merchants`. -/
  owners : List String
  log : List LogEntry

def World.empty : World :=
  ⟨0, .empty, .empty, .empty, .empty, none, .empty, .empty, .empty, .empty, [], []⟩

structure InsertContactParams where
  uuid : String
  email : String
  marketingConsent : Bool
  termsAcceptedAt : Option Int
  sourceMerchantID : Int
  now : Int
  deriving DecidableEq, Repr

inductive Stmt where
  | getCampaign (uuid : String)
  | merchantEmails
  | contactEmails
  | unsubscribedEmails
  | insertRecipient (campaignID : Int) (email : String)
  | startCampaign (id total now : Int)
  | sendingCampaigns
  | pendingRecipients (campaignID limit : Int)
  | recipientFailed (id : Int) (message : Err) (now : Int)
  | recipientSent (id now : Int)
  | campaignFailed (id now : Int)
  | campaignSent (id now : Int)
  | completeCampaign (id now : Int)
  | issueToken (email token : String)
  | sendEmail (email : Email)
  | getQuota (quotaDate : Int)
  | createQuota (quotaDate limit : Int)
  | countQuota (quotaDate limit : Int)
  | getSettings
  | emailOfToken (token : String)
  | withdrawConsent (email : String)
  | getSequence (uuid : String)
  | getSteps (sequenceID : Int)
  | launch (sequenceID : Int) (emails : List String) (nextSendAt : Int)
  | dueEnrollments (limit : Int)
  | countUnsubscribed (email : String)
  | countConverted (email : String)
  | closeEnrollment (id : Int) (status : Enrollment.Status)
  | getStep (key : StepKey)
  | finishEnrollment (id step : Int)
  | getStartedAt (sequenceID : Int)
  | advanceEnrollment (id step nextSendAt : Int)
  | failEnrollment (id attempts : Int) (message : Err)
  | retryEnrollment (id attempts : Int) (message : Err)
  | countActive (sequenceID : Int)
  | completeSequence (id : Int)
  | getContact (email : String)
  | upsertContact (p : InsertContactParams)
  | updateContact (id : Int) (marketingConsent : Bool) (termsAcceptedAt : Option Int) (now : Int)
  | keysOf (emails : List String)
  | timeNow
  | random
  deriving DecidableEq, Repr

@[reducible] def Reply : Stmt → Type
  | .getCampaign _ => Except Err Campaign
  | .merchantEmails => Except Err (List String)
  | .contactEmails => Except Err (List String)
  | .unsubscribedEmails => Except Err (List String)
  | .sendingCampaigns => Except Err (List Campaign)
  | .pendingRecipients .. => Except Err (List Recipient)
  | .getQuota _ => Except Err Quota
  | .getSettings => Except Err Int
  | .emailOfToken _ => Except Err String
  | .getSequence _ => Except Err Sequence
  | .getSteps _ => Except Err (List SequenceStep)
  | .dueEnrollments _ => Except Err (List (Enrollment × Bool))
  | .countUnsubscribed _ => Except Err ℕ
  | .countConverted _ => Except Err ℕ
  | .getStep _ => Except Err SequenceStep
  | .getStartedAt _ => Except Err (Option Int)
  | .countActive _ => Except Err ℕ
  | .getContact _ => Except Err Contact
  | .upsertContact _ => Except Err Contact
  | .keysOf _ => List String
  | .timeNow => Int
  | .random => String
  | _ => Except Err Unit

/-- What the surroundings decide at one step: what becomes of the statement and
of the email, the next value of a sequence, what a random source draws, and the
order in which a map gives its keys. -/
structure Env where
  fate : Fate := .done
  delivery : Except Err Unit := .ok ()
  id : Int := 0
  text : String := ""
  keys : List String := []

namespace World

variable (w : World)

def getCampaign (uuid : String) : Option Campaign :=
  w.campaigns.rows.find? fun c => c.uuid = uuid

/-- `order by started_at asc` -/
def sendingCampaigns : List Campaign :=
  (ranked (fun c => c.startedAt.getD 0)
    (w.campaigns.rows.filter fun c => c.status = .sending)).reverse

def startedCampaign (total now : Int) (c : Campaign) : Campaign :=
  { c with
    status := .sending
    totalRecipients := total
    pendingCount := total
    startedAt := some now
    updatedAt := now }

def failedCampaign (now : Int) (c : Campaign) : Campaign :=
  { c with failedCount := c.failedCount + 1, pendingCount := c.pendingCount - 1, updatedAt := now }

def sentCampaign (now : Int) (c : Campaign) : Campaign :=
  { c with sentCount := c.sentCount + 1, pendingCount := c.pendingCount - 1, updatedAt := now }

def completedCampaign (now : Int) (c : Campaign) : Campaign :=
  { c with status := .completed, completedAt := some now, updatedAt := now }

/-- The row that `on conflict (campaign_id, email)` is about. -/
def isRecipient (campaignID : Int) (email : String) (r : Recipient) : Bool :=
  r.campaignID = campaignID && r.email = email

def newRecipient (id campaignID : Int) (email : String) : Recipient :=
  ⟨id, campaignID, email, .pending, none, none⟩

def isPending (campaignID : Int) (r : Recipient) : Bool :=
  r.campaignID = campaignID && r.status = .pending

/-- `order by id limit $2` -/
def pendingRecipients (campaignID limit : Int) : List Recipient :=
  ((ranked Recipient.id (w.recipients.rows.filter (isPending campaignID))).reverse).take
    limit.toNat

def failedRecipient (message : Err) (now : Int) (r : Recipient) : Recipient :=
  { r with status := .failed, errorMessage := some message, sentAt := some now }

def sentRecipient (now : Int) (r : Recipient) : Recipient :=
  { r with status := .sent, sentAt := some now }

/-- Addresses are in lower case, and no other address has the token. -/
def tokenFits (email token : String) : Bool :=
  lower email = email && w.unsubscribes.rows.all fun u => u.token != token || u.email = email

def renewedToken (token : String) (u : Unsubscribe) : Unsubscribe := { u with token := token }

def emailOfToken (token : String) : Option String :=
  (w.unsubscribes.rows.find? fun u => u.token = token).map Unsubscribe.email

def countUnsubscribed (email : String) : ℕ :=
  w.unsubscribes.rows.countP fun u => lower u.email = lower email

def countConverted (email : String) : ℕ :=
  w.owners.countP fun owner => lower owner = lower email

def incrementedQuota (q : Quota) : Quota := { q with sentCount := q.sentCount + 1 }

def getSequence (uuid : String) : Option Sequence :=
  w.sequences.rows.find? fun s => s.uuid = uuid

/-- `order by step_index` -/
def getSteps (sequenceID : Int) : List SequenceStep :=
  (ranked (fun st => st.key.stepIndex)
    (w.steps.rows.filter fun st => st.key.sequenceID = sequenceID)).reverse

def isEnrolled (sequenceID : Int) (email : String) (e : Enrollment) : Bool :=
  e.sequenceID = sequenceID && e.email = email

/-- One past the ids in use, as a sequence gives them. -/
def nextEnrollmentID (rows : List Enrollment) : Int :=
  (rows.map Enrollment.id).foldl max 0 + 1

def newEnrollment (id sequenceID : Int) (email : String) (nextSendAt now : Int) : Enrollment :=
  ⟨id, sequenceID, email, 0, nextSendAt, .active, 0, none, now⟩

/-- `on conflict (sequence_id, email) do nothing` -/
def enroll (sequenceID nextSendAt now : Int) (t : Table Int Enrollment Enrollment.id)
    (email : String) : Table Int Enrollment Enrollment.id :=
  if t.rows.any (isEnrolled sequenceID email) then t
  else t.insert (newEnrollment (nextEnrollmentID t.rows) sequenceID email nextSendAt now)

def launchedSequence (now : Int) (s : Sequence) : Sequence :=
  { s with status := .running, startedAt := some (s.startedAt.getD now), updatedAt := now }

def completedSequence (now : Int) (s : Sequence) : Sequence :=
  { s with status := .completed, completedAt := some now, updatedAt := now }

/-- An active enrollment of a running sequence whose time has come. -/
def isDue (e : Enrollment) : Bool :=
  e.status = .active && e.nextSendAt ≤ w.clock &&
    match w.sequences.get e.sequenceID with
    | some s => s.status = .running
    | none => false

def skipIfConverted (sequenceID : Int) : Bool :=
  match w.sequences.get sequenceID with
  | some s => s.skipIfConverted
  | none => false

/-- `order by e.next_send_at asc limit $1` -/
def dueEnrollments (limit : Int) : List (Enrollment × Bool) :=
  (((ranked Enrollment.nextSendAt (w.enrollments.rows.filter w.isDue)).reverse).take
    limit.toNat).map fun e => (e, w.skipIfConverted e.sequenceID)

def closedEnrollment (status : Enrollment.Status) (now : Int) (e : Enrollment) : Enrollment :=
  { e with status := status, updatedAt := now }

def finishedEnrollment (step now : Int) (e : Enrollment) : Enrollment :=
  { e with currentStep := step, status := .completed, updatedAt := now, lastError := none }

def advancedEnrollment (step nextSendAt now : Int) (e : Enrollment) : Enrollment :=
  { e with currentStep := step, nextSendAt := nextSendAt, updatedAt := now, lastError := none }

def failedEnrollment (attempts : Int) (message : Err) (now : Int) (e : Enrollment) : Enrollment :=
  { e with
    attemptCount := attempts
    lastError := some message
    status := .failed
    updatedAt := now }

def hour : Int := 3600000000000

def retriedEnrollment (attempts : Int) (message : Err) (now : Int) (e : Enrollment) :
    Enrollment :=
  { e with
    attemptCount := attempts
    lastError := some message
    nextSendAt := now + hour
    updatedAt := now }

def countActive (sequenceID : Int) : ℕ :=
  w.enrollments.rows.countP fun e => e.sequenceID = sequenceID && e.status = .active

def getContact (email : String) : Option Contact :=
  w.contacts.rows.find? fun c => c.email = email

def contactEmails : List String :=
  (w.contacts.rows.filter fun c => c.marketingConsent && c.email != "").map Contact.email

def newContact (id : Int) (p : InsertContactParams) : Contact :=
  ⟨id, p.uuid, p.email, p.marketingConsent, p.termsAcceptedAt, some p.sourceMerchantID, p.now,
    p.now⟩

/-- `on conflict (email) do update`: consent is only ever given, the first time
of acceptance stays. -/
def mergedContact (p : InsertContactParams) (c : Contact) : Contact :=
  { c with
    marketingConsent := if c.marketingConsent then true else p.marketingConsent
    termsAcceptedAt := c.termsAcceptedAt.or p.termsAcceptedAt
    updatedAt := p.now }

def updatedContact (marketingConsent : Bool) (termsAcceptedAt : Option Int) (now : Int)
    (c : Contact) : Contact :=
  { c with
    marketingConsent := marketingConsent
    termsAcceptedAt := c.termsAcceptedAt.or termsAcceptedAt
    updatedAt := now }

def withdrawnContact (now : Int) (c : Contact) : Contact :=
  { c with marketingConsent := false, updatedAt := now }

/-- Addresses are in lower case; a new row needs an id and a UUID of its own. -/
def contactFits (id : Int) (p : InsertContactParams) : Bool :=
  lower p.email = p.email &&
    ((w.getContact p.email).isSome ||
      (w.contacts.get id).isNone && w.contacts.rows.all fun c => c.uuid != p.uuid)

def upsertedContact (id : Int) (p : InsertContactParams) : Contact :=
  match w.getContact p.email with
  | some c => mergedContact p c
  | none => newContact id p

-- an update leaves the key of its row alone

theorem startedCampaign_id (total now : Int) (c : Campaign) :
    (startedCampaign total now c).id = c.id := rfl

theorem failedCampaign_id (now : Int) (c : Campaign) : (failedCampaign now c).id = c.id := rfl

theorem sentCampaign_id (now : Int) (c : Campaign) : (sentCampaign now c).id = c.id := rfl

theorem completedCampaign_id (now : Int) (c : Campaign) :
    (completedCampaign now c).id = c.id := rfl

theorem failedRecipient_id (message : Err) (now : Int) (r : Recipient) :
    (failedRecipient message now r).id = r.id := rfl

theorem sentRecipient_id (now : Int) (r : Recipient) : (sentRecipient now r).id = r.id := rfl

theorem renewedToken_email (token : String) (u : Unsubscribe) :
    (renewedToken token u).email = u.email := rfl

theorem incrementedQuota_date (q : Quota) : (incrementedQuota q).quotaDate = q.quotaDate := rfl

theorem launchedSequence_id (now : Int) (s : Sequence) : (launchedSequence now s).id = s.id := rfl

theorem completedSequence_id (now : Int) (s : Sequence) :
    (completedSequence now s).id = s.id := rfl

theorem closedEnrollment_id (status : Enrollment.Status) (now : Int) (e : Enrollment) :
    (closedEnrollment status now e).id = e.id := rfl

theorem finishedEnrollment_id (step now : Int) (e : Enrollment) :
    (finishedEnrollment step now e).id = e.id := rfl

theorem advancedEnrollment_id (step nextSendAt now : Int) (e : Enrollment) :
    (advancedEnrollment step nextSendAt now e).id = e.id := rfl

theorem failedEnrollment_id (attempts : Int) (message : Err) (now : Int) (e : Enrollment) :
    (failedEnrollment attempts message now e).id = e.id := rfl

theorem retriedEnrollment_id (attempts : Int) (message : Err) (now : Int) (e : Enrollment) :
    (retriedEnrollment attempts message now e).id = e.id := rfl

theorem mergedContact_id (p : InsertContactParams) (c : Contact) :
    (mergedContact p c).id = c.id := rfl

theorem updatedContact_id (marketingConsent : Bool) (termsAcceptedAt : Option Int) (now : Int)
    (c : Contact) : (updatedContact marketingConsent termsAcceptedAt now c).id = c.id := rfl

theorem withdrawnContact_id (now : Int) (c : Contact) : (withdrawnContact now c).id = c.id := rfl

def answer (env : Env) (w : World) : (s : Stmt) → Reply s
  | .getCampaign uuid => answered env.fate .database (noRows (w.getCampaign uuid))
  | .merchantEmails => answered env.fate .database (.ok (w.owners.filter (· != "")))
  | .contactEmails => answered env.fate .database (.ok w.contactEmails)
  | .unsubscribedEmails =>
    answered env.fate .database (.ok (w.unsubscribes.rows.map Unsubscribe.email))
  | .insertRecipient .. => answered env.fate .database (.ok ())
  | .startCampaign .. => answered env.fate .database (.ok ())
  | .sendingCampaigns => answered env.fate .database (.ok w.sendingCampaigns)
  | .pendingRecipients campaignID limit =>
    answered env.fate .database (.ok (w.pendingRecipients campaignID limit))
  | .recipientFailed .. => answered env.fate .database (.ok ())
  | .recipientSent .. => answered env.fate .database (.ok ())
  | .campaignFailed .. => answered env.fate .database (.ok ())
  | .campaignSent .. => answered env.fate .database (.ok ())
  | .completeCampaign .. => answered env.fate .database (.ok ())
  | .issueToken email token => answered env.fate .database (fitting (w.tokenFits email token) ())
  | .sendEmail _ => answered env.fate .database env.delivery
  | .getQuota quotaDate => answered env.fate .database (noRows (w.quotas.get quotaDate))
  | .createQuota .. => answered env.fate .database (.ok ())
  | .countQuota .. => answered env.fate .database (.ok ())
  | .getSettings => answered env.fate .database (noRows (w.dailyLimit.map Subtype.val))
  | .emailOfToken token => answered env.fate .database (noRows (w.emailOfToken token))
  | .withdrawConsent _ => answered env.fate .database (.ok ())
  | .getSequence uuid => answered env.fate .database (noRows (w.getSequence uuid))
  | .getSteps sequenceID => answered env.fate .database (.ok (w.getSteps sequenceID))
  | .launch .. => answered env.fate .database (.ok ())
  | .dueEnrollments limit => answered env.fate .database (.ok (w.dueEnrollments limit))
  | .countUnsubscribed email => answered env.fate .database (.ok (w.countUnsubscribed email))
  | .countConverted email => answered env.fate .database (.ok (w.countConverted email))
  | .closeEnrollment .. => answered env.fate .database (.ok ())
  | .getStep key => answered env.fate .database (noRows (w.steps.get key))
  | .finishEnrollment .. => answered env.fate .database (.ok ())
  | .getStartedAt sequenceID =>
      answered env.fate .database (noRows ((w.sequences.get sequenceID).map Sequence.startedAt))
  | .advanceEnrollment .. => answered env.fate .database (.ok ())
  | .failEnrollment .. => answered env.fate .database (.ok ())
  | .retryEnrollment .. => answered env.fate .database (.ok ())
  | .countActive sequenceID => answered env.fate .database (.ok (w.countActive sequenceID))
  | .completeSequence _ => answered env.fate .database (.ok ())
  | .getContact email => answered env.fate .database (noRows (w.getContact email))
  | .upsertContact p =>
    answered env.fate .database (fitting (w.contactFits env.id p) (w.upsertedContact env.id p))
  | .updateContact .. => answered env.fate .database (.ok ())
  | .keysOf emails => if env.keys.isPerm emails then env.keys else emails
  | .timeNow => w.clock
  | .random => env.text

def effect (s : Stmt) (env : Env) (w : World) : World :=
  match s with
  | .insertRecipient campaignID email =>
      if w.recipients.rows.any (isRecipient campaignID email) then w
      else { w with recipients := w.recipients.insert (newRecipient env.id campaignID email) }
  | .startCampaign id total now =>
      { w with
        campaigns := w.campaigns.modify id (startedCampaign total now)
          (startedCampaign_id total now) }
  | .recipientFailed id message now =>
      { w with
        recipients := w.recipients.modify id (failedRecipient message now)
          (failedRecipient_id message now) }
  | .recipientSent id now =>
      { w with recipients := w.recipients.modify id (sentRecipient now) (sentRecipient_id now) }
  | .campaignFailed id now =>
      { w with campaigns := w.campaigns.modify id (failedCampaign now) (failedCampaign_id now) }
  | .campaignSent id now =>
      { w with campaigns := w.campaigns.modify id (sentCampaign now) (sentCampaign_id now) }
  | .completeCampaign id now =>
      { w with
        campaigns := w.campaigns.modify id (completedCampaign now) (completedCampaign_id now) }
  | .issueToken email token =>
      if w.tokenFits email token then
        { w with
          unsubscribes := (w.unsubscribes.insert ⟨email, token⟩).modify email (renewedToken token)
            (renewedToken_email token) }
      else w
  | .sendEmail email => if env.delivery.isOk then { w with log := w.log ++ [.sent email] } else w
  | .createQuota quotaDate limit => { w with quotas := w.quotas.insert ⟨quotaDate, 0, limit⟩ }
  | .countQuota quotaDate limit =>
      { w with
        quotas := (w.quotas.insert ⟨quotaDate, 0, limit⟩).modify quotaDate incrementedQuota
          incrementedQuota_date
        log := w.log ++ [.counted quotaDate] }
  | .withdrawConsent email =>
      { w with
        contacts := w.contacts.updateWhere (fun c => lower c.email = lower email)
          (withdrawnContact w.clock) (withdrawnContact_id w.clock) }
  | .launch sequenceID emails nextSendAt =>
      { w with
        enrollments := emails.foldl (enroll sequenceID nextSendAt w.clock) w.enrollments
        sequences := w.sequences.modify sequenceID (launchedSequence w.clock)
          (launchedSequence_id w.clock) }
  | .closeEnrollment id status =>
      { w with
        enrollments := w.enrollments.modify id (closedEnrollment status w.clock)
          (closedEnrollment_id status w.clock) }
  | .finishEnrollment id step =>
      { w with
        enrollments := w.enrollments.modify id (finishedEnrollment step w.clock)
          (finishedEnrollment_id step w.clock) }
  | .advanceEnrollment id step nextSendAt =>
      { w with
        enrollments := w.enrollments.modify id (advancedEnrollment step nextSendAt w.clock)
          (advancedEnrollment_id step nextSendAt w.clock) }
  | .failEnrollment id attempts message =>
      { w with
        enrollments := w.enrollments.modify id (failedEnrollment attempts message w.clock)
          (failedEnrollment_id attempts message w.clock) }
  | .retryEnrollment id attempts message =>
      { w with
        enrollments := w.enrollments.modify id (retriedEnrollment attempts message w.clock)
          (retriedEnrollment_id attempts message w.clock) }
  | .completeSequence id =>
      { w with
        sequences := w.sequences.modify id (completedSequence w.clock)
          (completedSequence_id w.clock) }
  | .upsertContact p =>
      if w.contactFits env.id p then
        { w with
          contacts := match w.getContact p.email with
            | some c => w.contacts.modify c.id (mergedContact p) (mergedContact_id p)
            | none => w.contacts.insert (newContact env.id p) }
      else w
  | .updateContact id marketingConsent termsAcceptedAt now =>
      { w with
        contacts := w.contacts.modify id (updatedContact marketingConsent termsAcceptedAt now)
          (updatedContact_id marketingConsent termsAcceptedAt now) }
  | _ => w

end World

/-- Every statement commits by itself; an email that was sent is out. -/
def engine : Engine Stmt Reply Env World Empty where
  reply s env w := w.answer env s
  effect s env _ w := if env.fate = .refused then w else World.effect s env w
  lasting _ _ w := w
  locks _ _ _ := []
  opens env := env.fate = .done
  lands env := env.fate ≠ .refused
  acknowledged env := env.fate = .done

theorem autocommit_eq (s : Stmt) (env : Env) (w : World) :
    engine.autocommit s env w = if env.fate = .refused then w else World.effect s env w := rfl

abbrev MarketingCall (α : Type) := Prog (Cmd Stmt) (Answer Reply) Err α

abbrev query := @onPool Stmt Reply Err

/-- `errors.Wrap` of what a program fails with. -/
def wrapping {α : Type} (message : String) (p : MarketingCall α) : MarketingCall α :=
  p.mapError (Err.wrap message)

end Marketing

end CryptoLink
