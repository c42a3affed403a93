import CryptoLink.Marketing.Tables

/-!
# Campaigns and the queue

A campaign queues its recipients; a worker takes them in small batches, as far
as the quota of the day goes. The quota of a day begins at 17:00 in Madrid.
-/

namespace CryptoLink

namespace Marketing

open ReadCommitted StatementPrograms

def day : Int := 86400000000000

/-- A time zone whose clocks are one or two hours ahead and change at one in the
morning, universal time. -/
structure Zone where
  offset : Int → Int
  bounds : ∀ t, World.hour ≤ offset t ∧ offset t ≤ 2 * World.hour
  changes : ∀ t, offset t ≠ offset (t - 1) → t % day = World.hour

/-- `time.FixedZone("CET", 3600)` -/
def Zone.cet : Zone where
  offset _ := World.hour
  bounds _ := by simp [World.hour]
  changes _ h := absurd rfl h

/-- Before 17:00 the day before is the day of the quota. -/
def Zone.quotaDate (z : Zone) (now : Int) : Int :=
  let clock := now + z.offset now
  if clock % day / World.hour < 17 then clock / day - 1 else clock / day

structure EmailTemplate where
  id : String
  subject : String
  bodyHTML : String
  deriving DecidableEq, Repr

structure Mailer where
  zone : Zone
  templates : List EmailTemplate

def Mailer.getTemplateByID (s : Mailer) (id : String) : Option EmailTemplate :=
  s.templates.find? fun t => t.id = id

/-- `unicode.IsSpace` -/
def isSpace (c : Char) : Bool :=
  c.toNat ∈ [0x09, 0x0A, 0x0B, 0x0C, 0x0D, 0x20, 0x85, 0xA0, 0x1680, 0x2028, 0x2029, 0x202F,
    0x205F, 0x3000] || 0x2000 ≤ c.toNat && c.toNat ≤ 0x200A

/-- `strings.TrimSpace` -/
def trimSpace (s : String) : String :=
  String.ofList (((s.toList.dropWhile isSpace).reverse.dropWhile isSpace).reverse)

def generateToken : MarketingCall String := query .random

def unsubLink (token : String) : String :=
  "https://cryptolink.cc/api/dashboard/v1/marketing/unsubscribe?token=" ++ token

def resolveAudience (audience : Audience) : MarketingCall (List String) := do
  let merchants ←
    if audience = .merchants ∨ audience = .all then do
      let found ← query .merchantEmails
      wrapping "failed to query merchant emails" (succeed found)
    else pure []
  let contacts ←
    if audience = .contactsOptedIn ∨ audience = .all then do
      let found ← query .contactEmails
      wrapping "failed to query contact emails" (succeed found)
    else pure []
  query (.keysOf ((merchants ++ contacts).map lower).dedup)

def filterUnsubscribed (emails : List String) : MarketingCall (List String) := do
  let found ← query .unsubscribedEmails
  let unsubscribed ← succeed found
  pure (emails.filter fun e => lower e ∉ unsubscribed.map lower)

/-- A recipient that cannot be inserted is left out. -/
def insertRecipients (campaignID : Int) (emails : List String) : MarketingCall Unit :=
  Prog.each (fun e => do
    let _ ← query (.insertRecipient campaignID e)
    pure ()) emails

def sendCampaign (uuid : String) : MarketingCall Unit := do
  let found ← query (.getCampaign uuid)
  let campaign ← wrapping "campaign not found" (succeed found)
  if campaign.status = .draft ∨ campaign.status = .paused then do
    let audience ← wrapping "failed to resolve audience" (resolveAudience campaign.audience)
    let emails ← wrapping "failed to filter unsubscribed" (filterUnsubscribed audience)
    if emails.isEmpty then .fail (Err.new "no eligible recipients after filtering unsubscribes")
    else do
      insertRecipients campaign.id emails
      let now ← query .timeNow
      let done ← query (.startCampaign campaign.id emails.length now)
      wrapping "failed to update campaign status" (succeed done)
  else .fail (Err.new ("campaign is " ++ campaign.status.text ++ ", cannot send"))

def dailyMarketingLimit : Int := 250

def effectiveDailyLimit : MarketingCall Int := do
  let settings ← query .getSettings
  match settings with
  | .ok limit => pure limit
  | .error _ => pure dailyMarketingLimit

namespace Mailer

variable (s : Mailer)

def quotaDate : MarketingCall Int := do
  let now ← query .timeNow
  pure (s.zone.quotaDate now)

def getRemainingQuota : MarketingCall Int := do
  let qd ← s.quotaDate
  let quota ← query (.getQuota qd)
  match quota with
  | .ok q => do
      let configured ← effectiveDailyLimit
      pure ((if configured < q.dailyLimit then configured else q.dailyLimit) - q.sentCount)
  | .error e =>
      if e.is .noRows then do
        let effective ← effectiveDailyLimit
        let created ← query (.createQuota qd effective)
        let _ ← succeed created
        pure effective
      else .fail e

def incrementQuota : MarketingCall Unit := do
  let qd ← s.quotaDate
  let limit ← effectiveDailyLimit
  let _ ← query (.countQuota qd limit)
  pure ()

def completeCampaign (campaignID : Int) : MarketingCall Unit := do
  let now ← query .timeNow
  let _ ← query (.completeCampaign campaignID now)
  pure ()

/-- One recipient of a campaign; says whether the email was sent. -/
def sendToRecipient (c : Campaign) (r : Recipient) : MarketingCall Bool := do
  let token ← generateToken
  let _ ← query (.issueToken (lower (trimSpace r.email)) token)
  let body ← succeed (injectUnsubscribeFooter c.bodyHTML (unsubLink token))
  let sent ← query (.sendEmail ⟨r.email, c.subject, body, "marketing_campaign", token,
    .campaign r.id⟩)
  let now ← query .timeNow
  match sent with
  | .error e => do
      let _ ← query (.recipientFailed r.id e now)
      let _ ← query (.campaignFailed c.id now)
      pure false
  | .ok _ => do
      let _ ← query (.recipientSent r.id now)
      let _ ← query (.campaignSent c.id now)
      s.incrementQuota
      pure true

/-- The recipients of a batch; what remains of the quota is the result. -/
def sendToRecipients (c : Campaign) : List Recipient → Int → MarketingCall Int
  | [], remaining => pure remaining
  | r :: rest, remaining =>
    if remaining ≤ 0 then pure remaining
    else do
      let sent ← s.sendToRecipient c r
      sendToRecipients c rest (if sent then remaining - 1 else remaining)

def sendCampaigns : List Campaign → Int → MarketingCall Unit
  | [], _ => pure ()
  | c :: rest, remaining =>
    if remaining ≤ 0 then pure ()
    else do
      let found ← query (.pendingRecipients c.id (if remaining > 10 then 10 else remaining))
      match found with
      | .error _ => sendCampaigns rest remaining
      | .ok recipients =>
        if recipients.isEmpty then do
          completeCampaign c.id
          sendCampaigns rest remaining
        else do
          let left ← s.sendToRecipients c recipients remaining
          sendCampaigns rest left

def processQueue : MarketingCall Unit := do
  let quota ← s.getRemainingQuota.attempt
  match quota with
  | .error _ => pure ()
  | .ok remaining =>
    if remaining ≤ 0 then pure ()
    else do
      let campaigns ← query .sendingCampaigns
      match campaigns with
      | .error _ => pure ()
      | .ok campaigns => s.sendCampaigns campaigns remaining

end Mailer

def unsubscribe (token : String) : MarketingCall String := do
  let found ← query (.emailOfToken token)
  match found with
  | .error _ => .fail (Err.new "invalid or expired unsubscribe link")
  | .ok email => do
      let _ ← query (.withdrawConsent email)
      pure email

end Marketing

end CryptoLink
