import CryptoLink.Marketing.Contacts

/-!
# Everything at once

The dashboard sends campaigns and launches sequences, recipients follow their
links, checkouts resolve contacts, and the worker ticks. All of it is single
statements; what the worker's statements are about is said once for each of its
functions.
-/

namespace CryptoLink

namespace Marketing

open KeyedTables ReadCommitted StatementPrograms System

inductive MarketingLabel where
  | sendCampaign (uuid : String)
  | launchSequence (uuid : String)
  | tick
  | unsubscribe (token : String)
  | resolve (p : ResolveParams)
  deriving DecidableEq, Repr

/-- What the dashboard writes into its own tables. -/
structure Dashboard where
  campaigns : Table Int Campaign Campaign.id
  sequences : Table Int Sequence Sequence.id
  steps : Table StepKey SequenceStep SequenceStep.key
  dailyLimit : Option DailyLimit

inductive MarketingMove where
  | pass (elapsed : ℕ)
  | edit (written : Dashboard)
  | signUp (owner : String)

def MarketingMove.apply : MarketingMove → World → World
  | .pass elapsed, w => { w with clock := w.clock + elapsed }
  | .edit written, w =>
    { w with
      campaigns := written.campaigns
      sequences := written.sequences
      steps := written.steps
      dailyLimit := written.dailyLimit }
  | .signUp owner, w => { w with owners := w.owners ++ [owner] }

namespace Mailer

variable (s : Mailer)

def program : MarketingLabel → MarketingCall Unit
  | .sendCampaign uuid => Marketing.sendCampaign uuid
  | .launchSequence uuid => Marketing.launchSequence uuid
  | .tick => s.tick
  | .unsubscribe token => (Marketing.unsubscribe token).bind fun _ => .ret ()
  | .resolve p => (resolveContact p).bind fun _ => .ret ()

def system : System Stmt Reply Env World Empty Err MarketingLabel MarketingMove where
  engine := engine
  program := s.program
  move := MarketingMove.apply

end Mailer

abbrev MarketingConfig := Config Stmt Reply Env World Empty Err MarketingLabel

abbrev MarketingEvent := Event Env MarketingMove MarketingLabel

/-- A statement on the pool that `T` speaks of. -/
def Among (T : Stmt → Prop) (c : Cmd Stmt) : Prop := ∃ st, c = .stmt .pool st ∧ T st

namespace Worker

/-- Statements of the worker for the address `a` and, if any, for the enrollment `i`. -/
def Serves (i : Option Int) (a : String) : Stmt → Prop
  | .closeEnrollment j _ => i = some j
  | .finishEnrollment j _ => i = some j
  | .advanceEnrollment j _ _ => i = some j
  | .failEnrollment j _ _ => i = some j
  | .retryEnrollment j _ _ => i = some j
  | .sendEmail m => m.recipient = a ∧ ∀ j k, m.purpose = .step j k → i = some j
  | .insertRecipient .. => False
  | .launch .. => False
  | .dueEnrollments _ => False
  | _ => True

/-- Statements that are for nobody. -/
def General (st : Stmt) : Prop := ∀ i a, Serves i a st

variable {α β : Type} {T : Stmt → Prop}

theorem issues_query {st : Stmt} {f : Reply st → MarketingCall α} (h : T st)
    (hf : ∀ r, Issues (Among T) (f r)) : Issues (Among T) ((query st).bind f) :=
  ⟨⟨st, rfl, h⟩, hf⟩

/-- A value, or no more statements. -/
theorem issues_succeed {x : Except Err α} {f : α → MarketingCall β}
    (hf : ∀ a, Issues (Among T) (f a)) : Issues (Among T) ((succeed x).bind f) :=
  (Issues.ofExcept x).bind hf

section

attribute [local irreducible] Issues

variable (hT : ∀ st, General st → T st)

include hT

theorem issues_effectiveDailyLimit : Issues (Among T) effectiveDailyLimit := by
  refine issues_query (hT _ fun _ _ => trivial) fun settings => ?_
  cases settings with
  | ok limit => exact .ret _
  | error e => exact .ret _

variable (s : Mailer)

theorem issues_getRemainingQuota : Issues (Among T) s.getRemainingQuota := by
  refine issues_query (hT _ fun _ _ => trivial) fun now => ?_
  refine issues_query (hT _ fun _ _ => trivial) fun quota => ?_
  cases quota with
  | ok row => exact (issues_effectiveDailyLimit hT).bind fun configured => .ret _
  | error e =>
    show Issues _ (if e.is .noRows then _ else _)
    split
    · refine (issues_effectiveDailyLimit hT).bind fun effective => ?_
      refine issues_query (hT _ fun _ _ => trivial) fun created => ?_
      exact issues_succeed fun _ => .ret _
    · exact .fail e

theorem issues_incrementQuota : Issues (Among T) s.incrementQuota := by
  refine issues_query (hT _ fun _ _ => trivial) fun now => ?_
  refine (issues_effectiveDailyLimit hT).bind fun limit => ?_
  exact issues_query (hT _ fun _ _ => trivial) fun _ => .ret _

theorem issues_completeCampaign (id : Int) : Issues (Among T) (Mailer.completeCampaign id) := by
  refine issues_query (hT _ fun _ _ => trivial) fun now => ?_
  exact issues_query (hT _ fun _ _ => trivial) fun _ => .ret _

theorem issues_maybeCompleteSequence (id : Int) :
    Issues (Among T) (maybeCompleteSequence id) := by
  refine issues_query (hT _ fun _ _ => trivial) fun active => ?_
  cases active with
  | error e => exact .ret ()
  | ok n =>
    show Issues _ (if n > 0 then _ else _)
    split
    · exact .ret ()
    · exact issues_query (hT _ fun _ _ => trivial) fun _ => .ret ()

end

section

attribute [local irreducible] Issues

variable (s : Mailer)

theorem serves_of_general {i : Option Int} {a : String} (st : Stmt) (h : General st) :
    Serves i a st := h i a

theorem issues_sendToRecipient (c : Campaign) (r : Recipient) :
    Issues (Among (Serves none r.email)) (s.sendToRecipient c r) := by
  refine issues_query trivial fun token => issues_query trivial fun _ => ?_
  refine issues_succeed fun body => issues_query ⟨rfl, ?_⟩ fun sent => ?_
  · exact fun j k h => Purpose.noConfusion h
  · refine issues_query trivial fun now => ?_
    cases sent with
    | error e => exact issues_query trivial fun _ => issues_query trivial fun _ => .ret _
    | ok _ =>
      refine issues_query trivial fun _ => issues_query trivial fun _ => ?_
      exact (issues_incrementQuota serves_of_general s).bind fun _ => .ret _

theorem issues_sendToRecipients {P : Cmd Stmt → Prop} (c : Campaign) {recipients : List Recipient}
    (h : ∀ r ∈ recipients, Issues P (s.sendToRecipient c r)) (remaining : Int) :
    Issues P (s.sendToRecipients c recipients remaining) := by
  induction recipients generalizing remaining with
  | nil => exact .ret _
  | cons r rest ih =>
    rw [Mailer.sendToRecipients]
    split
    · exact .ret _
    · refine (h r List.mem_cons_self).bind fun sent => ?_
      exact ih (fun r' hr' => h r' (List.mem_cons_of_mem r hr')) _

variable {e : Enrollment}

theorem issues_markEnrollmentFailed (a : String) (attempts : Int) (err : Err) :
    Issues (Among (Serves (some e.id) a)) (markEnrollmentFailed e.id attempts err) := by
  show Issues _ (if attempts + 1 ≥ maxAttempts then _ else _)
  split
  · exact issues_query rfl fun _ => .ret ()
  · exact issues_query rfl fun _ => .ret ()

theorem issues_advance (next : Int) :
    Issues (Among (Serves (some e.id) e.email)) (s.advance e next) := by
  refine issues_query trivial fun found => ?_
  cases found with
  | error err =>
    refine issues_query rfl fun _ => ?_
    refine (issues_maybeCompleteSequence serves_of_general e.sequenceID).bind fun _ => ?_
    exact issues_incrementQuota serves_of_general s
  | ok step =>
    refine issues_query trivial fun started => issues_query trivial fun now => ?_
    exact issues_query rfl fun _ => issues_incrementQuota serves_of_general s

theorem issues_sendStep (tmpl : EmailTemplate) (step : SequenceStep) :
    Issues (Among (Serves (some e.id) e.email)) (s.sendStep e tmpl step) := by
  refine issues_query trivial fun token => issues_query trivial fun _ => ?_
  refine issues_succeed fun body => issues_query ⟨rfl, ?_⟩ fun sent => ?_
  · exact fun j k h => congrArg some (Purpose.step.inj h).1
  · cases sent with
    | error err => exact issues_markEnrollmentFailed e.email e.attemptCount err
    | ok _ => exact issues_advance s _

theorem issues_nextStep : Issues (Among (Serves (some e.id) e.email)) (s.nextStep e) := by
  refine issues_query trivial fun found => ?_
  cases found with
  | error err =>
    refine issues_query rfl fun _ => ?_
    exact issues_maybeCompleteSequence serves_of_general e.sequenceID
  | ok step =>
    dsimp only
    split
    · exact issues_markEnrollmentFailed e.email e.attemptCount _
    · exact issues_sendStep s _ step

theorem issues_processOneEnrollment (skip : Bool) :
    Issues (Among (Serves (some e.id) e.email)) (s.processOneEnrollment e skip) := by
  refine issues_query trivial fun unsubscribed => ?_
  show Issues _ (if counted unsubscribed > 0 then _ else _)
  split
  · exact issues_query rfl fun _ => .ret ()
  · cases skip with
    | false => exact issues_nextStep s
    | true =>
      refine issues_query trivial fun converted => ?_
      show Issues _ (if counted converted > 0 then _ else _)
      split
      · exact issues_query rfl fun _ => .ret ()
      · exact issues_nextStep s

theorem issues_sendCampaigns {T : Stmt → Prop} (hT : ∀ a st, Serves none a st → T st)
    (campaigns : List Campaign) (remaining : Int) :
    Issues (Among T) (s.sendCampaigns campaigns remaining) := by
  have hgeneral : ∀ st, General st → T st := fun st h => hT "" st (h none "")
  induction campaigns generalizing remaining with
  | nil => exact .ret _
  | cons c rest ih =>
    rw [Mailer.sendCampaigns]
    split
    · exact .ret _
    · refine issues_query (hgeneral _ fun _ _ => trivial) fun found => ?_
      cases found with
      | error e => exact ih _
      | ok recipients =>
        show Issues _ (if recipients.isEmpty = true then _ else _)
        split
        · exact (issues_completeCampaign hgeneral c.id).bind fun _ => ih _
        · refine (issues_sendToRecipients s c (fun r _ => ?_) remaining).bind fun left => ih _
          refine (issues_sendToRecipient s c r).mono ?_
          rintro _ ⟨st, rfl, h⟩
          exact ⟨st, rfl, hT r.email st h⟩

theorem issues_processQueue {T : Stmt → Prop} (hT : ∀ a st, Serves none a st → T st) :
    Issues (Among T) s.processQueue := by
  have hgeneral : ∀ st, General st → T st := fun st h => hT "" st (h none "")
  refine (issues_getRemainingQuota hgeneral s).attempt.bind fun quota => ?_
  cases quota with
  | error e => exact .ret _
  | ok remaining =>
    show Issues _ (if remaining ≤ 0 then _ else _)
    split
    · exact .ret _
    · refine issues_query (hgeneral _ fun _ _ => trivial) fun campaigns => ?_
      cases campaigns with
      | error e => exact .ret _
      | ok campaigns => exact issues_sendCampaigns s hT campaigns remaining

theorem issues_tick {T : Stmt → Prop} (hT : ∀ i a st, Serves i a st → T st)
    (hdue : ∀ limit, T (.dueEnrollments limit)) : Issues (Among T) s.tick := by
  have hgeneral : ∀ st, General st → T st := fun st h => hT none "" st (h none "")
  refine (issues_processQueue s fun a st h => hT none a st h).bind fun _ => ?_
  refine (issues_getRemainingQuota hgeneral s).attempt.bind fun quota => ?_
  cases quota with
  | error e => exact .ret _
  | ok remaining =>
    show Issues _ (if remaining ≤ 0 then _ else _)
    split
    · exact .ret _
    · refine issues_query (hdue _) fun due => ?_
      cases due with
      | error e => exact .ret _
      | ok due =>
        refine Issues.each (fun d => (issues_processOneEnrollment s d.2).mono ?_) due
        rintro _ ⟨st, rfl, h⟩
        exact ⟨st, rfl, hT (some d.1.id) d.1.email st h⟩

end

end Worker

def queues : Stmt → Bool
  | .insertRecipient .. => true
  | _ => false

def sends : Stmt → Bool
  | .sendEmail _ => true
  | _ => false

/-- Neither queues a recipient nor sends an email. -/
def Idle (st : Stmt) : Prop := queues st = false ∧ sends st = false

namespace Calls

open Worker (issues_query issues_succeed)

section

attribute [local irreducible] Issues

theorem issues_unsubscribe (token : String) : Issues (Among Idle) (unsubscribe token) := by
  refine issues_query ⟨rfl, rfl⟩ fun found => ?_
  cases found with
  | error e => exact .fail _
  | ok email => exact issues_query ⟨rfl, rfl⟩ fun _ => .ret _

theorem issues_resolveContact (p : ResolveParams) : Issues (Among Idle) (resolveContact p) := by
  rw [resolveContact]
  split
  · exact .fail _
  · refine issues_query ⟨rfl, rfl⟩ fun found => ?_
    cases found with
    | ok contact =>
      refine issues_query ⟨rfl, rfl⟩ fun now => issues_query ⟨rfl, rfl⟩ fun updated => ?_
      exact ((Issues.ofExcept updated).mapError _).bind fun _ => .ret _
    | error e =>
      show Issues _ (if e.is .noRows then _ else _)
      split
      · refine issues_query ⟨rfl, rfl⟩ fun uuid => issues_query ⟨rfl, rfl⟩ fun now => ?_
        exact issues_query ⟨rfl, rfl⟩ fun created => (Issues.ofExcept created).mapError _
      · exact .fail _

theorem issues_contact (l : ContactCall) : Issues (Among Idle) l.program := by
  cases l with
  | unsubscribe token =>
    rw [ContactCall.program]
    exact (issues_unsubscribe token).bind fun _ => .ret _
  | resolve p =>
    rw [ContactCall.program]
    exact (issues_resolveContact p).bind fun _ => .ret _

theorem issues_resolveAudience (audience : Audience) :
    Issues (Among Idle) (resolveAudience audience) := by
  have hkeys : ∀ emails, Issues (Among Idle) (query (.keysOf emails)) := fun emails =>
    issues_query ⟨rfl, rfl⟩ fun keys => .ret _
  rw [resolveAudience]
  split
  · refine issues_query ⟨rfl, rfl⟩ fun found => ((Issues.ofExcept found).mapError _).bind ?_
    intro merchants
    dsimp only
    split
    · refine issues_query ⟨rfl, rfl⟩ fun found => ((Issues.ofExcept found).mapError _).bind ?_
      exact fun contacts => hkeys _
    · exact hkeys _
  · show Issues _ (if audience = .contactsOptedIn ∨ audience = .all then _ else _)
    split
    · refine issues_query ⟨rfl, rfl⟩ fun found => ((Issues.ofExcept found).mapError _).bind ?_
      exact fun contacts => hkeys _
    · exact hkeys _

theorem issues_filterUnsubscribed (emails : List String) :
    Issues (Among Idle) (filterUnsubscribed emails) := by
  refine issues_query ⟨rfl, rfl⟩ fun found => ?_
  exact issues_succeed fun unsubscribed => .ret _

theorem issues_launchSequence (uuid : String) : Issues (Among Idle) (launchSequence uuid) := by
  refine issues_query ⟨rfl, rfl⟩ fun found =>
    ((Issues.ofExcept found).mapError _).bind fun seq => ?_
  refine issues_query ⟨rfl, rfl⟩ fun loaded => ((Issues.ofExcept loaded).mapError _).bind ?_
  intro steps
  split
  · cases steps with
    | nil => exact .fail _
    | cons first rest =>
      refine ((issues_resolveAudience seq.audience).mapError _).bind fun audience => ?_
      refine ((issues_filterUnsubscribed audience).mapError _).bind fun emails => ?_
      split
      · exact .fail _
      · refine issues_query ⟨rfl, rfl⟩ fun now => issues_query ⟨rfl, rfl⟩ fun done => ?_
        exact (Issues.ofExcept done).mapError _
  · exact .fail _

/-- What follows the filter of a campaign. -/
theorem issues_queueing {T : Stmt → Prop} (id : Int) {emails : List String}
    (hemails : ∀ e ∈ emails, T (.insertRecipient id e)) :
    Issues (Among T) (insertRecipients id emails) := by
  induction emails with
  | nil => exact .ret _
  | cons e rest ih =>
    refine Issues.bind (issues_query (hemails e List.mem_cons_self) fun _ => .ret _) fun _ => ?_
    exact ih fun e' he' => hemails e' (List.mem_cons_of_mem e he')

theorem issues_sendCampaign (uuid : String) : Issues (Among fun _ => True) (sendCampaign uuid) := by
  have hidle : ∀ {α : Type} {p : MarketingCall α}, Issues (Among Idle) p →
      Issues (Among fun _ => True) p := by
    intro α p hp
    refine hp.mono ?_
    rintro _ ⟨st, rfl, -⟩
    exact ⟨st, rfl, trivial⟩
  refine issues_query trivial fun found => ((Issues.ofExcept found).mapError _).bind ?_
  intro campaign
  split
  · refine ((hidle (issues_resolveAudience campaign.audience)).mapError _).bind fun audience => ?_
    refine ((hidle (issues_filterUnsubscribed audience)).mapError _).bind fun emails => ?_
    split
    · exact .fail _
    · refine (issues_queueing campaign.id fun _ _ => trivial).bind fun _ => ?_
      refine issues_query trivial fun now => issues_query trivial fun done => ?_
      exact (Issues.ofExcept done).mapError _
  · exact .fail _

end

end Calls

namespace Mailer

section

attribute [local irreducible] Issues

theorem issues_idle (s : Mailer) {l : MarketingLabel} (hcampaign : ∀ uuid, l ≠ .sendCampaign uuid)
    (htick : l ≠ .tick) : Issues (Among Idle) (s.program l) := by
  cases l with
  | sendCampaign uuid => exact absurd rfl (hcampaign uuid)
  | launchSequence uuid => exact Calls.issues_launchSequence uuid
  | unsubscribe token => exact Calls.issues_contact (.unsubscribe token)
  | resolve p => exact Calls.issues_contact (.resolve p)
  | tick => exact absurd rfl htick

/-- Only sending a campaign queues recipients. -/
theorem issues_program (s : Mailer) (l : MarketingLabel) :
    Issues (Among fun st => (∀ uuid, l ≠ .sendCampaign uuid) → queues st = false)
      (s.program l) := by
  cases l with
  | sendCampaign uuid =>
    refine (Calls.issues_sendCampaign uuid).mono ?_
    rintro _ ⟨st, rfl, -⟩
    exact ⟨st, rfl, fun h => absurd rfl (h uuid)⟩
  | tick =>
    refine Worker.issues_tick s ?_ fun limit _ => rfl
    intro i a st h _
    cases st with
    | insertRecipient campaignID email => exact False.elim h
    | _ => rfl
  | _ =>
    refine (issues_idle s (by simp) (by simp)).mono ?_
    rintro _ ⟨st, rfl, h⟩
    exact ⟨st, rfl, fun _ => h.1⟩

end

theorem singles (s : Mailer) : SinglesOnly s.system := by
  intro l
  refine (issues_program s l).mono ?_
  rintro _ ⟨st, rfl, -⟩
  exact ⟨st, rfl⟩

end Mailer

end Marketing

end CryptoLink
