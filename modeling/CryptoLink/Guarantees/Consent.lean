import CryptoLink.Marketing.Calls

/-!
# Consent of contacts

The time of acceptance is kept by every statement. Consent is not: a call that
found a row writes back the consent it read, whatever has happened since. Runs
in which nothing has happened since keep what consent promises.
-/

namespace CryptoLink

namespace Marketing

open KeyedTables ReadCommitted StatementPrograms System

def resolves (a : String) : ContactCall → Bool
  | .resolve p => p.address = a
  | .unsubscribe _ => false

def consents (a : String) : ContactCall → Bool
  | .resolve p => p.address = a && p.marketingConsent
  | .unsubscribe _ => false

def withdraws (a : String) : Cmd Stmt → Bool
  | .stmt .pool (.withdrawConsent email) => lower a = lower email
  | _ => false

def writesContact : Cmd Stmt → Bool
  | .stmt .pool (.upsertContact _) => true
  | .stmt .pool (.updateContact ..) => true
  | _ => false

/-- No statement of the step withdraws the consent of `a`. -/
def Spares (a : String) (cfg : ContactConfig) (e : ContactEvent) : Prop :=
  ∀ x ∈ contactCalls.executing cfg e, withdraws a x.cmd = false

instance (a : String) (cfg : ContactConfig) (e : ContactEvent) : Decidable (Spares a cfg e) :=
  inferInstanceAs (Decidable (∀ x ∈ contactCalls.executing cfg e, withdraws a x.cmd = false))

/-- The step withdraws the consent of `a`. -/
def Withdraws (a : String) (cfg : ContactConfig) (e : ContactEvent) : Prop :=
  ∃ x ∈ contactCalls.executing cfg e, withdraws a x.cmd = true ∧ x.env.fate ≠ .refused

/-- No call that carries consent writes the contact of `a`. -/
def Withholds (a : String) (cfg : ContactConfig) (e : ContactEvent) : Prop :=
  ∀ x ∈ contactCalls.executing cfg e, consents a x.thread.label = true →
    writesContact x.cmd = false

def isOver : MarketingCall Unit → Bool
  | .ret _ => true
  | _ => false

@[simp] theorem isOver_call (c : Cmd Stmt) (k : Answer Reply c → MarketingCall Unit) :
    isOver (.call c k) = false := rfl

/-- Consent of the calls for `a` that have returned. -/
def consented (a : String) (threads : List ContactThread) : Bool :=
  threads.any fun th => isOver th.prog && consents a th.label

structure UpgradeOnly (w : World) (es : List ContactEvent) : Prop where
  disjunction : ∀ a, contactCalls.Along (Spares a) ⟨w, []⟩ es →
    (∀ th ∈ (contactCalls.run ⟨w, []⟩ es).threads, resolves a th.label = true →
      isOver th.prog = true) →
    consentOf a (contactCalls.run ⟨w, []⟩ es).world =
      (consentOf a w || consented a (contactCalls.run ⟨w, []⟩ es).threads)
  terms : ∀ a t earlier later, es = earlier ++ later →
    termsOf a (contactCalls.run ⟨w, []⟩ earlier).world = some t →
    termsOf a (contactCalls.run ⟨w, []⟩ es).world = some t
  withdrawn : ∀ a earlier e later, es = earlier ++ e :: later →
    Withdraws a (contactCalls.run ⟨w, []⟩ earlier) e →
    contactCalls.Along (Withholds a) (contactCalls.run ⟨w, []⟩ (earlier ++ [e])) later →
    consentOf a (contactCalls.run ⟨w, []⟩ es).world = false

/-- A call without consent writes back the consent that is there. -/
def fresh (w : World) : ContactCall → Cmd Stmt → Bool
  | .resolve p, .stmt .pool (.updateContact id m _ _) =>
      p.marketingConsent || match w.contacts.get id with
        | some c => c.marketingConsent = m
        | none => true
  | _, _ => true

/-- No call is cut off, and of calls without consent only those write a row they
found in which consent is as they read it. -/
def Current (cfg : ContactConfig) : ContactEvent → Prop
  | .crash _ => False
  | e => ∀ x ∈ contactCalls.executing cfg e, fresh cfg.world x.thread.label x.cmd = true

instance (cfg : ContactConfig) (e : ContactEvent) : Decidable (Current cfg e) :=
  match e with
  | .crash _ => .isFalse id
  | .start l => inferInstanceAs (Decidable (∀ x ∈ contactCalls.executing cfg (.start l),
      fresh cfg.world x.thread.label x.cmd = true))
  | .exec i env => inferInstanceAs (Decidable (∀ x ∈ contactCalls.executing cfg (.exec i env),
      fresh cfg.world x.thread.label x.cmd = true))
  | .move m => inferInstanceAs (Decidable (∀ x ∈ contactCalls.executing cfg (.move m),
      fresh cfg.world x.thread.label x.cmd = true))

variable {a : String} {env : Env} {w : World} {st : Stmt}

theorem consentOf_of_row {c : Contact} (h : w.getContact a = some c) :
    consentOf a w = c.marketingConsent := by
  rw [consentOf, h]

theorem consentOf_congr {w' : World} (h : w'.getContact a = w.getContact a) :
    consentOf a w' = consentOf a w := by
  rw [consentOf, h, consentOf]

/-- The statements that are about contacts. -/
def aboutContacts : Stmt → Bool
  | .upsertContact _ => true
  | .updateContact .. => true
  | .withdrawConsent _ => true
  | _ => false

theorem getContact_other (h : aboutContacts st = false) (env : Env) (w : World) (a : String) :
    (World.effect st env w).getContact a = w.getContact a := by
  cases st with
  | upsertContact p => cases h
  | updateContact id m t now => cases h
  | withdrawConsent e => cases h
  | insertRecipient campaignID email =>
    simp only [World.effect]
    split <;> rfl
  | issueToken email token =>
    simp only [World.effect]
    split <;> rfl
  | sendEmail email =>
    simp only [World.effect]
    split <;> rfl
  | _ => rfl

/-- A row stays, with its id and with the time of acceptance it has. -/
theorem row_kept {c : Contact} (h : w.getContact a = some c) (st : Stmt) (env : Env) :
    ∃ c', (World.effect st env w).getContact a = some c' ∧ c'.id = c.id ∧
      ∀ t, c.termsAcceptedAt = some t → c'.termsAcceptedAt = some t := by
  by_cases hst : aboutContacts st = true
  · cases st with
    | updateContact id m t now =>
      rw [getContact_updateContact, h, Option.map_some]
      refine ⟨_, rfl, ?_⟩
      split
      · refine ⟨rfl, ?_⟩
        intro t' ht
        simp [World.updatedContact, ht]
      · exact ⟨rfl, fun _ ht => ht⟩
    | withdrawConsent e =>
      rw [getContact_withdrawConsent, h, Option.map_some]
      refine ⟨_, rfl, ?_⟩
      split
      · exact ⟨rfl, fun _ ht => ht⟩
      · exact ⟨rfl, fun _ ht => ht⟩
    | upsertContact p =>
      rw [getContact_upsertContact]
      split
      · rename_i hmine
        refine ⟨_, rfl, ?_⟩
        rw [World.upsertedContact, ← hmine.2, h]
        refine ⟨rfl, ?_⟩
        intro t ht
        simp [World.mergedContact, ht]
      · exact ⟨c, h, rfl, fun _ ht => ht⟩
    | _ => cases hst
  · rw [getContact_other (by simpa using hst), h]
    exact ⟨c, rfl, rfl, fun _ ht => ht⟩

def lookedUp (p : ResolveParams) (found : Except Err Contact) : MarketingCall Unit :=
  Prog.bind (match found with
    | .ok contact => upgradeContact p contact
    | .error e =>
      if e.is .noRows then createContact p
      else .fail (e.wrap "failed to look up contact")) fun _ => .ret ()

def closing {α : Type} (message : String) (done : Except Err α) : MarketingCall Unit :=
  Prog.bind (wrapping message (succeed done)) fun _ => .ret ()

def created (p : ResolveParams) (uuid : String) (now : Int) : MarketingCall Unit :=
  .call (.stmt .pool (.upsertContact (newParams p uuid now)))
    (closing "failed to create/upsert contact")

def named (p : ResolveParams) (uuid : String) : MarketingCall Unit :=
  .call (.stmt .pool .timeNow) (created p uuid)

def upgraded (p : ResolveParams) (c : Contact) (now : Int) : MarketingCall Unit :=
  .call (.stmt .pool (.updateContact c.id (c.marketingConsent || p.marketingConsent)
    (acceptedAt p c now) now)) (closing "failed to update contact consent")

def withdrawing (found : Except Err String) : MarketingCall Unit :=
  match found with
  | .error _ => .fail (Err.new "invalid or expired unsubscribe link")
  | .ok email => .call (.stmt .pool (.withdrawConsent email)) fun _ => .ret ()

theorem lookedUp_ok (p : ResolveParams) (c : Contact) :
    lookedUp p (.ok c) = .call (.stmt .pool .timeNow) (upgraded p c) := by
  apply congrArg (Prog.call _)
  funext now
  apply congrArg (Prog.call _)
  funext updated
  cases updated <;> rfl

theorem lookedUp_error (p : ResolveParams) (e : Err) : lookedUp p (.error e) =
    if e.is .noRows then .call (.stmt .pool .random) (named p)
    else .fail (e.wrap "failed to look up contact") := by
  simp only [lookedUp]
  split
  · rfl
  · rfl

/-- The row that was found for an address is still its row. -/
def IsRowOf (w : World) (p : ResolveParams) (c : Contact) : Prop :=
  ∃ c', w.getContact p.address = some c' ∧ c'.id = c.id

/-- Where a call stands. -/
inductive Stage (w : World) : ContactCall → MarketingCall Unit → Prop
  | looking (p : ResolveParams) :
      Stage w (.resolve p) (.call (.stmt .pool (.getContact p.address)) (lookedUp p))
  | naming (p : ResolveParams) : Stage w (.resolve p) (.call (.stmt .pool .random) (named p))
  | dating (p : ResolveParams) (uuid : String) :
      Stage w (.resolve p) (.call (.stmt .pool .timeNow) (created p uuid))
  | creating (p : ResolveParams) (uuid : String) (now : Int) :
      Stage w (.resolve p) (.call (.stmt .pool (.upsertContact (newParams p uuid now)))
        (closing "failed to create/upsert contact"))
  | reading (p : ResolveParams) (c : Contact) (hrow : IsRowOf w p c) :
      Stage w (.resolve p) (.call (.stmt .pool .timeNow) (upgraded p c))
  | upgrading (p : ResolveParams) (c : Contact) (now : Int) (hrow : IsRowOf w p c) :
      Stage w (.resolve p) (.call (.stmt .pool (.updateContact c.id
        (c.marketingConsent || p.marketingConsent) (acceptedAt p c now) now))
        (closing "failed to update contact consent"))
  | finding (token : String) :
      Stage w (.unsubscribe token) (.call (.stmt .pool (.emailOfToken token)) withdrawing)
  | withdrawing (token email : String) :
      Stage w (.unsubscribe token) (.call (.stmt .pool (.withdrawConsent email)) fun _ => .ret ())
  | returned (l : ContactCall) : Stage w l (.ret ())
  | failed (l : ContactCall) (e : Err) : Stage w l (.fail e)

variable {l : ContactCall}

theorem program_resolve {p : ResolveParams} (h : p.address ≠ "") :
    ContactCall.program (.resolve p) =
      .call (.stmt .pool (.getContact p.address)) (lookedUp p) := by
  rw [ContactCall.program, resolveContact, if_neg h]
  apply congrArg (Prog.call _)
  funext found
  cases found <;> rfl

theorem program_unsubscribe (token : String) :
    ContactCall.program (.unsubscribe token) =
      .call (.stmt .pool (.emailOfToken token)) Marketing.withdrawing := by
  apply congrArg (Prog.call _)
  funext found
  cases found <;> rfl

theorem stage_program (w : World) (l : ContactCall) : Stage w l l.program := by
  cases l with
  | resolve p =>
    by_cases hempty : p.address = ""
    · rw [ContactCall.program, resolveContact, if_pos hempty]
      exact .failed _ _
    · rw [program_resolve hempty]
      exact .looking p
  | unsubscribe token =>
    rw [program_unsubscribe]
    exact .finding token

/-- Rows stay what they are to the calls beside. -/
theorem Stage.kept {w' : World} {prog : MarketingCall Unit} (h : Stage w l prog)
    (hrows : ∀ a c, w.getContact a = some c → ∃ c', w'.getContact a = some c' ∧ c'.id = c.id) :
    Stage w' l prog := by
  have hrow : ∀ p c, IsRowOf w p c → IsRowOf w' p c := by
    rintro p c ⟨c', hc', hid⟩
    obtain ⟨c'', hc'', hid'⟩ := hrows _ _ hc'
    exact ⟨c'', hc'', hid'.trans hid⟩
  cases h with
  | looking p => exact .looking p
  | naming p => exact .naming p
  | dating p uuid => exact .dating p uuid
  | creating p uuid now => exact .creating p uuid now
  | reading p c h => exact .reading p c (hrow p c h)
  | upgrading p c now h => exact .upgrading p c now (hrow p c h)
  | finding token => exact .finding token
  | withdrawing token email => exact .withdrawing token email
  | returned => exact .returned l
  | failed _ e => exact .failed l e

theorem rows_autocommit (st : Stmt) (env : Env) (w : World) (a : String) (c : Contact)
    (h : w.getContact a = some c) :
    ∃ c', (engine.autocommit st env w).getContact a = some c' ∧ c'.id = c.id := by
  rw [autocommit_eq]
  split
  · exact ⟨c, h, rfl⟩
  · obtain ⟨c', hc', hid, -⟩ := row_kept h st env
    exact ⟨c', hc', hid⟩

theorem stage_closing {α : Type} (w : World) (l : ContactCall) (message : String)
    (done : Except Err α) : Stage w l (closing message done) := by
  cases done with
  | ok _ => exact .returned l
  | error e => exact .failed l _

theorem row_of_found {p : ResolveParams} {c : Contact}
    (h : World.answer env w (.getContact p.address) = .ok c) : IsRowOf w p c := by
  have hfound : answered env.fate .database (noRows (w.getContact p.address)) = .ok c := h
  rw [answered] at hfound
  split at hfound
  · cases hget : w.getContact p.address with
    | none =>
      rw [hget] at hfound
      cases hfound
    | some c' =>
      rw [hget] at hfound
      cases hfound
      exact ⟨c, hget, rfl⟩
  · cases hfound

theorem Stage.next {k : Reply st → MarketingCall Unit} (env : Env)
    (h : Stage w l (.call (.stmt .pool st) k)) :
    Stage (engine.autocommit st env w) l (k (engine.reply st env w)) := by
  have hrows := rows_autocommit st env w
  cases h with
  | looking p =>
    refine Stage.kept ?_ hrows
    cases hfound : engine.reply (.getContact p.address) env w with
    | ok c =>
      rw [lookedUp_ok]
      exact .reading p c (row_of_found hfound)
    | error e =>
      rw [lookedUp_error]
      split
      · exact .naming p
      · exact .failed _ _
  | naming p => exact .dating p _
  | dating p uuid => exact .creating p uuid _
  | creating p uuid now => exact stage_closing _ _ _ _
  | reading p c hrow => exact Stage.kept (.upgrading p c _ hrow) hrows
  | upgrading p c now hrow => exact stage_closing _ _ _ _
  | finding token =>
    cases engine.reply (.emailOfToken token) env w with
    | ok email => exact .withdrawing token email
    | error e => exact .failed _ _
  | withdrawing token email => exact .returned _

section

-- the address is not to be computed
attribute [local irreducible] Issues

theorem issues_program (l : ContactCall) : Issues Cmd.isSingle l.program :=
  (Calls.issues_contact l).mono fun _ ⟨st, hst, _⟩ => ⟨st, hst⟩

theorem contactCalls_singlesOnly : SinglesOnly contactCalls := issues_program

theorem isOver_program (l : ContactCall) : isOver l.program = false := by
  cases l with
  | unsubscribe token => rfl
  | resolve p =>
    by_cases hempty : p.address = ""
    · rw [ContactCall.program, resolveContact, if_pos hempty]
      rfl
    · rw [program_resolve hempty]
      rfl

end

/-- A statement of a call for another address, or that withdraws nothing here. -/
theorem Stage.consentOf_other {k : Reply st → MarketingCall Unit}
    (h : Stage w l (.call (.stmt .pool st) k)) (hl : resolves a l = false)
    (hw : withdraws a (.stmt .pool st) = false) (env : Env) :
    consentOf a (engine.autocommit st env w) = consentOf a w := by
  rw [autocommit_eq]
  split
  · rfl
  cases h with
  | creating p uuid now =>
    apply consentOf_congr
    have hne : a ≠ p.address := by
      rintro rfl
      simp [resolves] at hl
    rw [getContact_upsertContact]
    exact if_neg fun hmine => hne hmine.2
  | upgrading p c now hrow =>
    have hne : a ≠ p.address := by
      rintro rfl
      simp [resolves] at hl
    apply consentOf_congr
    rw [getContact_updateContact]
    cases hget : w.getContact a with
    | none => rfl
    | some x =>
      obtain ⟨c', hc', hid⟩ := hrow
      have hother : x.id ≠ c.id := by
        intro hsame
        have heq : x = c' := Table.eq_of_key_eq (List.mem_of_find?_eq_some hget)
          (List.mem_of_find?_eq_some hc') (hsame.trans hid.symm)
        have hxa := getContact_email hget
        rw [heq, getContact_email hc'] at hxa
        exact hne hxa.symm
      rw [Option.map_some, if_neg hother]
  | withdrawing token email =>
    apply consentOf_congr
    rw [getContact_withdrawConsent]
    cases hget : w.getContact a with
    | none => rfl
    | some x =>
      have hother : lower x.email ≠ lower email := by
        rw [getContact_email hget]
        simpa [withdraws] using hw
      rw [Option.map_some, if_neg hother]
  | looking p => rfl
  | naming p => rfl
  | dating p uuid => rfl
  | reading p c hrow => rfl
  | finding token => rfl

theorem consentOf_upsert {p : ResolveParams} {uuid : String} {now : Int}
    (hfits : w.contactFits env.id (newParams p uuid now) = true) :
    consentOf p.address (World.effect (.upsertContact (newParams p uuid now)) env w) =
      (consentOf p.address w || p.marketingConsent) := by
  have hrow : (World.effect (.upsertContact (newParams p uuid now)) env w).getContact p.address =
      some (w.upsertedContact env.id (newParams p uuid now)) := by
    rw [getContact_upsertContact]
    exact if_pos ⟨hfits, rfl⟩
  rw [consentOf_of_row hrow, World.upsertedContact, consentOf]
  have hemail : (newParams p uuid now).email = p.address := rfl
  rw [hemail]
  cases w.getContact p.address with
  | none => rfl
  | some c =>
    simp only [World.mergedContact]
    cases c.marketingConsent <;> rfl

/-- Writing back is giving, where the row is as it was read. -/
theorem consentOf_upgrade {p : ResolveParams} {c : Contact} {now : Int} (hrow : IsRowOf w p c)
    (hfresh : fresh w (.resolve p) (.stmt .pool (.updateContact c.id
      (c.marketingConsent || p.marketingConsent) (acceptedAt p c now) now)) = true) :
    consentOf p.address (World.effect (.updateContact c.id
      (c.marketingConsent || p.marketingConsent) (acceptedAt p c now) now) env w) =
      (consentOf p.address w || p.marketingConsent) := by
  obtain ⟨c', hc', hid⟩ := hrow
  have hget : w.contacts.get c.id = some c' := by
    rw [← hid]
    exact Table.get_of_mem (List.mem_of_find?_eq_some hc')
  have hafter : (World.effect (.updateContact c.id (c.marketingConsent || p.marketingConsent)
      (acceptedAt p c now) now) env w).getContact p.address =
      some (World.updatedContact (c.marketingConsent || p.marketingConsent)
        (acceptedAt p c now) now c') := by
    rw [getContact_updateContact, hc', Option.map_some, if_pos hid]
  rw [consentOf_of_row hafter, consentOf_of_row hc']
  simp only [fresh, hget, Bool.or_eq_true, decide_eq_true_eq] at hfresh
  simp only [World.updatedContact]
  cases hgiven : p.marketingConsent with
  | true => simp
  | false =>
    rw [hgiven] at hfresh
    simp only [Bool.false_eq_true, false_or, Bool.or_false] at hfresh ⊢
    exact hfresh.symm

theorem consentOf_read (h : aboutContacts st = false) (env : Env) :
    consentOf a (engine.autocommit st env w) = consentOf a w := by
  rw [autocommit_eq]
  split
  · rfl
  · exact consentOf_congr (getContact_other h env w a)

/-- What a write of the call makes of consent, wherever it lands. -/
theorem Stage.consentOf_write {p : ResolveParams} {k : Reply st → MarketingCall Unit}
    (h : Stage w (.resolve p) (.call (.stmt .pool st) k))
    (hfresh : fresh w (.resolve p) (.stmt .pool st) = true) (env : Env) :
    consentOf p.address (engine.autocommit st env w) = consentOf p.address w ∨
      writesContact (.stmt .pool st) = true ∧
      consentOf p.address (engine.autocommit st env w) =
        (consentOf p.address w || p.marketingConsent) := by
  by_cases hst : aboutContacts st = true
  · rw [autocommit_eq]
    split
    · exact .inl rfl
    cases h with
    | creating p uuid now =>
      by_cases hfits : w.contactFits env.id (newParams p uuid now) = true
      · exact .inr ⟨rfl, consentOf_upsert hfits⟩
      · left
        apply consentOf_congr
        rw [getContact_upsertContact]
        exact if_neg fun hboth => hfits hboth.1
    | upgrading p c now hrow => exact .inr ⟨rfl, consentOf_upgrade hrow hfresh⟩
    | looking p => cases hst
    | naming p => cases hst
    | dating p uuid => cases hst
    | reading p c hrow => cases hst
  · exact .inl (consentOf_read (by simpa using hst) env)

theorem isOver_closing {α : Type} {message : String} {done : Except Err α} :
    isOver (closing message done) = true ↔ ∃ x, done = .ok x := by
  cases done with
  | ok x => exact ⟨fun _ => ⟨x, rfl⟩, fun _ => rfl⟩
  | error e =>
    constructor
    · intro h
      cases h
    · rintro ⟨x, hx⟩
      cases hx

theorem closing_cases {α : Type} (message : String) (done : Except Err α) :
    (∃ e, closing message done = .fail e) ∨ ∃ x, done = .ok x := by
  cases done with
  | ok x => exact .inr ⟨x, rfl⟩
  | error e => exact .inl ⟨_, rfl⟩

theorem landed_of_upsert {q : InsertContactParams} {c : Contact}
    (h : engine.reply (.upsertContact q) env w = .ok c) :
    env.fate = .done ∧ w.contactFits env.id q = true := by
  have hanswered : answered env.fate .database (fitting (w.contactFits env.id q)
      (w.upsertedContact env.id q)) = .ok c := h
  obtain ⟨hdone, hfitting⟩ := answered_eq_ok hanswered
  rw [fitting] at hfitting
  split at hfitting
  · exact ⟨hdone, by assumption⟩
  · cases hfitting

theorem landed_of_update {id now : Int} {m : Bool} {t : Option Int} {x : Unit}
    (h : engine.reply (.updateContact id m t now) env w = .ok x) : env.fate = .done := by
  have hanswered : answered env.fate Err.database (.ok ()) = .ok x := h
  exact (answered_eq_ok hanswered).1

/-- A call for the address fails, goes on, or returns having given its consent. -/
theorem Stage.consentOf_own {p : ResolveParams} {k : Reply st → MarketingCall Unit}
    (h : Stage w (.resolve p) (.call (.stmt .pool st) k))
    (hfresh : fresh w (.resolve p) (.stmt .pool st) = true) (env : Env) :
    (∃ e, k (engine.reply st env w) = .fail e) ∨
      isOver (k (engine.reply st env w)) = false ∧
        consentOf p.address (engine.autocommit st env w) = consentOf p.address w ∨
      isOver (k (engine.reply st env w)) = true ∧
        consentOf p.address (engine.autocommit st env w) =
          (consentOf p.address w || p.marketingConsent) := by
  cases h with
  | looking p =>
    have hsame : consentOf p.address (engine.autocommit (.getContact p.address) env w) =
        consentOf p.address w := consentOf_read rfl env
    cases engine.reply (.getContact p.address) env w with
    | ok c =>
      rw [lookedUp_ok]
      exact .inr (.inl ⟨rfl, hsame⟩)
    | error e =>
      rw [lookedUp_error]
      split
      · exact .inr (.inl ⟨rfl, hsame⟩)
      · exact .inl ⟨_, rfl⟩
  | naming p => exact .inr (.inl ⟨rfl, consentOf_read rfl env⟩)
  | dating p uuid => exact .inr (.inl ⟨rfl, consentOf_read rfl env⟩)
  | reading p c hrow => exact .inr (.inl ⟨rfl, consentOf_read rfl env⟩)
  | creating p uuid now =>
    rcases closing_cases "failed to create/upsert contact"
      (engine.reply (.upsertContact (newParams p uuid now)) env w) with hfail | ⟨x, hx⟩
    · exact .inl hfail
    · obtain ⟨hdone, hfits⟩ := landed_of_upsert hx
      refine .inr (.inr ⟨isOver_closing.mpr ⟨x, hx⟩, ?_⟩)
      rw [autocommit_eq, hdone, if_neg (by simp)]
      exact consentOf_upsert hfits
  | upgrading p c now hrow =>
    rcases closing_cases "failed to update contact consent" (engine.reply (.updateContact c.id
      (c.marketingConsent || p.marketingConsent) (acceptedAt p c now) now) env w) with
      hfail | ⟨x, hx⟩
    · exact .inl hfail
    · have hdone := landed_of_update hx
      refine .inr (.inr ⟨isOver_closing.mpr ⟨x, hx⟩, ?_⟩)
      rw [autocommit_eq, hdone, if_neg (by simp)]
      exact consentOf_upgrade hrow hfresh

theorem resolves_iff {p : ResolveParams} : resolves a (.resolve p) = true ↔ p.address = a := by
  simp [resolves]

/-- Rows of addresses are not touched when time passes or a token is issued. -/
theorem getContact_move (m : ContactMove) (w : World) (a : String) :
    (contactCalls.move m w).getContact a = w.getContact a := by
  cases m with
  | pass elapsed => rfl
  | issue email token => exact getContact_other rfl {} w a

/-- All calls are in a stage. -/
def Staged (cfg : ContactConfig) : Prop :=
  ∀ th ∈ cfg.threads, Stage cfg.world th.label th.prog

theorem Staged.step {cfg cfg' : ContactConfig} {e : ContactEvent} (h : Staged cfg)
    (hstep : PlainStep contactCalls cfg e cfg') : Staged cfg' := by
  cases hstep with
  | nothing => exact h
  | start l =>
    intro th hth
    rcases List.mem_append.mp hth with hold | hnew
    · exact h th hold
    · rw [List.mem_singleton.mp hnew]
      exact stage_program cfg.world l
  | crash i th here =>
    intro th' hth'
    rcases (mem_set_iff here th').mp hth' with rfl | hother
    · exact .returned _
    · exact h th' (List.mem_of_mem_eraseIdx hother)
  | move m =>
    intro th hth
    refine (h th hth).kept fun a c hc => ⟨c, ?_, rfl⟩
    rw [getContact_move]
    exact hc
  | stmt i env l st k here executing =>
    intro th hth
    rcases (mem_set_iff here th).mp hth with rfl | hother
    · exact (h _ (List.mem_of_getElem? here)).next env
    · exact (h th (List.mem_of_mem_eraseIdx hother)).kept (rows_autocommit st env cfg.world)

/-- Consent is what it was or what a call that has returned has given, as long as
no call for the address has failed. -/
structure Summed (a : String) (before : Bool) (cfg : ContactConfig) : Prop where
  staged : Staged cfg
  sum : (∃ th ∈ cfg.threads, resolves a th.label = true ∧ ∃ e, th.prog = .fail e) ∨
    consentOf a cfg.world = (before || consented a cfg.threads)

theorem Summed.stmt {before : Bool} {cfg : ContactConfig} (h : Summed a before cfg) {i : ℕ}
    {l : ContactCall} {k : Reply st → MarketingCall Unit}
    (here : cfg.threads[i]? = some ⟨l, .call (.stmt .pool st) k, .idle⟩)
    (hfresh : fresh cfg.world l (.stmt .pool st) = true)
    (hspares : withdraws a (.stmt .pool st) = false) :
    (∃ th ∈ cfg.threads.set i ⟨l, k (engine.reply st env cfg.world), .idle⟩,
        resolves a th.label = true ∧ ∃ e, th.prog = .fail e) ∨
      consentOf a (engine.autocommit st env cfg.world) = (before ||
        consented a (cfg.threads.set i ⟨l, k (engine.reply st env cfg.world), .idle⟩)) := by
  have hstage := h.staged _ (List.mem_of_getElem? here)
  rcases h.sum with ⟨th, hth, hmine, e, hfail⟩ | hsum
  · -- a call that has failed is not the one that goes on
    left
    rcases (mem_iff here th).mp hth with rfl | hother
    · cases hfail
    · exact ⟨th, (mem_set_iff here th).mpr (.inr hother), hmine, e, hfail⟩
  · rw [consented, any_eq here] at hsum
    rw [consented, any_set here]
    simp only [isOver_call, Bool.false_and, Bool.false_or] at hsum ⊢
    generalize (cfg.threads.eraseIdx i).any (fun th => isOver th.prog && consents a th.label) =
      rest at hsum ⊢
    cases l with
    | unsubscribe token =>
      right
      rw [hstage.consentOf_other rfl hspares env, hsum]
      simp [consents]
    | resolve p =>
      by_cases hmine : p.address = a
      · subst hmine
        rcases hstage.consentOf_own hfresh env with ⟨e, hfail⟩ | ⟨hover, hsame⟩ | ⟨hover, hgiven⟩
        · exact .inl ⟨_, (mem_set_iff here _).mpr (.inl rfl), resolves_iff.mpr rfl, e, hfail⟩
        · right
          rw [hsame, hsum, hover, Bool.false_and, Bool.false_or]
        · right
          have hconsents : consents p.address (.resolve p) = p.marketingConsent := by
            simp [consents]
          rw [hgiven, hsum, hover, Bool.true_and, hconsents]
          cases before <;> cases rest <;> simp
      · right
        have hother : resolves a (.resolve p) = false := by simp [resolves, hmine]
        rw [hstage.consentOf_other hother hspares env, hsum]
        simp [consents, hmine]

theorem Summed.step {before : Bool} {cfg cfg' : ContactConfig} {e : ContactEvent}
    (h : Summed a before cfg) (hok : Current cfg e ∧ Spares a cfg e)
    (hstep : PlainStep contactCalls cfg e cfg') : Summed a before cfg' := by
  refine ⟨h.staged.step hstep, ?_⟩
  cases hstep with
  | nothing => exact h.sum
  | start l =>
    rcases h.sum with ⟨th, hth, hfailed⟩ | hsum
    · exact .inl ⟨th, List.mem_append_left _ hth, hfailed⟩
    · right
      have hnew : isOver (contactCalls.program l) = false := isOver_program l
      rw [consented, List.any_append, List.any_cons, List.any_nil, hnew]
      simpa [consented] using hsum
  | crash i th here => exact hok.1.elim
  | move m =>
    rcases h.sum with hfailed | hsum
    · exact .inl hfailed
    · right
      rw [consentOf_congr (getContact_move m cfg.world a)]
      exact hsum
  | stmt i env l st k here executing =>
    exact h.stmt here (hok.1 _ executing) (hok.2 _ executing)

theorem terms_effect {t : Int} (h : termsOf a w = some t) (st : Stmt) (env : Env) :
    termsOf a (engine.autocommit st env w) = some t := by
  rw [autocommit_eq]
  split
  · exact h
  · cases hget : w.getContact a with
    | none =>
      rw [termsOf, hget] at h
      cases h
    | some c =>
      rw [termsOf, hget] at h
      obtain ⟨c', hc', -, hterms⟩ := row_kept hget st env
      rw [termsOf, hc']
      exact hterms t h

theorem terms_step {t : Int} {cfg cfg' : ContactConfig} {e : ContactEvent}
    (h : termsOf a cfg.world = some t) (hstep : PlainStep contactCalls cfg e cfg') :
    termsOf a cfg'.world = some t := by
  cases hstep with
  | nothing => exact h
  | start l => exact h
  | crash i th here => exact h
  | move m =>
    rw [termsOf, getContact_move]
    exact h
  | stmt i env l st k here executing => exact terms_effect h st env

theorem consentOf_withdraw (e : String) (hmine : lower a = lower e) :
    consentOf a (World.effect (.withdrawConsent e) env w) = false := by
  rw [consentOf, getContact_withdrawConsent]
  cases hget : w.getContact a with
  | none => rfl
  | some c =>
    rw [Option.map_some, getContact_email hget, if_pos hmine]
    rfl

theorem single_of_withdraws {c : Cmd Stmt} (h : withdraws a c = true) :
    ∃ st, c = .stmt .pool st := by
  cases c with
  | stmt q st =>
    cases q with
    | pool => exact ⟨st, rfl⟩
    | tx => cases h
  | _ => cases h

theorem consentOf_withdrawn (h : withdraws a (.stmt .pool st) = true)
    (hlands : env.fate ≠ .refused) :
    consentOf a (engine.autocommit st env w) = false := by
  rw [autocommit_eq, if_neg hlands]
  cases st with
  | withdrawConsent e => exact consentOf_withdraw e (by simpa [withdraws] using h)
  | _ => cases h

theorem Stage.spares {p : ResolveParams} {k : Reply st → MarketingCall Unit}
    (h : Stage w (.resolve p) (.call (.stmt .pool st) k)) (a : String) :
    withdraws a (.stmt .pool st) = false := by
  cases h <;> rfl

/-- Consent that was withdrawn. -/
structure Withheld (a : String) (cfg : ContactConfig) : Prop where
  staged : Staged cfg
  none : consentOf a cfg.world = false

theorem Withheld.step {cfg cfg' : ContactConfig} {e : ContactEvent} (h : Withheld a cfg)
    (hok : Current cfg e ∧ Withholds a cfg e) (hstep : PlainStep contactCalls cfg e cfg') :
    Withheld a cfg' := by
  refine ⟨h.staged.step hstep, ?_⟩
  cases hstep with
  | nothing => exact h.none
  | start l => exact h.none
  | crash i th here => exact h.none
  | move m =>
    rw [consentOf_congr (getContact_move m cfg.world a)]
    exact h.none
  | stmt i env l st k here executing =>
    have hfresh := hok.1 _ executing
    have hholds := hok.2 _ executing
    have hstage := h.staged _ (List.mem_of_getElem? here)
    show consentOf a (engine.autocommit st env cfg.world) = false
    cases l with
    | unsubscribe token =>
      by_cases hwithdraws : withdraws a (.stmt .pool st) = true
      · by_cases hrefused : env.fate = .refused
        · rw [autocommit_eq, if_pos hrefused]
          exact h.none
        · exact consentOf_withdrawn hwithdraws hrefused
      · rw [hstage.consentOf_other rfl (by simpa using hwithdraws)]
        exact h.none
    | resolve p =>
      by_cases hmine : p.address = a
      · subst hmine
        rcases hstage.consentOf_write hfresh env with hsame | ⟨hwrites, hgiven⟩
        · rw [hsame]
          exact h.none
        · have hnot : p.marketingConsent = false := by
            by_contra hconsent
            have hcarries : consents p.address (.resolve p) = true := by
              simpa [consents] using hconsent
            have hsilent := hholds hcarries
            rw [hwrites] at hsilent
            cases hsilent
          rw [hgiven, h.none, hnot]
          rfl
      · have hother : resolves a (.resolve p) = false := by simp [resolves, hmine]
        rw [hstage.consentOf_other hother (hstage.spares a)]
        exact h.none

theorem along_anyway (cfg : ContactConfig) (es : List ContactEvent) :
    contactCalls.Along (fun _ _ => True) cfg es :=
  Along.of_always contactCalls (fun _ _ => trivial) es

theorem plain_run (w : World) (es : List ContactEvent) :
    Plain (contactCalls.run ⟨w, []⟩ es) :=
  (Plain.invariant contactCalls_singlesOnly (I := fun _ => True) (fun _ _ _ _ _ _ => trivial)
    (plain_of_no_threads w) (along_anyway _ es) trivial).1

theorem staged_run (w : World) (es : List ContactEvent) :
    Staged (contactCalls.run ⟨w, []⟩ es) :=
  plain_invariant contactCalls_singlesOnly (fun _ _ _ hI _ hstep => hI.step hstep)
    (along_anyway _ es) fun _ hth => by cases hth

/-- Consent is only ever given, the time of acceptance never changes, and a
withdrawal lasts, in runs in which what a call writes back is still there. -/
theorem consent_upgrades (w : World) (es : List ContactEvent)
    (h : contactCalls.Along Current ⟨w, []⟩ es) : UpgradeOnly w es := by
  constructor
  · intro a hspares hover
    have hsum : Summed a (consentOf a w) (contactCalls.run ⟨w, []⟩ es) := by
      refine plain_invariant contactCalls_singlesOnly
        (fun _ _ _ hI hok hstep => hI.step hok hstep) (h.and hspares)
        ⟨fun _ hth => (by cases hth), ?_⟩
      right
      simp [consented]
    rcases hsum.sum with ⟨th, hth, hmine, e, hfail⟩ | hsum
    · have hreturned := hover th hth hmine
      rw [hfail] at hreturned
      cases hreturned
    · exact hsum
  · rintro a t earlier later rfl hterms
    rw [run_append]
    exact (Plain.invariant contactCalls_singlesOnly (fun _ _ _ hI _ hstep => terms_step hI hstep)
      (plain_run w earlier) (along_anyway _ later) hterms).2
  · rintro a earlier e later rfl ⟨x, hx, hwithdraws, hlands⟩ hlater
    have hsplit : earlier ++ e :: later = (earlier ++ [e]) ++ later := by simp
    have hcurrent : contactCalls.Along Current
      (contactCalls.run ⟨w, []⟩ (earlier ++ [e])) later := by
      rw [hsplit] at h
      exact ((Along.append contactCalls).mp h).2
    have hwithdrawn : consentOf a (contactCalls.run ⟨w, []⟩ (earlier ++ [e])).world = false := by
      obtain ⟨st, hst⟩ := single_of_withdraws hwithdraws
      rw [run_append]
      show consentOf a (contactCalls.step (contactCalls.run ⟨w, []⟩ earlier) e).world = false
      rw [step_of_executing hx hst]
      rw [hst] at hwithdraws
      exact consentOf_withdrawn hwithdraws hlands
    rw [hsplit, run_append]
    exact (Plain.invariant contactCalls_singlesOnly (I := Withheld a)
      (fun _ _ _ hI hok hstep => hI.step hok hstep) (plain_run w _) (hcurrent.and hlater)
      ⟨staged_run w _, hwithdrawn⟩).2.none

namespace TwoCheckouts

def contact : Contact := ⟨1, "u-1", "buyer@x.example", false, none, some 7, 0, 0⟩

def tables : World :=
  { World.empty with
    contacts := World.empty.contacts.insert contact
    unsubscribes := World.empty.unsubscribes.insert ⟨"buyer@x.example", "t-1"⟩ }

def optIn : ContactCall := .resolve ⟨" Buyer@x.example", 7, true, true⟩

def silent : ContactCall := .resolve ⟨"buyer@X.example ", 8, false, false⟩

/-- Consent, then the link, then a checkout without consent. -/
def serial : List ContactEvent :=
  [.start optIn, .exec 0 {}, .exec 0 {}, .exec 0 {}, .start (.unsubscribe "t-1"), .exec 1 {},
    .exec 1 {}, .start silent, .exec 2 {}, .exec 2 {}, .exec 2 {}]

/-- Both checkouts look the contact up before either writes. -/
def crossed : List ContactEvent :=
  [.start optIn, .start silent, .exec 0 {}, .exec 1 {}, .exec 0 {}, .exec 0 {}, .exec 1 {},
    .exec 1 {}]

end TwoCheckouts

open TwoCheckouts in
theorem consent_upgrades_serial :
    contactCalls.Along Current ⟨tables, []⟩ serial ∧ UpgradeOnly tables serial :=
  ⟨by decide +kernel, consent_upgrades tables serial (by decide +kernel)⟩

open TwoCheckouts in
/-- A checkout without consent takes back the consent another one has just given. -/
theorem consent_taken_back :
    ¬ ∀ (w : World) (es : List ContactEvent), (∀ i, Event.crash i ∉ es) → UpgradeOnly w es := by
  intro h
  have hpromise := (h tables crossed (by simp [crossed])).disjunction "buyer@x.example"
    (by decide +kernel) (by decide +kernel)
  have htaken : consentOf "buyer@x.example"
    (contactCalls.run ⟨tables, []⟩ crossed).world = false := by
    decide +kernel
  have hgiven : consented "buyer@x.example"
    (contactCalls.run ⟨tables, []⟩ crossed).threads = true := by
    decide +kernel
  rw [htaken, hgiven, Bool.or_true] at hpromise
  cases hpromise

end Marketing

end CryptoLink
