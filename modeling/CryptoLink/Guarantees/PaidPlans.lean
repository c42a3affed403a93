import CryptoLink.Subscriptions.Changes

/-!
# Plans that are paid for

The payment of a plan goes through an adapter that drops the subscription it is
for, so its success reaches no subscription. The limits of a plan are taken from
any open subscription, whether it is active or only waiting for its payment, and
however long its period is over.
-/

namespace CryptoLink

open KeyedTables ReadCommitted StatementPrograms RankedListings System

namespace Subscription

namespace Service

variable (s : Service)

/-- The statement inserts subscription `id` to a plan that has a price. -/
def insertsPaid (id : Int) (w : SubscriptionWorld) : Cmd SubscriptionStmt → Prop
  | .stmt .pool (.createSubscription p) =>
      w.subscriptionFits p = true ∧ Priced w p.planID ∧ id = w.nextSubscriptionID
  | _ => False

/-- The statement inserts payment `id`. -/
def insertsPayment (id : Int) (w : SubscriptionWorld) : Cmd SubscriptionStmt → Prop
  | .stmt .pool (.createPayment p) => w.paymentFits p = true ∧ id = w.nextPaymentID
  | _ => False

/-- Call `i` buys subscription `id`. -/
def Buys (i : ℕ) (id : Int) (cfg : SubscriptionConfig) (e : SubscriptionEvent) : Prop :=
  ∃ a ∈ s.system.executing cfg e, a.index = i ∧ a.env.fate ≠ .refused ∧
    insertsPaid id cfg.world a.cmd

/-- Call `i` creates payment `id`. -/
def Pays (i : ℕ) (id : Int) (cfg : SubscriptionConfig) (e : SubscriptionEvent) : Prop :=
  ∃ a ∈ s.system.executing cfg e, a.index = i ∧ a.env.fate ≠ .refused ∧
    insertsPayment id cfg.world a.cmd

instance (w : SubscriptionWorld) (planID : String) : Decidable (Priced w planID) :=
  inferInstanceAs (Decidable (∃ plan ∈ w.plans.get planID, 0 < plan.priceUSD))

instance (id : Int) (w : SubscriptionWorld) (c : Cmd SubscriptionStmt) :
    Decidable (insertsPaid id w c) := by
  unfold insertsPaid
  split <;> infer_instance

instance (id : Int) (w : SubscriptionWorld) (c : Cmd SubscriptionStmt) :
    Decidable (insertsPayment id w c) := by
  unfold insertsPayment
  split <;> infer_instance

instance (i : ℕ) (id : Int) (cfg : SubscriptionConfig) (e : SubscriptionEvent) :
    Decidable (s.Buys i id cfg e) :=
  inferInstanceAs (Decidable (∃ a ∈ s.system.executing cfg e, a.index = i ∧
    a.env.fate ≠ .refused ∧ insertsPaid id cfg.world a.cmd))

instance (i : ℕ) (id : Int) (cfg : SubscriptionConfig) (e : SubscriptionEvent) :
    Decidable (s.Pays i id cfg e) :=
  inferInstanceAs (Decidable (∃ a ∈ s.system.executing cfg e, a.index = i ∧
    a.env.fate ≠ .refused ∧ insertsPayment id cfg.world a.cmd))

end Service

def Active (id : Int) (w : SubscriptionWorld) : Prop :=
  ∃ r ∈ w.subscriptions.get id, r.status = .active

def ActiveThrough (id paymentID : Int) (w : SubscriptionWorld) : Prop :=
  ∃ r ∈ w.subscriptions.get id, r.status = .active ∧ r.paymentID = some paymentID

def Succeeded (paymentID : Int) (w : SubscriptionWorld) : Prop :=
  ∃ p ∈ w.payments.get paymentID, p.status = .success

namespace Service

variable (s : Service)

/-- The payment was a success at some point of the run. -/
def ReachedSuccess (w : SubscriptionWorld) (es : List SubscriptionEvent) (paymentID : Int) :
    Prop :=
  ∃ before, before <+: es ∧ Succeeded paymentID (s.system.run ⟨w, []⟩ before).world

/-- Subscription `id`, bought by call `i`, is active only through the payment
of that call, after its success; and after its success it can still become
active. -/
def ActivatedByPayment (w : SubscriptionWorld) (es : List SubscriptionEvent) (i : ℕ) (id : Int) :
    Prop :=
  (Active id (s.system.run ⟨w, []⟩ es).world → ∃ paymentID,
      s.system.Occurs (s.Pays i paymentID) ⟨w, []⟩ es ∧ s.ReachedSuccess w es paymentID ∧
        ActiveThrough id paymentID (s.system.run ⟨w, []⟩ es).world) ∧
    ∀ paymentID, s.system.Occurs (s.Pays i paymentID) ⟨w, []⟩ es →
      s.ReachedSuccess w es paymentID →
        ∃ fs, ActiveThrough id paymentID (s.system.run ⟨w, []⟩ (es ++ fs)).world

/-- The subscription is there and not active, and no payment can change that. -/
structure Waiting (id : Int) (w : SubscriptionWorld) : Prop where
  unlinked : Unlinked w
  row : ∃ r ∈ w.subscriptions.get id, r.status ≠ .active

variable {s} {w : SubscriptionWorld} {id : Int}

theorem Waiting.not_active (h : Waiting id w) : ¬ Active id w := by
  obtain ⟨r, hr, hstatus⟩ := h.row
  rintro ⟨r', hr', hactive⟩
  rw [Option.mem_def] at hr hr'
  rw [hr] at hr'
  cases hr'
  exact hstatus hactive

theorem Waiting.change {st : SubscriptionStmt} {w' : SubscriptionWorld} (h : Waiting id w)
    (hst : Promised st w) (hlinks : Unlinked w' ↔ Unlinked w)
    (hchange : Change st w id (w'.subscriptions.get id)) : Waiting id w' := by
  obtain ⟨r, hr, hstatus⟩ := h.row
  rw [Option.mem_def] at hr
  refine ⟨hlinks.mpr h.unlinked, ?_⟩
  generalize w'.subscriptions.get id = found at hchange
  cases hchange with
  | same => exact ⟨r, hr, hstatus⟩
  | bought p _ _ _ hnone =>
    rw [hnone] at hr
    cases hr
  | assigned p _ _ _ hnone =>
    rw [hnone] at hr
    cases hr
  | activated r' paymentID updatedAt hst' =>
    subst hst'
    exact absurd h.unlinked hst
  | closed r₀ r' hsome hclosed =>
    rw [hsome] at hr
    cases hr
    refine ⟨r', rfl, ?_⟩
    rcases hclosed.status with hsame | hcancelled
    · rw [hsame]
      exact hstatus
    · rw [hcancelled]
      intro h
      cases h

theorem Waiting.step {cfg : SubscriptionConfig} (hcfg : s.shares.Holds cfg)
    (h : Waiting id cfg.world) (e : SubscriptionEvent) :
    Waiting id (s.system.step cfg e).world := by
  have hlater : Later cfg.world (s.system.step cfg e).world := s.shares.rel_step hcfg e
  rcases s.change_step hcfg e id with hsame | ⟨a, -, st, -, -, hst, hchange⟩
  · refine ⟨hlater.links.mpr h.unlinked, ?_⟩
    rw [hsame]
    exact h.row
  · exact h.change hst hlater.links hchange

theorem Waiting.run {cfg : SubscriptionConfig} (hcfg : s.shares.Holds cfg)
    (h : Waiting id cfg.world) (es : List SubscriptionEvent) :
    Waiting id (s.system.run cfg es).world := by
  induction es generalizing cfg with
  | nil => exact h
  | cons e es ih => exact ih (s.shares.step hcfg e) (h.step hcfg e)

theorem insertsPaid_iff {c : Cmd SubscriptionStmt} :
    insertsPaid id w c ↔ ∃ p, c = .stmt .pool (.createSubscription p) ∧
      w.subscriptionFits p = true ∧ Priced w p.planID ∧ id = w.nextSubscriptionID := by
  constructor
  · intro h
    cases c with
    | stmt q st =>
      cases q with
      | tx => exact h.elim
      | pool =>
        cases st with
        | createSubscription p => exact ⟨p, rfl, h⟩
        | _ => exact h.elim
    | _ => exact h.elim
  · rintro ⟨p, rfl, h⟩
    exact h

/-- A paid plan is inserted waiting. -/
theorem Buys.waiting {i : ℕ} {cfg : SubscriptionConfig} {e : SubscriptionEvent}
    (hcfg : s.shares.Holds cfg) (hunlinked : Unlinked cfg.world) (h : s.Buys i id cfg e) :
    Waiting id (s.system.step cfg e).world := by
  obtain ⟨⟨i, env, th, c⟩, ha, -, hlands, hinserts⟩ := h
  obtain ⟨k, rfl, hex⟩ := executes_of_executing ha
  obtain ⟨p, rfl, hfits, hpriced, rfl⟩ := insertsPaid_iff.mp hinserts
  have hpromised : Promised (.createSubscription p) cfg.world := s.shares.promised hcfg hex
  have hlater : Later cfg.world (s.system.step cfg (.exec i env)).world :=
    s.shares.rel_step hcfg (.exec i env)
  refine ⟨hlater.links.mpr hunlinked, cfg.world.newSubscription p, ?_, ?_⟩
  · have hworld : (s.system.step cfg (.exec i env)).world.subscriptions =
        cfg.world.subscriptions.insert (cfg.world.newSubscription p) := by
      rw [hex.step_eq]
      show (subscriptionEngine.autocommit (.createSubscription p) env cfg.world).subscriptions = _
      rw [autocommit_landed hlands, SubscriptionWorld.effect, if_pos hfits]
      rfl
    have hnone : cfg.world.subscriptions.get cfg.world.nextSubscriptionID = none := by
      simp only [SubscriptionWorld.subscriptionFits, Bool.and_eq_true] at hfits
      exact Option.isNone_iff_eq_none.mp hfits.1.2
    rw [hworld]
    exact Table.get_insert_self cfg.world.subscriptions hnone
  · show p.status ≠ .active
    rw [hpromised.2 hpriced]
    intro h
    cases h

/-- From its purchase on a subscription is never active. -/
theorem never_active {i : ℕ} {es : List SubscriptionEvent} (hw : Unlinked w)
    (hbuys : s.system.Occurs (s.Buys i id) ⟨w, []⟩ es) (fs : List SubscriptionEvent) :
    ¬ Active id (s.system.run ⟨w, []⟩ (es ++ fs)).world := by
  obtain ⟨before, e, after, rfl, he⟩ := hbuys.split
  obtain ⟨hcfg, hlater⟩ := s.shares.run (s.holds_of_no_threads w) before
  have hwaiting := he.waiting hcfg (hlater.links.mpr hw)
  have hend := hwaiting.run (s.shares.step hcfg e) (after ++ fs)
  have hrun : s.system.run ⟨w, []⟩ (before ++ e :: after ++ fs) =
      s.system.run (s.system.step (s.system.run ⟨w, []⟩ before) e) (after ++ fs) := by
    rw [List.append_assoc, run_append, List.cons_append, run_cons]
  rw [hrun]
  exact hend.not_active

/-- A subscription is activated as its payment wants it exactly in the runs in
which the payment has not been a success. -/
theorem activated_by_payment_iff (s : Service) (w : SubscriptionWorld) (hw : Unlinked w)
    (es : List SubscriptionEvent) (i : ℕ) (id : Int)
    (hbuys : s.system.Occurs (s.Buys i id) ⟨w, []⟩ es) :
    s.ActivatedByPayment w es i id ↔
      ∀ paymentID, s.system.Occurs (s.Pays i paymentID) ⟨w, []⟩ es →
        ¬ s.ReachedSuccess w es paymentID := by
  constructor
  · rintro ⟨-, hpaid⟩ paymentID hpays hsuccess
    obtain ⟨fs, r, hr, hactive, -⟩ := hpaid paymentID hpays hsuccess
    exact never_active hw hbuys fs ⟨r, hr, hactive⟩
  · intro h
    constructor
    · intro hactive
      have hnever := never_active hw hbuys []
      rw [List.append_nil] at hnever
      exact absurd hactive hnever
    · intro paymentID hpays hsuccess
      exact absurd hsuccess (h paymentID hpays)

end Service

/-- The statement activates subscription `id`, for a payment or by assignment. -/
def activates (id : Int) (w : SubscriptionWorld) : Cmd SubscriptionStmt → Prop
  | .stmt .pool (.activateSubscription k paymentID _) =>
      id = k ∧ ∃ r ∈ w.subscriptions.get k, w.activationFits r paymentID = true
  | .stmt .pool (.insertAssigned p) => w.subscriptionFits p = true ∧ id = w.nextSubscriptionID
  | _ => False

/-- The open subscription of a merchant is active and its period not over,
unless its plan is free. -/
def PaidUp (merchantID : Int) (w : SubscriptionWorld) : Prop :=
  ∀ r ∈ w.openSubscriptions merchantID, Priced w r.planID →
    r.status = .active ∧ w.clock ≤ r.currentPeriodEnd

/-- The merchant a check of the limits is about to evaluate. -/
def evaluated : Operation → Cmd SubscriptionStmt → Option Int
  | .enforceLimits _ _, .stmt .pool (.getActiveSubscription m) => some m
  | _, _ => none

instance (id : Int) (w : SubscriptionWorld) (c : Cmd SubscriptionStmt) :
    Decidable (activates id w c) := by
  unfold activates
  split <;> infer_instance

instance (merchantID : Int) (w : SubscriptionWorld) : Decidable (PaidUp merchantID w) :=
  inferInstanceAs (Decidable (∀ r ∈ w.openSubscriptions merchantID, Priced w r.planID →
    r.status = .active ∧ w.clock ≤ r.currentPeriodEnd))

namespace Service

variable (s : Service)

def Activates (id : Int) (cfg : SubscriptionConfig) (e : SubscriptionEvent) : Prop :=
  ∃ a ∈ s.system.executing cfg e, a.env.fate ≠ .refused ∧ activates id cfg.world a.cmd

/-- A check of the limits evaluates the merchant by subscription `r`. -/
def Evaluates (merchantID : Int) (r : MerchantSubscription) (cfg : SubscriptionConfig)
    (e : SubscriptionEvent) : Prop :=
  ∃ a ∈ s.system.executing cfg e, evaluated a.thread.label a.cmd = some merchantID ∧
    a.env.fate = .done ∧ cfg.world.getActiveSubscription merchantID = some r

instance (id : Int) (cfg : SubscriptionConfig) (e : SubscriptionEvent) :
    Decidable (s.Activates id cfg e) :=
  inferInstanceAs (Decidable (∃ a ∈ s.system.executing cfg e, a.env.fate ≠ .refused ∧
    activates id cfg.world a.cmd))

instance (merchantID : Int) (r : MerchantSubscription) (cfg : SubscriptionConfig)
    (e : SubscriptionEvent) : Decidable (s.Evaluates merchantID r cfg e) :=
  inferInstanceAs (Decidable (∃ a ∈ s.system.executing cfg e,
    evaluated a.thread.label a.cmd = some merchantID ∧ a.env.fate = .done ∧
      cfg.world.getActiveSubscription merchantID = some r))

/-- Whom a check evaluates is paid up. -/
def EvaluatesPaidUp (cfg : SubscriptionConfig) (e : SubscriptionEvent) : Prop :=
  ∀ a ∈ s.system.executing cfg e, ∀ m ∈ evaluated a.thread.label a.cmd, PaidUp m cfg.world

instance (cfg : SubscriptionConfig) (e : SubscriptionEvent) : Decidable (s.EvaluatesPaidUp cfg e) :=
  inferInstanceAs (Decidable (∀ a ∈ s.system.executing cfg e,
    ∀ m ∈ evaluated a.thread.label a.cmd, PaidUp m cfg.world))

/-- The merchant has a subscription to the plan that was activated in the run,
in a period that is not over. -/
def Entitled (w : SubscriptionWorld) (es : List SubscriptionEvent) (merchantID : Int)
    (planID : String) : Prop :=
  ∃ r ∈ (s.system.run ⟨w, []⟩ es).world.subscriptions.rows, r.merchantID = merchantID ∧
    r.planID = planID ∧ s.system.Occurs (s.Activates r.id) ⟨w, []⟩ es ∧
      r.currentPeriodStart ≤ (s.system.run ⟨w, []⟩ es).world.clock ∧
        (s.system.run ⟨w, []⟩ es).world.clock ≤ r.currentPeriodEnd

variable {s} {w : SubscriptionWorld} {cfg : SubscriptionConfig}

/-- No period starts in the future. -/
def Started (w : SubscriptionWorld) : Prop :=
  ∀ id, ∀ r ∈ w.subscriptions.get id, r.currentPeriodStart ≤ w.clock

theorem Started.step (hcfg : s.shares.Holds cfg) (h : Started cfg.world) (e : SubscriptionEvent) :
    Started (s.system.step cfg e).world := by
  have hlater : Later cfg.world (s.system.step cfg e).world := s.shares.rel_step hcfg e
  intro id r hr
  rw [Option.mem_def] at hr
  have hbefore : r.currentPeriodStart ≤ cfg.world.clock := by
    rcases s.change_step hcfg e id with hsame | ⟨a, -, st, -, -, hst, hchange⟩
    · rw [hsame] at hr
      exact h id r hr
    · rw [hr] at hchange
      generalize hfound : some r = found at hchange
      cases hchange with
      | same => exact h id r hfound.symm
      | bought p hst' =>
        cases hfound
        subst hst'
        exact hst.1
      | assigned p hst' =>
        cases hfound
        subst hst'
        exact hst
      | activated r' paymentID updatedAt _ _ hsome =>
        cases hfound
        exact h id r' hsome
      | closed r₀ r' hsome hclosed =>
        cases hfound
        rw [hclosed.periodStart]
        exact h id r₀ hsome
  exact le_trans hbefore hlater.clock

/-- An active subscription to a plan with a price. -/
def ActivePaid (id : Int) (w : SubscriptionWorld) : Prop :=
  ∃ r ∈ w.subscriptions.get id, r.status = .active ∧ Priced w r.planID

/-- A paid plan becomes active only by an activation. -/
theorem ActivePaid.arises {id : Int} (hcfg : s.shares.Holds cfg) (e : SubscriptionEvent)
    (h : ActivePaid id (s.system.step cfg e).world) :
    ActivePaid id cfg.world ∨ s.Activates id cfg e := by
  have hlater : Later cfg.world (s.system.step cfg e).world := s.shares.rel_step hcfg e
  obtain ⟨r, hr, hactive, hpriced⟩ := h
  rw [Option.mem_def] at hr
  rw [hlater.priced] at hpriced
  rcases s.change_step hcfg e id with hsame | ⟨a, ha, st, hcmd, hlands, hst, hchange⟩
  · left
    rw [hsame] at hr
    exact ⟨r, hr, hactive, hpriced⟩
  · rw [hr] at hchange
    generalize hfound : some r = found at hchange
    cases hchange with
    | same => exact .inl ⟨r, hfound.symm, hactive, hpriced⟩
    | bought p hst' =>
      cases hfound
      subst hst'
      have hpending := hst.2 hpriced
      exact absurd (hactive.symm.trans hpending) (fun h => by cases h)
    | assigned p hst' hfits hid =>
      right
      refine ⟨a, ha, hlands, ?_⟩
      rw [hcmd, hst']
      exact ⟨hfits, hid⟩
    | activated r' paymentID updatedAt hst' hfits hsome =>
      right
      refine ⟨a, ha, hlands, ?_⟩
      rw [hcmd, hst']
      exact ⟨rfl, r', hsome, hfits⟩
    | closed r₀ r' hsome hclosed =>
      cases hfound
      rcases hclosed.status with hstatus | hcancelled
      · left
        refine ⟨r₀, hsome, hstatus.symm.trans hactive, ?_⟩
        rw [← hclosed.planID]
        exact hpriced
      · exact absurd (hactive.symm.trans hcancelled) (fun h => by cases h)

theorem started_run (hcfg : s.shares.Holds cfg) (h : Started cfg.world)
    (es : List SubscriptionEvent) : Started (s.system.run cfg es).world := by
  induction es generalizing cfg with
  | nil => exact h
  | cons e es ih => exact ih (s.shares.step hcfg e) (h.step hcfg e)

/-- In every run from empty tables in which checks meet only merchants that are
paid up, each of them is entitled to the plan it is evaluated by. -/
theorem evaluated_by_paid_plan (s : Service) (w : SubscriptionWorld)
    (hw : w.subscriptions.rows = []) (es : List SubscriptionEvent)
    (hok : s.system.Along s.EvaluatesPaidUp ⟨w, []⟩ es)
    (before : List SubscriptionEvent) (e : SubscriptionEvent) (after : List SubscriptionEvent)
    (hes : es = before ++ e :: after) (m : Int) (r : MerchantSubscription)
    (hevaluates : s.Evaluates m r (s.system.run ⟨w, []⟩ before) e)
    (hpriced : Priced (s.system.run ⟨w, []⟩ before).world r.planID) :
    s.Entitled w before m r.planID := by
  subst hes
  have hempty : ∀ id, w.subscriptions.get id = none := by
    intro id
    rw [Table.get_eq_none_iff, hw]
    exact List.not_mem_nil
  obtain ⟨a, ha, hevaluated, -, hselected⟩ := hevaluates
  have hpaidUp := ((Along.append s.system).mp hok).2.1 a ha m hevaluated
  have hopen : r ∈ (s.system.run ⟨w, []⟩ before).world.openSubscriptions m :=
    mem_ranked.mp (List.mem_of_head? hselected)
  obtain ⟨hactive, hend⟩ := hpaidUp r hopen hpriced
  obtain ⟨hrow, hmerchant⟩ := List.mem_filter.mp hopen
  rw [Bool.and_eq_true, decide_eq_true_eq] at hmerchant
  have hget := Table.get_of_mem hrow
  have hactivated : s.system.Occurs (s.Activates r.id) ⟨w, []⟩ before := by
    rcases occurs_of_arises (Q := ActivePaid r.id) (fun cfg e h => s.shares.step h e)
      (fun cfg e h => ActivePaid.arises h e) (s.holds_of_no_threads w)
      ⟨r, hget, hactive, hpriced⟩ with ⟨r', hr', -⟩ | hoccurs
    · have hnone := hempty r.id
      rw [Option.mem_def] at hr'
      exact absurd (hr'.symm.trans hnone) (fun h => by cases h)
    · exact hoccurs
  have hstarted : Started (s.system.run ⟨w, []⟩ before).world := by
    apply started_run (s.holds_of_no_threads w)
    intro id r' hr'
    exact absurd ((Option.mem_def.mp hr').symm.trans (hempty id)) (fun h => by cases h)
  exact ⟨r, hrow, hmerchant.1, rfl, hactivated, hstarted r.id r hget, hend⟩

end Service

namespace Market

def pro : SubscriptionPlan where
  id := "pro"
  name := "Pro"
  priceUSD := 2900
  billingPeriod := "monthly"
  maxPaymentsMonthly := some 1000
  maxAPICallsMonthly := none
  maxVolumeMonthlyUSD := none
  isActive := true

/-- The operator is merchant 1, merchant 2 has no subscription yet. -/
def tables : SubscriptionWorld where
  plans := ⟨[pro], List.nodup_singleton _⟩
  merchants := ⟨[⟨1, "https://operator"⟩, ⟨2, ""⟩], by decide⟩
  subscriptions := ⟨[], List.nodup_nil⟩
  nextSubscriptionID := 1
  usage := ⟨[], List.nodup_nil⟩
  payments := ⟨[], List.nodup_nil⟩
  nextPaymentID := 1
  clock := 0

def operator : Service where
  adminMerchantID := 1
  validURL _ := true
  parseUUID := some

/-- Merchant 2 buys the plan, and the operator's payment is paid and announced. -/
def purchase : List SubscriptionEvent :=
  .start (.upgradePlan 2 "pro" "https://back") :: List.replicate 10 (.exec 0 {}) ++
    .move (.paymentStatus 1 .success) :: .start (.paymentStatusUpdate 1 1) ::
      List.replicate 6 (.exec 1 {})

end Market

open Market

theorem unlinked_tables : Unlinked tables := by
  intro p hp
  cases hp

theorem activated_by_payment_iff_sample :
    operator.ActivatedByPayment tables purchase 0 1 ↔
      ∀ paymentID, operator.system.Occurs (operator.Pays 0 paymentID) ⟨tables, []⟩ purchase →
        ¬ operator.ReachedSuccess tables purchase paymentID :=
  Service.activated_by_payment_iff operator tables unlinked_tables purchase 0 1 (by decide +kernel)

/-- Paid for and announced, and still not active. -/
theorem paid_subscription_is_never_active :
    ¬ ∀ (s : Service) (w : SubscriptionWorld), Unlinked w →
      ∀ (es : List SubscriptionEvent) (i : ℕ) (id : Int),
        s.system.Occurs (s.Buys i id) ⟨w, []⟩ es → s.ActivatedByPayment w es i id := by
  intro h
  have hbuys : operator.system.Occurs (operator.Buys 0 1) ⟨tables, []⟩ purchase := by
    decide +kernel
  have hpays : operator.system.Occurs (operator.Pays 0 1) ⟨tables, []⟩ purchase := by
    decide +kernel
  have hsuccess : operator.ReachedSuccess tables purchase 1 :=
    ⟨purchase, List.prefix_rfl, by
      rw [Succeeded]
      decide +kernel⟩
  obtain ⟨-, hpaid⟩ := h operator tables unlinked_tables purchase 0 1 hbuys
  obtain ⟨fs, r, hr, hactive, -⟩ := hpaid 1 hpays hsuccess
  exact Service.never_active unlinked_tables hbuys fs ⟨r, hr, hactive⟩

/-- Merchant 2 is assigned the plan, and then takes a payment of its own. -/
def assignedPlan : List SubscriptionEvent :=
  .start (.assignMerchantPlan 2 "pro") :: List.replicate 6 (.exec 0 {}) ++
    [.start (.enforceLimits 2 5)]

def assignedRow : MerchantSubscription where
  id := 1
  uuid := ""
  merchantID := 2
  planID := "pro"
  status := .active
  currentPeriodStart := 0
  currentPeriodEnd := 31 * Calendar.day
  paymentID := none
  autoRenew := true
  createdAt := 0
  updatedAt := 0
  cancelledAt := none

theorem evaluated_by_paid_plan_sample : operator.Entitled tables assignedPlan 2 "pro" :=
  Service.evaluated_by_paid_plan operator tables rfl (assignedPlan ++ [.exec 1 {}])
    (by decide +kernel) assignedPlan (.exec 1 {}) [] rfl 2 assignedRow (by decide +kernel)
    (by decide +kernel)

/-- The subscription merchant 2 has before it pays. -/
def unpaidRow : MerchantSubscription where
  id := 1
  uuid := ""
  merchantID := 2
  planID := "pro"
  status := .pendingPayment
  currentPeriodStart := 0
  currentPeriodEnd := 31 * Calendar.day
  paymentID := none
  autoRenew := true
  createdAt := 0
  updatedAt := 0
  cancelledAt := none

/-- Merchant 2 buys the plan, and then takes a payment of its own. -/
def unpaidUpgrade : List SubscriptionEvent :=
  .start (.upgradePlan 2 "pro" "https://back") :: List.replicate 10 (.exec 0 {}) ++
    [.start (.enforceLimits 2 5)]

/-- The plan's limits are used before it is paid. -/
theorem evaluated_by_unpaid_plan :
    ¬ ∀ (s : Service) (w : SubscriptionWorld), w.subscriptions.rows = [] →
      ∀ (before : List SubscriptionEvent) (e : SubscriptionEvent) (m : Int)
        (r : MerchantSubscription), s.Evaluates m r (s.system.run ⟨w, []⟩ before) e →
          Priced (s.system.run ⟨w, []⟩ before).world r.planID → s.Entitled w before m r.planID := by
  intro h
  have hevaluates : operator.Evaluates 2 unpaidRow
      (operator.system.run ⟨tables, []⟩ unpaidUpgrade) (.exec 1 {}) := by
    decide +kernel
  have hpriced : Priced (operator.system.run ⟨tables, []⟩ unpaidUpgrade).world "pro" := by
    decide +kernel
  have hnever : ∀ r ∈ (operator.system.run ⟨tables, []⟩ unpaidUpgrade).world.subscriptions.rows,
      ¬ operator.system.Occurs (operator.Activates r.id) ⟨tables, []⟩ unpaidUpgrade := by
    decide +kernel
  obtain ⟨r, hr, -, -, hactivated, -⟩ := h operator tables rfl unpaidUpgrade (.exec 1 {}) 2
    unpaidRow hevaluates hpriced
  exact hnever r hr hactivated

end Subscription

end CryptoLink
