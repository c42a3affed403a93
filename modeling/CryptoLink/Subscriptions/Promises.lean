import CryptoLink.Subscriptions.Service
import CryptoLink.Library.Histories
import CryptoLink.Repository.Replies

/-!
# What the subscription calls promise

A paid plan starts out waiting for its payment, no period starts in the future,
and no payment is created with a subscription in its metadata. Each call promises
this of its own statements, whatever the others do between them.
-/

namespace CryptoLink

open KeyedTables ReadCommitted StatementPrograms RankedListings System

namespace Subscription

abbrev SubscriptionView := View SubscriptionStmt SubscriptionEnv SubscriptionWorld Empty

/-- The subscription a payment's metadata names, or the empty string. -/
def subscriptionOf (metadata : Option MetaData) : String :=
  (metadata.bind fun m => m.find "subscription_id").getD ""

/-- No payment names a subscription. -/
def Unlinked (w : SubscriptionWorld) : Prop :=
  ∀ p ∈ w.payments.rows, subscriptionOf p.metadata = ""

/-- A plan with a positive price. -/
def Priced (w : SubscriptionWorld) (planID : String) : Prop :=
  ∃ plan ∈ w.plans.get planID, 0 < plan.priceUSD

/-- From one world to a later one. -/
structure Later (w w' : SubscriptionWorld) : Prop where
  plans : w'.plans = w.plans
  clock : w.clock ≤ w'.clock
  links : Unlinked w' ↔ Unlinked w

/-- What a statement is run for. -/
def Promised (st : SubscriptionStmt) (w : SubscriptionWorld) : Prop :=
  match st with
  | .createSubscription p =>
      p.currentPeriodStart ≤ w.clock ∧ (Priced w p.planID → p.status = .pendingPayment)
  | .insertAssigned p => p.currentPeriodStart ≤ w.clock
  | .activateSubscription .. => ¬ Unlinked w
  | .createPayment p => subscriptionOf p.metadata = ""
  -- nothing is said about calls beside an edit of the plans
  | .createPlan _ => False
  | .updatePlan .. => False
  | _ => True

/-- Every call runs its statements on the pool. -/
def Guaranteed (c : Cmd SubscriptionStmt) (w : SubscriptionWorld) : Prop :=
  match c with
  | .stmt .pool st => Promised st w
  | _ => False

/-- A statement with nothing to promise. -/
def Harmless (c : Cmd SubscriptionStmt) : Prop := ∀ w, Guaranteed c w

theorem Later.refl (w : SubscriptionWorld) : Later w w := ⟨rfl, le_rfl, Iff.rfl⟩

theorem Later.trans {u v w : SubscriptionWorld} (h : Later u v) (h' : Later v w) : Later u w where
  plans := h'.plans.trans h.plans
  clock := le_trans h.clock h'.clock
  links := h'.links.trans h.links

theorem Later.priced {w w' : SubscriptionWorld} (h : Later w w') {planID : String} :
    Priced w' planID ↔ Priced w planID := by
  rw [Priced, h.plans, Priced]

theorem unlinked_modify (w : SubscriptionWorld) (id : Int) (f : PaymentRow → PaymentRow)
    (hf : ∀ p, (f p).id = p.id) (hmetadata : ∀ p, (f p).metadata = p.metadata) :
    Unlinked { w with payments := w.payments.modify id f hf } ↔ Unlinked w := by
  have hsame : ∀ p : PaymentRow, (if p.id = id then f p else p).metadata = p.metadata := by
    intro p
    by_cases h : p.id = id
    · rw [if_pos h, hmetadata]
    · rw [if_neg h]
  show (∀ p ∈ w.payments.rows.map (fun p => if p.id = id then f p else p),
    subscriptionOf p.metadata = "") ↔ _
  rw [List.forall_mem_map]
  simp only [hsame]
  rfl

theorem unlinked_insert (w : SubscriptionWorld) {p : PaymentRow}
    (hp : subscriptionOf p.metadata = "") :
    Unlinked { w with payments := w.payments.insert p } ↔ Unlinked w := by
  show (∀ r ∈ (w.payments.insert p).rows, subscriptionOf r.metadata = "") ↔ _
  rw [Table.rows_insert]
  split
  · exact Iff.rfl
  · constructor
    · intro h r hr
      exact h r (List.mem_append_left _ hr)
    · intro h r hr
      rcases List.mem_append.mp hr with hold | hnew
      · exact h r hold
      · rw [List.mem_singleton.mp hnew]
        exact hp

/-- Time does not go back, plans stay, and payments keep what they name. -/
theorem later_autocommit (st : SubscriptionStmt) {w : SubscriptionWorld} (h : Promised st w)
    (env : SubscriptionEnv) : Later w (subscriptionEngine.autocommit st env w) := by
  by_cases hrefused : env.fate = .refused
  · rw [autocommit_refused hrefused]
    exact .refl w
  rw [autocommit_landed hrefused]
  cases st with
  | createPlan plan => exact h.elim
  | updatePlan planID plan => exact h.elim
  | createPayment p =>
    rw [SubscriptionWorld.effect]
    split
    · exact ⟨rfl, le_rfl, unlinked_insert _ h⟩
    · exact ⟨rfl, le_rfl, Iff.rfl⟩
  | setWebhookTimestamp m id updatedAt =>
    rw [SubscriptionWorld.effect]
    split
    · exact .refl w
    · exact ⟨rfl, le_rfl, unlinked_modify _ _ _ _ fun _ => rfl⟩
  | timeNow =>
    refine ⟨rfl, ?_, Iff.rfl⟩
    show w.clock ≤ w.clock + env.elapsed
    omega
  | createSubscription p =>
    rw [SubscriptionWorld.effect]
    split
    · exact ⟨rfl, le_rfl, Iff.rfl⟩
    · exact ⟨rfl, le_rfl, Iff.rfl⟩
  | insertAssigned p =>
    rw [SubscriptionWorld.effect]
    split
    · exact ⟨rfl, le_rfl, Iff.rfl⟩
    · exact ⟨rfl, le_rfl, Iff.rfl⟩
  | activateSubscription id paymentID updatedAt =>
    rw [SubscriptionWorld.effect]
    split
    · exact .refl w
    · split
      · exact ⟨rfl, le_rfl, Iff.rfl⟩
      · exact .refl w
  | createUsagePeriod m periodStart periodEnd createdAt updatedAt =>
    rw [SubscriptionWorld.effect]
    split
    · exact ⟨rfl, le_rfl, Iff.rfl⟩
    · exact .refl w
  | incrementPaymentUsage m volumeUSD now =>
    rw [SubscriptionWorld.effect]
    split
    · exact ⟨rfl, le_rfl, Iff.rfl⟩
    · exact .refl w
  | _ => exact ⟨rfl, le_rfl, Iff.rfl⟩

theorem later_perform {c : Cmd SubscriptionStmt} {v : SubscriptionView}
    (h : Guaranteed c v.world) (env : SubscriptionEnv) :
      Later v.world (subscriptionEngine.perform c env v).2.world := by
  cases c with
  | stmt q st =>
    cases q with
    | pool => exact later_autocommit st h env
    | tx => exact h.elim
  | _ => exact h.elim

theorem later_move (m : Move) (w : SubscriptionWorld) : Later w (m.apply w) := by
  cases m with
  | paymentStatus id status => exact ⟨rfl, le_rfl, unlinked_modify _ _ _ _ fun _ => rfl⟩
  | webhookURL id url => exact ⟨rfl, le_rfl, Iff.rfl⟩
  | tick elapsed =>
    refine ⟨rfl, ?_, Iff.rfl⟩
    show w.clock ≤ w.clock + elapsed
    omega

/-- The calls promise this to each other. -/
abbrev promises : Protocol SubscriptionStmt SubscriptionReply SubscriptionEnv SubscriptionWorld
    Empty Operation :=
  sharedProtocol Later Later.refl Later.trans Guaranteed

/-- From `w` on the program keeps its promises and ends in `Q`. -/
structure Promises {α : Type} (l : Operation) (Q : Except Err α → SubscriptionWorld → Prop)
    (p : SubscriptionCall α) (w : SubscriptionWorld) : Prop where
  meets : Meets (promises.setting subscriptionEngine l)
    (fun x v => v.session = .idle ∧ Q x v.world) p ⟨w, .idle⟩

namespace Promises

variable {α β : Type} {l : Operation} {Q : Except Err α → SubscriptionWorld → Prop}
  {R : Except Err β → SubscriptionWorld → Prop} {w : SubscriptionWorld}

theorem ask {st : SubscriptionStmt} {f : SubscriptionReply st → SubscriptionCall β}
    (hst : ∀ w', Later w w' → Promised st w')
    (h : ∀ env w', Later w w' → Promises l R (f (subscriptionEngine.reply st env w'))
      (subscriptionEngine.autocommit st env w')) : Promises l R ((query st).bind f) w := by
  constructor
  apply Protocol.pool_bind
  · intro v' hv
    exact hv.1
  · intro w' env hw _
    exact ⟨hst w' hw.2, (h env w' hw.2).meets⟩

theorem bind {p : SubscriptionCall α} {f : α → SubscriptionCall β} (hp : Promises l Q p w)
    (hok : ∀ a w', Q (.ok a) w' → Promises l R (f a) w')
    (herr : ∀ e w', Q (.error e) w' → R (.error e) w') : Promises l R (p.bind f) w := by
  constructor
  apply Meets.bind
  apply Meets.mono ?_ hp.meets
  rintro x ⟨w', session⟩ ⟨rfl, hQ⟩
  cases x with
  | ok a => exact (hok a w' hQ).meets
  | error e => exact ⟨rfl, herr e w' hQ⟩

theorem ret {a : α} (h : ∀ w', Later w w' → Q (.ok a) w') : Promises l Q (.ret a) w :=
  ⟨fun v hv => ⟨hv.1, h v.world hv.2⟩⟩

theorem fail {e : Err} (h : ∀ w', Later w w' → Q (.error e) w') : Promises l Q (.fail e) w :=
  ⟨fun v hv => ⟨hv.1, h v.world hv.2⟩⟩

theorem ofExcept {x : Except Err α} (h : ∀ w', Later w w' → Q x w') :
    Promises l Q (Prog.ofExcept x) w := by
  cases x with
  | ok a => exact ret h
  | error e => exact fail h

theorem attempt {p : SubscriptionCall α} {Q : Except Err (Except Err α) → SubscriptionWorld → Prop}
    (h : Promises l (fun x => Q (.ok x)) p w) : Promises l Q p.attempt w :=
  ⟨Meets.attempt h.meets⟩

theorem mapError {p : SubscriptionCall α} {f : Err → Err}
    (h : Promises l (fun x w' => match x with
      | .ok a => Q (.ok a) w'
      | .error e => Q (.error (f e)) w') p w) : Promises l Q (p.mapError f) w := by
  constructor
  apply Meets.mapError
  apply Meets.mono ?_ h.meets
  rintro (e | a) v hv
  · exact hv
  · exact hv

theorem mono {p : SubscriptionCall α} {Q' : Except Err α → SubscriptionWorld → Prop}
    (h : ∀ x w', Q x w' → Q' x w') (hp : Promises l Q p w) : Promises l Q' p w :=
  ⟨Meets.mono (fun x _ hv => ⟨hv.1, h x _ hv.2⟩) hp.meets⟩

/-- Statements with nothing to promise only let time pass. -/
theorem harmless {p : SubscriptionCall α} (hp : Issues Harmless p) :
    Promises l (fun _ => Later w) p w := by
  let J : SubscriptionView → Prop := fun v => v.session = .idle ∧ Later w v.world
  refine ⟨Meets.of_issues (J := J) ?_ ?_ hp ⟨rfl, .refl w⟩⟩
  · rintro v v' ⟨hsession, hlater⟩ ⟨hidle, hw⟩
    exact ⟨hsession.trans hidle, hw.trans hlater⟩
  · rintro c v r v' hc ⟨hidle, hw⟩ ⟨env, -, hdo⟩
    have hv := later_perform (hc v.world) env
    rw [hdo] at hv
    refine ⟨hc v.world, ?_, hw.trans hv⟩
    cases c with
    | stmt q st =>
      cases q with
      | pool =>
        cases hdo
        exact hidle
      | tx => exact (hc v.world).elim
    | _ => exact (hc v.world).elim

theorem seq {p : SubscriptionCall α} {f : α → SubscriptionCall β}
    (hp : Promises l (fun x w' => Later w w' ∧ Q x w') p w)
    (hf : ∀ a w', Later w w' → Q (.ok a) w' → Promises l (fun _ => Later w') (f a) w') :
    Promises l (fun _ => Later w) (p.bind f) w := by
  apply bind hp
  · rintro a w' ⟨hw', hQ⟩
    exact mono (fun _ w'' hw'' => hw'.trans hw'') (hf a w' hw' hQ)
  · exact fun e w' hw' => hw'.1

theorem after {p : SubscriptionCall α} {f : α → SubscriptionCall β}
    (hp : Promises l (fun _ => Later w) p w)
    (hf : ∀ a w', Later w w' → Promises l (fun _ => Later w') (f a) w') :
    Promises l (fun _ => Later w) (p.bind f) w := by
  apply bind hp
  · intro a w' hw'
    exact mono (fun _ w'' hw'' => hw'.trans hw'') (hf a w' hw')
  · exact fun e w' hw' => hw'

theorem skip {p : SubscriptionCall α} {f : α → SubscriptionCall β} (hp : Issues Harmless p)
    (hf : ∀ a w', Later w w' → Promises l (fun _ => Later w') (f a) w') :
    Promises l (fun _ => Later w) (p.bind f) w :=
  after (harmless hp) hf

theorem statement {st : SubscriptionStmt} {f : SubscriptionReply st → SubscriptionCall β}
    (hst : ∀ w', Later w w' → Promised st w')
    (h : ∀ env w', Later w w' → Issues Harmless (f (subscriptionEngine.reply st env w'))) :
    Promises l (fun _ => Later w) ((query st).bind f) w := by
  refine ask hst ?_
  intro env w' hw'
  have hlater := hw'.trans (later_autocommit st (hst w' hw') env)
  exact mono (fun _ w'' hw'' => hlater.trans hw'') (harmless (h env w' hw'))

theorem mapLater {p : SubscriptionCall α} (f : Err → Err)
    (h : Promises l (fun _ => Later w) p w) : Promises l (fun _ => Later w) (p.mapError f) w := by
  apply mapError
  apply mono ?_ h
  rintro (e | a) w' hw'
  · exact hw'
  · exact hw'

end Promises

theorem query_harmless (st : SubscriptionStmt) (h : ∀ w, Promised st w) :
    Issues Harmless (query st) := (Issues.ask_iff _).mpr h

theorem getPlan_harmless (planID : String) : Issues Harmless (getPlan planID) :=
  Issues.bind (query_harmless _ fun _ => trivial) fun _ => Issues.ofExcept _

theorem getActiveSubscription_harmless (m : Int) : Issues Harmless (getActiveSubscription m) := by
  refine Issues.bind (query_harmless _ fun _ => trivial) fun found => ?_
  apply Issues.bind (Issues.ofExcept _)
  intro sub
  exact Issues.bind (Issues.attempt (getPlan_harmless _)) fun _ => trivial

theorem cancelPlan_harmless (m : Int) : Issues Harmless (cancelPlan m) := by
  apply Issues.bind (getActiveSubscription_harmless m)
  rintro ⟨sub, plan⟩
  apply Issues.bind (query_harmless .timeNow fun _ => trivial)
  intro cancelledAt
  apply Issues.bind (query_harmless .timeNow fun _ => trivial)
  intro updatedAt
  exact Issues.bind (query_harmless _ fun _ => trivial) fun _ => Issues.ofExcept _

theorem createUsagePeriod_harmless (m : Int) : Issues Harmless (createUsagePeriod m) := by
  apply Issues.bind (query_harmless .timeNow fun _ => trivial)
  intro now
  exact Issues.bind (query_harmless _ fun _ => trivial) fun _ => Issues.ofExcept _

theorem getCurrentUsage_harmless (m : Int) : Issues Harmless (getCurrentUsage m) := by
  apply Issues.bind (query_harmless .timeNow fun _ => trivial)
  intro now
  refine Issues.bind (query_harmless _ fun _ => trivial) fun usage => ?_
  cases usage with
  | ok u => exact trivial
  | error e =>
    show Issues Harmless (if e.is .noRows then createUsagePeriod m
      else .fail (e.wrap "failed to get current usage"))
    split
    · exact createUsagePeriod_harmless m
    · exact trivial

theorem incrementPaymentUsage_harmless (m volumeUSD : Int) :
    Issues Harmless (incrementPaymentUsage m volumeUSD) := by
  apply Issues.bind (query_harmless .timeNow fun _ => trivial)
  intro now
  refine Issues.bind (query_harmless _ fun _ => trivial) fun affected => ?_
  apply Issues.bind (Issues.ofExcept _)
  intro rows
  split
  · apply Issues.bind (createUsagePeriod_harmless m)
    intro _
    apply Issues.bind (query_harmless .timeNow fun _ => trivial)
    intro later
    refine Issues.bind (query_harmless _ fun _ => trivial) fun again => ?_
    exact Issues.bind (Issues.ofExcept _) fun _ => trivial
  · exact trivial

theorem countConfirmed_harmless (tx : Transaction) (status : Payment.Status) :
    Issues Harmless (countConfirmed tx status) := by
  rw [countConfirmed]
  split
  · exact Issues.bind (Issues.attempt (incrementPaymentUsage_harmless _ _)) fun _ => trivial
  · exact trivial

theorem checkPaymentLimit_harmless (m : Int) : Issues Harmless (checkPaymentLimit m) := by
  apply Issues.bind (getActiveSubscription_harmless m)
  rintro ⟨sub, plan⟩
  cases plan with
  | none => exact trivial
  | some plan =>
    cases hlimit : plan.maxPaymentsMonthly with
    | none => simp only [hlimit, Prog.pure_eq, Issues.ret]
    | some limit =>
      simp only [hlimit]
      split
      · exact trivial
      · apply Issues.bind (getCurrentUsage_harmless m)
        intro usage
        split
        · exact trivial
        · exact trivial

theorem checkVolumeLimit_harmless (m volumeUSD : Int) :
    Issues Harmless (checkVolumeLimit m volumeUSD) := by
  apply Issues.bind (getActiveSubscription_harmless m)
  rintro ⟨sub, plan⟩
  cases plan with
  | none => exact trivial
  | some plan =>
    cases hlimit : plan.maxVolumeMonthlyUSD with
    | none => simp only [hlimit, Prog.pure_eq, Issues.ret]
    | some limit =>
      simp only [hlimit]
      apply Issues.bind (getCurrentUsage_harmless m)
      intro usage
      split
      · exact trivial
      · exact trivial

theorem enforced_harmless {check : SubscriptionCall Unit} (h : Issues Harmless check) :
    Issues Harmless (enforceLimits.enforced check) := by
  apply Issues.bind (Issues.attempt h)
  rintro (e | ⟨⟩)
  · show Issues Harmless (if e.is .errLimitExceeded ∨ e = nilPlan then .fail e else pure ())
    split
    · exact trivial
    · exact trivial
  · exact trivial

theorem enforceLimits_harmless (m : Int) (price : ℚ) : Issues Harmless (enforceLimits m price) :=
  Issues.bind (enforced_harmless (checkPaymentLimit_harmless m)) fun _ =>
    enforced_harmless (checkVolumeLimit_harmless m _)

section Programs

variable {l : Operation} {w : SubscriptionWorld}

theorem promises_timeNow :
    Promises l (fun x w' => Later w w' ∧ ∀ t, x = .ok t → t ≤ w'.clock)
      (query .timeNow) w := by
  have hask : Promises l (fun x w' => Later w w' ∧ ∀ t, x = .ok t → t ≤ w'.clock)
      ((query .timeNow).bind .ret) w := by
    refine Promises.ask (fun _ _ => trivial) ?_
    intro env w' hw'
    have hnow : subscriptionEngine.reply .timeNow env w' ≤
        (subscriptionEngine.autocommit .timeNow env w').clock := by
      by_cases hrefused : env.fate = .refused
      · rw [autocommit_refused hrefused]
        simp [subscriptionEngine, SubscriptionWorld.answer, hrefused]
      · rw [autocommit_landed hrefused]
        simp [subscriptionEngine, SubscriptionWorld.answer, hrefused, SubscriptionWorld.effect,
          SubscriptionWorld.lasting]
    have hlater := hw'.trans (later_autocommit .timeNow trivial env)
    apply Promises.ret
    intro w'' hw''
    refine ⟨hlater.trans hw'', ?_⟩
    rintro t ⟨rfl⟩
    exact le_trans hnow hw''.clock
  exact hask

theorem promises_getPlan (planID : String) :
    Promises l (fun x w' => Later w w' ∧ ∀ plan, x = .ok plan → w'.plans.get planID = some plan)
      (getPlan planID) w := by
  refine Promises.ask (fun _ _ => trivial) ?_
  intro env w' hw'
  have hlater := hw'.trans (later_autocommit (.getPlan planID) trivial env)
  apply Promises.ofExcept
  intro w'' hw''
  refine ⟨hlater.trans hw'', ?_⟩
  intro plan hplan
  rw [hw''.plans, hlater.plans, ← hw'.plans]
  have hfound : w'.getPlan planID = some plan :=
    noRows_eq_ok (answered_eq_ok (orMissing_eq_ok hplan)).2
  exact (Option.filter_eq_some_iff.mp hfound).1

/-- A paid plan starts as pending, with a start that has passed. -/
theorem promises_createSubscription {m periodStart : Int} (planID : String) (periodEnd : Int)
    (hstart : periodStart ≤ w.clock) :
    Promises l (fun _ => Later w) (createSubscription m planID periodStart periodEnd) w := by
  apply Promises.seq (promises_getPlan planID)
  intro plan w₁ hw₁ hplan
  apply Promises.skip (query_harmless .newUUID fun _ => trivial)
  intro uuid w₂ hw₂
  apply Promises.skip (query_harmless .timeNow fun _ => trivial)
  intro createdAt w₃ hw₃
  apply Promises.skip (query_harmless .timeNow fun _ => trivial)
  intro updatedAt w₄ hw₄
  apply Promises.statement
  · intro w' hw'
    have hlater := hw₂.trans (hw₃.trans (hw₄.trans hw'))
    constructor
    · exact le_trans hstart (hw₁.trans hlater).clock
    · rintro ⟨plan', hplan', hprice⟩
      have hsame : w'.plans.get planID = some plan := by
        rw [hlater.plans]
        exact hplan plan rfl
      rw [Option.mem_def, hsame] at hplan'
      cases hplan'
      exact if_pos hprice
  · exact fun _ _ _ => Issues.ofExcept _

/-- What a payment keeps of a link is not a subscription. -/
theorem subscriptionOf_link (link : Option PaymentLinkProps) :
    subscriptionOf (MetaData.toJSONB (match link with
      | none => []
      | some k => fillPaymentMetaWithLink k)) = "" := by
  cases link with
  | none => rfl
  | some k =>
    obtain ⟨linkID, successAction, successMessage⟩ := k
    cases successMessage with
    | none => rfl
    | some message => rfl

theorem promises_createPayment (s : Service) (m : Int) (props : CreatePaymentProps) :
    Promises l (fun _ => Later w) (s.createPayment m props) w := by
  apply Promises.skip (Issues.ofExcept _)
  intro _ w₁ _
  apply Promises.skip (query_harmless (.getMerchantByID m) fun _ => trivial)
  intro mt w₂ _
  apply Promises.skip (Issues.ofExcept _)
  intro _ w₃ _
  apply Promises.skip (query_harmless .timeNow fun _ => trivial)
  intro now w₄ _
  apply Promises.statement
  · intro w' _
    exact subscriptionOf_link props.link
  · intro env w' _
    refine Issues.bind (Issues.ofExcept _) fun row => ?_
    exact Issues.bind (Issues.ofExcept _) fun _ => trivial

theorem promises_adapterCreatePayment (s : Service) (params : Service.PaymentParams) :
    Promises l (fun _ => Later w) (s.adapterCreatePayment params) w := by
  apply Promises.skip (Issues.ofExcept _)
  intro amount w₁ _
  exact Promises.mapLater _ (promises_createPayment s _ _)

theorem promises_createSubscriptionPayment (s : Service) (m : Int) (planID redirectURL : String) :
    Promises l (fun _ => Later w) (s.createSubscriptionPayment m planID redirectURL) w := by
  apply Promises.skip (Issues.mapError _ (getPlan_harmless planID))
  intro plan w₁ _
  show Promises l _ (if plan.priceUSD = 0 then _ else _) w₁
  by_cases hfree : plan.priceUSD = 0
  · rw [if_pos hfree]
    apply Promises.seq promises_timeNow
    intro periodStart w₂ _ hstart
    apply Promises.after (promises_createSubscription planID _ (hstart periodStart rfl))
    intro sub w₃ _
    exact Promises.harmless trivial
  · rw [if_neg hfree]
    apply Promises.seq promises_timeNow
    intro periodStart w₂ _ hstart
    have hcreate := Promises.mapLater (Err.wrap "failed to create subscription")
      (promises_createSubscription (l := l) (m := m) planID
        (Service.periodEndOf plan.billingPeriod periodStart) (hstart periodStart rfl))
    refine Promises.after hcreate fun sub w₃ _ => ?_
    refine Promises.after (Promises.mapLater _ (promises_adapterCreatePayment s _))
      fun payment w₄ _ => ?_
    exact Promises.harmless trivial

theorem promises_upgradePlan (s : Service) (m : Int) (planID redirectURL : String) :
    Promises l (fun _ => Later w) (s.upgradePlan m planID redirectURL) w := by
  rw [Service.upgradePlan]
  split
  · exact Promises.harmless trivial
  · split
    · exact Promises.harmless trivial
    · exact promises_createSubscriptionPayment s m planID redirectURL

/-- A payment that names a subscription was found. -/
theorem linked_of_found {paymentID : Int} {metadata : Option MetaData} {env : SubscriptionEnv}
    {message subscriptionID : String}
    (hread : wrapErr message (subscriptionEngine.reply (.getPaymentMetadata paymentID) env w) =
      .ok metadata)
    (hfound : (metadata.bind fun m => m.find "subscription_id") = some subscriptionID)
    (hset : subscriptionID ≠ "") : ¬ Unlinked w := by
  intro hunlinked
  have hsome := noRows_eq_ok (answered_eq_ok (wrapErr_eq_ok.mp hread)).2
  obtain ⟨p, hp, hmetadata⟩ := Option.map_eq_some_iff.mp hsome
  have hnone := hunlinked p (Table.get_eq_some hp).1
  rw [hmetadata, subscriptionOf, hfound] at hnone
  exact hset hnone

/-- A subscription is activated only if some payment names one. -/
theorem promises_handlePaymentWebhook (s : Service) (paymentID : Int) :
    Promises l (fun _ => Later w) (s.handlePaymentWebhook paymentID) w := by
  refine Promises.ask (fun _ _ => trivial) ?_
  intro env w₁ hw₁
  have hw₂ := later_autocommit (.getPaymentMetadata paymentID) trivial (w := w₁) env
  refine Promises.mono (fun _ w' hw' => (hw₁.trans hw₂).trans hw') ?_
  cases hread : wrapErr "failed to fetch payment metadata"
      (subscriptionEngine.reply (.getPaymentMetadata paymentID) env w₁) with
  | error e => exact Promises.harmless trivial
  | ok metadata =>
    rw [succeed, Prog.ofExcept, Prog.bind_eq, Prog.ret_bind]
    cases hfound : metadata.bind fun m => m.find "subscription_id" with
    | none => exact Promises.harmless trivial
    | some subscriptionID =>
      by_cases hset : subscriptionID = ""
      · simp only [hset, if_true]
        exact Promises.harmless trivial
      simp only [hset, if_false]
      cases s.parseUUID subscriptionID with
      | none => exact Promises.harmless trivial
      | some uuid =>
        refine Promises.skip (query_harmless (.getSubscriptionByUUID uuid)
          fun _ => trivial) fun found w₃ hw₃ => ?_
        refine Promises.skip (Issues.ofExcept _) fun x w₄ hw₄ => ?_
        obtain ⟨id, status⟩ := x
        by_cases hpending : status ≠ .pendingPayment
        · simp only [if_pos hpending]
          exact Promises.harmless trivial
        · simp only [if_neg hpending]
          apply Promises.mapLater
          refine Promises.skip (query_harmless .timeNow fun _ => trivial) fun now w₅ hw₅ => ?_
          apply Promises.statement
          · intro w' hw'
            have hlater := hw₂.trans (hw₃.trans (hw₄.trans (hw₅.trans hw')))
            show ¬ Unlinked w'
            rw [hlater.links]
            exact linked_of_found hread hfound hset
          · exact fun _ _ _ => Issues.ofExcept _

theorem promises_processPaymentStatusUpdate (s : Service) (m paymentID : Int) :
    Promises l (fun _ => Later w) (s.processPaymentStatusUpdate m paymentID) w := by
  refine Promises.skip (query_harmless (.getMerchantByID m) fun _ => trivial)
    fun found w₁ _ => ?_
  refine Promises.skip (Issues.ofExcept _) fun mt w₂ _ => ?_
  show Promises l _ (if mt.webhookURL = "" then pure () else _) w₂
  by_cases hurl : mt.webhookURL = ""
  · rw [if_pos hurl]
    exact Promises.harmless trivial
  rw [if_neg hurl]
  refine Promises.skip (query_harmless (.getDetailedPayment m paymentID) fun _ => trivial)
    fun detailed w₃ _ => ?_
  refine Promises.skip (Issues.ofExcept _) fun p w₄ _ => ?_
  show Promises l _ (if p.status = .locked then pure () else _) w₄
  by_cases hlocked : p.status = .locked
  · rw [if_pos hlocked]
    exact Promises.harmless trivial
  rw [if_neg hlocked]
  refine Promises.skip (query_harmless (.sendWebhook mt.webhookURL) fun _ => trivial)
    fun sent w₅ _ => ?_
  cases sent with
  | error e => exact Promises.harmless trivial
  | ok _ =>
    refine Promises.skip (query_harmless .timeNow fun _ => trivial) fun now w₆ _ => ?_
    refine Promises.skip (query_harmless (.setWebhookTimestamp m paymentID now)
      fun _ => trivial) fun stamped w₇ _ => ?_
    refine Promises.skip (Issues.ofExcept _) fun _ w₈ _ => ?_
    show Promises l _ (if p.status = .success then _ else pure ()) w₈
    by_cases hsuccess : p.status = .success
    · rw [if_pos hsuccess]
      refine Promises.after (Promises.attempt (promises_handlePaymentWebhook s p.id))
        fun _ w₉ _ => ?_
      exact Promises.harmless trivial
    · rw [if_neg hsuccess]
      exact Promises.harmless trivial

theorem promises_assignMerchantPlan (m : Int) (planID : String) :
    Promises l (fun _ => Later w) (assignMerchantPlan m planID) w := by
  refine Promises.skip (Issues.mapError _ ?_) fun plan w₁ _ => ?_
  · exact Issues.bind (query_harmless _ fun _ => trivial) fun _ => Issues.ofExcept _
  refine Promises.skip (query_harmless (.merchantExists m) fun _ => trivial)
    fun found w₂ _ => ?_
  cases found with
  | error e => exact Promises.harmless trivial
  | ok there =>
    cases there with
    | false => exact Promises.harmless trivial
    | true =>
      refine Promises.skip (query_harmless (.deactivateSubscriptions m) fun _ => trivial)
        fun deactivated w₃ _ => ?_
      refine Promises.skip (Issues.ofExcept _) fun _ w₄ _ => ?_
      refine Promises.seq promises_timeNow fun now w₅ _ hnow => ?_
      refine Promises.skip (query_harmless .newUUID fun _ => trivial)
        fun uuid w₆ hw₆ => ?_
      apply Promises.statement
      · intro w' hw'
        exact le_trans (hnow now rfl) (hw₆.trans hw').clock
      · exact fun _ _ _ => Issues.ofExcept _

theorem promises_program (s : Service) (k : Operation) :
    Promises l (fun _ => Later w) (s.program k) w := by
  cases k with
  | upgradePlan m planID redirectURL =>
    refine Promises.after (promises_upgradePlan s m planID redirectURL) fun _ w' _ => ?_
    exact Promises.harmless trivial
  | cancelPlan m => exact Promises.harmless (cancelPlan_harmless m)
  | assignMerchantPlan m planID => exact promises_assignMerchantPlan m planID
  | paymentStatusUpdate m id => exact promises_processPaymentStatusUpdate s m id
  | createPayment m props =>
    refine Promises.after (promises_createPayment s m props) fun _ w' _ => ?_
    exact Promises.harmless trivial
  | enforceLimits m price => exact Promises.harmless (enforceLimits_harmless m price)
  | countConfirmed tx status => exact Promises.harmless (countConfirmed_harmless tx status)

end Programs

/-- In every interleaving every call keeps its promises. -/
theorem Service.shares (s : Service) : Shares s.system Later Guaranteed where
  refl := Later.refl
  trans := Later.trans
  call _ env _ h := later_perform h env
  move m w := later_move m w
  program l _ := Meets.mono (fun _ _ _ => trivial) (promises_program s l).meets

theorem Service.holds_of_no_threads (s : Service) (w : SubscriptionWorld) :
    s.shares.Holds ⟨w, []⟩ := keeps_of_no_threads w

end Subscription

end CryptoLink
