import CryptoLink.Guarantees.AmountTexts
import CryptoLink.Guarantees.PaidPlans
import CryptoLink.Library.Triples
import Mathlib.Tactic.Linarith
import Mathlib.Tactic.NormNum

/-!
# Checkouts

A plan is bought in two steps that nothing ties together: the subscription is
inserted, and then its payment is created with the digits of the price. What the
first step leaves stays when the second fails, and the digits are read as cents.
-/

namespace CryptoLink

open KeyedTables ReadCommitted StatementPrograms RankedListings System Engine

namespace Subscription

/-- The text of a price is read as if its dollars were cents, and not at all if it
has cents. -/
theorem setString_decimalString {x : Int} (hx : 0 ≤ x) :
    Money.setString (Money.clear (decimalString x)) =
      if x % 100 = 0 then some (x / 100) else none := by
  have hsign : ¬ x < 0 := by omega
  by_cases hwhole : x % 100 = 0
  · have hfraction : x.natAbs % 100 = 0 := by omega
    have hdollars : ((x.natAbs / 100 : ℕ) : Int) = x / 100 := by omega
    have htext : decimalString x = toString (x / 100) := by
      simp only [decimalString, hfraction, if_true, hsign, if_false]
      rw [← hdollars]
      rfl
    rw [if_pos hwhole, htext, Money.setString_clear_toString]
  · have hfraction : x.natAbs % 100 ≠ 0 := by omega
    have hdot : ∃ cs, decimalString x = String.ofList cs ∧ '.' ∈ cs := by
      refine ⟨(decimalString x).toList, String.ofList_toList.symm, ?_⟩
      simp only [decimalString, hfraction, hsign, if_false]
      split
      · simp
      · simp
    obtain ⟨cs, htext, hmem⟩ := hdot
    rw [if_neg hwhole, htext, Money.setString_clear_of_dot hmem]

section Purchase

variable {w : SubscriptionWorld} {envs : ℕ → SubscriptionEnv} {plan : SubscriptionPlan}
  {planID : String}

/-- The clock shows another time. -/
def atTime (w : SubscriptionWorld) (t : Int) : SubscriptionWorld := { w with clock := t }

theorem autocommit_timeNow (env : SubscriptionEnv) (w : SubscriptionWorld) :
    subscriptionEngine.autocommit .timeNow env w = atTime w (w.answer env .timeNow) := by
  by_cases hrefused : env.fate = .refused
  · rw [autocommit_refused hrefused]
    simp [SubscriptionWorld.answer, hrefused, atTime]
  · rw [autocommit_landed hrefused]
    simp [SubscriptionWorld.answer, hrefused, atTime, SubscriptionWorld.effect,
      SubscriptionWorld.lasting]

theorem alone_timeNow {α : Type} (f : Int → SubscriptionCall α) (n : ℕ) :
    subscriptionEngine.alone envs ((query .timeNow).bind f) n ⟨w, .idle⟩ =
      subscriptionEngine.alone envs (f (w.answer (envs n) .timeNow)) (n + 1)
        ⟨atTime w (w.answer (envs n) .timeNow), .idle⟩ := by
  rw [Engine.alone_onPool_bind, autocommit_timeNow]
  rfl

theorem autocommit_getPlan (env : SubscriptionEnv) (w : SubscriptionWorld) :
    subscriptionEngine.autocommit (.getPlan planID) env w = w := by
  by_cases hrefused : env.fate = .refused
  · exact autocommit_refused hrefused
  · exact autocommit_landed hrefused

theorem alone_getPlan (planID : String) (n : ℕ) :
    subscriptionEngine.alone envs (getPlan planID) n ⟨w, .idle⟩ =
      (orMissing .errPlanNotFound "failed to get subscription plan"
        (answered (envs n).fate .database (noRows (w.getPlan planID))), n + 1, ⟨w, .idle⟩) := by
  rw [getPlan, Prog.bind_eq, Engine.alone_onPool_bind, autocommit_getPlan, succeed, alone_ofExcept]
  rfl

theorem getPlan_answered (hplan : w.getPlan planID = some plan) {env : SubscriptionEnv}
    (h : env.fate = .done) : orMissing .errPlanNotFound "failed to get subscription plan"
      (answered env.fate .database (noRows (w.getPlan planID))) = .ok plan := by
  rw [answered, if_pos h, hplan]
  rfl

theorem getPlan_unanswered (w : SubscriptionWorld) (planID : String) {env : SubscriptionEnv}
    (h : env.fate ≠ .done) :
    ∃ e, orMissing .errPlanNotFound "failed to get subscription plan"
      (answered env.fate .database (noRows (w.getPlan planID))) = .error e := by
  rw [answered, if_neg h]
  exact ⟨_, rfl⟩

/-- The row a purchase of a paid plan inserts. -/
def purchased (m : Int) (planID uuid : String) (periodStart periodEnd createdAt updatedAt : Int) :
    CreateSubscriptionParams where
  uuid := uuid
  merchantID := m
  planID := planID
  status := .pendingPayment
  currentPeriodStart := periodStart
  currentPeriodEnd := periodEnd
  autoRenew := true
  createdAt := createdAt
  updatedAt := updatedAt

theorem alone_createSubscription (hplan : w.getPlan planID = some plan) (hprice : 0 < plan.priceUSD)
    {n : ℕ} (hloaded : (envs n).fate = .done) (m periodStart periodEnd : Int) :
    ∃ t t', subscriptionEngine.alone envs (createSubscription m planID periodStart periodEnd) n
        ⟨w, .idle⟩ =
      (wrapErr "failed to create subscription" ((atTime w t').answer (envs (n + 4))
        (.createSubscription (purchased m planID (envs (n + 1)).uuid periodStart periodEnd t t'))),
        n + 5, ⟨subscriptionEngine.autocommit
          (.createSubscription (purchased m planID (envs (n + 1)).uuid periodStart periodEnd t t'))
          (envs (n + 4)) (atTime w t'), .idle⟩) := by
  have hstatus : (if 0 < plan.priceUSD then SubscriptionStatus.pendingPayment else .active) =
      .pendingPayment := if_pos hprice
  have hstill : subscriptionEngine.autocommit .newUUID (envs (n + 1)) w = w := by
    by_cases hrefused : (envs (n + 1)).fate = .refused
    · exact autocommit_refused hrefused
    · exact autocommit_landed hrefused
  refine ⟨w.answer (envs (n + 2)) .timeNow,
    (atTime w (w.answer (envs (n + 2)) .timeNow)).answer (envs (n + 3)) .timeNow, ?_⟩
  rw [createSubscription, Prog.bind_eq, alone_bind, alone_getPlan, getPlan_answered hplan hloaded]
  dsimp only
  rw [hstatus, Prog.bind_eq, Engine.alone_onPool_bind, hstill, Prog.bind_eq,
    alone_timeNow, Prog.bind_eq,
    alone_timeNow, Prog.bind_eq, Engine.alone_onPool_bind, succeed, alone_ofExcept]
  rfl

theorem alone_createSubscription_unloaded (w : SubscriptionWorld) (planID : String) {n : ℕ}
    (hunloaded : (envs n).fate ≠ .done) (m periodStart periodEnd : Int) :
    ∃ e, subscriptionEngine.alone envs (createSubscription m planID periodStart periodEnd) n
      ⟨w, .idle⟩ = (.error e, n + 1, ⟨w, .idle⟩) := by
  obtain ⟨e, he⟩ := getPlan_unanswered w planID hunloaded
  refine ⟨e, ?_⟩
  rw [createSubscription, Prog.bind_eq, alone_bind, alone_getPlan, he]

/-- The insert of a purchase goes through once it reaches the database. -/
structure Insertable (w : SubscriptionWorld) (m : Int) (uuid : String) : Prop where
  merchant : (w.merchants.get m).isSome = true
  serial : w.subscriptions.get w.nextSubscriptionID = none
  fresh : ∀ r ∈ w.subscriptions.rows, r.uuid ≠ uuid
  free : w.openSubscriptions m = []

theorem fits_purchased_iff (hplan : w.getPlan planID = some plan) {m t periodStart periodEnd : Int}
    {uuid : String} {createdAt updatedAt : Int} :
    (atTime w t).subscriptionFits
        (purchased m planID uuid periodStart periodEnd createdAt updatedAt) = true ↔
      Insertable w m uuid := by
  have hthere : (w.plans.get planID).isSome = true := by
    rw [(Option.filter_eq_some_iff.mp hplan).1]
    rfl
  have hopen : SubscriptionStatus.pendingPayment.isOpen = true := rfl
  simp only [SubscriptionWorld.subscriptionFits, purchased, atTime, Bool.and_eq_true, hopen,
    Bool.not_true, Bool.false_or, List.all_eq_true, bne_iff_ne, List.isEmpty_iff,
    Option.isNone_iff_eq_none]
  constructor
  · rintro ⟨⟨⟨⟨hmerchant, -⟩, hfresh⟩, hserial⟩, hfree⟩
    exact ⟨hmerchant, hserial, hfresh, hfree⟩
  · rintro ⟨hmerchant, hserial, hfresh, hfree⟩
    exact ⟨⟨⟨⟨hmerchant, hthere⟩, hfresh⟩, hserial⟩, hfree⟩

theorem subscriptions_of_not_inserted {p : CreateSubscriptionParams} {env : SubscriptionEnv}
    (h : env.fate = .refused ∨ w.subscriptionFits p = false) :
    (subscriptionEngine.autocommit (.createSubscription p) env w).subscriptions =
      w.subscriptions := by
  by_cases hrefused : env.fate = .refused
  · rw [autocommit_refused hrefused]
  · have hunfit : w.subscriptionFits p = false := h.resolve_left hrefused
    rw [autocommit_landed hrefused, SubscriptionWorld.effect, hunfit, if_neg (by simp)]
    rfl

theorem subscriptions_of_inserted {p : CreateSubscriptionParams} {env : SubscriptionEnv}
    (hlands : env.fate ≠ .refused) (hfits : w.subscriptionFits p = true) :
    (subscriptionEngine.autocommit (.createSubscription p) env w).subscriptions =
      w.subscriptions.insert (w.newSubscription p) := by
  rw [autocommit_landed hlands, SubscriptionWorld.effect, hfits, if_pos rfl]
  rfl

theorem answer_inserted (w : SubscriptionWorld) (p : CreateSubscriptionParams)
    (env : SubscriptionEnv) :
    (∃ e, w.answer env (.createSubscription p) = .error e ∧
        (env.fate ≠ .done ∨ w.subscriptionFits p = false)) ∨
      w.answer env (.createSubscription p) = .ok (w.newSubscription p) ∧ env.fate = .done ∧
        w.subscriptionFits p = true := by
  by_cases hdone : env.fate = .done
  · cases hfits : w.subscriptionFits p with
    | false =>
      left
      refine ⟨Err.of .database, ?_, .inr rfl⟩
      simp [SubscriptionWorld.answer, answered, hdone, hfits]
    | true =>
      right
      refine ⟨?_, hdone, rfl⟩
      simp [SubscriptionWorld.answer, answered, hdone, hfits]
  · left
    refine ⟨Err.of .database, ?_, .inl hdone⟩
    simp [SubscriptionWorld.answer, answered, hdone]

end Purchase

-- An assertion about a run is not to be computed.
attribute [local irreducible] Engine.Ends

section Payments

variable {s : Service} {subscriptions : Table Int MerchantSubscription MerchantSubscription.id}

/-- The subscriptions are these. -/
def Holding (subscriptions : Table Int MerchantSubscription MerchantSubscription.id)
    (v : SubscriptionView) : Prop :=
  v.world.subscriptions = subscriptions

/-- Creating a payment reads merchants and the clock. -/
def createsPayment : SubscriptionStmt → Prop
  | .getMerchantByID _ => True
  | .timeNow => True
  | .createPayment _ => True
  | _ => False

theorem subscriptions_autocommit {st : SubscriptionStmt} (h : createsPayment st)
    (env : SubscriptionEnv) (w : SubscriptionWorld) :
    (subscriptionEngine.autocommit st env w).subscriptions = w.subscriptions := by
  by_cases hrefused : env.fate = .refused
  · rw [autocommit_refused hrefused]
  · rw [autocommit_landed hrefused]
    cases st with
    | createPayment p =>
      rw [SubscriptionWorld.effect]
      split
      · rfl
      · rfl
    | getMerchantByID m => rfl
    | timeNow => rfl
    | _ => exact h.elim

theorem query_holding {st : SubscriptionStmt} (h : createsPayment st) :
    subscriptionEngine.Triple (Holding subscriptions) (query st)
      (fun _ => Holding subscriptions) (Holding subscriptions) :=
  Triple.ask fun env v hv => (subscriptions_autocommit h env v.world).trans hv

/-- A payment that is answered is stored. -/
theorem stored_of_answered {w : SubscriptionWorld} {env : SubscriptionEnv} {p : CreatePaymentParams}
    {row : PaymentRow} (h : w.answer env (.createPayment p) = .ok row) :
    row = w.newPayment p ∧
      (subscriptionEngine.autocommit (.createPayment p) env w).payments.get row.id = some row := by
  have hdone : env.fate = .done := by
    by_contra hnot
    simp [SubscriptionWorld.answer, answered, hnot] at h
  have hlands : env.fate ≠ .refused := by
    rw [hdone]
    intro h
    cases h
  cases hfits : w.paymentFits p with
  | false => simp [SubscriptionWorld.answer, answered, hdone, hfits] at h
  | true =>
    have hrow : row = w.newPayment p := by
      simpa [SubscriptionWorld.answer, answered, hdone, hfits, eq_comm] using h
    have hnone : w.payments.get w.nextPaymentID = none := by
      simp only [SubscriptionWorld.paymentFits, Bool.and_eq_true] at hfits
      exact Option.isNone_iff_eq_none.mp hfits.2
    refine ⟨hrow, ?_⟩
    rw [autocommit_landed hlands, SubscriptionWorld.effect, hfits, if_pos rfl, hrow]
    exact Table.get_insert_self w.payments hnone

/-- The payment of a price is stored with what its text is read as. -/
theorem adapterCreatePayment_stores (params : Service.PaymentParams) :
    subscriptionEngine.Triple (Holding subscriptions) (s.adapterCreatePayment params)
      (fun row v => Holding subscriptions v ∧ v.world.payments.get row.id = some row ∧
        row.currency = "USD" ∧ row.decimals = 2 ∧
        Money.setString (Money.clear (decimalString params.amount)) = some row.price)
      (Holding subscriptions) := by
  refine Triple.bind (M := fun money v => Holding subscriptions v ∧
    money.ticker = "USD" ∧ money.decimals = 2 ∧
      Money.setString (Money.clear (decimalString params.amount)) = some money.value)
    (Triple.ofExcept ?_ fun _ hv => hv) fun money => ?_
  · intro money hmoney v hv
    have hnew := wrapErr_eq_ok.mp hmoney
    rw [Money.new] at hnew
    cases hread : Money.setString (Money.clear (decimalString params.amount)) with
    | none =>
      rw [hread] at hnew
      cases hnew
    | some value =>
      rw [hread] at hnew
      cases hnew
      exact ⟨hv, rfl, rfl, rfl⟩
  · apply Triple.mapError
    refine Triple.conseq (P := fun v => Holding subscriptions v ∧ (money.ticker = "USD" ∧
      money.decimals = 2 ∧
        Money.setString (Money.clear (decimalString params.amount)) = some money.value))
      (Triple.given ?_) (fun _ hv => hv) (fun _ _ hv => hv) (fun _ hv => hv)
    rintro ⟨hticker, hdecimals, hread⟩
    refine Triple.bind (M := fun _ => Holding subscriptions)
      (Triple.ofExcept (fun _ _ _ hv => hv) fun _ hv => hv) fun _ => ?_
    refine Triple.bind (query_holding trivial) fun mt => ?_
    refine Triple.bind (M := fun _ => Holding subscriptions)
      (Triple.ofExcept (fun _ _ _ hv => hv) fun _ hv => hv) fun _ => ?_
    refine Triple.bind (query_holding trivial) fun now => ?_
    refine Triple.bind (M := fun reply v => Holding subscriptions v ∧ ∀ row, reply = .ok row →
      v.world.payments.get row.id = some row ∧ row.currency = "USD" ∧ row.decimals = 2 ∧
        row.price = money.value) (Triple.ask ?_) fun reply => ?_
    · intro env v hv
      refine ⟨Eq.trans (subscriptions_autocommit (by trivial) env v.world) hv, ?_⟩
      intro row hrow
      obtain ⟨hsame, hstored⟩ := stored_of_answered hrow
      refine ⟨hstored, ?_⟩
      rw [hsame]
      exact ⟨hticker, hdecimals, rfl⟩
    refine Triple.bind (M := fun row v => Holding subscriptions v ∧
      v.world.payments.get row.id = some row ∧ row.currency = "USD" ∧ row.decimals = 2 ∧
        row.price = money.value) (Triple.ofExcept ?_ fun _ hv => hv.1) fun row => ?_
    · intro row hrow v hv
      exact ⟨hv.1, hv.2 row hrow⟩
    refine Triple.bind (M := fun _ v => Holding subscriptions v ∧
      v.world.payments.get row.id = some row ∧ row.currency = "USD" ∧ row.decimals = 2 ∧
        row.price = money.value) (Triple.ofExcept (fun _ _ _ hv => hv) fun _ hv => hv.1) fun _ => ?_
    refine Triple.ret ?_
    rintro v ⟨hv, hstored, hcurrency, hcents, hprice⟩
    refine ⟨hv, hstored, hcurrency, hcents, ?_⟩
    rw [hprice]
    exact hread

end Payments

/-- A response whose payment is over the plan's dollars, and one more subscription,
which waits for it. -/
structure Charged (w : SubscriptionWorld) (m : Int) (planID : String) (plan : SubscriptionPlan)
    (r : Service.SubscriptionPaymentResponse) (w' : SubscriptionWorld) : Prop where
  paid : ∃ paymentID ∈ r.paymentID, ∃ p ∈ w'.payments.get paymentID, p.currency = "USD" ∧
    (p.price : ℚ) / 10 ^ p.decimals.toNat = (plan.priceUSD : ℚ) / 100
  waiting : ∃ sub, w'.subscriptions.rows = w.subscriptions.rows ++ [sub] ∧ sub.merchantID = m ∧
    sub.planID = planID ∧ sub.status = .pendingPayment ∧ sub.uuid = r.subscriptionUUID

def ChargedOrUnchanged (w : SubscriptionWorld) (m : Int) (planID : String)
    (plan : SubscriptionPlan) :
    Except Err Service.SubscriptionPaymentResponse × ℕ × SubscriptionView → Prop
  | (.ok r, _, v) => Charged w m planID plan r v.world
  | (.error _, _, v) => v.world.subscriptions = w.subscriptions

namespace Service

variable (s : Service)

/-- The call alone, whatever becomes of its statements. -/
def checkout (envs : ℕ → SubscriptionEnv) (w : SubscriptionWorld) (m : Int)
    (planID redirectURL : String) :
    Except Err SubscriptionPaymentResponse × ℕ × SubscriptionView :=
  subscriptionEngine.alone envs (s.createSubscriptionPayment m planID redirectURL) 0 ⟨w, .idle⟩

/-- The checkout charges the plan's price, or fails and leaves the subscriptions
alone. -/
def ChargesOrNothing (envs : ℕ → SubscriptionEnv) (w : SubscriptionWorld) (m : Int)
    (planID redirectURL : String) (plan : SubscriptionPlan) : Prop :=
  ChargedOrUnchanged w m planID plan (s.checkout envs w m planID redirectURL)

end Service

/-- The plan is read twice, and then the insert goes through. -/
structure GoesThrough (envs : ℕ → SubscriptionEnv) (w : SubscriptionWorld) (m : Int) : Prop where
  loaded : (envs 0).fate = .done
  reloaded : (envs 2).fate = .done
  lands : (envs 6).fate ≠ .refused
  insertable : Insertable w m (envs 3).uuid

section Checkout

variable {s : Service} {w : SubscriptionWorld} {envs : ℕ → SubscriptionEnv}
  {plan : SubscriptionPlan} {m : Int} {planID redirectURL : String}

/-- What comes after the insert. -/
def payFor (s : Service) (plan : SubscriptionPlan) (m : Int) (redirectURL : String)
    (periodEnd : Int) (sub : MerchantSubscription) :
    SubscriptionCall Service.SubscriptionPaymentResponse :=
  ((s.adapterCreatePayment (s.paymentParams plan sub m redirectURL)).mapError
    (Err.wrap "failed to create subscription payment")).bind fun payment =>
      .ret ⟨sub.uuid, some payment.id, plan.priceUSD, "USD", periodEnd⟩

theorem checkout_unloaded (s : Service) (w : SubscriptionWorld) (m : Int)
    (planID redirectURL : String) (h : (envs 0).fate ≠ .done) :
    ∃ e, s.checkout envs w m planID redirectURL = (.error e, 1, ⟨w, .idle⟩) := by
  obtain ⟨e, he⟩ := getPlan_unanswered w planID h
  refine ⟨e.wrap "failed to get subscription plan", ?_⟩
  rw [Service.checkout, Service.createSubscriptionPayment, Prog.bind_eq, alone_bind, alone_mapError,
    alone_getPlan, he]
  rfl

/-- A plan with a price that is read leads to its purchase. -/
theorem checkout_loaded (s : Service) (m : Int) (redirectURL : String)
    (hplan : w.getPlan planID = some plan) (hprice : 0 < plan.priceUSD)
    (h : (envs 0).fate = .done) :
    ∃ t periodEnd, s.checkout envs w m planID redirectURL =
      subscriptionEngine.alone envs (((createSubscription m planID t periodEnd).mapError
        (Err.wrap "failed to create subscription")).bind (payFor s plan m redirectURL periodEnd)) 2
          ⟨atTime w t, .idle⟩ := by
  refine ⟨w.answer (envs 1) .timeNow,
    Service.periodEndOf plan.billingPeriod (w.answer (envs 1) .timeNow), ?_⟩
  have hpaid : plan.priceUSD ≠ 0 := by omega
  rw [Service.checkout, Service.createSubscriptionPayment, Prog.bind_eq, alone_bind, alone_mapError,
    alone_getPlan, getPlan_answered hplan h]
  dsimp only [Except.mapError]
  rw [if_neg hpaid, Prog.bind_eq, alone_timeNow]
  rfl

/-- A purchase is an insert and what comes after it. -/
theorem checkout_inserts (s : Service) (m : Int) (redirectURL : String)
    (hplan : w.getPlan planID = some plan) (hprice : 0 < plan.priceUSD)
    (hloaded : (envs 0).fate = .done) (hreloaded : (envs 2).fate = .done) :
    ∃ p t periodEnd, p.merchantID = m ∧ p.planID = planID ∧ p.status = .pendingPayment ∧
      ((atTime w t).subscriptionFits p = true ↔ Insertable w m (envs 3).uuid) ∧
      s.checkout envs w m planID redirectURL =
        match (atTime w t).answer (envs 6) (.createSubscription p) with
        | .error e => (.error ((e.wrap "failed to create subscription").wrap
            "failed to create subscription"), 7,
          ⟨subscriptionEngine.autocommit (.createSubscription p) (envs 6) (atTime w t), .idle⟩)
        | .ok sub => subscriptionEngine.alone envs (payFor s plan m redirectURL periodEnd sub) 7
          ⟨subscriptionEngine.autocommit (.createSubscription p) (envs 6) (atTime w t), .idle⟩ := by
  obtain ⟨t, periodEnd, hrun⟩ := checkout_loaded s m redirectURL hplan hprice hloaded
  have hagain : (atTime w t).getPlan planID = some plan := hplan
  obtain ⟨t', t'', hcreate⟩ := alone_createSubscription hagain hprice hreloaded m t periodEnd
  refine ⟨purchased m planID (envs 3).uuid t periodEnd t' t'', t'', periodEnd, rfl, rfl, rfl,
    fits_purchased_iff hplan, ?_⟩
  rw [hrun, alone_bind, alone_mapError, hcreate]
  have hsame : atTime (atTime w t) t'' = atTime w t'' := rfl
  rw [hsame]
  cases (atTime w t'').answer (envs 6)
      (.createSubscription (purchased m planID (envs 3).uuid t periodEnd t' t'')) with
  | error e => rfl
  | ok sub => rfl

/-- The payment is over the digits of the price. -/
theorem payFor_stores (s : Service) (plan : SubscriptionPlan) (m : Int) (redirectURL : String)
    (periodEnd : Int) (sub : MerchantSubscription)
    (subscriptions : Table Int MerchantSubscription MerchantSubscription.id) :
    subscriptionEngine.Triple (Holding subscriptions) (payFor s plan m redirectURL periodEnd sub)
      (fun r v => Holding subscriptions v ∧ ∃ row, r.paymentID = some row.id ∧
        v.world.payments.get row.id = some row ∧ row.decimals = 2 ∧
          Money.setString (Money.clear (decimalString plan.priceUSD)) = some row.price)
      (Holding subscriptions) := by
  refine Triple.bind (Triple.mapError (adapterCreatePayment_stores _)) fun row => ?_
  refine Triple.ret ?_
  rintro v ⟨hv, hstored, -, hcents, hread⟩
  exact ⟨hv, row, rfl, hstored, hcents, hread⟩

/-- What the text of a positive price is read as is never the price. -/
theorem read_ne_price {x v : Int} (hx : 0 < x)
    (h : Money.setString (Money.clear (decimalString x)) = some v) : v ≠ x := by
  rw [setString_decimalString (by omega)] at h
  split at h
  · cases h
    omega
  · cases h

theorem insert_ne {w : SubscriptionWorld} {p : CreateSubscriptionParams}
    (h : w.subscriptions.get w.nextSubscriptionID = none) :
    w.subscriptions.insert (w.newSubscription p) ≠ w.subscriptions := by
  intro hsame
  have hself := Table.get_insert_self w.subscriptions (r := w.newSubscription p) h
  rw [hsame] at hself
  exact absurd (h.symm.trans hself) (fun h => by cases h)

/-- A payment over the digits of the price is not over the price. -/
theorem not_charged {r : Service.SubscriptionPaymentResponse} {v : SubscriptionView}
    (hprice : 0 < plan.priceUSD) {row : PaymentRow} (hpayment : r.paymentID = some row.id)
    (hstored : v.world.payments.get row.id = some row) (hcents : row.decimals = 2)
    (hread : Money.setString (Money.clear (decimalString plan.priceUSD)) = some row.price) :
    ¬ Charged w m planID plan r v.world := by
  intro hcharged
  obtain ⟨paymentID, hid, row', hrow', -, hdollars⟩ := hcharged.paid
  rw [Option.mem_def] at hid hrow'
  rw [hpayment] at hid
  cases hid
  rw [hstored] at hrow'
  cases hrow'
  have htwo : (2 : Int).toNat = 2 := rfl
  rw [hcents, htwo] at hdollars
  have hsame : (row.price : ℚ) = plan.priceUSD := by linarith
  exact read_ne_price hprice hread (by exact_mod_cast hsame)

/-- Once the subscriptions are others, whatever follows is wrong. -/
theorem payFor_wrong (hprice : 0 < plan.priceUSD) {v : SubscriptionView}
    (h : v.world.subscriptions ≠ w.subscriptions) (periodEnd : Int) (sub : MerchantSubscription)
    (n : ℕ) : ¬ ChargedOrUnchanged w m planID plan
      (subscriptionEngine.alone envs (payFor s plan m redirectURL periodEnd sub) n v) := by
  have hpays := payFor_stores s plan m redirectURL periodEnd sub v.world.subscriptions envs n v rfl
  generalize subscriptionEngine.alone envs (payFor s plan m redirectURL periodEnd sub) n v = run
    at hpays ⊢
  obtain ⟨e | r, n', v'⟩ := run
  · rw [Ends] at hpays
    have hkept : v'.world.subscriptions = v.world.subscriptions := hpays
    show ¬ v'.world.subscriptions = w.subscriptions
    rw [hkept]
    exact h
  · rw [Ends] at hpays
    obtain ⟨-, row, hpayment, hstored, hcents, hread⟩ := hpays
    exact not_charged hprice hpayment hstored hcents hread

/-- A subscription that is inserted stays, and what follows is wrong. -/
theorem not_charges_of_goesThrough (s : Service) (redirectURL : String)
    (hplan : w.getPlan planID = some plan) (hprice : 0 < plan.priceUSD)
    (h : GoesThrough envs w m) : ¬ s.ChargesOrNothing envs w m planID redirectURL plan := by
  obtain ⟨p, t, periodEnd, -, -, -, hfits, hrun⟩ :=
    checkout_inserts s m redirectURL hplan hprice h.loaded h.reloaded
  have hchanged : (subscriptionEngine.autocommit (.createSubscription p) (envs 6)
      (atTime w t)).subscriptions ≠ w.subscriptions := by
    rw [subscriptions_of_inserted h.lands (hfits.mpr h.insertable)]
    exact insert_ne (w := atTime w t) h.insertable.serial
  rw [Service.ChargesOrNothing, hrun]
  rcases answer_inserted (atTime w t) p (envs 6) with ⟨e, he, -⟩ | ⟨hok, -, -⟩
  · rw [he]
    exact hchanged
  · rw [hok]
    exact payFor_wrong hprice hchanged _ _ _

/-- Before the insert nothing is written. -/
theorem charges_of_not_goesThrough (s : Service) (redirectURL : String)
    (hplan : w.getPlan planID = some plan) (hprice : 0 < plan.priceUSD)
    (h : ¬ GoesThrough envs w m) : s.ChargesOrNothing envs w m planID redirectURL plan := by
  by_cases hloaded : (envs 0).fate = .done
  · by_cases hreloaded : (envs 2).fate = .done
    · obtain ⟨p, t, periodEnd, -, -, -, hfits, hrun⟩ :=
        checkout_inserts s m redirectURL hplan hprice hloaded hreloaded
      have hout : (envs 6).fate = .refused ∨ (atTime w t).subscriptionFits p = false := by
        by_contra hboth
        obtain ⟨hlands, hinsertable⟩ := not_or.mp hboth
        exact h ⟨hloaded, hreloaded, hlands, hfits.mp (Bool.eq_true_of_not_eq_false hinsertable)⟩
      rw [Service.ChargesOrNothing, hrun]
      rcases answer_inserted (atTime w t) p (envs 6) with
        ⟨e, he, -⟩ | ⟨-, hdone, hfit⟩
      · rw [he]
        exact subscriptions_of_not_inserted hout
      · rcases hout with hrefused | hunfit
        · rw [hrefused] at hdone
          cases hdone
        · rw [hfit] at hunfit
          cases hunfit
    · obtain ⟨t, periodEnd, hrun⟩ := checkout_loaded s m redirectURL hplan hprice hloaded
      obtain ⟨e, he⟩ := alone_createSubscription_unloaded (atTime w t) planID
        hreloaded m t periodEnd
      rw [alone_bind, alone_mapError, he] at hrun
      rw [Service.ChargesOrNothing, hrun]
      rfl
  · obtain ⟨e, he⟩ := checkout_unloaded s w m planID redirectURL hloaded
    rw [Service.ChargesOrNothing, he]
    rfl

/-- A checkout of a plan with a price charges it or does nothing exactly if the
insert of the subscription does not go through. -/
theorem charges_or_nothing_iff (s : Service) (envs : ℕ → SubscriptionEnv) (w : SubscriptionWorld)
    (m : Int) (planID redirectURL : String) (plan : SubscriptionPlan)
    (hplan : w.getPlan planID = some plan) (hprice : 0 < plan.priceUSD) :
    s.ChargesOrNothing envs w m planID redirectURL plan ↔ ¬ GoesThrough envs w m := by
  constructor
  · intro hcharges hthrough
    exact not_charges_of_goesThrough s redirectURL hplan hprice hthrough hcharges
  · exact charges_of_not_goesThrough s redirectURL hplan hprice

end Checkout

open Market

theorem getPlan_tables : tables.getPlan "pro" = some pro := by decide

theorem charges_or_nothing_sample :
    operator.ChargesOrNothing (fun _ => {}) tables 2 "pro" "https://back" pro ↔
      ¬ GoesThrough (fun _ => {}) tables 2 :=
  charges_or_nothing_iff operator (fun _ => {}) tables 2 "pro" "https://back" pro getPlan_tables
    (by decide)

/-- A plan for 29 dollars: the payment is over 29 cents. -/
theorem checkout_charges_cents :
    ¬ ∀ (s : Service) (envs : ℕ → SubscriptionEnv) (w : SubscriptionWorld) (m : Int)
      (planID redirectURL : String) (plan : SubscriptionPlan), w.getPlan planID = some plan →
        0 < plan.priceUSD → s.ChargesOrNothing envs w m planID redirectURL plan := by
  intro h
  have hinsertable : Insertable tables 2 "" := ⟨by decide, by decide, by decide, by decide⟩
  have hthrough : GoesThrough (fun _ => {}) tables 2 := ⟨rfl, rfl, by decide, hinsertable⟩
  exact not_charges_of_goesThrough operator "https://back" getPlan_tables (by decide) hthrough
    (h operator (fun _ => {}) tables 2 "pro" "https://back" pro getPlan_tables (by decide))

end Subscription

end CryptoLink
