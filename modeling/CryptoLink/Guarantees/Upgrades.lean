import CryptoLink.Guarantees.Checkouts

/-!
# Upgrades

A merchant has one open subscription at most, and nothing closes the one it has
when it buys another. So a plan can be bought only by a merchant with no open
subscription, and only for a whole number of dollars.
-/

namespace CryptoLink

open KeyedTables ReadCommitted StatementPrograms RankedListings System Engine

namespace Subscription

def OneOpen (w : SubscriptionWorld) : Prop :=
  ∀ r ∈ w.subscriptions.rows, ∀ r' ∈ w.subscriptions.rows, r.merchantID = r'.merchantID →
    r.status.isOpen = true → r'.status.isOpen = true → r.id = r'.id

/-- Every id was drawn from its sequence. -/
structure Numbered (w : SubscriptionWorld) : Prop where
  subscriptions : ∀ r ∈ w.subscriptions.rows, r.id < w.nextSubscriptionID
  payments : ∀ p ∈ w.payments.rows, p.id < w.nextPaymentID

structure Orderly (w : SubscriptionWorld) : Prop where
  oneOpen : OneOpen w
  numbered : Numbered w

theorem mem_openSubscriptions {w : SubscriptionWorld} {m : Int} {r : MerchantSubscription} :
    r ∈ w.openSubscriptions m ↔
      r ∈ w.subscriptions.rows ∧ r.merchantID = m ∧ r.status.isOpen = true := by
  simp [SubscriptionWorld.openSubscriptions]

section Rows

variable {w w' : SubscriptionWorld}

/-- Rows that keep who they are, and open only if they were. -/
theorem OneOpen.of_map (h : OneOpen w) {g : MerchantSubscription → MerchantSubscription}
    (hrows : w'.subscriptions.rows = w.subscriptions.rows.map g) (hid : ∀ r, (g r).id = r.id)
    (hmerchant : ∀ r, (g r).merchantID = r.merchantID)
    (hopen : ∀ r, (g r).status.isOpen = true → r.status.isOpen = true) : OneOpen w' := by
  intro r hr r' hr' hsame hropen hropen'
  rw [hrows] at hr hr'
  obtain ⟨x, hx, rfl⟩ := List.mem_map.mp hr
  obtain ⟨x', hx', rfl⟩ := List.mem_map.mp hr'
  rw [hmerchant, hmerchant] at hsame
  rw [hid, hid]
  exact h x hx x' hx' hsame (hopen x hropen) (hopen x' hropen')

theorem OneOpen.inserted (h : OneOpen w) {p : CreateSubscriptionParams}
    (hfits : w.subscriptionFits p = true)
    (hrows : w'.subscriptions = w.subscriptions.insert (w.newSubscription p)) : OneOpen w' := by
  have hfree : p.status.isOpen = true → w.openSubscriptions p.merchantID = [] := by
    intro hopen
    simp only [SubscriptionWorld.subscriptionFits, Bool.and_eq_true, hopen, Bool.not_true,
      Bool.false_or, List.isEmpty_iff] at hfits
    exact hfits.2
  have hnew : ∀ r ∈ w.subscriptions.rows, r.merchantID = p.merchantID →
      r.status.isOpen = true → p.status.isOpen = true → False := by
    intro r hr hmerchant hropen hopen
    have hmem := mem_openSubscriptions.mpr ⟨hr, hmerchant, hropen⟩
    rw [hfree hopen] at hmem
    cases hmem
  intro r hr r' hr' hsame hropen hropen'
  rw [hrows] at hr hr'
  rcases Table.mem_insert hr with hold | rfl
  · rcases Table.mem_insert hr' with hold' | rfl
    · exact h r hold r' hold' hsame hropen hropen'
    · exact (hnew r hold hsame hropen hropen').elim
  · rcases Table.mem_insert hr' with hold' | rfl
    · exact (hnew r' hold' hsame.symm hropen' hropen).elim
    · rfl

/-- A row is activated only if no other row of its merchant is open. -/
theorem OneOpen.activated (h : OneOpen w) {k paymentID updatedAt : Int} {x : MerchantSubscription}
    (hget : w.subscriptions.get k = some x) (hfits : w.activationFits x paymentID = true)
    (hrows : w'.subscriptions = w.subscriptions.modify k
      (SubscriptionWorld.activatedSubscription paymentID updatedAt)
      (SubscriptionWorld.activatedSubscription_id paymentID updatedAt)) : OneOpen w' := by
  obtain ⟨hx, hxid⟩ := Table.get_eq_some hget
  have honly : ∀ r ∈ w.subscriptions.rows, r.merchantID = x.merchantID →
      r.status.isOpen = true → r.id = k := by
    intro r hr hmerchant hropen
    simp only [SubscriptionWorld.activationFits, Bool.and_eq_true, List.all_eq_true,
      decide_eq_true_eq] at hfits
    rw [hfits.2 r (mem_openSubscriptions.mpr ⟨hr, hmerchant, hropen⟩), hxid]
  have hcases : ∀ r ∈ w'.subscriptions.rows, r.id = k ∧ r.merchantID = x.merchantID ∨
      r.id ≠ k ∧ r ∈ w.subscriptions.rows := by
    intro r hr
    rw [hrows, Table.rows_modify] at hr
    obtain ⟨y, hy, rfl⟩ := List.mem_map.mp hr
    by_cases hid : y.id = k
    · left
      have hyx : y = x := Table.eq_of_key_eq hy hx (hid.trans hxid.symm)
      rw [if_pos hid, hyx]
      exact ⟨hxid, rfl⟩
    · right
      rw [if_neg hid]
      exact ⟨hid, hy⟩
  intro r hr r' hr' hsame hropen hropen'
  rcases hcases r hr with ⟨hid, hmerchant⟩ | ⟨hid, hold⟩
  · rcases hcases r' hr' with ⟨hid', -⟩ | ⟨hid', hold'⟩
    · rw [hid, hid']
    · exact absurd (honly r' hold' (hsame.symm.trans hmerchant) hropen') hid'
  · rcases hcases r' hr' with ⟨hid', hmerchant'⟩ | ⟨-, hold'⟩
    · exact absurd (honly r hold (hsame.trans hmerchant') hropen) hid
    · exact h r hold r' hold' hsame hropen hropen'

theorem Orderly.of_same (h : Orderly w) (hsubscriptions : w'.subscriptions = w.subscriptions)
    (hnext : w.nextSubscriptionID ≤ w'.nextSubscriptionID) (hpayments : w'.payments = w.payments)
    (hnextPayment : w.nextPaymentID ≤ w'.nextPaymentID) : Orderly w' := by
  refine ⟨?_, ?_, ?_⟩
  · rw [OneOpen, hsubscriptions]
    exact h.oneOpen
  · rw [hsubscriptions]
    exact fun r hr => lt_of_lt_of_le (h.numbered.subscriptions r hr) hnext
  · rw [hpayments]
    exact fun p hp => lt_of_lt_of_le (h.numbered.payments p hp) hnextPayment

theorem Orderly.inserted (h : Orderly w) {p : CreateSubscriptionParams}
    (hfits : w.subscriptionFits p = true) :
    Orderly { w with
      subscriptions := w.subscriptions.insert (w.newSubscription p)
      nextSubscriptionID := w.nextSubscriptionID + 1 } := by
  refine ⟨h.oneOpen.inserted hfits rfl, ?_, h.numbered.payments⟩
  intro r hr
  rcases Table.mem_insert hr with hold | rfl
  · have := h.numbered.subscriptions r hold
    show r.id < w.nextSubscriptionID + 1
    omega
  · show w.nextSubscriptionID < w.nextSubscriptionID + 1
    omega

theorem Numbered.mapped {g : MerchantSubscription → MerchantSubscription} (h : Numbered w)
    (hrows : w'.subscriptions.rows = w.subscriptions.rows.map g) (hid : ∀ r, (g r).id = r.id)
    (hnext : w'.nextSubscriptionID = w.nextSubscriptionID) (hpayments : w'.payments = w.payments)
    (hnextPayment : w'.nextPaymentID = w.nextPaymentID) : Numbered w' := by
  constructor
  · intro r hr
    rw [hrows] at hr
    obtain ⟨x, hx, rfl⟩ := List.mem_map.mp hr
    rw [hid, hnext]
    exact h.subscriptions x hx
  · rw [hpayments, hnextPayment]
    exact h.payments

/-- A change of payments that leaves their ids alone. -/
theorem Orderly.paymentChanged (h : Orderly w) (k : Int) (f : PaymentRow → PaymentRow)
    (hf : ∀ p, (f p).id = p.id) : Orderly { w with payments := w.payments.modify k f hf } := by
  refine ⟨h.oneOpen, h.numbered.subscriptions, ?_⟩
  intro q hq
  have hmem : q ∈ (w.payments.modify k f hf).rows := hq
  rw [Table.rows_modify] at hmem
  obtain ⟨x, hx, rfl⟩ := List.mem_map.mp hmem
  have hlt := h.numbered.payments x hx
  by_cases hid : x.id = k
  · rw [if_pos hid, hf]
    exact hlt
  · rw [if_neg hid]
    exact hlt

theorem Orderly.autocommit (h : Orderly w) (st : SubscriptionStmt) (env : SubscriptionEnv) :
    Orderly (subscriptionEngine.autocommit st env w) := by
  by_cases hrefused : env.fate = .refused
  · rw [autocommit_refused hrefused]
    exact h
  rw [autocommit_landed hrefused]
  cases st with
  | createSubscription p =>
    rw [SubscriptionWorld.effect]
    split
    · rename_i hfits
      exact h.inserted hfits
    · exact h.of_same rfl (Int.le_add_one le_rfl) rfl le_rfl
  | insertAssigned p =>
    rw [SubscriptionWorld.effect]
    split
    · rename_i hfits
      exact h.inserted hfits
    · exact h.of_same rfl (Int.le_add_one le_rfl) rfl le_rfl
  | activateSubscription k paymentID updatedAt =>
    rw [SubscriptionWorld.effect]
    split
    · exact h
    · rename_i x hx
      split
      · rename_i hfits
        have hid : ∀ r : MerchantSubscription, (if r.id = k then
            SubscriptionWorld.activatedSubscription paymentID updatedAt r else r).id = r.id := by
          intro r
          split <;> rfl
        have hrows := Table.rows_modify w.subscriptions k
          (SubscriptionWorld.activatedSubscription paymentID updatedAt)
          (SubscriptionWorld.activatedSubscription_id paymentID updatedAt)
        exact ⟨h.oneOpen.activated hx hfits rfl, h.numbered.mapped hrows hid rfl rfl rfl⟩
      · exact h
  | cancelSubscription k cancelledAt updatedAt =>
    have hid : ∀ r : MerchantSubscription, (if r.id = k then
        SubscriptionWorld.cancelledSubscription cancelledAt updatedAt r else r).id = r.id := by
      intro r
      split <;> rfl
    have hrows := Table.rows_modify w.subscriptions k
      (SubscriptionWorld.cancelledSubscription cancelledAt updatedAt)
      (SubscriptionWorld.cancelledSubscription_id cancelledAt updatedAt)
    refine ⟨h.oneOpen.of_map hrows hid (fun r => ?_) (fun r => ?_),
      h.numbered.mapped hrows hid rfl rfl rfl⟩
    · split <;> rfl
    · split
      · exact id
      · exact id
  | deactivateSubscriptions m =>
    have hid : ∀ r : MerchantSubscription, (if (r.merchantID = m && r.status.isOpen) = true then
        SubscriptionWorld.deactivatedSubscription r else r).id = r.id := by
      intro r
      split <;> rfl
    have hrows := Table.rows_updateWhere w.subscriptions
      (fun r => r.merchantID = m && r.status.isOpen) SubscriptionWorld.deactivatedSubscription
      SubscriptionWorld.deactivatedSubscription_id
    refine ⟨h.oneOpen.of_map hrows hid (fun r => ?_) (fun r => ?_),
      h.numbered.mapped hrows hid rfl rfl rfl⟩
    · split <;> rfl
    · split
      · intro hopen
        cases hopen
      · exact id
  | createPayment p =>
    rw [SubscriptionWorld.effect]
    split
    · refine ⟨h.oneOpen, h.numbered.subscriptions, ?_⟩
      intro q hq
      rcases Table.mem_insert hq with hold | rfl
      · have := h.numbered.payments q hold
        show q.id < w.nextPaymentID + 1
        omega
      · show w.nextPaymentID < w.nextPaymentID + 1
        omega
    · exact h.of_same rfl le_rfl rfl (Int.le_add_one le_rfl)
  | setWebhookTimestamp m k updatedAt =>
    rw [SubscriptionWorld.effect]
    split
    · exact h
    · exact h.paymentChanged k _ (SubscriptionWorld.touchedPayment_id updatedAt)
  | createUsagePeriod m periodStart periodEnd createdAt updatedAt =>
    rw [SubscriptionWorld.effect]
    split
    · exact h.of_same rfl le_rfl rfl le_rfl
    · exact h
  | incrementPaymentUsage m volumeUSD now =>
    rw [SubscriptionWorld.effect]
    split
    · exact h.of_same rfl le_rfl rfl le_rfl
    · exact h
  | timeNow => exact h.of_same rfl le_rfl rfl le_rfl
  | createPlan plan => exact h.of_same rfl le_rfl rfl le_rfl
  | updatePlan planID plan => exact h.of_same rfl le_rfl rfl le_rfl
  | _ => exact h

theorem Orderly.perform {c : Cmd SubscriptionStmt} {v : SubscriptionView}
    (hc : Guaranteed c v.world) (h : Orderly v.world) (env : SubscriptionEnv) :
    Orderly (subscriptionEngine.perform c env v).2.world := by
  cases c with
  | stmt q st =>
    cases q with
    | pool => exact h.autocommit st env
    | tx => exact hc.elim
  | _ => exact hc.elim

theorem Orderly.move (h : Orderly w) (m : Move) : Orderly (m.apply w) := by
  cases m with
  | paymentStatus id status => exact h.paymentChanged id _ (withStatus_id status)
  | webhookURL id url => exact h.of_same rfl le_rfl rfl le_rfl
  | tick elapsed => exact h.of_same rfl le_rfl rfl le_rfl

end Rows

-- An assertion about a run is not to be computed.
attribute [local irreducible] Engine.Ends

section Payments

variable {s : Service} {w : SubscriptionWorld} {envs : ℕ → SubscriptionEnv}

/-- The row of a payment without a link. -/
def paymentRow (m : Int) (money : Money) (now : Int) : CreatePaymentParams where
  createdAt := now
  updatedAt := now
  type := .payment
  status := .pending
  merchantID := m
  price := money.value
  decimals := money.decimals
  currency := money.ticker
  isTest := false
  metadata := MetaData.toJSONB []

theorem alone_createPayment (s : Service) (m : Int) (money : Money)
    (hdone : ∀ n, (envs n).fate = .done) {redirectURL : String}
    (hfiat : money.moneyType = .fiat) (hcurrency : money.ticker = "USD") (hvalue : 0 < money.value)
      (hurl : s.validURL redirectURL = true)
    (hmerchant : (w.merchants.get m).isSome = true)
    (hfree : w.payments.get w.nextPaymentID = none) (n : ℕ) :
    ∃ row v, subscriptionEngine.alone envs
      (s.createPayment m ⟨money, some redirectURL, false, none⟩) n ⟨w, .idle⟩ =
        (.ok row, n + 3, v) := by
  have hvalid : s.validate ⟨money, some redirectURL, false, none⟩ = .ok () := by
    have hpositive : ¬ money.value ≤ 0 := by omega
    simp [Service.validate, hfiat, hpositive, hurl]
  obtain ⟨mt, hmt⟩ := Option.isSome_iff_exists.mp hmerchant
  have hfound : subscriptionEngine.reply (.getMerchantByID m) (envs n) w = .ok mt := by
    show answered (envs n).fate Err.database (noRows (w.merchants.get m)) = .ok mt
    rw [answered, if_pos (hdone n), hmt]
    rfl
  have hstill : subscriptionEngine.autocommit (.getMerchantByID m) (envs n) w = w := by
    apply autocommit_landed
    rw [hdone n]
    intro h
    cases h
  let t : Int := w.answer (envs (n + 1)) .timeNow
  have hfits : (atTime w t).paymentFits (paymentRow m money t) = true := by
    rw [SubscriptionWorld.paymentFits, Bool.and_eq_true]
    exact ⟨hmerchant, Option.isNone_iff_eq_none.mpr hfree⟩
  have hstored : subscriptionEngine.reply (.createPayment (paymentRow m money t)) (envs (n + 2))
      (atTime w t) = .ok ((atTime w t).newPayment (paymentRow m money t)) := by
    show answered (envs (n + 2)).fate Err.database
      (if (atTime w t).paymentFits (paymentRow m money t) = true then _ else _) = _
    rw [answered, if_pos (hdone (n + 2)), if_pos hfits]
  have hread : ∃ payment, entryToPayment ((atTime w t).newPayment (paymentRow m money t)) =
      .ok payment := by
    have hknown : makeFiatCurrency money.ticker = .ok "USD" := by
      rw [hcurrency]
      decide
    exact ⟨_, by
      simp only [entryToPayment, paymentPrice, SubscriptionWorld.newPayment, paymentRow, hknown]
      rfl⟩
  obtain ⟨payment, hpayment⟩ := hread
  refine ⟨(atTime w t).newPayment (paymentRow m money t), ⟨subscriptionEngine.autocommit
    (.createPayment (paymentRow m money t)) (envs (n + 2)) (atTime w t), .idle⟩, ?_⟩
  simp only [Service.createPayment, Prog.bind_eq, succeed, hvalid, Prog.ofExcept_ok, Prog.ret_bind]
  rw [Engine.alone_onPool_bind, hfound, hstill]
  simp only [Prog.ofExcept_ok, Prog.ret_bind]
  rw [alone_timeNow, Engine.alone_onPool_bind]
  rw [paymentRow] at hstored hpayment
  rw [hstored]
  simp only [Prog.ofExcept_ok, Prog.ret_bind, hpayment]
  rfl

/-- The rest of a checkout succeeds for a whole number of dollars. -/
theorem payFor_succeeds {plan : SubscriptionPlan} {redirectURL : String}
    (hdone : ∀ n, (envs n).fate = .done)
    (hoperator : (w.merchants.get s.adminMerchantID).isSome = true)
    (hurl : s.validURL redirectURL = true) (hprice : 0 < plan.priceUSD)
    (hwhole : plan.priceUSD % 100 = 0) (hfree : w.payments.get w.nextPaymentID = none)
    (m periodEnd : Int) (sub : MerchantSubscription) (n : ℕ) :
    ∃ r k v, subscriptionEngine.alone envs (payFor s plan m redirectURL periodEnd sub) n
      ⟨w, .idle⟩ = (.ok r, k, v) := by
  have hmoney : Money.new .fiat "USD" (decimalString plan.priceUSD) 2 =
      .ok ⟨.fiat, "USD", plan.priceUSD / 100, 2⟩ := by
    rw [Money.new, setString_decimalString (by omega), if_pos hwhole]
  have hvalue : 0 < plan.priceUSD / 100 := by omega
  obtain ⟨row, v, hrun⟩ := alone_createPayment s s.adminMerchantID
    ⟨.fiat, "USD", plan.priceUSD / 100, 2⟩ hdone rfl rfl hvalue hurl hoperator hfree n
  have hread : wrapErr "failed to create money amount"
      (Money.new .fiat "USD" (decimalString plan.priceUSD) 2) =
        .ok ⟨.fiat, "USD", plan.priceUSD / 100, 2⟩ := by
    rw [hmoney, wrapErr_ok]
  refine ⟨⟨sub.uuid, some row.id, plan.priceUSD, "USD", periodEnd⟩, n + 3, v, ?_⟩
  simp only [payFor, Service.paymentParams, Service.adapterCreatePayment, Prog.bind_eq, succeed,
    hread, Prog.ofExcept_ok, Prog.ret_bind]
  rw [alone_bind, alone_mapError, alone_mapError, hrun]
  rfl

/-- A payment that succeeds read the price. -/
theorem payFor_reads {plan : SubscriptionPlan} {redirectURL : String} {m periodEnd : Int}
    {sub : MerchantSubscription} {n : ℕ} {r : Service.SubscriptionPaymentResponse}
    (h : (subscriptionEngine.alone envs (payFor s plan m redirectURL periodEnd sub) n
      ⟨w, .idle⟩).1 = .ok r) :
    ∃ row : PaymentRow,
      Money.setString (Money.clear (decimalString plan.priceUSD)) = some row.price := by
  have hpays := payFor_stores s plan m redirectURL periodEnd sub w.subscriptions envs n
    ⟨w, .idle⟩ rfl
  generalize subscriptionEngine.alone envs (payFor s plan m redirectURL periodEnd sub) n
    ⟨w, .idle⟩ = run at hpays h
  obtain ⟨x, n', v⟩ := run
  cases h
  rw [Ends] at hpays
  obtain ⟨-, row, -, -, -, hread⟩ := hpays
  exact ⟨row, hread⟩

theorem not_taken (h : Orderly w) :
    w.subscriptions.get w.nextSubscriptionID = none ∧ w.payments.get w.nextPaymentID = none := by
  constructor
  · cases hget : w.subscriptions.get w.nextSubscriptionID with
    | none => rfl
    | some r =>
      obtain ⟨hr, hid⟩ := Table.get_eq_some hget
      have := h.numbered.subscriptions r hr
      omega
  · cases hget : w.payments.get w.nextPaymentID with
    | none => rfl
    | some p =>
      obtain ⟨hp, hid⟩ := Table.get_eq_some hget
      have := h.numbered.payments p hp
      omega

end Payments

/-- The merchant has an active subscription to the plan. -/
def HasPlan (m : Int) (planID : String) (w : SubscriptionWorld) : Prop :=
  ∃ r ∈ w.subscriptions.rows, r.merchantID = m ∧ r.status = .active ∧ r.planID = planID

/-- A checkout of the merchant waits for its payment. -/
def Waits (m : Int) (uuid : String) (w : SubscriptionWorld) : Prop :=
  ∃ r ∈ w.subscriptions.rows, r.merchantID = m ∧ r.status = .pendingPayment ∧ r.uuid = uuid

/-- The database answers, UUIDs are new, and the operator takes payments. -/
structure Available (s : Service) (envs : ℕ → SubscriptionEnv) (w : SubscriptionWorld)
    (redirectURL : String) : Prop where
  answered : ∀ n, (envs n).fate = .done
  fresh : ∀ n, ∀ r ∈ w.subscriptions.rows, r.uuid ≠ (envs n).uuid
  operator : (w.merchants.get s.adminMerchantID).isSome = true
  accepts : s.validURL redirectURL = true

/-- A checkout succeeds now, and in whatever follows the merchant has the plan it
had for as long as the checkout waits. -/
def Service.Obtainable (s : Service) (envs : ℕ → SubscriptionEnv) (cfg : SubscriptionConfig)
    (m : Int) (planID redirectURL : String) : Prop :=
  ∃ r, (s.checkout envs cfg.world m planID redirectURL).1 = .ok r ∧
    ∀ fs, Waits m r.subscriptionUUID (s.system.run
        ⟨(s.checkout envs cfg.world m planID redirectURL).2.2.world, cfg.threads⟩ fs).world →
      ∀ q, HasPlan m q (s.system.run
        ⟨(s.checkout envs cfg.world m planID redirectURL).2.2.world, cfg.threads⟩ fs).world ↔
          HasPlan m q cfg.world

section Upgrades

variable {s : Service} {envs : ℕ → SubscriptionEnv} {w : SubscriptionWorld} {m : Int}
  {planID redirectURL : String} {plan : SubscriptionPlan} {cfg : SubscriptionConfig}

theorem orderly_run (hcfg : s.shares.Holds cfg) (h : Orderly cfg.world)
    (es : List SubscriptionEvent) : Orderly (s.system.run cfg es).world :=
  s.shares.invariant (fun _ env _ hc hv => hv.perform hc env) (fun m _ hw => hw.move m) hcfg h es

/-- A checkout leaves a world that the other calls can go on in. -/
theorem checkout_leaves (s : Service) (envs : ℕ → SubscriptionEnv) (h : Orderly w) (m : Int)
    (planID redirectURL : String) :
    Later w (s.checkout envs w m planID redirectURL).2.2.world ∧
      Orderly (s.checkout envs w m planID redirectURL).2.2.world := by
  have hpromises := (promises_createSubscriptionPayment (l := .cancelPlan m) (w := w) s m planID
    redirectURL).meets
  constructor
  · exact s.shares.alone_invariant (I := Later w)
      (fun c env v hc hv => hv.trans (later_perform hc env)) envs 0 hpromises (.refl w)
  · exact s.shares.alone_invariant (I := Orderly)
      (fun c env v hc hv => hv.perform hc env) envs 0 hpromises h

/-- Beside a checkout that waits no plan is active. -/
theorem no_plan_of_waits (h : Orderly w) {uuid q : String} (hwaits : Waits m uuid w) :
    ¬ HasPlan m q w := by
  obtain ⟨r, hr, hmerchant, hpending, -⟩ := hwaits
  rintro ⟨r', hr', hmerchant', hactive, -⟩
  have hopen : r.status.isOpen = true := by
    rw [hpending]
    rfl
  have hopen' : r'.status.isOpen = true := by
    rw [hactive]
    rfl
  have hid := h.oneOpen r hr r' hr' (hmerchant.trans hmerchant'.symm) hopen hopen'
  have hsame : r = r' := Table.eq_of_key_eq hr hr' hid
  rw [hsame, hactive] at hpending
  cases hpending

theorem no_plan_of_free (h : w.openSubscriptions m = []) {q : String} : ¬ HasPlan m q w := by
  rintro ⟨r, hr, hmerchant, hactive, -⟩
  have hopen : r.status.isOpen = true := by
    rw [hactive]
    rfl
  have hmem := mem_openSubscriptions.mpr ⟨hr, hmerchant, hopen⟩
  rw [h] at hmem
  cases hmem

/-- A checkout that succeeds found nothing open, and a price without cents. -/
theorem checkout_needs {r : Service.SubscriptionPaymentResponse}
    (hplan : w.getPlan planID = some plan) (hprice : 0 < plan.priceUSD)
    (hdone : ∀ n, (envs n).fate = .done)
    (hok : (s.checkout envs w m planID redirectURL).1 = .ok r) :
    w.openSubscriptions m = [] ∧ plan.priceUSD % 100 = 0 := by
  obtain ⟨p, t, periodEnd, -, -, -, hfits, hrun⟩ :=
    checkout_inserts s m redirectURL hplan hprice (hdone 0) (hdone 2)
  rw [hrun] at hok
  rcases answer_inserted (atTime w t) p (envs 6) with
    ⟨e, he, -⟩ | ⟨hsub, -, hfit⟩
  · rw [he] at hok
    cases hok
  · rw [hsub] at hok
    refine ⟨(hfits.mp hfit).free, ?_⟩
    obtain ⟨row, hread⟩ := payFor_reads hok
    rw [setString_decimalString (by omega)] at hread
    split at hread
    · assumption
    · cases hread

theorem checkout_succeeds (h : Orderly w) (hplan : w.getPlan planID = some plan)
    (hprice : 0 < plan.priceUSD) (hwhole : plan.priceUSD % 100 = 0)
    (hmerchant : (w.merchants.get m).isSome = true) (havailable : Available s envs w redirectURL)
    (hfree : w.openSubscriptions m = []) :
    ∃ r, (s.checkout envs w m planID redirectURL).1 = .ok r := by
  obtain ⟨p, t, periodEnd, -, -, -, hfits, hrun⟩ := checkout_inserts s m redirectURL hplan hprice
    (havailable.answered 0) (havailable.answered 2)
  have hinsertable : Insertable w m (envs 3).uuid :=
    ⟨hmerchant, (not_taken h).1, havailable.fresh 3, hfree⟩
  have hlands : (envs 6).fate ≠ .refused := by
    rw [havailable.answered 6]
    intro h
    cases h
  have hfit := hfits.mpr hinsertable
  rw [hrun]
  rcases answer_inserted (atTime w t) p (envs 6) with
    ⟨e, -, hnot | hunfit⟩ | ⟨hsub, -, -⟩
  · exact absurd (havailable.answered 6) hnot
  · rw [hfit] at hunfit
    cases hunfit
  · rw [hsub]
    have hinserted : subscriptionEngine.autocommit (.createSubscription p) (envs 6) (atTime w t) =
        { atTime w t with
          subscriptions := w.subscriptions.insert ((atTime w t).newSubscription p)
          nextSubscriptionID := w.nextSubscriptionID + 1 } := by
      rw [autocommit_landed hlands, SubscriptionWorld.effect, if_pos hfit]
      rfl
    rw [hinserted]
    obtain ⟨r, k, v, hpaid⟩ := payFor_succeeds (w := { atTime w t with
        subscriptions := w.subscriptions.insert ((atTime w t).newSubscription p)
        nextSubscriptionID := w.nextSubscriptionID + 1 })
      havailable.answered havailable.operator havailable.accepts hprice hwhole
      (not_taken h).2 m periodEnd ((atTime w t).newSubscription p) 7
    exact ⟨r, congrArg Prod.fst hpaid⟩

/-- With something open nothing is bought; without, the merchant has no plan to lose. -/
theorem obtainable_iff_of_orderly (hcfg : s.shares.Holds cfg) (h : Orderly cfg.world)
    (hplan : cfg.world.getPlan planID = some plan) (hprice : 0 < plan.priceUSD)
    (hmerchant : (cfg.world.merchants.get m).isSome = true)
    (havailable : Available s envs cfg.world redirectURL) :
    s.Obtainable envs cfg m planID redirectURL ↔
      cfg.world.openSubscriptions m = [] ∧ plan.priceUSD % 100 = 0 := by
  constructor
  · rintro ⟨r, hok, -⟩
    exact checkout_needs hplan hprice havailable.answered hok
  · rintro ⟨hfree, hwhole⟩
    obtain ⟨r, hok⟩ := checkout_succeeds h hplan hprice hwhole hmerchant havailable hfree
    refine ⟨r, hok, fun fs hwaits q => ?_⟩
    obtain ⟨hlater, hafter⟩ := checkout_leaves s envs h m planID redirectURL
    have horderly := orderly_run (s.shares.moved hcfg hlater) hafter fs
    constructor
    · intro hhas
      exact absurd hhas (no_plan_of_waits horderly hwaits)
    · intro hhas
      exact absurd hhas (no_plan_of_free hfree)

/-- After any history a plan with a price can be bought exactly by a merchant
with no open subscription, and for a whole number of dollars. -/
theorem upgrade_obtainable_iff (s : Service) (w : SubscriptionWorld) (hw : Orderly w)
    (es : List SubscriptionEvent) (envs : ℕ → SubscriptionEnv) (m : Int)
    (planID redirectURL : String) (plan : SubscriptionPlan)
    (hplan : (s.system.run ⟨w, []⟩ es).world.getPlan planID = some plan)
    (hprice : 0 < plan.priceUSD)
    (hmerchant : ((s.system.run ⟨w, []⟩ es).world.merchants.get m).isSome = true)
    (havailable : Available s envs (s.system.run ⟨w, []⟩ es).world redirectURL) :
    s.Obtainable envs (s.system.run ⟨w, []⟩ es) m planID redirectURL ↔
      (s.system.run ⟨w, []⟩ es).world.openSubscriptions m = [] ∧ plan.priceUSD % 100 = 0 := by
  have hstart := s.holds_of_no_threads w
  exact obtainable_iff_of_orderly (s.shares.run hstart es).1 (orderly_run hstart hw es) hplan
    hprice hmerchant havailable

end Upgrades

open Market

/-- Every later checkout draws this UUID. -/
def secondTry : ℕ → SubscriptionEnv := fun _ => { uuid := "second" }

theorem orderly_tables : Orderly tables := by
  refine ⟨?_, ?_, ?_⟩
  · intro r hr
    cases hr
  · intro r hr
    cases hr
  · intro p hp
    cases hp

theorem available_tables (es : List SubscriptionEvent)
    (hfresh : ∀ r ∈ (operator.system.run ⟨tables, []⟩ es).world.subscriptions.rows,
      r.uuid ≠ "second")
    (hoperator : ((operator.system.run ⟨tables, []⟩ es).world.merchants.get 1).isSome = true) :
    Available operator secondTry (operator.system.run ⟨tables, []⟩ es).world "https://back" :=
  ⟨fun _ => rfl, fun _ => hfresh, hoperator, rfl⟩

/-- Merchant 2 starts a checkout and leaves it unpaid. -/
def abandoned : List SubscriptionEvent :=
  .start (.upgradePlan 2 "pro" "https://back") :: List.replicate 10 (.exec 0 {})

/-- Then only merchant 1 may still buy. -/
theorem upgrade_obtainable_sample :
    (operator.Obtainable secondTry (operator.system.run ⟨tables, []⟩ abandoned) 2 "pro"
        "https://back" ↔
      (operator.system.run ⟨tables, []⟩ abandoned).world.openSubscriptions 2 = [] ∧
        pro.priceUSD % 100 = 0) ∧
    (operator.Obtainable secondTry (operator.system.run ⟨tables, []⟩ abandoned) 1 "pro"
        "https://back" ↔
      (operator.system.run ⟨tables, []⟩ abandoned).world.openSubscriptions 1 = [] ∧
        pro.priceUSD % 100 = 0) ∧
    (operator.system.run ⟨tables, []⟩ abandoned).world.openSubscriptions 2 ≠ [] ∧
    (operator.system.run ⟨tables, []⟩ abandoned).world.openSubscriptions 1 = [] := by
  have hplan : (operator.system.run ⟨tables, []⟩ abandoned).world.getPlan "pro" = some pro := by
    decide +kernel
  have havailable := available_tables abandoned (by decide +kernel) (by decide +kernel)
  exact ⟨upgrade_obtainable_iff operator tables orderly_tables abandoned secondTry 2 "pro"
      "https://back" pro hplan (by decide) (by decide +kernel) havailable,
    upgrade_obtainable_iff operator tables orderly_tables abandoned secondTry 1 "pro"
      "https://back" pro hplan (by decide) (by decide +kernel) havailable,
    by decide +kernel, by decide +kernel⟩

/-- After a checkout that was never paid no other one succeeds. -/
theorem abandoned_checkout_blocks_upgrades :
    ¬ ∀ (s : Service) (w : SubscriptionWorld), Orderly w → ∀ (es : List SubscriptionEvent)
      (envs : ℕ → SubscriptionEnv) (m : Int) (planID redirectURL : String)
      (plan : SubscriptionPlan),
        (s.system.run ⟨w, []⟩ es).world.getPlan planID = some plan → 0 < plan.priceUSD →
        ((s.system.run ⟨w, []⟩ es).world.merchants.get m).isSome = true →
        Available s envs (s.system.run ⟨w, []⟩ es).world redirectURL →
          s.Obtainable envs (s.system.run ⟨w, []⟩ es) m planID redirectURL := by
  intro h
  have hplan : (operator.system.run ⟨tables, []⟩ abandoned).world.getPlan "pro" = some pro := by
    decide +kernel
  have hopen : (operator.system.run ⟨tables, []⟩ abandoned).world.openSubscriptions 2 ≠ [] := by
    decide +kernel
  obtain ⟨r, hok, -⟩ := h operator tables orderly_tables abandoned secondTry 2 "pro"
    "https://back" pro hplan (by decide) (by decide +kernel)
    (available_tables abandoned (by decide +kernel) (by decide +kernel))
  exact hopen (checkout_needs hplan (by decide) (fun _ => rfl) hok).1

end Subscription

end CryptoLink
