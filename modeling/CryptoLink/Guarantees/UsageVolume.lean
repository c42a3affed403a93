import CryptoLink.FiatPrices
import CryptoLink.Subscriptions.Service
import CryptoLink.Library.Triples
import CryptoLink.Repository.Replies
import CryptoLink.Calls
import Mathlib.Data.Rat.Floor
import Mathlib.Tactic.Linarith
import Mathlib.Tactic.FieldSimp
import Mathlib.Tactic.Ring

/-!
# The unit of the subscription volume

A confirmation adds the digits of its amount in cents to a column of dollars,
and a new payment is checked with its price in whatever currency it has. Both
come out as dollars only where the numbers happen to agree.
-/

namespace CryptoLink

open KeyedTables ReadCommitted StatementPrograms RankedListings Engine

namespace Subscription

/-- The volume of a usage period, in hundredths. -/
def volume (key : UsageKey) (w : SubscriptionWorld) : Int :=
  match w.usage.get key with
  | none => 0
  | some u => u.paymentVolumeUSD

/-- A transaction of merchant `m`, as it is read from its row. -/
structure Confirmed (s : CryptoLink.Service) (m : Int) where
  row : TransactionRow
  tx : Transaction
  read : s.entryToTransaction row = .ok tx
  merchant : tx.merchantID = m

/-- The amount as a decimal number of dollars. -/
def dollars (tx : Transaction) : ℚ := tx.usdAmount.value / 10 ^ tx.usdAmount.decimals.toNat

/-- The tables after the usage of one confirmed payment is counted. -/
def afterConfirmed (w : SubscriptionWorld) {s : CryptoLink.Service} {m : Int}
    (c : Confirmed s m × (ℕ → SubscriptionEnv)) : SubscriptionWorld :=
  (subscriptionEngine.alone c.2 (countConfirmed c.1.tx .success) 0 ⟨w, .idle⟩).2.2.world

/-- Every confirmation adds its dollars to the volume. -/
def GrowsByDollars (key : UsageKey) {s : CryptoLink.Service} {m : Int} :
    SubscriptionWorld → List (Confirmed s m × (ℕ → SubscriptionEnv)) → Prop
  | _, [] => True
  | w, c :: cs =>
      ((volume key (afterConfirmed w c) - volume key w : Int) : ℚ) / 100 = dollars c.1.tx ∧
        GrowsByDollars key (afterConfirmed w c) cs

/-- Whatever the limit and the volume so far: the check of a price refuses it
exactly if the dollars go beyond the limit. -/
def ComparesDollars (m : Int) (price usd : ℚ) : Prop :=
  ∀ (w : SubscriptionWorld) (sub : MerchantSubscription) (plan : SubscriptionPlan) (limit : Int)
    (u : UsageTracking), w.getActiveSubscription m = some sub → w.getPlan sub.planID = some plan →
    plan.maxVolumeMonthlyUSD = some limit → w.getCurrentUsage m w.clock = some u →
    ((∃ e, (subscriptionEngine.alone (fun _ => {}) (checkVolumeLimit m (roundCents price)) 0
        ⟨w, .idle⟩).1 = .error e ∧ e.is .errLimitExceeded = true) ↔
      (limit : ℚ) / 100 < (u.paymentVolumeUSD : ℚ) / 100 + usd)

theorem confirmedVolume_eq (tx : Transaction) : confirmedVolume tx = 100 * tx.usdAmount.value := by
  rw [confirmedVolume, Money.stringRaw, Money.setString_toString]

variable {key : UsageKey} {s : CryptoLink.Service} {m before added : Int} {w : SubscriptionWorld}

theorem Confirmed.cents (c : Confirmed s m) : c.tx.usdAmount.decimals = 2 := by
  obtain ⟨currency, fee, -, -, htx⟩ := s.entryToTransaction_eq_ok c.read
  rw [htx]
  rfl

theorem volume_congr {w' : SubscriptionWorld} (h : w'.usage = w.usage) :
    volume key w' = volume key w := by
  rw [volume, h, volume]

/-- The volume is what it was. -/
def Unchanged (key : UsageKey) (before : Int)
    (v : View SubscriptionStmt SubscriptionEnv SubscriptionWorld Empty) : Prop :=
  volume key v.world = before

/-- The amount has been added once or not at all. -/
def CountedOnce (key : UsageKey) (before added : Int)
    (v : View SubscriptionStmt SubscriptionEnv SubscriptionWorld Empty) : Prop :=
  volume key v.world = before ∨ volume key v.world = before + added

/-- An increment adds to the period or does not reach it; it answers zero only
if it reached none. -/
theorem volume_increment (key : UsageKey) (m volumeUSD now : Int) (env : SubscriptionEnv)
    (w : SubscriptionWorld) :
    volume key (subscriptionEngine.autocommit (.incrementPaymentUsage m volumeUSD now) env w) =
        volume key w ∨
      volume key (subscriptionEngine.autocommit (.incrementPaymentUsage m volumeUSD now) env w) =
          volume key w + volumeUSD ∧
        subscriptionEngine.reply (.incrementPaymentUsage m volumeUSD now) env w ≠ .ok 0 := by
  by_cases hrefused : env.fate = .refused
  · left
    simp [Engine.autocommit, subscriptionEngine, hrefused]
  by_cases hfits : w.incrementFits m volumeUSD now = true
  · have hworld : (subscriptionEngine.autocommit (.incrementPaymentUsage m volumeUSD now) env
        w).usage = w.usage.updateWhere (SubscriptionWorld.isCurrentUsage m now)
          (SubscriptionWorld.incrementedUsage volumeUSD now)
            (SubscriptionWorld.incrementedUsage_key volumeUSD now) := by
      simp [Engine.autocommit, subscriptionEngine, hrefused, SubscriptionWorld.effect,
        SubscriptionWorld.lasting, hfits]
    cases hget : w.usage.get key with
    | none =>
      left
      rw [volume, volume, hworld, Table.get_updateWhere, hget]
      rfl
    | some u =>
      by_cases hcurrent : SubscriptionWorld.isCurrentUsage m now u = true
      · right
        constructor
        · rw [volume, volume, hworld, Table.get_updateWhere, hget]
          simp [hcurrent, SubscriptionWorld.incrementedUsage]
        · have hmem : u ∈ w.currentUsage m now :=
            List.mem_filter.mpr ⟨(Table.get_eq_some hget).1, hcurrent⟩
          intro hreply
          have hlength : (w.currentUsage m now).length = 0 := by
            simp only [subscriptionEngine, SubscriptionWorld.answer, answered,
              hfits, if_true] at hreply
            split at hreply
            · exact Except.ok.inj hreply
            · cases hreply
          rw [List.length_eq_zero_iff.mp hlength] at hmem
          cases hmem
      · left
        rw [volume, volume, hworld, Table.get_updateWhere, hget]
        simp [hcurrent]
  · left
    apply volume_congr
    simp [Engine.autocommit, subscriptionEngine, hrefused, SubscriptionWorld.effect,
      SubscriptionWorld.lasting, hfits]

/-- A new period starts at zero, as a period that is not there counts. -/
theorem volume_createUsagePeriod (key : UsageKey)
    (m periodStart periodEnd createdAt updatedAt : Int)
    (env : SubscriptionEnv) (w : SubscriptionWorld) :
    volume key (subscriptionEngine.autocommit
      (.createUsagePeriod m periodStart periodEnd createdAt updatedAt) env w) = volume key w := by
  by_cases hrefused : env.fate = .refused
  · simp [Engine.autocommit, subscriptionEngine, hrefused]
  by_cases hfits : w.usageFits ⟨m, periodStart⟩ = true
  · let fresh := SubscriptionWorld.newUsage ⟨m, periodStart⟩ periodEnd createdAt updatedAt
    have hworld : (subscriptionEngine.autocommit
        (.createUsagePeriod m periodStart periodEnd createdAt updatedAt) env w).usage =
          w.usage.insert fresh := by
      simp [Engine.autocommit, subscriptionEngine, hrefused, SubscriptionWorld.effect,
        SubscriptionWorld.lasting, hfits, fresh]
    rw [volume, volume, hworld]
    by_cases hkey : key = ⟨m, periodStart⟩
    · have hnone : w.usage.get ⟨m, periodStart⟩ = none := by
        rw [SubscriptionWorld.usageFits, Bool.and_eq_true] at hfits
        exact Option.isNone_iff_eq_none.mp hfits.2
      have hself : (w.usage.insert fresh).get ⟨m, periodStart⟩ = some fresh :=
        Table.get_insert_self w.usage hnone
      rw [hkey, hself, hnone]
      rfl
    · have hother : (w.usage.insert fresh).get key = w.usage.get key :=
        Table.get_insert_of_ne w.usage hkey
      rw [hother]
  · apply volume_congr
    simp [Engine.autocommit, subscriptionEngine, hrefused, SubscriptionWorld.effect,
      SubscriptionWorld.lasting, hfits]

theorem volume_timeNow (key : UsageKey) (env : SubscriptionEnv) (w : SubscriptionWorld) :
    volume key (subscriptionEngine.autocommit .timeNow env w) = volume key w := by
  apply volume_congr
  by_cases hrefused : env.fate = .refused
  · simp [Engine.autocommit, subscriptionEngine, hrefused]
  · simp [Engine.autocommit, subscriptionEngine, hrefused, SubscriptionWorld.effect,
      SubscriptionWorld.lasting]

theorem timeNow_unchanged :
    subscriptionEngine.Triple (Unchanged key before) (query .timeNow)
      (fun _ => Unchanged key before)
      (CountedOnce key before added) :=
  Triple.ask fun env v hv => (volume_timeNow key env v.world).trans hv

theorem createUsagePeriod_unchanged :
    subscriptionEngine.Triple (Unchanged key before) (createUsagePeriod m)
      (fun _ => Unchanged key before) (CountedOnce key before added) := by
  refine Triple.bind timeNow_unchanged fun now => ?_
  refine Triple.bind (M := fun _ => Unchanged key before)
    (Triple.ask fun env v hv => ?_) fun usage => ?_
  · exact (volume_createUsagePeriod key m _ _ _ _ env v.world).trans hv
  · exact Triple.ofExcept (fun _ _ _ hv => hv) fun _ hv => .inl hv

/-- The second increment runs only if the first reached no period. -/
theorem incrementPaymentUsage_once :
    subscriptionEngine.Triple (Unchanged key before) (incrementPaymentUsage m added)
      (fun _ => CountedOnce key before added) (CountedOnce key before added) := by
  refine Triple.bind timeNow_unchanged fun now => ?_
  refine Triple.bind (M := fun r v => CountedOnce key before added v ∧
    (r = .ok 0 → Unchanged key before v)) (Triple.ask fun env v hv => ?_) fun affected => ?_
  · rcases volume_increment key m added now env v.world with hsame | ⟨hmore, hreached⟩
    · exact ⟨.inl (hsame.trans hv), fun _ => hsame.trans hv⟩
    · refine ⟨.inr (hmore.trans (congrArg (· + added) hv)), fun hzero => ?_⟩
      exact absurd hzero hreached
  refine Triple.bind (M := fun rows v => CountedOnce key before added v ∧
    (rows = 0 → Unchanged key before v)) (Triple.ofExcept ?_ fun _ hv => hv.1) fun rows => ?_
  · intro rows hrows v hv
    refine ⟨hv.1, fun hzero => hv.2 ?_⟩
    cases affected with
    | error e => cases hrows
    | ok n =>
      cases hrows
      rw [hzero]
  · split
    · rename_i hzero
      refine Triple.conseq (P := Unchanged key before) ?_ (fun _ hv => hv.2 hzero)
        (fun _ _ hv => hv) fun _ hv => hv
      refine Triple.bind createUsagePeriod_unchanged fun _ => ?_
      refine Triple.bind timeNow_unchanged fun later => ?_
      refine Triple.bind (M := fun _ => CountedOnce key before added)
        (Triple.ask fun env v hv => ?_) fun again => ?_
      · rcases volume_increment key m added later env v.world with hsame | ⟨hmore, -⟩
        · exact .inl (hsame.trans hv)
        · exact .inr (hmore.trans (congrArg (· + added) hv))
      · refine Triple.bind (M := fun _ => CountedOnce key before added)
          (Triple.ofExcept (fun _ _ _ hv => hv) fun _ hv => hv) fun _ => ?_
        exact Triple.ret fun _ hv => hv
    · exact Triple.ret fun _ hv => hv.1

theorem volume_afterConfirmed (key : UsageKey) (w : SubscriptionWorld)
    (c : Confirmed s m × (ℕ → SubscriptionEnv)) :
    volume key (afterConfirmed w c) = volume key w ∨
      volume key (afterConfirmed w c) = volume key w + 100 * c.1.tx.usdAmount.value := by
  have htriple : subscriptionEngine.Triple (Unchanged key (volume key w))
      (countConfirmed c.1.tx .success)
      (fun _ => CountedOnce key (volume key w) (confirmedVolume c.1.tx))
      (CountedOnce key (volume key w) (confirmedVolume c.1.tx)) := by
    refine Triple.bind (M := fun _ => CountedOnce key (volume key w) (confirmedVolume c.1.tx))
      ?_ fun _ => Triple.ret fun _ hv => hv
    refine Triple.conseq (Triple.attempt incrementPaymentUsage_once) (fun _ hv => hv) ?_
      fun _ hv => hv
    intro x v hv
    cases x with
    | ok _ => exact hv
    | error _ => exact hv
  have hrun := htriple c.2 0 ⟨w, .idle⟩ rfl
  rw [confirmedVolume_eq] at hrun
  rw [afterConfirmed]
  generalize subscriptionEngine.alone c.2 (countConfirmed c.1.tx .success) 0 ⟨w, .idle⟩ = run
    at hrun ⊢
  obtain ⟨e | a, n, v⟩ := run
  · exact hrun
  · exact hrun

theorem grows_once_iff (key : UsageKey) (w : SubscriptionWorld)
    (c : Confirmed s m × (ℕ → SubscriptionEnv)) :
    ((volume key (afterConfirmed w c) - volume key w : Int) : ℚ) / 100 = dollars c.1.tx ↔
      c.1.tx.usdAmount.value = 0 := by
  rw [dollars, c.1.cents]
  rcases volume_afterConfirmed key w c with hsame | hmore
  · rw [hsame, sub_self]
    constructor
    · intro h
      have hzero : (c.1.tx.usdAmount.value : ℚ) = 0 := by
        have : (c.1.tx.usdAmount.value : ℚ) / 100 = 0 := by
          simpa using h.symm
        linarith
      exact_mod_cast hzero
    · intro h
      rw [h]
      norm_num
  · rw [hmore, add_sub_cancel_left]
    constructor
    · intro h
      have hzero : (c.1.tx.usdAmount.value : ℚ) = 0 := by
        rw [show (2 : Int).toNat = 2 from rfl] at h
        push_cast at h
        linarith
      exact_mod_cast hzero
    · intro h
      rw [h]
      norm_num

theorem growsByDollars_iff (key : UsageKey) (w : SubscriptionWorld)
    (cs : List (Confirmed s m × (ℕ → SubscriptionEnv))) :
    GrowsByDollars key w cs ↔ ∀ c ∈ cs, c.1.tx.usdAmount.value = 0 := by
  induction cs generalizing w with
  | nil => simp [GrowsByDollars]
  | cons c cs ih =>
    rw [GrowsByDollars, ih, grows_once_iff, List.forall_mem_cons]

/-- An answered check of a merchant with a limit and a period. -/
theorem alone_checkVolumeLimit {sub : MerchantSubscription} {plan : SubscriptionPlan} {limit : Int}
    {u : UsageTracking} (hsub : w.getActiveSubscription m = some sub)
    (hplan : w.getPlan sub.planID = some plan) (hlimit : plan.maxVolumeMonthlyUSD = some limit)
    (husage : w.getCurrentUsage m w.clock = some u) :
    (subscriptionEngine.alone (fun _ => {}) (checkVolumeLimit m added) 0 ⟨w, .idle⟩).1 =
      if limit < u.paymentVolumeUSD + added then
        .error (limitReached ("Monthly volume limit reached ($" ++
          stringFixed u.paymentVolumeUSD ++ "/$" ++ stringFixed limit ++ ")"))
      else .ok () := by
  have hfound : subscriptionEngine.reply (.getActiveSubscription m) {} w = .ok sub := by
    simp [subscriptionEngine, SubscriptionWorld.answer, answered, hsub, noRows]
  have hloaded : subscriptionEngine.reply (.getPlan sub.planID) {} w = .ok plan := by
    simp [subscriptionEngine, SubscriptionWorld.answer, answered, hplan, noRows]
  have hnow : subscriptionEngine.reply .timeNow {} w = w.clock := by
    simp [subscriptionEngine, SubscriptionWorld.answer]
  have hcurrent : subscriptionEngine.reply (.getCurrentUsage m w.clock) {} w = .ok u := by
    simp [subscriptionEngine, SubscriptionWorld.answer, answered, husage, noRows]
  have hstill : subscriptionEngine.autocommit .timeNow {} w = w := by
    simp [Engine.autocommit, subscriptionEngine, SubscriptionWorld.effect,
      SubscriptionWorld.lasting]
  have hactive : subscriptionEngine.alone (fun _ => {}) (getActiveSubscription m) 0 ⟨w, .idle⟩ =
      (.ok (sub, some plan), 2, ⟨w, .idle⟩) := by
    rw [getActiveSubscription, Prog.bind_eq, Engine.alone_onPool_bind, hfound]
    show subscriptionEngine.alone (fun _ => {}) ((getPlan sub.planID).attempt.bind _) 1
      ⟨w, .idle⟩ = _
    rw [alone_bind, alone_attempt, getPlan, Prog.bind_eq, Engine.alone_onPool_bind, hloaded]
    rfl
  have hused : subscriptionEngine.alone (fun _ => {}) (getCurrentUsage m) 2 ⟨w, .idle⟩ =
      (.ok u, 4, ⟨w, .idle⟩) := by
    rw [getCurrentUsage, Prog.bind_eq, Engine.alone_onPool_bind, hnow, hstill, Prog.bind_eq,
      Engine.alone_onPool_bind, hcurrent]
    rfl
  rw [checkVolumeLimit, Prog.bind_eq, alone_bind, hactive]
  simp only [hlimit, Prog.bind_eq]
  rw [alone_bind, hused]
  show (subscriptionEngine.alone (fun _ => {}) (if limit < u.paymentVolumeUSD + added then
    (Prog.fail (limitReached ("Monthly volume limit reached ($" ++
      stringFixed u.paymentVolumeUSD ++ "/$" ++ stringFixed limit ++ ")")) : SubscriptionCall Unit)
    else pure ()) 4 ⟨w, .idle⟩).1 = _
  by_cases hover : limit < u.paymentVolumeUSD + added
  · rw [if_pos hover, if_pos hover]
    rfl
  · rw [if_neg hover, if_neg hover]
    rfl

/-- One merchant with an active plan of the given limit and nothing used. -/
def limited (m limit : Int) : SubscriptionWorld where
  plans := ⟨[{ id := "starter", name := "Starter", priceUSD := 1900, billingPeriod := "monthly",
               maxPaymentsMonthly := none, maxAPICallsMonthly := none,
               maxVolumeMonthlyUSD := some limit, isActive := true }],
    List.nodup_singleton _⟩
  merchants := ⟨[⟨m, ""⟩], List.nodup_singleton _⟩
  subscriptions := ⟨[{ id := 1, uuid := "u", merchantID := m, planID := "starter",
                       status := .active, currentPeriodStart := 0, currentPeriodEnd := 0,
                       paymentID := none, autoRenew := true, createdAt := 0, updatedAt := 0,
                       cancelledAt := none }],
    List.nodup_singleton _⟩
  nextSubscriptionID := 2
  usage := ⟨[SubscriptionWorld.newUsage ⟨m, 0⟩ 0 0 0], List.nodup_singleton _⟩
  payments := ⟨[], List.nodup_nil⟩
  nextPaymentID := 1
  clock := 0

theorem getActiveSubscription_limited (m limit : Int) :
    (limited m limit).getActiveSubscription m = some
      { id := 1, uuid := "u", merchantID := m, planID := "starter",
        status := .active, currentPeriodStart := 0, currentPeriodEnd := 0,
        paymentID := none, autoRenew := true, createdAt := 0, updatedAt := 0,
        cancelledAt := none } := by
  simp [SubscriptionWorld.getActiveSubscription, SubscriptionWorld.openSubscriptions, limited,
    SubscriptionStatus.isOpen, ranked]

theorem getCurrentUsage_limited (m limit : Int) :
    (limited m limit).getCurrentUsage m (limited m limit).clock =
      some (SubscriptionWorld.newUsage ⟨m, 0⟩ 0 0 0) := by
  simp [SubscriptionWorld.getCurrentUsage, SubscriptionWorld.currentUsage, limited,
    SubscriptionWorld.isCurrentUsage, SubscriptionWorld.newUsage, ranked]

/-- In cents, dollars go beyond a limit exactly if they do when rounded up. -/
theorem beyond_iff (limit v : Int) (usd : ℚ) :
    (limit : ℚ) / 100 < (v : ℚ) / 100 + usd ↔ limit < v + ⌈usd * 100⌉ := by
  have hscaled : (limit : ℚ) / 100 < (v : ℚ) / 100 + usd ↔
      ((limit - v : Int) : ℚ) < usd * 100 := by
    push_cast
    constructor
    · intro h
      linarith
    · intro h
      linarith
  rw [hscaled, ← Int.lt_ceil]
  omega

theorem refused_iff {sub : MerchantSubscription} {plan : SubscriptionPlan} {limit : Int}
    {u : UsageTracking} (hsub : w.getActiveSubscription m = some sub)
    (hplan : w.getPlan sub.planID = some plan) (hlimit : plan.maxVolumeMonthlyUSD = some limit)
    (husage : w.getCurrentUsage m w.clock = some u) :
    (∃ e, (subscriptionEngine.alone (fun _ => {}) (checkVolumeLimit m added) 0
        ⟨w, .idle⟩).1 = .error e ∧ e.is .errLimitExceeded = true) ↔
      limit < u.paymentVolumeUSD + added := by
  rw [alone_checkVolumeLimit hsub hplan hlimit husage]
  by_cases hover : limit < u.paymentVolumeUSD + added
  · rw [if_pos hover]
    exact iff_of_true ⟨_, rfl, rfl⟩ hover
  · rw [if_neg hover]
    apply iff_of_false _ hover
    rintro ⟨e, he, -⟩
    cases he

/-- Some limit tells the price from the dollars, unless they meet in the same
cent. -/
theorem comparesDollars_iff (m : Int) (price usd : ℚ) :
    ComparesDollars m price usd ↔ ⌈usd * 100⌉ = roundCents price := by
  constructor
  · intro h
    have hlimits : ∀ limit : Int, limit < roundCents price ↔ limit < ⌈usd * 100⌉ := by
      intro limit
      have hsub := getActiveSubscription_limited m limit
      have husage := getCurrentUsage_limited m limit
      have hbeyond := h (limited m limit) _ _ limit _ hsub rfl rfl husage
      rw [refused_iff hsub rfl rfl husage, beyond_iff] at hbeyond
      simpa [SubscriptionWorld.newUsage] using hbeyond
    have hbelow := hlimits (roundCents price)
    have habove := hlimits ⌈usd * 100⌉
    omega
  · intro h w sub plan limit u hsub hplan hlimit husage
    rw [refused_iff hsub hplan hlimit husage, beyond_iff, h]

/-- Confirmations add dollars, and a price is checked by its dollars, exactly
if every confirmed amount is zero and the price happens to be the number of its
dollars, rounded up to the cent. -/
theorem volume_in_dollars_iff (key : UsageKey) (w : SubscriptionWorld)
    (cs : List (Confirmed s m × (ℕ → SubscriptionEnv))) (rate : String → ℚ) {currency : String}
    {price : ℚ} {money : Money} (hmoney : Money.fiatFromFloat64 currency price = .ok money) :
    (GrowsByDollars key w cs ∧ ComparesDollars m price (rate currency * (money.value / 100))) ↔
      (∀ c ∈ cs, c.1.tx.usdAmount.value = 0) ∧
        ⌈rate currency * ⌊binary64 (price * 100)⌋⌉ = roundCents price := by
  have hvalue : money.value = ⌊binary64 (price * 100)⌋ := by
    rw [Money.fiatFromFloat64] at hmoney
    split at hmoney
    · cases hmoney
    · cases hmoney
      rfl
  have hdollars : rate currency * ((money.value : ℚ) / 100) * 100 =
      rate currency * ⌊binary64 (price * 100)⌋ := by
    rw [hvalue]
    ring
  rw [growsByDollars_iff, comparesDollars_iff, hdollars]

open Sample

/-- The invoice of the small deployment, over fifty dollars, once it is paid. -/
def fiftyDollars : Confirmed service 7 where
  row := invoice .completed none none none
  tx := CryptoLink.Service.transactionOf (invoice .completed none none none) ether none
  read := by decide
  merchant := rfl

def counted : List (Confirmed service 7 × (ℕ → SubscriptionEnv)) := [(fiftyDollars, fun _ => {})]

theorem volume_in_dollars_iff_sample :
    (GrowsByDollars ⟨7, 0⟩ (limited 7 10000) counted ∧
        ComparesDollars 7 20 ((fun _ => 1) "USD" * (((2000 : Int) : ℚ) / 100))) ↔
      (∀ c ∈ counted, c.1.tx.usdAmount.value = 0) ∧
        ⌈(fun _ : String => (1 : ℚ)) "USD" * ⌊binary64 ((20 : ℚ) * 100)⌋⌉ = roundCents 20 := by
  have hprice : Money.fiatFromFloat64 "USD" 20 = .ok ⟨.fiat, "USD", 2000, 2⟩ := by decide +kernel
  exact volume_in_dollars_iff ⟨7, 0⟩ (limited 7 10000) counted (fun _ => 1) hprice

/-- Fifty dollars that are confirmed do not add fifty to the volume. -/
theorem volume_is_not_in_dollars :
    ¬ ∀ (s : CryptoLink.Service) (m : Int) (key : UsageKey) (w : SubscriptionWorld)
      (cs : List (Confirmed s m × (ℕ → SubscriptionEnv))) (rate : String → ℚ)
      (currency : String) (price : ℚ) (money : Money),
      Money.fiatFromFloat64 currency price = .ok money →
        GrowsByDollars key w cs ∧
          ComparesDollars m price (rate currency * (money.value / 100)) := by
  intro h
  have hprice : Money.fiatFromFloat64 "USD" 20 = .ok ⟨.fiat, "USD", 2000, 2⟩ := by decide +kernel
  obtain ⟨hgrows, -⟩ := h service 7 ⟨7, 0⟩ (limited 7 10000) counted (fun _ => 1) "USD" 20 _ hprice
  rw [growsByDollars_iff] at hgrows
  have hzero := hgrows (fiftyDollars, fun _ => {}) (List.mem_singleton.mpr rfl)
  cases hzero

end Subscription

end CryptoLink
