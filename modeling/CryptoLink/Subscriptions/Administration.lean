import CryptoLink.Subscriptions.Promises

/-!
# Plans under administration

Administrators create and edit plans while merchants use them. An edit may take
a plan out of sale, whoever is subscribed to it. Every call runs its statements
on the pool.
-/

namespace CryptoLink

open KeyedTables ReadCommitted StatementPrograms System

namespace Subscription

/-- The four readers of a merchant's plan. -/
inductive LimitCheck where
  | payment (merchantID : Int)
  | api (merchantID : Int)
  | volume (merchantID additionalVolumeUSD : Int)
  | percentage (merchantID : Int)

namespace LimitCheck

def merchantID : LimitCheck → Int
  | .payment m => m
  | .api m => m
  | .volume m _ => m
  | .percentage m => m

def program : LimitCheck → SubscriptionCall Unit
  | .payment m => checkPaymentLimit m
  | .api m => checkAPILimit m
  | .volume m volumeUSD => checkVolumeLimit m volumeUSD
  | .percentage m => Service.ended (getVolumePercentage m)

end LimitCheck

/-- The calls that can be started. -/
inductive AdminOperation where
  | serve (l : Operation)
  | createPlan (plan : SubscriptionPlan)
  | updatePlan (planID : String) (plan : SubscriptionPlan)
  | check (c : LimitCheck)

namespace Service

def administer (s : Service) : AdminOperation → SubscriptionCall Unit
  | .serve l => s.program l
  | .createPlan plan => ended (createPlan plan)
  | .updatePlan planID plan => ended (updatePlan planID plan)
  | .check c => c.program

def administration (s : Service) :
    System SubscriptionStmt SubscriptionReply SubscriptionEnv SubscriptionWorld Empty Err
      AdminOperation Move where
  engine := subscriptionEngine
  program := s.administer
  move := Move.apply

end Service

abbrev AdminConfig :=
  Config SubscriptionStmt SubscriptionReply SubscriptionEnv SubscriptionWorld Empty Err
    AdminOperation

abbrev AdminEvent := Event SubscriptionEnv Move AdminOperation

/-- The call reads the merchant's plan, and a plan that was not loaded is a
panic; with the plan it reads the usage at most, and fails only at a limit. -/
def UsesPlan {α : Type} (m : Int) (p : SubscriptionCall α) : Prop :=
  ∃ use : SubscriptionPlan → SubscriptionCall α,
    p = ((getActiveSubscription m).bind fun found =>
      match found.2 with
      | none => .fail nilPlan
      | some plan => use plan) ∧
    ∀ plan, (∃ a, use plan = .ret a) ∨ ∃ f, use plan = (getCurrentUsage m).bind f ∧
      ∀ u, (∃ a, f u = .ret a) ∨ ∃ what, f u = .fail (limitReached what)

theorem usesPlan_checkPaymentLimit (m : Int) : UsesPlan m (checkPaymentLimit m) := by
  refine ⟨_, rfl, fun plan => ?_⟩
  cases plan.maxPaymentsMonthly with
  | none => exact .inl ⟨(), rfl⟩
  | some limit =>
    by_cases hunlimited : limit = -1
    · exact .inl ⟨(), if_pos hunlimited⟩
    · refine .inr ⟨_, if_neg hunlimited, fun u => ?_⟩
      by_cases hreached : limit ≤ u.paymentCount
      · exact .inr ⟨_, if_pos hreached⟩
      · exact .inl ⟨(), if_neg hreached⟩

theorem usesPlan_checkAPILimit (m : Int) : UsesPlan m (checkAPILimit m) := by
  refine ⟨_, rfl, fun plan => ?_⟩
  cases plan.maxAPICallsMonthly with
  | none => exact .inl ⟨(), rfl⟩
  | some limit =>
    by_cases hunlimited : limit = -1
    · exact .inl ⟨(), if_pos hunlimited⟩
    · refine .inr ⟨_, if_neg hunlimited, fun u => ?_⟩
      by_cases hreached : limit ≤ u.apiCallsCount
      · exact .inr ⟨_, if_pos hreached⟩
      · exact .inl ⟨(), if_neg hreached⟩

theorem usesPlan_checkVolumeLimit (m volumeUSD : Int) :
    UsesPlan m (checkVolumeLimit m volumeUSD) := by
  refine ⟨_, rfl, fun plan => ?_⟩
  cases plan.maxVolumeMonthlyUSD with
  | none => exact .inl ⟨(), rfl⟩
  | some limit =>
    refine .inr ⟨_, rfl, fun u => ?_⟩
    by_cases hreached : limit < u.paymentVolumeUSD + volumeUSD
    · exact .inr ⟨_, if_pos hreached⟩
    · exact .inl ⟨(), if_neg hreached⟩

theorem usesPlan_getVolumePercentage (m : Int) : UsesPlan m (getVolumePercentage m) := by
  refine ⟨_, rfl, fun plan => ?_⟩
  cases plan.maxVolumeMonthlyUSD with
  | none => exact .inl ⟨0, rfl⟩
  | some limit =>
    by_cases hunlimited : limit = 0
    · exact .inl ⟨0, if_pos hunlimited⟩
    · exact .inr ⟨_, if_neg hunlimited, fun u => .inl ⟨_, rfl⟩⟩

theorem UsesPlan.ended {α : Type} {m : Int} {p : SubscriptionCall α} (h : UsesPlan m p) :
    UsesPlan m (Service.ended p) := by
  obtain ⟨use, rfl, huse⟩ := h
  refine ⟨fun plan => Service.ended (use plan), ?_, fun plan => ?_⟩
  · rw [Service.ended, Prog.bind_assoc]
    congr 1
    funext found
    cases found.2 with
    | none => rfl
    | some plan => rfl
  · rcases huse plan with ⟨a, hnothing⟩ | ⟨f, hreads, hf⟩
    · exact .inl ⟨(), congrArg Service.ended hnothing⟩
    · right
      refine ⟨fun u => Service.ended (f u), ?_, fun u => ?_⟩
      · exact (congrArg Service.ended hreads).trans (Prog.bind_assoc _ _ _)
      · rcases hf u with ⟨a, hpass⟩ | ⟨what, hfail⟩
        · exact .inl ⟨(), congrArg Service.ended hpass⟩
        · exact .inr ⟨what, congrArg Service.ended hfail⟩

theorem LimitCheck.usesPlan (c : LimitCheck) : UsesPlan c.merchantID c.program := by
  cases c with
  | payment m => exact usesPlan_checkPaymentLimit m
  | api m => exact usesPlan_checkAPILimit m
  | volume m volumeUSD => exact usesPlan_checkVolumeLimit m volumeUSD
  | percentage m => exact (usesPlan_getVolumePercentage m).ended

def OnPool : Cmd SubscriptionStmt → Prop
  | .stmt .pool _ => True
  | _ => False

theorem OnPool.of_harmless {α : Type} {p : SubscriptionCall α} (h : Issues Harmless p) :
    Issues OnPool p := by
  apply h.mono
  intro c hc
  have hany := hc ⟨.empty, .empty, .empty, 0, .empty, .empty, 0, 0⟩
  cases c with
  | stmt q st =>
    cases q with
    | pool => exact trivial
    | tx => exact hany.elim
  | _ => exact hany.elim

theorem UsesPlan.onPool {α : Type} {m : Int} {p : SubscriptionCall α} (h : UsesPlan m p) :
    Issues OnPool p := by
  obtain ⟨use, rfl, huse⟩ := h
  apply (OnPool.of_harmless (getActiveSubscription_harmless m)).bind
  rintro ⟨sub, plan⟩
  cases plan with
  | none => exact trivial
  | some plan =>
    show Issues OnPool (use plan)
    rcases huse plan with ⟨a, hnothing⟩ | ⟨f, hreads, hf⟩
    · rw [hnothing]
      exact trivial
    · rw [hreads]
      apply (OnPool.of_harmless (getCurrentUsage_harmless m)).bind
      intro usage
      rcases hf usage with ⟨a, hpass⟩ | ⟨what, hfail⟩
      · rw [hpass]
        exact trivial
      · rw [hfail]
        exact trivial

theorem query_onPool (st : SubscriptionStmt) : Issues OnPool (query st) :=
  (Issues.ask_iff _).mpr trivial

/-- A statement and what its answer is wrapped in. -/
theorem query_succeed_onPool {α : Type} (st : SubscriptionStmt)
    (f : SubscriptionReply st → Except Err α) :
    Issues OnPool ((query st).bind fun r => succeed (f r)) :=
  (query_onPool st).bind fun r => Issues.ofExcept (f r)

theorem ended_onPool {α : Type} {p : SubscriptionCall α} (h : Issues OnPool p) :
    Issues OnPool (Service.ended p) :=
  h.bind fun _ => trivial

theorem createSubscription_onPool (m : Int) (planID : String) (periodStart periodEnd : Int) :
    Issues OnPool (createSubscription m planID periodStart periodEnd) := by
  apply (query_succeed_onPool (.getPlan planID) _).bind
  intro plan
  apply (query_onPool .newUUID).bind
  intro uuid
  exact (query_onPool .timeNow).bind fun _ => (query_onPool .timeNow).bind fun _ =>
    query_succeed_onPool _ _

theorem createPayment_onPool (s : Service) (m : Int) (props : CreatePaymentProps) :
    Issues OnPool (s.createPayment m props) := by
  apply (Issues.ofExcept _).bind
  intro _
  apply (query_onPool (.getMerchantByID m)).bind
  intro mt
  apply (Issues.ofExcept _).bind
  intro _
  apply (query_onPool .timeNow).bind
  intro now
  apply (query_onPool _).bind
  intro p
  exact (Issues.ofExcept _).bind fun _ => (Issues.ofExcept _).bind fun _ => trivial

theorem adapterCreatePayment_onPool (s : Service) (params : Service.PaymentParams) :
    Issues OnPool (s.adapterCreatePayment params) := by
  apply (Issues.ofExcept _).bind
  intro amount
  apply Issues.mapError
  exact createPayment_onPool s _ _

section Purchase

-- Prices are not to be computed to see which calls follow.
attribute [local irreducible] Issues

theorem createSubscriptionPayment_onPool (s : Service) (m : Int) (planID redirectURL : String) :
    Issues OnPool (s.createSubscriptionPayment m planID redirectURL) := by
  apply Issues.bind (Issues.mapError _ (query_succeed_onPool (.getPlan planID) _))
  intro plan
  split
  · apply (query_onPool .timeNow).bind
    intro now
    exact (createSubscription_onPool _ _ _ _).bind fun _ => Issues.ret _
  · apply (query_onPool .timeNow).bind
    intro now
    apply Issues.bind (Issues.mapError _ (createSubscription_onPool _ _ _ _))
    intro sub
    exact Issues.bind (Issues.mapError _ (adapterCreatePayment_onPool s _)) fun _ => Issues.ret _

end Purchase

theorem handlePaymentWebhook_onPool (s : Service) (paymentID : Int) :
    Issues OnPool (s.handlePaymentWebhook paymentID) := by
  apply (query_onPool (.getPaymentMetadata paymentID)).bind
  intro fetched
  apply (Issues.ofExcept _).bind
  intro metadata
  split
  · exact trivial
  · split
    · exact trivial
    · split
      · exact trivial
      · apply (query_onPool _).bind
        intro found
        apply (Issues.ofExcept _).bind
        rintro ⟨id, status⟩
        show Issues OnPool (if status ≠ .pendingPayment then _ else _)
        split
        · exact trivial
        · apply Issues.mapError
          exact (query_onPool .timeNow).bind fun _ => query_succeed_onPool _ _

theorem processPaymentStatusUpdate_onPool (s : Service) (m paymentID : Int) :
    Issues OnPool (s.processPaymentStatusUpdate m paymentID) := by
  apply (query_onPool (.getMerchantByID m)).bind
  intro found
  apply (Issues.ofExcept _).bind
  intro mt
  split
  · exact trivial
  apply (query_onPool (.getDetailedPayment m paymentID)).bind
  intro detailed
  apply (Issues.ofExcept _).bind
  intro p
  split
  · exact trivial
  apply (query_onPool _).bind
  intro sent
  cases sent with
  | error e => exact trivial
  | ok _ =>
    apply (query_onPool .timeNow).bind
    intro now
    apply (query_onPool _).bind
    intro stamped
    apply (Issues.ofExcept _).bind
    intro _
    split
    · exact (Issues.attempt (handlePaymentWebhook_onPool s p.id)).bind fun _ => trivial
    · exact trivial

theorem assignMerchantPlan_onPool (m : Int) (planID : String) :
    Issues OnPool (assignMerchantPlan m planID) := by
  apply Issues.bind (Issues.mapError _ (query_succeed_onPool (.getPlanByID planID) _))
  intro plan
  apply (query_onPool (.merchantExists m)).bind
  intro found
  split
  · apply (query_onPool (.deactivateSubscriptions m)).bind
    intro deactivated
    apply (Issues.ofExcept _).bind
    intro _
    apply (query_onPool .timeNow).bind
    intro now
    exact (query_onPool .newUUID).bind fun _ => query_succeed_onPool _ _
  · exact trivial

theorem Service.program_onPool (s : Service) (l : Operation) : Issues OnPool (s.program l) := by
  cases l with
  | upgradePlan m planID redirectURL =>
    apply ended_onPool
    rw [Service.upgradePlan]
    split
    · exact trivial
    · split
      · exact trivial
      · exact createSubscriptionPayment_onPool s m planID redirectURL
  | cancelPlan m => exact OnPool.of_harmless (cancelPlan_harmless m)
  | assignMerchantPlan m planID => exact assignMerchantPlan_onPool m planID
  | paymentStatusUpdate m id => exact processPaymentStatusUpdate_onPool s m id
  | createPayment m props => exact ended_onPool (createPayment_onPool s m props)
  | enforceLimits m price => exact OnPool.of_harmless (enforceLimits_harmless m price)
  | countConfirmed tx status => exact OnPool.of_harmless (countConfirmed_harmless tx status)

theorem Service.administer_onPool (s : Service) (l : AdminOperation) :
    Issues OnPool (s.administer l) := by
  cases l with
  | serve l => exact s.program_onPool l
  | createPlan plan =>
    exact ended_onPool ((query_onPool .timeNow).bind fun _ => query_succeed_onPool _ _)
  | updatePlan planID plan =>
    exact ended_onPool ((query_onPool .timeNow).bind fun _ => query_succeed_onPool _ _)
  | check c => exact c.usesPlan.onPool

end Subscription

end CryptoLink
