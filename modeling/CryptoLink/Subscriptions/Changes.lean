import CryptoLink.Subscriptions.Promises

/-!
# One subscription over a run

A subscription appears with an insert, changes its status only when it is
activated or deactivated, and keeps its merchant, its plan and its period.
-/

namespace CryptoLink

open KeyedTables ReadCommitted StatementPrograms RankedListings System

namespace Subscription

/-- What is left alone when a subscription is cancelled or deactivated. -/
structure Closed (r r' : MerchantSubscription) : Prop where
  merchantID : r'.merchantID = r.merchantID
  planID : r'.planID = r.planID
  periodStart : r'.currentPeriodStart = r.currentPeriodStart
  paymentID : r'.paymentID = r.paymentID
  status : r'.status = r.status ∨ r'.status = .cancelled

/-- What a statement makes of the subscription `id`. -/
inductive Change (st : SubscriptionStmt) (w : SubscriptionWorld) (id : Int) :
    Option MerchantSubscription → Prop where
  | same : Change st w id (w.subscriptions.get id)
  | bought (p : CreateSubscriptionParams) (hst : st = .createSubscription p)
      (hfits : w.subscriptionFits p = true) (hid : id = w.nextSubscriptionID)
      (hnone : w.subscriptions.get id = none) : Change st w id (some (w.newSubscription p))
  | assigned (p : CreateSubscriptionParams) (hst : st = .insertAssigned p)
      (hfits : w.subscriptionFits p = true) (hid : id = w.nextSubscriptionID)
      (hnone : w.subscriptions.get id = none) : Change st w id (some (w.newSubscription p))
  | activated (r : MerchantSubscription) (paymentID updatedAt : Int)
      (hst : st = .activateSubscription id paymentID updatedAt)
      (hfits : w.activationFits r paymentID = true) (hsome : w.subscriptions.get id = some r) :
      Change st w id (some (SubscriptionWorld.activatedSubscription paymentID updatedAt r))
  | closed (r r' : MerchantSubscription) (hsome : w.subscriptions.get id = some r)
      (hclosed : Closed r r') : Change st w id (some r')

variable {st : SubscriptionStmt} {w : SubscriptionWorld} {id : Int}

theorem change_insert {p : CreateSubscriptionParams} {w' : SubscriptionWorld}
    (hst : st = .createSubscription p ∨ st = .insertAssigned p)
    (hfits : w.subscriptionFits p = true)
    (hw' : w'.subscriptions = w.subscriptions.insert (w.newSubscription p)) :
    Change st w id (w'.subscriptions.get id) := by
  rw [hw']
  by_cases hid : id = w.nextSubscriptionID
  · have hnone : w.subscriptions.get id = none := by
      simp only [SubscriptionWorld.subscriptionFits, Bool.and_eq_true] at hfits
      rw [hid]
      exact Option.isNone_iff_eq_none.mp hfits.1.2
    have hself : (w.subscriptions.insert (w.newSubscription p)).get id =
        some (w.newSubscription p) := by
      subst hid
      exact Table.get_insert_self w.subscriptions hnone
    rw [hself]
    rcases hst with hst | hst
    · exact .bought p hst hfits hid hnone
    · exact .assigned p hst hfits hid hnone
  · have hother : (w.subscriptions.insert (w.newSubscription p)).get id =
        w.subscriptions.get id := Table.get_insert_of_ne w.subscriptions hid
    rw [hother]
    exact .same

theorem change_autocommit (st : SubscriptionStmt) (env : SubscriptionEnv) (w : SubscriptionWorld)
    (id : Int) (hlands : env.fate ≠ .refused) :
    Change st w id ((subscriptionEngine.autocommit st env w).subscriptions.get id) := by
  rw [autocommit_landed hlands]
  cases st with
  | createSubscription p =>
    rw [SubscriptionWorld.effect]
    split
    · rename_i hfits
      exact change_insert (.inl rfl) hfits rfl
    · exact .same
  | insertAssigned p =>
    rw [SubscriptionWorld.effect]
    split
    · rename_i hfits
      exact change_insert (.inr rfl) hfits rfl
    · exact .same
  | activateSubscription k paymentID updatedAt =>
    rw [SubscriptionWorld.effect]
    split
    · exact .same
    · rename_i r hr
      split
      · rename_i hfits
        show Change _ w id ((w.subscriptions.modify k
          (SubscriptionWorld.activatedSubscription paymentID updatedAt)
          (SubscriptionWorld.activatedSubscription_id paymentID updatedAt)).get id)
        by_cases hid : id = k
        · subst hid
          rw [Table.get_modify_self, hr]
          exact .activated r paymentID updatedAt rfl hfits hr
        · rw [Table.get_modify_of_ne _ _ _ hid]
          exact .same
      · exact .same
  | cancelSubscription k cancelledAt updatedAt =>
    show Change _ w id ((w.subscriptions.modify k
      (SubscriptionWorld.cancelledSubscription cancelledAt updatedAt)
      (SubscriptionWorld.cancelledSubscription_id cancelledAt updatedAt)).get id)
    rw [Table.get_modify]
    cases hget : w.subscriptions.get id with
    | none =>
      rw [Option.map_none, ← hget]
      exact .same
    | some r =>
      by_cases hid : id = k
      · rw [Option.map_some, if_pos hid]
        exact .closed r _ hget ⟨rfl, rfl, rfl, rfl, .inl rfl⟩
      · rw [Option.map_some, if_neg hid, ← hget]
        exact .same
  | deactivateSubscriptions m =>
    show Change _ w id ((w.subscriptions.updateWhere (fun r => r.merchantID = m && r.status.isOpen)
      SubscriptionWorld.deactivatedSubscription
      SubscriptionWorld.deactivatedSubscription_id).get id)
    rw [Table.get_updateWhere]
    cases hget : w.subscriptions.get id with
    | none =>
      rw [Option.map_none, ← hget]
      exact .same
    | some r =>
      rw [Option.map_some]
      split
      · exact .closed r _ hget ⟨rfl, rfl, rfl, rfl, .inr rfl⟩
      · rw [← hget]
        exact .same
  | createUsagePeriod m periodStart periodEnd createdAt updatedAt =>
    rw [SubscriptionWorld.effect]
    split
    · exact .same
    · exact .same
  | incrementPaymentUsage m volumeUSD now =>
    rw [SubscriptionWorld.effect]
    split
    · exact .same
    · exact .same
  | createPayment p =>
    rw [SubscriptionWorld.effect]
    split
    · exact .same
    · exact .same
  | setWebhookTimestamp m k updatedAt =>
    rw [SubscriptionWorld.effect]
    split
    · exact .same
    · exact .same
  | _ => exact .same

theorem move_subscriptions (m : Move) (w : SubscriptionWorld) :
    (m.apply w).subscriptions = w.subscriptions := by
  cases m <;> rfl

/-- A step leaves the table alone, or one statement that was promised changes
one row. -/
theorem Service.change_step (s : Service) {cfg : SubscriptionConfig} (hcfg : s.shares.Holds cfg)
    (e : SubscriptionEvent) (id : Int) :
    (s.system.step cfg e).world.subscriptions.get id = cfg.world.subscriptions.get id ∨
      ∃ a ∈ s.system.executing cfg e, ∃ st, a.cmd = .stmt .pool st ∧ a.env.fate ≠ .refused ∧
        Promised st cfg.world ∧
        Change st cfg.world id ((s.system.step cfg e).world.subscriptions.get id) := by
  rcases step_world_cases s.system cfg e with hs | ⟨m, -, hs⟩ | ⟨i, env, th, c, k, he, hex, hs⟩
  · left
    rw [hs]
  · left
    rw [hs]
    exact congrArg (fun t => Table.get t id) (move_subscriptions m cfg.world)
  · have hpromised : Guaranteed c cfg.world := s.shares.promised hcfg hex
    cases c with
    | stmt q st =>
      cases q with
      | tx => exact hpromised.elim
      | pool =>
        have hworld : (s.system.step cfg e).world =
            subscriptionEngine.autocommit st env cfg.world := hs
        rw [hworld]
        by_cases hrefused : env.fate = .refused
        · left
          rw [autocommit_refused hrefused]
        · right
          rw [he]
          exact ⟨⟨i, env, th, .stmt .pool st⟩, hex.executing_eq, st, rfl, hrefused, hpromised,
            change_autocommit st env cfg.world id hrefused⟩
    | _ => exact hpromised.elim

end Subscription

end CryptoLink
