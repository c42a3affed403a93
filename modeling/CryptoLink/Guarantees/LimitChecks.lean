import CryptoLink.Guarantees.Checkouts
import CryptoLink.Subscriptions.Administration
import CryptoLink.Subscriptions.Changes

/-!
# Checks of the limits

A subscription is found whatever became of its plan, and the plan only while it
is on sale and its query is answered. What is not found is used all the same.
-/

namespace CryptoLink

open KeyedTables ReadCommitted StatementPrograms RankedListings System Engine

namespace Subscription

section Checks

variable {w : SubscriptionWorld} {envs : ℕ → SubscriptionEnv} {m : Int} {α : Type}

/-- The subscription is found, and its plan is not. -/
def Unloaded (envs : ℕ → SubscriptionEnv) (w : SubscriptionWorld) (m : Int) : Prop :=
  ∃ sub, (envs 0).fate = .done ∧ w.getActiveSubscription m = some sub ∧
    ((envs 1).fate ≠ .done ∨ w.getPlan sub.planID = none)

theorem not_nilPlan_of_wrap (e : Err) (message : String) : e.wrap message ≠ nilPlan := by
  intro h
  cases congrArg Err.context h

theorem not_nilPlan_wrapErr {x : Except Err α} {message : String} {e : Err}
    (h : wrapErr message x = .error e) : e ≠ nilPlan := by
  cases x with
  | ok a => cases h
  | error e' =>
    cases h
    exact not_nilPlan_of_wrap e' message

theorem not_nilPlan_orMissing {c : Cause} (hc : Err.of c ≠ nilPlan) {message : String}
    {x : Except Err α} {e : Err} (h : orMissing c message x = .error e) : e ≠ nilPlan := by
  cases x with
  | ok a => cases h
  | error e' =>
    cases h
    split
    · exact hc
    · exact not_nilPlan_of_wrap e' message

theorem getCurrentUsage_fails (m : Int) : FailsOnly (· ≠ nilPlan) (getCurrentUsage m) := by
  refine FailsOnly.bind (FailsOnly.ask _) fun now => ?_
  refine FailsOnly.bind (FailsOnly.ask _) fun usage => ?_
  cases usage with
  | ok u => exact trivial
  | error e =>
    show FailsOnly _ (if e.is .noRows then createUsagePeriod m
      else .fail (e.wrap "failed to get current usage"))
    split
    · refine FailsOnly.bind (FailsOnly.ask _) fun now' => ?_
      refine FailsOnly.bind (FailsOnly.ask _) fun usage => ?_
      exact FailsOnly.ofExcept fun e he => not_nilPlan_wrapErr he
    · exact not_nilPlan_of_wrap e _

theorem autocommit_getActiveSubscription (env : SubscriptionEnv) :
    subscriptionEngine.autocommit (.getActiveSubscription m) env w = w := by
  by_cases hrefused : env.fate = .refused
  · exact autocommit_refused hrefused
  · exact autocommit_landed hrefused

theorem alone_getActiveSubscription_found {sub : MerchantSubscription}
    (hdone : (envs 0).fate = .done) (hsub : w.getActiveSubscription m = some sub) :
    subscriptionEngine.alone envs (getActiveSubscription m) 0 ⟨w, .idle⟩ =
      (.ok (sub, (orMissing .errPlanNotFound "failed to get subscription plan"
        (answered (envs 1).fate .database (noRows (w.getPlan sub.planID)))).toOption), 2,
        ⟨w, .idle⟩) := by
  have hreply : subscriptionEngine.reply (.getActiveSubscription m) (envs 0) w = .ok sub := by
    show answered (envs 0).fate Err.database (noRows (w.getActiveSubscription m)) = .ok sub
    rw [answered, if_pos hdone, hsub]
    rfl
  rw [getActiveSubscription, Prog.bind_eq, Engine.alone_onPool_bind,
    autocommit_getActiveSubscription, hreply]
  show subscriptionEngine.alone envs ((getPlan sub.planID).attempt.bind _) 1 ⟨w, .idle⟩ = _
  rw [alone_bind, alone_attempt, alone_getPlan]
  rfl

theorem alone_getActiveSubscription_missing
    (h : ¬ ∃ sub, (envs 0).fate = .done ∧ w.getActiveSubscription m = some sub) :
    ∃ e, e ≠ nilPlan ∧ subscriptionEngine.alone envs (getActiveSubscription m) 0 ⟨w, .idle⟩ =
      (.error e, 1, ⟨w, .idle⟩) := by
  have hreply : ∃ e, orMissing .errSubscriptionNotFound "failed to get active subscription"
      (subscriptionEngine.reply (.getActiveSubscription m) (envs 0) w) = .error e := by
    show ∃ e, orMissing _ _ (answered (envs 0).fate .database
      (noRows (w.getActiveSubscription m))) = .error e
    by_cases hdone : (envs 0).fate = .done
    · cases hsub : w.getActiveSubscription m with
      | none =>
        rw [answered, if_pos hdone]
        exact ⟨_, rfl⟩
      | some sub => exact absurd ⟨sub, hdone, hsub⟩ h
    · rw [answered, if_neg hdone]
      exact ⟨_, rfl⟩
  obtain ⟨e, he⟩ := hreply
  refine ⟨e, not_nilPlan_orMissing (by decide) he, ?_⟩
  rw [getActiveSubscription, Prog.bind_eq, Engine.alone_onPool_bind,
    autocommit_getActiveSubscription, succeed,
    he]
  rfl

/-- A call that uses the plan panics exactly if it was not loaded. -/
theorem UsesPlan.panics_iff {p : SubscriptionCall α} (h : UsesPlan m p) :
    (subscriptionEngine.alone envs p 0 ⟨w, .idle⟩).1 = .error nilPlan ↔ Unloaded envs w m := by
  obtain ⟨use, rfl, huse⟩ := h
  have hused : ∀ plan, FailsOnly (· ≠ nilPlan) (use plan) := by
    intro plan
    rcases huse plan with ⟨a, hnothing⟩ | ⟨f, hreads, hf⟩
    · rw [hnothing]
      exact trivial
    · rw [hreads]
      refine FailsOnly.bind (getCurrentUsage_fails m) fun u => ?_
      rcases hf u with ⟨a, hpass⟩ | ⟨what, hfail⟩
      · rw [hpass]
        exact trivial
      · rw [hfail]
        exact not_nilPlan_of_wrap _ _
  rw [alone_bind]
  by_cases hsome : ∃ sub, (envs 0).fate = .done ∧ w.getActiveSubscription m = some sub
  · obtain ⟨sub, hdone, hsub⟩ := hsome
    rw [alone_getActiveSubscription_found hdone hsub]
    by_cases hmissing : (envs 1).fate ≠ .done ∨ w.getPlan sub.planID = none
    · have hnone : (orMissing .errPlanNotFound "failed to get subscription plan"
          (answered (envs 1).fate .database (noRows (w.getPlan sub.planID)))).toOption = none := by
        by_cases hanswered : (envs 1).fate = .done
        · rw [answered, if_pos hanswered,
            hmissing.resolve_left (not_not_intro hanswered)]
          rfl
        · rw [answered, if_neg hanswered]
          rfl
      rw [hnone]
      exact iff_of_true rfl ⟨sub, hdone, hsub, hmissing⟩
    · obtain ⟨hanswered, hthere⟩ := not_or.mp hmissing
      obtain ⟨plan, hplan⟩ := Option.ne_none_iff_exists'.mp hthere
      rw [getPlan_answered hplan (not_not.mp hanswered)]
      apply iff_of_false
      · intro hpanic
        exact error_of_alone subscriptionEngine (hused plan) hpanic rfl
      · rintro ⟨sub', -, hsub', hmissing'⟩
        cases hsub.symm.trans hsub'
        exact hmissing hmissing'
  · obtain ⟨e, he, hrun⟩ := alone_getActiveSubscription_missing hsome
    rw [hrun]
    apply iff_of_false
    · intro hpanic
      exact he (Except.error.inj hpanic)
    · rintro ⟨sub, hdone, hsub, -⟩
      exact hsome ⟨sub, hdone, hsub⟩

end Checks

/-- Every open subscription is to a plan on sale. -/
def Offered (w : SubscriptionWorld) : Prop :=
  ∀ r ∈ w.subscriptions.rows, r.status.isOpen = true → (w.getPlan r.planID).isSome = true

/-- The statement takes no plan from an open subscription, and opens none to a
plan that is not on sale. -/
def keepsOffer (w : SubscriptionWorld) : Cmd SubscriptionStmt → Prop
  | .stmt _ (.updatePlan planID plan) => plan.isActive = true ∨
      ∀ r ∈ w.subscriptions.rows, r.status.isOpen = true → r.planID ≠ planID
  | .stmt _ (.createSubscription p) => w.subscriptionFits p = true → p.status.isOpen = true →
      (w.getPlan p.planID).isSome = true
  | .stmt _ (.insertAssigned p) => w.subscriptionFits p = true → p.status.isOpen = true →
      (w.getPlan p.planID).isSome = true
  | .stmt _ (.activateSubscription id paymentID _) => ∀ r ∈ w.subscriptions.get id,
      w.activationFits r paymentID = true → (w.getPlan r.planID).isSome = true
  | _ => True

instance (w : SubscriptionWorld) (c : Cmd SubscriptionStmt) : Decidable (keepsOffer w c) := by
  delta keepsOffer
  induction c using Cmd.casesOn with
  | stmt conn st => induction st using SubscriptionStmt.casesOn <;> infer_instance
  | _ => infer_instance

namespace Service

/-- What the step writes keeps the offer. -/
def KeepsOffer (s : Service) (cfg : AdminConfig) (e : AdminEvent) : Prop :=
  ∀ a ∈ s.administration.executing cfg e, a.env.fate ≠ .refused → keepsOffer cfg.world a.cmd

instance (s : Service) (cfg : AdminConfig) (e : AdminEvent) : Decidable (s.KeepsOffer cfg e) :=
  inferInstanceAs (Decidable (∀ a ∈ s.administration.executing cfg e, a.env.fate ≠ .refused →
    keepsOffer cfg.world a.cmd))

end Service

section Offer

variable {w : SubscriptionWorld} {q : String}

theorem getPlan_eq_some_iff {plan : SubscriptionPlan} :
    w.getPlan q = some plan ↔ w.plans.get q = some plan ∧ plan.isActive = true :=
  Option.filter_eq_some_iff

/-- A plan stays on sale unless an edit takes it off. -/
theorem getPlan_autocommit (st : SubscriptionStmt) {env : SubscriptionEnv}
    (hlands : env.fate ≠ .refused) (h : (w.getPlan q).isSome = true)
    (hst : ∀ plan, st = .updatePlan q plan → plan.isActive = true) :
    ((subscriptionEngine.autocommit st env w).getPlan q).isSome = true := by
  obtain ⟨old, hold⟩ := Option.isSome_iff_exists.mp h
  obtain ⟨hget, hactive⟩ := getPlan_eq_some_iff.mp hold
  have hsame : ∀ w' : SubscriptionWorld, w'.plans = w.plans → (w'.getPlan q).isSome = true := by
    intro w' hplans
    rw [SubscriptionWorld.getPlan, hplans]
    exact h
  rw [autocommit_landed hlands]
  cases st with
  | createPlan plan =>
    have hstill : (w.plans.insert plan).get q = some old := by
      by_cases hid : q = plan.id
      · rw [Table.insert_of_taken w.plans (hid ▸ hget)]
        exact hget
      · rw [Table.get_insert_of_ne w.plans hid]
        exact hget
    exact Option.isSome_iff_exists.mpr ⟨old, getPlan_eq_some_iff.mpr ⟨hstill, hactive⟩⟩
  | updatePlan planID plan =>
    by_cases hid : q = planID
    · subst hid
      have hedited : (w.plans.modify q (SubscriptionWorld.updatedPlan plan)
          (SubscriptionWorld.updatedPlan_id plan)).get q =
            some (SubscriptionWorld.updatedPlan plan old) := by
        rw [Table.get_modify_self, hget]
        rfl
      exact Option.isSome_iff_exists.mpr ⟨_, getPlan_eq_some_iff.mpr ⟨hedited, hst plan rfl⟩⟩
    · have hstill := Table.get_modify_of_ne w.plans (SubscriptionWorld.updatedPlan plan)
        (SubscriptionWorld.updatedPlan_id plan) hid
      exact Option.isSome_iff_exists.mpr
        ⟨old, getPlan_eq_some_iff.mpr ⟨hstill.trans hget, hactive⟩⟩
  | createSubscription p =>
    rw [SubscriptionWorld.effect]
    split
    · exact hsame _ rfl
    · exact hsame _ rfl
  | insertAssigned p =>
    rw [SubscriptionWorld.effect]
    split
    · exact hsame _ rfl
    · exact hsame _ rfl
  | activateSubscription id paymentID updatedAt =>
    rw [SubscriptionWorld.effect]
    split
    · exact hsame _ rfl
    · split
      · exact hsame _ rfl
      · exact hsame _ rfl
  | createUsagePeriod m periodStart periodEnd createdAt updatedAt =>
    rw [SubscriptionWorld.effect]
    split
    · exact hsame _ rfl
    · exact hsame _ rfl
  | incrementPaymentUsage m volumeUSD now =>
    rw [SubscriptionWorld.effect]
    split
    · exact hsame _ rfl
    · exact hsame _ rfl
  | createPayment p =>
    rw [SubscriptionWorld.effect]
    split
    · exact hsame _ rfl
    · exact hsame _ rfl
  | setWebhookTimestamp m k updatedAt =>
    rw [SubscriptionWorld.effect]
    split
    · exact hsame _ rfl
    · exact hsame _ rfl
  | _ => exact hsame _ rfl

/-- The step lemma. -/
theorem Offered.autocommit (h : Offered w) (st : SubscriptionStmt) (env : SubscriptionEnv)
    (hkeeps : env.fate ≠ .refused → keepsOffer w (.stmt .pool st)) :
    Offered (subscriptionEngine.autocommit st env w) := by
  by_cases hrefused : env.fate = .refused
  · rw [autocommit_refused hrefused]
    exact h
  have hst := hkeeps hrefused
  intro r hr hopen
  have hget := Table.get_of_mem hr
  have hchange := change_autocommit st env w r.id hrefused
  have hstays : ∀ r₀ : MerchantSubscription, r₀ ∈ w.subscriptions.rows →
      r₀.status.isOpen = true → r₀.planID = r.planID →
        ((subscriptionEngine.autocommit st env w).getPlan r.planID).isSome = true := by
    intro r₀ hr₀ hopen₀ hplan
    apply getPlan_autocommit st hrefused
    · rw [← hplan]
      exact h r₀ hr₀ hopen₀
    · rintro plan rfl
      rcases hst with hactive | hnone
      · exact hactive
      · exact absurd hplan (hnone r₀ hr₀ hopen₀)
  have hopened : (∀ planID plan, st ≠ .updatePlan planID plan) →
      (w.getPlan r.planID).isSome = true →
        ((subscriptionEngine.autocommit st env w).getPlan r.planID).isSome = true := by
    intro hnot hsome
    exact getPlan_autocommit st hrefused hsome fun plan hupdate => absurd hupdate (hnot _ _)
  rw [hget] at hchange
  generalize hfound : some r = found at hchange
  cases hchange with
  | same => exact hstays r (Table.get_eq_some hfound.symm).1 hopen rfl
  | bought p hp hfits hid hnone =>
    cases hfound
    subst hp
    exact hopened (fun _ _ h => by cases h) (hst hfits hopen)
  | assigned p hp hfits hid hnone =>
    cases hfound
    subst hp
    exact hopened (fun _ _ h => by cases h) (hst hfits hopen)
  | activated r' paymentID updatedAt hp hfits hsome =>
    cases hfound
    subst hp
    exact hopened (fun _ _ h => by cases h) (hst r' hsome hfits)
  | closed r₀ r' hsome hclosed =>
    cases hfound
    rcases hclosed.status with hstatus | hcancelled
    · rw [hstatus] at hopen
      exact hstays r₀ (Table.get_eq_some hsome).1 hopen hclosed.planID.symm
    · rw [hcancelled] at hopen
      cases hopen

theorem Offered.move (h : Offered w) (m : Move) : Offered (m.apply w) := by
  cases m <;> exact h

/-- The run lemma: the offer is kept. -/
theorem offered_run (s : Service) (hw : Offered w) {es : List AdminEvent}
    (hok : s.administration.Along s.KeepsOffer ⟨w, []⟩ es) :
    Offered (s.administration.run ⟨w, []⟩ es).world := by
  have hprovides : ProvidesAlong s.administration s.KeepsOffer Offered OnPool
      (fun _ _ => True) := {
    answer := fun _ _ _ _ _ => trivial
    keeps := by
      intro cfg i env th c k hex hallowed hc hI
      cases c with
      | stmt q st =>
        cases q with
        | pool =>
          exact hI.autocommit st env fun hlands =>
            hallowed ⟨i, env, th, .stmt .pool st⟩ hex.executing_eq hlands
        | tx => exact hc.elim
      | _ => exact hc.elim
    move := fun m _ hI => hI.move m
    program := fun l => IssuesGiven.of_issues (s.administer_onPool l) }
  exact hprovides.run hw hok

end Offer

/-- The check, alone on these tables, dereferences a plan that is not there. -/
def LimitCheck.Panics (c : LimitCheck) (envs : ℕ → SubscriptionEnv) (w : SubscriptionWorld) :
    Prop :=
  (subscriptionEngine.alone envs c.program 0 ⟨w, .idle⟩).1 = .error nilPlan

theorem getActiveSubscription_eq_none_iff {w : SubscriptionWorld} {m : Int} :
    w.getActiveSubscription m = none ↔ w.openSubscriptions m = [] := by
  rw [SubscriptionWorld.getActiveSubscription, List.head?_eq_none_iff]
  constructor
  · intro h
    have hperm := ranked_perm MerchantSubscription.id (w.openSubscriptions m)
    rw [h] at hperm
    exact hperm.symm.eq_nil
  · intro h
    rw [h]
    rfl

/-- Where every open subscription is to a plan on sale, only a lost answer panics. -/
theorem unloaded_iff {w : SubscriptionWorld} (h : Offered w) {envs : ℕ → SubscriptionEnv}
    {m : Int} : Unloaded envs w m ↔ (envs 0).fate = .done ∧ w.openSubscriptions m ≠ [] ∧
      (envs 1).fate ≠ .done := by
  constructor
  · rintro ⟨sub, hdone, hsub, hmissing⟩
    have hmem : sub ∈ w.openSubscriptions m := mem_ranked.mp (List.mem_of_head? hsub)
    refine ⟨hdone, List.ne_nil_of_mem hmem, ?_⟩
    rcases hmissing with hunanswered | hnone
    · exact hunanswered
    · obtain ⟨hrow, hopen⟩ := List.mem_filter.mp hmem
      rw [Bool.and_eq_true] at hopen
      have hsome := h sub hrow hopen.2
      rw [hnone] at hsome
      cases hsome
  · rintro ⟨hdone, hopen, hunanswered⟩
    cases hsub : w.getActiveSubscription m with
    | none => exact absurd (getActiveSubscription_eq_none_iff.mp hsub) hopen
    | some sub => exact ⟨sub, hdone, hsub, .inl hunanswered⟩

/-- After a history in which no plan leaves its open subscriptions, a check
panics exactly if it finds a subscription and its plan's query is not answered. -/
theorem limit_check_never_panics_iff (s : Service) (w : SubscriptionWorld) (hw : Offered w)
    (es : List AdminEvent) (hok : s.administration.Along s.KeepsOffer ⟨w, []⟩ es)
    (envs : ℕ → SubscriptionEnv) (c : LimitCheck) :
    ¬ c.Panics envs (s.administration.run ⟨w, []⟩ es).world ↔
      ((envs 0).fate = .done →
        (s.administration.run ⟨w, []⟩ es).world.openSubscriptions c.merchantID ≠ [] →
          (envs 1).fate = .done) := by
  have hpanics : c.Panics envs (s.administration.run ⟨w, []⟩ es).world ↔ _ :=
    c.usesPlan.panics_iff.trans (unloaded_iff (offered_run s hw hok))
  rw [hpanics]
  constructor
  · intro h hdone hopen
    by_contra hunanswered
    exact h ⟨hdone, hopen, hunanswered⟩
  · rintro h ⟨hdone, hopen, hunanswered⟩
    exact hunanswered (h hdone hopen)

open Market

/-- Merchant 2 is assigned the plan. -/
def subscribed : List AdminEvent :=
  .start (.serve (.assignMerchantPlan 2 "pro")) :: List.replicate 6 (.exec 0 {})

theorem offered_tables : Offered tables := by
  intro r hr
  cases hr

theorem limit_check_never_panics_sample :
    ¬ (LimitCheck.payment 2).Panics (fun _ => {})
        (operator.administration.run ⟨tables, []⟩ subscribed).world ↔
      ((({} : SubscriptionEnv)).fate = .done →
        (operator.administration.run ⟨tables, []⟩ subscribed).world.openSubscriptions 2 ≠ [] →
          (({} : SubscriptionEnv)).fate = .done) :=
  limit_check_never_panics_iff operator tables offered_tables subscribed (by decide +kernel)
    (fun _ => {}) (.payment 2)

/-- The plan is taken off sale while merchant 2 is subscribed to it. -/
def takenOffSale : List AdminEvent :=
  subscribed ++ .start (.updatePlan "pro" { pro with isActive := false }) ::
    List.replicate 2 (.exec 1 {})

/-- After that a check panics though the database answers everything. -/
theorem limit_check_panics_off_sale :
    ¬ ∀ (s : Service) (w : SubscriptionWorld), Offered w → ∀ (es : List AdminEvent)
      (envs : ℕ → SubscriptionEnv) (c : LimitCheck),
        ¬ c.Panics envs (s.administration.run ⟨w, []⟩ es).world := by
  intro h
  apply h operator tables offered_tables takenOffSale (fun _ => {}) (.payment 2)
  rw [LimitCheck.Panics]
  decide +kernel

end Subscription

end CryptoLink
