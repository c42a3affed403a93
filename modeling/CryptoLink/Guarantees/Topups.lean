import CryptoLink.Guarantees.TopupReserves

/-!
# Topups side by side

What a topup has made no other touches, so each is judged by what it did itself.
That there is enough to take from is another matter: it was read before.
-/

namespace CryptoLink

open KeyedTables ReadCommitted StatementPrograms System

section Rows

variable {st : Stmt} {env : Env} {w : World} {id : Int}

/-- An existing payment changes with the statements that touch it only. -/
theorem payment_untouched {row : PaymentRow} (hrow : w.payments.get id = some row)
    (htouches : ¬ touchesPayment id (.stmt .pool st)) :
    (engine.autocommit st env w).payments.get id = some row := by
  by_cases hrefused : env.fate = .refused
  · rw [engine_autocommit_refused hrefused]
    exact hrow
  rw [engine_autocommit_landed hrefused]
  rw [← lasting_payments st w] at hrow
  rcases World.payment_effect_cases st env w (World.lasting st w) id with hsame |
    ⟨p, rfl, hid, -⟩ | ⟨p, rfl, hid, -⟩ | ⟨p, rfl, -, -, hnone, -⟩
  · exact hsame.trans hrow
  · exact absurd hid htouches
  · exact absurd hid htouches
  · rw [hnone] at hrow
    cases hrow

theorem transaction_untouched {row : TransactionRow} (hrow : w.transactions.get id = some row)
    (htouches : ¬ touchesTransaction id (.stmt .pool st)) :
    (engine.autocommit st env w).transactions.get id = some row := by
  by_cases hrefused : env.fate = .refused
  · rw [engine_autocommit_refused hrefused]
    exact hrow
  rw [engine_autocommit_landed hrefused]
  rw [← lasting_transactions st w] at hrow
  rcases World.transaction_effect_cases st env w (World.lasting st w) id with hsame |
    ⟨p, rfl, hid, -⟩ | ⟨p, rfl, hid, -⟩ | ⟨p, rfl, -, -, hnone, -⟩
  · exact hsame.trans hrow
  · exact absurd hid htouches
  · exact absurd hid htouches
  · rw [hnone] at hrow
    cases hrow

end Rows

variable (s : Service)

theorem hasPayment_keeper (id : Int) :
    Keeper s.topupSystem (fun _ => True) (fun _ _ => True)
      (fun w w' => HasPayment id w → HasPayment id w') :=
  .of_steady (payment_stays id) (fun _ => Issues.always fun _ _ _ _ => trivial) fun m w hw => by
    show HasPayment id (m.apply w)
    rw [HasPayment, m.apply_payments]
    exact hw

theorem hasTransaction_keeper (id : Int) :
    Keeper s.topupSystem (fun _ => True) (fun _ _ => True)
      (fun w w' => HasTransaction id w → HasTransaction id w') :=
  .of_steady (transaction_stays id) (fun _ => Issues.always fun _ _ _ _ => trivial) fun m w hw => by
    show HasTransaction id (m.apply w)
    rw [HasTransaction, m.apply_transactions]
    exact hw

theorem stillGiven_keeper (row : TransactionRow) :
    Keeper s.topupSystem (fun _ => True) (fun _ _ => True)
      (fun w w' => StillGiven row w → StillGiven row w') where
  refl _ h := h
  trans h h' hw := h' (h hw)
  program _ := Issues.always fun _ _ _ _ => trivial
  effect e w _ _ hw := by
    show StillGiven row (engine.effect e.stmt e.env e.seen w)
    rw [engine_effect]
    split
    · exact hw
    obtain ⟨r, hr, hsame⟩ := hw
    rcases World.transaction_effect_cases e.stmt e.env e.seen w row.id with heq |
      ⟨p, -, -, -, hafter⟩ | ⟨p, -, -, -, hafter⟩ | ⟨p, -, -, -, hnone, -⟩
    · exact ⟨r, heq.trans hr, hsame⟩
    · rw [hr] at hafter
      exact ⟨_, hafter, hsame⟩
    · rw [hr] at hafter
      exact ⟨_, hafter, hsame⟩
    · rw [hnone] at hr
      cases hr
  lasting st env w _ hw := by
    show StillGiven row (engine.lasting st env w)
    rw [engine_lasting]
    split
    · exact hw
    · rw [StillGiven, lasting_transactions]
      exact hw
  move m w hw := by
    show StillGiven row (m.apply w)
    rw [StillGiven, m.apply_transactions]
    exact hw

theorem topupProgram_onPool (l : TopupCall) :
    OnPool KeyedStmt (s.topupSystem.program l) :=
  OnPool.bind (topup_onPool s l.merchantID l.input) fun _ => trivial

/-- The key of a balance that was never read stays free. -/
theorem unread_stays :
    engine.Steady KeyedStmt (fun _ _ => True)
      (fun w w' => w.balances.get noBalance = none → w'.balances.get noBalance = none) where
  refl _ h := h
  trans h h' hw := h' (h hw)
  effect e w hkeyed _ hw := by
    obtain ⟨st, env, seen⟩ := e
    rw [engine_balance, hw]
    split
    · rfl
    cases st <;> try rfl
    case createBalance p =>
      exact if_neg fun hand => hkeyed hand.2
    case updateBalanceByID p =>
      exact ite_self _
  lasting st env w _ hw := by
    rw [engine_lasting_balances]
    exact hw

theorem unread_keeper :
    Keeper s.topupSystem KeyedStmt (fun _ _ => True)
      (fun w w' => w.balances.get noBalance = none → w'.balances.get noBalance = none) := by
  refine .of_steady unread_stays (fun l => ?_) fun m w hw => ?_
  · apply Issues.mono _ (topupProgram_onPool s l)
    rintro c ⟨st, rfl, hst⟩ q st' heq
    cases heq
    by_cases hread : st.changes = none
    · cases st <;> first
        | exact trivial
        | cases hread
    · exact hst hread
  · show (m.apply w).balances.get noBalance = none
    rw [m.apply_balances]
    exact hw

theorem makesPayment_brings {id : Int} (c : Cmd Stmt) (env : Env)
    (v : View Stmt Env World LockKey)
    (h : makesPayment id c (engine.perform c env v).1) :
    ¬ HasPayment id v.world ∧ HasPayment id (engine.perform c env v).2.world := by
  cases c with
  | stmt q st =>
    cases q with
    | tx => exact h.elim
    | pool =>
      cases st <;> try exact h.elim
      case createPayment params =>
        obtain ⟨row, hrow, rfl⟩ := h
        have hreply : engine.reply (.createPayment params) env v.world = .ok row := hrow
        obtain ⟨hdone, hok⟩ := answered_eq_ok hreply
        split at hok
        · rename_i hfits
          cases hok
          have hrefused : env.fate ≠ .refused := by
            rw [hdone]
            decide
          have hhas := createPayment_has (w := v.world) hrefused hfits
          refine ⟨nextPaymentID_free v.world, ?_⟩
          show HasPayment _ (engine.autocommit (.createPayment params) env v.world)
          rw [HasPayment]
          exact Option.isSome_iff_exists.mpr ⟨_, hhas⟩
        · cases hok
  | beginTx => exact h.elim
  | commitTx => exact h.elim
  | rollbackTx => exact h.elim
  | keep st => exact h.elim
  | release => exact h.elim

theorem makesTransaction_brings {id : Int} (c : Cmd Stmt) (env : Env)
    (v : View Stmt Env World LockKey)
    (h : makesTransaction id c (engine.perform c env v).1) :
    ¬ HasTransaction id v.world ∧ HasTransaction id (engine.perform c env v).2.world := by
  cases c with
  | stmt q st =>
    cases q with
    | tx => exact h.elim
    | pool =>
      cases st <;> try exact h.elim
      case createTransaction params =>
        obtain ⟨row, hrow, rfl⟩ := h
        obtain ⟨hdone, hfits, rfl⟩ := reply_createTransaction (w := v.world) hrow
        have hrefused : env.fate ≠ .refused := by
          rw [hdone]
          decide
        obtain ⟨hfree, hhas⟩ := createTransaction_has (w := v.world) hrefused hfits
        refine ⟨hfree, ?_⟩
        show HasTransaction _ (engine.autocommit (.createTransaction params) env v.world)
        rw [HasTransaction]
        exact Option.isSome_iff_exists.mpr ⟨_, hhas⟩
  | beginTx => exact h.elim
  | commitTx => exact h.elim
  | rollbackTx => exact h.elim
  | keep st => exact h.elim
  | release => exact h.elim

variable {s} {w : World} {es : List (Event Env Move TopupCall)} {i : ℕ}

theorem program_touchesOwnPayment (id : Int) (l : TopupCall) :
    TouchesOwn (touchesPayment id) (makesPayment id) (fun _ _ => True)
      (s.topupSystem.program l) False :=
  quiet_bind (topup_touchesOwnPayment s id l.merchantID l.input False)
    (fun _ _ => TouchesOwn.ofExcept (x := .ok ()) trivial) fun _ _ => trivial

theorem program_touchesOwnTransaction (id : Int) (l : TopupCall) :
    TouchesOwn (touchesTransaction id) (makesTransaction id) (fun _ _ => True)
      (s.topupSystem.program l) False :=
  quiet_bind (topup_touchesOwnTransaction s id l.merchantID l.input False)
    (fun _ _ => TouchesOwn.ofExcept (x := .ok ()) trivial) fun _ _ => trivial

/-- A step of another topup leaves the rows alone that this one has made. -/
theorem others_rel {p t : Int} {es : List (Event Env Move TopupCall)} {e : Event Env Move TopupCall}
    (hpayment : ∀ a ∈ s.topupSystem.executing (s.topupSystem.run ⟨w, []⟩ es) e, a.index ≠ i →
      ¬ touchesPayment p a.cmd)
    (htransaction : ∀ a ∈ s.topupSystem.executing (s.topupSystem.run ⟨w, []⟩ es) e, a.index ≠ i →
      ¬ touchesTransaction t a.cmd)
    (hothers : ∀ a ∈ s.topupSystem.executing (s.topupSystem.run ⟨w, []⟩ es) e, a.index ≠ i) :
    (topupSurroundings True p t).rel (s.topupSystem.run ⟨w, []⟩ es).world
      (s.topupSystem.step (s.topupSystem.run ⟨w, []⟩ es) e).world := by
  rcases step_world_cases s.topupSystem (s.topupSystem.run ⟨w, []⟩ es) e with hsame |
    ⟨m, -, hmove⟩ | ⟨j, env, th, c, k, rfl, hex, hworld⟩
  · rw [hsame]
    exact (topupSurroundings True p t).refl _
  · rw [hmove]
    intro _
    constructor
    · intro row hrow
      show (m.apply _).payments.get p = some row
      rw [m.apply_payments]
      exact hrow
    · intro row hrow
      show (m.apply _).transactions.get t = some row
      rw [m.apply_transactions]
      exact hrow
  · have ha := hex.executing_eq
    obtain ⟨st, hst, -⟩ := executed_of_issues (topupProgram_onPool s) ha
    obtain rfl : c = .stmt .pool st := hst
    rw [hworld]
    intro _
    constructor
    · intro row hrow
      exact payment_untouched hrow (hpayment _ ha (hothers _ ha))
    · intro row hrow
      exact transaction_untouched hrow (htransaction _ ha (hothers _ ha))

/-- Every call of a run from no threads is judged by what it did, on whatever
can be relied on. -/
theorem reckons_of_run {mine : Prop} {p t : Int} (hstored : w.balances.get noBalance = none)
    (hsettled : s.topupSystem.Along (fun cfg e => e.Uncut (fun _ => True) ∧
      ∀ a ∈ s.topupSystem.executing cfg e, GetsSettled a.cmd a.env cfg.world) ⟨w, []⟩ es)
    (hothers : s.topupSystem.Along (fun cfg e =>
      (∀ a ∈ s.topupSystem.executing cfg e, a.index ≠ i) →
        (topupSurroundings mine p t).rel cfg.world (s.topupSystem.step cfg e).world) ⟨w, []⟩ es)
    {th : Thread Stmt Reply Env World LockKey Err TopupCall} {x : Except Err Unit}
    (hth : (s.topupSystem.run ⟨w, []⟩ es).threads[i]? = some th)
    (hend : th.prog = Prog.ofExcept x) :
    Reckons s th.label mine p t (s.topupSystem.deeds i ⟨w, []⟩ es)
      (s.topupSystem.run ⟨w, []⟩ es).world := by
  have hstart : Accountable s.topupSystem (topupSurroundings mine p t) th.label
      (fun _ v own => Reckons s th.label mine p t own v.world) i ⟨w, []⟩ [] := by
    refine ⟨rfl, ?_⟩
    intro u
    have hblank : Unpaid th.label mine p t none none [] u := by
      refine ⟨CallBooks.nil, fun _ => rfl, ?_, ?_⟩
      · intro _ hq
        cases hq
      · intro _ hq
        cases hq
    refine Accounts.bind (topup_reckons (s := s) (v := ⟨u, .idle⟩) hblank) ?_ ?_
    · intro out v' own' hreckons
      exact Accounts.ret fun u' hrel => hreckons.stable hrel
    · exact fun e v' own' hreckons => hreckons
  have haround : s.topupSystem.Along (Around s.topupSystem (topupSurroundings mine p t) th.label
      (fun _ v own => Reckons s th.label mine p t own v.world) i) ⟨w, []⟩ es := by
    apply Along.of_splits
    rintro before e after rfl
    obtain ⟨hcrash, hnow⟩ := ((Along.append s.topupSystem).mp hsettled).2.1
    refine ⟨((Along.append s.topupSystem).mp hothers).2.1, ?_, ?_⟩
    · intro a ha _ _
      refine ⟨?_, hnow a ha⟩
      exact ((unread_keeper s).run_always (issued_of_no_threads _ w) before).2 hstored
    · rintro rfl
      exact (hcrash trivial).elim
  have hrun := hstart.run haround
  rw [List.nil_append] at hrun
  unfold Accountable at hrun
  rw [hth] at hrun
  have houtcome := hrun rfl
  rw [hend] at houtcome
  exact Accounts.outcome houtcome

theorem relies_on_nothing {p t : Int} : s.topupSystem.Along (fun cfg e =>
    (∀ a ∈ s.topupSystem.executing cfg e, a.index ≠ i) →
      (topupSurroundings False p t).rel cfg.world (s.topupSystem.step cfg e).world) ⟨w, []⟩ es := by
  apply Along.of_splits
  intro before e after _ _ hfalse
  exact hfalse.elim

/-- What a call has made it can rely on. -/
theorem relies_on_made {p t : Int}
    (hpayment : Made (HasPayment p) (s.topupSystem.deeds i ⟨w, []⟩ es))
    (htransaction : Made (HasTransaction t) (s.topupSystem.deeds i ⟨w, []⟩ es)) :
    s.topupSystem.Along (fun cfg e => (∀ a ∈ s.topupSystem.executing cfg e, a.index ≠ i) →
      (topupSurroundings True p t).rel cfg.world (s.topupSystem.step cfg e).world) ⟨w, []⟩ es := by
  obtain ⟨d, hd, hbefore, hafter⟩ := hpayment
  obtain ⟨d', hd', hbefore', hafter'⟩ := htransaction
  have hpayments := untouched_by_others (program_touchesOwnPayment p) makesPayment_brings
    ((hasPayment_keeper s p).along_always (issued_of_no_threads _ w) es) hd hbefore hafter
  have htransactions := untouched_by_others (program_touchesOwnTransaction t)
    makesTransaction_brings ((hasTransaction_keeper s t).along_always (issued_of_no_threads _ w) es)
    hd' hbefore' hafter'
  apply Along.of_splits
  rintro before e after rfl hothers
  exact others_rel ((Along.append s.topupSystem).mp hpayments).2.1
    ((Along.append s.topupSystem).mp htransactions).2.1 hothers

/-- No balance is stored under the key of one that was never read, and the rows
the calls were given are what they were. -/
structure Given (cfg : Config Stmt Reply Env World LockKey Err TopupCall) (gs : List TopupNote) :
    Prop where
  length : gs.length = cfg.threads.length
  issued : Issued KeyedStmt cfg
  unread : cfg.world.balances.get noBalance = none
  made : ∀ (i : ℕ) (th : Thread Stmt Reply Env World LockKey Err TopupCall) (g : TopupNote),
    cfg.threads[i]? = some th → gs[i]? = some g → ∀ row ∈ g.made, StillGiven row cfg.world

/-- A row is in the note because it was there before or because it was just given. -/
theorem made_of_after {c : Cmd Stmt} {env : Env} {v : View Stmt Env World LockKey}
    {g : TopupNote} {row : TransactionRow}
    (h : row ∈ (g.after c (engine.perform c env v).1).made) :
    row ∈ g.made ∨ ∃ p, c = .stmt .pool (.createTransaction p) ∧
      engine.reply (.createTransaction p) env v.world = .ok row := by
  unfold TopupNote.after at h
  split at h
  · exact .inl h
  · exact .inl h
  · rename_i p made hr
    obtain rfl : made = row := Option.some.inj h
    exact .inr ⟨p, rfl, hr⟩
  · exact .inl h

theorem stillGiven_of_created {p : CreateTransactionParams} {env : Env} {w : World}
    {row : TransactionRow} (h : engine.reply (.createTransaction p) env w = .ok row) :
    StillGiven row (engine.autocommit (.createTransaction p) env w) := by
  obtain ⟨hdone, hfits, rfl⟩ := reply_createTransaction h
  have hrefused : env.fate ≠ .refused := by
    rw [hdone]
    decide
  exact ⟨_, (createTransaction_has hrefused hfits).2, rfl, rfl, rfl, rfl, rfl⟩

theorem Given.step {cfg : Config Stmt Reply Env World LockKey Err TopupCall} {gs : List TopupNote}
    (h : Given cfg gs) (e : Event Env Move TopupCall) :
    Given (s.topupSystem.step cfg e) (s.topupSystem.notes topupNotes cfg gs e) := by
  have hlands : s.topupSystem.Landing (fun _ _ => True) cfg e := fun _ _ =>
    engine.eachLands_true _ _
  refine ⟨notes_length h.length e, (unread_keeper s).issued h.issued e,
    (unread_keeper s).step h.issued hlands h.unread, ?_⟩
  intro i th g hi hg row hrow
  have hkeeps : ∀ row', StillGiven row' cfg.world →
      StillGiven row' (s.topupSystem.step cfg e).world := fun row' =>
    (stillGiven_keeper s row').step (issued_always cfg) hlands
  rcases notes_step_cases h.length hi hg with ⟨th', g', hth', -, hg', hnote⟩ | ⟨l, -, -, hnote⟩
  · rcases hnote with hsame | ⟨a, ha, -, hnew⟩
    · obtain rfl : g = g' := hsame
      exact hkeeps row (h.made i th' g hth' hg' row hrow)
    · rw [hnew] at hrow
      rcases made_of_after hrow with hold | ⟨p, hc, hreply⟩
      · exact hkeeps row (h.made i th' g' hth' hg' row hold)
      · -- the row the call has just been given
        obtain ⟨k, rfl, hex⟩ := executes_of_executing ha
        rw [hex.step_eq]
        show StillGiven row (engine.perform a.cmd a.env (a.thread.view cfg.world)).2.world
        rw [hc]
        exact stillGiven_of_created hreply
  · rw [hnote] at hrow
    cases hrow

/-- Every credit of the run takes what is still there. -/
theorem takes_covered {es : List (Event Env Move TopupCall)}
    (hstored : w.balances.get noBalance = none)
    (htold : s.topupSystem.RunsGrounded topupNotes ⟨w, []⟩ [] es) :
    s.topupSystem.Along (s.topupSystem.Landing TakesCovered) ⟨w, []⟩ es := by
  have hstart : Given (⟨w, []⟩ : Config Stmt Reply Env World LockKey Err TopupCall) [] :=
    ⟨rfl, issued_of_no_threads KeyedStmt w, hstored, fun i th g hi => by cases hi⟩
  have hgiven := Noted.throughout (fun cfg gs e h _ => h.step e) htold hstart
  have hgrounded : s.topupSystem.RunsGrounded topupTold ⟨w, []⟩ [] es := by
    refine noted_admitting.mpr (Noted.mono hgiven ?_)
    rintro cfg gs e ⟨hgrounded, h⟩ a ha g hg
    obtain ⟨k, -, hex⟩ := executes_of_executing ha
    exact ⟨hgrounded a ha g hg, h.unread, h.made a.index a.thread g hex.here hg⟩
  have hprogram : ∀ l w', Meets (topupTold.setting s.topupSystem.engine TakesWhatIsThere l)
      (fun _ _ => True) (s.topupSystem.program l)
      (topupTold.stand (topupTold.start l w') ⟨w', .idle⟩) := fun l w' =>
    Meets.seq (topup_takes rfl) (fun _ _ _ _ _ => trivial) fun _ _ _ => trivial
  refine Noted.along (relied hprogram (relying_of_no_threads w) hgrounded) ?_
  rintro cfg gs e ⟨-, hpromised⟩ a ha
  obtain ⟨g, -, htakes⟩ := hpromised a ha
  exact htakes

/-- Topups side by side. As long as what each call was shown is still there when
it credits, or enough of it, and nothing goes wrong halfway behind a completion:
the merchant has the money exactly if the payment and its completed transaction
stay, and no reserve falls below zero. -/
theorem topups_are_whole_and_covered (s : Service) (w : World)
    (es : List (Event Env Move TopupCall))
    (hstored : w.balances.get noBalance = none)
    (htold : s.topupSystem.RunsGrounded topupNotes ⟨w, []⟩ [] es)
    (hsettled : s.topupSystem.Along
      (fun cfg e => e.Uncut (fun _ => True) ∧ ∀ a ∈ s.topupSystem.executing cfg e,
      GetsSettled a.cmd a.env cfg.world) ⟨w, []⟩ es) :
    (∀ (i : ℕ) (th : Thread Stmt Reply Env World LockKey Err TopupCall) (x : Except Err Unit),
      (s.topupSystem.run ⟨w, []⟩ es).threads[i]? = some th → th.prog = Prog.ofExcept x →
        Whole s th.label (s.topupSystem.deeds i ⟨w, []⟩ es)
          (s.topupSystem.run ⟨w, []⟩ es).world) ∧
    ∀ place, 0 ≤ w.reserve place → 0 ≤ (s.topupSystem.run ⟨w, []⟩ es).world.reserve place := by
  constructor
  · intro i th x hth hend
    have hmine : ∀ {p t : Int}, Made (HasPayment p) (s.topupSystem.deeds i ⟨w, []⟩ es) →
        Made (HasTransaction t) (s.topupSystem.deeds i ⟨w, []⟩ es) →
        Reckons s th.label True p t (s.topupSystem.deeds i ⟨w, []⟩ es)
          (s.topupSystem.run ⟨w, []⟩ es).world := fun hpayment htransaction =>
      reckons_of_run hstored hsettled (relies_on_made hpayment htransaction) hth hend
    constructor
    · rintro ⟨p, t, hpayment, htransaction, hpair⟩
      exact ((hmine hpayment htransaction).whole trivial hpayment htransaction).2.2.1 hpair
    · intro hunsettled k
      by_contra hgain
      -- whoever gained has made a payment and a transaction
      have hids := (reckons_of_run (p := 0) (t := 0) hstored hsettled relies_on_nothing hth
        hend).ids
      obtain ⟨p, t, hpayment, htransaction⟩ := hids ⟨k, hgain⟩
      have hnot : ¬ Pair p t (s.topupSystem.run ⟨w, []⟩ es).world := fun hpair =>
        hunsettled ⟨p, t, hpayment, htransaction, hpair⟩
      exact hgain (((hmine hpayment htransaction).whole trivial hpayment htransaction).2.2.2 hnot k)
  · exact ((coveredKeeper s).run (issued_of_no_threads _ w) (takes_covered hstored htold)).2

namespace Sample

/-- A wallet holds 500 ether, and nobody is owed anything. -/
def reserveOfFive : World :=
  { noMoney with
    balances := Table.insert Table.empty
      (World.newBalance ⟨⟨.wallet, 2, "ETH", "1", "ETH"⟩, 0, 0, .coin, 0, 500⟩) }

def topupOf (amount : Int) : TopupCall where
  merchantID := 7
  input := ⟨ether, Money.crypto "ETH" amount 0, "", false⟩

/-- The next calls of thread `i`, with a price from the feed. -/
def goesOn (i n : ℕ) : List (Event Env Move TopupCall) :=
  List.replicate n (.exec i { number := 5000 })

/-- Both have read what there is before either takes from it, and there is enough
for both. -/
def sideBySide : List (Event Env Move TopupCall) :=
  .start (topupOf 100) :: .start (topupOf 200) :: goesOn 0 5 ++ goesOn 1 5 ++ goesOn 0 20 ++
    goesOn 1 20

/-- The audit row of the credit is not written. -/
def unaudited : List (Event Env Move TopupCall) :=
  .start (topupOf 100) :: goesOn 0 17 ++ .exec 0 { fate := .refused } :: goesOn 0 10

/-- There is not. -/
def racing : List (Event Env Move TopupCall) :=
  .start (topupOf 400) :: .start (topupOf 400) :: goesOn 0 5 ++ goesOn 1 5 ++ goesOn 0 20 ++
    goesOn 1 20

def merchantsEther : BalanceKey := ⟨.merchant, 7, "ETH", "1", "ETH"⟩

def returned : Call Unit → Bool
  | .ret _ => true
  | _ => false

end Sample

open Sample in
/-- The second has seen 500, of which 400 are left when it takes 200. -/
theorem topup_completes :
    (∃ th, (service.topupSystem.run ⟨reserveOfFive, []⟩ sideBySide).threads[1]? = some th ∧
      th.prog = Prog.ofExcept (.ok ()) ∧ Whole service th.label
        (service.topupSystem.deeds 1 ⟨reserveOfFive, []⟩ sideBySide)
        (service.topupSystem.run ⟨reserveOfFive, []⟩ sideBySide).world) ∧
    gain merchantsEther (service.topupSystem.deeds 1 ⟨reserveOfFive, []⟩ sideBySide) = 200 ∧
    (service.topupSystem.run ⟨reserveOfFive, []⟩ sideBySide).world.reserve ("ETH", "ETH", "1") =
      200 := by
  have hrun := topups_are_whole_and_covered service reserveOfFive sideBySide rfl
    (by decide +kernel) (by decide +kernel)
  have hend : ((service.topupSystem.run ⟨reserveOfFive, []⟩ sideBySide).threads[1]?).any
      (fun th => returned th.prog) = true := by decide +kernel
  cases hth : (service.topupSystem.run ⟨reserveOfFive, []⟩ sideBySide).threads[1]? with
  | none =>
    rw [hth] at hend
    cases hend
  | some th =>
    refine ⟨⟨th, rfl, ?_⟩, by decide +kernel, by decide +kernel⟩
    rw [hth] at hend
    obtain ⟨label, prog, session⟩ := th
    cases prog with
    | ret u => exact ⟨rfl, hrun.1 1 _ (.ok u) hth rfl⟩
    | fail e => cases hend
    | call c k => cases hend

open Sample in
/-- The merchant keeps the money of a topup whose payment was failed over the
audit row, and two topups of 400 are both made from 500. -/
theorem topups_neither_whole_nor_covered :
    ((service.topupSystem.run ⟨reserveOfFive, []⟩ unaudited).threads.map fun th =>
        th.prog matches .fail _) = [true] ∧
    ¬ Whole service (topupOf 100) (service.topupSystem.deeds 0 ⟨reserveOfFive, []⟩ unaudited)
      (service.topupSystem.run ⟨reserveOfFive, []⟩ unaudited).world ∧
    0 ≤ reserveOfFive.reserve ("ETH", "ETH", "1") ∧
    (service.topupSystem.run ⟨reserveOfFive, []⟩ racing).world.reserve ("ETH", "ETH", "1") =
      -300 := by
  refine ⟨by decide +kernel, ?_, by decide +kernel, by decide +kernel⟩
  intro hwhole
  have hgain : gain merchantsEther
      (service.topupSystem.deeds 0 ⟨reserveOfFive, []⟩ unaudited) = 100 := by decide +kernel
  have hfailed :
      ∀ row ∈ (service.topupSystem.run ⟨reserveOfFive, []⟩ unaudited).world.payments.rows,
        row.status = .failed := by decide +kernel
  have hunsettled : ¬ KeptPair (service.topupSystem.deeds 0 ⟨reserveOfFive, []⟩ unaudited)
      (service.topupSystem.run ⟨reserveOfFive, []⟩ unaudited).world := by
    rintro ⟨p, t, -, -, ⟨row, hrow, hsuccess⟩, -⟩
    rw [hfailed row (Table.get_eq_some hrow).1] at hsuccess
    cases hsuccess
  rw [hwhole.otherwise hunsettled merchantsEther] at hgain
  cases hgain

end CryptoLink
