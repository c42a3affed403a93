import CryptoLink.Guarantees.Confirmations
import CryptoLink.Guarantees.TopupStates

/-!
# What one topup is accountable for

Up to the credit nothing is paid, and whatever fails fails the payment. The
credit comes after the completion, so from there on the money is paid exactly if
the payment and its completed transaction stay.
-/

namespace CryptoLink

open KeyedTables ReadCommitted StatementPrograms System

variable {s : Service} {l : TopupCall} {mine : Prop} {p t : Int} {own own' : Deeds World}
  {w w' : World}

theorem createTopupPayment_accounts {v : View Stmt Env World LockKey}
    (h : Unpaid l mine p t none none own v.world) :
    TopupAccounts mine p t (fun x v' own' =>
        (∀ pt, x = .ok pt → pt.merchantID = l.merchantID ∧
          Unpaid l mine p t (some pt.id) none own' v'.world) ∧
        (∀ e, x = .error e → ∃ q, CallBooks q none own' ∧ ∀ k, gain k own' = 0))
      (createTopupPayment l.merchantID l.input.amount l.input.isTest) v own := by
  have hfail : ∀ (e : Err) {q : Option Int} {own' : Deeds World} {w : World},
      Unpaid l mine p t q none own' w →
        (∀ pt, (.error e : Except Err Payment) = .ok pt → pt.merchantID = l.merchantID ∧
          Unpaid l mine p t (some pt.id) none own' w) ∧
        (∀ e', (.error e : Except Err Payment) = .error e' →
          ∃ q, CallBooks q none own' ∧ ∀ k, gain k own' = 0) := by
    intro e q own' w hunpaid
    constructor
    · intro pt hpt
      cases hpt
    · intro _ _
      exact ⟨q, hunpaid.books, hunpaid.nothing⟩
  unfold createTopupPayment
  split
  · exact Accounts.fail fun w hrel => hfail _ (h.stable hrel)
  refine asks rfl ?_
  intro w₁ env₁ own₁ hrel₁ hrests₁ _
  have h₁ := h.after hrel₁ hrests₁
  cases hmt : engine.reply (.getMerchantByID l.merchantID) env₁ w₁ with
  | error e => exact Accounts.fail fun w hrel => hfail _ (h₁.stable hrel)
  | ok mt =>
  refine asks rfl ?_
  intro w₂ env₂ own₂ hrel₂ hrests₂ _
  have h₂ := h₁.after hrel₂ hrests₂
  rw [Prog.ret_bind]
  split
  · exact Accounts.fail fun w hrel => hfail _ (h₂.stable hrel)
  refine asks rfl ?_
  intro w₃ env₃ own₃ hrel₃ hrests₃ _
  have h₃ := h₂.after hrel₃ hrests₃
  apply Accounts.pool
  intro w₄ env₄ hrel₄ _
  obtain ⟨q, h₄, hrow⟩ := Unpaid.pay (internalPaymentParams l.merchantID
    (engine.reply .timeNow env₃ w₃) l.input.amount l.input.isTest) env₄ (h₃.stable hrel₄) rfl rfl
  cases hcreated : engine.reply (.createPayment (internalPaymentParams l.merchantID
      (engine.reply .timeNow env₃ w₃) l.input.amount l.input.isTest)) env₄ w₄ with
  | error e => exact Accounts.fail fun w hrel => hfail _ (h₄.stable hrel)
  | ok row =>
  obtain ⟨rfl, hmerchant⟩ := hrow row hcreated
  cases hpt : entryToPayment row with
  | error e =>
    show TopupAccounts mine p t _ (succeed (entryToPayment row)) _ _
    rw [hpt]
    exact Accounts.fail fun w hrel => hfail _ (h₄.stable hrel)
  | ok pt =>
    show TopupAccounts mine p t _ (succeed (entryToPayment row)) _ _
    rw [hpt]
    obtain ⟨hid, howner⟩ := entryToPayment_eq_ok hpt
    apply Accounts.ret
    intro w hrel
    constructor
    · intro pt' hpt'
      cases hpt'
      rw [hid]
      exact ⟨howner.trans hmerchant, h₄.stable hrel⟩
    · intro e he
      cases he

theorem entityID_of_validForTopup {params : Service.CreateTransaction}
    (h : params.validateForSystemTopup = .ok ()) : params.entityID ≠ 0 := by
  intro hzero
  unfold Service.CreateTransaction.validateForSystemTopup at h
  rw [if_pos hzero] at h
  repeat' split at h
  all_goals cases h

/-- The row that is asked for is one of the call. -/
theorem topupRow_of_valid {pt : Payment} {usdAmount : Money}
    (h : (Service.topupTransaction pt l.input usdAmount).validateForSystemTopup = .ok ())
    (now : Int) (networkCurrency : CryptoCurrency) (w : World) :
    TopupRow l pt.id (w.newTransaction ((Service.topupTransaction pt l.input usdAmount
      ).systemTopupParams l.merchantID now networkCurrency)) :=
  ⟨rfl, if_pos (entityID_of_validForTopup h), rfl, rfl, rfl⟩

theorem createTopupTransaction_accounts {pt : Payment} (usdAmount : Money)
    {v : View Stmt Env World LockKey}
    (h : Unpaid l mine p t (some pt.id) none own v.world) :
    TopupAccounts mine p t (fun x v' own' =>
        (∀ tx, x = .ok tx → Unpaid l mine p t (some pt.id) (some tx.id) own' v'.world ∧
          ∀ m, tx.factAmount = some m → m.value = l.input.amount.value) ∧
        (∀ e, x = .error e → ∃ r, Unpaid l mine p t (some pt.id) r own' v'.world))
      (s.createTopupTransaction l.merchantID (Service.topupTransaction pt l.input usdAmount))
      v own := by
  have hfail : ∀ (e : Err) {r : Option Int} {own' : Deeds World} {w : World},
      Unpaid l mine p t (some pt.id) r own' w →
        (∀ tx, (.error e : Except Err Transaction) = .ok tx →
          Unpaid l mine p t (some pt.id) (some tx.id) own' w ∧
            ∀ m, tx.factAmount = some m → m.value = l.input.amount.value) ∧
        (∀ e', (.error e : Except Err Transaction) = .error e' →
          ∃ r, Unpaid l mine p t (some pt.id) r own' w) := by
    intro e r own' w hunpaid
    constructor
    · intro tx htx
      cases htx
    · intro _ _
      exact ⟨r, hunpaid⟩
  let params := Service.topupTransaction pt l.input usdAmount
  unfold Service.createTopupTransaction
  cases hvalid : params.validateForSystemTopup with
  | error e => exact Accounts.fail fun w hrel => hfail _ (h.stable hrel)
  | ok _ =>
  cases hcoin : wrapErr "unable to get network currency"
      (s.currencies.getNativeCoin params.currency.blockchain) with
  | error e => exact Accounts.fail fun w hrel => hfail _ (h.stable hrel)
  | ok networkCurrency =>
  refine asks rfl ?_
  intro w₁ env₁ own₁ hrel₁ hrests₁ _
  have h₁ := h.after hrel₁ hrests₁
  let row := params.systemTopupParams l.merchantID (engine.reply .timeNow env₁ w₁) networkCurrency
  apply Accounts.pool
  intro w₂ env₂ hrel₂ _
  have hrow : pt.id = p → TopupRow l p (w₂.newTransaction row) := by
    rintro rfl
    exact topupRow_of_valid hvalid _ _ w₂
  obtain ⟨r, h₂, hanswer⟩ := (h₁.stable hrel₂).transact env₂ hrow
  show TopupAccounts mine p t _ ((succeed (engine.reply (.createTransaction row) env₂ w₂)).bind _)
    _ _
  cases hcreated : engine.reply (.createTransaction row) env₂ w₂ with
  | error e => exact Accounts.fail fun w hrel => hfail _ (h₂.stable hrel)
  | ok entry =>
  obtain ⟨rfl, hfact⟩ := hanswer entry hcreated
  show TopupAccounts mine p t _ (succeed (s.entryToTransaction entry)) _ _
  cases htx : s.entryToTransaction entry with
  | error e => exact Accounts.fail fun w hrel => hfail _ (h₂.stable hrel)
  | ok tx =>
    obtain ⟨currency, fee, -, -, rfl⟩ := s.entryToTransaction_eq_ok htx
    apply Accounts.ret
    intro w hrel
    constructor
    · intro tx htx'
      cases htx'
      refine ⟨h₂.stable hrel, ?_⟩
      intro m hm
      have hvalue : (some l.input.amount.value : Option Int).map
          (fun x => Money.crypto entry.currency x entry.decimals) = some m := by
        rw [← hm]
        exact congrArg (Option.map _) hfact.symm
      cases hvalue
      rfl
    · intro e he
      cases he

/-- Paid if there is a result, and otherwise nothing. -/
def Tops (s : Service) (l : TopupCall) (mine : Prop) (p t : Int) {α : Type} :
    Except Err α → View Stmt Env World LockKey → Deeds World → Prop
  | .ok _, v, own => Paid s l p t own v.world
  | .error _, v, own => Unpaid l mine p t (some p) (some t) own v.world

section Credit

variable {α : Type} {q : UpdateBalanceQuery} {v : View Stmt Env World LockKey}

/-- Whichever row the credit goes to. -/
theorem credits_accounts (st : Stmt) (f : Reply st → Except Err BalanceRow) {k : BalanceKey}
    (hmine : mine) (h : Unpaid l mine p t (some p) (some t) own v.world)
    (hpair : Pair p t v.world) (hst : st.changes = some .balances) (hkey : TopupKey s l k)
    (hpositive : 0 < l.input.amount.value)
    (hcases : ∀ env w, GetsSettled (.stmt .pool st) env w →
      (∃ e, f (engine.reply st env w) = .error e ∧ engine.autocommit st env w = w) ∨
      ∃ row, f (engine.reply st env w) = .ok row ∧
        ∀ k', (engine.autocommit st env w).amountAt k' =
          w.amountAt k' + if k' = k then l.input.amount.value else 0) :
    TopupAccounts mine p t (fun x v' own' => ∃ r, x = .ok r ∧ Tops s l mine p t (f r) v' own')
      (.call (.stmt .pool st) .ret) v own := by
  apply Accounts.pool
  rintro w env hrel ⟨-, hsettled⟩
  apply Accounts.ret
  intro w' hrel'
  refine ⟨_, rfl, ?_⟩
  rcases hcases env w hsettled with ⟨e, hreply, hsame⟩ | ⟨row, hreply, hmoved⟩
  · rw [hreply]
    have hkept : Unpaid l mine p t (some p) (some t)
        (own ++ [(w, engine.autocommit st env w)]) (engine.autocommit st env w) := by
      rw [hsame]
      exact (h.stable hrel).keep rfl rfl rfl
    exact hkept.stable hrel'
  · rw [hreply]
    have hpaid := (h.stable hrel).credit env (hpair.stable hrel hmine) hst hkey hpositive
      hmoved
    exact hpaid.after hrel' hmine (Rests.refl _)

theorem upsertBalance_accounts (hmine : mine) (hq : Credits s l q)
    (h : Unpaid l mine p t (some p) (some t) own v.world) (hpair : Pair p t v.world)
    {found : Except Err BalanceRow} (hfound : ∀ b, found = .ok b → TopupKey s l b.key) (now : Int) :
    TopupAccounts mine p t (fun x v' own' => ∃ r, x = .ok r ∧ Tops s l mine p t r v' own')
      (upsertBalance .pool q now found) v own := by
  have hsigned : q.operation.signed q.amount = l.input.amount.value := by
    rw [hq.operation]
    exact hq.value
  have hpositive : 0 < l.input.amount.value := by
    rw [← hq.value]
    exact hq.positive
  cases found with
  | ok b =>
    refine credits_accounts (.updateBalanceByID ⟨b.key, now, q.operation.signed q.amount⟩) id hmine
      h hpair rfl (hfound b rfl) hpositive ?_
    intro env w hsettled
    rw [← hsigned]
    exact update_credits hsettled
  | error e =>
    simp only [upsertBalance]
    split
    · have hkey : TopupKey s l (q.create now).key := by
        refine ⟨hq.entityType, hq.entityID, q.currency, hq.currency, ?_, .inr hq.ticker⟩
        show q.currency.chooseNetwork q.isTest = q.currency.chooseNetwork l.input.isTest
        rw [hq.isTest]
      refine credits_accounts (.createBalance (q.create now)) id hmine h hpair rfl hkey hpositive ?_
      intro env w hsettled
      rw [← hsigned]
      exact create_credits hsettled
    · -- the balance that was not found is not there
      apply Accounts.pool
      rintro w env hrel ⟨hstored, hsettled⟩
      apply Accounts.ret
      intro w' hrel'
      refine ⟨_, rfl, ?_⟩
      rcases update_credits hsettled with ⟨e', hreply, hsame⟩ | ⟨row, hreply, -⟩
      · have hkept : Unpaid l mine p t (some p) (some t) (own ++ [(w, w)]) w :=
        (h.stable hrel).keep rfl rfl rfl
        rw [hreply]
        rw [hsame] at hrel' ⊢
        exact hkept.stable hrel'
      · exact absurd hreply (reply_update_noBalance hstored)

theorem topupKey_of_found (hq : Credits s l q) {env : Env} {b : BalanceRow}
    (h : engine.reply (.getBalanceByFilterWithLock q.filter) env w = .ok b) :
    TopupKey s l b.key := by
  obtain ⟨hlookup, -⟩ := lookup_of_get (noRows_eq_ok (answered_eq_ok h).2)
  have hid : b.key.entityID = q.entityID := congrArg BalanceFilter.entityID hlookup
  have htype : b.key.entityType = q.entityType := congrArg BalanceFilter.entityType hlookup
  have hnetwork : b.key.networkID = q.currency.chooseNetwork q.isTest :=
    congrArg BalanceFilter.networkID hlookup
  have hcurrency : b.key.currency = q.currency.ticker := congrArg BalanceFilter.currency hlookup
  refine ⟨htype.trans hq.entityType, hid.trans hq.entityID, q.currency, hq.currency, ?_,
    .inl hcurrency⟩
  rw [hnetwork, hq.isTest]

theorem writeAuditLog_pays {k : BalanceKey} {operation : BalanceOperation} {amount : Money}
    {comment : String} {metaData : MetaData} (hmine : mine) (h : Paid s l p t own v.world) :
    TopupAccounts mine p t (fun x v' own' => x = .ok () ∧ Paid s l p t own' v'.world)
      (writeAuditLog .pool k operation amount comment metaData) v own := by
  refine asks rfl ?_
  intro w₁ env₁ own₁ hrel₁ hrests₁ _
  have h₁ := h.after hrel₁ hmine hrests₁
  let audit : AuditRow := ⟨engine.reply .timeNow env₁ w₁, k, comment,
    (auditMetaData metaData operation amount).toJSONB⟩
  show TopupAccounts mine p t _ ((ask .pool (.insertBalanceAuditLog audit)).bind succeed) _ own₁
  apply Accounts.pool
  rintro w₂ env₂ hrel₂ ⟨-, hdone⟩
  have h₂ := Paid.keep (.insertBalanceAuditLog audit) env₂ (h₁.after hrel₂ hmine (Rests.refl _))
    (fun h => by cases h) (fun h => by cases h) (fun h => by cases h)
  have hreply : engine.reply (.insertBalanceAuditLog audit) env₂ w₂ = .ok () :=
    answered_done hdone _ _
  show TopupAccounts mine p t _ (succeed (engine.reply (.insertBalanceAuditLog audit) env₂ w₂)) _ _
  rw [hreply]
  exact Accounts.ret fun w hrel => ⟨rfl, h₂.after hrel hmine (Rests.refl _)⟩

/-- The credit and its audit row. -/
theorem updateBalance_tops (hmine : mine) (hq : Credits s l q)
    (h : Unpaid l mine p t (some p) (some t) own v.world) (hpair : Pair p t v.world) :
    TopupAccounts mine p t (Tops s l mine p t) (updateBalance .pool q) v own := by
  unfold updateBalance
  cases hvalid : q.validate with
  | error e => exact Accounts.fail fun w hrel => h.stable hrel
  | ok _ =>
  refine asks rfl ?_
  intro w₁ env₁ own₁ hrel₁ hrests₁ _
  have h₁ := h.after hrel₁ hrests₁
  have hpair₁ := hpair.stable hrel₁ hmine
  refine asks rfl ?_
  intro w₂ env₂ own₂ hrel₂ hrests₂ _
  have h₂ := h₁.after hrel₂ hrests₂
  have hpair₂ := hpair₁.stable hrel₂ hmine
  show TopupAccounts mine p t _ ((upsertBalance .pool q (engine.reply .timeNow env₂ w₂)
    (engine.reply (.getBalanceByFilterWithLock q.filter) env₁ w₁)).bind _) ⟨w₂, v.session⟩ own₂
  refine Accounts.bind (upsertBalance_accounts hmine hq h₂ hpair₂
    (fun b hb => topupKey_of_found hq hb) (engine.reply .timeNow env₂ w₂)) ?_ ?_
  · rintro r v₃ own₃ ⟨_, hr, htops⟩
    cases hr
    cases r with
    | error e => exact Accounts.fail fun w hrel => htops.stable hrel
    | ok row =>
    have hpaid : Paid s l p t own₃ v₃.world := htops
    -- the audit row is written, or the whole would be an error
    show TopupAccounts mine p t _ (((writeAuditLog .pool row.key q.operation q.amount q.comment
      q.metaData).mapError _).bind _) v₃ own₃
    refine Accounts.bind (M := fun x v' own' => x = .ok () ∧ Paid s l p t own' v'.world)
      (Accounts.mapError (writeAuditLog_pays hmine hpaid) ?_) ?_ ?_
    · rintro x v₄ own₄ ⟨rfl, hpaid₄⟩
      exact ⟨rfl, hpaid₄⟩
    · rintro u v₄ own₄ ⟨-, hpaid₄⟩
      exact Accounts.ret fun w hrel => hpaid₄.after hrel hmine (Rests.refl _)
    · rintro e v₄ own₄ ⟨he, -⟩
      cases he
  · rintro e v₃ own₃ ⟨r, hr, -⟩
    cases hr

/-- After the confirmation of a topup's row nothing is left to do but one credit of
the amount. -/
theorem updateBalances_credits {row : TransactionRow} {currency : CryptoCurrency}
    (fee : Option Money) {m : Money} (hrow : TopupRow l p row)
    (hcurrency : s.currencies.getCurrencyByTicker row.currency = .ok currency)
    (hfact : row.factAmount = some m.value) (hvalue : m.value = l.input.amount.value) :
    (∃ e, s.updateBalancesAfterTxConfirmation .pool (Service.transactionOf row currency fee)
      (Service.topupConfirmation m) = .fail e) ∨
    ∃ q f, Credits s l q ∧ s.updateBalancesAfterTxConfirmation .pool
      (Service.transactionOf row currency fee) (Service.topupConfirmation m) =
        ((updateBalance .pool q).mapError f).bind fun _ => .ret () := by
  have hreceived : (Service.transactionOf row currency fee).factAmount =
      some (Money.crypto row.currency m.value row.decimals) :=
    congrArg (Option.map _) hfact
  have htype : (Service.transactionOf row currency fee).type = .virtual := hrow.type
  unfold Service.updateBalancesAfterTxConfirmation
  rw [hreceived]
  dsimp only
  split
  · exact .inl ⟨_, rfl⟩
  rename_i hzero
  split
  · exact .inl ⟨_, rfl⟩
  rename_i hnegative
  rw [htype]
  dsimp only
  split
  · exact .inl ⟨_, rfl⟩
  have hpositive : 0 < m.value := by
    have hne : ¬ m.value = 0 := fun h => hzero (decide_eq_true h)
    have hnn : ¬ m.value < 0 := fun h => hnegative (decide_eq_true h)
    omega
  right
  refine ⟨{
    entityID := row.merchantID
    entityType := .merchant
    operation := .increment
    currency := currency
    amount := Money.crypto row.currency m.value row.decimals
    comment := "virtual system topup"
    metaData := Service.ledgerMetaData (Service.transactionOf row currency fee)
    isTest := row.isTest }, _, ?_, rfl⟩
  exact ⟨hrow.merchantID, rfl, rfl, hrow.currency ▸ hcurrency, hrow.isTest, hrow.currency, hvalue,
    hpositive⟩

/-- The balances after the confirmation of a topup's row. -/
theorem updateBalances_tops (hmine : mine) {row : TransactionRow} {currency : CryptoCurrency}
    {fee : Option Money} {m : Money} (hrow : TopupRow l p row)
    (hcurrency : s.currencies.getCurrencyByTicker row.currency = .ok currency)
    (hfact : row.factAmount = some m.value) (hvalue : m.value = l.input.amount.value)
    (h : Unpaid l mine p t (some p) (some t) own v.world) (hpair : Pair p t v.world) :
    TopupAccounts mine p t (Tops s l mine p t)
      (s.updateBalancesAfterTxConfirmation .pool (Service.transactionOf row currency fee)
        (Service.topupConfirmation m)) v own := by
  rcases updateBalances_credits fee hrow hcurrency hfact hvalue with
    ⟨e, hfails⟩ | ⟨q, f, hcredits, hprog⟩
  · rw [hfails]
    exact Accounts.fail fun w hrel => h.stable hrel
  rw [hprog]
  refine Accounts.bind (M := Tops s l mine p t)
    (Accounts.mapError (updateBalance_tops hmine hcredits h hpair) ?_) ?_ ?_
  · intro x v' own' hx
    cases x with
    | ok b => exact hx
    | error e => exact hx
  · intro b v' own' hpaid
    exact Accounts.ret fun w hrel => Paid.after hpaid hrel hmine (Rests.refl _)
  · exact fun e v' own' hunpaid => hunpaid

/-- The confirmation of the call's own row. -/
theorem confirmOn_tops (hmine : mine) {m : Money} (hvalue : m.value = l.input.amount.value)
    (h : Unpaid l mine p t (some p) (some t) own v.world) :
    TopupAccounts mine p t (Tops s l mine p t)
      (s.confirmOn .pool l.merchantID t (Service.topupConfirmation m)) v own := by
  refine Accounts.bind (only_reads (OnPool.bind (.read rfl) fun _ => .checked _)) ?_ ?_
  swap
  · rintro e v₁ own₁ ⟨hrel, hrests⟩
    exact h.after hrel hrests
  rintro tx v₁ own₁ ⟨hrel₁, hrests₁⟩
  have h₁ := h.after hrel₁ hrests₁
  split
  · exact Accounts.fail fun w hrel => h₁.stable hrel
  refine asks rfl ?_
  intro w₂ env₂ own₂ hrel₂ hrests₂ _
  have h₂ := h₁.after hrel₂ hrests₂
  let now := engine.reply .timeNow env₂ w₂
  let metaData := tx.metaData.merge (Service.topupConfirmation m).metaData
  let params := (Service.topupConfirmation m).toRepo l.merchantID t now metaData
  apply Accounts.pool
  intro w₃ env₃ hrel₃ _
  obtain ⟨h₃, hanswer⟩ := Unpaid.complete m env₃ now metaData hmine (h₂.stable hrel₃)
  show TopupAccounts mine p t _ ((succeed (s.toTransaction (engine.reply (.updateTransaction params)
    env₃ w₃))).bind _) _ _
  cases hupdated : s.toTransaction (engine.reply (.updateTransaction params) env₃ w₃) with
  | error e => exact Accounts.fail fun w hrel => h₃.stable hrel
  | ok updated =>
  obtain ⟨row, hreply, htx⟩ := s.toTransaction_eq_ok hupdated
  obtain ⟨hrow, -, hfact, hpair⟩ := hanswer row hreply
  obtain ⟨currency, fee, hcurrency, -, rfl⟩ := s.entryToTransaction_eq_ok htx
  show TopupAccounts mine p t _ (((s.updateBalancesAfterTxConfirmation .pool
    (Service.transactionOf row currency fee) (Service.topupConfirmation m)).mapError _).bind _) _ _
  refine Accounts.bind (M := Tops s l mine p t) (Accounts.mapError
    (updateBalances_tops hmine hrow hcurrency hfact hvalue h₃ hpair) ?_) ?_ ?_
  · intro x v' own' hx
    cases x with
    | ok u => exact hx
    | error e => exact hx
  · intro u v' own' hpaid
    exact Accounts.ret fun w hrel => Paid.after hpaid hrel hmine (Rests.refl _)
  · exact fun e v' own' hunpaid => hunpaid

end Credit

section Parts

variable {α : Type} {v : View Stmt Env World LockKey} {q r : Option Int} {Φ : Stmt → Prop}

theorem CallBooks.keep_autocommit {st : Stmt} {env : Env} (h : CallBooks q r own)
    (hpayment : ∀ params, st ≠ .createPayment params)
    (htransaction : ∀ params, st ≠ .createTransaction params) :
    CallBooks q r (own ++ [(w, engine.autocommit st env w)]) := by
  apply h.keep
  · intro id hid
    rcases hasPayment_autocommit hid with hbefore | ⟨params, rfl, -⟩
    · exact hbefore
    · exact absurd rfl (hpayment params)
  · intro id hid
    rcases hasTransaction_autocommit hid with hbefore | ⟨params, rfl, -⟩
    · exact hbefore
    · exact absurd rfl (htransaction params)

/-- What it makes of rows that are elsewhere. -/
theorem keeps_books {prog : Call α} (hprog : OnPool Φ prog)
    (hpayment : ∀ params, ¬ Φ (.createPayment params))
    (htransaction : ∀ params, ¬ Φ (.createTransaction params)) (h : CallBooks q r own) :
    TopupAccounts mine p t (fun _ _ own' => CallBooks q r own') prog v own := by
  apply keeps_of_onPool (J := fun _ own' => CallBooks q r own') hprog
  · exact fun _ _ _ _ hbooks => hbooks
  · intro st env w own' hst _ _ hbooks
    apply hbooks.keep_autocommit
    · rintro params rfl
      exact hpayment params (hst (fun h => by cases h))
    · rintro params rfl
      exact htransaction params (hst (fun h => by cases h))
  · exact h

/-- A part that writes no balance either leaves nothing paid. -/
theorem keeps_nothing {prog : Call α} (hprog : OnPool Φ prog)
    (hpayment : ∀ params, ¬ Φ (.createPayment params))
    (htransaction : ∀ params, ¬ Φ (.createTransaction params))
    (hbalances : ∀ st, Φ st → st.changes ≠ some .balances) (h : CallBooks q r own)
    (hnothing : ∀ k, gain k own = 0) :
    TopupAccounts mine p t (fun _ _ own' => CallBooks q r own' ∧ ∀ k, gain k own' = 0) prog v
      own := by
  apply keeps_of_onPool (J := fun _ own' => CallBooks q r own' ∧ ∀ k, gain k own' = 0) hprog
  · exact fun _ _ _ _ hkept => hkept
  · rintro st env w own' hst - - ⟨hbooks, hkept⟩
    constructor
    · apply hbooks.keep_autocommit
      · rintro params rfl
        exact hpayment params (hst (fun h => by cases h))
      · rintro params rfl
        exact htransaction params (hst (fun h => by cases h))
    · intro k
      have hsame : st.changes ≠ some .balances := by
        by_cases hread : st.changes = none
        · rw [hread]
          decide
        · exact hbalances st (hst hread)
      rw [gain_append, hkept, gain_single]
      dsimp only
      rw [amountAt_congr (autocommit_balances hsame)]
      omega
  · exact ⟨h, hnothing⟩

theorem keeps_reckons {prog : Call α} (hprog : OnPool (fun _ => False) prog)
    (h : Reckons s l mine p t own v.world) :
    TopupAccounts mine p t (fun _ v' own' => Reckons s l mine p t own' v'.world) prog v own := by
  apply Accounts.mono _ (only_reads hprog)
  rintro x v' own' ⟨hrel, hrests⟩
  exact (h.stable hrel).rests hrests

end Parts

theorem FailsPayment.not_create {q : Int} (params : CreatePaymentParams) :
    ¬ FailsPayment q (.createPayment params) := fun hfalse => hfalse

theorem FailsPayment.not_transact {q : Int} (params : CreateTransactionParams) :
    ¬ FailsPayment q (.createTransaction params) := fun hfalse => hfalse

theorem FailsPayment.changes {q : Int} {st : Stmt} (h : FailsPayment q st) :
    st.changes ≠ some .balances := by
  cases st <;> first
    | exact h.elim
    | exact fun hfalse => by cases hfalse

section Failing

variable {v : View Stmt Env World LockKey} {pt : Payment}

/-- The payment of the call's own pair is failed. -/
theorem failPayment_reckons (hmine : mine) (hid : pt.id = p)
    (hmerchant : pt.merchantID = l.merchantID)
    (h : Unpaid l mine p t (some p) (some t) own v.world) :
    TopupAccounts mine p t (fun _ v' own' => Reckons s l mine p t own' v'.world)
      (Service.failPayment pt) v own := by
  subst hid
  refine asks rfl ?_
  intro w₁ env₁ own₁ hrel₁ hrests₁ _
  have h₁ := h.after hrel₁ hrests₁
  apply Accounts.pool
  rintro w₂ env₂ hrel₂ ⟨-, hsettled⟩
  have hfailed := Unpaid.fail (s := s) hmine (h₁.stable hrel₂) rfl hmerchant rfl hsettled
  refine keeps_reckons ?_ hfailed
  -- what follows is a publication and the row turned into a payment
  apply OnPool.bind
  · apply OnPool.bind (.checked _)
    intro row
    split
    · apply OnPool.bind (.read rfl)
      intro published
      exact OnPool.bind (.checked _) fun _ => .checked _
    · exact .checked _
  · exact fun _ => trivial

/-- However far the call came with its transaction, failing the payment is what
it has to do. -/
theorem failedTopup_reckons {r : Option Int} {e : Err} (hmerchant : pt.merchantID = l.merchantID)
    (h : Unpaid l mine p t (some pt.id) r own v.world) :
    TopupAccounts mine p t (fun _ v' own' => Reckons s l mine p t own' v'.world)
      (Service.failedTopup pt e) v own := by
  by_cases hours : mine ∧ some pt.id = some p ∧ r = some t
  · obtain ⟨hmine, hid, rfl⟩ := hours
    rw [hid] at h
    refine Accounts.attempt_bind
      (failPayment_reckons (s := s) hmine (Option.some.inj hid) hmerchant h) ?_
    intro x v' own' hreckons
    cases x with
    | ok u => exact Accounts.fail fun w hrel => hreckons.stable hrel
    | error e => exact Accounts.fail fun w hrel => hreckons.stable hrel
  · apply Accounts.mono _ (keeps_nothing (failedTopup_onPool pt e) FailsPayment.not_create
      FailsPayment.not_transact (fun st => FailsPayment.changes) h.books h.nothing)
    rintro x v' own' ⟨hbooks, hnothing⟩
    apply Reckons.elsewhere hbooks
    · rintro ⟨k, hk⟩
      exact absurd (hnothing k) hk
    · exact hours

theorem failedTopup_elsewhere {q r : Int} {e : Err} (hbooks : CallBooks (some q) (some r) own)
    (hother : ¬ (mine ∧ some q = some p ∧ some r = some t)) :
    TopupAccounts mine p t (fun _ v' own' => Reckons s l mine p t own' v'.world)
      (Service.failedTopup pt e) v own := by
  apply Accounts.mono _ (keeps_books (failedTopup_onPool pt e) FailsPayment.not_create
    FailsPayment.not_transact hbooks)
  intro x v' own' hbooks'
  exact Reckons.elsewhere hbooks' (fun _ => ⟨rfl, rfl⟩) hother

end Failing

/-- A transaction was made and paid, or the payment is left to be failed. -/
def Attempted (s : Service) (l : TopupCall) (mine : Prop) (p t q : Int) :
    Except Err Transaction → View Stmt Env World LockKey → Deeds World → Prop
  | .ok _, v, own => Reckons s l mine p t own v.world
  | .error _, v, own => (∃ r, Unpaid l mine p t (some q) r own v.world) ∨
      ∃ r, CallBooks (some q) (some r) own ∧ ¬ (mine ∧ some q = some p ∧ some r = some t)

section Whole

variable {v : View Stmt Env World LockKey}

theorem createSystemTopup_accounts {pt : Payment} (usdAmount : Money)
    (h : Unpaid l mine p t (some pt.id) none own v.world) :
    TopupAccounts mine p t (Attempted s l mine p t pt.id)
      (s.createSystemTopup l.merchantID (Service.topupTransaction pt l.input usdAmount)) v own := by
  refine Accounts.bind (Accounts.mapError (createTopupTransaction_accounts (s := s) usdAmount h)
    (Q := fun x v' own' =>
      (∀ tx, x = .ok tx → Unpaid l mine p t (some pt.id) (some tx.id) own' v'.world ∧
        ∀ m, tx.factAmount = some m → m.value = l.input.amount.value) ∧
      (∀ e, x = .error e → ∃ r, Unpaid l mine p t (some pt.id) r own' v'.world)) ?_) ?_ ?_
  · rintro x v' own' ⟨hok, herror⟩
    cases x with
    | ok tx =>
      refine ⟨hok, ?_⟩
      intro e he
      cases he
    | error e =>
      refine ⟨?_, fun _ _ => herror e rfl⟩
      intro tx htx
      cases htx
  · rintro tx v₁ own₁ ⟨hok, -⟩
    obtain ⟨h₁, hamount⟩ := hok tx rfl
    cases hfact : tx.factAmount with
    | none => exact Accounts.fail fun w hrel => .inl ⟨_, h₁.stable hrel⟩
    | some m =>
    dsimp only
    by_cases hours : mine ∧ some pt.id = some p ∧ some tx.id = some t
    · obtain ⟨hmine, hid, htid⟩ := hours
      have hunpaid : Unpaid l mine p t (some p) (some t) own₁ v₁.world := by
        rw [← hid, ← htid]
        exact h₁
      rw [Option.some.inj htid]
      apply Accounts.mapError (confirmOn_tops hmine (hamount m hfact) hunpaid)
      intro x v' own' hx
      cases x with
      | ok u => exact Paid.reckons hx
      | error e => exact .inl ⟨some t, by rw [hid]; exact hx⟩
    · apply Accounts.mapError (keeps_books (confirmOn_onPool s l.merchantID tx.id _)
        (fun _ hfalse => hfalse) (fun _ hfalse => hfalse) h₁.books)
      intro x v' own' hbooks
      cases x with
      | ok u => exact Reckons.elsewhere hbooks (fun _ => ⟨rfl, rfl⟩) hours
      | error e => exact .inr ⟨tx.id, hbooks, hours⟩
  · rintro e v₁ own₁ ⟨-, herror⟩
    exact .inl (herror e rfl)

/-- What a topup has to show for itself, whatever it ran into. -/
theorem topup_reckons (h : Unpaid l mine p t none none own v.world) :
    TopupAccounts mine p t (fun _ v' own' => Reckons s l mine p t own' v'.world)
      (s.topupMerchantFromSystem l.merchantID l.input) v own := by
  have hblank : ∀ {q : Option Int} {own' : Deeds World} {w : World}, CallBooks q none own' →
      (∀ k, gain k own' = 0) → Reckons s l mine p t own' w := by
    intro q own' w hbooks hnothing
    apply Reckons.elsewhere hbooks
    · rintro ⟨k, hk⟩
      exact absurd (hnothing k) hk
    · rintro ⟨-, -, hr⟩
      cases hr
  have hreading : ∀ {α : Type} {prog : Call α} {f : α → Call TopupOut}
      {v : View Stmt Env World LockKey} {own : Deeds World}, OnPool (fun _ => False) prog →
      Unpaid l mine p t none none own v.world →
      (∀ a v' own', Unpaid l mine p t none none own' v'.world →
        TopupAccounts mine p t (fun _ v' own' => Reckons s l mine p t own' v'.world) (f a) v'
          own') →
      TopupAccounts mine p t (fun _ v' own' => Reckons s l mine p t own' v'.world) (prog.bind f) v
        own := by
    intro α prog f v own hprog h hrest
    refine Accounts.bind (only_reads hprog) ?_ ?_
    · rintro a v' own' ⟨hrel, hrests⟩
      exact hrest a v' own' (h.after hrel hrests)
    · rintro e v' own' ⟨hrel, hrests⟩
      exact hblank (hrests.books h.books) fun k => (hrests.gain k).trans (h.nothing k)
  refine hreading (.read rfl) h ?_
  intro merchant v₁ own₁ h₁
  refine hreading (.checked _) h₁ ?_
  intro _ v₂ own₂ h₂
  refine hreading (.mapError _ (locateSystemBalance_onPool _ _ _)) h₂ ?_
  intro systemBalance v₃ own₃ h₃
  refine hreading (.checked _) h₃ ?_
  intro _ v₄ own₄ h₄
  refine hreading (.read rfl) h₄ ?_
  intro conv v₅ own₅ h₅
  refine hreading (.checked _) h₅ ?_
  intro usdAmount v₆ own₆ h₆
  refine Accounts.bind (Accounts.mapError (createTopupPayment_accounts h₆) (Q := fun x v' own' =>
    (∀ pt, x = .ok pt → pt.merchantID = l.merchantID ∧
      Unpaid l mine p t (some pt.id) none own' v'.world) ∧
    (∀ e, x = .error e → ∃ q, CallBooks q none own' ∧ ∀ k, gain k own' = 0)) ?_) ?_ ?_
  · rintro x v' own' ⟨hok, herror⟩
    cases x with
    | ok pt =>
      refine ⟨hok, ?_⟩
      intro e he
      cases he
    | error e =>
      refine ⟨?_, fun _ _ => herror e rfl⟩
      intro pt hpt
      cases hpt
  swap
  · rintro e v₇ own₇ ⟨-, herror⟩
    obtain ⟨q, hbooks, hnothing⟩ := herror e rfl
    exact hblank hbooks hnothing
  rintro pt v₇ own₇ ⟨hok, -⟩
  obtain ⟨hmerchant, h₇⟩ := hok pt rfl
  refine Accounts.attempt_bind (createSystemTopup_accounts (s := s) usdAmount h₇) ?_
  intro created v₈ own₈ hcreated
  refine Accounts.bind (M := fun _ v' own' => Reckons s l mine p t own' v'.world) ?_ ?_ ?_
  · cases created with
    | ok tx => exact Accounts.ret fun w hrel => Reckons.stable hcreated hrel
    | error e =>
      rcases hcreated with ⟨r, hunpaid⟩ | ⟨r, hbooks, hother⟩
      · exact failedTopup_reckons hmerchant hunpaid
      · exact failedTopup_elsewhere hbooks hother
  · intro tx v₉ own₉ h₉
    apply keeps_reckons _ h₉
    exact OnPool.bind (.mapError _ (getMerchantBalance_onPool _ _ _ _)) fun _ => trivial
  · exact fun e v₉ own₉ h₉ => h₉

end Whole

end CryptoLink
