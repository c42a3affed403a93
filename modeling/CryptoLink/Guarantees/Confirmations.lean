import CryptoLink.Alone
import CryptoLink.Atomic
import CryptoLink.Guarantees.Finality

/-!
# What a confirmation credits

`Confirm` writes the row and the ledger in one database transaction. Alone, it
adds the confirmed amount to the wallet and to the merchant what was asked for
and received, less the fee, or it changes nothing.
-/

namespace CryptoLink

open ReadCommitted StatementPrograms KeyedTables

def BalanceRow.lookup (b : BalanceRow) : BalanceFilter :=
  ⟨b.key.entityID, b.key.entityType, b.key.networkID, b.key.currency⟩

theorem getBalanceByFilter_eq (w : World) (f : BalanceFilter) :
    w.getBalanceByFilter f = w.balances.rows.find? fun b => decide (b.lookup = f) := by
  unfold World.getBalanceByFilter
  congr 1
  funext b
  rw [Bool.eq_iff_iff]
  simp only [Bool.and_eq_true, decide_eq_true_eq, BalanceRow.lookup, and_assoc]
  cases f
  simp

/-- What an entity holds of a currency on a network. -/
def World.held (w : World) (f : BalanceFilter) : Int :=
  match w.getBalanceByFilter f with
  | none => 0
  | some b => b.amount

/-- `x` was added to the balance `f`, and nothing else was touched. -/
structure Added (f : BalanceFilter) (x : Int) (w w' : World) : Prop where
  held : ∀ f', w'.held f' = w.held f' + if f' = f then x else 0
  transactions : w'.transactions = w.transactions
  stored : w.balances.get noBalance = none → w'.balances.get noBalance = none

theorem lookup_of_get {w : World} {f : BalanceFilter} {b : BalanceRow}
    (h : w.getBalanceByFilter f = some b) : b.lookup = f ∧ w.balances.get b.key = some b := by
  rw [getBalanceByFilter_eq] at h
  have hlookup := List.find?_some h
  exact ⟨by simpa using hlookup, Table.get_of_mem (List.mem_of_find?_eq_some h)⟩

/-- An update of the row found adds to its balance. -/
theorem added_of_update {w : World} {f : BalanceFilter} {b : BalanceRow} {now x : Int}
    (h : w.getBalanceByFilter f = some b) :
    Added f x w { w with
      balances := w.balances.modify b.key (World.updatedBalance ⟨b.key, now, x⟩)
        (World.updatedBalance_key _) } := by
  obtain ⟨hlookup, hget⟩ := lookup_of_get h
  refine ⟨fun f' => ?_, rfl, fun hnone => ?_⟩
  · have hsame : World.getBalanceByFilter { w with
        balances := w.balances.modify b.key (World.updatedBalance ⟨b.key, now, x⟩)
          (World.updatedBalance_key _) } f' = (w.getBalanceByFilter f').map fun r =>
          if r.key = b.key then World.updatedBalance ⟨b.key, now, x⟩ r else r := by
      rw [getBalanceByFilter_eq, getBalanceByFilter_eq, Table.rows_modify, List.find?_map]
      congr 2
      funext r
      by_cases hr : r.key = b.key
      · simp only [Function.comp, if_pos hr]
        rfl
      · simp only [Function.comp, if_neg hr]
    rw [World.held, World.held, hsame]
    by_cases hf : f' = f
    · subst hf
      rw [h]
      simp [World.updatedBalance]
    · cases hother : w.getBalanceByFilter f' with
      | none => simp [hf]
      | some r =>
        -- a row of another balance has another key
        have hne : r.key ≠ b.key := by
          intro hkey
          obtain ⟨hr, hrget⟩ := lookup_of_get hother
          rw [hkey, hget] at hrget
          cases hrget
          exact hf (hr.symm.trans hlookup)
        simp [hne, hf]
  · have hmodify := Table.get_modify w.balances b.key noBalance
      (World.updatedBalance ⟨b.key, now, x⟩) (World.updatedBalance_key _)
    rw [hnone] at hmodify
    exact hmodify

/-- A row created where none was found opens its balance. -/
theorem added_of_create {w : World} {f : BalanceFilter} {p : CreateBalanceParams}
    (h : w.getBalanceByFilter f = none) (hfits : w.balanceFits p = true)
    (hlookup : (World.newBalance p).lookup = f) (htype : p.key.entityType ≠ .unset) :
    Added f p.amount w { w with balances := w.balances.insert (World.newBalance p) } := by
  have hfree : w.balances.get (World.newBalance p).key = none := by
    simp only [World.balanceFits, Bool.and_eq_true, Option.isNone_iff_eq_none] at hfits
    exact hfits.1.1.1.1
  have hrows : (w.balances.insert (World.newBalance p)).rows =
      w.balances.rows ++ [World.newBalance p] := by
    rw [Table.rows_insert, if_neg (Table.get_eq_none_iff.mp hfree)]
  refine ⟨fun f' => ?_, rfl, fun hnone => ?_⟩
  · have hsame : World.getBalanceByFilter
        { w with balances := w.balances.insert (World.newBalance p) } f' =
        (w.getBalanceByFilter f').or
          (if f' = f then some (World.newBalance p) else none) := by
      rw [getBalanceByFilter_eq, getBalanceByFilter_eq, hrows, List.find?_append]
      congr 1
      by_cases hf : f' = f
      · subst hf
        simp [hlookup]
      · have hne : ¬ (World.newBalance p).lookup = f' := fun he => hf (he.symm.trans hlookup)
        simp [hf, hne]
    rw [World.held, World.held, hsame]
    by_cases hf : f' = f
    · subst hf
      rw [h]
      simp [World.newBalance]
    · cases hother : w.getBalanceByFilter f' with
      | none => simp [hf]
      | some r => simp [hf]
  · show (w.balances.insert (World.newBalance p)).get noBalance = none
    rw [Table.get_insert_of_ne]
    · exact hnone
    · intro hkey
      apply htype
      show (World.newBalance p).key.entityType = .unset
      rw [← hkey]
      rfl

variable {w₀ : World} {P : World → Prop}

/-- Before an update: no row has the key of a balance that was never read. -/
def Readable (P : World → Prop) (w : World) : Prop :=
  P w ∧ w.balances.get noBalance = none

/-- After it. -/
def AddedTo (P : World → Prop) (f : BalanceFilter) (x : Int) (w' : World) : Prop :=
  ∃ w, Readable P w ∧ Added f x w w'

theorem added_of_reply_update {w : World} {f : BalanceFilter} {b row : BalanceRow} {now x : Int}
    {env : Env} (h : w.getBalanceByFilter f = some b)
    (hrow : engine.reply (.updateBalanceByID ⟨b.key, now, x⟩) env w = .ok row) :
    Added f x w (engine.effect (.updateBalanceByID ⟨b.key, now, x⟩) env w w) := by
  obtain ⟨-, hget⟩ := lookup_of_get h
  obtain ⟨hdone, hanswer⟩ := answered_eq_ok hrow
  simp only [hget] at hanswer
  split at hanswer
  · have htarget : w.balanceTarget ⟨b.key, now, x⟩ = some b := by
      simp [World.balanceTarget, *]
    have heffect : engine.effect (.updateBalanceByID ⟨b.key, now, x⟩) env w w =
        { w with
          balances := w.balances.modify b.key (World.updatedBalance ⟨b.key, now, x⟩)
            (World.updatedBalance_key _) } := by
      simp only [engine_effect, hdone, reduceCtorEq, if_false, World.effect, htarget]
    rw [heffect]
    exact added_of_update h
  · cases hanswer

theorem added_of_reply_create {w : World} {f : BalanceFilter} {p : CreateBalanceParams}
    {row : BalanceRow} {env : Env} (h : w.getBalanceByFilter f = none)
    (hlookup : (World.newBalance p).lookup = f) (htype : p.key.entityType ≠ .unset)
    (hrow : engine.reply (.createBalance p) env w = .ok row) :
    Added f p.amount w (engine.effect (.createBalance p) env w w) := by
  obtain ⟨hdone, hanswer⟩ := answered_eq_ok hrow
  split at hanswer
  · rename_i hfits
    have heffect : engine.effect (.createBalance p) env w w =
        { w with balances := w.balances.insert (World.newBalance p) } := by
      simp only [engine_effect, hdone, reduceCtorEq, if_false, World.effect, hfits, if_true]
    rw [heffect]
    exact added_of_create h hfits hlookup htype
  · cases hanswer

/-- The row with id 0 is not there to be updated. -/
theorem reply_update_noBalance {w : World} {now x : Int} {env : Env} {row : BalanceRow}
    (h : w.balances.get noBalance = none) :
    engine.reply (.updateBalanceByID ⟨noBalance, now, x⟩) env w ≠ .ok row := by
  intro hrow
  obtain ⟨-, hanswer⟩ := answered_eq_ok hrow
  simp only [h] at hanswer
  cases hanswer

/-- What a lookup tells of the balance: its row, or that there is none; or it failed. -/
def Found (f : BalanceFilter) (w : World) : Except Err BalanceRow → Prop
  | .ok b => w.getBalanceByFilter f = some b
  | .error e => e.is .noRows = true → w.getBalanceByFilter f = none

theorem found_of_reply (f : BalanceFilter) (env : Env) (w : World) :
    Found f w (engine.reply (.getBalanceByFilterWithLock f) env w) := by
  have hreply : engine.reply (.getBalanceByFilterWithLock f) env w =
      answered env.fate .database (noRows (w.getBalanceByFilter f)) := rfl
  rw [hreply, answered]
  by_cases hdone : env.fate = .done
  · rw [if_pos hdone]
    cases hget : w.getBalanceByFilter f with
    | none => exact fun _ => hget
    | some b => exact hget
  · rw [if_neg hdone]
    intro h
    exact absurd h (by decide)

theorem upsertBalance_adds {p : UpdateBalanceQuery} {now : Int} {found : Except Err BalanceRow}
    (hticker : p.amount.ticker = p.currency.ticker) (htype : p.entityType ≠ .unset) :
    InTransaction w₀ (fun w => Readable P w ∧ Found p.filter w found)
      (upsertBalance .tx p now found)
      fun changed w' => ∀ row, changed = .ok row →
        AddedTo P p.filter (p.operation.signed p.amount) w' := by
  cases found with
  | ok b =>
    refine .statement (fun _ => (fun h => by cases h)) fun env w hw row hrow => ?_
    exact ⟨w, hw.1, added_of_reply_update hw.2 hrow⟩
  | error e =>
    rw [upsertBalance]
    by_cases he : e.is .noRows = true
    · rw [if_pos he]
      refine .statement (fun _ => (fun h => by cases h)) fun env w hw row hrow => ?_
      refine ⟨w, hw.1, added_of_reply_create (hw.2 he) ?_ htype hrow⟩
      simp only [BalanceRow.lookup, World.newBalance, UpdateBalanceQuery.create,
        UpdateBalanceQuery.filter, hticker]
    · rw [if_neg he]
      refine .statement (fun _ => (fun h => by cases h)) fun env w hw row hrow => ?_
      exact absurd hrow (reply_update_noBalance hw.1.2)

/-- An update that ends well has added its amount. -/
theorem updateBalance_adds {p : UpdateBalanceQuery}
    (hticker : p.amount.ticker = p.currency.ticker) :
    InTransaction w₀ (Readable P) (updateBalance .tx p)
      fun _ => AddedTo P p.filter (p.operation.signed p.amount) := by
  refine .bind (M := fun _ w => Readable P w ∧ p.entityType ≠ .unset)
    (.checked fun _ hvalid w hw => ⟨hw, ?_⟩) fun _ => .given fun htype => ?_
  · rintro hunset
    simp [UpdateBalanceQuery.validate, hunset] at hvalid
  refine .bind (M := fun found w => Readable P w ∧ Found p.filter w found)
    (.read rfl fun env w hw => ⟨hw, found_of_reply p.filter env w⟩) fun found => ?_
  refine .bind .timeNow fun now => .bind (upsertBalance_adds hticker htype) fun changed => ?_
  refine .bind (M := fun _ => AddedTo P p.filter (p.operation.signed p.amount))
    (.checked fun row hrow w hw => hw row (wrapErr_eq_ok.mp hrow)) fun balance => ?_
  refine .bind (M := fun _ => AddedTo P p.filter (p.operation.signed p.amount)) ?_
    fun _ => .ret fun _ hw => hw
  refine .mapError (.bind .timeNow fun now => .bind (.statement (fun _ => (fun h => by cases h)) ?_)
    fun r => .checked fun _ _ _ hw => hw)
  rintro env w ⟨u, hu, hadded⟩
  have hlogged : (engine.effect (.insertBalanceAuditLog ⟨now, balance.key, p.comment,
      (auditMetaData p.metaData p.operation p.amount).toJSONB⟩) env w w).balances = w.balances ∧
      (engine.effect (.insertBalanceAuditLog ⟨now, balance.key, p.comment,
        (auditMetaData p.metaData p.operation p.amount).toJSONB⟩) env w w).transactions =
          w.transactions := by
    rw [engine_effect]
    split
    · exact ⟨rfl, rfl⟩
    · exact ⟨rfl, rfl⟩
  refine ⟨u, hu, ?_, ?_, ?_⟩
  · intro f'
    rw [← hadded.held f', World.held, World.held, World.getBalanceByFilter,
      World.getBalanceByFilter, hlogged.1]
  · rw [hlogged.2]
    exact hadded.transactions
  · intro hnone
    rw [hlogged.1]
    exact hadded.stored hnone

/-- The balance of an entity in the currency of a transaction. -/
def balanceFor (tx : Transaction) (entityType : EntityType) (id : Int) : BalanceFilter :=
  ⟨id, entityType, tx.currency.chooseNetwork tx.isTest, tx.currency.ticker⟩

/-- What a confirmation with `status` credits of the amount `fact`. -/
structure Credited (tx : Transaction) (status : Transaction.Status) (fact : Int) (w w' : World) :
    Prop where
  merchant : status ≠ .completedInvalid → tx.merchantID ≠ Transaction.systemMerchantID →
    w'.held (balanceFor tx .merchant tx.merchantID) =
      w.held (balanceFor tx .merchant tx.merchantID) +
        (min fact tx.amount.value - tx.serviceFee.value)
  wallet : ∀ id ∈ tx.recipientWalletID,
    w'.held (balanceFor tx .wallet id) = w.held (balanceFor tx .wallet id) + fact
  invalid : status = .completedInvalid → ∀ f, f.entityType = .merchant → w'.held f = w.held f
  system : tx.merchantID = Transaction.systemMerchantID →
    ∀ f, f.entityType = .merchant → w'.held f = w.held f
  others : ∀ f, f ≠ balanceFor tx .merchant tx.merchantID →
    (∀ id ∈ tx.recipientWalletID, f ≠ balanceFor tx .wallet id) → w'.held f = w.held f

/-- The part of it that goes to the wallet. -/
structure WalletCredited (tx : Transaction) (fact : Int) (w w' : World) : Prop where
  wallet : ∀ id ∈ tx.recipientWalletID,
    w'.held (balanceFor tx .wallet id) = w.held (balanceFor tx .wallet id) + fact
  others : ∀ f, (∀ id ∈ tx.recipientWalletID, f ≠ balanceFor tx .wallet id) → w'.held f = w.held f
  transactions : w'.transactions = w.transactions

namespace Service

variable {s : Service} {tx : Transaction} {fact : Money}

theorem incrementRecipientBalance_credits {comment : String}
    (hticker : fact.ticker = tx.currency.ticker) :
    InTransaction w₀ (Readable P) (incrementRecipientBalance .tx tx fact comment)
      fun _ w' => Readable (fun w' => ∃ w, Readable P w ∧
        WalletCredited tx fact.value w w') w' := by
  unfold incrementRecipientBalance
  cases hid : tx.recipientWalletID with
  | none =>
    refine .ret fun w hw => ⟨⟨w, hw, ?_, fun _ _ => rfl, rfl⟩, hw.2⟩
    intro id h
    rw [hid] at h
    cases h
  | some id =>
    refine .bind (.mapError (updateBalance_adds hticker)) fun _ => .ret fun w' hw' => ?_
    obtain ⟨w, hw, hadded⟩ := hw'
    replace hadded : Added (balanceFor tx .wallet id) fact.value w w' := hadded
    refine ⟨⟨w, hw, ?_, ?_, hadded.transactions⟩, hadded.stored hw.2⟩
    · intro id' h
      rw [hid] at h
      cases h
      rw [hadded.held, if_pos rfl]
    · intro f hf
      rw [hadded.held, if_neg (hf id hid), Int.add_zero]

/-- The amount the merchant gains. -/
theorem gainedAmount_sub {gained : Money} (hsame : fact.compatibleTo tx.amount = true)
    (h : (gainedAmount tx fact).sub tx.serviceFee = .ok gained) :
    gained.ticker = tx.amount.ticker ∧
      gained.value = min fact.value tx.amount.value - tx.serviceFee.value := by
  obtain ⟨hticker, -⟩ := Money.compatibleTo_iff.mp hsame
  have hshape : (gainedAmount tx fact).ticker = tx.amount.ticker ∧
      (gainedAmount tx fact).value = min fact.value tx.amount.value := by
    unfold gainedAmount Money.greaterThan
    rw [hsame, Bool.true_and]
    by_cases hmore : tx.amount.value < fact.value
    · rw [if_pos (by simpa using hmore)]
      exact ⟨rfl, by omega⟩
    · rw [if_neg (by simpa using hmore)]
      exact ⟨hticker, by omega⟩
  unfold Money.sub Money.subNegative at h
  split at h
  · cases h
  · rename_i out hout
    split at hout
    · cases hout
      split at h
      · cases h
      · cases h
        exact ⟨hshape.1, by rw [← hshape.2]⟩
    · cases hout

theorem creditIncoming_credits {params : ConfirmTransaction}
    (hticker : tx.amount.ticker = tx.currency.ticker) (hsame : fact.compatibleTo tx.amount = true) :
    InTransaction w₀ (Readable P) (creditIncoming .tx tx fact params) fun _ w' =>
      ∃ w, Readable P w ∧ w'.transactions = w.transactions ∧
        Credited tx tx.status fact.value w w' := by
  have hfact : fact.ticker = tx.currency.ticker := by
    obtain ⟨h, -⟩ := Money.compatibleTo_iff.mp hsame
    exact h.trans hticker
  -- a merchant's balance is no wallet's
  have hne : ∀ (f : BalanceFilter), f.entityType = .merchant →
      ∀ id ∈ tx.recipientWalletID, f ≠ balanceFor tx .wallet id := by
    rintro f hf id - rfl
    cases hf
  refine .bind (incrementRecipientBalance_credits hfact) fun _ => ?_
  by_cases hinvalid : tx.status = .completedInvalid
  · rw [if_pos hinvalid]
    refine .ret fun w' hw' => ?_
    obtain ⟨⟨w, hw, hwallet⟩, -⟩ := hw'
    refine ⟨w, hw, hwallet.transactions, fun h => absurd hinvalid h, hwallet.wallet, ?_, ?_, ?_⟩
    · exact fun _ f hf => hwallet.others f (hne f hf)
    · exact fun _ f hf => hwallet.others f (hne f hf)
    · exact fun f _ hf => hwallet.others f hf
  · rw [if_neg hinvalid]
    by_cases hsystem : tx.merchantID = Transaction.systemMerchantID
    · rw [if_pos hsystem]
      refine .ret fun w' hw' => ?_
      obtain ⟨⟨w, hw, hwallet⟩, -⟩ := hw'
      refine ⟨w, hw, hwallet.transactions, fun _ h => absurd hsystem h, hwallet.wallet, ?_, ?_, ?_⟩
      · exact fun _ f hf => hwallet.others f (hne f hf)
      · exact fun _ f hf => hwallet.others f (hne f hf)
      · exact fun f _ hf => hwallet.others f hf
    · rw [if_neg hsystem]
      refine .bind (M := fun gained w' => Readable (fun w' => ∃ w, Readable P w ∧
          WalletCredited tx fact.value w w') w' ∧ gained.ticker = tx.currency.ticker ∧
            gained.value = min fact.value tx.amount.value - tx.serviceFee.value)
        (.checked fun gained hgained w' hw' => ?_) fun gained => .given fun hgained => ?_
      · obtain ⟨hgain, hvalue⟩ := gainedAmount_sub hsame (wrapErr_eq_ok.mp hgained)
        exact ⟨hw', hgain.trans hticker, hvalue⟩
      obtain ⟨hgain, hvalue⟩ := hgained
      refine .bind (.mapError (updateBalance_adds hgain)) fun _ => .ret fun w'' hw'' => ?_
      obtain ⟨w', ⟨⟨w, hw, hwallet⟩, -⟩, hadded⟩ := hw''
      replace hadded : Added (balanceFor tx .merchant tx.merchantID) gained.value w' w'' := hadded
      refine ⟨w, hw, hadded.transactions.trans hwallet.transactions, ?_, ?_, ?_, ?_, ?_⟩
      · intro _ _
        rw [hadded.held, if_pos rfl, hwallet.others _ (hne _ rfl), hvalue]
      · intro id hid
        have hother : balanceFor tx .wallet id ≠ balanceFor tx .merchant tx.merchantID :=
          (fun h => by cases h)
        rw [hadded.held, if_neg hother, Int.add_zero, hwallet.wallet id hid]
      · exact fun h => absurd h hinvalid
      · exact fun h => absurd h hsystem
      · intro f hmerchant hf
        rw [hadded.held, if_neg hmerchant, Int.add_zero, hwallet.others f hf]

/-- What a confirmation leaves: the row with its new status, its received amount
and the fee it kept, and the ledger credited. -/
def Confirmed (s : Service) (txID : Int) (params : ConfirmTransaction) (w w' : World) : Prop :=
  ∃ row tx, transactionRow txID w = some row ∧ s.entryToTransaction row = .ok tx ∧
    (∃ r ∈ transactionRow txID w', r.status = params.status ∧
      r.factAmount = some params.factAmount.value ∧
      r.serviceFee = if params.status = .completedInvalid then 0 else row.serviceFee) ∧
    Credited tx params.status params.factAmount.value w w'

/-- The row of an incoming transaction, in a registered currency. -/
structure IncomingRow (s : Service) (row : TransactionRow) : Prop where
  incoming : row.type = .incoming
  currency : ∀ c, s.currencies.getCurrencyByTicker row.currency = .ok c → c.ticker = row.currency

/-- The row as the confirmation's update left it, with the ledger still as it was. -/
structure Updated (s : Service) (txID : Int) (params : ConfirmTransaction) (w : World)
    (updated : Transaction) (w' : World) : Prop where
  balances : w'.balances = w.balances
  row : ∃ r p currency fee, transactionRow txID w = some r ∧
    s.currencies.getCurrencyByTicker r.currency = .ok currency ∧
    p.status = params.status ∧ p.factAmount = some params.factAmount.value ∧
    p.removeServiceFee = decide (params.status = .completedInvalid) ∧
    transactionRow txID w' = some (World.updatedTransaction p r) ∧
    updated = transactionOf (World.updatedTransaction p r) currency fee

theorem held_congr {w w' : World} (h : w'.balances = w.balances) (f : BalanceFilter) :
    w'.held f = w.held f := by
  rw [World.held, World.held, World.getBalanceByFilter, World.getBalanceByFilter, h]

theorem update_updates {w : World} {merchantID txID now : Int} {params : ConfirmTransaction}
    {md : MetaData} :
    InTransaction w (fun w' => w' = w)
      (do
        let entry ← ask .tx (.updateTransaction (params.toRepo merchantID txID now md))
        succeed (s.toTransaction entry))
      (Updated s txID params w) := by
  refine .bind (M := fun entry w' => ∀ row, entry = .ok row → w'.balances = w.balances ∧
    transactionRow txID w' = some row ∧ ∃ r, transactionRow txID w = some r ∧
      row = World.updatedTransaction (params.toRepo merchantID txID now md) r)
    (.statement (fun _ => (fun h => by cases h)) ?_) fun entry => .checked ?_
  · rintro env w' rfl row hrow
    obtain ⟨hdone, r, htarget, rfl⟩ := reply_updateTransaction hrow
    obtain ⟨-, hget, -⟩ := updateTarget_eq_some htarget
    refine ⟨?_, effect_updateTransaction hdone htarget, r, hget, rfl⟩
    rw [engine_effect]
    split
    · rfl
    · exact World.effect_balances (fun h => by cases h)
  · intro updated hupdated w' hw'
    obtain ⟨row, rfl, hentry⟩ := s.toTransaction_eq_ok hupdated
    obtain ⟨currency, fee, hcurrency, -, rfl⟩ := s.entryToTransaction_eq_ok hentry
    obtain ⟨hbalances, hafter, r, hr, rfl⟩ := hw' row rfl
    exact ⟨hbalances, r, _, currency, fee, hr, hcurrency, rfl, rfl, rfl, hafter, rfl⟩

/-- The ledger part, for the updated row of an incoming transaction. -/
theorem updateBalances_credits {updated : Transaction} {params : ConfirmTransaction}
    (hincoming : updated.type = .incoming)
    (hticker : updated.amount.ticker = updated.currency.ticker)
    (hfact : updated.factAmount = some fact) (hsame : fact.compatibleTo updated.amount = true) :
    InTransaction w₀ (Readable P) (s.updateBalancesAfterTxConfirmation .tx updated params)
      fun _ w' => ∃ w, Readable P w ∧ w'.transactions = w.transactions ∧
        Credited updated updated.status fact.value w w' := by
  unfold updateBalancesAfterTxConfirmation
  rw [hfact]
  dsimp only
  split
  · exact .fail
  · split
    · exact .fail
    · rw [hincoming]
      exact creditIncoming_credits hticker hsame

/-- What was credited for the updated row was credited for the row before. -/
theorem Credited.of_updated {row : TransactionRow} {p : UpdateTransactionParams}
    {params : ConfirmTransaction} {currency : CryptoCurrency} {fee fee' : Option Money}
    {w u w' : World}
    (hfee : p.removeServiceFee = decide (params.status = .completedInvalid))
    (hbalances : u.balances = w.balances) {fact' : Int}
    (h : Credited (transactionOf (World.updatedTransaction p row) currency fee') params.status fact'
      u w') : Credited (transactionOf row currency fee) params.status fact' w w' := by
  constructor
  · intro hvalid hmerchant
    have hkept : p.removeServiceFee = false := by
      rw [hfee]
      exact decide_eq_false hvalid
    have hmerchant' := h.merchant hvalid hmerchant
    rw [held_congr hbalances] at hmerchant'
    simpa [transactionOf, World.updatedTransaction, hkept, balanceFor] using hmerchant'
  · intro id hid
    rw [← held_congr hbalances]
    exact h.wallet id hid
  · intro hinvalid f hf
    rw [← held_congr hbalances]
    exact h.invalid hinvalid f hf
  · intro hsystem f hf
    rw [← held_congr hbalances]
    exact h.system hsystem f hf
  · intro f hmerchant hf
    rw [← held_congr hbalances]
    exact h.others f hmerchant hf

/-- The ledger part ends with the confirmation in place. -/
theorem ledger_confirms {w : World} {txID : Int} {row : TransactionRow} {tx : Transaction}
    {p : UpdateTransactionParams} {params : ConfirmTransaction} {currency : CryptoCurrency}
    (fee' : Option Money) (hrow : transactionRow txID w = some row)
    (hload : s.entryToTransaction row = .ok tx) (hincoming : IncomingRow s row)
    (hcurrency : s.currencies.getCurrencyByTicker row.currency = .ok currency)
    (hstatus : p.status = params.status) (hfact : p.factAmount = some params.factAmount.value)
    (hfee : p.removeServiceFee = decide (params.status = .completedInvalid)) :
    InTransaction w (Readable fun w' => w'.balances = w.balances ∧
        transactionRow txID w' = some (World.updatedTransaction p row))
      (s.updateBalancesAfterTxConfirmation .tx
        (transactionOf (World.updatedTransaction p row) currency fee') params)
      fun _ w' => Confirmed s txID params w w' := by
  obtain ⟨currency', fee, hcurrency', -, rfl⟩ := s.entryToTransaction_eq_ok hload
  obtain rfl : currency' = currency := Except.ok.inj (hcurrency'.symm.trans hcurrency)
  have hticker := hincoming.currency currency' hcurrency
  have hreceived : (transactionOf (World.updatedTransaction p row) currency' fee').factAmount =
      some (Money.crypto row.currency params.factAmount.value row.decimals) := by
    show Option.map _ p.factAmount = _
    rw [hfact]
    rfl
  refine .weaken (updateBalances_credits (P := fun w' => w'.balances = w.balances ∧
      transactionRow txID w' = some (World.updatedTransaction p row))
      hincoming.incoming hticker.symm hreceived ?_) (fun _ hw' => hw') fun _ w' hw' => ?_
  · exact Money.compatibleTo_iff.mpr ⟨rfl, rfl⟩
  · obtain ⟨u, ⟨⟨hbalances, hafter⟩, -⟩, htransactions, hcredited⟩ := hw'
    have hsame : transactionRow txID w' = transactionRow txID u :=
      congrArg (fun t => Table.get t txID) htransactions
    refine ⟨row, _, hrow, hload,
      ⟨World.updatedTransaction p row, hsame.trans hafter, hstatus, hfact,
      ?_⟩, ?_⟩
    · simp [World.updatedTransaction, hfee]
    · have hupdated : (transactionOf (World.updatedTransaction p row) currency' fee').status =
          params.status := hstatus
      rw [hupdated] at hcredited
      exact Credited.of_updated hfee hbalances hcredited

theorem confirmOn_credits {w : World} (merchantID : Int) {txID : Int}
    (params : ConfirmTransaction)
    (hrows : ∀ row ∈ transactionRow txID w, IncomingRow s row)
    (hstored : w.balances.get noBalance = none) :
    InTransaction w (fun w' => w' = w) (s.confirmOn .tx merchantID txID params)
      fun _ w' => Confirmed s txID params w w' := by
  refine .bind (M := fun tx w' => w' = w ∧ ∃ row, transactionRow txID w = some row ∧
    s.entryToTransaction row = .ok tx) ?_ fun tx => .given fun hloaded => ?_
  · refine .bind (M := fun entry w' => w' = w ∧ ∀ row, entry = .ok row →
      transactionRow txID w = some row) (.read rfl ?_) fun entry => .checked ?_
    · rintro env w' rfl
      exact ⟨rfl, fun row hrow => reply_getTransactionByID hrow⟩
    · rintro tx htx w' ⟨rfl, hrow⟩
      obtain ⟨row, hentry, hload⟩ := s.toTransaction_eq_ok htx
      exact ⟨rfl, row, hrow row hentry, hload⟩
  obtain ⟨row, hrow, hload⟩ := hloaded
  split
  · exact .fail
  refine .bind .timeNow fun now => ?_
  -- the update and the look at its answer come first
  simp only [Prog.bind_eq]
  rw [← Prog.bind_assoc]
  refine .bind update_updates fun updated => ?_
  refine .bind (M := fun _ w' => Confirmed s txID params w w') ?_ fun _ => .ret fun _ h => h
  rintro envs n v ⟨log, hsession, hopened, hbalances, hupdated⟩
  obtain ⟨r, p, currency, fee, hr, hcurrency, hstatus, hfact, hfee, hafter, rfl⟩ := hupdated
  obtain rfl : row = r := Option.some.inj (hrow.symm.trans hr)
  have hledger := ledger_confirms fee hrow hload (hrows row hrow) hcurrency hstatus hfact
    hfee
  refine hledger.mapError envs n v ⟨log, hsession, hopened, ⟨hbalances, hafter⟩, ?_⟩
  rw [hbalances]
  exact hstored

/-- A confirmation alone credits the right amounts, or it changes nothing. It
reports an error for changes that are in place only where an answer was lost. -/
theorem confirm_credits_or_changes_nothing (s : Service) (w : World) (merchantID txID : Int)
    (params : ConfirmTransaction) (hrows : ∀ row ∈ transactionRow txID w, IncomingRow s row)
    (hstored : w.balances.get noBalance = none) (envs : ℕ → Env) :
    match outcome (s.confirm merchantID txID params) envs w with
    | .ok _ => Confirmed s txID params w (worldAfter (s.confirm merchantID txID params) envs w)
    | .error _ => worldAfter (s.confirm merchantID txID params) envs w = w ∨
        (∃ k, (envs k).fate = .unanswered) ∧
          Confirmed s txID params w (worldAfter (s.confirm merchantID txID params) envs w) := by
  unfold outcome worldAfter confirm
  rw [Prog.bind_eq, Engine.alone_bind, succeed, Engine.alone_ofExcept]
  cases params.validate with
  | error e => exact .inl rfl
  | ok u =>
    have h := (confirmOn_credits merchantID params hrows hstored).runTx envs 0
    dsimp only
    generalize engine.alone envs (runTx (s.confirmOn .tx merchantID txID params)) 0 ⟨w, .idle⟩ = run
      at h ⊢
    obtain ⟨e | tx, n, v⟩ := run
    · obtain ⟨-, hsame | ⟨hlost, -, hconfirmed⟩⟩ := h
      · exact .inl hsame
      · exact .inr ⟨hlost, hconfirmed⟩
    · exact h.2

end Service

open Sample

namespace Sample

/-- The receipt of a hundred ether has arrived. -/
def hundredReceived : Service.ConfirmTransaction where
  status := .completed
  senderAddress := "payer"
  transactionHash := "0xh"
  factAmount := Money.crypto "ETH" 100 0
  networkFee := Money.crypto "ETH" 0 0
  metaData := []
  allowZeroNetworkFee := true

/-- Every call is answered, or all but the `n`th. -/
def lostAt (n : ℕ) : ℕ → Env := fun k => if k = n then { fate := .unanswered } else {}

theorem incomingRow_sample (status : Transaction.Status) (hash sender : Option String)
    (fact : Option Int) : Service.IncomingRow service (invoice status hash sender fact) where
  incoming := rfl
  currency c hc := by
    have hfound : service.currencies.getCurrencyByTicker "ETH" = .ok ether := by decide +kernel
    obtain rfl : ether = c := Except.ok.inj (hfound.symm.trans hc)
    rfl

end Sample

theorem confirm_credits_or_changes_nothing_sample :
    (worldAfter (service.confirm 7 1 hundredReceived) (fun _ => {}) awaitingReceipt).held
        ⟨7, .merchant, "1", "ETH"⟩ = 100 ∧
      match outcome (service.confirm 7 1 hundredReceived) (fun _ => {}) awaitingReceipt with
      | .ok _ => Service.Confirmed service 1 hundredReceived awaitingReceipt
          (worldAfter (service.confirm 7 1 hundredReceived) (fun _ => {}) awaitingReceipt)
      | .error _ => worldAfter (service.confirm 7 1 hundredReceived) (fun _ => {}) awaitingReceipt =
            awaitingReceipt ∨
          (∃ _ : ℕ, Fate.done = .unanswered) ∧
            Service.Confirmed service 1 hundredReceived awaitingReceipt
              (worldAfter (service.confirm 7 1 hundredReceived) (fun _ => {}) awaitingReceipt) := by
  refine ⟨by decide +kernel, ?_⟩
  refine Service.confirm_credits_or_changes_nothing service awaitingReceipt 7 1
    hundredReceived ?_ rfl
    fun _ => {}
  intro row hrow
  obtain rfl := Option.some.inj hrow
  exact incomingRow_sample _ _ _ _

/-- The commit lands, but its answer is lost: an error, and everything is changed. -/
theorem failed_confirm_changes_balances :
    ¬ ∀ (s : Service) (w : World) (merchantID txID : Int) (params : Service.ConfirmTransaction)
      (envs : ℕ → Env), params.validate = .ok () →
        (∀ row ∈ transactionRow txID w, Service.IncomingRow s row) →
        (outcome (s.confirm merchantID txID params) envs w).isOk = false →
        transactionRow txID (worldAfter (s.confirm merchantID txID params) envs w) =
            transactionRow txID w ∧
          ∀ f, (worldAfter (s.confirm merchantID txID params) envs w).held f = w.held f := by
  intro h
  have hkept := h service awaitingReceipt 7 1 hundredReceived (lostAt 9) rfl ?_ (by decide +kernel)
  · have hsame := hkept.2 ⟨7, .merchant, "1", "ETH"⟩
    revert hsame
    decide +kernel
  · intro row hrow
    obtain rfl := Option.some.inj hrow
    exact incomingRow_sample _ _ _ _

end CryptoLink
