import CryptoLink.Library.Triples
import CryptoLink.Watcher.Runs

/-!
# Old transfers

A collector's address outlives its invoices, and the cursor of a chain stands
still while nothing is pending. Nothing in between looks at the time a transfer
was mined.
-/

namespace CryptoLink

open KeyedTables ReadCommitted StatementPrograms

/-- Recorded as a fill of the transaction, or stored as its hash. -/
def Bound (w : World) (hash : String) (id : Int) : Prop :=
  (∃ f ∈ w.fills.rows, f.key.transactionID = id ∧ f.key.transactionHash = hash) ∨
    ∃ row, w.transactions.get id = some row ∧ row.transactionHash = some hash

/-- The row of the invoice behind transaction `id` when a cycle starts. A row
the cycle writes itself replaces the open ones of its payment at its address:
the invoice was then one of these. -/
def InvoiceRow (w₀ w : World) (id : Int) (row : TransactionRow) : Prop :=
  w₀.transactions.get id = some row ∨
    w₀.transactions.get id = none ∧ row ∈ w₀.transactions.rows ∧ Books.isOpen row = true ∧
      ∃ new, w.transactions.get id = some new ∧
        new.entityID.getD 0 = row.entityID.getD 0 ∧ new.recipientAddress = row.recipientAddress

section

variable (minedAt : String → Int)

/-- The transfer was mined when the row of the invoice was there. -/
def InTime (w₀ w : World) (id : Int) (hash : String) : Prop :=
  (∃ row, InvoiceRow w₀ w id row) ∧ ∀ row, InvoiceRow w₀ w id row → row.createdAt ≤ minedAt hash

def BindsInTime (w₀ w : World) : Prop :=
  ∀ hash id, Bound w hash id → ¬ Bound w₀ hash id → InTime minedAt w₀ w id hash

namespace Service

variable {A : Type} [DecidableEq A] (s : Service) (fmt : AddressFormat A) (cfg : Evm.Config)

/-- What an unmatched transfer is resolved from. -/
def unmatchedPayment (d : DetectedTransfer) (blockchain : Blockchain) (isTest isNative : Bool)
    (tokenContract rawAmount : String) : UnmatchedCollectorPayment where
  collectorAddress := d.recipientAddress
  blockchain := blockchain
  isTest := isTest
  isNative := isNative
  tokenContract := tokenContract
  rawAmount := rawAmount
  txHash := d.txHash
  senderAddress := d.senderAddress

/-- A matched transfer was mined when the row of its invoice was there, or is
recorded at its address and the read that looks for it is answered. One in
another currency was mined when every invoice open at its address was there. -/
def TimelyTransfer (w₀ : World) (answers : DetectedTransfer → ℕ → Env)
    (d : DetectedTransfer) : Prop :=
  match d.target with
  | .invoice tx _ _ networkID =>
      tx.createdAt ≤ minedAt d.txHash ∨
        w₀.fillExistsByHashAndRecipient networkID d.txHash d.recipient = true ∧
          (answers d 1).fate = .done
  | .unmatched blockchain isTest isNative tokenContract rawAmount =>
      (∃ currency, s.resolveUnmatchedCurrency (unmatchedPayment d blockchain isTest isNative
        tokenContract rawAmount) = .ok currency) →
      ∀ row ∈ w₀.transactions.rows, Books.isOpen row = true →
        row.recipientAddress = d.recipientAddress → row.createdAt ≤ minedAt d.txHash

/-- Every transfer the nodes show a cycle for one of its invoices or collectors
is timely. -/
def ShownInTime (x : WatcherState) (c : Cycle A) : Prop :=
  ∀ txs, s.listPending c.listing x.world = .ok txs → ∀ k d,
    Hands s fmt cfg c (sumsRead c.sums x.world) txs x k d →
      s.TimelyTransfer minedAt x.world c.answers d

/-- In every cycle of a run. -/
def EachCycle (P : WatcherState → Cycle A → Prop) : WatcherState → List (WatcherEvent A) → Prop
  | _, [] => True
  | x, e :: rest => (∀ c, e = .cycle c → P x c) ∧ EachCycle P (s.watcherStep fmt cfg x e) rest

end Service

section Steps

variable {minedAt} {w₀ w w' : World}

/-- Everything that can make a transfer bound. -/
theorem bound_of_effect {st : Stmt} {env : Env} {seen : World} {hash : String} {id : Int}
    (h : Bound (World.effect st env seen w) hash id) :
    Bound w hash id ∨
      (∃ p, st = .insertTransactionFill p ∧ p.key.transactionID = id ∧
        p.key.transactionHash = hash) ∨
      (∃ p, st = .updateTransaction p ∧ p.id = id ∧ p.transactionHash = some hash) ∨
      (∃ p, st = .createTransaction p ∧ p.transactionHash = some hash) := by
  rcases h with ⟨f, hf, hid, hhash⟩ | ⟨row, hrow, hhash⟩
  · have hget := Table.get_of_mem hf
    rcases World.fill_effect_cases st env seen w f.key with hsame | ⟨p, rfl, hkey, -⟩ |
      ⟨p, r, rfl, hkey, -⟩ | ⟨rfl, -, hreorged⟩
    · rw [hsame] at hget
      exact .inl (.inl ⟨f, (Table.get_eq_some hget).1, hid, hhash⟩)
    · exact .inr (.inl ⟨p, rfl, by rw [hkey, hid], by rw [hkey, hhash]⟩)
    · exact .inr (.inl ⟨p, rfl, by rw [hkey, hid], by rw [hkey, hhash]⟩)
    · rw [hreorged] at hget
      obtain ⟨r, hr, -⟩ := Option.map_eq_some_iff.mp hget
      obtain ⟨hmem, hkey⟩ := Table.get_eq_some hr
      exact .inl (.inl ⟨r, hmem, by rw [hkey, hid], by rw [hkey, hhash]⟩)
  · rcases World.transaction_effect_cases st env seen w id with hsame | ⟨p, rfl, hp, -, hget⟩ |
      ⟨p, rfl, -, -, hget⟩ | ⟨p, rfl, -, -, -, hget⟩
    · rw [hsame] at hrow
      exact .inl (.inr ⟨row, hrow, hhash⟩)
    · rw [hget] at hrow
      obtain ⟨r, -, rfl⟩ := Option.map_eq_some_iff.mp hrow
      exact .inr (.inr (.inl ⟨p, rfl, hp, hhash⟩))
    · rw [hget] at hrow
      obtain ⟨r, hr, rfl⟩ := Option.map_eq_some_iff.mp hrow
      exact .inl (.inr ⟨r, hr, hhash⟩)
    · rw [hget] at hrow
      cases hrow
      exact .inr (.inr (.inr ⟨p, rfl, hhash⟩))

theorem fill_kept {st : Stmt} {env : Env} {seen : World} {f : FillRow} (h : f ∈ w.fills.rows) :
    ∃ f' ∈ (World.effect st env seen w).fills.rows, f'.key = f.key := by
  have hget := Table.get_of_mem h
  have hstored : ∀ r : FillRow, (World.effect st env seen w).fills.get f.key = some r →
      ∃ f' ∈ (World.effect st env seen w).fills.rows, f'.key = f.key :=
    fun r hr => ⟨r, (Table.get_eq_some hr).1, (Table.get_eq_some hr).2⟩
  rcases World.fill_effect_cases st env seen w f.key with hsame | ⟨p, -, -, -, hnone, -⟩ |
    ⟨p, r, -, -, -, -, hsome⟩ | ⟨-, -, hreorged⟩
  · exact hstored f (hsame.trans hget)
  · rw [hget] at hnone
    cases hnone
  · exact hstored _ hsome
  · refine hstored (World.reorgedFill f) ?_
    rw [hreorged, hget]
    rfl

/-- The row is there before and after, of one payment and at one address, and
no more open than it was; or it is missing both times. -/
def Alike (w w' : World) (id : Int) : Prop :=
  w.transactions.get id = none ∧ w'.transactions.get id = none ∨
    ∃ old new, w.transactions.get id = some old ∧ w'.transactions.get id = some new ∧
      new.entityID = old.entityID ∧ new.recipientAddress = old.recipientAddress ∧
      (Books.isOpen new = true → Books.isOpen old = true)

theorem alike_self (w : World) (id : Int) : Alike w w id := by
  cases h : w.transactions.get id with
  | none => exact .inl ⟨h, h⟩
  | some row => exact .inr ⟨row, row, h, h, rfl, rfl, fun ho => ho⟩

theorem invoiceRow_iff {id : Int} (h : Alike w w' id) (row : TransactionRow) :
    InvoiceRow w₀ w' id row ↔ InvoiceRow w₀ w id row := by
  have hsome : (∃ new, w'.transactions.get id = some new ∧
        new.entityID.getD 0 = row.entityID.getD 0 ∧ new.recipientAddress = row.recipientAddress) ↔
      ∃ new, w.transactions.get id = some new ∧
        new.entityID.getD 0 = row.entityID.getD 0 ∧
        new.recipientAddress = row.recipientAddress := by
    rcases h with ⟨hnone, hnone'⟩ | ⟨old, new, hold, hnew, hentity, haddress, -⟩
    · simp [hnone, hnone']
    · simp [hold, hnew, hentity, haddress]
  constructor
  · rintro (hrow | ⟨hnone, hmem, hopen, hnew⟩)
    · exact .inl hrow
    · exact .inr ⟨hnone, hmem, hopen, hsome.mp hnew⟩
  · rintro (hrow | ⟨hnone, hmem, hopen, hnew⟩)
    · exact .inl hrow
    · exact .inr ⟨hnone, hmem, hopen, hsome.mpr hnew⟩

theorem inTime_iff {id : Int} {hash : String} (h : Alike w w' id) :
    InTime minedAt w₀ w' id hash ↔ InTime minedAt w₀ w id hash := by
  simp only [InTime, invoiceRow_iff h]

variable (minedAt w₀) in
/-- Between the start of a cycle and any moment of it: rows and fills stay,
every row goes back to one of the start, and what was bound was bound in time. -/
structure Cycled (w : World) : Prop where
  kept : ∀ id, (w₀.transactions.get id).isSome → (w.transactions.get id).isSome
  origin : ∀ id new, w.transactions.get id = some new → ∃ row, InvoiceRow w₀ w id row ∧
    new.entityID.getD 0 = row.entityID.getD 0 ∧ new.recipientAddress = row.recipientAddress ∧
    (Books.isOpen new = true → row ∈ w₀.transactions.rows ∧ Books.isOpen row = true)
  fills : ∀ f ∈ w₀.fills.rows, ∃ f' ∈ w.fills.rows, f'.key = f.key
  binds : BindsInTime minedAt w₀ w

theorem cycled_start : Cycled minedAt w₀ w₀ where
  kept _ h := h
  origin _ new h := ⟨new, .inl h, rfl, rfl, fun ho => ⟨(Table.get_eq_some h).1, ho⟩⟩
  fills f hf := ⟨f, hf, rfl⟩
  binds _ _ h hnot := absurd h hnot

/-- A moment later: the rows are alike, the fills are there, and what is newly
bound is bound in time. -/
theorem Cycled.quiet (h : Cycled minedAt w₀ w) (halike : ∀ id, Alike w w' id)
    (hfills : ∀ f ∈ w.fills.rows, ∃ f' ∈ w'.fills.rows, f'.key = f.key)
    (hbinds : ∀ hash id, Bound w' hash id → Bound w hash id ∨ InTime minedAt w₀ w id hash) :
    Cycled minedAt w₀ w' where
  kept id hid := by
    have hkept := h.kept id hid
    rcases halike id with ⟨hnone, -⟩ | ⟨old, new, -, hnew, -⟩
    · simp [hnone] at hkept
    · simp [hnew]
  origin id new hnew := by
    rcases halike id with ⟨-, hnone⟩ | ⟨old, new', hold, hnew', hentity, haddress, hopen⟩
    · rw [hnew] at hnone
      cases hnone
    · obtain rfl : new' = new := Option.some.inj (hnew'.symm.trans hnew)
      obtain ⟨row, hrow, hrowEntity, hrowAddress, hrowOpen⟩ := h.origin id old hold
      refine ⟨row, (invoiceRow_iff (halike id) row).mpr hrow, ?_, ?_, fun ho => hrowOpen (hopen ho)⟩
      · rw [hentity, hrowEntity]
      · rw [haddress, hrowAddress]
  fills f hf := by
    obtain ⟨f', hf', hkey⟩ := h.fills f hf
    obtain ⟨f'', hf'', hkey'⟩ := hfills f' hf'
    exact ⟨f'', hf'', hkey'.trans hkey⟩
  binds hash id hbound hnot := by
    rw [inTime_iff (halike id)]
    rcases hbinds hash id hbound with hold | hnew
    · exact h.binds hash id hold hnot
    · exact hnew

theorem alike_of_eq (h : w'.transactions = w.transactions) (id : Int) : Alike w w' id := by
  have hself := alike_self w id
  unfold Alike at hself ⊢
  rw [h]
  exact hself

theorem bound_of_eq (ht : w'.transactions = w.transactions) (hf : w'.fills = w.fills)
    {hash : String} {id : Int} (h : Bound w' hash id) : Bound w hash id := by
  unfold Bound at h ⊢
  rwa [ht, hf] at h

theorem Cycled.of_eq (h : Cycled minedAt w₀ w) (ht : w'.transactions = w.transactions)
    (hf : w'.fills = w.fills) : Cycled minedAt w₀ w' := by
  refine h.quiet (alike_of_eq ht) ?_ fun hash id hb => .inl (bound_of_eq ht hf hb)
  intro f hmem
  rw [hf]
  exact ⟨f, hmem, rfl⟩

/-- Only an insert adds a row, and only a change back to pending would open one. -/
theorem alike_of_effect {st : Stmt} {env : Env} {seen : World} (id : Int)
    (hcreate : ∀ p, st ≠ .createTransaction p)
    (hupdate : ∀ p, st = .updateTransaction p → p.status ≠ .pending)
    (hcancel : ∀ p, st = .cancelTransaction p → p.status ≠ .pending) :
    Alike w (World.effect st env seen w) id := by
  cases hrow : w.transactions.get id with
  | none =>
    rcases World.transaction_effect_cases st env seen w id with hsame | ⟨p, -, -, -, hget⟩ |
      ⟨p, -, -, -, hget⟩ | ⟨p, hst, -⟩
    · exact .inl ⟨hrow, hsame.trans hrow⟩
    · exact .inl ⟨hrow, by rw [hget, hrow]; rfl⟩
    · exact .inl ⟨hrow, by rw [hget, hrow]; rfl⟩
    · exact absurd hst (hcreate p)
  | some old =>
    rcases World.transaction_effect_cases st env seen w id with hsame | ⟨p, hst, -, -, hget⟩ |
      ⟨p, hst, -, -, hget⟩ | ⟨p, hst, -⟩
    · exact .inr ⟨old, old, hrow, hsame.trans hrow, rfl, rfl, fun ho => ho⟩
    · refine .inr ⟨old, World.updatedTransaction p old, hrow, by rw [hget, hrow]; rfl, rfl, rfl, ?_⟩
      intro ho
      simp [Books.isOpen, World.updatedTransaction, hupdate p hst] at ho
    · refine .inr ⟨old, World.cancelledTransaction p old, hrow, by rw [hget, hrow]; rfl, rfl, rfl,
        ?_⟩
      intro ho
      simp [Books.isOpen, World.cancelledTransaction, hcancel p hst] at ho
    · exact absurd hst (hcreate p)

/-- What binds the transfer `hash` to transaction `i`, and nothing else. -/
def bindWrites (i : Int) (hash : String) (_ : Conn) : Stmt → Prop
  | .insertTransactionFill p => p.key.transactionID = i ∧ p.key.transactionHash = hash
  | .updateTransaction p =>
      p.id = i ∧ p.transactionHash = stringToNullable hash ∧
        (p.status = .inProgress ∨ p.status = .inProgressInvalid)
  | .extendPaymentExpiry _ => True
  | .updatePayment _ => True
  | _ => False

theorem stringToNullable_eq_some {x y : String} (h : stringToNullable x = some y) : y = x := by
  unfold stringToNullable at h
  split at h
  · cases h
  · exact (Option.some.inj h).symm

/-- A transfer that is in time for its invoice may be bound to it. -/
theorem Cycled.bind {i : Int} {hash : String} {q : Conn} {st : Stmt} {env : Env} {seen : World}
    (hst : bindWrites i hash q st) (h : Cycled minedAt w₀ w) (hin : InTime minedAt w₀ w i hash) :
    Cycled minedAt w₀ (World.effect st env seen w) ∧
      InTime minedAt w₀ (World.effect st env seen w) i hash := by
  have halike : ∀ id, Alike w (World.effect st env seen w) id := by
    intro id
    refine alike_of_effect id ?_ ?_ ?_
    · rintro p rfl
      exact hst
    · rintro p rfl
      obtain ⟨-, -, hs | hs⟩ := hst
      · simp [hs]
      · simp [hs]
    · rintro p rfl
      exact hst.elim
  refine ⟨h.quiet halike (fun f hf => fill_kept hf) ?_, (inTime_iff (halike i)).mpr hin⟩
  intro hash' id hbound
  rcases bound_of_effect hbound with hold | ⟨p, rfl, hid, hhash⟩ | ⟨p, rfl, hid, hhash⟩ |
    ⟨p, rfl, -⟩
  · exact .inl hold
  · obtain ⟨rfl, rfl⟩ := hst
    exact .inr (hid ▸ hhash ▸ hin)
  · obtain ⟨rfl, hset, -⟩ := hst
    have hsame : hash' = hash := stringToNullable_eq_some (hset.symm.trans hhash)
    exact .inr (hid ▸ hsame ▸ hin)
  · exact hst.elim

/-- A cancellation binds nothing. -/
theorem Cycled.cancel {p : CancelTransactionParams} (hp : p.status = .cancelled) {env : Env}
    {seen : World} (h : Cycled minedAt w₀ w) {i : Int} {hash : String}
    (hin : InTime minedAt w₀ w i hash) :
    Cycled minedAt w₀ (World.effect (.cancelTransaction p) env seen w) ∧
      InTime minedAt w₀ (World.effect (.cancelTransaction p) env seen w) i hash := by
  have halike : ∀ id, Alike w (World.effect (.cancelTransaction p) env seen w) id := by
    intro id
    refine alike_of_effect id (fun _ hst => by cases hst) (fun _ hst => by cases hst) ?_
    rintro p' hst
    cases hst
    simp [hp]
  refine ⟨h.quiet halike (fun f hf => fill_kept hf) ?_, (inTime_iff (halike i)).mpr hin⟩
  intro hash' id hbound
  rcases bound_of_effect hbound with hold | ⟨_, hst, -⟩ | ⟨_, hst, -⟩ | ⟨_, hst, -⟩
  · exact .inl hold
  · cases hst
  · cases hst
  · cases hst

/-- A row made for the payment and address of an invoice that was open when the
cycle started. -/
theorem Cycled.create {p : CreateTransactionParams} {env : Env}
    (h : Cycled minedAt w₀ w) (hhash : p.transactionHash = none)
    (hfrom : ∃ row ∈ w₀.transactions.rows, Books.isOpen row = true ∧
      p.entityID.getD 0 = row.entityID.getD 0 ∧ p.recipientAddress = row.recipientAddress) :
    Cycled minedAt w₀ (World.effect (.createTransaction p) env w w) := by
  by_cases hfits : w.createFits p = true
  · have hfree : w.transactions.get w.nextTransactionID = none := by
      simp only [World.createFits, Bool.and_eq_true, Option.isNone_iff_eq_none] at hfits
      exact hfits.2
    set w' := World.effect (.createTransaction p) env w w with hw'
    have htable : w'.transactions = w.transactions.insert (w.newTransaction p) := by
      rw [hw']
      simp only [World.effect, hfits, if_true]
    have hfills : w'.fills = w.fills := World.effect_fills (by simp [Stmt.changes])
    have hother : ∀ id, id ≠ w.nextTransactionID →
        w'.transactions.get id = w.transactions.get id := by
      intro id hne
      rw [htable]
      exact Table.get_insert_of_ne _ hne
    have hnew : w'.transactions.get w.nextTransactionID = some (w.newTransaction p) := by
      rw [htable]
      exact Table.get_insert_self (r := w.newTransaction p) _ hfree
    have hfree₀ : w₀.transactions.get w.nextTransactionID = none := by
      cases hget : w₀.transactions.get w.nextTransactionID with
      | none => rfl
      | some row =>
        have hkept := h.kept w.nextTransactionID (by simp [hget])
        simp [hfree] at hkept
    have halike : ∀ id, id ≠ w.nextTransactionID → Alike w w' id := by
      intro id hne
      have hself := alike_self w id
      unfold Alike at hself ⊢
      rwa [hother id hne]
    refine ⟨?_, ?_, ?_, ?_⟩
    · intro id hid
      by_cases hne : id = w.nextTransactionID
      · simp [hne, hnew]
      · rw [hother id hne]
        exact h.kept id hid
    · intro id new hget
      by_cases hne : id = w.nextTransactionID
      · subst hne
        obtain rfl : w.newTransaction p = new := Option.some.inj (hnew.symm.trans hget)
        obtain ⟨row, hrow, hopen, hentity, haddress⟩ := hfrom
        exact ⟨row, .inr ⟨hfree₀, hrow, hopen, _, hnew, hentity, haddress⟩, hentity, haddress,
          fun _ => ⟨hrow, hopen⟩⟩
      · rw [hother id hne] at hget
        obtain ⟨row, hrow, hrest⟩ := h.origin id new hget
        exact ⟨row, (invoiceRow_iff (halike id hne) row).mpr hrow, hrest⟩
    · rw [hfills]
      exact h.fills
    · intro hash id hbound hnot
      rcases bound_of_effect hbound with hold | ⟨_, hst, -⟩ | ⟨_, hst, -⟩ | ⟨p', hst, hset⟩
      · have hin := h.binds hash id hold hnot
        by_cases hne : id = w.nextTransactionID
        · subst hne
          obtain ⟨row, hrow | ⟨-, -, -, new, hget, -⟩⟩ := hin.1
          · rw [hfree₀] at hrow
            cases hrow
          · rw [hfree] at hget
            cases hget
        · exact (inTime_iff (halike id hne)).mpr hin
      · cases hst
      · cases hst
      · cases hst
        rw [hhash] at hset
        cases hset
  · have hsame : World.effect (.createTransaction p) env w w = w := by
      simp only [World.effect, if_neg hfits]
    rwa [hsame]

end Steps

namespace Service

variable {s : Service} {minedAt} {w₀ w : World} {i : Int} {hash : String}

theorem recordInput_binds {tx : Transaction} {input : Input} :
    OnlyWrites (bindWrites tx.id input.transactionID) (recordInput tx input) := by
  refine recordInput_writes fun p hkey _ _ => ?_
  rw [bindWrites, hkey]
  exact ⟨rfl, rfl⟩

theorem processInboundTransaction_binds (tx : Transaction) (input : Input) :
    OnlyWrites (bindWrites tx.id input.transactionID) (s.processInboundTransaction tx input) := by
  refine .bind (.checked _) fun _ => .bind (.mapError _ sumConfirmedFills_writes) fun prev => ?_
  refine .bind (.checked _) fun combined => .bind (.mapError _ crossesExpected_writes) fun c => ?_
  split
  · refine .bind determineIncomingStatusFromCombined_writes fun determined => ?_
    refine .bind (.mapError _ recordInput_binds) fun _ => ?_
    refine .bind (.mapError _ (receive_writes fun hs now md => ⟨rfl, rfl, hs⟩)) fun received => ?_
    split
    · refine .bind (.mapError _ getPaymentByID_writes) fun pt => ?_
      exact .bind (.mapError _ (updatePayment_writes fun _ _ _ _ => trivial)) fun _ => .ret _
    · exact .ret _
  · refine .bind (.mapError _ recordInput_binds) fun _ => ?_
    exact .bind (.mapError _ (markPartial_writes fun _ _ _ _ => trivial)) fun _ => .ret _

/-- A call that only binds `hash` to `i` keeps a cycle in time. -/
theorem cycled_of_binds {α : Type} {p : Call α} (hp : OnlyWrites (bindWrites i hash) p)
    (h : Cycled minedAt w₀ w ∧ InTime minedAt w₀ w i hash) (envs : ℕ → Env) (n : ℕ) :
    Cycled minedAt w₀ (engine.alone envs p n ⟨w, .idle⟩).2.2.world := by
  refine (OnlyWrites.alone_keeps
    (J := fun w => Cycled minedAt w₀ w ∧ InTime minedAt w₀ w i hash) hp ?_ ?_ envs
    (Engine.within_idle h)).world.1
  · rintro q st env seen w hst ⟨hw, hin⟩
    exact hw.bind hst hin
  · rintro q st w - ⟨hw, hin⟩
    have ht := lasting_transactions st w
    exact ⟨hw.of_eq ht (lasting_fills st w), (inTime_iff (alike_of_eq ht i)).mpr hin⟩

theorem fillExists_kept (h : Cycled minedAt w₀ w) {networkID txHash recipient : String}
    (hfill : w₀.fillExistsByHashAndRecipient networkID txHash recipient = true) :
    w.fillExistsByHashAndRecipient networkID txHash recipient = true := by
  obtain ⟨f, hf, hmatch⟩ := List.any_eq_true.mp hfill
  obtain ⟨f', hf', hkey⟩ := h.fills f hf
  refine List.any_eq_true.mpr ⟨f', hf', ?_⟩
  rw [hkey]
  simp only [Bool.and_eq_true, decide_eq_true_eq] at hmatch ⊢
  refine ⟨hmatch.1, ?_⟩
  cases hrow : w₀.transactions.get f.key.transactionID with
  | none =>
    rw [hrow] at hmatch
    exact absurd hmatch.2 (by simp)
  | some row =>
    rw [hrow] at hmatch
    obtain ⟨new, hnew⟩ := Option.isSome_iff_exists.mp (h.kept f.key.transactionID (by simp [hrow]))
    obtain ⟨row', hrow' | ⟨hnone, -⟩, -, haddress, -⟩ := h.origin f.key.transactionID new hnew
    · obtain rfl : row = row' := Option.some.inj (hrow.symm.trans hrow')
      rw [hnew]
      simpa [haddress] using hmatch.2
    · rw [hrow] at hnone
      cases hnone

/-- Recorded at its address, a transfer is passed over. -/
theorem recognised_unchanged {answers : DetectedTransfer → ℕ → Env} {d : DetectedTransfer}
    (hfill : w.fillExistsByHashAndRecipient d.networkID d.txHash d.recipient = true)
    (hanswered : (answers d 1).fate = .done) : (s.onDetectedAlone answers d w).2 = w := by
  have hfirst := alone_read_then (.getTransactionByHashNetworkAndRecipient
    (stringToNullable d.txHash) (stringToNullable d.networkID) d.recipient) rfl s.toTransaction
    (answers d) 0 w (.idle : Session Stmt Env World LockKey)
  have hsecond := alone_read_then (.fillExistsByHashAndRecipient d.networkID d.txHash d.recipient)
    rfl id (answers d) 1 w (.idle : Session Stmt Env World LockKey)
  have hreply : engine.reply (.fillExistsByHashAndRecipient d.networkID d.txHash d.recipient)
      (answers d 1) w = .ok true := by
    show answered (answers d 1).fate Err.database (.ok (w.fillExistsByHashAndRecipient _ _ _)) = _
    simp only [answered, hanswered, if_true, hfill]
  rw [hreply] at hsecond
  show worldAfter (s.dedupOnDetected d) (answers d) w = w
  unfold worldAfter dedupOnDetected
  simp only [Prog.bind_eq, Engine.alone_bind, Engine.alone_attempt]
  have hread : engine.alone (answers d) (s.getByHashAndRecipient d.networkID d.txHash d.recipient) 0
      ⟨w, .idle⟩ = _ := hfirst
  rw [hread]
  dsimp only
  split
  · rfl
  · have hread' : engine.alone (answers d) (fillExistsByHashAndRecipient d.networkID d.txHash
        d.recipient) 1 ⟨w, .idle⟩ = _ := hsecond
    simp only [Engine.alone_bind, Engine.alone_attempt, hread']
    rfl

/-- Every invoice listed at an address goes back to one that was open there
when the cycle started. -/
theorem openInvoices_lists {address : String} (haddress : address ≠ "") :
    engine.Triple (Engine.AtRest (Cycled minedAt w₀)) (s.openInvoices address)
      (fun txs v => Engine.AtRest (Cycled minedAt w₀) v ∧ ∀ tx ∈ txs,
        ∃ row ∈ w₀.transactions.rows, Books.isOpen row = true ∧
          tx.entityID = row.entityID.getD 0 ∧ row.recipientAddress = address)
      (Engine.AtRest (Cycled minedAt w₀)) := by
  rintro envs n ⟨w, x⟩ ⟨rfl, hw⟩
  unfold openInvoices
  rw [Engine.alone_mapError, alone_listByFilter]
  cases hreply : engine.reply (.getTransactionsByFilter (Filter.toRepo {
      recipientAddress := address
      types := [.incoming]
      statuses := [.pending]
      hashIsEmpty := true } 50)) (envs n) w with
  | error e => exact ⟨rfl, hw⟩
  | ok rows =>
    have hrows := reply_getTransactionsByFilter hreply
    simp only [Except.bind]
    cases hentries : rows.mapM s.entryToTransaction with
    | error e => exact ⟨rfl, hw⟩
    | ok txs =>
      refine ⟨⟨rfl, hw⟩, ?_⟩
      intro tx htx
      obtain ⟨new, hnew, hread⟩ := row_of_mapM hentries htx
      rw [hrows, World.getTransactionsByFilter_eq] at hnew
      obtain ⟨hmem, hmatch⟩ :=
        List.mem_filter.mp (RankedListings.mem_ranked.mp (List.mem_of_mem_take hnew))
      rw [openInvoices_filter haddress] at hmatch
      simp only [Bool.and_eq_true, decide_eq_true_eq] at hmatch
      obtain ⟨row, -, hentity, hrowAddress, hrowOpen⟩ :=
        hw.origin new.id new (Table.get_of_mem hmem)
      obtain ⟨hrow, hopen⟩ := hrowOpen hmatch.1
      refine ⟨row, hrow, hopen, ?_, hrowAddress.symm.trans hmatch.2⟩
      obtain ⟨currency, fee, -, -, rfl⟩ := s.entryToTransaction_eq_ok hread
      exact hentity

theorem invoicePrices_reads {invoices : List Transaction} : OnlyReads (invoicePrices invoices) := by
  induction invoices with
  | nil => exact .ret _
  | cons inv rest ih =>
    exact .bind (.mapError _ getPaymentByID_reads) fun pt => .bind ih fun prices => .ret _

theorem cryptoToFiatFloat_reads {amount : Money} {fiatCode : String} :
    OnlyReads (cryptoToFiatFloat amount fiatCode) :=
  .bind (.checked _) fun _ => .bind (.read rfl) fun _ => .bind (.checked _) fun _ => .checked _

theorem usdAmountOf_reads {price : Money} : OnlyReads (usdAmountOf price) :=
  .bind (.read rfl) fun _ => .ret _

/-- The insert of a row without a hash, for the payment and address of an
invoice that was open when the cycle started. -/
theorem cycled_of_insert {p : CreateTransactionParams} (h : Cycled minedAt w₀ w)
    (hhash : p.transactionHash = none)
    (hfrom : ∃ row ∈ w₀.transactions.rows, Books.isOpen row = true ∧
      p.entityID.getD 0 = row.entityID.getD 0 ∧ p.recipientAddress = row.recipientAddress)
    (env : Env) : Cycled minedAt w₀ (engine.autocommit (.createTransaction p) env w) := by
  by_cases hf : env.fate = .refused
  · have hsame : engine.autocommit (.createTransaction p) env w = w := by
      simp only [Engine.autocommit, engine_effect, engine_lasting, hf, if_true]
    rwa [hsame]
  · have hrun : engine.autocommit (.createTransaction p) env w =
        World.effect (.createTransaction p) env w (World.lasting (.createTransaction p) w) := by
      simp only [Engine.autocommit, engine_effect, engine_lasting, if_neg hf]
    rw [hrun]
    have hcreated : Cycled minedAt w₀ (World.effect (.createTransaction p) env w w) :=
      h.create hhash hfrom
    refine hcreated.of_eq ?_ ?_
    · by_cases hfits : w.createFits p = true
      · simp only [World.effect, hfits, if_true, World.lasting]
      · simp only [World.effect, if_neg hfits, World.lasting]
    · rw [World.effect_fills (by simp [Stmt.changes]), World.effect_fills (by simp [Stmt.changes]),
        lasting_fills]

/-- The inserted row replaces invoices that were all there when the transfer
was mined. -/
theorem inTime_of_insert {p : CreateTransactionParams} {env : Env} {entry : TransactionRow}
    (h : Cycled minedAt w₀ w) (hok : engine.reply (.createTransaction p) env w = .ok entry)
    (hfrom : ∃ row ∈ w₀.transactions.rows, Books.isOpen row = true ∧
      p.entityID.getD 0 = row.entityID.getD 0 ∧ p.recipientAddress = row.recipientAddress)
    (htimely : ∀ row ∈ w₀.transactions.rows, Books.isOpen row = true →
      row.recipientAddress = p.recipientAddress → row.createdAt ≤ minedAt hash) :
    InTime minedAt w₀ (engine.autocommit (.createTransaction p) env w) entry.id hash := by
  obtain ⟨hdone, hok⟩ := answered_eq_ok hok
  split at hok
  · rename_i hfits
    obtain rfl : w.newTransaction p = entry := Except.ok.inj hok
    have hfree : w.transactions.get w.nextTransactionID = none := by
      simp only [World.createFits, Bool.and_eq_true, Option.isNone_iff_eq_none] at hfits
      exact hfits.2
    have hfree₀ : w₀.transactions.get w.nextTransactionID = none := by
      cases hget : w₀.transactions.get w.nextTransactionID with
      | none => rfl
      | some row =>
        have hkept := h.kept w.nextTransactionID (by simp [hget])
        simp [hfree] at hkept
    have hnew : (engine.autocommit (.createTransaction p) env w).transactions.get
        w.nextTransactionID = some (w.newTransaction p) := by
      simp only [Engine.autocommit, engine_effect, engine_lasting, hdone, reduceCtorEq, if_false,
        World.effect, World.lasting, hfits, if_true]
      exact Table.get_insert_self (r := w.newTransaction p) _ hfree
    constructor
    · obtain ⟨row, hrow, hopen, hentity, haddress⟩ := hfrom
      exact ⟨row, .inr ⟨hfree₀, hrow, hopen, _, hnew, hentity, haddress⟩⟩
    · rintro row (hrow | ⟨-, hrow, hopen, new, hget, -, haddress⟩)
      · have hnone : w₀.transactions.get (w.newTransaction p).id = none := hfree₀
        rw [hnone] at hrow
        cases hrow
      · obtain rfl : w.newTransaction p = new := Option.some.inj (hnew.symm.trans hget)
        exact htimely row hrow hopen haddress.symm
  · cases hok

theorem create_keeps {m : Int} {c : CreateTransaction} (hhash : c.transactionHash = "")
    (hfrom : ∀ now coin, ∃ row ∈ w₀.transactions.rows, Books.isOpen row = true ∧
      (c.toRepo m now coin).entityID.getD 0 = row.entityID.getD 0 ∧
      (c.toRepo m now coin).recipientAddress = row.recipientAddress)
    (htimely : ∀ now coin, ∀ row ∈ w₀.transactions.rows, Books.isOpen row = true →
      row.recipientAddress = (c.toRepo m now coin).recipientAddress →
        row.createdAt ≤ minedAt hash) :
    engine.Triple (Engine.AtRest (Cycled minedAt w₀)) (s.create m c)
      (fun tx => Engine.AtRest fun w => Cycled minedAt w₀ w ∧ InTime minedAt w₀ w tx.id hash)
      (Engine.AtRest (Cycled minedAt w₀)) := by
  refine .bind (OnlyReads.keeps (.checked _)) fun _ => ?_
  refine .bind (OnlyReads.keeps (.checked _)) fun coin => ?_
  refine .bind (OnlyReads.keeps timeNow_reads) fun now => ?_
  have hnohash : (c.toRepo m now coin).transactionHash = none := by
    show stringToNullable c.transactionHash = none
    rw [hhash]
    rfl
  refine .bind (M := fun entry => Engine.AtRest fun w =>
    Cycled minedAt w₀ w ∧ InTime minedAt w₀ w entry.id hash) ?_ fun entry => ?_
  · refine Engine.Triple.statement (G := engine)
      (s := .createTransaction (c.toRepo m now coin)) (g := id) (fun _ hw => hw) ?_ ?_
    · intro env w hw
      refine ⟨?_, cycled_of_insert hw hnohash (hfrom now coin) env⟩
      rw [engine_lasting]
      split
      · exact hw
      · exact hw.of_eq (lasting_transactions _ _) (lasting_fills _ _)
    · intro env w entry hw hok
      exact ⟨cycled_of_insert hw hnohash (hfrom now coin) env,
        inTime_of_insert hw hok (hfrom now coin) (htimely now coin)⟩
  · refine .ofExcept ?_ fun v hv => ⟨hv.1, hv.2.1⟩
    intro tx hread v hv
    rwa [entryToTransaction_id hread]

theorem cancel_keeps {tx : Transaction} {reason : String} :
    engine.Triple
      (Engine.AtRest fun w => Cycled minedAt w₀ w ∧ InTime minedAt w₀ w i hash)
      (cancel tx .cancelled reason)
      (fun _ => Engine.AtRest fun w => Cycled minedAt w₀ w ∧ InTime minedAt w₀ w i hash)
      (Engine.AtRest fun w => Cycled minedAt w₀ w ∧ InTime minedAt w₀ w i hash) := by
  refine Engine.Triple.runTransaction ?_ fun _ hw => hw
  have hbody : Issues (fun c => ∃ st, c = Cmd.stmt .pool st ∧ (st.changes = none ∨
      ∃ p : CancelTransactionParams, st = .cancelTransaction p ∧ p.status = .cancelled))
      (timeNow.bind fun now => (ask .pool (.cancelTransaction {
        id := tx.id
        status := .cancelled
        updatedAt := now
        metadata := MetaData.toJSONB [(Transaction.metaComment, reason)]
        networkFee := none
        setNetworkFee := false })).bind fun done =>
          succeed (wrapErr "unable to cancel transaction" done)) := by
    refine .bind ((Issues.ask_iff _).mpr ⟨_, rfl, .inl rfl⟩) fun now => ?_
    exact .bind ((Issues.ask_iff _).mpr ⟨_, rfl, .inr ⟨_, rfl, rfl⟩⟩) fun _ => .ofExcept _
  refine (Engine.Triple.of_issues (P := Engine.Opened fun w =>
    Cycled minedAt w₀ w ∧ InTime minedAt w₀ w i hash) hbody ?_).conseq (fun _ hv => hv) ?_ ?_
  · rintro c env ⟨w, x⟩ ⟨st, rfl, hst⟩ ⟨hsession, hw, hin⟩
    refine ⟨hsession, ?_⟩
    show Cycled minedAt w₀ (engine.autocommit st env w) ∧
      InTime minedAt w₀ (engine.autocommit st env w) i hash
    rcases hst with hread | ⟨p, rfl, hp⟩
    · rw [autocommit_of_read hread]
      exact ⟨hw, hin⟩
    · by_cases hf : env.fate = .refused
      · simp only [Engine.autocommit, engine_effect, engine_lasting, hf, if_true]
        exact ⟨hw, hin⟩
      · simp only [Engine.autocommit, engine_effect, engine_lasting, if_neg hf]
        exact hw.cancel hp hin
  · rintro _ ⟨w, x⟩ ⟨rfl, hw⟩
    exact ⟨[], rfl, hw, hw, hw⟩
  · rintro ⟨w, x⟩ ⟨rfl, hw⟩
    exact ⟨rfl, hw⟩

/-- A payment re-locked to another currency was there when the transfer was
mined, if every invoice open at the address was. -/
theorem autoAcceptCrossCurrency_keeps {inv : Transaction} {currency : CryptoCurrency}
    {amount : Money} {networkID : String} {p : UnmatchedCollectorPayment}
    (hinv : ∃ row ∈ w₀.transactions.rows, Books.isOpen row = true ∧
      inv.entityID = row.entityID.getD 0 ∧ row.recipientAddress = p.collectorAddress)
    (htimely : ∀ row ∈ w₀.transactions.rows, Books.isOpen row = true →
      row.recipientAddress = p.collectorAddress → row.createdAt ≤ minedAt p.txHash) :
    engine.Triple (Engine.AtRest (Cycled minedAt w₀))
      (s.autoAcceptCrossCurrency inv currency amount networkID p)
      (fun _ v => Cycled minedAt w₀ v.world) (fun v => Cycled minedAt w₀ v.world) := by
  have hrest : ∀ v : View Stmt Env World LockKey, Engine.AtRest (Cycled minedAt w₀) v →
      Cycled minedAt w₀ v.world := fun v hv => hv.2
  refine .bind ((OnlyReads.keeps (getPaymentByID_reads.mapError _)).failing hrest) fun pt => ?_
  refine .bind ((OnlyReads.keeps usdAmountOf_reads).failing hrest) fun usdAmount => ?_
  refine .bind (M := fun newTx => Engine.AtRest fun w =>
      Cycled minedAt w₀ w ∧ InTime minedAt w₀ w newTx.id p.txHash) ?_ fun newTx => ?_
  · have hcreate : engine.Triple (Engine.AtRest (Cycled minedAt w₀))
        (s.create inv.merchantID (relockedTransaction inv currency amount usdAmount p))
        (fun newTx => Engine.AtRest fun w =>
          Cycled minedAt w₀ w ∧ InTime minedAt w₀ w newTx.id p.txHash)
        (Engine.AtRest (Cycled minedAt w₀)) := by
      refine create_keeps rfl (fun now coin => ?_) fun now coin => htimely
      obtain ⟨row, hrow, hopen, hentity, haddress⟩ := hinv
      refine ⟨row, hrow, hopen, ?_, haddress.symm⟩
      show (if inv.entityID ≠ 0 then some inv.entityID else none).getD 0 = row.entityID.getD 0
      rw [← hentity]
      by_cases hzero : inv.entityID = 0
      · simp [hzero]
      · simp [hzero]
    exact hcreate.mapError.failing hrest
  refine .bind (M := fun _ => Engine.AtRest fun w =>
      Cycled minedAt w₀ w ∧ InTime minedAt w₀ w newTx.id p.txHash) ?_ fun _ => ?_
  · refine cancel_keeps.attempt.conseq (fun _ hv => hv) ?_ hrest
    rintro (e | u) v hv
    · exact hv
    · exact hv
  · rintro envs n ⟨w, x⟩ ⟨rfl, hw⟩
    have hprocess := processInboundTransaction_binds (s := s) newTx ⟨currency, amount,
      if p.senderAddress = "" then "cross-currency-reconcile" else p.senderAddress, p.txHash,
      networkID⟩
    have hkept := cycled_of_binds hprocess hw envs n
    generalize engine.alone envs _ n _ = run at hkept ⊢
    obtain ⟨e | a, n', v'⟩ := run
    · exact hkept
    · exact hkept

theorem attributeUnmatched_keeps {currency : CryptoCurrency} {amount : Money} {networkID : String}
    {p : UnmatchedCollectorPayment} (haddress : p.collectorAddress ≠ "")
    (htimely : ∀ row ∈ w₀.transactions.rows, Books.isOpen row = true →
      row.recipientAddress = p.collectorAddress → row.createdAt ≤ minedAt p.txHash) :
    engine.Triple (Engine.AtRest (Cycled minedAt w₀))
      (s.attributeUnmatched p currency amount networkID)
      (fun _ v => Cycled minedAt w₀ v.world) (fun v => Cycled minedAt w₀ v.world) := by
  have hrest : ∀ v : View Stmt Env World LockKey, Engine.AtRest (Cycled minedAt w₀) v →
      Cycled minedAt w₀ v.world := fun v hv => hv.2
  refine .bind ((openInvoices_lists haddress).failing hrest)
    fun invoices => .given fun hlisted => ?_
  refine .bind ((OnlyReads.keeps invoicePrices_reads).failing hrest) fun prices => ?_
  refine .bind ((OnlyReads.keeps cryptoToFiatFloat_reads.attempt).failing hrest) fun valued => ?_
  split
  · exact .ret hrest
  · split
    · exact .ret hrest
    · split
      · exact .ret hrest
      · split
        · exact .ret hrest
        · split
          · exact .ret hrest
          · rename_i inv hinv
            exact autoAcceptCrossCurrency_keeps (hlisted inv (List.mem_of_getElem? hinv)) htimely

theorem resolveUnmatchedCollectorPayment_keeps {p : UnmatchedCollectorPayment}
    (haddress : p.collectorAddress ≠ "")
    (htimely : (∃ currency, s.resolveUnmatchedCurrency p = .ok currency) →
      ∀ row ∈ w₀.transactions.rows, Books.isOpen row = true →
        row.recipientAddress = p.collectorAddress → row.createdAt ≤ minedAt p.txHash) :
    engine.Triple (Engine.AtRest (Cycled minedAt w₀)) (s.resolveUnmatchedCollectorPayment p)
      (fun _ v => Cycled minedAt w₀ v.world) (fun v => Cycled minedAt w₀ v.world) := by
  have hrest : ∀ v : View Stmt Env World LockKey, Engine.AtRest (Cycled minedAt w₀) v →
      Cycled minedAt w₀ v.world := fun v hv => hv.2
  unfold resolveUnmatchedCollectorPayment
  split
  · exact .ret hrest
  · rename_i currency hcurrency
    split
    · exact .ret hrest
    · split
      · exact .ret hrest
      · have hread : OnlyReads (s.getByHashAndRecipient (currency.chooseNetwork p.isTest) p.txHash
            p.collectorAddress).attempt := .attempt (.bind (.read rfl) fun _ => .checked _)
        refine .bind ((OnlyReads.keeps hread).failing hrest) fun existing => ?_
        split
        · exact .ret hrest
        · exact attributeUnmatched_keeps haddress (htimely ⟨currency, hcurrency⟩)

/-- Whatever is processed of a timely transfer binds it in time. -/
theorem dedupOnDetected_keeps {answers : DetectedTransfer → ℕ → Env} {d : DetectedTransfer}
    (hunmatched : d.pendingTx = none → d.recipientAddress ≠ "")
    (hinvoice : ∀ tx, d.pendingTx = some tx →
      ∃ row, w₀.transactions.get tx.id = some row ∧ row.createdAt = tx.createdAt)
    (htimely : s.TimelyTransfer minedAt w₀ answers d) (h : Cycled minedAt w₀ w) :
    Cycled minedAt w₀ (s.onDetectedAlone answers d w).2 := by
  have hrest : ∀ v : View Stmt Env World LockKey, Engine.AtRest (Cycled minedAt w₀) v →
      Cycled minedAt w₀ v.world := fun v hv => hv.2
  unfold TimelyTransfer at htimely
  cases htarget : d.target with
  | invoice tx amount currency networkID =>
    simp only [htarget] at htimely
    have hpending : d.pendingTx = some tx := by rw [DetectedTransfer.pendingTx, htarget]
    rcases htimely with hmined | ⟨hfill, hanswered⟩
    · obtain ⟨row, hrow, hcreated⟩ := hinvoice tx hpending
      have hin : InTime minedAt w₀ w tx.id d.txHash := by
        refine ⟨⟨row, .inl hrow⟩, ?_⟩
        rintro row' (hrow' | ⟨hnone, -⟩)
        · obtain rfl : row = row' := Option.some.inj (hrow.symm.trans hrow')
          rwa [hcreated]
        · rw [hrow] at hnone
          cases hnone
      refine cycled_of_binds ?_ ⟨h, hin⟩ (answers d) 0
      refine .bind (.attempt getByHashAndRecipient_writes) fun existing => ?_
      split
      · exact .ret _
      · refine .bind (.attempt fillExistsByHashAndRecipient_writes) fun fillExists => ?_
        split
        · exact .ret _
        · have hprocess := processInboundTransaction_binds (s := s) tx
            ⟨currency, amount, d.senderAddress, d.txHash, networkID⟩
          unfold onDetected
          rw [htarget]
          exact hprocess
    · have hnetwork : d.networkID = networkID := by rw [DetectedTransfer.networkID, htarget]
      rw [← hnetwork] at hfill
      rwa [recognised_unchanged (fillExists_kept h hfill) hanswered]
  | unmatched blockchain isTest isNative tokenContract rawAmount =>
    simp only [htarget] at htimely
    have hpending : d.pendingTx = none := by rw [DetectedTransfer.pendingTx, htarget]
    have htriple : engine.Triple (Engine.AtRest (Cycled minedAt w₀)) (s.dedupOnDetected d)
        (fun _ v => Cycled minedAt w₀ v.world) (fun v => Cycled minedAt w₀ v.world) := by
      have hfirst : OnlyReads (s.getByHashAndRecipient d.networkID d.txHash d.recipient).attempt :=
        .attempt (.bind (.read rfl) fun _ => .checked _)
      have hsecond : OnlyReads
          (fillExistsByHashAndRecipient d.networkID d.txHash d.recipient).attempt :=
        .attempt (.bind (.read rfl) fun _ => .checked _)
      refine .bind ((OnlyReads.keeps hfirst).failing hrest) fun existing => ?_
      split
      · exact .ret hrest
      · refine .bind ((OnlyReads.keeps hsecond).failing hrest) fun fillExists => ?_
        split
        · exact .ret hrest
        · unfold onDetected
          rw [htarget]
          exact resolveUnmatchedCollectorPayment_keeps (hunmatched hpending) htimely
    have hrun := htriple (answers d) 0 ⟨w, .idle⟩ ⟨rfl, h⟩
    show Cycled minedAt w₀ (engine.alone (answers d) (s.dedupOnDetected d) 0
      ⟨w, .idle⟩).2.2.world
    generalize engine.alone (answers d) (s.dedupOnDetected d) 0 _ = run at hrun ⊢
    obtain ⟨e | a, n', v'⟩ := run
    · exact hrun
    · exact hrun

section Runs

variable {A : Type} [DecidableEq A] {fmt : AddressFormat A} {cfg : Evm.Config}

/-- A transfer handed on is for a listed invoice, or arrived at an address the
watcher has rendered. -/
theorem Hands.target {c : Cycle A} {sums : Int → Option Int} {txs : List Transaction}
    {x : WatcherState} {k : ChainKey} {d : DetectedTransfer}
    (h : Hands s fmt cfg c sums txs x k d) :
    (∃ tx ∈ txs, d.pendingTx = some tx) ∨
      d.pendingTx = none ∧ ∃ a, d.recipientAddress = fmt.hex a := by
  have hlisted : ∀ tx ∈ chainTransactions k.1 k.2 txs, tx ∈ txs :=
    fun tx htx => (List.mem_filter.mp htx).1
  cases h with
  | evm chain node head detects =>
    cases detects with
    | native shown topics nonzero mem waits large => exact .inl ⟨_, hlisted _ mem, rfl⟩
    | nativeUnmatched shown topics nonzero unawaited => exact .inr ⟨rfl, _, rfl⟩
    | token shown topics mem waits large => exact .inl ⟨_, hlisted _ mem, rfl⟩
    | tokenUnmatched shown topics nonzero unawaited => exact .inr ⟨rfl, _, rfl⟩
    | value bounds shown listed sentBy sentTo nonzero mem waits large =>
      exact .inl ⟨_, hlisted _ mem, rfl⟩
  | tron chain node detects =>
    cases detects with
    | native shown mem transfer pending waits large => exact .inl ⟨_, hlisted _ pending, rfl⟩
    | token shown mem transfer pending waits large => exact .inl ⟨_, hlisted _ pending, rfl⟩
  | btc chain detects =>
    cases detects with
    | grown pending address shown grew found => exact .inl ⟨_, hlisted _ pending, rfl⟩

theorem cycle_binds_in_time (hhex : ∀ a, fmt.hex a ≠ "") {x : WatcherState} {c : Cycle A}
    (h : s.ShownInTime minedAt fmt cfg x c) :
    BindsInTime minedAt x.world (s.pollPendingTransactions fmt cfg c x).world := by
  refine Cycled.binds (keeps_pollPendingTransactions (J := Cycled minedAt x.world) ?_
    cycled_start)
  intro txs hlist k d w hd hw
  refine dedupOnDetected_keeps ?_ ?_ (h txs hlist k d hd) hw
  · intro hnone
    rcases hd.target with ⟨tx, -, htx⟩ | ⟨-, a, ha⟩
    · rw [hnone] at htx
      cases htx
    · rw [ha]
      exact hhex a
  · intro tx htx
    rcases hd.target with ⟨tx', hmem, htx'⟩ | ⟨hnone, -⟩
    · obtain rfl : tx = tx' := Option.some.inj (htx.symm.trans htx')
      obtain ⟨row, hrow, hread⟩ := row_of_pending (pending_of_listPending hlist) hmem
      obtain ⟨currency, fee, -, -, rfl⟩ := s.entryToTransaction_eq_ok hread
      exact ⟨row, Table.get_of_mem (mem_cycleRows hrow).1, rfl⟩
    · rw [htx] at hnone
      cases hnone

end Runs

end Service

end

/-- If in every cycle the nodes only show transfers that were mined when their
invoice was there, then in every cycle of the run, restarts and whatever else
happens to the database in between, a transfer is bound only to an invoice
whose row was there when it was mined. -/
theorem old_transfers_stay_unbound {A : Type} [DecidableEq A] (s : Service)
    (fmt : AddressFormat A) (hhex : ∀ a, fmt.hex a ≠ "") (cfg : Evm.Config)
    (minedAt : String → Int) (x : WatcherState) (events : List (WatcherEvent A))
    (h : s.EachCycle fmt cfg (s.ShownInTime minedAt fmt cfg) x events) :
    s.EachCycle fmt cfg (fun y c =>
      BindsInTime minedAt y.world (s.pollPendingTransactions fmt cfg c y).world) x events := by
  induction events generalizing x with
  | nil => exact trivial
  | cons e events ih =>
    obtain ⟨hcycle, hrest⟩ := h
    refine ⟨?_, ih _ hrest⟩
    rintro c rfl
    exact Service.cycle_binds_in_time hhex (hcycle c rfl)

open Sample

namespace Sample

/-- One open invoice, made at 100. -/
def madeAt100 : World :=
  { noMoney with
    transactions := noMoney.transactions.insert
      { tronInvoice 2 .pending none with createdAt := 100 }
    payments := noMoney.payments.insert (purchase .locked) }

def started (w : World) : WatcherState := ⟨w, fun _ => none, fun _ => none⟩

/-- TronGrid shows one transfer of a hundred. -/
def showing (hash : String) : Cycle String where
  listing := {}
  sums := {}
  order := []
  nodes := {
    evm := fun _ => none
    tron := fun _ => some ⟨fun _ => .ok [sent hash 100], fun _ => .ok []⟩
    bitcoin := fun _ => ⟨fun _ => .ok 0, fun _ => .ok []⟩ }
  answers := fun _ _ => {}

/-- Transfer a was mined at 50, every other one at 150. -/
def minedAt (hash : String) : Int := if hash = "a" then 50 else 150

def tronPending : Transaction :=
  Service.transactionOf { tronInvoice 2 .pending none with createdAt := 100 } tron none

theorem tron_listPending : tronService.listPending {} madeAt100 = .ok [tronPending] := by rfl

theorem showing_inTime (cfg : Evm.Config) :
    tronService.ShownInTime minedAt hexFormat cfg (started madeAt100) (showing "b") := by
  intro txs hlist k d hd
  obtain rfl : [tronPending] = txs := Except.ok.inj (tron_listPending.symm.trans hlist)
  have hlisted : ∀ tx ∈ chainTransactions k.1 k.2 [tronPending], tx = tronPending :=
    fun tx htx => List.mem_singleton.mp (List.mem_filter.mp htx).1
  cases hd with
  | evm chain node head detects => cases node
  | tron chain node detects =>
    cases node
    cases detects with
    | @native addr recentTxs rtx tx amount shown mem transfer pending waits large =>
      obtain rfl := hlisted tx pending
      obtain rfl := Except.ok.inj shown
      obtain rfl := List.mem_singleton.mp mem
      refine .inl ?_
      show (100 : Int) ≤ minedAt "b"
      decide
    | token shown mem transfer pending waits large =>
      obtain rfl := Except.ok.inj shown
      cases mem
  | btc chain detects =>
    cases detects with
    | grown pending address shown grew found => exact absurd rfl found

end Sample

/-- A transfer mined after the invoice was made, then a restart. -/
theorem old_transfers_stay_unbound_sample :
    Bound (tronService.pollPendingTransactions hexFormat ⟨50, 100, 200⟩ (showing "b")
        (started madeAt100)).world "b" 2 ∧
      tronService.EachCycle hexFormat ⟨50, 100, 200⟩ (fun y c =>
        BindsInTime minedAt y.world
          (tronService.pollPendingTransactions hexFormat ⟨50, 100, 200⟩ c y).world)
        (started madeAt100) [.cycle (showing "b"), .restart] := by
  refine ⟨.inl ?_, old_transfers_stay_unbound tronService hexFormat hexFormat_ne_empty
    ⟨50, 100, 200⟩ minedAt (started madeAt100) [.cycle (showing "b"), .restart] ⟨?_, ?_, trivial⟩⟩
  · decide +kernel
  · rintro c hc
    cases hc
    exact showing_inTime _
  · intro c hc
    cases hc

/-- The invoice made at 100 is paid by the transfer mined at 50. -/
theorem old_transfer_pays_new_invoice :
    ¬ ∀ (s : Service) (fmt : AddressFormat String), (∀ a, fmt.hex a ≠ "") →
      ∀ (cfg : Evm.Config) (minedAt : String → Int) (x : WatcherState)
        (events : List (WatcherEvent String)), s.EachCycle fmt cfg (fun y c =>
          BindsInTime minedAt y.world (s.pollPendingTransactions fmt cfg c y).world) x events := by
  intro h
  obtain ⟨hcycle, -⟩ := h tronService hexFormat hexFormat_ne_empty ⟨50, 100, 200⟩ minedAt
    (started madeAt100) [.cycle (showing "a")]
  have hbound : Bound (tronService.pollPendingTransactions hexFormat ⟨50, 100, 200⟩ (showing "a")
      (started madeAt100)).world "a" 2 := .inl (by decide +kernel)
  have hnew : ¬ Bound madeAt100 "a" 2 := by
    rintro (⟨f, hf, -⟩ | ⟨row, hrow, hhash⟩)
    · cases hf
    · obtain rfl := Option.some.inj hrow
      cases hhash
  obtain ⟨-, hall⟩ := hcycle _ rfl "a" 2 hbound hnew
  have hlate := hall { tronInvoice 2 .pending none with createdAt := 100 } (.inl rfl)
  revert hlate
  decide

end CryptoLink
