import CryptoLink.Alone
import CryptoLink.Repository.Listings
import CryptoLink.Repository.Replies
import CryptoLink.Services.Collectors
import CryptoLink.Watcher.Sightings

/-!
# The open invoices of a collector

An invoice carries its collector's address as it was registered, in lower case.
The watcher renders the address of an unmatched transfer with a checksum, and
the listing compares the two letter by letter.
-/

namespace CryptoLink

open ReadCommitted StatementPrograms KeyedTables RankedListings Evm

/-- The database, and which invoice was made for which collector. -/
structure Books where
  world : World
  invoices : List (Int × CollectorRow)

/-- What `createTransactionWithCollectorAddress` inserts. -/
structure CollectorInvoice where
  collector : CollectorRow
  payment : Payment
  currency : CryptoCurrency
  networkCurrency : CryptoCurrency
  amount : Money
  serviceFee : Money
  usdAmount : Money
  now : Int

def CollectorInvoice.params (i : CollectorInvoice) : CreateTransactionParams :=
  (Service.pendingTransaction i.payment i.currency i.collector.contractAddress i.amount
    i.serviceFee i.usdAmount).toRepo i.payment.merchantID i.now i.networkCurrency

/-- One change of the database: a registration, the insert of an invoice, or
any statement of any call, replayed on whatever it saw. -/
inductive Change where
  | register (uuid : String) (merchantID : Int) (blockchain : String) (chainID : Int)
      (contractAddress : String)
  | invoice (i : CollectorInvoice) (env : Env) (seen : World)
  | statement (st : Stmt) (env : Env) (seen : World)
  | sequence (st : Stmt)

namespace Books

/-- Whether the insert adds a row. -/
def inserts (b : Books) (p : CreateTransactionParams) (seen : World) : Bool :=
  seen.createFits p && (b.world.transactions.get seen.nextTransactionID).isNone

def change (b : Books) : Change → Books
  | .register uuid merchantID blockchain chainID contractAddress =>
      { b with world := { b.world with
          collectors := registerCollector uuid merchantID blockchain chainID contractAddress
            b.world.collectors } }
  | .invoice i env seen =>
      { world := World.effect (.createTransaction i.params) env seen b.world
        invoices := if b.inserts i.params seen then
            b.invoices ++ [(seen.nextTransactionID, i.collector)]
          else b.invoices }
  | .statement st env seen => { b with world := World.effect st env seen b.world }
  | .sequence st => { b with world := World.lasting st b.world }

def after (w : World) (changes : List Change) : Books := changes.foldl change ⟨w, []⟩

/-- Whether transaction `id` was made for the collector: for its merchant, on
its blockchain and at its address. -/
def isInvoice (b : Books) (c : CollectorRow) (id : Int) : Bool :=
  b.invoices.any fun e => e.1 = id && e.2.merchantID = c.merchantID &&
    e.2.blockchain = c.blockchain && e.2.contractAddress = c.contractAddress

/-- Pending, incoming and without a hash. -/
def isOpen (row : TransactionRow) : Bool :=
  row.type = .incoming && row.status = .pending && row.transactionHash.isNone

def OpenInvoice (b : Books) (c : CollectorRow) (row : TransactionRow) : Prop :=
  row ∈ b.world.transactions.rows ∧ isOpen row = true ∧ b.isInvoice c row.id = true

/-- The open rows at an address as it is spelled. -/
def openAt (b : Books) (address : String) : List TransactionRow :=
  b.world.transactions.rows.filter fun row => isOpen row && row.recipientAddress = address

end Books

/-- The list is the collector's open invoices, as far as fifty of them reach. -/
def SeesOpenInvoices (b : Books) (c : CollectorRow) (invoices : List Transaction) : Prop :=
  (∀ tx ∈ invoices, ∃ row, b.OpenInvoice c row ∧ row.id = tx.id) ∧
    ∀ row, b.OpenInvoice c row → (∃ tx ∈ invoices, tx.id = row.id) ∨ invoices.length = 50

/-- The address of a collector as the watcher renders it. -/
def renderedAddress {A : Type} (fmt : AddressFormat A) (c : CollectorRow) : String :=
  fmt.hex (fmt.hexToAddress c.contractAddress)

/-- The rendered address is the stored one, if an invoice is open at all, and
every row there that was not made for the collector is older than fifty that
were. -/
def SpelledAsStored {A : Type} (fmt : AddressFormat A) (b : Books) (c : CollectorRow) : Prop :=
  (renderedAddress fmt c = c.contractAddress ∨ ∀ row, ¬ b.OpenInvoice c row) ∧
    ∀ row ∈ b.openAt (renderedAddress fmt c), b.isInvoice c row.id = false →
      50 ≤ above TransactionRow.id row
        ((b.openAt (renderedAddress fmt c)).filter fun r => b.isInvoice c r.id)

/-- The insert of `createTransactionWithCollectorAddress` is recorded. -/
theorem createTransactionWithCollectorAddress_writes (s : Service) (pt : Payment)
    (currency : CryptoCurrency) (collector : CollectorRow)
    (cryptoAmount cryptoServiceFee usdAmount : Money) :
    OnlyWrites (fun _ st => ∃ i : CollectorInvoice, i.collector = collector ∧
        st = .createTransaction i.params)
      (s.createTransactionWithCollectorAddress pt currency collector cryptoAmount cryptoServiceFee
        usdAmount) := by
  refine .bind (.attempt ?_) fun dust => .mapError _ (Service.create_writes fun now coin => ?_)
  · exact .bind (.read rfl) fun _ => .bind (.checked _) fun _ => .ret _
  · exact ⟨⟨collector, pt, currency, coin, _, cryptoServiceFee, usdAmount, now⟩, rfl, rfl⟩

/-- A row stays where it is to be paid. -/
theorem effect_keeps_recipient {w : World} {id : Int} {row : TransactionRow}
    (h : w.transactions.get id = some row) (st : Stmt) (env : Env) (seen : World) :
    ∃ row', (World.effect st env seen w).transactions.get id = some row' ∧
      row'.recipientAddress = row.recipientAddress ∧ row'.type = row.type := by
  rcases World.transaction_effect_cases st env seen w id with hsame | ⟨p, -, -, -, hget⟩ |
    ⟨p, -, -, -, hget⟩ | ⟨p, -, -, -, hnone, -⟩
  · exact ⟨row, hsame.trans h, rfl, rfl⟩
  · exact ⟨World.updatedTransaction p row, by rw [hget, h]; rfl, rfl, rfl⟩
  · exact ⟨World.cancelledTransaction p row, by rw [hget, h]; rfl, rfl, rfl⟩
  · rw [h] at hnone
    cases hnone

namespace Books

variable {b : Books} {c : CollectorRow}

/-- Every recorded invoice is there, at the address of its collector. -/
def Kept (b : Books) : Prop :=
  ∀ e ∈ b.invoices, ∃ row, b.world.transactions.get e.1 = some row ∧
    row.recipientAddress = e.2.contractAddress ∧ row.type = .incoming

theorem Kept.effect (h : b.Kept) (st : Stmt) (env : Env) (seen : World) :
    ∀ e ∈ b.invoices, ∃ row,
      (World.effect st env seen b.world).transactions.get e.1 = some row ∧
        row.recipientAddress = e.2.contractAddress ∧ row.type = .incoming := by
  intro e he
  obtain ⟨row, hget, haddress, htype⟩ := h e he
  obtain ⟨row', hget', haddress', htype'⟩ := effect_keeps_recipient hget st env seen
  exact ⟨row', hget', haddress'.trans haddress, htype'.trans htype⟩

theorem Kept.change (h : b.Kept) (x : Change) : (b.change x).Kept := by
  cases x with
  | register uuid merchantID blockchain chainID contractAddress => exact h
  | statement st env seen => exact h.effect st env seen
  | sequence st =>
    intro e he
    obtain ⟨row, hget, hrow⟩ := h e he
    refine ⟨row, ?_, hrow⟩
    simpa only [Books.change, lasting_transactions] using hget
  | invoice i env seen =>
    intro e he
    by_cases hins : b.inserts i.params seen = true
    · simp only [Books.change, hins, if_true] at he
      rcases List.mem_append.mp he with hold | hnew
      · exact h.effect _ env seen e hold
      · obtain rfl := List.mem_singleton.mp hnew
        obtain ⟨hfits, hfree⟩ : seen.createFits i.params = true ∧
            b.world.transactions.get seen.nextTransactionID = none := by
          simpa [inserts] using hins
        refine ⟨seen.newTransaction i.params, ?_, rfl, rfl⟩
        simp only [Books.change, World.effect, hfits, if_true]
        exact Table.get_insert_self (r := seen.newTransaction i.params) _ hfree
    · simp only [Books.change, hins] at he
      exact h.effect _ env seen e he

theorem kept_after (w : World) (changes : List Change) : (after w changes).Kept := by
  have hfold : ∀ b : Books, b.Kept → (changes.foldl Books.change b).Kept := by
    induction changes with
    | nil => exact fun _ hb => hb
    | cons x changes ih => exact fun b hb => ih _ (hb.change x)
  refine hfold ⟨w, []⟩ ?_
  intro e he
  cases he

/-- Whatever else happens, addresses are stored as they are registered. -/
theorem normalized_after {w : World} (hw : ∀ c ∈ w.collectors, c.Normalized)
    (changes : List Change) : ∀ c ∈ (after w changes).world.collectors, c.Normalized := by
  have hfold : ∀ b : Books, (∀ c ∈ b.world.collectors, c.Normalized) →
      ∀ c ∈ (changes.foldl Books.change b).world.collectors, c.Normalized := by
    induction changes with
    | nil => exact fun _ hb => hb
    | cons x changes ih =>
      intro b hb
      refine ih (b.change x) ?_
      cases x with
      | register uuid merchantID blockchain chainID contractAddress =>
        exact normalized_registerCollector hb
      | invoice i env seen =>
        intro c hc
        exact hb c (by simpa only [Books.change, World.effect_collectors] using hc)
      | statement st env seen =>
        intro c hc
        exact hb c (by simpa only [Books.change, World.effect_collectors] using hc)
      | sequence st =>
        intro c hc
        exact hb c (by simpa only [Books.change, lasting_collectors] using hc)
  exact hfold ⟨w, []⟩ hw

/-- An open invoice is at its collector's address. -/
theorem address_of_isInvoice (h : b.Kept) {row : TransactionRow}
    (hrow : row ∈ b.world.transactions.rows) (hinvoice : b.isInvoice c row.id = true) :
    row.recipientAddress = c.contractAddress := by
  obtain ⟨e, he, hmatch⟩ := List.any_eq_true.mp hinvoice
  simp only [Bool.and_eq_true, decide_eq_true_eq] at hmatch
  obtain ⟨row', hget, haddress, -⟩ := h e he
  rw [hmatch.1.1.1, Table.get_of_mem hrow] at hget
  obtain rfl := Option.some.inj hget
  exact haddress.trans hmatch.2

end Books

theorem openInvoices_filter {address : String} (h : address ≠ "") (row : TransactionRow) :
    World.matchesFilter (Service.Filter.toRepo {
        recipientAddress := address
        types := [.incoming]
        statuses := [.pending]
        hashIsEmpty := true } 50) row =
      (Books.isOpen row && decide (row.recipientAddress = address)) := by
  simp [World.matchesFilter, Service.Filter.toRepo, stringToNullable, h, Books.isOpen,
    Bool.and_assoc]

/-- What `ResolveUnmatchedCollectorPayment` attributes over: the fifty newest
open rows at the address. -/
theorem ids_openInvoices {s : Service} {b : Books} {address : String} (haddress : address ≠ "")
    {envs : ℕ → Env} {invoices : List Transaction}
    (h : outcome (s.openInvoices address) envs b.world = .ok invoices) :
    invoices.map Transaction.id =
      ((ranked TransactionRow.id (b.openAt address)).take 50).map TransactionRow.id := by
  unfold outcome Service.openInvoices at h
  rw [Engine.alone_mapError, Service.alone_listByFilter] at h
  cases hreply : engine.reply (.getTransactionsByFilter (Service.Filter.toRepo {
      recipientAddress := address
      types := [.incoming]
      statuses := [.pending]
      hashIsEmpty := true } 50)) (envs 0) b.world with
  | error e =>
    rw [hreply] at h
    cases h
  | ok rows =>
    rw [hreply] at h
    have hrows := reply_getTransactionsByFilter hreply
    cases hentries : rows.mapM s.entryToTransaction with
    | error e =>
      simp only [Except.bind, hentries] at h
      cases h
    | ok txs =>
      simp only [Except.bind, hentries] at h
      obtain rfl : txs = invoices := Except.ok.inj h
      have hfilter : b.world.transactions.rows.filter (World.matchesFilter
          (Service.Filter.toRepo {
            recipientAddress := address
            types := [.incoming]
            statuses := [.pending]
            hashIsEmpty := true } 50)) = b.openAt address :=
        List.filter_congr fun row _ => openInvoices_filter haddress row
      rw [Service.ids_of_mapM hentries, hrows, World.getTransactionsByFilter_eq, hfilter]
      rfl

namespace Books

variable {b : Books} {c : CollectorRow} {address : String}

theorem mem_openAt {row : TransactionRow} :
    row ∈ b.openAt address ↔
      row ∈ b.world.transactions.rows ∧ isOpen row = true ∧ row.recipientAddress = address := by
  simp [openAt]

theorem ids_openAt_nodup : ((b.openAt address).map TransactionRow.id).Nodup :=
  b.world.ids_filter_nodup _

/-- The rows listed are all the collector's, exactly if every other row at the
address is older than fifty of them. -/
theorem listed_iff {invoices : List Transaction}
    (h : invoices.map Transaction.id =
      ((ranked TransactionRow.id (b.openAt address)).take 50).map TransactionRow.id) :
    (∀ tx ∈ invoices, ∃ row, b.OpenInvoice c row ∧ row.id = tx.id) ↔
      ∀ row ∈ b.openAt address, b.isInvoice c row.id = false →
        50 ≤ above TransactionRow.id row
          ((b.openAt address).filter fun r => b.isInvoice c r.id) := by
  rw [← forall_mem_take_ranked (p := fun r => b.isInvoice c r.id) ids_openAt_nodup]
  constructor
  · intro hall row hrow
    have hid : row.id ∈ invoices.map Transaction.id := by
      rw [h]
      exact List.mem_map_of_mem hrow
    obtain ⟨tx, htx, hsame⟩ := List.mem_map.mp hid
    obtain ⟨row', ⟨-, -, hinvoice⟩, hid'⟩ := hall tx htx
    rw [hid', hsame] at hinvoice
    exact hinvoice
  · intro hall tx htx
    have hid : tx.id ∈ ((ranked TransactionRow.id (b.openAt address)).take 50).map
        TransactionRow.id := by
      rw [← h]
      exact List.mem_map_of_mem htx
    obtain ⟨row, hrow, hsame⟩ := List.mem_map.mp hid
    have hmem := mem_openAt.mp (mem_ranked.mp (List.mem_of_mem_take hrow))
    exact ⟨row, ⟨hmem.1, hmem.2.1, hall row hrow⟩, hsame⟩

/-- An open row at the address is listed unless fifty newer ones are. -/
theorem listed_or_full {invoices : List Transaction}
    (h : invoices.map Transaction.id =
      ((ranked TransactionRow.id (b.openAt address)).take 50).map TransactionRow.id)
    {row : TransactionRow} (hrow : row ∈ b.openAt address) :
    (∃ tx ∈ invoices, tx.id = row.id) ∨ invoices.length = 50 := by
  by_cases hlt : above TransactionRow.id row (b.openAt address) < 50
  · left
    have hshown := (mem_take_ranked ids_openAt_nodup).mpr ⟨hrow, hlt⟩
    have hid : row.id ∈ invoices.map Transaction.id := by
      rw [h]
      exact List.mem_map_of_mem hshown
    exact List.mem_map.mp hid
  · right
    have hcount : above TransactionRow.id row (b.openAt address) ≤ (b.openAt address).length :=
      List.countP_le_length
    have hlength := congrArg List.length h
    have hsame := (ranked_perm TransactionRow.id (b.openAt address)).length_eq
    simp only [List.length_map, List.length_take] at hlength
    omega

end Books

/-- For every registered collector, every run of the database and every
unmatched transfer the watcher reports at the collector: the list shows the
collector's open invoices exactly if the rendered address is the stored one, or
nothing is open, and no other row takes an invoice's place in the list. -/
theorem attribution_sees_open_invoices_iff {A : Type} (s : Service) (fmt : AddressFormat A)
    (hhex : ∀ a, fmt.hex a ≠ "") (w : World) (changes : List Change) (c : CollectorRow)
    (p : UnmatchedCollectorPayment) (hp : p.collectorAddress = renderedAddress fmt c)
    (envs : ℕ → Env) (invoices : List Transaction)
    (hlisted : outcome (s.openInvoices p.collectorAddress) envs (Books.after w changes).world =
      .ok invoices) :
    SeesOpenInvoices (Books.after w changes) c invoices ↔
      SpelledAsStored fmt (Books.after w changes) c := by
  have hkept := Books.kept_after w changes
  generalize Books.after w changes = b at hlisted hkept ⊢
  rw [hp] at hlisted
  have hne : renderedAddress fmt c ≠ "" := hhex _
  have hids := ids_openInvoices hne hlisted
  unfold SeesOpenInvoices SpelledAsStored
  rw [Books.listed_iff hids]
  constructor
  · rintro ⟨hothers, hall⟩
    refine ⟨?_, hothers⟩
    by_cases hsame : renderedAddress fmt c = c.contractAddress
    · exact .inl hsame
    · right
      -- no invoice is at the rendered address, so no row is there at all
      have hempty : b.openAt (renderedAddress fmt c) = [] := by
        refine List.eq_nil_iff_forall_not_mem.mpr ?_
        intro row hrow
        have hforeign : ∀ r ∈ b.openAt (renderedAddress fmt c), b.isInvoice c r.id = false := by
          intro r hr
          obtain ⟨hmem, -, hat⟩ := Books.mem_openAt.mp hr
          by_contra hinvoice
          have hstored := Books.address_of_isInvoice hkept hmem (by simpa using hinvoice)
          exact hsame (hat.symm.trans hstored)
        have hnone : (b.openAt (renderedAddress fmt c)).filter
            (fun r => b.isInvoice c r.id) = [] := by
          refine List.filter_eq_nil_iff.mpr ?_
          intro r hr
          simp [hforeign r hr]
        have hfull := hothers row hrow (hforeign row hrow)
        rw [hnone] at hfull
        cases hfull
      rw [hempty] at hids
      obtain rfl : invoices = [] := List.map_eq_nil_iff.mp hids
      intro row hopen
      rcases hall row hopen with ⟨tx, htx, -⟩ | hlength
      · cases htx
      · cases hlength
  · rintro ⟨haddress, hothers⟩
    refine ⟨hothers, ?_⟩
    intro row hopen
    rcases haddress with hsame | hnone
    · have hrow := Books.address_of_isInvoice hkept hopen.1 hopen.2.2
      exact Books.listed_or_full hids
        (Books.mem_openAt.mpr ⟨hopen.1, hopen.2.1, hrow.trans hsame.symm⟩)
    · exact absurd hopen (hnone row)

/-- A registered address has no capital letters, so with a checksum that has
any, no open invoice of the collector is listed. -/
theorem no_open_invoice_of_checksum {A : Type} {fmt : AddressFormat A} {w : World}
    (hw : ∀ c ∈ w.collectors, c.Normalized) {changes : List Change} {c : CollectorRow}
    (hc : c ∈ (Books.after w changes).world.collectors) (hevm : c.blockchain ≠ "TRON")
    (hchecksum : lower (renderedAddress fmt c) ≠ renderedAddress fmt c)
    (h : SpelledAsStored fmt (Books.after w changes) c) (row : TransactionRow) :
    ¬ (Books.after w changes).OpenInvoice c row := by
  rcases h.1 with hsame | hnone
  · have hlower : lower c.contractAddress = c.contractAddress :=
      (Books.normalized_after hw changes c hc).resolve_left hevm
    rw [hsame] at hchecksum
    exact absurd hlower hchecksum
  · exact hnone row

open Sample

namespace Sample

/-- Without a capital letter in its checksum. -/
def plainAddress : String := "0x1111111111111111111111111111111111111111"

def checksumAddress : String := "0x5aAeb6053F3E94C9b9A09f33669435E7Ef1BeAed"

/-- An address is its forty digits in lower case; their checksum is that of the
two addresses above. -/
def hexFormat : AddressFormat String where
  hexToAddress s := String.ofList ((lower s).toList.drop 2)
  hex a := "0x" ++ if a = "5aaeb6053f3e94c9b9a09f33669435e7ef1beaed" then
    "5aAeb6053F3E94C9b9A09f33669435E7Ef1BeAed" else a

def collectorAt (address : String) : CollectorRow := ⟨"c", 7, "ETH", 1, lower address, true⟩

def invoiceAt (address : String) : CollectorInvoice where
  collector := collectorAt address
  payment := ⟨3, 0, 0, none, .payment, .pending, 7, ⟨.fiat, "USD", 5000, 2⟩, false, some 1, []⟩
  currency := ether
  networkCurrency := ether
  amount := Money.crypto "ETH" 100 0
  serviceFee := Money.zeroValue
  usdAmount := ⟨.fiat, "USD", 5000, 2⟩
  now := 0

/-- Merchant 7 registers a collector, and payment 3 is to be paid there. -/
def oneInvoice (address : String) : List Change :=
  [.register "c" 7 "eth" 1 address, .invoice (invoiceAt address) {} noMoney]

/-- A token no invoice waits for arrives at the collector. -/
def unmatchedAt (address : String) : UnmatchedCollectorPayment where
  collectorAddress := hexFormat.hex (hexFormat.hexToAddress address)
  blockchain := "ETH"
  isTest := false
  isNative := false
  tokenContract := "0xdac17f958d2ee523a2206206994597c13d831ec7"
  rawAmount := "50"
  txHash := "0xa"
  senderAddress := "payer"

end Sample

theorem hexFormat_ne_empty (a : String) : hexFormat.hex a ≠ "" := by
  simp [hexFormat]

/-- An address of digits is rendered as it is stored. -/
theorem attribution_sees_open_invoices_iff_sample :
    ∃ invoices, outcome (service.openInvoices (unmatchedAt plainAddress).collectorAddress)
        (fun _ => {}) (Books.after noMoney (oneInvoice plainAddress)).world = .ok invoices ∧
      invoices.map Transaction.id = [2] ∧
      (SeesOpenInvoices (Books.after noMoney (oneInvoice plainAddress))
          (collectorAt plainAddress) invoices ↔
        SpelledAsStored hexFormat (Books.after noMoney (oneInvoice plainAddress))
          (collectorAt plainAddress)) := by
  refine ⟨_, rfl, ?_, attribution_sees_open_invoices_iff service hexFormat hexFormat_ne_empty
    noMoney (oneInvoice plainAddress) (collectorAt plainAddress) (unmatchedAt plainAddress)
    (by decide +kernel) (fun _ => {}) _ rfl⟩
  decide +kernel

/-- The checksum has capital letters: the collector's open invoice is not
listed. -/
theorem attribution_misses_checksummed_collector :
    ¬ ∀ (s : Service) (fmt : AddressFormat String), (∀ a, fmt.hex a ≠ "") →
      ∀ (changes : List Change) (c : CollectorRow),
        c ∈ (Books.after noMoney changes).world.collectors → c.blockchain ≠ "TRON" →
      ∀ (p : UnmatchedCollectorPayment), p.collectorAddress = renderedAddress fmt c →
      ∀ (envs : ℕ → Env) (invoices : List Transaction),
        outcome (s.openInvoices p.collectorAddress) envs (Books.after noMoney changes).world =
          .ok invoices →
        SeesOpenInvoices (Books.after noMoney changes) c invoices := by
  intro h
  have hsees := h service hexFormat hexFormat_ne_empty (oneInvoice checksumAddress)
    (collectorAt checksumAddress) (by decide +kernel) (by decide) (unmatchedAt checksumAddress)
    (by decide +kernel) (fun _ => {}) [] (by decide +kernel)
  obtain ⟨row, hopen⟩ : ∃ row, (Books.after noMoney (oneInvoice checksumAddress)).OpenInvoice
      (collectorAt checksumAddress) row := by
    refine ⟨World.newTransaction noMoney (invoiceAt checksumAddress).params, ?_, ?_, ?_⟩
    · decide +kernel
    · decide +kernel
    · decide +kernel
  rcases hsees.2 row hopen with ⟨tx, htx, -⟩ | hlength
  · cases htx
  · cases hlength

end CryptoLink
