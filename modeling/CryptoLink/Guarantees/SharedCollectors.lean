import CryptoLink.Guarantees.OpenInvoices

/-!
# Merchants at one address

A collector's address is whatever its merchant registers. The upsert compares
merchants and blockchains and never addresses, so two merchants can have an
active collector at one address, and their invoices wait there side by side.
-/

namespace CryptoLink

open KeyedTables

/-- The database, and the collectors found by calls that may still make an
invoice for them. -/
structure CollectorBooks where
  world : World
  found : List CollectorRow

/-- One registration or deletion, the look-up of a collector for an invoice,
the insert of the invoice, the end of a call that made none, or any other
statement, replayed on what it saw. -/
inductive CollectorChange where
  | register (uuid : String) (merchantID : Int) (blockchain : String) (chainID : Int)
      (contractAddress : String)
  | delete (merchantID : Int) (blockchain : String)
  | lookup (merchantID : Int) (blockchain : String)
  | invoice (i : CollectorInvoice) (env : Env) (seen : World)
  | giveUp (c : CollectorRow)
  | statement (st : Stmt) (env : Env) (seen : World)
  | sequence (st : Stmt)

namespace CollectorBooks

/-- An invoice is made by a call that found its merchant's collector before, and
such a call makes one invoice. -/
def change (b : CollectorBooks) : CollectorChange → CollectorBooks
  | .register uuid merchantID blockchain chainID contractAddress =>
      { b with world := { b.world with
          collectors := registerCollector uuid merchantID blockchain chainID contractAddress
            b.world.collectors } }
  | .delete merchantID blockchain =>
      match deleteCollector merchantID blockchain b.world.collectors with
      | .ok collectors => { b with world := { b.world with collectors := collectors } }
      | .error _ => b
  | .lookup merchantID blockchain =>
      match b.world.collectors.find? fun c =>
          c.merchantID = merchantID && c.blockchain = blockchain && c.isActive with
      | none => b
      | some c => { b with found := b.found ++ [c] }
  | .invoice i env seen =>
      if i.collector ∈ b.found ∧ i.collector.merchantID = i.payment.merchantID then
        { world := World.effect (.createTransaction i.params) env seen b.world
          found := b.found.erase i.collector }
      else b
  | .giveUp c => { b with found := b.found.erase c }
  | .statement st env seen => { b with world := World.effect st env seen b.world }
  | .sequence st => { b with world := World.lasting st b.world }

/-- Before the first merchant comes. -/
def start (w : World) : CollectorBooks :=
  ⟨{ w with collectors := [], transactions := Table.empty }, []⟩

def after (w : World) (changes : List CollectorChange) : CollectorBooks :=
  changes.foldl change (start w)

end CollectorBooks

/-- At most one merchant has an active collector at an address of a blockchain. -/
def OneHolder (w : World) : Prop :=
  ∀ c ∈ w.collectors, ∀ d ∈ w.collectors, c.isActive = true → d.isActive = true →
    c.blockchain = d.blockchain → c.contractAddress = d.contractAddress →
    c.merchantID = d.merchantID

/-- All open invoices at the address of an active collector are one
merchant's. -/
def OneCreditor (w : World) : Prop :=
  ∀ c ∈ w.collectors, c.isActive = true →
    ∀ row ∈ w.transactions.rows, ∀ row' ∈ w.transactions.rows,
      Books.isOpen row = true → Books.isOpen row' = true →
      row.recipientAddress = c.contractAddress → row'.recipientAddress = c.contractAddress →
      row.merchantID = row'.merchantID

namespace CollectorBooks

/-- Nobody but merchant `m` has an active collector at the address, or a call
that found one. -/
def HeldOnlyBy (b : CollectorBooks) (m : Int) (address : String) : Prop :=
  (∀ c ∈ b.world.collectors, c.isActive = true → c.contractAddress = address → c.merchantID = m) ∧
    ∀ c ∈ b.found, c.contractAddress = address → c.merchantID = m

/-- Nor an open invoice. -/
def UsedOnlyBy (b : CollectorBooks) (m : Int) (address : String) : Prop :=
  b.HeldOnlyBy m address ∧ ∀ row ∈ b.world.transactions.rows, Books.isOpen row = true →
    row.recipientAddress = address → row.merchantID = m

end CollectorBooks

namespace CollectorChange

/-- A registration finds no other merchant's active collector at its address. -/
def Unheld (w : World) : CollectorChange → Prop
  | .register _ merchantID blockchain _ contractAddress =>
      ∀ c ∈ w.collectors, c.isActive = true → c.blockchain = upper blockchain →
        c.contractAddress = storedAddress blockchain contractAddress → c.merchantID = merchantID
  | _ => True

/-- A registration finds nothing of another merchant at its address; a transaction
made otherwise than for a collector goes to no other merchant's collector; and
what is not open any more is not opened again. -/
def Clear (b : CollectorBooks) : CollectorChange → Prop
  | .register _ merchantID blockchain _ contractAddress =>
      b.UsedOnlyBy merchantID (storedAddress blockchain contractAddress)
  | .statement (.createTransaction p) _ _ =>
      p.type = .incoming → b.HeldOnlyBy p.merchantID p.recipientAddress
  | .statement (.updateTransaction p) _ _ => p.status ≠ .pending
  | .statement (.cancelTransaction p) _ _ => p.status ≠ .pending
  | _ => True

end CollectorChange

/-- Every change of the run is clear when it is made. -/
def AllClear : CollectorBooks → List CollectorChange → Prop
  | _, [] => True
  | b, x :: rest => x.Clear b ∧ AllClear (b.change x) rest

namespace CollectorBooks

variable {b : CollectorBooks} {changes : List CollectorChange}

theorem statement_collectors (b : CollectorBooks) (x : CollectorChange) :
    (∃ uuid m blockchain chainID address,
      x = .register uuid m blockchain chainID address ∧
      (b.change x).world.collectors =
        registerCollector uuid m blockchain chainID address b.world.collectors) ∨
    (∃ m blockchain deleted, deleteCollector m blockchain b.world.collectors = .ok deleted ∧
      x.Unheld b.world ∧ (b.change x).world.collectors = deleted) ∨
    (x.Unheld b.world ∧ (b.change x).world.collectors = b.world.collectors) := by
  cases x with
  | register uuid m blockchain chainID address =>
    exact .inl ⟨uuid, m, blockchain, chainID, address, rfl, rfl⟩
  | delete m blockchain =>
    cases hdelete : deleteCollector m blockchain b.world.collectors with
    | error e =>
      refine .inr (.inr ⟨trivial, ?_⟩)
      simp only [change, hdelete]
    | ok deleted =>
      refine .inr (.inl ⟨m, blockchain, deleted, hdelete, trivial, ?_⟩)
      simp only [change, hdelete]
  | lookup m blockchain =>
    refine .inr (.inr ⟨trivial, ?_⟩)
    rw [change]
    split
    · rfl
    · rfl
  | invoice i env seen =>
    refine .inr (.inr ⟨trivial, ?_⟩)
    rw [change]
    split
    · exact World.effect_collectors
    · rfl
  | giveUp c => exact .inr (.inr ⟨trivial, rfl⟩)
  | statement st env seen => exact .inr (.inr ⟨trivial, World.effect_collectors⟩)
  | sequence st => exact .inr (.inr ⟨trivial, lasting_collectors st b.world⟩)

/-- A registration is all that can put two merchants at one address, and it
does so exactly where it finds another one. -/
theorem oneHolder_change (h : OneHolder b.world) (x : CollectorChange) :
    OneHolder (b.change x).world ↔ x.Unheld b.world := by
  rcases b.statement_collectors x with ⟨uuid, m, blockchain, chainID, address, rfl, hcollectors⟩ |
    ⟨m, blockchain, deleted, hdelete, hunheld, hcollectors⟩ | ⟨hunheld, hcollectors⟩
  · constructor
    · intro hone c hc hactive hblockchain haddress
      by_contra hother
      obtain ⟨d, hd, hdm, hdb, hda, hdactive⟩ := exists_registerCollector uuid m blockchain
        chainID address b.world.collectors
      have hkept : c ∈ registerCollector uuid m blockchain chainID address b.world.collectors :=
        registerCollector_keeps hc hother
      refine hother ((hone c ?_ d ?_ hactive hdactive ?_ ?_).trans hdm)
      · rw [hcollectors]
        exact hkept
      · rw [hcollectors]
        exact hd
      · exact hblockchain.trans hdb.symm
      · exact haddress.trans hda.symm
    · intro hunheld c hc d hd hcactive hdactive hblockchain haddress
      rw [hcollectors] at hc hd
      rcases mem_registerCollector hc with ⟨hcold, -⟩ | ⟨hcm, hcb, hca⟩
      · rcases mem_registerCollector hd with ⟨hdold, -⟩ | ⟨hdm, hdb, hda⟩
        · exact h c hcold d hdold hcactive hdactive hblockchain haddress
        · rw [hdm]
          exact hunheld c hcold hcactive (hblockchain.trans hdb) (haddress.trans hda)
      · rcases mem_registerCollector hd with ⟨hdold, -⟩ | ⟨hdm, hdb, hda⟩
        · rw [hcm]
          exact (hunheld d hdold hdactive (hblockchain.symm.trans hcb)
            (haddress.symm.trans hca)).symm
        · rw [hcm, hdm]
  · refine ⟨fun _ => hunheld, fun _ => ?_⟩
    intro c hc d hd hcactive hdactive hblockchain haddress
    rw [hcollectors] at hc hd
    obtain ⟨c', hc', hcm, hcb, hca, hkeptc⟩ := mem_deleteCollector hdelete hc
    obtain ⟨d', hd', hdm, hdb, hda, hkeptd⟩ := mem_deleteCollector hdelete hd
    rw [← hcm, ← hdm]
    refine h c' hc' d' hd' (hkeptc hcactive) (hkeptd hdactive) ?_ ?_
    · rw [hcb, hdb, hblockchain]
    · rw [hca, hda, haddress]
  · refine ⟨fun _ => hunheld, fun _ => ?_⟩
    intro c hc d hd
    rw [hcollectors] at hc hd
    exact h c hc d hd

theorem after_append (w : World) (x : CollectorChange) :
    after w (changes ++ [x]) = (after w changes).change x := by
  rw [after, List.foldl_append]
  rfl

theorem oneHolder_start (w : World) : OneHolder (start w).world := by
  intro c hc
  cases hc

theorem oneHolder_after_iff (w : World) (changes : List CollectorChange) :
    (∀ done rest, changes = done ++ rest → OneHolder (after w done).world) ↔
      ∀ done x rest, changes = done ++ x :: rest → x.Unheld (after w done).world := by
  constructor
  · intro hone done x rest heq
    have hbefore := hone done (x :: rest) heq
    have hafter := hone (done ++ [x]) rest (by rw [heq, List.append_assoc]; rfl)
    rw [after_append] at hafter
    exact (oneHolder_change hbefore x).mp hafter
  · intro hunheld done
    induction done using List.reverseRecOn with
    | nil => exact fun _ _ => oneHolder_start w
    | append_singleton done x ih =>
      intro rest heq
      have heq' : changes = done ++ x :: rest := by rw [heq, List.append_assoc]; rfl
      rw [after_append]
      exact (oneHolder_change (ih (x :: rest) heq') x).mpr (hunheld done x rest heq')

/-- Whoever has an active collector at an address, or a call that found one, has
the address to itself. -/
def Apart (b : CollectorBooks) : Prop :=
  ∀ c, (c ∈ b.world.collectors ∧ c.isActive = true ∨ c ∈ b.found) →
    b.UsedOnlyBy c.merchantID c.contractAddress

theorem Apart.oneHolder (h : b.Apart) : OneHolder b.world := by
  intro c hc d hd hactive hactive' _ haddress
  exact (h d (.inl ⟨hd, hactive'⟩)).1.1 c hc hactive haddress

theorem Apart.oneCreditor (h : b.Apart) : OneCreditor b.world := by
  intro c hc hactive row hrow row' hrow' hopen hopen' hat hat'
  obtain ⟨-, hrows⟩ := h c (.inl ⟨hc, hactive⟩)
  rw [hrows row hrow hopen hat, hrows row' hrow' hopen' hat']

/-- With fewer holders and fewer open invoices. -/
theorem Apart.of_fewer {b' : CollectorBooks} (h : b.Apart)
    (hcollectors : ∀ c ∈ b'.world.collectors, c.isActive = true →
      ∃ c', (c' ∈ b.world.collectors ∧ c'.isActive = true ∨ c' ∈ b.found) ∧
        c'.merchantID = c.merchantID ∧ c'.contractAddress = c.contractAddress)
    (hfound : ∀ c ∈ b'.found, ∃ c', (c' ∈ b.world.collectors ∧ c'.isActive = true ∨ c' ∈ b.found) ∧
        c'.merchantID = c.merchantID ∧ c'.contractAddress = c.contractAddress)
    (hrows : ∀ c, (c ∈ b.world.collectors ∧ c.isActive = true ∨ c ∈ b.found) →
      ∀ row ∈ b'.world.transactions.rows, Books.isOpen row = true →
        row.recipientAddress = c.contractAddress → row.merchantID = c.merchantID) : b'.Apart := by
  -- two holders of one address were holders before
  have hsame : ∀ c d, (c ∈ b.world.collectors ∧ c.isActive = true ∨ c ∈ b.found) →
      (d ∈ b.world.collectors ∧ d.isActive = true ∨ d ∈ b.found) →
      d.contractAddress = c.contractAddress → d.merchantID = c.merchantID := by
    rintro c d hc (⟨hd, hactive⟩ | hd) haddress
    · exact (h c hc).1.1 d hd hactive haddress
    · exact (h c hc).1.2 d hd haddress
  intro c hc
  obtain ⟨c', hc', hmerchant, haddress⟩ : ∃ c',
      (c' ∈ b.world.collectors ∧ c'.isActive = true ∨ c' ∈ b.found) ∧
        c'.merchantID = c.merchantID ∧ c'.contractAddress = c.contractAddress := by
    rcases hc with ⟨hc, hactive⟩ | hc
    · exact hcollectors c hc hactive
    · exact hfound c hc
  rw [← hmerchant, ← haddress]
  refine ⟨⟨?_, ?_⟩, hrows c' hc'⟩
  · intro d hd hactive hat
    obtain ⟨d', hd', hm, ha⟩ := hcollectors d hd hactive
    rw [← hm]
    exact hsame c' d' hc' hd' (ha.trans hat)
  · intro d hd hat
    obtain ⟨d', hd', hm, ha⟩ := hfound d hd
    rw [← hm]
    exact hsame c' d' hc' hd' (ha.trans hat)

/-- An open row after a statement was open before, or it is new. -/
theorem effect_open {w : World} {st : Stmt} {env : Env} {seen : World} {row : TransactionRow}
    (hupdate : ∀ p, st = .updateTransaction p → p.status ≠ .pending)
    (hcancel : ∀ p, st = .cancelTransaction p → p.status ≠ .pending)
    (hrow : row ∈ (World.effect st env seen w).transactions.rows)
    (hopen : Books.isOpen row = true) :
    row ∈ w.transactions.rows ∨
      ∃ p, st = .createTransaction p ∧ row = seen.newTransaction p := by
  have hpending : row.status = .pending := by
    simp only [Books.isOpen, Bool.and_eq_true, decide_eq_true_eq] at hopen
    exact hopen.1.2
  have hget := Table.get_of_mem hrow
  rcases World.transaction_effect_cases st env seen w row.id with hsame | ⟨p, hst, -, -, hupdated⟩ |
    ⟨p, hst, -, -, hcancelled⟩ | ⟨p, hst, -, -, -, hcreated⟩
  · rw [hsame] at hget
    exact .inl (Table.get_eq_some hget).1
  · rw [hupdated] at hget
    obtain ⟨old, -, rfl⟩ := Option.map_eq_some_iff.mp hget
    exact absurd hpending (hupdate p hst)
  · rw [hcancelled] at hget
    obtain ⟨old, -, rfl⟩ := Option.map_eq_some_iff.mp hget
    exact absurd hpending (hcancel p hst)
  · rw [hcreated] at hget
    exact .inr ⟨p, hst, (Option.some.inj hget).symm⟩

/-- A registration of an address nobody else uses. -/
theorem Apart.register (h : b.Apart) {uuid : String} {m : Int} {blockchain : String} {chainID : Int}
    {address : String} (hclear : b.UsedOnlyBy m (storedAddress blockchain address)) :
    (b.change (.register uuid m blockchain chainID address)).Apart := by
  -- every holder after it is one from before, or the registered one
  have hcases : ∀ c, (c ∈
    (b.change (.register uuid m blockchain chainID address)).world.collectors ∧
      c.isActive = true ∨ c ∈ b.found) →
      (c ∈ b.world.collectors ∧ c.isActive = true ∨ c ∈ b.found) ∨
        c.merchantID = m ∧ c.contractAddress = storedAddress blockchain address := by
    rintro c (⟨hc, hactive⟩ | hc)
    · rcases mem_registerCollector hc with ⟨hold, -⟩ | ⟨hm, -, ha⟩
      · exact .inl (.inl ⟨hold, hactive⟩)
      · exact .inr ⟨hm, ha⟩
    · exact .inl (.inr hc)
  have hholder : ∀ c d, (c ∈ b.world.collectors ∧ c.isActive = true ∨ c ∈ b.found) →
      (d ∈ (b.change (.register uuid m blockchain chainID address)).world.collectors ∧
        d.isActive = true ∨ d ∈ b.found) →
      d.contractAddress = c.contractAddress → d.merchantID = c.merchantID := by
    intro c d hc hd haddress
    rcases hcases d hd with (⟨hd, hactive⟩ | hd) | ⟨hm, ha⟩
    · exact (h c hc).1.1 d hd hactive haddress
    · exact (h c hc).1.2 d hd haddress
    · rw [hm]
      rcases hc with ⟨hc, hactive⟩ | hc
      · exact (hclear.1.1 c hc hactive (haddress.symm.trans ha)).symm
      · exact (hclear.1.2 c hc (haddress.symm.trans ha)).symm
  intro c hc
  rcases hcases c hc with hold | ⟨hm, ha⟩
  · exact ⟨⟨fun d hd hactive hat => hholder c d hold (.inl ⟨hd, hactive⟩) hat,
      fun d hd hat => hholder c d hold (.inr hd) hat⟩, (h c hold).2⟩
  · rw [hm, ha]
    refine ⟨⟨fun d hd hactive hat => ?_, hclear.1.2⟩, hclear.2⟩
    rcases hcases d (.inl ⟨hd, hactive⟩) with (⟨hd, hactive⟩ | hd) | ⟨hm, -⟩
    · exact hclear.1.1 d hd hactive hat
    · exact hclear.1.2 d hd hat
    · exact hm

theorem Apart.change (h : b.Apart) {x : CollectorChange} (hx : x.Clear b) : (b.change x).Apart := by
  have hkept : ∀ c ∈ b.world.collectors, c.isActive = true →
      ∃ c', (c' ∈ b.world.collectors ∧ c'.isActive = true ∨ c' ∈ b.found) ∧
        c'.merchantID = c.merchantID ∧ c'.contractAddress = c.contractAddress :=
    fun c hc hactive => ⟨c, .inl ⟨hc, hactive⟩, rfl, rfl⟩
  have hfound : ∀ c ∈ b.found, ∃ c', (c' ∈ b.world.collectors ∧ c'.isActive = true ∨
      c' ∈ b.found) ∧ c'.merchantID = c.merchantID ∧ c'.contractAddress = c.contractAddress :=
    fun c hc => ⟨c, .inr hc, rfl, rfl⟩
  have hrows : ∀ c, (c ∈ b.world.collectors ∧ c.isActive = true ∨ c ∈ b.found) →
      ∀ row ∈ b.world.transactions.rows, Books.isOpen row = true →
        row.recipientAddress = c.contractAddress → row.merchantID = c.merchantID :=
    fun c hc => (h c hc).2
  cases x with
  | register uuid m blockchain chainID address => exact h.register hx
  | delete m blockchain =>
    rw [CollectorBooks.change]
    split
    · rename_i deleted hdelete
      refine h.of_fewer (fun c hc hactive => ?_) hfound hrows
      obtain ⟨c', hc', hm, -, ha, hactive'⟩ := mem_deleteCollector hdelete hc
      exact ⟨c', .inl ⟨hc', hactive' hactive⟩, hm, ha⟩
    · exact h
  | lookup m blockchain =>
    rw [CollectorBooks.change]
    split
    · exact h
    · rename_i c hfind
      have hactive := List.find?_some hfind
      simp only [Bool.and_eq_true, decide_eq_true_eq] at hactive
      refine h.of_fewer hkept (fun d hd => ?_) hrows
      rcases List.mem_append.mp hd with hold | hnew
      · exact hfound d hold
      · obtain rfl := List.mem_singleton.mp hnew
        exact hkept d (List.mem_of_find?_eq_some hfind) hactive.2
  | giveUp c =>
    exact h.of_fewer hkept (fun d hd => hfound d (List.mem_of_mem_erase hd)) hrows
  | invoice i env seen =>
    rw [CollectorBooks.change]
    split
    · rename_i hmade
      refine h.of_fewer (fun c hc hactive => ?_)
        (fun d hd => hfound d (List.mem_of_mem_erase hd)) ?_
      · rw [World.effect_collectors] at hc
        exact hkept c hc hactive
      · intro c hc row hrow hopen hat
        rcases effect_open (fun p hp => by cases hp) (fun p hp => by cases hp) hrow hopen with
          hold | ⟨p, hp, rfl⟩
        · exact hrows c hc row hold hopen hat
        · -- the call's own collector is at the address
          cases hp
          have hholder : i.collector.merchantID = c.merchantID :=
            (h c hc).1.2 i.collector hmade.1 hat
          exact hmade.2.symm.trans hholder
    · exact h
  | statement st env seen =>
    refine h.of_fewer (fun c hc hactive => ?_) hfound ?_
    · rw [CollectorBooks.change, World.effect_collectors] at hc
      exact hkept c hc hactive
    · intro c hc row hrow hopen hat
      have hupdate : ∀ p, st = .updateTransaction p → p.status ≠ .pending := by
        rintro p rfl
        exact hx
      have hcancel : ∀ p, st = .cancelTransaction p → p.status ≠ .pending := by
        rintro p rfl
        exact hx
      rcases effect_open hupdate hcancel hrow hopen with hold | ⟨p, rfl, rfl⟩
      · exact hrows c hc row hold hopen hat
      · have hincoming : p.type = .incoming := by
          simp only [Books.isOpen, World.newTransaction, Bool.and_eq_true] at hopen
          exact of_decide_eq_true hopen.1.1
        obtain ⟨hheld, hheld'⟩ := hx hincoming
        rcases hc with ⟨hc, hactive⟩ | hc
        · exact (hheld c hc hactive hat.symm).symm
        · exact (hheld' c hc hat.symm).symm
  | sequence st =>
    refine h.of_fewer (fun c hc hactive => ?_) hfound fun c hc row hrow => ?_
    · rw [CollectorBooks.change, lasting_collectors] at hc
      exact hkept c hc hactive
    · rw [CollectorBooks.change, lasting_transactions] at hrow
      exact hrows c hc row hrow

theorem apart_start (w : World) : (start w).Apart := by
  rintro c (⟨hc, -⟩ | hc)
  · cases hc
  · cases hc

theorem apart_of_allClear (h : b.Apart) {done rest : List CollectorChange}
    (hclear : AllClear b (done ++ rest)) : (done.foldl CollectorBooks.change b).Apart := by
  induction done generalizing b with
  | nil => exact h
  | cons x done ih => exact ih (h.change hclear.1) hclear.2

end CollectorBooks

open CollectorBooks

/-- For every run of registrations, deletions and invoices: an address has one
holder at every moment exactly if no registration finds another merchant's
active collector there; and where none finds anything of another merchant at its
address, the open invoices at a collector are one merchant's too. -/
theorem collector_address_has_one_merchant (w : World) (changes : List CollectorChange) :
    ((∀ done rest, changes = done ++ rest → OneHolder (after w done).world) ↔
      ∀ done x rest, changes = done ++ x :: rest → x.Unheld (after w done).world) ∧
    (AllClear (start w) changes → ∀ done rest, changes = done ++ rest →
      OneHolder (after w done).world ∧ OneCreditor (after w done).world) := by
  refine ⟨oneHolder_after_iff w changes, ?_⟩
  rintro hclear done rest rfl
  have hapart : (after w done).Apart := apart_of_allClear (apart_start w) hclear
  exact ⟨hapart.oneHolder, hapart.oneCreditor⟩

instance (b : CollectorBooks) (m : Int) (address : String) : Decidable (b.HeldOnlyBy m address) :=
  inferInstanceAs (Decidable (_ ∧ _))

instance (b : CollectorBooks) (m : Int) (address : String) : Decidable (b.UsedOnlyBy m address) :=
  inferInstanceAs (Decidable (_ ∧ _))

open Sample

namespace Sample

/-- What merchant `m` has at `address`. -/
def collectorOf (uuid : String) (m : Int) (address : String) : CollectorRow :=
  { collectorAt address with uuid := uuid, merchantID := m }

def registrationOf (uuid : String) (m : Int) (address : String) : CollectorChange :=
  .register uuid m "ETH" 1 address

def invoiceFor (uuid : String) (m : Int) (address : String) : CollectorInvoice :=
  { invoiceAt address with
    collector := collectorOf uuid m address
    payment := { (invoiceAt address).payment with merchantID := m } }

/-- Both merchants register one address and make an invoice there. -/
def twoMerchants : List CollectorChange :=
  [registrationOf "c" 7 plainAddress, registrationOf "d" 8 plainAddress, .lookup 7 "ETH",
   .lookup 8 "ETH", .invoice (invoiceFor "c" 7 plainAddress) {} noMoney,
   .invoice (invoiceFor "d" 8 plainAddress) {} { noMoney with nextTransactionID := 3 }]

/-- The first merchant has given its collector up, but not its invoice. -/
def handedOver : List CollectorChange :=
  [registrationOf "c" 7 plainAddress, .lookup 7 "ETH",
   .invoice (invoiceFor "c" 7 plainAddress) {} noMoney, .delete 7 "ETH",
   registrationOf "d" 8 plainAddress, .lookup 8 "ETH",
   .invoice (invoiceFor "d" 8 plainAddress) {} { noMoney with nextTransactionID := 3 }]

def otherAddress : String := "0x2222222222222222222222222222222222222222"

/-- Two merchants at two addresses, each with an open invoice. -/
def neighbours : List CollectorChange :=
  [registrationOf "c" 7 plainAddress, registrationOf "d" 8 otherAddress, .lookup 7 "ETH",
   .lookup 8 "ETH", .invoice (invoiceFor "c" 7 plainAddress) {} noMoney,
   .invoice (invoiceFor "d" 8 otherAddress) {} { noMoney with nextTransactionID := 3 }]

/-- The first one's invoice is cancelled and its collector given up, and the second
one moves to the address. -/
def movedIn : List CollectorChange :=
  neighbours ++
    [.statement (.cancelTransaction ⟨2, .cancelled, 0, none, none, false⟩) {}
      (after noMoney neighbours).world,
     .delete 7 "ETH", registrationOf "d" 8 plainAddress, .lookup 8 "ETH",
     .invoice (invoiceFor "d" 8 plainAddress) {} { noMoney with nextTransactionID := 4 }]

end Sample

theorem allClear_movedIn : AllClear (start noMoney) movedIn := by
  refine ⟨?_, ?_, trivial, trivial, trivial, trivial, ?_, trivial, ?_, trivial, trivial, trivial⟩
  · show CollectorBooks.UsedOnlyBy _ _ _
    decide +kernel
  · show CollectorBooks.UsedOnlyBy _ _ _
    decide +kernel
  · show Transaction.Status.cancelled ≠ Transaction.Status.pending
    decide
  · show CollectorBooks.UsedOnlyBy _ _ _
    decide +kernel

/-- An address may pass from one merchant to the other. -/
theorem collector_address_has_one_merchant_sample :
    (after noMoney neighbours).world.transactions.rows.map TransactionRow.merchantID = [7, 8] ∧
      OneHolder (after noMoney movedIn).world ∧ OneCreditor (after noMoney movedIn).world :=
  ⟨by decide +kernel, (collector_address_has_one_merchant noMoney movedIn).2
    allClear_movedIn movedIn [] (List.append_nil _).symm⟩

/-- Nothing keeps the second merchant from the address of the first, nor, once
the first has deleted its collector, from the invoices still open there. -/
theorem two_merchants_at_one_address :
    (¬ OneHolder (after noMoney twoMerchants).world ∧
      ¬ OneCreditor (after noMoney twoMerchants).world) ∧
    OneHolder (after noMoney handedOver).world ∧
      ¬ OneCreditor (after noMoney handedOver).world := by
  have hrows : ∀ changes : List CollectorChange,
      (after noMoney changes).world.collectors.contains (collectorOf "d" 8 plainAddress) = true →
      (∃ row ∈ (after noMoney changes).world.transactions.rows, Books.isOpen row = true ∧
        row.recipientAddress = plainAddress ∧ row.merchantID = 7) →
      (∃ row ∈ (after noMoney changes).world.transactions.rows, Books.isOpen row = true ∧
        row.recipientAddress = plainAddress ∧ row.merchantID = 8) →
      ¬ OneCreditor (after noMoney changes).world := by
    rintro changes hheld ⟨row, hrow, hopen, hat, hm⟩ ⟨row', hrow', hopen', hat', hm'⟩ h
    have hsame := h (collectorOf "d" 8 plainAddress) (List.contains_iff_mem.mp hheld) rfl row hrow
      row' hrow' hopen hopen' (hat.trans (by decide +kernel)) (hat'.trans (by decide +kernel))
    rw [hm, hm'] at hsame
    cases hsame
  refine ⟨⟨?_, ?_⟩, ?_, ?_⟩
  · intro h
    have hsame := h (collectorOf "c" 7 plainAddress) (by decide +kernel)
      (collectorOf "d" 8 plainAddress) (by decide +kernel) rfl rfl rfl rfl
    cases hsame
  · exact hrows twoMerchants (by decide +kernel) (by decide +kernel) (by decide +kernel)
  · show ∀ c ∈ (after noMoney handedOver).world.collectors,
      ∀ d ∈ (after noMoney handedOver).world.collectors, _ → _ → _ → _ → _ = _
    decide +kernel
  · exact hrows handedOver (by decide +kernel) (by decide +kernel) (by decide +kernel)

end CryptoLink
