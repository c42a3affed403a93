import CryptoLink.Alone
import CryptoLink.Processing.PaymentRelations

/-!
# Eager loading

The query keeps the newest row of each payment whose id it was sent, and the
join finds it by the same id. Ids of 32 bits or more arrive as other numbers.
-/

namespace CryptoLink

open RankedListings

/-- An incoming transaction or a withdrawal of the payment. -/
def Relevant (merchantID id : Int) (r : TransactionRow) : Prop :=
  r.merchantID = merchantID ∧ r.entityID = some id ∧ (r.type = .incoming ∨ r.type = .withdrawal)

/-- The newest of them. -/
def LatestOf (w : World) (merchantID id : Int) (r : TransactionRow) : Prop :=
  r ∈ w.transactions.rows ∧ Relevant merchantID id r ∧
    ∀ r' ∈ w.transactions.rows, Relevant merchantID id r' → r'.id ≤ r.id

def NoneOf (w : World) (merchantID id : Int) : Prop :=
  ∀ r ∈ w.transactions.rows, ¬ Relevant merchantID id r

/-- The payment is shown with its newest transaction, or has none. -/
def PaymentWithRelations.Attached (s : Service) (w : World) (merchantID : Int)
    (p : PaymentWithRelations) : Prop :=
  match p.transaction with
  | some tx => ∃ r, LatestOf w merchantID p.payment.id r ∧ s.entryToTransaction r = .ok tx
  | none => NoneOf w merchantID p.payment.id

theorem int32_eq {i : Int} (h : 0 < i) (h' : i < 2 ^ 31) : MerchantAPI.int32 i = i := by
  rw [MerchantAPI.int32]
  omega

theorem int32_lt (i : Int) : MerchantAPI.int32 i < 2 ^ 31 := by
  rw [MerchantAPI.int32]
  omega

/-- A payment of the page is asked for by its own id exactly if that fits. -/
theorem mem_int32_iff {ids : List Int} {id : Int} (hid : id ∈ ids) (hpositive : 0 < id) :
    id ∈ ids.map MerchantAPI.int32 ↔ id < 2 ^ 31 := by
  constructor
  · intro h
    obtain ⟨i, -, rfl⟩ := List.mem_map.mp h
    exact int32_lt i
  · intro h
    exact List.mem_map.mpr ⟨id, hid, int32_eq hpositive h⟩

section

variable {s : Service} {w : World} {merchantID : Int} {ids : List Int}

theorem mem_filter_iff {r : TransactionRow} :
    r ∈ w.transactions.rows.filter (fun r => r.merchantID = merchantID &&
        r.entityID.any (· ∈ ids) && decide (r.type ∈ [Transaction.Kind.incoming, .withdrawal])) ↔
      r ∈ w.transactions.rows ∧ ∃ id ∈ ids, Relevant merchantID id r := by
  rw [List.mem_filter]
  refine and_congr_right fun _ => ?_
  cases hentity : r.entityID with
  | none => simp [Relevant, hentity]
  | some e =>
    simp only [Bool.and_eq_true, decide_eq_true_eq, Option.any_some, List.mem_cons,
      List.not_mem_nil, or_false, Relevant, hentity, Option.some.injEq]
    constructor
    · rintro ⟨⟨hmerchant, he⟩, htype⟩
      exact ⟨e, he, hmerchant, rfl, htype⟩
    · rintro ⟨id, hid, hmerchant, rfl, htype⟩
      exact ⟨⟨hmerchant, hid⟩, htype⟩

/-- A loaded row is the newest of a payment asked for. -/
theorem latest_of_loaded {r : TransactionRow}
    (h : r ∈ w.eagerLoadTransactionsByPaymentID merchantID ids [.incoming, .withdrawal]) :
    ∃ id ∈ ids, r.entityID = some id ∧ LatestOf w merchantID id r := by
  obtain ⟨hrow, id, hid, hrelevant⟩ := mem_filter_iff.mp (mem_of_mem_distinctOn h)
  refine ⟨id, hid, hrelevant.2.1, hrow, hrelevant, ?_⟩
  intro r' hr' hrelevant'
  have hfound := mem_filter_iff.mpr ⟨hr', id, hid, hrelevant'⟩
  refine rank_le_of_distinctOn h hfound ?_
  rw [hrelevant.2.1, hrelevant'.2.1]

/-- Every payment asked for that has a transaction is loaded. -/
theorem exists_loaded {id : Int} (hid : id ∈ ids) {r : TransactionRow}
    (hr : r ∈ w.transactions.rows) (hrelevant : Relevant merchantID id r) :
    ∃ y ∈ w.eagerLoadTransactionsByPaymentID merchantID ids [.incoming, .withdrawal],
      y.entityID.getD 0 = id := by
  have hfound := mem_filter_iff.mpr ⟨hr, id, hid, hrelevant⟩
  obtain ⟨y, hy, hsame⟩ : ∃ y ∈ w.eagerLoadTransactionsByPaymentID merchantID ids
      [.incoming, .withdrawal], y.entityID.getD 0 = r.entityID.getD 0 := exists_distinctOn hfound
  refine ⟨y, hy, ?_⟩
  rw [hsame, hrelevant.2.1, Option.getD_some]

theorem entryToTransaction_entityID {row : TransactionRow} {tx : Transaction}
    (h : s.entryToTransaction row = .ok tx) : tx.entityID = row.entityID.getD 0 := by
  obtain ⟨currency, fee, -, -, rfl⟩ := s.entryToTransaction_eq_ok h
  rfl

/-- Every row that was loaded is read. -/
theorem exists_read {rows : List TransactionRow} {txs : List Transaction}
    (h : rows.mapM s.entryToTransaction = .ok txs) {r : TransactionRow} (hr : r ∈ rows) :
    ∃ tx ∈ txs, s.entryToTransaction r = .ok tx := by
  have hall := Service.forall₂_of_mapM h
  clear h
  induction hall with
  | nil => cases hr
  | cons hread _ ih =>
    rcases List.mem_cons.mp hr with rfl | hrest
    · exact ⟨_, List.mem_cons_self, hread⟩
    · obtain ⟨tx, htx, hsame⟩ := ih hrest
      exact ⟨tx, List.mem_cons_of_mem _ htx, hsame⟩

/-- What the join finds under an id is right exactly if the id was asked for, or has
nothing to find. -/
theorem attached_iff {txs : List Transaction}
    (htxs : (w.eagerLoadTransactionsByPaymentID merchantID ids [.incoming, .withdrawal]).mapM
      s.entryToTransaction = .ok txs) {p : PaymentWithRelations}
    (hp : p.transaction = keyed Transaction.entityID txs p.payment.id) :
    p.Attached s w merchantID ↔ p.payment.id ∈ ids ∨ NoneOf w merchantID p.payment.id := by
  rw [PaymentWithRelations.Attached, hp]
  cases hfound : keyed Transaction.entityID txs p.payment.id with
  | some tx =>
    obtain ⟨htx, hentity⟩ := keyed_eq_some hfound
    obtain ⟨r, hr, hread⟩ := Service.row_of_mapM htxs htx
    obtain ⟨id, hid, hrow, hlatest⟩ := latest_of_loaded hr
    have hsame : id = p.payment.id := by
      rw [← hentity, entryToTransaction_entityID hread, hrow, Option.getD_some]
    rw [hsame] at hid hlatest
    constructor
    · exact fun _ => .inl hid
    · exact fun _ => ⟨r, hlatest, hread⟩
  | none =>
    have hnothing := keyed_eq_none hfound
    constructor
    · exact .inr
    · rintro (hid | hnone)
      · intro r hr hrelevant
        obtain ⟨y, hy, hentity⟩ := exists_loaded hid hr hrelevant
        obtain ⟨tx, htx, hread⟩ := exists_read htxs hy
        exact hnothing tx htx (by rw [entryToTransaction_entityID hread, hentity])
      · exact hnone

end

section

variable {s : Service} {w : World} {others : OtherRelations} {merchantID : Int}

theorem exists_ok_of_bind {α β : Type} {x : Except Err α} {f : α → Except Err β} {b : β}
    (h : x >>= f = .ok b) : ∃ a, x = .ok a ∧ f a = .ok b := by
  cases x with
  | error e => cases h
  | ok a => exact ⟨a, rfl, h⟩

/-- What a page shows: the joined transactions under further relations. -/
theorem listWithRelations_eq_ok {payments : List PaymentRow} {cursor cursor' : String}
    {shown : List PaymentWithRelations}
    (h : s.listWithRelations w others merchantID (.ok (payments, cursor)) = .ok (shown, cursor')) :
    ∃ txs, (w.eagerLoadTransactionsByPaymentID merchantID
        ((payments.map PaymentRow.id).map MerchantAPI.int32) [.incoming, .withdrawal]).mapM
          s.entryToTransaction = .ok txs ∧
      ∃ f : PaymentRow → PaymentWithRelations, shown = payments.map f ∧
        ∀ p, (f p).payment = p ∧ (f p).transaction = keyed Transaction.entityID txs p.id := by
  obtain ⟨⟨ps, c⟩, hpage, hrest⟩ := exists_ok_of_bind h
  cases wrapErr_eq_ok.mp hpage
  obtain ⟨loaded, hloaded, hshown⟩ := exists_ok_of_bind hrest
  cases hshown
  obtain ⟨joined, hjoined, hothers⟩ := exists_ok_of_bind hloaded
  obtain ⟨customerOf, -, hbalances⟩ := exists_ok_of_bind hothers
  obtain ⟨balanceOf, -, hdone⟩ := exists_ok_of_bind hbalances
  cases hdone
  obtain ⟨txs, htxs, hjoin⟩ := exists_ok_of_bind (wrapErr_eq_ok.mp hjoined)
  cases hjoin
  have hids : (payments.map fun pt => (⟨pt, none, none, none⟩ : PaymentWithRelations)).map
      (fun p => p.payment.id) = payments.map PaymentRow.id := by
    rw [List.map_map]
    rfl
  rw [Service.eagerLoadByPaymentIDs, hids] at htxs
  refine ⟨txs, htxs, fun p => ⟨p, keyed Transaction.entityID txs p.id, customerOf p,
    balanceOf p⟩, ?_, fun p => ⟨rfl, rfl⟩⟩
  simp only [List.map_map]
  refine List.map_congr_left fun p _ => ?_
  simp only [Function.comp_apply]
  cases keyed Transaction.entityID txs p.id <;> rfl

/-- Each payment of the page is shown right exactly if no payment whose id needs more
than 31 bits has a transaction. -/
theorem page_attached_iff (s : Service) (w : World) (others : OtherRelations) (merchantID : Int)
    (payments : List PaymentRow) (cursor : String)
    (hids : ∀ p ∈ payments, 0 < p.id ∧ p.id < 2 ^ 63)
    (shown : List PaymentWithRelations) (cursor' : String)
    (hshown : s.listWithRelations w others merchantID (.ok (payments, cursor)) =
      .ok (shown, cursor')) :
    (shown.map PaymentWithRelations.payment = payments ∧
        ∀ p ∈ shown, p.Attached s w merchantID) ↔
      ∀ p ∈ payments, 2 ^ 31 ≤ p.id → NoneOf w merchantID p.id := by
  obtain ⟨txs, htxs, f, rfl, hf⟩ := listWithRelations_eq_ok hshown
  have hpayments : (payments.map f).map PaymentWithRelations.payment = payments := by
    rw [List.map_map]
    exact (List.map_congr_left fun p _ => (hf p).1).trans (List.map_id payments)
  have heach : ∀ p ∈ payments,
      ((f p).Attached s w merchantID ↔ (2 ^ 31 ≤ p.id → NoneOf w merchantID p.id)) := by
    intro p hp
    obtain ⟨hpayment, htransaction⟩ := hf p
    have hjoined : (f p).transaction = keyed Transaction.entityID txs (f p).payment.id := by
      rw [htransaction, hpayment]
    rw [attached_iff htxs hjoined, hpayment,
      mem_int32_iff (List.mem_map_of_mem hp) (hids p hp).1]
    constructor
    · rintro (hfits | hnone) hlarge
      · omega
      · exact hnone
    · intro h
      by_cases hfits : p.id < 2 ^ 31
      · exact .inl hfits
      · exact .inr (h (by omega))
  constructor
  · rintro ⟨-, hall⟩ p hp
    exact (heach p hp).mp (hall _ (List.mem_map_of_mem hp))
  · intro h
    refine ⟨hpayments, ?_⟩
    intro q hq
    obtain ⟨p, hp, rfl⟩ := List.mem_map.mp hq
    exact (heach p hp).mpr (h p hp)

end

namespace SmallPage

/-- Payment `id` of the sample merchant. -/
def order (id : Int) : PaymentRow := { Sample.purchase .pending with id := id }

/-- Transactions `1, 2, …` of these payments. -/
def store (ids : List Int) : World :=
  { Sample.noMoney with
    transactions := (ids.zipIdx 1).foldl (fun t (entity, id) => t.insert
      { Sample.invoice .pending none none none with id := id, entityID := some entity })
        KeyedTables.Table.empty }

def nothingElse : OtherRelations := ⟨.ok fun _ => none, .ok fun _ => none⟩

def page (entities ids : List Int) : Except Err (List PaymentWithRelations × String) :=
  Sample.service.listWithRelations (store entities) nothingElse 7 (.ok (ids.map order, ""))

def shown : List PaymentWithRelations := ((page [3, 4, 3] [3, 4, 5]).toOption.getD ([], "")).1

end SmallPage

open SmallPage

/-- Payment 3 was tried twice, payment 5 not at all. -/
theorem page_attached_sample :
    (shown.map fun p => p.transaction.map Transaction.id) = [some 3, some 2, none] ∧
      ((shown.map PaymentWithRelations.payment = [order 3, order 4, order 5] ∧
          ∀ p ∈ shown, p.Attached Sample.service (store [3, 4, 3]) 7) ↔
        ∀ p ∈ [order 3, order 4, order 5], 2 ^ 31 ≤ p.id → NoneOf (store [3, 4, 3]) 7 p.id) :=
  ⟨by decide +kernel, page_attached_iff Sample.service (store [3, 4, 3]) nothingElse 7
    [order 3, order 4, order 5] "" (by decide) shown "" (by decide +kernel)⟩

/-- Payment 2147483648 has a transaction and is shown without one. -/
theorem wide_id_shown_bare : ¬ ∀ (s : Service) (w : World) (others : OtherRelations)
    (merchantID : Int) (payments : List PaymentRow) (cursor : String)
    (shown : List PaymentWithRelations) (cursor' : String),
    (∀ p ∈ payments, 0 < p.id ∧ p.id < 2 ^ 63) →
    s.listWithRelations w others merchantID (.ok (payments, cursor)) = .ok (shown, cursor') →
      ∀ p ∈ shown, p.Attached s w merchantID := by
  intro h
  have hattached := h Sample.service (store [2 ^ 31]) nothingElse 7
    [order (2 ^ 31)] "" [⟨order (2 ^ 31), none, none, none⟩] "" (by decide) (by decide +kernel)
    ⟨order (2 ^ 31), none, none, none⟩ List.mem_cons_self
  refine hattached { Sample.invoice .pending none none none with entityID := some (2 ^ 31) }
    ?_ ⟨rfl, rfl, .inl rfl⟩
  exact List.mem_cons_self

end CryptoLink
