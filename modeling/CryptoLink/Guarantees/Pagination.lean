import CryptoLink.Guarantees.AddressFormats
import CryptoLink.Library.Paging
import CryptoLink.Merchants.Services

/-!
# Pages of payments and customers

A page is read with one entry more than it shows. The entry too many is named by
the cursor, and the next page is read from it on, itself included.
-/

namespace CryptoLink

namespace MerchantAPI

open KeyedTables Paging RankedListings ReadCommitted StatementPrograms

section Order

variable {ρ : Type} {key : ρ → Int} {q : ρ → Bool} {rows : List ρ}

/-- The selected rows by id, ascending or descending. -/
def inOrder (reverse : Bool) (key : ρ → Int) (rows : List ρ) : List ρ :=
  if reverse then ranked key rows else (ranked key rows).reverse

/-- From an id on, in the order asked for. -/
def fromID (reverse : Bool) (id : Int) (key : ρ → Int) (r : ρ) : Bool :=
  if reverse then key r ≤ id else id ≤ key r

def follows (reverse : Bool) (key : ρ → Int) (r r' : ρ) : Prop :=
  if reverse then key r' < key r else key r < key r'

theorem inOrder_perm (reverse : Bool) : (inOrder reverse key rows).Perm rows := by
  cases reverse with
  | false => exact (List.reverse_perm _).trans (ranked_perm key rows)
  | true => exact ranked_perm key rows

theorem length_inOrder_lt (reverse : Bool) :
    (inOrder reverse key (rows.filter q)).length < rows.length + 1 := by
  have hperm : (inOrder reverse key (rows.filter q)).Perm (rows.filter q) := inOrder_perm reverse
  have hlength := hperm.length_eq
  have hfilter := List.length_filter_le q rows
  omega

theorem pairwise_inOrder (reverse : Bool) (h : (rows.map key).Nodup) :
    (inOrder reverse key rows).Pairwise (follows reverse key) := by
  cases reverse with
  | false => exact List.pairwise_reverse.mpr (strict_ranked h)
  | true => exact strict_ranked h

theorem inOrder_filter (reverse : Bool) (p : ρ → Bool) (h : (rows.map key).Nodup) :
    inOrder reverse key (rows.filter p) = (inOrder reverse key rows).filter p := by
  cases reverse with
  | false =>
    calc (ranked key (rows.filter p)).reverse = ((ranked key rows).filter p).reverse := by
          rw [ranked_filter p h]
      _ = (ranked key rows).reverse.filter p := List.filter_reverse.symm
  | true => exact ranked_filter p h

/-- The rows from an entry of the listing on are the rest of the listing. -/
theorem inOrder_from {reverse : Bool} (h : (rows.map key).Nodup) {before after : List ρ} {x : ρ}
    (hsplit : inOrder reverse key (rows.filter q) = before ++ x :: after) :
    inOrder reverse key (rows.filter fun r => q r && fromID reverse (key x) key r) =
      x :: after := by
  have hselected : ((rows.filter q).map key).Nodup := h.sublist (List.filter_sublist.map key)
  have hpairs := pairwise_inOrder reverse hselected
  rw [hsplit] at hpairs
  obtain ⟨-, hrest, hcross⟩ := List.pairwise_append.mp hpairs
  have hafter := (List.pairwise_cons.mp hrest).1
  calc inOrder reverse key (rows.filter fun r => q r && fromID reverse (key x) key r)
      = inOrder reverse key ((rows.filter q).filter (fromID reverse (key x) key)) := by
        rw [List.filter_filter]
        congr 2
        funext r
        exact Bool.and_comm _ _
    _ = (inOrder reverse key (rows.filter q)).filter (fromID reverse (key x) key) :=
        inOrder_filter reverse _ hselected
    _ = (before ++ x :: after).filter (fromID reverse (key x) key) := by rw [hsplit]
    _ = x :: after := by
        cases reverse with
        | false =>
          refine filter_from ?_ (by simp [fromID]) ?_
          · intro y hy
            have hlt : key y < key x := hcross y hy x List.mem_cons_self
            simp only [fromID, Bool.false_eq_true, if_false, decide_eq_false_iff_not]
            omega
          · intro y hy
            have hlt : key x < key y := hafter y hy
            simp only [fromID, Bool.false_eq_true, if_false, decide_eq_true_eq]
            omega
        | true =>
          refine filter_from ?_ (by simp [fromID]) ?_
          · intro y hy
            have hlt : key x < key y := hcross y hy x List.mem_cons_self
            simp only [fromID, if_true, decide_eq_false_iff_not]
            omega
          · intro y hy
            have hlt : key y < key x := hafter y hy
            simp only [fromID, if_true, decide_eq_true_eq]
            omega

/-- The id a listing starts with when no cursor is given. -/
def startID (reverse : Bool) : Int := if reverse then maxInt64 else 0

theorem inOrder_start {reverse : Bool} (h : ∀ r ∈ rows, 0 ≤ key r ∧ key r ≤ maxInt64) :
    inOrder reverse key (rows.filter fun r => q r && fromID reverse (startID reverse) key r) =
      inOrder reverse key (rows.filter q) := by
  congr 1
  refine List.filter_congr fun r hr => ?_
  obtain ⟨hlow, hhigh⟩ := h r hr
  cases reverse with
  | false => simp [fromID, startID, hlow]
  | true => simp [fromID, startID, hhigh]

theorem nextCursor_take (name : ρ → String) (limit : ℕ) (xs : List ρ) :
    nextCursor name limit (xs.take (limit + 1)) = cursorAfter name limit xs := by
  by_cases hlast : xs.length ≤ limit
  · have hshort : ¬ limit < (xs.take (limit + 1)).length := by
      rw [List.length_take]
      omega
    rw [nextCursor, if_neg hshort, cursorAfter_last hlast]
  · have hlong : limit < (xs.take (limit + 1)).length := by
      rw [List.length_take]
      omega
    cases hdrop : xs.drop limit with
    | nil =>
      have := List.drop_eq_nil_iff.mp hdrop
      omega
    | cons x after =>
      have htake : xs.take (limit + 1) = xs.take limit ++ [x] := by
        have hx : xs[limit]? = some x := by
          rw [← List.head?_drop, hdrop]
          rfl
        rw [List.take_add_one, hx]
        rfl
      rw [nextCursor, if_pos hlong, cursorAfter_of_drop hdrop, htake, List.getLast?_append]
      rfl

end Order

/-- Ids come from a sequence, order UUIDs are a unique column, a stored UUID is
read back as it is written, and every row is a payment. -/
structure Server.HoldsPayments (s : Server) (w : World) : Prop where
  ids : ∀ p ∈ w.payments.rows, 0 ≤ p.id ∧ p.id ≤ maxInt64
  unique : ∀ p ∈ w.payments.rows, ∀ p' ∈ w.payments.rows, p.merchantID = p'.merchantID →
    p.merchantOrderUUID = p'.merchantOrderUUID → p = p'
  uuids : ∀ p ∈ w.payments.rows, p.merchantOrderUUID ≠ "" ∧
    s.parseUUID p.merchantOrderUUID = some p.merchantOrderUUID
  readable : ∀ p ∈ w.payments.rows, readPayment p = .ok p

structure Server.HoldsCustomers (s : Server) (w : World) : Prop where
  ids : ∀ c ∈ w.customers.rows, 0 ≤ c.id ∧ c.id ≤ maxInt64
  unique : ∀ c ∈ w.customers.rows, ∀ c' ∈ w.customers.rows, c.uuid = c'.uuid → c = c'
  uuids : ∀ c ∈ w.customers.rows, c.uuid ≠ "" ∧ s.parseUUID c.uuid = some c.uuid

theorem readPayments_eq {ps : List PaymentEntry} (h : ∀ p ∈ ps, readPayment p = .ok p) :
    readPayments ps = .ok ps := by
  have hall : ps.mapM readPayment = .ok ps := by
    induction ps with
    | nil => rfl
    | cons p ps ih =>
      rw [List.mapM_cons, h p List.mem_cons_self, ih fun y hy => h y (List.mem_cons_of_mem p hy)]
      rfl
  rw [readPayments, hall]
  rfl

theorem mem_rows_of_inOrder {ρ : Type} {key : ρ → Int} {q : ρ → Bool} {rows : List ρ}
    {reverse : Bool} {r : ρ} (h : r ∈ inOrder reverse key (rows.filter q)) : r ∈ rows :=
  List.mem_of_mem_filter ((inOrder_perm reverse).mem_iff.mp h)

section Alone

variable {w : World} {envs : ℕ → Env}

variable (hdone : ∀ n, (envs n).fate = .done)

include hdone

variable {s : Server} {m : Int} {limit : ℕ} {reverse : Bool} {types : List Payment.Kind}

theorem list_shows (hw : s.HoldsPayments w) (hlow : 1 ≤ limit) (hhigh : limit ≤ limitMax)
    {c : String} (cursor : Option PaymentEntry) {xs : List PaymentEntry}
    (hcursor : ∀ n, ∃ n', engine.alone envs (s.cursorPayment m c) n ⟨w, .idle⟩ =
      (.ok cursor, n', ⟨w, .idle⟩))
    (hxs : inOrder reverse (fun p : PaymentEntry => p.id) (w.payments.rows.filter fun p =>
      World.isListed types m p &&
        fromID reverse ((cursor.map fun p => p.id).getD (startID reverse)) (fun p => p.id) p) =
      xs) :
    Shows engine envs ⟨w, .idle⟩ PaymentEntry.merchantOrderUUID limit
      (fun c => s.list m ⟨limit, c, reverse, types⟩) c xs := by
  intro n
  obtain ⟨n', hrun⟩ := hcursor n
  have hread : readPayments (xs.take (limit + 1)) = .ok (xs.take (limit + 1)) := by
    refine readPayments_eq fun p hp => hw.readable p ?_
    exact mem_rows_of_inOrder (hxs ▸ List.mem_of_mem_take hp)
  have hpage : (xs.take (limit + 1)).take limit = xs.take limit := by
    rw [List.take_take]
    congr 1
    omega
  obtain ⟨k, rfl⟩ : ∃ k, limit = k + 1 := ⟨limit - 1, by omega⟩
  refine ⟨n' + 1, ?_⟩
  cases reverse with
  | false =>
    have hlist : s.list m ⟨k + 1, c, false, types⟩ = (s.cursorPayment m c).bind fun cursor =>
        (query (.paginatePaymentsAsc m ((cursor.map fun p => p.id).getD 0) (k + 1 + 1) types)).bind
        fun results => (succeed (wrapErr "unable to paginate payments" results)).bind fun entries =>
        (succeed (wrapErr "unable to map payments" (readPayments entries))).bind fun payments =>
        .ret (payments.take (k + 1), nextCursor PaymentEntry.merchantOrderUUID (k + 1) payments) :=
      if_neg (not_lt.mpr hhigh)
    have hanswer : w.paginatePaymentsAsc m ((cursor.map fun p => p.id).getD 0) (k + 1 + 1) types =
        xs.take (k + 1 + 1) := congrArg (List.take (k + 1 + 1)) hxs
    simp only [hlist, Engine.alone_bind, hrun]
    rw [alone_read envs (by rfl)]
    simp only [World.answer, answered_done (hdone _), hanswer, wrapErr_ok, succeed,
      Engine.alone_ofExcept, hread, Engine.alone_ret, hpage, nextCursor_take]
  | true =>
    have hlist : s.list m ⟨k + 1, c, true, types⟩ = (s.cursorPayment m c).bind fun cursor =>
        (query (.paginatePaymentsDesc m ((cursor.map fun p => p.id).getD maxInt64) (k + 1 + 1)
          types)).bind
        fun results => (succeed (wrapErr "unable to paginate payments" results)).bind fun entries =>
        (succeed (wrapErr "unable to map payments" (readPayments entries))).bind fun payments =>
        .ret (payments.take (k + 1), nextCursor PaymentEntry.merchantOrderUUID (k + 1) payments) :=
      if_neg (not_lt.mpr hhigh)
    have hanswer : w.paginatePaymentsDesc m ((cursor.map fun p => p.id).getD maxInt64) (k + 1 + 1)
        types = xs.take (k + 1 + 1) := congrArg (List.take (k + 1 + 1)) hxs
    simp only [hlist, Engine.alone_bind, hrun]
    rw [alone_read envs (by rfl)]
    simp only [World.answer, answered_done (hdone _), hanswer, wrapErr_ok, succeed,
      Engine.alone_ofExcept, hread, Engine.alone_ret, hpage, nextCursor_take]

theorem listCustomers_shows (hlow : 1 ≤ limit) (hhigh : limit ≤ limitMax)
    {c : String} (cursor : Option Customer) {xs : List Customer}
    (hcursor : ∀ n, ∃ n', engine.alone envs (s.cursorCustomer m c) n ⟨w, .idle⟩ =
      (.ok cursor, n', ⟨w, .idle⟩))
    (hxs : inOrder reverse Customer.id (w.customers.rows.filter fun r =>
      decide (r.merchantID = m) &&
        fromID reverse ((cursor.map Customer.id).getD (startID reverse)) Customer.id r) = xs) :
    Shows engine envs ⟨w, .idle⟩ Customer.uuid limit
      (fun c => s.listCustomers m ⟨limit, c, reverse, types⟩) c xs := by
  intro n
  obtain ⟨n', hrun⟩ := hcursor n
  have hpage : (xs.take (limit + 1)).take limit = xs.take limit := by
    rw [List.take_take]
    congr 1
    omega
  obtain ⟨k, rfl⟩ : ∃ k, limit = k + 1 := ⟨limit - 1, by omega⟩
  refine ⟨n' + 1, ?_⟩
  cases reverse with
  | false =>
    have hlist : s.listCustomers m ⟨k + 1, c, false, types⟩ =
        (s.cursorCustomer m c).bind fun cursor =>
        (query (.paginateCustomersAsc m ((cursor.map Customer.id).getD 0) (k + 1 + 1))).bind
        fun results => (succeed (wrapErr "unable to paginate customers" results)).bind
        fun customers =>
        .ret (customers.take (k + 1), nextCursor Customer.uuid (k + 1) customers) :=
      if_neg (not_lt.mpr hhigh)
    have hanswer : w.paginateCustomersAsc m ((cursor.map Customer.id).getD 0) (k + 1 + 1) =
        xs.take (k + 1 + 1) := congrArg (List.take (k + 1 + 1)) hxs
    simp only [hlist, Engine.alone_bind, hrun]
    rw [alone_read envs (by rfl)]
    simp only [World.answer, answered_done (hdone _), hanswer, wrapErr_ok, succeed,
      Engine.alone_ofExcept, Engine.alone_ret, hpage, nextCursor_take]
  | true =>
    have hlist : s.listCustomers m ⟨k + 1, c, true, types⟩ =
        (s.cursorCustomer m c).bind fun cursor =>
        (query (.paginateCustomersDesc m ((cursor.map Customer.id).getD maxInt64)
          (k + 1 + 1))).bind
        fun results => (succeed (wrapErr "unable to paginate customers" results)).bind
        fun customers =>
        .ret (customers.take (k + 1), nextCursor Customer.uuid (k + 1) customers) :=
      if_neg (not_lt.mpr hhigh)
    have hanswer : w.paginateCustomersDesc m ((cursor.map Customer.id).getD maxInt64)
        (k + 1 + 1) = xs.take (k + 1 + 1) := congrArg (List.take (k + 1 + 1)) hxs
    simp only [hlist, Engine.alone_bind, hrun]
    rw [alone_read envs (by rfl)]
    simp only [World.answer, answered_done (hdone _), hanswer, wrapErr_ok, succeed,
      Engine.alone_ofExcept, Engine.alone_ret, hpage, nextCursor_take]

theorem alone_cursorPayment (hw : s.HoldsPayments w) {p : PaymentEntry}
    (hp : p ∈ w.payments.rows) (hm : p.merchantID = m) (n : ℕ) :
    engine.alone envs (s.cursorPayment m p.merchantOrderUUID) n ⟨w, .idle⟩ =
      (.ok (some p), n + 1, ⟨w, .idle⟩) := by
  obtain ⟨hname, hparse⟩ := hw.uuids p hp
  have hfound : w.getPaymentByMerchantIDAndOrderUUID m p.merchantOrderUUID = some p := by
    cases hfind : w.getPaymentByMerchantIDAndOrderUUID m p.merchantOrderUUID with
    | none =>
      have hnone := List.find?_eq_none.mp hfind p hp
      simp [hm] at hnone
    | some p' =>
      have hsame := List.find?_some hfind
      simp only [Bool.and_eq_true, decide_eq_true_eq] at hsame
      have := hw.unique p' (List.mem_of_find?_eq_some hfind) p hp (hsame.1.trans hm.symm) hsame.2
      rw [this]
  have hrun : engine.alone envs (getByMerchantOrderID m p.merchantOrderUUID) n ⟨w, .idle⟩ =
      (.ok p, n + 1, ⟨w, .idle⟩) := by
    simp only [getByMerchantOrderID, Prog.bind_eq, Engine.alone_bind]
    rw [alone_read envs (by rfl)]
    simp only [World.answer, answered_done (hdone _), hfound, noRows, orNotFound, succeed,
      Engine.alone_ofExcept, Except.bind, hw.readable p hp]
  simp only [Server.cursorPayment, if_neg hname, hparse, Prog.bind_eq, Engine.alone_bind,
    Engine.alone_mapError, hrun, Except.mapError, Prog.pure_eq, Engine.alone_ret]

theorem alone_cursorCustomer (hw : s.HoldsCustomers w) {r : Customer}
    (hr : r ∈ w.customers.rows) (hm : r.merchantID = m) (n : ℕ) :
    engine.alone envs (s.cursorCustomer m r.uuid) n ⟨w, .idle⟩ =
      (.ok (some r), n + 1, ⟨w, .idle⟩) := by
  obtain ⟨hname, hparse⟩ := hw.uuids r hr
  have hfound : w.getCustomerByUUID m r.uuid = some r := by
    cases hfind : w.getCustomerByUUID m r.uuid with
    | none =>
      have hnone := List.find?_eq_none.mp hfind r hr
      simp [hm] at hnone
    | some r' =>
      have hsame := List.find?_some hfind
      simp only [Bool.and_eq_true, decide_eq_true_eq] at hsame
      have := hw.unique r' (List.mem_of_find?_eq_some hfind) r hr hsame.1
      rw [this]
  have hrun : engine.alone envs (getCustomerByUUID m r.uuid) n ⟨w, .idle⟩ =
      (.ok r, n + 1, ⟨w, .idle⟩) := by
    simp only [getCustomerByUUID, Prog.bind_eq, Engine.alone_bind]
    rw [alone_read envs (by rfl)]
    simp only [World.answer, answered_done (hdone _), hfound, noRows, orNotFound, succeed,
      Engine.alone_ofExcept]
  simp only [Server.cursorCustomer, if_neg hname, hparse, Prog.bind_eq, Engine.alone_bind,
    Engine.alone_mapError, hrun, Except.mapError, Prog.pure_eq, Engine.alone_ret]

end Alone

namespace Server

variable (s : Server) (m : Int) (limit : ℕ) (reverse : Bool) (types : List Payment.Kind)

/-- A merchant's payments page by page; so many pages at most. -/
def paymentPages (count : ℕ) : TenantCall (List (List PaymentEntry)) :=
  everyPage (fun c => s.list m ⟨limit, c, reverse, types⟩) (Err.new "more pages") count ""

def customerPages (count : ℕ) : TenantCall (List (List Customer)) :=
  everyPage (fun c => s.listCustomers m ⟨limit, c, reverse, types⟩) (Err.new "more pages") count ""

end Server

section Whole

variable {ρ : Type} {key : ρ → Int} {q : ρ → Bool} {rows : List ρ}

/-- What the pages of a listing show. -/
theorem pages_inOrder {limit : ℕ} (hlow : 1 ≤ limit) (reverse : Bool) (h : (rows.map key).Nodup) :
    let shown := pages limit (rows.length + 1) (inOrder reverse key (rows.filter q))
    shown.flatten.Perm (rows.filter q) ∧ shown.flatten.Pairwise (follows reverse key) ∧
      ∀ page ∈ shown, page.length ≤ limit := by
  intro shown
  have hfuel : (inOrder reverse key (rows.filter q)).length < rows.length + 1 :=
    length_inOrder_lt reverse
  have hall : shown.flatten = inOrder reverse key (rows.filter q) := flatten_pages hlow _ _ hfuel
  rw [hall]
  exact ⟨inOrder_perm reverse,
    pairwise_inOrder reverse (h.sublist (List.filter_sublist.map key)), length_page_le _ _ _⟩

end Whole

/-- Asking page by page ends; the pages are of the limit's length at most and
show, in the order of ids asked for, each matching row of the merchant once. -/
theorem pages_are_exact (s : Server) (w : World) (hpayments : s.HoldsPayments w)
    (hcustomers : s.HoldsCustomers w) (envs : ℕ → Env) (hdone : ∀ n, (envs n).fate = .done)
    (m : Int) (limit : ℕ) (hlow : 1 ≤ limit) (hhigh : limit ≤ 100) (reverse : Bool)
    (types : List Payment.Kind) :
    (∃ pages n, engine.alone envs
        (s.paymentPages m limit reverse types (w.payments.rows.length + 1)) 0 ⟨w, .idle⟩ =
          (.ok pages, n, ⟨w, .idle⟩) ∧
      pages.flatten.Perm (w.payments.rows.filter fun p =>
        decide (p.merchantID = m) && (types.isEmpty || decide (p.type ∈ types))) ∧
      pages.flatten.Pairwise (follows reverse fun p => p.id) ∧
      ∀ page ∈ pages, page.length ≤ limit) ∧
    (∃ pages n, engine.alone envs
        (s.customerPages m limit reverse types (w.customers.rows.length + 1)) 0 ⟨w, .idle⟩ =
          (.ok pages, n, ⟨w, .idle⟩) ∧
      pages.flatten.Perm (w.customers.rows.filter fun c => decide (c.merchantID = m)) ∧
      pages.flatten.Pairwise (follows reverse Customer.id) ∧
      ∀ page ∈ pages, page.length ≤ limit) := by
  constructor
  · have hnodup := w.payments.nodup
    have hfirst : Shows engine envs ⟨w, .idle⟩ PaymentEntry.merchantOrderUUID limit
        (fun c => s.list m ⟨limit, c, reverse, types⟩) ""
        (inOrder reverse (fun p => p.id) (w.payments.rows.filter (World.isListed types m))) :=
      list_shows hdone hpayments hlow hhigh none (fun n => ⟨n, rfl⟩) (inOrder_start hpayments.ids)
    obtain ⟨n, hrun⟩ := alone_everyPage hlow (w.payments.rows.length + 1)
      (length_inOrder_lt reverse) (fun p hp => (hpayments.uuids p (mem_rows_of_inOrder hp)).1)
      hfirst (by
        intro before p after hsplit
        have hp := List.mem_append_right before (List.mem_cons_self (a := p) (l := after))
        rw [← hsplit] at hp
        have hlisted := List.of_mem_filter ((inOrder_perm reverse).mem_iff.mp hp)
        have hm : p.merchantID = m := by
          simp only [World.isListed, Bool.and_eq_true, decide_eq_true_eq] at hlisted
          exact hlisted.1
        have hcursor := alone_cursorPayment hdone hpayments (mem_rows_of_inOrder hp) hm
        exact list_shows hdone hpayments hlow hhigh (some p) (fun n => ⟨n + 1, hcursor n⟩)
          (inOrder_from hnodup hsplit)) 0
    exact ⟨_, n, hrun, pages_inOrder hlow reverse hnodup⟩
  · have hnodup := w.customers.nodup
    have hfirst : Shows engine envs ⟨w, .idle⟩ Customer.uuid limit
        (fun c => s.listCustomers m ⟨limit, c, reverse, types⟩) ""
        (inOrder reverse Customer.id (w.customers.rows.filter fun c => c.merchantID = m)) :=
      listCustomers_shows hdone hlow hhigh none (fun n => ⟨n, rfl⟩) (inOrder_start hcustomers.ids)
    obtain ⟨n, hrun⟩ := alone_everyPage hlow (w.customers.rows.length + 1)
      (length_inOrder_lt reverse) (fun c hc => (hcustomers.uuids c (mem_rows_of_inOrder hc)).1)
      hfirst (by
        intro before c after hsplit
        have hc := List.mem_append_right before (List.mem_cons_self (a := c) (l := after))
        rw [← hsplit] at hc
        have hlisted := List.of_mem_filter ((inOrder_perm reverse).mem_iff.mp hc)
        have hm : c.merchantID = m := of_decide_eq_true hlisted
        have hcursor := alone_cursorCustomer hdone hcustomers (mem_rows_of_inOrder hc) hm
        exact listCustomers_shows hdone hlow hhigh (some c) (fun n => ⟨n + 1, hcursor n⟩)
          (inOrder_from hnodup hsplit)) 0
    exact ⟨_, n, hrun, pages_inOrder hlow reverse hnodup⟩

namespace ThreePayments

def order (id merchantID : Int) (type : Payment.Kind) (orderUUID currency : String) :
    PaymentEntry where
  id := id
  createdAt := 0
  updatedAt := 0
  type := type
  status := .pending
  merchantID := merchantID
  expiresAt := none
  originalExpiresAt := none
  price := 1000
  decimals := 2
  currency := currency
  customerID := none
  isTest := false
  metadata := none
  publicID := orderUUID
  merchantOrderUUID := orderUUID
  merchantOrderID := none
  description := none
  redirectURL := ""

def rows : List PaymentEntry :=
  [order 3 1 .payment "0b1c5ad6-74f0-4b14-9bbb-2a0c3f9be1a1" "USD",
    order 5 1 .withdrawal "1d0a2a52-02d1-4f43-8f4c-5a9c4c7d9a02" "ETH",
    order 6 2 .payment "2e6b7a88-6d35-4c3e-a7a5-86f0e2f1b903" "EUR",
    order 8 1 .payment "3f2d9c10-58a4-4e91-b0a1-1f3a7a6c0d04" "USD"]

def world : World := { World.empty with payments := ⟨rows, by decide +kernel⟩ }

def server : Server :=
  { AccountKey.libraries with
    parseUUID := fun text => if text.length = 36 then some text else none
    isUUID := fun text => text.length = 36
    parseRequestURI := fun _ => true
    validURL := fun _ => true
    toUpper := id
    toLower := id
    chains := fun _ => none
    tickers := []
    limitsEnforced := false
    adminMerchantID := 0 }

theorem holdsPayments : server.HoldsPayments world where
  ids := by decide +kernel
  unique := by decide +kernel
  uuids := by decide +kernel
  readable := by decide +kernel

theorem holdsCustomers : server.HoldsCustomers world where
  ids := by decide
  unique := by decide
  uuids := by decide

/-- One to a page, newest first, two payments are shown. -/
theorem pages_shown :
    ∃ pages n, engine.alone (fun _ => {}) (server.paymentPages 1 1 true [.payment] 5) 0
        ⟨world, .idle⟩ = (.ok pages, n, ⟨world, .idle⟩) ∧
      pages.flatten.length = 2 ∧ ∀ page ∈ pages, page.length ≤ 1 := by
  obtain ⟨⟨pages, n, hrun, hshown, -, hpages⟩, -⟩ :=
    pages_are_exact server world holdsPayments holdsCustomers (fun _ => {}) (fun _ => rfl) 1 1
      (by omega) (by omega) true [.payment]
  refine ⟨pages, n, hrun, ?_, hpages⟩
  rw [hshown.length_eq]
  decide +kernel

end ThreePayments

end MerchantAPI

end CryptoLink
