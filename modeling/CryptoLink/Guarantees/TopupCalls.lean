import CryptoLink.Library.Makers
import CryptoLink.Calls
import CryptoLink.Guarantees.Gains
import CryptoLink.Guarantees.SystemTotals
import CryptoLink.Repository.Replies

/-!
# The calls of a topup

Every statement of a topup is on its own, on the pool. It updates no payment and
no transaction but those it has created itself, and what it credits is taken
from the reserve: from what the wallets hold beyond what the merchants are owed.
-/

namespace CryptoLink

open KeyedTables ReadCommitted StatementPrograms System

structure TopupCall where
  merchantID : Int
  input : TopupInput

/-- Topups side by side. -/
def Service.topupSystem (s : Service) :
    System Stmt Reply Env World LockKey Err TopupCall Move where
  engine := engine
  program l := discard (s.topupMerchantFromSystem l.merchantID l.input)
  move := Move.apply

/-- What a balance counts for: a wallet's for the operator, a merchant's
against. -/
def BalanceKey.sign (k : BalanceKey) : Int :=
  match k.entityType with
  | .wallet => 1
  | .merchant => -1
  | _ => 0

def BalanceRow.share (place : String × String × String) (r : BalanceRow) : Int :=
  if r.key.place = place then r.key.sign * r.amount else 0

/-- Wallets minus merchants. -/
def World.reserve (w : World) (place : String × String × String) : Int :=
  (w.balances.rows.map (BalanceRow.share place)).sum

/-- The balance that an entry of a log moves, and by how much. -/
def movement (e : Entry Stmt Env World) : Option (BalanceKey × Int) :=
  match e.stmt with
  | .createBalance p =>
      if e.env.fate ≠ .refused ∧ e.seen.balanceFits p = true then some (p.key, p.amount) else none
  | .updateBalanceByID p =>
      if e.env.fate ≠ .refused ∧ (e.seen.balanceTarget p).isSome = true then some (p.key, p.amount)
      else none
  | _ => none

/-- What is taken from the reserve is still there when it is taken. -/
def TakesCovered (e : Entry Stmt Env World) (w : World) : Prop :=
  ∀ m ∈ movement e, -(m.1.sign * m.2) ≤ w.reserve m.1.place

instance (e : Entry Stmt Env World) (w : World) : Decidable (TakesCovered e w) :=
  inferInstanceAs (Decidable (∀ m ∈ movement e, -(m.1.sign * m.2) ≤ w.reserve m.1.place))

theorem reserve_congr {w u : World} (h : u.balances = w.balances)
    (place : String × String × String) : u.reserve place = w.reserve place := by
  rw [World.reserve, World.reserve, h]

/-- A movement changes the reserve of its place only. -/
theorem reserve_effect (e : Entry Stmt Env World) (w : World) (place : String × String × String) :
    (engine.effect e.stmt e.env e.seen w).reserve place = w.reserve place ∨
      ∃ m ∈ movement e, m.1.place = place ∧
        (engine.effect e.stmt e.env e.seen w).reserve place =
          w.reserve place + m.1.sign * m.2 := by
  obtain ⟨st, env, seen⟩ := e
  by_cases hrefused : env.fate = .refused
  · left
    rw [engine_effect, if_pos hrefused]
  have heffect : engine.effect st env seen w = World.effect st env seen w := by
    rw [engine_effect, if_neg hrefused]
  by_cases hchanges : st.changes = some .balances
  swap
  · left
    apply reserve_congr
    show (engine.effect st env seen w).balances = w.balances
    rw [heffect]
    exact World.effect_balances hchanges
  rw [heffect]
  cases st <;> simp only [Stmt.changes, Option.some.injEq, reduceCtorEq] at hchanges
  case createBalance p =>
    by_cases hfit : seen.balanceFits p = true
    swap
    · left
      apply reserve_congr
      simp only [World.effect, hfit]
      rfl
    have hrows : (World.effect (.createBalance p) env seen w).balances =
        w.balances.insert (World.newBalance p) := by
      simp only [World.effect, hfit, if_true]
    cases hget : w.balances.get p.key with
    | some r =>
      left
      apply reserve_congr
      rw [hrows, Table.insert_of_taken (r := World.newBalance p) _ hget]
    | none =>
      have hsum : (World.effect (.createBalance p) env seen w).reserve place =
          w.reserve place + (World.newBalance p).share place := by
        rw [World.reserve, World.reserve, hrows]
        exact Table.sum_insert (r := World.newBalance p) _ _ hget
      by_cases hplace : p.key.place = place
      · right
        refine ⟨(p.key, p.amount), ?_, hplace, ?_⟩
        · simp only [movement, hrefused, hfit, ne_eq, not_false_eq_true, and_self, if_true]
          rfl
        · have hhere : (World.newBalance p).key.place = place := hplace
          rw [hsum, BalanceRow.share, if_pos hhere]
          rfl
      · left
        have helse : ¬ (World.newBalance p).key.place = place := hplace
        rw [hsum, BalanceRow.share, if_neg helse]
        omega
  case updateBalanceByID p =>
    cases htarget : seen.balanceTarget p with
    | none =>
      left
      apply reserve_congr
      simp only [World.effect, htarget]
    | some old =>
      have hrows : (World.effect (.updateBalanceByID p) env seen w).balances =
          w.balances.modify p.key (World.updatedBalance p) (World.updatedBalance_key p) := by
        simp only [World.effect, htarget]
      cases hget : w.balances.get p.key with
      | none =>
        left
        rw [World.reserve, World.reserve, hrows, Table.modify_of_missing _ _ _ hget]
      | some r =>
        obtain ⟨-, hkey⟩ := Table.get_eq_some hget
        have hsum : (World.effect (.updateBalanceByID p) env seen w).reserve place =
            w.reserve place + ((World.updatedBalance p r).share place - r.share place) := by
          rw [World.reserve, World.reserve, hrows]
          exact Table.sum_modify _ _ _ _ hget
        by_cases hplace : p.key.place = place
        · right
          refine ⟨(p.key, p.amount), ?_, hplace, ?_⟩
          · simp only [movement, hrefused, htarget, ne_eq, not_false_eq_true, Option.isSome_some,
              and_self, if_true]
            rfl
          · have hhere : r.key.place = place := by rw [hkey, hplace]
            rw [hsum, BalanceRow.share, BalanceRow.share, World.updatedBalance_key, if_pos hhere,
              if_pos hhere, hkey]
            show w.reserve place + (p.key.sign * (r.amount + p.amount) - p.key.sign * r.amount) =
              w.reserve place + p.key.sign * p.amount
            rw [Int.mul_add]
            omega
        · left
          have helse : ¬ r.key.place = place := by rw [hkey]; exact hplace
          rw [hsum, BalanceRow.share, BalanceRow.share, World.updatedBalance_key, if_neg helse,
            if_neg helse]
          omega

/-- The reserve of no place falls below zero. -/
def StaysCovered (w u : World) : Prop :=
  ∀ place, 0 ≤ w.reserve place → 0 ≤ u.reserve place

theorem staysCovered_of_balances {w u : World} (h : u.balances = w.balances) :
    StaysCovered w u := by
  intro place hpos
  rw [reserve_congr h]
  exact hpos

theorem coveredKeeper (s : Service) :
    Keeper s.topupSystem (fun _ => True) TakesCovered StaysCovered where
  refl _ _ h := h
  trans hfirst hthen place h := hthen place (hfirst place h)
  program _ := Issues.always fun _ _ _ _ => trivial
  effect e w _ hok place hpos := by
    show 0 ≤ (engine.effect e.stmt e.env e.seen w).reserve place
    rcases reserve_effect e w place with hsame | ⟨m, hm, rfl, hmoved⟩
    · rw [hsame]
      exact hpos
    · have hcovered := hok m hm
      rw [hmoved]
      omega
  lasting st env w _ := staysCovered_of_balances (engine_lasting_balances st env w)
  move m w := staysCovered_of_balances (m.apply_balances w)

/-- Statements on the pool, and of those that change a table only the ones in
`Φ`. -/
def OnPool {α : Type} (Φ : Stmt → Prop) (p : Call α) : Prop :=
  Issues (fun c => ∃ st, c = .stmt .pool st ∧ (st.changes ≠ none → Φ st)) p

namespace OnPool

variable {α β : Type} {Φ : Stmt → Prop}

theorem bind {p : Call α} {f : α → Call β} (hp : OnPool Φ p) (hf : ∀ a, OnPool Φ (f a)) :
    OnPool Φ (p.bind f) :=
  Issues.bind hp hf

theorem checked (x : Except Err α) : OnPool Φ (succeed x) := Issues.ofExcept x

theorem mapError {p : Call α} (f : Err → Err) (hp : OnPool Φ p) : OnPool Φ (p.mapError f) :=
  Issues.mapError f hp

theorem attempt {p : Call α} (hp : OnPool Φ p) : OnPool Φ p.attempt := Issues.attempt hp

theorem read {st : Stmt} (h : st.changes = none) : OnPool Φ (ask .pool st) :=
  (Issues.ask_iff _).mpr ⟨st, rfl, fun hne => absurd h hne⟩

theorem write {st : Stmt} (h : Φ st) : OnPool Φ (ask .pool st) :=
  (Issues.ask_iff _).mpr ⟨st, rfl, fun _ => h⟩

end OnPool

/-- What the confirmation of the transaction `t` writes: no balance under the
key of one that was never read. -/
def Confirms (t : Int) : Stmt → Prop
  | .updateTransaction p => p.id = t
  | .createBalance p => p.key ≠ noBalance
  | .updateBalanceByID _ => True
  | .insertBalanceAuditLog _ => True
  | _ => False

theorem UpdateBalanceQuery.create_key {p : UpdateBalanceQuery} (h : p.validate = .ok ())
    (now : Int) : (p.create now).key ≠ noBalance := by
  unfold UpdateBalanceQuery.validate at h
  split at h
  · cases h
  · rename_i hentity
    intro hkey
    exact hentity (.inr (congrArg BalanceKey.entityType hkey))

theorem updateBalance_onPool (t : Int) (p : UpdateBalanceQuery) :
    OnPool (Confirms t) (updateBalance .pool p) := by
  unfold updateBalance
  cases hvalid : p.validate with
  | error e => exact trivial
  | ok _ =>
  apply OnPool.bind (.read rfl)
  intro found
  apply OnPool.bind (.read rfl)
  intro now
  apply OnPool.bind
  · cases found with
    | ok b => exact .write trivial
    | error e =>
      simp only [upsertBalance]
      split
      · exact .write (UpdateBalanceQuery.create_key hvalid now)
      · exact .write trivial
  intro changed
  apply OnPool.bind (.checked _)
  intro balance
  apply OnPool.bind
  · apply OnPool.mapError
    apply OnPool.bind (.read rfl)
    intro now
    apply OnPool.bind (.write trivial)
    intro r
    exact .checked r
  · exact fun _ => trivial

theorem incrementRecipientBalance_onPool (t : Int) (tx : Transaction) (amount : Money)
    (comment : String) :
    OnPool (Confirms t) (Service.incrementRecipientBalance .pool tx amount comment) := by
  unfold Service.incrementRecipientBalance
  split
  · exact trivial
  · exact OnPool.bind (.mapError _ (updateBalance_onPool t _)) fun _ => trivial

theorem updateMerchantBalance_onPool (t : Int) (tx : Transaction) (amount : Money)
    (comment : String) (metaData : MetaData) :
    OnPool (Confirms t) (Service.updateMerchantBalance .pool tx amount comment metaData) :=
  OnPool.bind (.mapError _ (updateBalance_onPool t _)) fun _ => trivial

theorem decrementNetworkFee_onPool (s : Service) (t : Int) (tx : Transaction) (sender : Int)
    (fee : Money) (comment : String) (metaData : MetaData) :
    OnPool (Confirms t) (s.decrementNetworkFee .pool tx sender fee comment metaData) := by
  apply OnPool.bind (.checked _)
  intro currency
  exact OnPool.bind (.mapError _ (updateBalance_onPool t _)) fun _ => trivial

theorem updateBalances_onPool (s : Service) (t : Int) (tx : Transaction)
    (params : Service.ConfirmTransaction) :
    OnPool (Confirms t) (s.updateBalancesAfterTxConfirmation .pool tx params) := by
  unfold Service.updateBalancesAfterTxConfirmation
  split
  · exact trivial
  split
  · exact trivial
  split
  · exact trivial
  split
  · apply OnPool.bind (incrementRecipientBalance_onPool t tx _ _)
    intro _
    split
    · exact trivial
    split
    · exact trivial
    exact OnPool.bind (.checked _) fun _ => updateMerchantBalance_onPool t tx _ _ _
  · split
    · exact trivial
    · apply OnPool.bind (incrementRecipientBalance_onPool t tx _ _)
      intro _
      exact decrementNetworkFee_onPool s t tx _ _ _ _
  · split
    · exact trivial
    · exact decrementNetworkFee_onPool s t tx _ _ _ _
  · split
    · exact trivial
    · exact updateMerchantBalance_onPool t tx _ _ _

theorem confirmOn_onPool (s : Service) (m t : Int) (params : Service.ConfirmTransaction) :
    OnPool (Confirms t) (s.confirmOn .pool m t params) := by
  apply OnPool.bind
  · exact OnPool.bind (.read rfl) fun _ => .checked _
  intro tx
  split
  · exact trivial
  · apply OnPool.bind (.read rfl)
    intro now
    apply OnPool.bind
    · exact .write rfl
    intro entry
    apply OnPool.bind (.checked _)
    intro updated
    exact OnPool.bind (.mapError _ (updateBalances_onPool s t updated params)) fun _ => trivial

/-- What failing the payment `p` writes. -/
def FailsPayment (p : Int) : Stmt → Prop
  | .updatePayment q => q.id = p
  | _ => False

theorem failPayment_onPool (pt : Payment) :
    OnPool (FailsPayment pt.id) (Service.failPayment pt) := by
  apply OnPool.bind
  · apply OnPool.bind (.read rfl)
    intro now
    apply OnPool.bind
    · unfold Service.lockedUntil
      split
      · exact OnPool.bind (.read rfl) fun _ => trivial
      · exact trivial
    intro expiresAt
    apply OnPool.bind
    · exact .write rfl
    intro r
    apply OnPool.bind (.checked _)
    intro row
    split
    · apply OnPool.bind (.read rfl)
      intro published
      exact OnPool.bind (.checked _) fun _ => .checked _
    · exact .checked _
  · exact fun _ => trivial

theorem failedTopup_onPool (pt : Payment) (e : Err) :
    OnPool (FailsPayment pt.id) (Service.failedTopup pt e) := by
  apply OnPool.bind (.attempt (failPayment_onPool pt))
  intro failed
  split
  · exact trivial
  · exact trivial

theorem getMerchantBalance_onPool (Φ : Stmt → Prop) (merchantID : Int)
    (currency networkID : String) : OnPool Φ (getMerchantBalance merchantID currency networkID) :=
  OnPool.bind (.read rfl) fun _ => .checked _

theorem locateSystemBalance_onPool (Φ : Stmt → Prop) (currency : CryptoCurrency) (isTest : Bool) :
    OnPool Φ (Service.locateSystemBalance currency isTest) := by
  apply OnPool.bind
  · apply OnPool.bind (.read rfl)
    intro merchants
    apply OnPool.bind (.checked _)
    intro _
    apply OnPool.bind (.read rfl)
    intro wallets
    apply OnPool.bind (.checked _)
    intro _
    split
    · exact OnPool.bind (.checked _) fun _ => trivial
    · exact trivial
  · intro balances
    split
    · exact trivial
    · exact trivial

def touchesPayment (id : Int) : Cmd Stmt → Prop
  | .stmt _ (.updatePayment p) => p.id = id
  | .stmt _ (.extendPaymentExpiry p) => p.id = id
  | _ => False

def makesPayment (id : Int) : (c : Cmd Stmt) → Answer Reply c → Prop
  | .stmt .pool (.createPayment _), r => ∃ row : PaymentRow, r = .ok row ∧ row.id = id
  | _, _ => False

def touchesTransaction (id : Int) : Cmd Stmt → Prop
  | .stmt _ (.updateTransaction p) => p.id = id
  | .stmt _ (.cancelTransaction p) => p.id = id
  | _ => False

def makesTransaction (id : Int) : (c : Cmd Stmt) → Answer Reply c → Prop
  | .stmt .pool (.createTransaction _), r => ∃ row : TransactionRow, r = .ok row ∧ row.id = id
  | _, _ => False

theorem entryToPayment_eq_ok {row : PaymentRow} {pt : Payment} (h : entryToPayment row = .ok pt) :
    pt.id = row.id ∧ pt.merchantID = row.merchantID := by
  simp only [entryToPayment, bind, Except.bind] at h
  cases hprice : paymentPrice row (row.metadata.getD []) with
  | error e =>
    rw [hprice] at h
    cases h
  | ok price =>
    rw [hprice] at h
    cases h
    exact ⟨rfl, rfl⟩

section

variable {α β : Type} {touches : Cmd Stmt → Prop} {makes : (c : Cmd Stmt) → Answer Reply c → Prop}
  {made : Prop}

/-- A part of which nothing but its end is asked. -/
theorem quiet {Φ : Stmt → Prop} {p : Call α} (hp : OnPool Φ p)
    (h : ∀ st, (st.changes ≠ none → Φ st) → touches (.stmt .pool st) → made) :
    TouchesOwn touches makes (fun _ _ => True) p made := by
  apply TouchesOwn.mono _ (TouchesOwn.of_issues (Issues.mono _ hp))
  · exact fun _ _ _ => trivial
  · rintro c ⟨st, rfl, hst⟩ htouches
    exact h st hst htouches

theorem quiet_bind {p : Call α} {f : α → Call β} {Q : Except Err β → Prop → Prop}
    (hp : TouchesOwn touches makes (fun _ _ => True) p made)
    (hf : ∀ a made', TouchesOwn touches makes Q (f a) made') (he : ∀ e made', Q (.error e) made') :
    TouchesOwn touches makes Q (p.bind f) made :=
  TouchesOwn.bind hp (fun a made' _ => hf a made') fun e made' _ => he e made'

end

theorem read_touches {st : Stmt} (h : st.changes = none) (id : Int) (q : Conn) :
    ¬ touchesPayment id (.stmt q st) ∧ ¬ touchesTransaction id (.stmt q st) := by
  cases st <;> first
    | exact ⟨fun hfalse => hfalse, fun hfalse => hfalse⟩
    | cases h

/-- A part that only reads. -/
theorem reading {α : Type} {p : Call α} (hp : OnPool (fun _ => False) p) (id : Int) (made : Prop) :
    TouchesOwn (touchesPayment id) (makesPayment id) (fun _ _ => True) p made ∧
      TouchesOwn (touchesTransaction id) (makesTransaction id) (fun _ _ => True) p made := by
  constructor
  · apply quiet hp
    intro st hst htouches
    exact absurd htouches (read_touches (not_not.mp hst) id .pool).1
  · apply quiet hp
    intro st hst htouches
    exact absurd htouches (read_touches (not_not.mp hst) id .pool).2

theorem createTopupPayment_makes (id merchantID : Int) (amount : Money) (isTest : Bool)
    (made : Prop) :
    TouchesOwn (touchesPayment id) (makesPayment id)
      (fun x made' => ∀ pt, x = .ok pt → pt.id = id → made')
      (createTopupPayment merchantID amount isTest) made := by
  have hfail : ∀ (e : Err) (made' : Prop) (pt : Payment), (.error e : Except Err Payment) = .ok pt →
      pt.id = id → made' := by
    intro e made' pt hpt
    cases hpt
  unfold createTopupPayment
  split
  · exact TouchesOwn.ofExcept (x := .error _) (hfail _ _)
  apply TouchesOwn.call False.elim
  intro mt
  apply quiet_bind (reading (.checked mt) id _).1 _ hfail
  intro _ made₁
  apply TouchesOwn.call False.elim
  intro found
  rw [Prog.ret_bind]
  split
  · exact TouchesOwn.ofExcept (x := .error _) (hfail _ _)
  apply TouchesOwn.call False.elim
  intro now
  apply TouchesOwn.call False.elim
  intro created
  cases created with
  | error e => exact TouchesOwn.ofExcept (x := .error e) (hfail _ _)
  | ok row =>
    apply TouchesOwn.ofExcept
    intro pt hpt hid
    obtain ⟨hrow, -⟩ := entryToPayment_eq_ok hpt
    exact .inr ⟨row, rfl, hrow.symm.trans hid⟩

theorem createTopupTransaction_makes (s : Service) (id merchantID : Int)
    (params : Service.CreateTransaction) (made : Prop) :
    TouchesOwn (touchesTransaction id) (makesTransaction id)
      (fun x made' => ∀ tx, x = .ok tx → tx.id = id → made')
      (s.createTopupTransaction merchantID params) made := by
  have hfail : ∀ (e : Err) (made' : Prop) (tx : Transaction),
      (.error e : Except Err Transaction) = .ok tx → tx.id = id → made' := by
    intro e made' tx htx
    cases htx
  unfold Service.createTopupTransaction
  apply quiet_bind (reading (.checked _) id _).2 _ hfail
  intro _ made₁
  apply quiet_bind (reading (.checked _) id _).2 _ hfail
  intro networkCurrency made₂
  apply TouchesOwn.call False.elim
  intro now
  apply TouchesOwn.call False.elim
  intro created
  cases created with
  | error e => exact TouchesOwn.ofExcept (x := .error e) (hfail _ _)
  | ok row =>
    apply TouchesOwn.ofExcept
    intro tx htx hid
    obtain ⟨currency, fee, -, -, rfl⟩ := s.entryToTransaction_eq_ok htx
    exact .inr ⟨row, rfl, hid⟩

/-- What the transaction of a topup writes. -/
def TopsUp : Stmt → Prop
  | .createTransaction _ => True
  | .updateTransaction _ => True
  | .createBalance p => p.key ≠ noBalance
  | .updateBalanceByID _ => True
  | .insertBalanceAuditLog _ => True
  | _ => False

theorem Confirms.topsUp {t : Int} {st : Stmt} (h : Confirms t st) : TopsUp st := by
  cases st <;> first
    | exact h
    | exact trivial

theorem OnPool.mono {α : Type} {Φ Ψ : Stmt → Prop} {p : Call α} (h : ∀ st, Φ st → Ψ st)
    (hp : OnPool Φ p) : OnPool Ψ p := by
  apply Issues.mono _ hp
  rintro c ⟨st, rfl, hst⟩
  exact ⟨st, rfl, fun hne => h st (hst hne)⟩

theorem createSystemTopup_onPool (s : Service) (merchantID : Int)
    (params : Service.CreateTransaction) :
    OnPool TopsUp (s.createSystemTopup merchantID params) := by
  apply OnPool.bind
  · apply OnPool.mapError
    apply OnPool.bind (.checked _)
    intro _
    apply OnPool.bind (.checked _)
    intro networkCurrency
    apply OnPool.bind (.read rfl)
    intro now
    apply OnPool.bind (.write trivial)
    intro created
    exact OnPool.bind (.checked _) fun _ => .checked _
  · intro tx
    split
    · exact trivial
    · apply OnPool.mapError
      exact OnPool.mono (fun st => Confirms.topsUp) (confirmOn_onPool s merchantID tx.id _)

theorem TopsUp.touches {st : Stmt} (h : st.changes ≠ none → TopsUp st) (id : Int) :
    ¬ touchesPayment id (.stmt .pool st) := by
  by_cases hread : st.changes = none
  · exact (read_touches hread id .pool).1
  · have hwrite := h hread
    cases st <;> first
      | exact fun hfalse => hfalse
      | exact hwrite.elim

theorem FailsPayment.touches {p : Int} {st : Stmt} (h : st.changes ≠ none → FailsPayment p st)
    (id : Int) : (touchesPayment id (.stmt .pool st) → p = id) ∧
      ¬ touchesTransaction id (.stmt .pool st) := by
  by_cases hread : st.changes = none
  · obtain ⟨hpayment, htransaction⟩ := read_touches hread id .pool
    exact ⟨fun htouches => absurd htouches hpayment, htransaction⟩
  · have hwrite := h hread
    cases st <;> first
      | exact ⟨fun hid => hwrite.symm.trans hid, fun hfalse => hfalse⟩
      | exact hwrite.elim

theorem Confirms.touches {t : Int} {st : Stmt} (h : st.changes ≠ none → Confirms t st) (id : Int)
    (htouches : touchesTransaction id (.stmt .pool st)) : t = id := by
  by_cases hread : st.changes = none
  · exact absurd htouches (read_touches hread id .pool).2
  · have hwrite := h hread
    cases st <;> first
      | exact hwrite.symm.trans htouches
      | exact htouches.elim
      | exact hwrite.elim

/-- The topup touches no payment but the one it has made. -/
theorem topup_touchesOwnPayment (s : Service) (id merchantID : Int) (input : TopupInput)
    (made : Prop) :
    TouchesOwn (touchesPayment id) (makesPayment id) (fun _ _ => True)
      (s.topupMerchantFromSystem merchantID input) made := by
  apply TouchesOwn.call False.elim
  intro merchant
  rw [Prog.ret_bind]
  apply quiet_bind (reading (.checked _) id _).1 _ fun _ _ => trivial
  intro _ made₁
  apply quiet_bind (reading (.mapError _ (locateSystemBalance_onPool _ _ _)) id _).1 _
    fun _ _ => trivial
  intro systemBalance made₂
  apply quiet_bind (reading (.checked _) id _).1 _ fun _ _ => trivial
  intro _ made₃
  apply TouchesOwn.call False.elim
  intro conv
  rw [Prog.ret_bind]
  apply quiet_bind (reading (.checked _) id _).1 _ fun _ _ => trivial
  intro usdAmount made₄
  apply TouchesOwn.bind (Q := fun x made' => ∀ pt, x = .ok pt → pt.id = id → made')
    (TouchesOwn.mapError (createTopupPayment_makes id merchantID input.amount input.isTest made₄)
      _) _ fun _ _ _ => trivial
  · intro x made' hx pt hpt
    cases x with
    | error e => cases hpt
    | ok y =>
      cases hpt
      exact hx pt rfl
  intro pt made₅ hpt
  have hown : pt.id = id → made₅ := hpt pt rfl
  apply TouchesOwn.bind (Q := fun _ made' => made₅ → made')
    (TouchesOwn.of_issues (Issues.mono _ (createSystemTopup_onPool s _ _).attempt)) _
    fun _ _ _ => trivial
  · rintro c ⟨st, rfl, hst⟩ htouches
    exact absurd htouches (TopsUp.touches hst id)
  intro created made₆ hkept
  apply quiet_bind _ _ fun _ _ => trivial
  · cases created with
    | ok tx => exact TouchesOwn.ofExcept (x := .ok tx) trivial
    | error e =>
      apply quiet (failedTopup_onPool pt e)
      intro st hst htouches
      exact hkept (hown ((FailsPayment.touches hst id).1 htouches))
  · intro tx made₇
    apply (reading _ id _).1
    apply OnPool.bind (.mapError _ (getMerchantBalance_onPool _ _ _ _))
    intro balance
    exact trivial

/-- What the payment of a topup writes. -/
def PaysInternally : Stmt → Prop
  | .createPayment _ => True
  | _ => False

theorem createTopupPayment_onPool (merchantID : Int) (amount : Money) (isTest : Bool) :
    OnPool PaysInternally (createTopupPayment merchantID amount isTest) := by
  unfold createTopupPayment
  split
  · exact trivial
  apply OnPool.bind (.read rfl)
  intro mt
  apply OnPool.bind (.checked _)
  intro _
  apply OnPool.bind (.read rfl)
  intro found
  split
  · exact trivial
  apply OnPool.bind (.read rfl)
  intro now
  apply OnPool.bind
  · exact .write trivial
  intro created
  exact OnPool.bind (.checked _) fun _ => .checked _

/-- A balance is never created under the key of one that was never read. -/
def KeyedStmt : Stmt → Prop
  | .createBalance p => p.key ≠ noBalance
  | _ => True

theorem topup_onPool (s : Service) (merchantID : Int) (input : TopupInput) :
    OnPool KeyedStmt (s.topupMerchantFromSystem merchantID input) := by
  apply OnPool.bind (.read rfl)
  intro merchant
  apply OnPool.bind (.checked _)
  intro _
  apply OnPool.bind (.mapError _ (locateSystemBalance_onPool _ _ _))
  intro systemBalance
  apply OnPool.bind (.checked _)
  intro _
  apply OnPool.bind (.read rfl)
  intro conv
  apply OnPool.bind (.checked _)
  intro usdAmount
  apply OnPool.bind
  · apply OnPool.mapError
    apply OnPool.mono _ (createTopupPayment_onPool _ _ _)
    intro st hst
    cases st <;> first
      | exact trivial
      | exact hst.elim
  intro pt
  apply OnPool.bind
  · apply OnPool.attempt
    apply OnPool.mono _ (createSystemTopup_onPool s _ _)
    intro st hst
    cases st <;> first
      | exact hst
      | exact trivial
  intro created
  apply OnPool.bind
  · cases created with
    | ok tx => exact trivial
    | error e =>
      apply OnPool.mono _ (failedTopup_onPool pt e)
      intro st hst
      cases st <;> first
        | exact trivial
        | exact hst.elim
  intro tx
  apply OnPool.bind (.mapError _ (getMerchantBalance_onPool _ _ _ _))
  exact fun _ => trivial

theorem PaysInternally.touches {st : Stmt} (h : st.changes ≠ none → PaysInternally st) (id : Int) :
    ¬ touchesTransaction id (.stmt .pool st) := by
  by_cases hread : st.changes = none
  · exact (read_touches hread id .pool).2
  · have hwrite := h hread
    cases st <;> first
      | exact fun hfalse => hfalse
      | exact hwrite.elim

/-- Nor a transaction but the one it has made. -/
theorem topup_touchesOwnTransaction (s : Service) (id merchantID : Int) (input : TopupInput)
    (made : Prop) :
    TouchesOwn (touchesTransaction id) (makesTransaction id) (fun _ _ => True)
      (s.topupMerchantFromSystem merchantID input) made := by
  apply TouchesOwn.call False.elim
  intro merchant
  rw [Prog.ret_bind]
  apply quiet_bind (reading (.checked _) id _).2 _ fun _ _ => trivial
  intro _ made₁
  apply quiet_bind (reading (.mapError _ (locateSystemBalance_onPool _ _ _)) id _).2 _
    fun _ _ => trivial
  intro systemBalance made₂
  apply quiet_bind (reading (.checked _) id _).2 _ fun _ _ => trivial
  intro _ made₃
  apply TouchesOwn.call False.elim
  intro conv
  rw [Prog.ret_bind]
  apply quiet_bind (reading (.checked _) id _).2 _ fun _ _ => trivial
  intro usdAmount made₄
  apply quiet_bind (quiet (OnPool.mapError _ (createTopupPayment_onPool _ _ _)) _) _
    fun _ _ => trivial
  · intro st hst htouches
    exact absurd htouches (PaysInternally.touches hst id)
  intro pt made₅
  apply quiet_bind _ _ fun _ _ => trivial
  · apply TouchesOwn.mono (fun _ _ _ => trivial) (TouchesOwn.attempt (Q := fun _ _ => True) _)
    apply TouchesOwn.bind (Q := fun x made' => ∀ tx, x = .ok tx → tx.id = id → made')
      (TouchesOwn.mapError (createTopupTransaction_makes s id merchantID _ made₅) _) _
      fun _ _ _ => trivial
    · intro x made' hx tx htx
      cases x with
      | error e => cases htx
      | ok y =>
        cases htx
        exact hx tx rfl
    intro tx made₆ htx
    split
    · exact TouchesOwn.ofExcept (x := .error _) trivial
    · apply quiet (OnPool.mapError _ (confirmOn_onPool s merchantID tx.id _))
      intro st hst htouches
      exact htx tx rfl (Confirms.touches hst id htouches)
  intro created made₇
  apply quiet_bind _ _ fun _ _ => trivial
  · cases created with
    | ok tx => exact TouchesOwn.ofExcept (x := .ok tx) trivial
    | error e =>
      apply quiet (failedTopup_onPool pt e)
      intro st hst htouches
      exact absurd htouches (FailsPayment.touches hst id).2
  · intro tx made₈
    apply (reading _ id _).2
    apply OnPool.bind (.mapError _ (getMerchantBalance_onPool _ _ _ _))
    intro balance
    exact trivial

end CryptoLink
