import CryptoLink.Footprints
import CryptoLink.Library.Landings
import CryptoLink.Library.Reliance

/-!
# Locked payments

A lock is to end the setup of a payment. It looks neither at the status of the
transaction nor at the advisory lock the other side takes, and the other side
looks at the payment before it has that lock. The payment stays payable and its
method fixed as long as every call writes on what it was told of the payment and
of its method.
-/

namespace CryptoLink

open ReadCommitted StatementPrograms System KeyedTables

/-- What can be started on one payment while it is set up. The payment of a
choice was read at some earlier time. -/
inductive OptionCall where
  | setPaymentMethod (p : Payment) (ticker : String)
  | lockPaymentOptions (merchantID : Int)
  | expirePayment

namespace Service

variable (s : Service)

def optionProgram (paymentID : Int) : OptionCall → Call Unit
  | .setPaymentMethod p ticker => discard (s.setPaymentMethod { p with id := paymentID } ticker)
  | .lockPaymentOptions merchantID => s.lockPaymentOptions merchantID paymentID
  | .expirePayment => s.expirePayment paymentID

def optionSystem (paymentID : Int) :
    System Stmt Reply Env World LockKey Err OptionCall Move where
  engine := engine
  program := s.optionProgram paymentID
  move := Move.apply

end Service

def paymentStatus (id : Int) (w : World) : Option Payment.Status :=
  (paymentRow id w).map PaymentRow.status

/-- The latest transaction still waits for its money, at some address. -/
def Payable (id : Int) (w : World) : Prop :=
  ∃ r ∈ w.getLatestTransactionByPaymentID id, r.status = .pending ∧ r.recipientAddress ≠ ""

def LockedPayable (id : Int) (w : World) : Prop :=
  paymentStatus id w = some .locked → Payable id w

/-- The latest transaction and its currency. -/
def methodOf (id : Int) (w : World) : Option (Int × String × Option String) :=
  (w.getLatestTransactionByPaymentID id).map fun r => (r.id, r.currency, r.networkID)

instance (id : Int) (w : World) : Decidable (Payable id w) :=
  inferInstanceAs (Decidable (∃ r ∈ w.getLatestTransactionByPaymentID id,
    r.status = .pending ∧ r.recipientAddress ≠ ""))

instance (id : Int) (w : World) : Decidable (LockedPayable id w) :=
  inferInstanceAs (Decidable (paymentStatus id w = some .locked → Payable id w))

/-- What a call knows of the payment it works on: whether it was locked when the
call was told of it, or has been since, or is not as the call was handed it;
and whether the method the call was shown, if any, could be paid then and ever
since. -/
structure SetupNote where
  shut : Bool
  method : Option Bool
  deriving DecidableEq, Repr

/-- A choice of method starts with the payment it was handed. -/
def SetupNote.begin (id : Int) (l : OptionCall) (w : World) : SetupNote :=
  match l with
  | .setPaymentMethod p _ => ⟨decide (paymentStatus id w ≠ some p.status), none⟩
  | _ => ⟨false, none⟩

/-- Expiry reads the payment, and every call the latest transaction. -/
def SetupNote.after (l : OptionCall) (c : Cmd Stmt) (r : Answer Reply c) (g : SetupNote) :
    SetupNote :=
  match l, c, r with
  | .expirePayment, .stmt _ (.getPaymentByID ..), .ok row =>
      { g with shut := decide (row.status = .locked) }
  | _, .stmt _ (.getLatestTransactionByPaymentID _), .ok row =>
      { g with method := some (decide (row.status = .pending ∧ row.recipientAddress ≠ "")) }
  | _, _, _ => g

def SetupNote.mind (id : Int) (w : World) (g : SetupNote) : SetupNote where
  shut := g.shut || decide (paymentStatus id w = some .locked)
  method := g.method.map fun payable => payable && decide (Payable id w)

structure SetupNote.Counts (id : Int) (g : SetupNote) (w : World) : Prop where
  unlocked : g.shut = false → paymentStatus id w ≠ some .locked
  payable : g.method = some true → Payable id w

/-- What lands is what the note allows for: a transaction is created, and the latest
one changed, for a payment the call knows to be unlocked, and a lock is put on a
method which, if one was shown, can be paid. -/
def FitsNote (id : Int) (g : SetupNote) (e : Entry Stmt Env World) (w : World) : Prop :=
  engine.locks e.stmt e.env e.seen = [] ∨
    match e.stmt with
    | .createTransaction _ => g.shut = false
    | .updateTransaction p => g.shut = false ∨
        ∀ r ∈ w.getLatestTransactionByPaymentID id, r.id ≠ p.id
    | .cancelTransaction p => g.shut = false ∨
        ∀ r ∈ w.getLatestTransactionByPaymentID id, r.id ≠ p.id
    | .updatePayment p => p.status = .locked → ∀ payable ∈ g.method, payable = true
    | _ => True

instance (id : Int) (g : SetupNote) (e : Entry Stmt Env World) (w : World) :
    Decidable (FitsNote id g e w) := by
  unfold FitsNote
  cases e.stmt <;> infer_instance

/-- What the calls know of the payment `id`. -/
def setupOf (id : Int) : Reliance Stmt Reply Env World LockKey OptionCall SetupNote where
  start := SetupNote.begin id
  after l c r _ g := g.after l c r
  mind := SetupNote.mind id
  counts := SetupNote.Counts id
  admits _ g c env v :=
    engine.EachLands (FitsNote id g) (engine.landing c env v) (engine.ground c env v)
  counts_mind w g := by
    constructor
    · intro hshut
      simp only [SetupNote.mind, Bool.or_eq_false_iff, decide_eq_false_iff_not] at hshut
      exact hshut.2
    · intro hmethod
      obtain ⟨payable, -, hpayable⟩ := Option.map_eq_some_iff.mp hmethod
      simp only [Bool.and_eq_true, decide_eq_true_eq] at hpayable
      exact hpayable.2

instance (id : Int) (l : OptionCall) (g : SetupNote) (c : Cmd Stmt) (env : Env)
    (v : View Stmt Env World LockKey) : Decidable ((setupOf id).admits l g c env v) :=
  inferInstanceAs (Decidable
    (engine.EachLands (FitsNote id g) (engine.landing c env v) (engine.ground c env v)))

/-- Where it lands, a statement is in order: only a choice of method for an
editable payment creates a transaction, and not once the payment is locked; the
latest one of a locked payment is left alone; and a payment is locked while it is
payable. -/
def InOrder (id : Int) (l : OptionCall) (g : SetupNote) (e : Entry Stmt Env World) (w : World) :
    Prop :=
  engine.locks e.stmt e.env e.seen = [] ∨
    match e.stmt with
    | .createTransaction _ => g.shut = false ∧ paymentStatus id w ≠ some .locked ∧
        ∃ p ticker, l = .setPaymentMethod p ticker ∧ p.isEditable = true
    | .updateTransaction p => paymentStatus id w = some .locked →
        ∀ r ∈ w.getLatestTransactionByPaymentID id, r.id ≠ p.id
    | .cancelTransaction p => paymentStatus id w = some .locked →
        ∀ r ∈ w.getLatestTransactionByPaymentID id, r.id ≠ p.id
    | .updatePayment p => p.status = .locked → Payable id w
    | _ => True

/-- An update of one row leaves the order of all rows as it is. -/
theorem latest_modify (w : World) (k : Int) (f : TransactionRow → TransactionRow)
    (hf : ∀ r, (f r).id = r.id) (hentity : ∀ r, (f r).entityID = r.entityID) (id : Int) :
    World.getLatestTransactionByPaymentID
        { w with transactions := w.transactions.modify k f hf } id =
      (w.getLatestTransactionByPaymentID id).map fun r => if r.id = k then f r else r := by
  let g : TransactionRow → TransactionRow := fun r => if r.id = k then f r else r
  have hgid : ∀ r, (g r).id = r.id := by
    intro r
    by_cases h : r.id = k
    · simp only [g, if_pos h, hf]
    · simp only [g, if_neg h]
  have hgentity : ∀ r, (g r).entityID = r.entityID := by
    intro r
    by_cases h : r.id = k
    · simp only [g, if_pos h, hentity]
    · simp only [g, if_neg h]
  have hfilter : (w.transactions.rows.map g).filter (fun r => r.entityID = some id) =
      (w.transactions.rows.filter fun r => r.entityID = some id).map g := by
    rw [List.filter_map]
    congr 1
    apply List.filter_congr
    intro r _
    simp only [Function.comp, hgentity]
  have hsort : ∀ rows : List TransactionRow,
      World.newestFirst (rows.map g) = (World.newestFirst rows).map g := by
    intro rows
    symm
    apply List.map_insertionSort
    intro a _ b _
    rw [hgid, hgid]
  show (World.newestFirst ((w.transactions.rows.map g).filter _)).head? = _
  rw [hfilter, hsort, List.head?_map]
  rfl

/-- From one world to the next: a locked payment stays payable, a payment that is
not pending never is again, and where none may be created the method stays. -/
structure MethodKept (id : Int) (settled : Prop) (w w' : World) : Prop where
  payable : LockedPayable id w → LockedPayable id w'
  closed : paymentStatus id w ≠ some .pending → paymentStatus id w' ≠ some .pending
  fixed : settled → methodOf id w' = methodOf id w

namespace MethodKept

variable {id : Int} {settled : Prop} {u v w w' : World}

theorem of_eq (htransactions : w'.transactions = w.transactions)
    (hpayments : w'.payments = w.payments) : MethodKept id settled w w' := by
  have hstatus : paymentStatus id w' = paymentStatus id w := by
    rw [paymentStatus, paymentRow, hpayments]
    rfl
  have hlatest : w'.getLatestTransactionByPaymentID id =
      w.getLatestTransactionByPaymentID id := by
    rw [World.getLatestTransactionByPaymentID, htransactions]
    rfl
  constructor
  · intro h hlocked
    rw [Payable, hlatest]
    exact h (hstatus ▸ hlocked)
  · intro h
    rw [hstatus]
    exact h
  · intro _
    rw [methodOf, hlatest]
    rfl

theorem refl (w : World) : MethodKept id settled w w := of_eq rfl rfl

theorem trans (h : MethodKept id settled u v) (h' : MethodKept id settled v w) :
    MethodKept id settled u w := by
  constructor
  · intro hu
    exact h'.payable (h.payable hu)
  · intro hu
    exact h'.closed (h.closed hu)
  · intro hu
    exact (h'.fixed hu).trans (h.fixed hu)

/-- While the payment is not locked, its method may change. -/
theorem of_unlocked (hunlocked : paymentStatus id w ≠ some .locked) (hfree : ¬ settled)
    (hpayments : w'.payments = w.payments) : MethodKept id settled w w' := by
  have hstatus : paymentStatus id w' = paymentStatus id w := by
    rw [paymentStatus, paymentRow, hpayments]
    rfl
  constructor
  · intro _ hlocked
    exact absurd (hstatus ▸ hlocked) hunlocked
  · intro h
    rw [hstatus]
    exact h
  · intro h
    exact absurd h hfree

/-- One transaction gets another status, and is not the latest one if the
payment is locked. -/
theorem of_modify {k : Int} {f : TransactionRow → TransactionRow} (hf : ∀ r, (f r).id = r.id)
    (hentity : ∀ r, (f r).entityID = r.entityID)
    (hmethod : ∀ r, (f r).currency = r.currency ∧ (f r).networkID = r.networkID)
    (hother : paymentStatus id w = some .locked →
      ∀ r ∈ w.getLatestTransactionByPaymentID id, r.id ≠ k) :
    MethodKept id settled w { w with transactions := w.transactions.modify k f hf } := by
  have hlatest := latest_modify w k f hf hentity id
  constructor
  · intro h hlocked
    obtain ⟨r, hr, hpending, hrecipient⟩ := h hlocked
    refine ⟨r, ?_, hpending, hrecipient⟩
    rw [hlatest, show w.getLatestTransactionByPaymentID id = some r from hr]
    simp [hother hlocked r hr]
  · exact fun h => h
  · intro _
    rw [methodOf, hlatest, Option.map_map, methodOf]
    congr 1
    funext r
    obtain ⟨hcurrency, hnetwork⟩ := hmethod r
    by_cases hk : r.id = k
    · simp [hk, hf, hcurrency, hnetwork]
    · simp [hk]

/-- The payment gets another status, and is payable if it is locked. -/
theorem of_status (status : Payment.Status) (htransactions : w'.transactions = w.transactions)
    (hstatus : paymentStatus id w' = paymentStatus id w ∨ paymentStatus id w' = some status)
    (hclosed : status ≠ .pending) (hpayable : status = .locked → Payable id w) :
    MethodKept id settled w w' := by
  have hlatest : w'.getLatestTransactionByPaymentID id =
      w.getLatestTransactionByPaymentID id := by
    rw [World.getLatestTransactionByPaymentID, htransactions]
    rfl
  constructor
  · intro h hlocked
    rw [Payable, hlatest]
    rcases hstatus with hsame | hnew
    · exact h (hsame ▸ hlocked)
    · exact hpayable (Option.some.inj (hnew.symm.trans hlocked))
  · intro h
    rcases hstatus with hsame | hnew
    · rw [hsame]
      exact h
    · rw [hnew]
      exact fun hpending => hclosed (Option.some.inj hpending)
  · intro _
    rw [methodOf, hlatest]
    rfl

end MethodKept

/-- No call of the setup makes a payment pending again. -/
def methodWrites : Stmt → Prop
  | .createTransaction _ => True
  | .updateTransaction _ => True
  | .cancelTransaction _ => True
  | .updatePayment p => p.status ≠ .pending
  | st => st.changes = none

/-- A statement that locks no row changes neither table. -/
theorem methodKept_of_unlocked {id : Int} {settled : Prop} {st : Stmt} {env : Env}
    {seen w : World} (hst : methodWrites st) (h : engine.locks st env seen = []) :
    MethodKept id settled w (engine.effect st env seen w) := by
  rw [engine_effect]
  split
  · exact .refl w
  · rename_i hran
    rw [engine_locks, if_neg hran] at h
    cases st <;> try exact .of_eq rfl rfl
    case createTransaction p =>
      have hunfit : ¬ seen.createFits p = true := by
        intro hfits
        simp [World.locks, hfits] at h
      rw [World.effect, if_neg hunfit]
      exact .refl w
    case updateTransaction p =>
      cases htarget : seen.updateTarget p with
      | none =>
        simp only [World.effect, htarget]
        exact .refl w
      | some r => simp [World.locks, htarget] at h
    case cancelTransaction p =>
      cases htarget : seen.transactions.get p.id with
      | none =>
        simp only [World.effect, htarget]
        exact .refl w
      | some r => simp [World.locks, htarget] at h
    case updatePayment p =>
      cases htarget : seen.paymentTarget p.id p.merchantID with
      | none =>
        simp only [World.effect, htarget]
        exact .refl w
      | some r => simp [World.locks, htarget] at h
    all_goals cases hst

/-- A call that may still create has a note which says that the payment is open,
and was handed it as an editable one. -/
def MayCreate (l : OptionCall) (g : SetupNote) : Prop :=
  g.shut = false ∧ ∃ p ticker, l = .setPaymentMethod p ticker ∧ p.isEditable = true

theorem methodKept_effect {id : Int} {l : OptionCall} {g : SetupNote} {e : Entry Stmt Env World}
    {w : World} (hst : methodWrites e.stmt) (hok : InOrder id l g e w) :
    MethodKept id (¬ MayCreate l g) w (engine.effect e.stmt e.env e.seen w) := by
  obtain ⟨st, env, seen⟩ := e
  rcases hok with hunlocked | hok
  · exact methodKept_of_unlocked hst hunlocked
  rw [engine_effect]
  split
  · exact .refl w
  cases st with
  | createTransaction p =>
    obtain ⟨hshut, hopen, hchoice⟩ := hok
    refine .of_unlocked hopen (fun h => h ⟨hshut, hchoice⟩) ?_
    exact World.effect_payments (fun h => by cases h)
  | updateTransaction p =>
    show MethodKept id _ w (World.effect (.updateTransaction p) env seen w)
    rw [World.effect]
    split
    · exact .refl w
    · exact .of_modify _ (fun _ => rfl) (fun _ => ⟨rfl, rfl⟩) hok
  | cancelTransaction p =>
    show MethodKept id _ w (World.effect (.cancelTransaction p) env seen w)
    rw [World.effect]
    split
    · exact .refl w
    · exact .of_modify _ (fun _ => rfl) (fun _ => ⟨rfl, rfl⟩) hok
  | updatePayment p =>
    refine .of_status p.status (World.effect_transactions (fun h => by cases h)) ?_ hst hok
    rcases World.payment_effect_cases (.updatePayment p) env seen w id with hsame |
      ⟨p', hp', -, -, hnew⟩ | ⟨p', hp', -⟩ | ⟨p', hp', -⟩
    · left
      rw [paymentStatus, paymentRow, hsame]
      rfl
    · cases hp'
      rw [paymentStatus, paymentRow, hnew, paymentStatus, paymentRow]
      cases w.payments.get id with
      | none => exact .inl rfl
      | some r => exact .inr rfl
    · cases hp'
    · cases hp'
  | _ =>
    rw [World.effect_of_read hst]
    exact .refl w

/-- What lands in order keeps a locked payment payable. -/
theorem setup_steady (id : Int) (l : OptionCall) (g : SetupNote) :
    engine.Steady methodWrites (InOrder id l g) (MethodKept id (¬ MayCreate l g)) where
  refl := .refl
  trans := .trans
  effect _ _ hst hok := methodKept_effect hst hok
  lasting st env w _ := by
    show MethodKept id _ w (engine.lasting st env w)
    rw [engine_lasting]
    split
    · exact .refl w
    · exact .of_eq (lasting_transactions st w) (lasting_payments st w)

section Calls

variable {id : Int} {l : OptionCall} {g : SetupNote} {α β : Type}

def SetsUp (id : Int) (l : OptionCall) (g : SetupNote) (c : Cmd Stmt) (env : Env)
    (v : View Stmt Env World LockKey) : Prop :=
  engine.EachLands (InOrder id l g) (engine.landing c env v) (engine.ground c env v)

/-- What a call may run: it creates only for an editable payment it was handed,
and a payment changes on the pool alone. -/
def setupStmt (l : OptionCall) (q : Conn) : Stmt → Prop
  | .createTransaction _ => ∃ p ticker, l = .setPaymentMethod p ticker ∧ p.isEditable = true
  | .updateTransaction _ => True
  | .cancelTransaction _ => True
  | .updatePayment _ => q = .pool
  | st => st.changes = none

theorem setupStmt_tx {st : Stmt} (h : setupStmt l .tx st) : st.changes ≠ some .payments := by
  cases st with
  | createTransaction p => exact fun h => by cases h
  | updateTransaction p => exact fun h => by cases h
  | cancelTransaction p => exact fun h => by cases h
  | updatePayment p => cases h
  | _ =>
    intro hchanges
    rw [show _ = none from h] at hchanges
    cases hchanges

theorem inOrder_of_fits {q : Conn} {e : Entry Stmt Env World} {w : World}
    (hst : setupStmt l q e.stmt) (hopen : g.shut = false → paymentStatus id w ≠ some .locked)
    (hlock : ∀ p, e.stmt = .updatePayment p → p.status = .locked →
      (∀ payable ∈ g.method, payable = true) → Payable id w)
    (h : FitsNote id g e w) : InOrder id l g e w := by
  obtain ⟨st, env, seen⟩ := e
  rcases h with hunlocked | h
  · exact .inl hunlocked
  right
  cases st with
  | createTransaction p => exact ⟨h, hopen h, hst⟩
  | updateTransaction p =>
    intro hlocked
    rcases h with hshut | hother
    · exact absurd hlocked (hopen hshut)
    · exact hother
  | cancelTransaction p =>
    intro hlocked
    rcases h with hshut | hother
    · exact absurd hlocked (hopen hshut)
    · exact hother
  | updatePayment p => exact fun hp => hlock p rfl hp (h hp)
  | _ => exact trivial

/-- A log changes no payment, so what the call knows of it holds to its end. -/
theorem eachLands_of_fits {log : Log Stmt Env World} {w : World}
    (hlog : ∀ e ∈ log, setupStmt l .tx e.stmt)
    (hopen : g.shut = false → paymentStatus id w ≠ some .locked)
    (h : engine.EachLands (FitsNote id g) log w) : engine.EachLands (InOrder id l g) log w := by
  induction log generalizing w with
  | nil => exact trivial
  | cons e log ih =>
    have hst := hlog e List.mem_cons_self
    refine ⟨inOrder_of_fits hst hopen ?_ h.1,
      ih (fun e' he' => hlog e' (List.mem_cons_of_mem _ he'))
      ?_ h.2⟩
    · rintro p hp - -
      rw [hp] at hst
      cases hst
    · have hsame : (engine.effect e.stmt e.env e.seen w).payments = w.payments := by
        rw [engine_effect]
        split
        · rfl
        · exact World.effect_payments (setupStmt_tx hst)
      intro hshut
      rw [paymentStatus, paymentRow, hsame]
      exact hopen hshut

theorem ground_transactions (c : Cmd Stmt) (env : Env) (v : View Stmt Env World LockKey) :
    (engine.ground c env v).transactions = v.world.transactions := by
  cases c with
  | stmt q st =>
    show (engine.lasting st env v.world).transactions = _
    rw [engine_lasting]
    split
    · rfl
    · exact lasting_transactions st v.world
  | _ => rfl

theorem ground_payments (c : Cmd Stmt) (env : Env) (v : View Stmt Env World LockKey) :
    (engine.ground c env v).payments = v.world.payments := by
  cases c with
  | stmt q st =>
    show (engine.lasting st env v.world).payments = _
    rw [engine_lasting]
    split
    · rfl
    · exact lasting_payments st v.world
  | _ => rfl

/-- The statements a call may run, and a log of such. -/
def LogOf (l : OptionCall) (x : Session Stmt Env World LockKey) : Prop :=
  ∀ log, x.txn = some log → ∀ e ∈ log, setupStmt l .tx e.stmt

theorem setsUp_of_fits {c : Cmd Stmt} {env : Env} {v : View Stmt Env World LockKey}
    (hc : ∀ q st, c = .stmt q st → setupStmt l q st) (hlog : LogOf l v.session)
    (hlock : ∀ q p, c = .stmt q (.updatePayment p) → p.status = .locked → g.method.isSome = true)
    (hcounts : g.Counts id v.world)
    (h : engine.EachLands (FitsNote id g) (engine.landing c env v) (engine.ground c env v)) :
    SetsUp id l g c env v := by
  have hopen : g.shut = false → paymentStatus id (engine.ground c env v) ≠ some .locked := by
    rw [paymentStatus, paymentRow, ground_payments]
    exact hcounts.unlocked
  have hpayable : ∀ q p, c = .stmt q (.updatePayment p) → p.status = .locked →
      (∀ payable ∈ g.method, payable = true) → Payable id (engine.ground c env v) := by
    intro q p hp hlocked hall
    obtain ⟨payable, hmethod⟩ := Option.isSome_iff_exists.mp (hlock q p hp hlocked)
    rw [Payable, World.getLatestTransactionByPaymentID, ground_transactions]
    exact hcounts.payable (hmethod.trans (congrArg some (hall payable hmethod)))
  -- one statement by itself, or the log that is committed
  have hsingle : ∀ q st, c = .stmt q st → engine.EachLands (FitsNote id g) [⟨st, env, v.world⟩]
      (engine.ground c env v) →
      engine.EachLands (InOrder id l g) [⟨st, env, v.world⟩] (engine.ground c env v) := by
    intro q st hst hland
    refine ⟨inOrder_of_fits (q := q) (hc q st hst) hopen ?_ hland.1, trivial⟩
    rintro p hp hlocked hall
    have hcmd : c = .stmt q (.updatePayment p) := hst.trans (congrArg (Cmd.stmt q) hp)
    exact hpayable q p hcmd hlocked hall
  obtain ⟨w, txn, kept⟩ := v
  cases c with
  | commitTx =>
    cases txn with
    | none => exact trivial
    | some log =>
      unfold SetsUp
      simp only [Engine.landing] at h ⊢
      split
      · rename_i hl
        rw [if_pos hl] at h
        exact eachLands_of_fits (hlog log rfl) hopen h
      · exact trivial
  | stmt q st =>
    cases q with
    | pool => exact hsingle .pool st rfl h
    | tx =>
      cases txn with
      | none => exact hsingle .tx st rfl h
      | some log => exact trivial
  | beginTx => exact trivial
  | rollbackTx => exact trivial
  | keep st => exact trivial
  | release => exact trivial

theorem method_after {c : Cmd Stmt} {r : Answer Reply c} (h : g.method.isSome = true) :
    (g.after l c r).method.isSome = true := by
  unfold SetupNote.after
  split
  · exact h
  · rfl
  · exact h

theorem shut_after_choice (p : Payment) (ticker : String) (c : Cmd Stmt) (r : Answer Reply c)
    (g : SetupNote) : (g.after (.setPaymentMethod p ticker) c r).shut = g.shut := by
  unfold SetupNote.after
  split
  · rename_i hl
    cases hl
  · rfl
  · rfl

theorem setupStmt_of_read {q : Conn} {st : Stmt} (h : st.changes = none) : setupStmt l q st := by
  cases st <;> first
    | exact h
    | cases h

abbrev Sets (id : Int) (l : OptionCall) (Q : Except Err α → (setupOf id).Stand → Prop)
    (p : Call α) (x : (setupOf id).Stand) : Prop :=
  Meets ((setupOf id).setting engine (SetsUp id) l) Q p x

/-- A program of such statements, which puts a lock only where it has been shown
a method. -/
theorem sets_of_issues (shown : Prop) {p : Call α} {x : (setupOf id).Stand}
    (hp : Issues (fun c => ∀ q st, c = Cmd.stmt q st → setupStmt l q st ∧
      ∀ p, st = .updatePayment p → p.status = .locked → shown) p)
    (hx : shown → x.1.1.method.isSome = true) (hlog : LogOf l x.1.2.session) :
    Sets id l (fun _ y => LogOf l y.1.2.session) p x := by
  refine Meets.mono (fun _ _ h => h.2) (Reliance.meets_of_issues
    (J := fun g y => (shown → g.method.isSome = true) ∧ LogOf l y) ?_ ?_ ?_ hp ⟨hx, hlog⟩)
  · rintro w g y ⟨hmethod, hlog⟩
    refine ⟨?_, hlog⟩
    intro hshown
    show (g.method.map _).isSome = true
    rw [Option.isSome_map]
    exact hmethod hshown
  · rintro c hc env v g ⟨hmethod, hlog⟩
    refine ⟨fun hshown => method_after (hmethod hshown), ?_⟩
    exact Engine.log_perform hlog (fun st hst => (hc .tx st hst).1) env
  · rintro c hc g env v hcounts ⟨hmethod, hlog⟩ hadm
    refine setsUp_of_fits (fun q st hst => (hc q st hst).1) hlog ?_ hcounts hadm
    intro q p hp hlocked
    exact hmethod ((hc q _ hp).2 p rfl hlocked)

end Calls

namespace Service

variable {s : Service}

/-- Every statement of a footprint is a reading or one of its writes. -/
theorem issues_of_onlyWrites {α : Type} {Φ P : Conn → Stmt → Prop} {p : Call α}
    (hp : OnlyWrites Φ p) (hread : ∀ q st, st.changes = none → P q st)
    (h : ∀ q st, Φ q st → P q st) : Issues (fun c => ∀ q st, c = Cmd.stmt q st → P q st) p := by
  refine Issues.mono ?_ hp
  intro c hc q st he
  by_cases hchanges : st.changes = none
  · exact hread q st hchanges
  · exact h q st (hc q st he hchanges)

theorem methodWrites_of_read {st : Stmt} (h : st.changes = none) : methodWrites st := by
  cases st <;> first
    | exact h
    | cases h

theorem optionProgram_issues (id : Int) (l : OptionCall) :
    Issues (fun c => ∀ q st, c = Cmd.stmt q st → methodWrites st) (s.optionProgram id l) := by
  cases l with
  | setPaymentMethod p ticker =>
    refine issues_of_onlyWrites (OnlyWrites.discard setPaymentMethod_writes)
      (fun _ _ => methodWrites_of_read) ?_
    intro q st hst
    cases st <;> first | exact trivial | exact hst.elim
  | lockPaymentOptions m =>
    refine issues_of_onlyWrites
      (Φ := fun _ st => ∃ p, st = .updatePayment p ∧ p.status = .locked) ?_
      (fun _ _ => methodWrites_of_read) ?_
    · apply lockPaymentOptions_writes
      intro p _ _ hlocked
      exact ⟨p, rfl, hlocked⟩
    · rintro q st ⟨p, rfl, hlocked⟩
      show p.status ≠ .pending
      rw [hlocked]
      intro h
      cases h
  | expirePayment =>
    refine issues_of_onlyWrites expirePayment_writes (fun _ _ => methodWrites_of_read) ?_
    intro q st hst
    cases st <;> first | exact trivial | exact hst.elim | skip
    case updatePayment p =>
      obtain ⟨-, hstatus | hstatus⟩ := hst
      · show p.status ≠ .pending
        rw [hstatus]
        intro h
        cases h
      · show p.status ≠ .pending
        rw [hstatus]
        intro h
        cases h

/-- A call which never puts a lock. -/
theorem sets_of_writes {α : Type} {id : Int} {l : OptionCall} {Φ : Conn → Stmt → Prop} {p : Call α}
    {x : (setupOf id).Stand} (hp : OnlyWrites Φ p) (hlog : LogOf l x.1.2.session)
    (h : ∀ q st, Φ q st → setupStmt l q st ∧ ∀ p, st = .updatePayment p → p.status ≠ .locked) :
    Sets id l (fun _ y => LogOf l y.1.2.session) p x := by
  refine sets_of_issues False (issues_of_onlyWrites hp ?_ ?_) False.elim hlog
  · intro q st hread
    refine ⟨setupStmt_of_read hread, ?_⟩
    rintro p rfl
    cases hread
  · intro q st hst
    exact ⟨(h q st hst).1, (h q st hst).2⟩

/-- What only reads. -/
theorem sets_of_reads {α : Type} {id : Int} {l : OptionCall} {p : Call α} {x : (setupOf id).Stand}
    (hp : OnlyWrites (fun _ _ => False) p) (hlog : LogOf l x.1.2.session) :
    Sets id l (fun _ y => LogOf l y.1.2.session) p x :=
  sets_of_writes hp hlog fun _ _ h => h.elim

/-- A method that was shown is not forgotten while the call waits. -/
theorem method_left {id : Int} {g g' : SetupNote} (hleft : (setupOf id).Left g g')
    (hg : g.method.isSome = true) : g'.method.isSome = true := by
  refine Reliance.Left.keeps (Z := setupOf id)
    (J := fun g : SetupNote => g.method.isSome = true) (fun w g hg => ?_) hleft hg
  show (g.method.map _).isSome = true
  rw [Option.isSome_map]
  exact hg

/-- A transaction that is found is the method the call is shown. -/
theorem getLatest_sets {id paymentID m : Int} {x : (setupOf id).Stand}
    (hlog : LogOf (.lockPaymentOptions m) x.1.2.session) :
    Sets id (.lockPaymentOptions m) (fun out y => LogOf (.lockPaymentOptions m) y.1.2.session ∧
      ∀ tx, out = .ok tx → y.1.1.method.isSome = true) (s.getLatestByPaymentID paymentID) x := by
  refine Reliance.ask_bind ?_ ?_
  · intro g v env _ hcounts hsession hadm
    refine setsUp_of_fits ?_ (hsession ▸ hlog) ?_ hcounts hadm
    · rintro q st hst
      cases hst
      rfl
    · rintro q p hst
      cases hst
  · intro g v env _ _ hsession _
    refine Meets.ofExcept ?_
    rintro y ⟨hsame, hleft⟩
    refine ⟨?_, ?_⟩
    · rw [hsame]
      show LogOf (.lockPaymentOptions m) v.session
      rw [hsession]
      exact hlog
    · intro tx htx
      obtain ⟨row, hrow, -⟩ := toTransaction_eq_ok s htx
      have hreply : (engine.perform (.stmt .pool (.getLatestTransactionByPaymentID paymentID))
          env v).1 = .ok row := hrow
      refine method_left hleft ?_
      show (SetupNote.mind id _ _).method.isSome = true
      rw [hreply]
      rfl

theorem getPaymentMethodOf_sets {id m : Int} {pt : Payment} {x : (setupOf id).Stand}
    (hlog : LogOf (.lockPaymentOptions m) x.1.2.session) :
    Sets id (.lockPaymentOptions m) (fun out y => LogOf (.lockPaymentOptions m) y.1.2.session ∧
      ∀ tx, out = .ok (some tx) → y.1.1.method.isSome = true) (s.getPaymentMethodOf pt) x := by
  refine Meets.bind (Meets.attempt (Meets.mono ?_ (getLatest_sets hlog)))
  rintro found y ⟨hylog, hfound⟩
  cases found with
  | ok tx =>
    have hsome := hfound tx rfl
    refine Meets.ofExcept_bind (fun _ _ => ?_) fun _ _ => ?_
    · rintro z ⟨hsame, hleft⟩
      exact ⟨hsame ▸ hylog, fun _ _ => method_left hleft hsome⟩
    · rintro z ⟨hsame, hleft⟩
      exact ⟨hsame ▸ hylog, fun _ h => by cases h⟩
  | error e =>
    dsimp only
    split
    · rintro z ⟨hsame, -⟩
      exact ⟨hsame ▸ hylog, fun _ h => by cases h⟩
    · rintro z ⟨hsame, -⟩
      exact ⟨hsame ▸ hylog, fun _ h => by cases h⟩

/-- A detailed payment with a method has been shown it. -/
theorem getDetailedPayment_sets {id m paymentID : Int} {x : (setupOf id).Stand}
    (hlog : LogOf (.lockPaymentOptions m) x.1.2.session) :
    Sets id (.lockPaymentOptions m) (fun out y => LogOf (.lockPaymentOptions m) y.1.2.session ∧
      ∀ details, out = .ok details → details.paymentMethod.isNone = false →
        y.1.1.method.isSome = true) (s.getDetailedPayment m paymentID) x := by
  have herror : ∀ (e : Err) (t : (setupOf id).Stand), LogOf (.lockPaymentOptions m) t.1.2.session →
      LogOf (.lockPaymentOptions m) t.1.2.session ∧ ∀ details,
        (.error e : Except Err DetailedPayment) = .ok details →
          details.paymentMethod.isNone = false → t.1.1.method.isSome = true :=
    fun _ _ h => ⟨h, fun _ hno => by cases hno⟩
  refine Meets.seq (sets_of_reads getPaymentByID_writes hlog) (fun pt y hy => ?_) herror
  refine Meets.seq (sets_of_reads (.read rfl) hy) (fun mt y hy => ?_) herror
  refine Meets.seq (sets_of_reads (.checked _) hy) (fun _ y hy => ?_) herror
  refine Meets.seq (sets_of_reads ?_ hy) (fun _ y hy => ?_) herror
  · cases pt.customerID with
    | none => exact .ret _
    | some id => exact .bind (.read rfl) fun _ => .checked _
  · refine Meets.bind (Meets.mono ?_ (getPaymentMethodOf_sets hy))
    rintro method z ⟨hzlog, hmethod⟩
    cases method with
    | error e => exact herror e z hzlog
    | ok method =>
      rintro z' ⟨hsame, hleft⟩
      refine ⟨hsame ▸ hzlog, ?_⟩
      rintro details hdetails hshown
      cases hdetails
      cases method with
      | none => cases hshown
      | some tx => exact method_left hleft (hmethod tx rfl)

/-- The lock is put on a payment whose method the call was shown. -/
theorem lockPaymentOptions_sets {id m : Int} {x : (setupOf id).Stand}
    (hlog : LogOf (.lockPaymentOptions m) x.1.2.session) :
    Sets id (.lockPaymentOptions m) (fun _ _ => True) (s.lockPaymentOptions m id) x := by
  refine Meets.bind (Meets.mapError (Meets.mono ?_ (getDetailedPayment_sets hlog)))
  rintro out y ⟨hylog, hdetails⟩
  cases out with
  | error e => exact trivial
  | ok details =>
    dsimp only
    split
    · exact fun _ _ => trivial
    · split
      · exact fun _ _ => trivial
      · rename_i hcomplete
        have hshown : details.paymentMethod.isNone = false := by
          simp only [Bool.or_eq_true, not_or, Bool.not_eq_true] at hcomplete
          exact hcomplete.2
        refine Meets.mono (fun _ _ _ => trivial) (sets_of_issues True
          (issues_of_onlyWrites (.bind (.mapError _ (updatePayment_writes
            (Φ := fun q st => ∃ p, st = .updatePayment p ∧ q = .pool)
            fun p _ _ _ => ⟨p, rfl, rfl⟩)) fun _ => .ret _) ?_ ?_)
          (fun _ => hdetails details rfl hshown) hylog)
        · intro q st hread
          exact ⟨setupStmt_of_read hread, fun _ _ _ => trivial⟩
        · rintro q st ⟨p, rfl, hq⟩
          exact ⟨hq, fun _ _ _ => trivial⟩

theorem optionProgram_sets (id : Int) (l : OptionCall) {x : (setupOf id).Stand}
    (hx : x.1.2.session = .idle) : Sets id l (fun _ _ => True) (s.optionProgram id l) x := by
  have hlog : LogOf l x.1.2.session := by
    intro log hnone
    rw [hx] at hnone
    cases hnone
  cases l with
  | setPaymentMethod p ticker =>
    by_cases heditable : p.isEditable = true
    · refine Meets.mono (fun _ _ _ => trivial)
        (sets_of_writes (OnlyWrites.discard setPaymentMethod_writes) hlog ?_)
      intro q st hst
      cases st with
      | createTransaction c => exact ⟨⟨p, ticker, rfl, heditable⟩, fun _ h => by cases h⟩
      | cancelTransaction c => exact ⟨trivial, fun _ h => by cases h⟩
      | _ => cases hst
    · have hrefused : s.optionProgram id (.setPaymentMethod p ticker) =
          .fail (Err.of .errStatusInvalid) := by
        have hclosed : Payment.isEditable { p with id := id } = false := by
          simpa [Payment.isEditable] using heditable
        show discard (s.setPaymentMethod { p with id := id } ticker) = _
        rw [setPaymentMethod, hclosed]
        rfl
      rw [hrefused]
      exact fun _ _ => trivial
  | lockPaymentOptions m => exact lockPaymentOptions_sets hlog
  | expirePayment =>
    refine Meets.mono (fun _ _ _ => trivial) (sets_of_writes expirePayment_writes hlog ?_)
    intro q st hst
    cases st with
    | updateTransaction c => exact ⟨trivial, fun _ h => by cases h⟩
    | cancelTransaction c => exact ⟨trivial, fun _ h => by cases h⟩
    | updatePayment c =>
      refine ⟨hst.1, ?_⟩
      rintro p hp hlocked
      cases hp
      rcases hst.2 with hstatus | hstatus <;> rw [hlocked] at hstatus <;> cases hstatus
    | _ => cases hst

/-- The payment is not pending, and no call can create a transaction any more. -/
structure Settled (id : Int) (m : Option (Int × String × Option String))
    (cfg : Config Stmt Reply Env World LockKey Err OptionCall) (gs : List SetupNote) : Prop where
  closed : paymentStatus id cfg.world ≠ some .pending
  method : methodOf id cfg.world = m
  shut : ∀ (i : ℕ) (th : Thread Stmt Reply Env World LockKey Err OptionCall) (g : SetupNote),
    cfg.threads[i]? = some th → gs[i]? = some g → ¬ MayCreate th.label g

/-- What a step of the run makes of the payment and its method. -/
theorem methodKept_step {id : Int} {cfg : Config Stmt Reply Env World LockKey Err OptionCall}
    {gs : List SetupNote} {e : Event Env Move OptionCall}
    (hissued : Issued (fun st => methodWrites st) cfg)
    (hpromised : ∀ a ∈ (s.optionSystem id).executing cfg e, ∃ g, gs[a.index]? = some g ∧
      SetsUp id a.thread.label g a.cmd a.env (a.thread.view cfg.world)) :
    MethodKept id (∀ a ∈ (s.optionSystem id).executing cfg e, ∀ g ∈ gs[a.index]?,
      ¬ MayCreate a.thread.label g) cfg.world ((s.optionSystem id).step cfg e).world := by
  cases e with
  | start l => exact .refl _
  | crash i =>
    rw [System.step]
    split
    · exact .refl _
    · exact .refl _
  | move m => exact .of_eq (m.apply_transactions cfg.world) (m.apply_payments cfg.world)
  | exec i env =>
    rcases exec_cases (s.optionSystem id) cfg i env with hs | ⟨th, c, k, hex⟩
    · rw [hs]
      exact .refl _
    · obtain ⟨g, hg, hland⟩ := hpromised _ hex.executing_eq
      obtain ⟨hprog, hlog⟩ := hissued i th hex.here
      rw [hex.calls] at hprog
      have hkept := (setup_steady id th.label g).perform hlog hprog.1 hland
      rw [hex.step_eq]
      exact ⟨hkept.payable, hkept.closed, fun hsettled => hkept.fixed
        (hsettled _ hex.executing_eq g hg)⟩

theorem option_keeper (s : Service) (id : Int) :
    Keeper (s.optionSystem id) methodWrites (fun _ _ => True) (fun _ _ => True) :=
  ⟨fun _ => trivial, fun _ _ => trivial, optionProgram_issues id, fun _ _ _ _ => trivial,
    fun _ _ _ _ => trivial, fun _ _ => trivial⟩

theorem Settled.step {id : Int} {m : Option (Int × String × Option String)}
    {cfg : Config Stmt Reply Env World LockKey Err OptionCall} {gs : List SetupNote}
    {e : Event Env Move OptionCall} (h : Settled id m cfg gs)
    (hlength : gs.length = cfg.threads.length)
    (hissued : Issued (fun st => methodWrites st) cfg)
    (hpromised : ∀ a ∈ (s.optionSystem id).executing cfg e, ∃ g, gs[a.index]? = some g ∧
      SetsUp id a.thread.label g a.cmd a.env (a.thread.view cfg.world)) :
    Settled id m ((s.optionSystem id).step cfg e)
      ((s.optionSystem id).notes (setupOf id) cfg gs e) := by
  have hkept := methodKept_step hissued hpromised
  refine ⟨hkept.closed h.closed, ?_, ?_⟩
  · refine (hkept.fixed ?_).trans h.method
    intro a ha g hg
    obtain ⟨k, -, hex⟩ := executes_of_executing ha
    exact h.shut a.index a.thread g hex.here hg
  · rintro i th g hi hg ⟨hopen, p, ticker, hlabel, heditable⟩
    rcases notes_step_cases hlength hi
      hg with ⟨th', g', hth', hsame, hg', hnote⟩ | ⟨l, -, hl, hnote⟩
    · refine h.shut i th' g' hth' hg' ⟨?_, p, ticker, hsame.trans hlabel, heditable⟩
      rcases hnote with rfl | ⟨a, -, -, rfl⟩
      · exact (Bool.or_eq_false_iff.mp hopen).1
      · -- a choice of method learns nothing new of the payment
        have hafter := (Bool.or_eq_false_iff.mp hopen).1
        rw [hlabel] at hafter
        exact (shut_after_choice p ticker _ _ g').symm.trans hafter
    · rw [hnote, ← hl, hlabel] at hopen
      have hstart := (Bool.or_eq_false_iff.mp hopen).1
      have hstatus : paymentStatus id cfg.world = some p.status := by
        simpa [setupOf, SetupNote.begin] using hstart
      have hpending : p.status = .pending := by simpa [Payment.isEditable] using heditable
      exact h.closed (hstatus.trans (congrArg some hpending))

/-- In every run in which each write is covered by what its call was told, a
locked payment is payable, and from then on its method is the one it was locked
with. -/
theorem locked_payment_is_payable_and_fixed (s : Service) (id : Int) (w : World)
    (hw : LockedPayable id w) (es fs : List (Event Env Move OptionCall))
    (hok : (s.optionSystem id).RunsGrounded (setupOf id) ⟨w, []⟩ [] (es ++ fs)) :
    LockedPayable id ((s.optionSystem id).run ⟨w, []⟩ es).world ∧
      (paymentStatus id ((s.optionSystem id).run ⟨w, []⟩ es).world = some .locked →
        methodOf id ((s.optionSystem id).run ⟨w, []⟩ (es ++ fs)).world =
          methodOf id ((s.optionSystem id).run ⟨w, []⟩ es).world) := by
  have hprogram : ∀ l w', Meets ((setupOf id).setting (s.optionSystem id).engine (SetsUp id) l)
      (fun _ _ => True) ((s.optionSystem id).program l)
      ((setupOf id).stand ((setupOf id).start l w') ⟨w', .idle⟩) :=
    fun l w' => optionProgram_sets id l rfl
  obtain ⟨hes, hfs⟩ := Noted.append.mp hok
  -- up to the lock
  have hreached := Noted.invariant
    (I := fun cfg gs => Relying (s.optionSystem id) (setupOf id) (SetsUp id) cfg gs ∧
      Issued (fun st => methodWrites st) cfg ∧ LockedPayable id cfg.world)
    (fun cfg gs e h hstep => ⟨h.1.step hprogram hstep, (s.option_keeper id).issued h.2.1 e,
      (methodKept_step h.2.1 (h.1.promised hstep)).payable h.2.2⟩)
    hes ⟨relying_of_no_threads w, issued_of_no_threads methodWrites w, hw⟩
  obtain ⟨hrelying, hissued, hpayable⟩ := hreached
  refine ⟨hpayable, ?_⟩
  intro hlocked
  -- and from then on
  have hsettled : Settled id (methodOf id ((s.optionSystem id).run ⟨w, []⟩ es).world)
      ((s.optionSystem id).run ⟨w, []⟩ es)
      ((s.optionSystem id).notesAfter (setupOf id) ⟨w, []⟩ [] es) := by
    refine ⟨?_, rfl, ?_⟩
    · rw [hlocked]
      intro h
      cases h
    · rintro i th g hi hg ⟨hopen, -⟩
      exact (hrelying.counts hi hg).unlocked hopen hlocked
  have hend := Noted.invariant
    (I := fun cfg gs => Relying (s.optionSystem id) (setupOf id) (SetsUp id) cfg gs ∧
      Issued (fun st => methodWrites st) cfg ∧
      Settled id (methodOf id ((s.optionSystem id).run ⟨w, []⟩ es).world) cfg gs)
    (fun cfg gs e h hstep => ⟨h.1.step hprogram hstep, (s.option_keeper id).issued h.2.1 e,
      h.2.2.step h.1.length h.2.1 (h.1.promised hstep)⟩)
    hfs ⟨hrelying, hissued, hsettled⟩
  rw [run_append]
  exact hend.2.2.method

end Service

open Sample

namespace Sample

/-- A second currency to change to. -/
def dollarToken : CryptoCurrency :=
  { ether with type := .token, ticker := "ETH_USDT", name := "Tether" }

def shop : Service := { service with currencies := ⟨[ether, dollarToken], by decide⟩ }

def beingSetUp : World :=
  { Sample.world (invoice .pending none none none) .pending [] [] with
    payments := noMoney.payments.insert { purchase .pending with customerID := some 5 }
    collectors := [⟨"c", 7, "ETH", 1, "collector", true⟩] }

def payment : Payment where
  id := 3
  createdAt := 0
  updatedAt := 0
  expiresAt := none
  type := .payment
  status := .pending
  merchantID := 7
  price := ⟨.fiat, "USD", 5000, 2⟩
  isTest := false
  customerID := some 5
  metadata := []

/-- The customer changes to the token; the price feed answers with `fate`. Then
the options are locked. -/
def changedThenLocked (fate : Fate) : List (Event Env Move OptionCall) :=
  .start (.setPaymentMethod payment "ETH_USDT") ::
    List.replicate 8 (.exec 0 { number := 1, strings := ["ETH_USDT"] }) ++
    .exec 0 { fate := fate, number := 50 } :: List.replicate 20 (.exec 0 { number := 50 }) ++
    .start (.lockPaymentOptions 7) :: List.replicate 12 (.exec 1 {})

/-- The same choice again, made of the payment as it was before. -/
def chosenAgain : List (Event Env Move OptionCall) :=
  .start (.setPaymentMethod payment "ETH_USDT") ::
    List.replicate 10 (.exec 2 { number := 1, strings := ["ETH_USDT"] })

end Sample

theorem locked_payment_is_payable_and_fixed_sample :
    paymentStatus 3 ((shop.optionSystem 3).run ⟨beingSetUp, []⟩ (changedThenLocked .done)).world =
        some .locked ∧
      LockedPayable 3
        ((shop.optionSystem 3).run ⟨beingSetUp, []⟩ (changedThenLocked .done)).world ∧
      (paymentStatus 3
          ((shop.optionSystem 3).run ⟨beingSetUp, []⟩ (changedThenLocked .done)).world =
            some .locked →
        methodOf 3 ((shop.optionSystem 3).run ⟨beingSetUp, []⟩
            (changedThenLocked .done ++ chosenAgain)).world =
          methodOf 3
            ((shop.optionSystem 3).run ⟨beingSetUp, []⟩ (changedThenLocked .done)).world) :=
  ⟨by decide +kernel, shop.locked_payment_is_payable_and_fixed 3 beingSetUp (by decide +kernel)
    (changedThenLocked .done) chosenAgain (by decide +kernel)⟩

/-- The change has cancelled the old transaction when the price feed fails; the
lock finds a payment method and looks no further. -/
theorem locked_without_open_transaction :
    ¬ ∀ (s : Service) (id : Int) (w : World), LockedPayable id w →
      ∀ es fs : List (Event Env Move OptionCall),
        LockedPayable id ((s.optionSystem id).run ⟨w, []⟩ es).world ∧
        (paymentStatus id ((s.optionSystem id).run ⟨w, []⟩ es).world = some .locked →
          methodOf id ((s.optionSystem id).run ⟨w, []⟩ (es ++ fs)).world =
            methodOf id ((s.optionSystem id).run ⟨w, []⟩ es).world) := by
  intro h
  have hkept := (h shop 3 beingSetUp (by decide +kernel) (changedThenLocked .refused) []).1
  revert hkept
  decide +kernel

end CryptoLink
