import CryptoLink.Alone
import CryptoLink.Library.Reliance
import CryptoLink.Repository.Listings
import CryptoLink.Repository.Replies

/-!
# Final transaction statuses

`updateTransaction` and `cancelTransaction` select by id alone, so nothing in
the database keeps a final row final. What keeps it is what the calls have
looked at: some look at the status between reading the row and writing it, and
none of them looks again. A final row therefore stays as it is in those runs in
which every call writes it on a reading that is still good.
-/

namespace CryptoLink

open ReadCommitted StatementPrograms System

/-- The row is absent or still open. -/
def Unfinished : Option TransactionRow → Prop
  | none => True
  | some r => r.status.isFinalized = false

instance : DecidablePred Unfinished := fun o =>
  match o with
  | none => inferInstanceAs (Decidable True)
  | some _ => inferInstanceAs (Decidable (_ = _))

/-- A final row is still there, with its status and its received amount. -/
def KeepsFinal (before after : Option TransactionRow) : Prop :=
  ∀ r ∈ before, r.status.isFinalized = true →
    ∃ r' ∈ after, r'.status = r.status ∧ r'.factAmount = r.factAmount

instance (before after : Option TransactionRow) : Decidable (KeepsFinal before after) :=
  inferInstanceAs (Decidable (∀ r ∈ before, r.status.isFinalized = true →
    ∃ r' ∈ after, r'.status = r.status ∧ r'.factAmount = r.factAmount))

/-- What a call was last told of a row, or what was there when it started, and
whether an open row has become final since. -/
structure Told where
  status : Option Transaction.Status
  overtaken : Bool
  deriving DecidableEq, Repr

/-- The row `id`, if an answer shows it. -/
def Stmt.shows (id : Int) : (st : Stmt) → Reply st → Option TransactionRow
  | .getTransactionByID .., r => r.toOption.filter fun row => row.id = id
  | .getLatestTransactionByPaymentID _, r => r.toOption.filter fun row => row.id = id
  | .getTransactionsByFilter _, r => r.toOption.bind fun rows => rows.find? fun row => row.id = id
  | _, _ => none

/-- A final status which the call itself has looked for on the row before it
writes it: the poller goes on with a transaction in progress and the webhook
resolver with a pending one, expiry and a change of method leave a cancelled
one alone, and a confirmation one of its own status. -/
def Operation.looksFor : Operation → Stmt → Transaction.Status → Bool
  | .checkIncoming _, .cancelTransaction _, _ => true
  | .detected _, .cancelTransaction _, _ => true
  | .expirePayment _, .cancelTransaction _, status => status = .cancelled
  | .setPaymentMethod .., .cancelTransaction _, status => status = .cancelled
  | _, .updateTransaction p, status => p.status = status
  | _, _, _ => false

/-- The statement writes the status and the received amount that are there. -/
def Stmt.repeats (r : TransactionRow) : Stmt → Bool
  | .updateTransaction p => r.status = p.status && r.factAmount = p.factAmount
  | .cancelTransaction p => r.status = p.status
  | _ => false

/-- What a call was told is no obstacle to its write: no final status but one it
has looked for, and nothing has made the row final since. -/
def Told.permits (g : Told) (l : Operation) (st : Stmt) : Prop :=
  g.overtaken = false ∧ ∀ status ∈ g.status, status.isFinalized = true →
    l.looksFor st status = true

instance (g : Told) (l : Operation) (st : Stmt) : Decidable (g.permits l st) :=
  inferInstanceAs (Decidable (g.overtaken = false ∧ ∀ status ∈ g.status,
    status.isFinalized = true → l.looksFor st status = true))

/-- A call that reaches the row repeats what is there, or writes on what it was
told. -/
def WritesAsTold (id : Int) (l : Operation) (g : Told) (c : Cmd Stmt) (env : Env)
    (v : View Stmt Env World LockKey) : Prop :=
  ∀ entry ∈ engine.entry c env v, .transaction id ∈ engine.locks entry.stmt entry.env entry.seen →
    ∀ r ∈ transactionRow id v.world, entry.stmt.repeats r = true ∨ g.permits l entry.stmt

instance (id : Int) (l : Operation) (g : Told) (c : Cmd Stmt) (env : Env)
    (v : View Stmt Env World LockKey) : Decidable (WritesAsTold id l g c env v) :=
  inferInstanceAs (Decidable (∀ entry ∈ engine.entry c env v,
    .transaction id ∈ engine.locks entry.stmt entry.env entry.seen →
    ∀ r ∈ transactionRow id v.world, entry.stmt.repeats r = true ∨ g.permits l entry.stmt))

/-- A reading replaces what the call was told before. -/
def Told.after (id : Int) (c : Cmd Stmt) (r : Answer Reply c) (g : Told) : Told :=
  match c, r with
  | .stmt _ st, r =>
    match st.shows id r with
    | some row => ⟨some row.status, false⟩
    | none => g
  | _, _ => g

/-- An open status is counted on until the row becomes final. -/
def Told.counts (id : Int) (g : Told) (w : World) : Prop :=
  g.overtaken = false → (∀ status ∈ g.status, status.isFinalized = false) →
    Unfinished (transactionRow id w)

/-- A row that has become final overtakes whoever was told it was open. -/
def Told.mind (id : Int) (w : World) (g : Told) : Told :=
  { g with overtaken := g.overtaken || (!g.status.any Transaction.Status.isFinalized &&
      !decide (Unfinished (transactionRow id w))) }

/-- What the calls are told of the row `id`. -/
def toldOf (id : Int) : Reliance Stmt Reply Env World LockKey Operation Told where
  start _ w := ⟨(transactionRow id w).map TransactionRow.status, false⟩
  after _ c r _ g := g.after id c r
  mind := Told.mind id
  counts := Told.counts id
  admits := WritesAsTold id
  counts_mind w g := by
    intro hfresh hopen
    simp only [Told.mind, Bool.or_eq_false_iff, Bool.and_eq_false_iff, Bool.not_eq_false',
      decide_eq_true_eq] at hfresh
    rcases hfresh.2 with hfinal | hrow
    · cases hstatus : g.status with
      | none =>
        rw [hstatus] at hfinal
        cases hfinal
      | some status =>
        rw [hstatus, Option.any_some, hopen status hstatus] at hfinal
        cases hfinal
    · exact hrow

instance (id : Int) (l : Operation) (g : Told) (c : Cmd Stmt) (env : Env)
    (v : View Stmt Env World LockKey) : Decidable ((toldOf id).admits l g c env v) :=
  inferInstanceAs (Decidable (WritesAsTold id l g c env v))

/-- The row is open, or the statement repeats what is there. -/
def FindsOpen (id : Int) (_ : Operation) (_ : Told) (c : Cmd Stmt) (env : Env)
    (v : View Stmt Env World LockKey) : Prop :=
  ∀ entry ∈ engine.entry c env v, .transaction id ∈ engine.locks entry.stmt entry.env entry.seen →
    Unfinished (transactionRow id v.world) ∨
      ∃ r ∈ transactionRow id v.world, entry.stmt.repeats r = true

section Calls

variable {id : Int} {l : Operation} {α β : Type}

/-- What is left of a call, told what it was told, finds the row open whenever
it writes it. -/
abbrev Heeds (id : Int) (l : Operation)
    (Q : Except Err α → (toldOf id).Stand → Prop) (p : Call α) (x : (toldOf id).Stand) : Prop :=
  Meets ((toldOf id).setting engine (FindsOpen id) l) Q p x

theorem findsOpen_of_permitted {c : Cmd Stmt} {env : Env} {v : View Stmt Env World LockKey}
    {g : Told} (hcounts : g.counts id v.world) (hadm : WritesAsTold id l g c env v)
    (hlooked : ∀ entry ∈ engine.entry c env v,
      .transaction id ∈ engine.locks entry.stmt entry.env entry.seen →
      ∀ status ∈ g.status, status.isFinalized = true → l.looksFor entry.stmt status = false) :
    FindsOpen id l g c env v := by
  intro entry he hkey
  cases hrow : transactionRow id v.world with
  | none => exact .inl trivial
  | some r =>
    rcases hadm entry he hkey r hrow with hrepeats | ⟨hfresh, hseen⟩
    · exact .inr ⟨r, rfl, hrepeats⟩
    · -- the note is good, and the status on it is open
      have hopen : ∀ status ∈ g.status, status.isFinalized = false := by
        intro status hstatus
        cases hfinal : status.isFinalized with
        | false => rfl
        | true =>
          have hno := hlooked entry he hkey status hstatus hfinal
          rw [hseen status hstatus hfinal] at hno
          cases hno
      exact .inl (hrow ▸ hcounts hfresh hopen)

/-- The call looks for no final status before it makes the statement. -/
def Unasked (l : Operation) (_ : Conn) (st : Stmt) : Prop :=
  ∀ status, status.isFinalized = true → l.looksFor st status = false

/-- What a call writes without having looked at the row, it writes on what it
was told only. -/
theorem heeds_of_writes {p : Call α} {x : (toldOf id).Stand} (hp : OnlyWrites (Unasked l) p) :
    Heeds id l (fun _ _ => True) p x := by
  refine Reliance.meets_of_issues (J := fun _ _ => True) (fun _ _ _ _ => trivial)
    (fun _ _ _ _ _ _ => trivial) ?_ hp trivial
  intro c hc g env v hcounts _ hadm
  refine findsOpen_of_permitted hcounts hadm ?_
  intro entry he hkey status _ hfinal
  have hchanges : entry.stmt.changes ≠ none := by
    rw [changes_of_transaction_lock hkey]
    exact Option.some_ne_none _
  cases c with
  | stmt q st =>
    cases q <;> cases he <;> exact hc _ st rfl hchanges status hfinal
  | _ => cases he

/-- A statement that tells of transaction rows. -/
def Stmt.tells : Stmt → Bool
  | .getTransactionByID .. => true
  | .getLatestTransactionByPaymentID _ => true
  | .getTransactionsByFilter _ => true
  | _ => false

theorem after_of_silent {q : Conn} {st : Stmt} (h : st.tells = false)
    (r : Answer Reply (.stmt q st)) (g : Told) : g.after id (.stmt q st) r = g := by
  have hshows : st.shows id r = none := by
    cases st <;> first
      | rfl
      | cases h
  simp only [Told.after, hshows]

/-- The call tells nothing of a transaction row and changes none. -/
def Silent (c : Cmd Stmt) : Prop :=
  ∀ q st, c = .stmt q st → st.tells = false ∧ st.changes ≠ some .transactions

/-- The call tells nothing of a transaction row, and what it writes is not
looked for on a row it was told of as in `J`. -/
def Keeping (id : Int) (l : Operation) (J : Option Transaction.Status → Prop) (c : Cmd Stmt) :
    Prop :=
  ∀ q st, c = .stmt q st → st.tells = false ∧
    ∀ env w, .transaction id ∈ engine.locks st env w → ∀ told, J told → ∀ status ∈ told,
      status.isFinalized = true → l.looksFor st status = false

variable {J : Option Transaction.Status → Prop}

theorem heeds_keeping {p : Call α} {x : (toldOf id).Stand} (hp : Issues (Keeping id l J) p)
    (hx : J x.1.1.status) : Heeds id l (fun _ y => J y.1.1.status) p x := by
  refine Reliance.meets_of_issues (J := fun (g : Told) _ => J g.status)
    (fun _ _ _ h => h) ?_ ?_ hp hx
  · intro c hc env v g hg
    cases c with
    | stmt q st =>
      have hsame : (toldOf id).after l (.stmt q st) (engine.perform (.stmt q st) env v).1 v g = g :=
        after_of_silent (hc q st rfl).1 _ g
      rw [hsame]
      exact hg
    | _ => exact hg
  · intro c hc g env v hcounts hg hadm
    refine findsOpen_of_permitted hcounts hadm ?_
    intro entry he hkey status hstatus hfinal
    cases c with
    | stmt q st =>
      cases q <;> cases he <;>
        exact (hc _ st rfl).2 env _ hkey g.status hg status hstatus hfinal
    | _ => cases he

theorem keeping_of_silent {p : Call α} (hp : Issues Silent p) : Issues (Keeping id l J) p := by
  refine hp.mono ?_
  intro c hc q st hst
  refine ⟨(hc q st hst).1, ?_⟩
  intro env w hkey
  exact absurd (changes_of_transaction_lock hkey) (hc q st hst).2

/-- What a silent call leaves untold stays as it is. -/
theorem heeds_silent {p : Call α} {x : (toldOf id).Stand} (hp : Issues Silent p)
    (hx : J x.1.1.status) : Heeds id l (fun _ y => J y.1.1.status) p x :=
  heeds_keeping (keeping_of_silent hp) hx

theorem silent_ask {q : Conn} {st : Stmt} (htells : st.tells = false)
    (hchanges : st.changes ≠ some .transactions) : Issues Silent (ask q st) := by
  refine (Issues.ask_iff _).mpr ?_
  rintro q' st' he
  cases he
  exact ⟨htells, hchanges⟩

/-- A reading: its answer comes from the tables of some moment, and the call has
been told what it shows. -/
theorem read_heeds {q : Conn} {st : Stmt} {f : Reply st → Except Err β}
    {x : (toldOf id).Stand} (hread : st.changes = none) :
    Heeds id l (fun out y => ∃ env w, out = f (engine.reply st env w) ∧
      ∀ row, st.shows id (engine.reply st env w) = some row → y.1.1.status = some row.status)
      ((ask q st).bind fun r => succeed (f r)) x := by
  refine Reliance.ask_bind ?_ ?_
  · intro g v env _ _ _ _ entry he hkey
    have hlocks := changes_of_transaction_lock hkey
    cases q <;> cases he <;> rw [hread] at hlocks <;> cases hlocks
  · intro g v env _ _ _ _
    have hreply : ∃ w, (engine.perform (.stmt q st) env v).1 = engine.reply st env w := by
      obtain ⟨w, txn, kept⟩ := v
      cases q with
      | pool => exact ⟨_, rfl⟩
      | tx => cases txn <;> exact ⟨_, rfl⟩
    obtain ⟨w, hw⟩ := hreply
    refine Meets.ofExcept ?_
    rintro y ⟨-, hy⟩
    refine ⟨env, w, by rw [hw], ?_⟩
    intro row hrow
    have hafter : (g.after id (.stmt q st) (engine.perform (.stmt q st) env v).1).status =
        some row.status := by
      rw [hw]
      simp only [Told.after, hrow]
    exact Reliance.Left.keeps (Z := toldOf id) (J := fun g : Told => g.status = some row.status)
      (fun _ _ h => h) hy hafter

theorem silent_timeNow : Issues Silent timeNow := silent_ask rfl (by simp [Stmt.changes])

theorem keeping_of_call {c : Cmd Stmt} (h : ∀ q st, c ≠ .stmt q st) :
    Issues (Keeping id l J) (Prog.ask c : Prog (Cmd Stmt) (Answer Reply) Err (Answer Reply c)) :=
  (Issues.ask_iff _).mpr fun q st hst => absurd hst (h q st)

theorem keeping_runTx {body : Call β} (hbody : Issues (Keeping id l J) body) :
    Issues (Keeping id l J) (runTx body) := by
  refine Issues.bind (keeping_of_call fun _ _ h => by cases h) fun opened => ?_
  split
  · refine Issues.bind (Issues.attempt hbody) fun outcome => ?_
    cases outcome with
    | error e => exact Issues.bind (keeping_of_call fun _ _ h => by cases h) fun _ => trivial
    | ok a =>
      refine Issues.bind (keeping_of_call fun _ _ h => by cases h) fun committed => ?_
      split <;> exact trivial
  · exact trivial

theorem id_of_cancel_lock {p : CancelTransactionParams} {env : Env} {w : World}
    (h : .transaction id ∈ engine.locks (.cancelTransaction p) env w) : p.id = id := by
  simp only [engine_locks, World.locks] at h
  split at h
  · cases h
  · split at h
    · simpa using (List.mem_singleton.mp h).symm
    · cases h

theorem id_of_update_lock {p : UpdateTransactionParams} {env : Env} {w : World}
    (h : .transaction id ∈ engine.locks (.updateTransaction p) env w) : p.id = id := by
  simp only [engine_locks, World.locks] at h
  split at h
  · cases h
  · split at h
    · simpa using (List.mem_singleton.mp h).symm
    · cases h

theorem looksFor_update {p : UpdateTransactionParams} {status : Transaction.Status}
    (h : status ≠ p.status) : l.looksFor (.updateTransaction p) status = false := by
  cases l <;> exact decide_eq_false h.symm

theorem unasked_ledger (tx : Transaction) : Service.AllowsLedger (Unasked l) .tx tx := by
  refine ⟨⟨fun p status _ => ?_, fun p status _ => ?_⟩,
    fun now key comment op amount m _ status _ => ?_⟩
  · cases l <;> rfl
  · cases l <;> rfl
  · cases l <;> rfl

/-- A call that is no statement writes no row. -/
theorem heeds_call {c : Cmd Stmt} {f : Answer Reply c → Call β} {x : (toldOf id).Stand}
    (hc : ∀ q st, c ≠ .stmt q st) (hf : ∀ r y, Heeds id l (fun _ _ => True) (f r) y) :
    Heeds id l (fun _ _ => True) ((Prog.ask c).bind f) x := by
  refine Reliance.ask_bind ?_ fun g v env _ _ _ _ => hf _ _
  intro g v env _ _ _ _ entry he _
  cases c with
  | stmt q st => exact absurd rfl (hc q st)
  | _ => cases he

/-- A database transaction around a body that does as it was told. -/
theorem runTx_heeds {body : Call β} {x : (toldOf id).Stand}
    (hbody : ∀ y, Heeds id l (fun _ _ => True) body y) :
    Heeds id l (fun _ _ => True) (runTx body) x := by
  refine heeds_call (fun _ _ h => by cases h) fun opened y => ?_
  split
  · refine Meets.bind (Meets.attempt (Meets.mono ?_ (hbody y)))
    intro out z _
    cases out with
    | error e => exact heeds_call (fun _ _ h => by cases h) fun _ _ => fun _ _ => trivial
    | ok a =>
      refine heeds_call (fun _ _ h => by cases h) fun committed z => ?_
      split <;> exact fun _ _ => trivial
  · exact fun _ _ => trivial

/-- The call has been told of the row what the transaction says. -/
def ToldAs (id : Int) (tx : Transaction) (told : Option Transaction.Status) : Prop :=
  tx.id = id → told = some tx.status

namespace Service

variable {s : Service}

theorem status_of_toTransaction {x : Except Err TransactionRow} {tx : Transaction}
    (h : s.toTransaction x = .ok tx) : ∃ row, x = .ok row ∧ tx.id = row.id ∧
      tx.status = row.status := by
  obtain ⟨row, hrow, hentry⟩ := toTransaction_eq_ok s h
  obtain ⟨currency, fee, -, -, rfl⟩ := entryToTransaction_eq_ok s hentry
  exact ⟨row, hrow, rfl, rfl⟩

theorem getTransaction_heeds {q : Conn} {m txID : Int} {x : (toldOf id).Stand} :
    Heeds id l (fun out y => ∀ tx, out = .ok tx → tx.id = txID ∧ ToldAs id tx y.1.1.status)
      (s.getTransaction q m txID) x := by
  refine Meets.mono ?_ (read_heeds rfl)
  rintro out y ⟨env, w, rfl, hshown⟩ tx htx
  obtain ⟨row, hrow, hid, hstatus⟩ := status_of_toTransaction htx
  have hkey : row.id = txID := (KeyedTables.Table.get_eq_some (reply_getTransactionByID hrow)).2
  refine ⟨hid.trans hkey, ?_⟩
  intro htold
  rw [hstatus]
  refine hshown row ?_
  simp only [Stmt.shows, hrow, Except.toOption, Option.filter_some]
  exact if_pos (by simpa using hid.symm.trans htold)

theorem getLatestByPaymentID_heeds {paymentID : Int} {x : (toldOf id).Stand} :
    Heeds id l (fun out y => ∀ tx, out = .ok tx → ToldAs id tx y.1.1.status)
      (s.getLatestByPaymentID paymentID) x := by
  refine Meets.mono ?_ (read_heeds rfl)
  rintro out y ⟨env, w, rfl, hshown⟩ tx htx htold
  obtain ⟨row, hrow, hid, hstatus⟩ := status_of_toTransaction htx
  rw [hstatus]
  refine hshown row ?_
  simp only [Stmt.shows, hrow, Except.toOption, Option.filter_some]
  exact if_pos (by simpa using hid.symm.trans htold)

/-- Every transaction of a listing of pending ones is pending. -/
theorem listByFilter_heeds {f : Filter} {limit : ℕ} {x : (toldOf id).Stand}
    (hf : f.statuses = [.pending]) :
    Heeds id l (fun out y => ∀ txs, out = .ok txs → ∀ tx ∈ txs,
      tx.status = .pending ∧ ToldAs id tx y.1.1.status) (s.listByFilter f limit) x := by
  refine Meets.mono ?_ (read_heeds rfl)
  rintro out y ⟨env, w, rfl, hshown⟩ txs htxs tx htx
  obtain ⟨rows, hr, htxs⟩ : ∃ rows, engine.reply (.getTransactionsByFilter (f.toRepo limit)) env w =
      .ok rows ∧ rows.mapM s.entryToTransaction = .ok txs := by
    cases hr : engine.reply (.getTransactionsByFilter (f.toRepo limit)) env w with
    | error e =>
      rw [hr] at htxs
      cases htxs
    | ok rows =>
      rw [hr] at htxs
      exact ⟨rows, rfl, htxs⟩
  obtain ⟨row, hrow, hentry⟩ := row_of_mapM htxs htx
  obtain ⟨currency, fee, -, -, rfl⟩ := entryToTransaction_eq_ok s hentry
  have hpending : ∀ row ∈ rows, row.status = .pending := by
    intro row hrow
    rw [reply_getTransactionsByFilter hr, World.mem_getTransactionsByFilter] at hrow
    have hmatches := hrow.1.2
    simp only [World.matchesFilter, Filter.toRepo, hf, Bool.and_eq_true] at hmatches
    simpa using hmatches.1.1.2
  refine ⟨hpending row hrow, ?_⟩
  intro htold
  -- the call was told of some row with this id, and it too is pending
  cases hfound : rows.find? fun row => decide (row.id = id) with
  | none =>
    have hno := List.find?_eq_none.mp hfound row hrow
    exact absurd (decide_eq_true htold) hno
  | some shown =>
    have hshows : Stmt.shows id (.getTransactionsByFilter (f.toRepo limit))
        (engine.reply (.getTransactionsByFilter (f.toRepo limit)) env w) = some shown := by
      simp only [Stmt.shows, hr]
      exact hfound
    rw [hshown shown hshows, hpending shown (List.mem_of_find?_eq_some hfound)]
    exact congrArg some (hpending row hrow).symm

theorem openInvoices_heeds {collectorAddress : String} {x : (toldOf id).Stand} :
    Heeds id l (fun out y => ∀ invoices, out = .ok invoices → ∀ inv ∈ invoices,
      inv.status = .pending ∧ ToldAs id inv y.1.1.status) (s.openInvoices collectorAddress) x := by
  refine Meets.mapError (Meets.mono ?_ (listByFilter_heeds rfl))
  intro out y hout
  cases out with
  | error e =>
    intro invoices hinvoices
    cases hinvoices
  | ok invoices => exact hout

/-- A cancellation of a row in the status the call was told of. -/
theorem cancel_heeds {tx : Transaction} {status : Transaction.Status} {reason : String}
    {x : (toldOf id).Stand} (hx : ToldAs id tx x.1.1.status)
    (hlooked : tx.status.isFinalized = true → ∀ p,
      l.looksFor (.cancelTransaction p) tx.status = false) :
    Heeds id l (fun _ y => ToldAs id tx y.1.1.status) (cancel tx status reason) x := by
  refine heeds_keeping (keeping_runTx (Issues.bind (keeping_of_silent silent_timeNow) fun now =>
    Issues.bind ((Issues.ask_iff _).mpr ?_) fun done => Issues.ofExcept _)) hx
  rintro q st he
  cases he
  refine ⟨rfl, ?_⟩
  intro env w hkey told htold st hst hfinal
  have hid : tx.id = id := id_of_cancel_lock hkey
  rw [htold hid] at hst
  obtain rfl : tx.status = st := Option.some.inj hst
  exact hlooked hfinal _

theorem confirm_heeds {m txID : Int} {params : ConfirmTransaction} {x : (toldOf id).Stand} :
    Heeds id l (fun _ _ => True) (s.confirm m txID params) x := by
  refine Meets.ofExcept_bind (fun _ _ => runTx_heeds fun y => ?_) fun _ _ _ _ => trivial
  refine Meets.bind (Meets.mono ?_ getTransaction_heeds)
  intro out z hz
  cases out with
  | error e => exact trivial
  | ok tx =>
    obtain ⟨hid, htold⟩ := hz tx rfl
    dsimp only
    split
    · exact fun _ _ => trivial
    · rename_i hsame
      refine Meets.seq (J := fun z : (toldOf id).Stand => ToldAs id tx z.1.1.status)
        (heeds_silent silent_timeNow htold) (fun now z htold => ?_) fun _ _ _ => trivial
      -- the row was told of in another status than the one it is given now
      refine Meets.seq (J := fun _ => True) (Meets.mono (fun _ _ _ => trivial)
        (heeds_keeping (J := ToldAs id tx) ((Issues.ask_iff _).mpr ?_) htold))
        (fun entry z _ => heeds_of_writes ?_) fun _ _ _ => trivial
      · rintro q st he
        cases he
        refine ⟨rfl, ?_⟩
        intro env w hkey told htold st hst hfinal
        have hrow : txID = id := id_of_update_lock hkey
        rw [htold (hid.trans hrow)] at hst
        obtain rfl : tx.status = st := Option.some.inj hst
        exact looksFor_update hsame
      · refine .bind (.checked _) fun updated => .bind (.mapError _ ?_) fun _ => .ret _
        exact updateBalancesAfterTxConfirmation_writes (unasked_ledger _)

/-- A cancellation that ends a call. -/
theorem cancel_heeds_last {tx : Transaction} {status : Transaction.Status} {reason : String}
    {x : (toldOf id).Stand} (hx : ToldAs id tx x.1.1.status)
    (hlooked : tx.status.isFinalized = true → ∀ p,
      l.looksFor (.cancelTransaction p) tx.status = false) :
    Heeds id l (fun _ _ => True) (cancel tx status reason) x :=
  Meets.mono (fun _ _ _ => trivial) (cancel_heeds hx hlooked)

theorem unasked_of_other {q : Conn} {st : Stmt} (h : st.changes ≠ some .transactions) :
    Unasked l q st := by
  intro status _
  cases st <;> first
    | exact absurd rfl h
    | (cases l <;> rfl)

theorem unasked_of_create {q : Conn} {p : CreateTransactionParams} :
    Unasked l q (.createTransaction p) := by
  intro status _
  cases l <;> rfl

/-- `Receive` never writes a final status, so it looks for none. -/
theorem unasked_of_receive {q : Conn} {p : UpdateTransactionParams}
    (h : p.status = .inProgress ∨ p.status = .inProgressInvalid) :
    Unasked l q (.updateTransaction p) := by
  intro status hfinal
  refine looksFor_update ?_
  rintro rfl
  rcases h with h | h <;> rw [h] at hfinal <;> cases hfinal

theorem optionWrites_unasked {q : Conn} {st : Stmt}
    (hl : ∀ p status, l.looksFor (.cancelTransaction p) status = false) (h : optionWrites q st) :
    Unasked l q st := by
  cases st with
  | createTransaction p => exact unasked_of_create
  | cancelTransaction p => exact fun status _ => hl p status
  | _ => cases h

theorem inboundWrites_unasked {q : Conn} {st : Stmt} (h : anyInboundWrites q st) :
    Unasked l q st := by
  obtain ⟨tx, input, hwrites⟩ := h
  cases st with
  | updateTransaction p => exact unasked_of_receive hwrites.2.2.2
  | createTransaction p => exact unasked_of_create
  | cancelTransaction p => cases hwrites
  | _ => exact unasked_of_other (by simp [Stmt.changes])

theorem processInbound_heeds {tx : Transaction} {input : Input} {x : (toldOf id).Stand} :
    Heeds id l (fun _ _ => True) (s.processInboundTransaction tx input) x :=
  heeds_of_writes (processInboundTransaction_writes_any.mono fun _ _ h => inboundWrites_unasked h)

/-- What was told in the first part is known in the second, whatever name the
first gives its errors. -/
theorem heeds_told {γ : Type} {p : Call β} {f : Err → Err} {k : β → Call γ}
    {T : β → (toldOf id).Stand → Prop} {x : (toldOf id).Stand}
    (hp : Heeds id l (fun out y => ∀ a, out = .ok a → T a y) p x)
    (hk : ∀ a y, T a y → Heeds id l (fun _ _ => True) (k a) y) :
    Heeds id l (fun _ _ => True) ((p.mapError f).bind k) x := by
  refine Meets.bind (Meets.mapError (Meets.mono ?_ hp))
  intro out y hout
  cases out with
  | error e => exact trivial
  | ok a => exact hk a y (hout a rfl)

/-- A first part of which nothing is known. -/
theorem heeds_then {γ : Type} {p : Call β} {k : β → Call γ} {x : (toldOf id).Stand}
    (hp : Heeds id l (fun _ _ => True) p x)
    (hk : ∀ a y, Heeds id l (fun _ _ => True) (k a) y) :
    Heeds id l (fun _ _ => True) (p.bind k) x :=
  Meets.seq (J := fun _ => True) hp (fun a y _ => hk a y) fun _ _ _ => trivial

theorem heeds_mapError {p : Call β} {f : Err → Err} {x : (toldOf id).Stand}
    (hp : Heeds id l (fun _ _ => True) p x) : Heeds id l (fun _ _ => True) (p.mapError f) x := by
  refine Meets.mapError (Meets.mono ?_ hp)
  intro out y _
  cases out <;> exact trivial

theorem payment_unasked {m pid : Int} {status : Payment.Status} :
    OnlyWrites (Unasked l) (updatePayment m pid status) :=
  updatePayment_writes fun _ _ _ _ => unasked_of_other (by simp [Stmt.changes])

theorem createIncoming_heeds {pt : Payment} {fee : Bool} {c : CryptoCurrency}
    {x : (toldOf id).Stand} :
    Heeds id l (fun _ _ => True) (s.createIncomingTransaction pt fee c) x := by
  refine heeds_of_writes (createIncomingTransaction_writes.mono fun q st h => ?_)
  cases st with
  | createTransaction p => exact unasked_of_create
  | _ => cases h

theorem getTransactionReceipt_silent {b : Blockchain} {hash : String} {isTest : Bool} :
    Issues Silent (s.getTransactionReceipt b hash isTest) := by
  refine Issues.bind (Issues.ofExcept _) fun coin => ?_
  split
  · exact trivial
  · refine Issues.bind (silent_ask rfl (by simp [Stmt.changes])) fun fetched => ?_
    exact Issues.bind (Issues.ofExcept _) fun _ => trivial

theorem confirmIncoming_heeds {tx : Transaction} {sender hash : String}
    {receipt : TransactionReceipt} {x : (toldOf id).Stand} :
    Heeds id l (fun _ _ => True) (s.confirmIncomingTransaction tx sender hash receipt) x := by
  unfold confirmIncomingTransaction
  split
  · exact fun _ _ => trivial
  · refine heeds_then (heeds_mapError confirm_heeds) fun confirmed y => heeds_of_writes ?_
    split
    · exact .ret _
    · refine .bind (.mapError _ getPaymentByID_writes) fun pt => ?_
      refine .bind (.mapError _ payment_unasked) fun _ => ?_
      split
      · exact .bind (.read rfl) fun _ => .ret _
      · exact .ret _

/-- The poller goes on with a transaction it has been told is in progress. -/
theorem cancelIncoming_heeds {tx : Transaction} {x : (toldOf id).Stand}
    (hx : ToldAs id tx x.1.1.status) (hopen : tx.isInProgress = true) :
    Heeds id l (fun _ _ => True) (cancelIncomingTransaction tx) x := by
  refine heeds_then (heeds_mapError (cancel_heeds_last hx ?_)) fun _ y => heeds_of_writes ?_
  · intro hfinal
    unfold Transaction.isInProgress Transaction.Status.isInProgress at hopen
    cases hstatus : tx.status <;>
      simp [hstatus, Transaction.Status.isFinalized] at hopen hfinal
  · split
    · exact .ret _
    · exact .bind (.mapError _ payment_unasked) fun _ => .ret _

theorem settle_heeds {tx : Transaction} {sender hash : String}
    {receipt : Except Err TransactionReceipt} {x : (toldOf id).Stand}
    (hx : ToldAs id tx x.1.1.status) (hopen : tx.isInProgress = true) :
    Heeds id l (fun _ _ => True) (s.settle tx sender hash receipt) x := by
  unfold settle
  split
  · refine Meets.seq (heeds_silent silent_timeNow hx) (fun now y hy => ?_) fun _ _ _ => trivial
    split
    · exact cancelIncoming_heeds hy hopen
    · exact fun _ _ => trivial
  · split
    · split
      · exact confirmIncoming_heeds
      · exact cancelIncoming_heeds hx hopen
    · refine Meets.seq (heeds_silent silent_timeNow hx) (fun now y hy => ?_) fun _ _ _ => trivial
      split
      · exact cancelIncoming_heeds hy hopen
      · exact fun _ _ => trivial

theorem checkIncoming_heeds {txID : Int} {x : (toldOf id).Stand} :
    Heeds id l (fun _ _ => True) (s.checkIncomingTransaction txID) x := by
  refine heeds_told getTransaction_heeds fun tx y hy => ?_
  split
  · exact fun _ _ => trivial
  · split
    · exact fun _ _ => trivial
    · split
      · exact fun _ _ => trivial
      · split
        · exact fun _ _ => trivial
        · split
          · rename_i hopen
            refine Meets.seq (heeds_silent (Issues.attempt getTransactionReceipt_silent) hy.2)
              (fun receipt z hz => ?_) fun _ _ _ => trivial
            exact settle_heeds hz hopen
          · exact fun _ _ => trivial

/-- Expiry and a change of method leave a cancelled transaction alone. -/
def MindsCancelled (l : Operation) : Prop :=
  ∀ p status, status ≠ .cancelled → l.looksFor (.cancelTransaction p) status = false

theorem cancelUnlessCancelled_heeds {tx : Option Transaction} {reason message : String}
    {x : (toldOf id).Stand} (hl : MindsCancelled l)
    (hx : ∀ tx' ∈ tx, ToldAs id tx' x.1.1.status) :
    Heeds id l (fun _ _ => True) (cancelUnlessCancelled tx reason message) x := by
  unfold cancelUnlessCancelled
  split
  · exact fun _ _ => trivial
  · rename_i tx
    split
    · exact fun _ _ => trivial
    · rename_i hopen
      exact heeds_mapError (cancel_heeds_last (hx tx rfl) fun _ p => hl p _ hopen)

theorem failPayment_heeds {pt : Payment} {x : (toldOf id).Stand} {f : Err → Err} :
    Heeds id l (fun _ _ => True) ((failPayment pt).mapError f) x :=
  heeds_of_writes (.mapError _ (failPayment_writes fun _ _ _ _ =>
    unasked_of_other (by simp [Stmt.changes])))

theorem expireUnpaid_heeds {pt : Payment} {tx : Option Transaction} {x : (toldOf id).Stand}
    (hl : MindsCancelled l) (hx : ∀ tx' ∈ tx, ToldAs id tx' x.1.1.status) :
    Heeds id l (fun _ _ => True) (expireUnpaid pt tx) x :=
  heeds_then (cancelUnlessCancelled_heeds hl hx) fun _ _ => failPayment_heeds

theorem confirmedSumOrZero_silent {tx : Transaction} : Issues Silent (confirmedSumOrZero tx) := by
  refine Issues.bind (Issues.attempt ?_) fun sum => ?_
  · refine Issues.bind (silent_ask rfl (by simp [Stmt.changes])) fun r => ?_
    exact Issues.bind (Issues.ofExcept _) fun _ => trivial
  · split <;> exact trivial

theorem inGracePeriod_silent {pt : Payment} {tx : Option Transaction} :
    Issues Silent (inGracePeriod pt tx) := by
  unfold inGracePeriod
  split
  · split
    · exact Issues.bind silent_timeNow fun _ => trivial
    · exact trivial
  · exact trivial

theorem expirePartial_heeds {pt : Payment} {tx : Option Transaction} {x : (toldOf id).Stand}
    (hl : MindsCancelled l) (hx : ∀ tx' ∈ tx, ToldAs id tx' x.1.1.status) :
    Heeds id l (fun _ _ => True) (s.expirePartial pt tx) x := by
  cases tx with
  | none => exact expireUnpaid_heeds hl hx
  | some tx =>
    refine Meets.seq (heeds_silent confirmedSumOrZero_silent (hx tx rfl)) (fun total y hy => ?_)
      fun _ _ _ => trivial
    split
    · refine expireUnpaid_heeds hl ?_
      rintro tx' htx'
      cases htx'
      exact hy
    · refine heeds_of_writes (.bind (markUnderpaidTransaction_writes fun p hs => ?_) fun _ => ?_)
      · exact unasked_of_receive (.inr hs)
      · exact .bind (.mapError _ payment_unasked) fun _ => .ret _

theorem findLatestByPaymentID_heeds {paymentID : Int} {x : (toldOf id).Stand} :
    Heeds id l (fun out y => ∀ tx, out = .ok (some tx) → ToldAs id tx y.1.1.status)
      (s.findLatestByPaymentID paymentID) x := by
  refine Meets.bind (Meets.attempt (Meets.mono ?_ getLatestByPaymentID_heeds))
  intro found y hy
  cases found with
  | ok tx =>
    rintro z ⟨-, hz⟩ tx' htx'
    cases htx'
    exact Reliance.Left.keeps (Z := toldOf id) (J := fun g : Told => ToldAs id tx g.status)
      (fun _ _ h => h) hz (hy tx rfl)
  | error e =>
    dsimp only
    split
    · rintro z - tx' htx'
      cases htx'
    · rintro z - tx' htx'
      cases htx'

theorem expirePayment_heeds {paymentID : Int} {x : (toldOf id).Stand} (hl : MindsCancelled l) :
    Heeds id l (fun _ _ => True) (s.expirePayment paymentID) x := by
  refine heeds_then (heeds_of_writes (.mapError _ getPaymentByID_writes)) fun pt y => ?_
  split
  · exact fun _ _ => trivial
  · split
    · exact fun _ _ => trivial
    · refine Meets.bind (Meets.mono ?_ findLatestByPaymentID_heeds)
      intro found z hz
      cases found with
      | error e => exact trivial
      | ok tx =>
        have htold : ∀ tx' ∈ tx, ToldAs id tx' z.1.1.status := by
          intro tx' htx'
          exact hz tx' (congrArg Except.ok htx')
        refine Meets.seq (J := fun z : (toldOf id).Stand => ∀ tx' ∈ tx, ToldAs id tx' z.1.1.status)
          (heeds_silent (J := fun told => ∀ tx' ∈ tx, ToldAs id tx' told)
            inGracePeriod_silent htold)
          (fun waiting z hz => ?_) fun _ _ _ => trivial
        split
        · exact fun _ _ => trivial
        · split
          · exact expirePartial_heeds hl hz
          · exact heeds_then (cancelUnlessCancelled_heeds hl hz) fun _ _ => failPayment_heeds

theorem chooseMethod_heeds {p : Payment} {fee : Bool} {c : CryptoCurrency} {x : (toldOf id).Stand}
    (hl : MindsCancelled l) : Heeds id l (fun _ _ => True) (s.chooseMethod p fee c) x := by
  refine Meets.bind (Meets.attempt (Meets.mono ?_ getLatestByPaymentID_heeds))
  intro found y hy
  cases found with
  | error e =>
    dsimp only
    split
    · exact createIncoming_heeds
    · exact fun _ _ => trivial
  | ok tx =>
    dsimp only
    split
    · exact createIncoming_heeds
    · rename_i hopen
      split
      · exact fun _ _ => trivial
      · unfold changePaymentMethod
        split
        · exact fun _ _ => trivial
        · refine heeds_then (heeds_mapError (cancel_heeds_last (hy tx rfl) fun _ q => ?_))
            fun _ _ => createIncoming_heeds
          exact hl q _ hopen

theorem withLock_heeds {e : Err} {st : Stmt} {body : Call β} {x : (toldOf id).Stand}
    (hbody : ∀ y, Heeds id l (fun _ _ => True) body y) :
    Heeds id l (fun _ _ => True) (withLock e st body) x := by
  refine heeds_call (fun _ _ h => by cases h) fun kept y => ?_
  split
  · refine heeds_then (Meets.attempt (Meets.mono (fun _ _ _ => trivial) (hbody y)))
      fun outcome z => ?_
    refine heeds_call (fun _ _ h => by cases h) fun _ z => Meets.ofExcept fun _ _ => trivial
  · exact fun _ _ => trivial

theorem setPaymentMethod_heeds {p : Payment} {ticker : String} {x : (toldOf id).Stand}
    (hl : MindsCancelled l) :
    Heeds id l (fun _ _ => True) (s.setPaymentMethod p ticker) x := by
  unfold setPaymentMethod
  split
  · exact fun _ _ => trivial
  · refine heeds_then (heeds_of_writes (.read rfl)) fun mt y => ?_
    refine heeds_then (heeds_of_writes (.checked _)) fun fee y => ?_
    refine heeds_then (heeds_of_writes (.mapError _ ?_)) fun currency y => ?_
    · refine .bind (.checked _) fun currency => .bind (.read rfl) fun supported => ?_
      refine .bind (.checked _) fun enabled => ?_
      split
      · exact .ret _
      · exact .fail _
    · refine heeds_then (Meets.attempt (Meets.mono (fun _ _ _ => trivial)
        (withLock_heeds fun z => Meets.attempt (Meets.mono (fun _ _ _ => trivial)
          (chooseMethod_heeds hl))))) fun outcome z => ?_
      split <;> exact fun _ _ => trivial

theorem getPaymentByID_silent {m pid : Int} : Issues Silent (getPaymentByID m pid) :=
  Issues.bind (silent_ask rfl (by simp [Stmt.changes])) fun _ => Issues.ofExcept _

theorem invoicePrices_silent {invoices : List Transaction} :
    Issues Silent (invoicePrices invoices) := by
  induction invoices with
  | nil => exact trivial
  | cons inv rest ih =>
    refine Issues.bind (Issues.mapError _ getPaymentByID_silent) fun pt => ?_
    exact Issues.bind ih fun _ => trivial

theorem cryptoToFiatFloat_silent {amount : Money} {fiat : String} :
    Issues Silent (cryptoToFiatFloat amount fiat) := by
  refine Issues.bind (Issues.ofExcept _) fun cur => ?_
  refine Issues.bind (silent_ask rfl (by simp [Stmt.changes])) fun conv => ?_
  exact Issues.bind (Issues.ofExcept _) fun _ => Issues.ofExcept _

theorem usdAmountOf_silent {price : Money} : Issues Silent (usdAmountOf price) :=
  Issues.bind (silent_ask rfl (by simp [Stmt.changes])) fun _ => trivial

theorem create_keeping {m : Int} {c : CreateTransaction} :
    Issues (Keeping id l J) (s.create m c) := by
  refine Issues.bind (Issues.ofExcept _) fun _ => Issues.bind (Issues.ofExcept _) fun coin => ?_
  refine Issues.bind (keeping_of_silent silent_timeNow) fun now => ?_
  refine Issues.bind (keeping_runTx (Issues.bind ((Issues.ask_iff _).mpr ?_) fun _ =>
    Issues.ofExcept _)) fun entry => Issues.ofExcept _
  rintro q st he
  cases he
  exact ⟨rfl, fun env w _ _ _ status _ hfinal => unasked_of_create (q := .tx) status hfinal⟩

theorem autoAccept_heeds {inv : Transaction} {c : CryptoCurrency} {amount : Money}
    {network : String} {p : UnmatchedCollectorPayment} {x : (toldOf id).Stand}
    (hx : ToldAs id inv x.1.1.status)
    (hlooked : inv.status.isFinalized = true → ∀ p,
      l.looksFor (.cancelTransaction p) inv.status = false) :
    Heeds id l (fun _ _ => True) (s.autoAcceptCrossCurrency inv c amount network p) x := by
  refine Meets.seq (heeds_silent (Issues.mapError _ getPaymentByID_silent) hx)
    (fun pt y hy => ?_) fun _ _ _ => trivial
  refine Meets.seq (heeds_silent usdAmountOf_silent hy) (fun usd y hy => ?_) fun _ _ _ => trivial
  refine Meets.seq (heeds_keeping (Issues.mapError _ create_keeping) hy) (fun newTx y hy => ?_)
    fun _ _ _ => trivial
  refine heeds_then (Meets.attempt (cancel_heeds_last hy hlooked)) fun _ y => ?_
  exact processInbound_heeds

theorem resolveUnmatched_heeds {p : UnmatchedCollectorPayment} {x : (toldOf id).Stand} :
    Heeds id l (fun _ _ => True) (s.resolveUnmatchedCollectorPayment p) x := by
  unfold resolveUnmatchedCollectorPayment
  split
  · exact fun _ _ => trivial
  · split
    · exact fun _ _ => trivial
    · split
      · exact fun _ _ => trivial
      · refine heeds_then (heeds_of_writes (.attempt getByHashAndRecipient_writes))
          fun existing y => ?_
        split
        · exact fun _ _ => trivial
        · refine Meets.bind (Meets.mono ?_ openInvoices_heeds)
          intro listed z hz
          cases listed with
          | error e => exact trivial
          | ok invoices =>
            have hlisted : ∀ inv ∈ invoices, inv.status = .pending ∧
                ToldAs id inv z.1.1.status := hz invoices rfl
            refine Meets.seq (J := fun z : (toldOf id).Stand => ∀ inv ∈ invoices,
              inv.status = .pending ∧ ToldAs id inv z.1.1.status)
              (heeds_silent (J := fun told => ∀ inv ∈ invoices, inv.status = .pending ∧
                ToldAs id inv told) invoicePrices_silent hlisted)
              (fun prices z hz => ?_) fun _ _ _ => trivial
            refine Meets.seq (J := fun z : (toldOf id).Stand => ∀ inv ∈ invoices,
              inv.status = .pending ∧ ToldAs id inv z.1.1.status)
              (heeds_silent (J := fun told => ∀ inv ∈ invoices, inv.status = .pending ∧
                ToldAs id inv told) (Issues.attempt cryptoToFiatFloat_silent) hz)
              (fun valued z hz => ?_) fun _ _ _ => trivial
            split
            · exact fun _ _ => trivial
            · split
              · exact fun _ _ => trivial
              · split
                · exact fun _ _ => trivial
                · split
                  · exact fun _ _ => trivial
                  · split
                    · exact fun _ _ => trivial
                    · rename_i inv hinv
                      obtain ⟨hpending, htold⟩ := hz inv (List.mem_of_getElem? hinv)
                      refine autoAccept_heeds htold ?_
                      intro hfinal
                      rw [hpending] at hfinal
                      cases hfinal

theorem detected_heeds {d : DetectedTransfer} {x : (toldOf id).Stand} :
    Heeds id l (fun _ _ => True) (s.dedupOnDetected d) x := by
  refine heeds_then (heeds_of_writes (.attempt getByHashAndRecipient_writes)) fun existing y => ?_
  split
  · exact fun _ _ => trivial
  · refine heeds_then (heeds_of_writes (.attempt fillExistsByHashAndRecipient_writes))
      fun fillExists y => ?_
    split
    · exact fun _ _ => trivial
    · unfold onDetected
      split
      · exact processInbound_heeds
      · exact resolveUnmatched_heeds

/-- Every call looks at what it is told, as far as the source has it look. -/
theorem program_heeds (l : Operation) (x : (toldOf id).Stand) :
    Heeds id l (fun _ _ => True) (s.program l) x := by
  have hdiscard : ∀ {α : Type} {p : Call α}, Heeds id l (fun _ _ => True) p x →
      Heeds id l (fun _ _ => True) (discard p) x := fun h =>
    Meets.seq h (fun _ _ _ _ _ => trivial) fun _ _ _ => trivial
  cases l with
  | receive m txID params =>
    exact heeds_of_writes (.discard (receive_writes fun h _ _ => unasked_of_receive h))
  | confirm m txID params => exact hdiscard confirm_heeds
  | cancel tx status reason =>
    exact heeds_of_writes (cancel_writes fun _ _ _ _ _ => rfl)
  | processInbound tx input => exact processInbound_heeds
  | adminReconcileFill paymentID hash raw sender =>
    exact heeds_of_writes (adminReconcileFill_writes.mono fun _ _ h => inboundWrites_unasked h)
  | checkIncoming txID => exact checkIncoming_heeds
  | expirePayment paymentID =>
    exact expirePayment_heeds fun _ _ h => decide_eq_false h
  | recheckPartialFills =>
    refine heeds_of_writes (recheckPartialFills_writes.mono fun q st h => ?_)
    cases st with
    | markFillReorged key => exact unasked_of_other (by simp [Stmt.changes])
    | _ => cases h
  | lockPaymentOptions m paymentID =>
    exact heeds_of_writes (lockPaymentOptions_writes fun _ _ _ _ =>
      unasked_of_other (by simp [Stmt.changes]))
  | setPaymentMethod p ticker =>
    exact hdiscard (setPaymentMethod_heeds fun _ _ h => decide_eq_false h)
  | changePaymentMethod p fee tx currency =>
    refine heeds_of_writes (.discard (changePaymentMethod_writes.mono fun q st h => ?_))
    exact optionWrites_unasked (fun _ _ => rfl) h
  | resolvePayment m paymentID =>
    refine heeds_of_writes
      (.discard (resolvePayment_writes (fun _ _ _ => ?_) ⟨fun _ => ?_, fun _ => ?_⟩
      ⟨fun _ => ?_, fun _ => ?_⟩ fun _ _ _ _ => ?_)) <;>
      exact unasked_of_other (by simp [Stmt.changes])
  | declinePayment m paymentID =>
    exact heeds_of_writes (.discard (declinePayment_writes fun _ _ _ =>
      unasked_of_other (by simp [Stmt.changes])))
  | receiveWebhook network wallet body signature wh =>
    exact heeds_of_writes (receiveWebhook_writes.mono fun _ _ h => inboundWrites_unasked h)
  | detected d => exact detected_heeds
  | autoAcceptCrossCurrency inv currency amount network p =>
    refine heeds_of_writes (autoAcceptCrossCurrency_writes.mono fun q st h => ?_)
    rcases h with hoption | hinbound
    · exact optionWrites_unasked (fun _ _ => rfl) hoption
    · exact inboundWrites_unasked hinbound

end Service

end Calls

/-- What a final row keeps. -/
def closing (id : Int) (w : World) : Option (Transaction.Status × Option Int) :=
  (transactionRow id w).map fun r => (r.status, r.factAmount)

theorem closing_framed (id : Int) : Framed engine (closing id) (.transaction id) where
  effect s env seen w hlock :=
    congrArg (Option.map _) ((transaction_framed id).effect s env seen w hlock)
  lasting s env w := congrArg (Option.map _) ((transaction_framed id).lasting s env w)

/-- A statement that repeats what is there leaves it there. -/
theorem leaves_of_repeats {id : Int} {entry : Entry Stmt Env World} {r : TransactionRow}
    (h : entry.stmt.repeats r = true) :
    Leaves (closing id) engine entry (some (r.status, r.factAmount)) := by
  intro w hw
  obtain ⟨row, hrow, hsame⟩ := Option.map_eq_some_iff.mp hw
  by_cases hf : entry.env.fate = .refused
  · rw [engine_effect, if_pos hf]
    exact hw
  · rw [engine_effect, if_neg hf]
    have hget : w.transactions.get id = some row := hrow
    rcases World.transaction_effect_cases entry.stmt entry.env entry.seen w id with
      hkept | ⟨p, hst, -, -, hafter⟩ | ⟨p, hst, -, -, hafter⟩ | ⟨p, -, -, -, hnone, -⟩
    · exact (congrArg (Option.map _) hkept).trans hw
    · rw [hst] at h
      simp only [Stmt.repeats, Bool.and_eq_true, decide_eq_true_eq] at h
      rw [closing, transactionRow, hafter, hget]
      simp only [Option.map_some, World.updatedTransaction, h.1, h.2]
    · rw [hst] at h
      simp only [Stmt.repeats, decide_eq_true_eq] at h
      rw [closing, transactionRow, hafter, hget]
      have hstatus : p.status = row.status := h.symm.trans (congrArg Prod.fst hsame).symm
      simp only [Option.map_some, World.cancelledTransaction, hstatus]
      exact congrArg some hsame
    · rw [hget] at hnone
      cases hnone

/-- No open status. -/
def Closed (x : Option (Transaction.Status × Option Int)) : Prop :=
  ∃ y ∈ x, y.1.isFinalized = true

namespace Service

variable (s : Service)

theorem move_closing (id : Int) (m : Move) (w : World) :
    closing id (s.system.move m w) = closing id w :=
  congrArg (fun t => (KeyedTables.Table.get t id).map fun r : TransactionRow =>
    (r.status, r.factAmount)) (Move.apply_transactions m w)

/-- In a grounded run no statement closes or changes a row that is final. -/
theorem spares_final (w : World) (id : Int) (es : Run)
    (hok : s.system.RunsGrounded (toldOf id) ⟨w, []⟩ [] es) :
    s.system.Along (Spares s.system (closing id) (.transaction id) fun x => ¬ Closed x)
      ⟨w, []⟩ es := by
  have hprogram : ∀ l w, Meets ((toldOf id).setting s.system.engine (FindsOpen id) l)
      (fun _ _ => True) (s.system.program l)
      ((toldOf id).stand ((toldOf id).start l w) ⟨w, .idle⟩) := fun l _ => program_heeds l _
  refine (relied hprogram (relying_of_no_threads w) hok).along ?_
  rintro cfg gs e ⟨-, hpromised⟩ a ha entry he hkey
  obtain ⟨g, -, hfinds⟩ := hpromised a ha
  rcases hfinds entry he hkey with hopen | ⟨r, hr, hrepeats⟩
  · left
    rintro ⟨y, hy, hfinal⟩
    obtain ⟨row, hrow, rfl⟩ := Option.map_eq_some_iff.mp hy
    have hrow' : transactionRow id (a.thread.view cfg.world).world = some row := hrow
    rw [hrow'] at hopen
    rw [show row.status.isFinalized = false from hopen] at hfinal
    cases hfinal
  · right
    have hclosing : closing id cfg.world = some (r.status, r.factAmount) := by
      have hr' : transactionRow id cfg.world = some r := hr
      rw [closing, hr', Option.map_some]
    rw [hclosing]
    exact leaves_of_repeats hrepeats

/-- In a run whose steps rest on readings of the row that are still good, a final
row keeps its status and its amount from then on. -/
theorem finalized_transaction_kept (w : World) (id : Int) (es fs : Run)
    (hok : s.system.RunsGrounded (toldOf id) ⟨w, []⟩ [] (es ++ fs)) :
    KeepsFinal (transactionRow id (s.system.run ⟨w, []⟩ es).world)
      (transactionRow id (s.system.run ⟨w, []⟩ (es ++ fs)).world) := by
  obtain ⟨hes, hfs⟩ := Along.append s.system |>.mp (s.spares_final w id _ hok)
  have hspared : Spared s.system (closing id) (.transaction id) (fun x => ¬ Closed x)
      (s.system.run ⟨w, []⟩ es) :=
    Along.invariant s.system
      (fun _ _ h hstep => h.step (closing_framed id) (s.move_closing id) hstep) hes
      (spared_of_no_threads w)
  intro r hr hfinal
  have hclosing : closing id (s.system.run ⟨w, []⟩ es).world = some (r.status, r.factAmount) := by
    rw [closing, show transactionRow id (s.system.run ⟨w, []⟩ es).world = some r from hr,
      Option.map_some]
  have hsame := hspared.frozen (closing_framed id) (s.move_closing id) hfs
    fun hopen => hopen ⟨_, hclosing, hfinal⟩
  rw [run_append]
  rw [hclosing] at hsame
  obtain ⟨r', hr', hpair⟩ := Option.map_eq_some_iff.mp hsame
  exact ⟨r', hr', congrArg Prod.fst hpair, congrArg Prod.snd hpair⟩

end Service

open Sample

def awaitingReceipt : World :=
  Sample.world (invoice .inProgress (some "0xh") (some "payer") (some 100)) .inProgress
    [fill "0xh" 100 0 .confirmed] [mined "0xh" 100 true]

/-- Two pollers read the transaction in progress and get its receipt; the second
finds it confirmed by the first. -/
def polledTwice : Run :=
  .start (.checkIncoming 1) :: .start (.checkIncoming 1) :: steps 0 2 ++ steps 1 2 ++ steps 0 30

theorem finalized_transaction_kept_sample :
    (∃ r ∈ transactionRow 1 (service.system.run ⟨awaitingReceipt, []⟩ polledTwice).world,
      r.status = .completed) ∧
    KeepsFinal
      (transactionRow 1 (service.system.run ⟨awaitingReceipt, []⟩ polledTwice).world)
      (transactionRow 1 (service.system.run ⟨awaitingReceipt, []⟩
        (polledTwice ++ steps 1 30)).world) :=
  ⟨by decide +kernel, service.finalized_transaction_kept awaitingReceipt 1 _ _
    (by decide +kernel)⟩

def paid : World :=
  Sample.world (invoice .completed (some "0xh") (some "payer") (some 100)) .success
    [fill "0xh" 100 0 .confirmed] [mined "0xh" 100 true]

/-- A reconciliation repeated after the transaction was completed. -/
def reconciledAgain : Run :=
  .start (.adminReconcileFill 3 "0xh" "100" "") :: steps 0 30

theorem finalized_transaction_reopened :
    ¬ ∀ (s : Service) (w : World) (id : Int) (es fs : Run),
      KeepsFinal (transactionRow id (s.system.run ⟨w, []⟩ es).world)
        (transactionRow id (s.system.run ⟨w, []⟩ (es ++ fs)).world) := by
  intro h
  have hkept := h Sample.service paid 1 [] reconciledAgain
  revert hkept
  decide +kernel

end CryptoLink
