import CryptoLink.Alone
import CryptoLink.Repository.Replies

/-!
# The reorg recheck

A fill past the grace period is given up on any failed lookup and on any
receipt below the threshold, so the recheck is as reliable as its lookups.
-/

namespace CryptoLink

open ReadCommitted StatementPrograms KeyedTables

/-- One tick of the recheck: what has changed since the last one, and what its
steps are answered. -/
structure RecheckRun where
  before : World → World
  envs : ℕ → Env

/-- The lookup of a mined transaction is answered, and it lies deep enough. -/
def LookupHolds (c : Cmd Stmt) (env : Env) (v : View Stmt Env World LockKey) : Prop :=
  ∀ b h t mined, c = .stmt .pool (.fetchTransaction b h t) →
    v.world.findChainTx b h t = some mined →
      env.fate = .done ∧ ∃ required ∈ requiredConfirmations b, required ≤ mined.confirmations
where
  requiredConfirmations := Service.requiredConfirmations

namespace Service

variable (s : Service)

/-- The transaction of a fill is in the canonical chain. -/
def OnChain (w : World) (key : FillKey) : Prop :=
  ∃ row tx, transactionRow key.transactionID w = some row ∧ s.entryToTransaction row = .ok tx ∧
    (w.findChainTx tx.currency.blockchain key.transactionHash tx.isTest).isSome

/-- A confirmed fill that is reorged in `after` had left the chain of `w`. -/
def MarkedOnlyOffChain (w after : World) : Prop :=
  ∀ key f f', w.fills.get key = some f → f.status = .confirmed →
    after.fills.get key = some f' → f'.status = .reorged → ¬ s.OnChain w key

def afterRecheck (w : World) (envs : ℕ → Env) : World := worldAfter s.recheckPartialFills envs w

/-- A chain with a coin and a number of confirmations of its own. -/
def SupportedChain (b : Blockchain) : Prop :=
  (∃ coin, s.currencies.getNativeCoin b = .ok coin) ∧ (requiredConfirmations b).isSome

/-- Every invoice is on a supported chain, and every lookup of a transaction
that is mined finds it deep enough. -/
structure ReliableLookups (w : World) (envs : ℕ → Env) : Prop where
  supported : ∀ row ∈ w.transactions.rows, ∀ tx, s.entryToTransaction row = .ok tx →
    s.SupportedChain tx.currency.blockchain
  lookups : engine.Calls LookupHolds envs s.recheckPartialFills 0 ⟨w, .idle⟩

/-- `P` holds of every run of the list in the world it finds. -/
def EachRun (P : World → (ℕ → Env) → Prop) : World → List RecheckRun → Prop
  | _, [] => True
  | w, r :: rs => P (r.before w) r.envs ∧ EachRun P (s.afterRecheck (r.before w) r.envs) rs

/-- The state of a run that started in `w₀`. -/
structure Rechecked (w₀ w : World) : Prop where
  chain : w.chain = w₀.chain
  transactions : w.transactions = w₀.transactions
  marked : s.MarkedOnlyOffChain w₀ w

variable {s} {w₀ w : World} {envs : ℕ → Env} {n : ℕ}

theorem rechecked_self : s.Rechecked w₀ w₀ := by
  refine ⟨rfl, rfl, ?_⟩
  intro key f f' hf hconfirmed hf' hreorged
  obtain rfl : f = f' := Option.some.inj (hf.symm.trans hf')
  rw [hconfirmed] at hreorged
  cases hreorged

theorem autocommit_mark_eq (key : FillKey) (env : Env) (w : World) :
    engine.autocommit (.markFillReorged key) env w = w ∨
      engine.autocommit (.markFillReorged key) env w =
        { w with fills := w.fills.modify key World.reorgedFill World.reorgedFill_key } := by
  have hlasting : engine.lasting (.markFillReorged key) env w = w := by
    rw [engine_lasting]
    split <;> rfl
  rw [Engine.autocommit, engine_effect, hlasting]
  split
  · exact .inl rfl
  · simp only [World.effect]
    split
    · exact .inl rfl
    · exact .inr rfl

/-- Marking a fill whose transaction is gone. -/
theorem Rechecked.mark {key : FillKey} {env : Env} (h : s.Rechecked w₀ w)
    (hgone : ¬ s.OnChain w₀ key) :
    s.Rechecked w₀ (engine.autocommit (.markFillReorged key) env w) := by
  rcases autocommit_mark_eq key env w with hsame | hnew
  · rw [hsame]
    exact h
  · rw [hnew]
    refine ⟨h.chain, h.transactions, ?_⟩
    intro key' f f' hf hconfirmed hf' hreorged
    by_cases hkey : key' = key
    · rw [hkey]
      exact hgone
    · have hother : w.fills.get key' = some f' := by
        rw [← hf']
        exact (Table.get_modify_of_ne w.fills World.reorgedFill World.reorgedFill_key hkey).symm
      exact h.marked key' f f' hf hconfirmed hother hreorged

theorem findChainTx_congr {w w' : World} (h : w.chain = w'.chain) (b : Blockchain) (hash : String)
    (t : Bool) : w.findChainTx b hash t = w'.findChainTx b hash t := by
  unfold World.findChainTx
  rw [h]

/-- A lookup that holds is answered with a confirmed receipt. -/
theorem receipt_of_lookup {b : Blockchain} {hash : String} {t : Bool}
    {v : View Stmt Env World LockKey} (hsupported : s.SupportedChain b)
    (hcalls : engine.Calls LookupHolds envs (s.getTransactionReceipt b hash t) n v)
    (hmined : (v.world.findChainTx b hash t).isSome) :
    offChain (engine.alone envs (s.getTransactionReceipt b hash t) n v).1 = false := by
  obtain ⟨⟨coin, hcoin⟩, hrequired⟩ := hsupported
  obtain ⟨required, hreq⟩ := Option.isSome_iff_exists.mp hrequired
  obtain ⟨mined, hfound⟩ := Option.isSome_iff_exists.mp hmined
  have hprog : s.getTransactionReceipt b hash t =
      (ask .pool (.fetchTransaction b hash t)).bind fun fetched =>
        (succeed fetched).bind fun c => .ret {
          sender := c.sender
          hash := hash
          networkFee := coin.makeAmountFromBigInt c.networkFee
          success := c.success
          confirmations := c.confirmations
          isConfirmed := decide (required ≤ c.confirmations) } := by
    unfold getTransactionReceipt
    rw [hcoin, hreq]
    rfl
  rw [hprog] at hcalls ⊢
  obtain ⟨hlookup, -⟩ := hcalls
  obtain ⟨hdone, required', hreq', hdeep⟩ := hlookup b hash t mined rfl hfound
  have hval : required' = required := Option.some.inj (hreq'.symm.trans hreq)
  have hreply : engine.reply (.fetchTransaction b hash t) (envs n) v.world = .ok mined := by
    show answered (envs n).fate Err.remote _ = _
    simp only [answered, hdone, if_true, hfound]
  rw [Engine.alone_bind]
  obtain ⟨w, x⟩ := v
  rw [alone_read (.fetchTransaction b hash t) rfl]
  simp only [hreply, Engine.alone_bind, succeed, Engine.alone_ofExcept, Engine.alone_ret, offChain]
  simp [← hval, hdeep]

theorem alone_mark (key : FillKey) :
    (engine.alone envs (((markFillReorged key).attempt).bind fun _ => .ret ()) n
      ⟨w, .idle⟩ : Except Err Unit × ℕ × View Stmt Env World LockKey) =
      (.ok (), n + 1, ⟨engine.autocommit (.markFillReorged key) (envs n) w, .idle⟩) := by
  rw [Engine.alone_bind, Engine.alone_attempt]
  unfold markFillReorged
  rw [Prog.bind_eq, Engine.alone_bind, alone_pool]
  simp only [succeed, Engine.alone_ofExcept, Engine.alone_ret]

theorem recheckFill_keeps {tx : Transaction} {now : Int} {f : Fill} (h : s.Rechecked w₀ w)
    (hsupported : s.SupportedChain tx.currency.blockchain)
    (hchain : s.OnChain w₀ f.id →
      (w₀.findChainTx tx.currency.blockchain f.id.transactionHash tx.isTest).isSome)
    (hcalls : engine.Calls LookupHolds envs (s.recheckFill tx now f) n ⟨w, .idle⟩) :
    ∃ n' w', engine.alone envs (s.recheckFill tx now f) n ⟨w, .idle⟩ = (.ok (), n', ⟨w', .idle⟩) ∧
      s.Rechecked w₀ w' := by
  unfold recheckFill at hcalls ⊢
  by_cases hstatus : f.status ≠ .confirmed
  · simp only [if_pos hstatus]
    exact ⟨n, w, rfl, h⟩
  · by_cases hyoung : now - f.observedAt < reorgGracePeriod
    · simp only [if_neg hstatus, if_pos hyoung]
      exact ⟨n, w, rfl, h⟩
    · simp only [if_neg hstatus, if_neg hyoung, Prog.bind_eq] at hcalls ⊢
      -- the lookup reads; what it says decides between the mark and nothing
      have hreads : OnlyReads (s.getTransactionReceipt tx.currency.blockchain f.id.transactionHash
          tx.isTest) := getTransactionReceipt_reads
      have hview := hreads.alone_view envs n ⟨w, .idle⟩
      rw [Engine.calls_bind, Engine.calls_attempt] at hcalls
      rw [Engine.alone_bind, Engine.alone_attempt]
      by_cases hoff : offChain (engine.alone envs (s.getTransactionReceipt tx.currency.blockchain
          f.id.transactionHash tx.isTest) n ⟨w, .idle⟩).1 = true
      · have hgone : ¬ s.OnChain w₀ f.id := by
          intro hon
          have hmined := hchain hon
          rw [← findChainTx_congr h.chain] at hmined
          have hfalse := receipt_of_lookup hsupported hcalls.1 hmined
          rw [hfalse] at hoff
          cases hoff
        simp only [if_pos hoff, hview]
        exact ⟨_, _, alone_mark f.id, h.mark hgone⟩
      · simp only [if_neg hoff, hview]
        exact ⟨_, w, rfl, h⟩

theorem each_keeps {γ : Type} {p : γ → Call Unit} {xs : List γ}
    (hstep : ∀ x ∈ xs, ∀ n w, s.Rechecked w₀ w → engine.Calls LookupHolds envs (p x) n ⟨w, .idle⟩ →
      ∃ n' w', engine.alone envs (p x) n ⟨w, .idle⟩ = (.ok (), n', ⟨w', .idle⟩) ∧
        s.Rechecked w₀ w')
    (h : s.Rechecked w₀ w) (hcalls : engine.Calls LookupHolds envs (Prog.each p xs) n ⟨w, .idle⟩) :
    ∃ n' w', engine.alone envs (Prog.each p xs) n ⟨w, .idle⟩ = (.ok (), n', ⟨w', .idle⟩) ∧
      s.Rechecked w₀ w' := by
  induction xs generalizing n w with
  | nil => exact ⟨n, w, rfl, h⟩
  | cons x xs ih =>
    simp only [Prog.each] at hcalls ⊢
    rw [Engine.calls_bind] at hcalls
    obtain ⟨hx, hrest⟩ := hcalls
    obtain ⟨n', w', hrun, hkept⟩ := hstep x List.mem_cons_self n w h hx
    rw [hrun] at hrest
    rw [Engine.alone_bind, hrun]
    refine ih (fun y hy => hstep y (List.mem_cons_of_mem _ hy)) hkept ?_
    exact hrest () rfl

theorem recheckTransaction_keeps {now txID : Int} (h : s.Rechecked w₀ w)
    (hsupported : ∀ row ∈ w₀.transactions.rows, ∀ tx, s.entryToTransaction row = .ok tx →
      s.SupportedChain tx.currency.blockchain)
    (hcalls : engine.Calls LookupHolds envs (s.recheckTransaction now txID) n ⟨w, .idle⟩) :
    ∃ n' w', engine.alone envs (s.recheckTransaction now txID) n ⟨w, .idle⟩ =
      (.ok (), n', ⟨w', .idle⟩) ∧ s.Rechecked w₀ w' := by
  unfold recheckTransaction at hcalls ⊢
  simp only [Prog.bind_eq, Engine.calls_bind, Engine.alone_bind, Engine.alone_attempt,
    alone_getTransactionByID] at hcalls ⊢
  have hrest := hcalls.2 _ rfl
  cases hfound : s.toTransaction (engine.reply (.getTransactionByID txID
      Transaction.merchantIDWildcard false) (envs n) w) with
  | error e => exact ⟨n + 1, w, rfl, h⟩
  | ok tx =>
    obtain ⟨row, hreply, htx⟩ := s.toTransaction_eq_ok hfound
    have hrow : w₀.transactions.get txID = some row := by
      rw [← h.transactions]
      exact reply_getTransactionByID hreply
    have hid : tx.id = txID := by
      obtain ⟨currency, fee, -, -, rfl⟩ := entryToTransaction_eq_ok s htx
      exact (Table.get_eq_some hrow).2
    simp only [hfound, Engine.calls_bind, Engine.alone_bind, Engine.alone_attempt,
      alone_listFills] at hrest ⊢
    have hrest := hrest.2 _ rfl
    cases hlist : engine.reply (.listTransactionFills tx.id) (envs (n + 1)) w with
    | error e => exact ⟨n + 2, w, by simp [wrapErr, Except.mapError, Except.map], h⟩
    | ok rows =>
      simp only [hlist, wrapErr_ok, Except.map] at hrest ⊢
      refine each_keeps ?_ h hrest
      intro f hf n w hkept hx
      obtain ⟨r, hr, rfl⟩ := List.mem_map.mp hf
      have hkey := (reply_listTransactionFills hlist hr).2
      refine recheckFill_keeps hkept (hsupported row (Table.get_eq_some hrow).1 tx htx) ?_ hx
      -- every listed fill belongs to the transaction that was read
      rintro ⟨row', tx', hrow', htx', hmined⟩
      have hsame : row' = row := by
        have hkey' : (fillFromRepo tx r).id.transactionID = txID := hkey.trans hid
        rw [transactionRow, hkey', hrow] at hrow'
        exact (Option.some.inj hrow').symm
      rw [hsame, htx] at htx'
      obtain rfl : tx = tx' := Except.ok.inj htx'
      exact hmined

/-- A run whose lookups hold marks only what has left the chain. -/
theorem marked_of_reliable (h : s.ReliableLookups w envs) :
    s.MarkedOnlyOffChain w (s.afterRecheck w envs) := by
  obtain ⟨hsupported, hcalls⟩ := h
  have hself : s.Rechecked w w := rechecked_self
  unfold afterRecheck worldAfter
  unfold recheckPartialFills at hcalls ⊢
  have hlist : engine.alone envs listPartialPaymentTxIDs 0
      (⟨w, .idle⟩ : View Stmt Env World LockKey) =
        (engine.reply .listPartialPaymentTxIDs (envs 0) w, 1, ⟨w, .idle⟩) :=
    alone_read_then .listPartialPaymentTxIDs rfl id envs 0 w .idle
  simp only [Prog.bind_eq, Engine.calls_bind, Engine.alone_bind, Engine.alone_mapError,
    hlist] at hcalls ⊢
  cases hids : engine.reply .listPartialPaymentTxIDs (envs 0) w with
  | error e =>
    simp only [Except.mapError]
    exact hself.marked
  | ok ids =>
    have hrest := hcalls.2 ids (by rw [hids]; rfl)
    cases ids with
    | nil => exact hself.marked
    | cons id ids =>
      have hclock : engine.alone envs timeNow 1 ⟨w, .idle⟩ = (.ok (envs 1).clock, 2, ⟨w, .idle⟩) :=
        alone_read .timeNow rfl envs 1 w .idle
      simp only [Except.mapError, alone_timeNow, Engine.calls_bind, hclock] at hrest ⊢
      have hall : engine.Calls LookupHolds envs (Prog.each (s.recheckTransaction (envs 1).clock)
          (id :: ids)) 2 ⟨w, .idle⟩ := hrest.2 (envs 1).clock rfl
      obtain ⟨n', w', hrun, hkept⟩ := each_keeps (s := s)
        (fun txID _ n w hkept hx => recheckTransaction_keeps hkept hsupported hx) hself hall
      have hfinal : (engine.alone envs (Prog.each (s.recheckTransaction (envs 1).clock)
          (id :: ids)) 2 ⟨w, .idle⟩).2.2.world = w' := congrArg (fun r => r.2.2.world) hrun
      rw [hfinal]
      exact hkept.marked

/-- Any sequence of recheck runs, whatever changes between them: as long as
every lookup of a mined transaction holds, a confirmed fill is marked only if
its transaction has left the chain. -/
theorem recheck_sound (s : Service) (w : World) (rs : List RecheckRun)
    (h : s.EachRun s.ReliableLookups w rs) :
    s.EachRun (fun w envs => s.MarkedOnlyOffChain w (s.afterRecheck w envs)) w rs := by
  induction rs generalizing w with
  | nil => exact trivial
  | cons r rs ih => exact ⟨marked_of_reliable h.1, ih _ h.2⟩

end Service

open Sample

namespace Sample

/-- A partly paid invoice: sixty of a hundred, mined and confirmed. -/
def partlyPaid : World :=
  world (invoice .pending none none none) .partialPaid [fill "0xa" 60 0 .confirmed]
    [mined "0xa" 60 true]

/-- An hour after the fill, with the lookup answered as `lookup` says. -/
def tick (lookup : Fate) : RecheckRun where
  before := id
  envs n := { clock := World.hour, fate := if n = 4 then lookup else .done }

end Sample

/-- One tick, the lookup answered. -/
theorem recheck_sound_sample :
    service.EachRun (fun w envs => service.MarkedOnlyOffChain w (service.afterRecheck w envs))
      partlyPaid [tick .done] := by
  refine Service.recheck_sound service partlyPaid [tick .done] ⟨⟨?_, ?_⟩, trivial⟩
  · intro row hrow tx htx
    obtain rfl : row = invoice .pending none none none := List.mem_singleton.mp hrow
    obtain rfl := Except.ok.inj htx
    exact ⟨⟨ether, rfl⟩, rfl⟩
  · refine ⟨?_, ?_, ?_, ?_, ?_, trivial⟩
    · exact fun _ _ _ _ h => by cases h
    · exact fun _ _ _ _ h => by cases h
    · exact fun _ _ _ _ h => by cases h
    · exact fun _ _ _ _ h => by cases h
    · rintro b h t c hc hfound
      cases hc
      obtain rfl : mined "0xa" 60 true = c := Option.some.inj hfound
      exact ⟨rfl, 12, rfl, by decide⟩

/-- The same tick with the lookup refused: the fill is given up while its
transaction lies twelve blocks deep. -/
theorem transient_error_reorgs_fill :
    ¬ ∀ (s : Service) (w : World) (rs : List RecheckRun),
      s.EachRun (fun w envs => s.MarkedOnlyOffChain w (s.afterRecheck w envs)) w rs := by
  intro h
  obtain ⟨hsound, -⟩ := h service partlyPaid [tick .refused]
  refine hsound ⟨1, "1", "0xa", 0⟩ (fill "0xa" 60 0 .confirmed) (fill "0xa" 60 0 .reorged)
    rfl rfl ?_ rfl ?_
  · decide +kernel
  · exact ⟨invoice .pending none none none, _, rfl, rfl, by decide +kernel⟩

end CryptoLink
