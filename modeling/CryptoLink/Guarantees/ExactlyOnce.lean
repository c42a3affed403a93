import CryptoLink.Guarantees.Credits

/-!
# One credit for each transaction

`Confirm` reads the status without a lock and writes it without a condition, so
two of them can pass the same check. The merchant is credited once in every run
in which no statement reaches the row after it has been completed: the credit
shares a database transaction with the update to `completed`, and that update
holds the row until both are committed.
-/

namespace CryptoLink

open ReadCommitted System

def NotCompleted (o : Option TransactionRow) : Prop := ¬ Completed o

instance : DecidablePred NotCompleted := fun o =>
  match o with
  | none => isTrue nofun
  | some r => inferInstanceAs (Decidable (¬ r.status = .completed))

namespace Service

variable (s : Service)

/-- Whatever statement runs next leaves the row `id` alone or finds it not yet
completed. -/
def WritesBeforeCompletion (id : Int) : State → Event Env Move Operation → Prop :=
  Respects s.system (transactionRow id) (.transaction id) NotCompleted

instance (id : Int) (cfg : State) (e : Event Env Move Operation) :
    Decidable (s.WritesBeforeCompletion id cfg e) :=
  inferInstanceAs (Decidable (Respects s.system (transactionRow id) (.transaction id) NotCompleted
    cfg e))

/-- The credits so far are in step with the committed row. -/
structure CreditedOnce (id : Int) (cfg : State) : Prop where
  guarded : Guarded s.system (transactionRow id) (.transaction id) NotCompleted cfg
  keeps : Keeps s.system (exactlyOnce id) cfg
  sound : AllViews (fun _ => Sound id) cfg
  counted : credits id cfg.world = 0 ∨
    credits id cfg.world ≤ 1 ∧ Completed (transactionRow id cfg.world)

variable {s} {id : Int} {cfg : State}

theorem present_perform {c : Cmd Stmt} {env : Env} {v : Snapshot} (h : Present id v.world) :
    Present id (engine.perform c env v).2.world := by
  rcases engine.perform_cases c env v with ⟨st, -, heq⟩ | ⟨log, -, -, heq⟩ |
    ⟨st, log, -, -, heq⟩ | ⟨heq, -⟩
  · rw [heq]
    exact present_autocommit h st env
  · rw [heq]
    exact present_replay h
  · rw [heq]
    exact present_lasting h st env
  · rwa [heq]

/-- One call adds no credit, or one together with the completion of a row that
was not completed. -/
theorem CreditedOnce.credits_exec (h : s.CreditedOnce id cfg) {i : ℕ} {env : Env}
    {th : Thread Stmt Reply Env World LockKey Err Operation} {c : Cmd Stmt}
    {k : Answer Reply c → Call Unit} (hex : s.system.Executes cfg i env th c k) :
    credits id (engine.perform c env (th.view cfg.world)).2.world ≤ credits id cfg.world ∨
      NotCompleted (transactionRow id cfg.world) ∧
        credits id (engine.perform c env (th.view cfg.world)).2.world ≤ credits id cfg.world + 1 ∧
        Completed (transactionRow id (engine.perform c env (th.view cfg.world)).2.world) := by
  have hguar := (h.keeps.executes hex trivial).1
  have hsound := h.sound i th hex.here
  rcases engine.perform_cases c env (th.view cfg.world) with ⟨st, hauto, heq⟩ |
    ⟨log, -, hlog, heq⟩ | ⟨st, log, -, -, heq⟩ | ⟨heq, -⟩
  · left
    rw [heq]
    exact credits_autocommit (hguar.2 st hauto) env cfg.world
  · rw [heq]
    have hle := credits_replay_le id log cfg.world
    rcases hsound log hlog with hnone | ⟨hone, ⟨hsome, hall⟩, hpresent⟩
    · left
      rw [hnone] at hle
      exact hle
    · right
      rw [hone] at hle
      refine ⟨?_, hle, completed_replay hpresent hall (.inl hsome)⟩
      obtain ⟨e, hmem, hcompletes⟩ := hsome
      exact h.guarded.standing i th log hex.here hlog ⟨e, hmem, hcompletes.1⟩
  · left
    rw [heq]
    exact (credits_lasting id st env cfg.world).le
  · left
    rw [heq]
    exact le_rfl

theorem present_step (e : Event Env Move Operation) (h : Present id cfg.world) :
    Present id (s.system.step cfg e).world := by
  cases e with
  | start op => exact h
  | move m => simpa only [System.step, Service.system, Present, transactionRow,
      Move.apply_transactions] using h
  | crash i => cases hth : cfg.threads[i]? <;> simpa [System.step, hth] using h
  | exec i env =>
    rcases exec_cases s.system cfg i env with hsame | ⟨th, c, k, hex⟩
    · rwa [hsame]
    · rw [hex.step_eq]
      exact present_perform (v := th.view cfg.world) h

theorem CreditedOnce.keeps_step (h : s.CreditedOnce id cfg) (e : Event Env Move Operation) :
    Keeps s.system (exactlyOnce id) (s.system.step cfg e) := by
  cases e with
  | start op => exact h.keeps.start ((program_meets op cfg.world).mono fun _ _ _ => trivial)
  | move m => exact h.keeps.move fun j other _ => ⟨rfl, present_step (.move m)⟩
  | crash i => exact h.keeps.crash i
  | exec i env =>
    exact h.keeps.exec (fun _ _ _ _ => trivial) fun th c k _ j other _ _ =>
      ⟨rfl, present_perform (v := th.view cfg.world)⟩

theorem CreditedOnce.credits_step (h : s.CreditedOnce id cfg) (e : Event Env Move Operation) :
    credits id (s.system.step cfg e).world ≤ credits id cfg.world ∨
      NotCompleted (transactionRow id cfg.world) ∧
        credits id (s.system.step cfg e).world ≤ credits id cfg.world + 1 ∧
        Completed (transactionRow id (s.system.step cfg e).world) := by
  cases e with
  | start op => exact .inl le_rfl
  | move m => exact .inl (by simp [System.step, Service.system, credits, Move.apply_auditLog])
  | crash i => cases hth : cfg.threads[i]? <;> exact .inl (by simp [System.step, hth])
  | exec i env =>
    rcases exec_cases s.system cfg i env with hsame | ⟨th, c, k, hex⟩
    · rw [hsame]
      exact .inl le_rfl
    · rw [hex.step_eq]
      exact h.credits_exec hex

theorem move_transactionRow (s : Service) (id : Int) (m : Move) (w : World) :
    transactionRow id (s.system.move m w) = transactionRow id w :=
  congrArg (fun t => KeyedTables.Table.get t id) (Move.apply_transactions m w)

theorem CreditedOnce.step (h : s.CreditedOnce id cfg) {e : Event Env Move Operation}
    (hok : s.WritesBeforeCompletion id cfg e) : s.CreditedOnce id (s.system.step cfg e) := by
  have hframe : Framed s.system.engine (transactionRow id) (.transaction id) :=
    transaction_framed id
  refine ⟨h.guarded.step hframe (s.move_transactionRow id) hok, h.keeps_step e, ?_, ?_⟩
  · refine h.sound.step (fun _ => ?_) (fun i env th c k _ hex => ?_) fun i th _ hth => ?_
    · intro log hlog
      cases hlog
    · exact (h.keeps.executes hex trivial).1.1
    · exact hth.stable rfl (present_step e)
  · rcases h.credits_step e with hle | ⟨hopen, hle, hdone⟩
    · rcases h.counted with hzero | ⟨hone, hdone⟩
      · exact .inl (Nat.le_zero.mp (hle.trans hzero.le))
      · have hsame := h.guarded.frozen_step hframe (s.move_transactionRow id) hok
          (not_not.mpr hdone)
        refine .inr ⟨hle.trans hone, ?_⟩
        exact (congrArg Completed hsame).mpr hdone
    · rcases h.counted with hzero | ⟨-, hdone'⟩
      · exact .inr ⟨by rwa [hzero] at hle, hdone⟩
      · exact absurd hdone' hopen

/-- The merchant is credited at most once on behalf of a transaction, however
the calls are interleaved, if no statement reaches the completed row. -/
theorem merchant_credited_at_most_once (s : Service) (w : World) (id : Int) (es : Run)
    (hw : credits id w = 0) (hok : s.system.Along (s.WritesBeforeCompletion id) ⟨w, []⟩ es) :
    credits id (s.system.run ⟨w, []⟩ es).world ≤ 1 := by
  have hstart : s.CreditedOnce id ⟨w, []⟩ :=
    ⟨guarded_of_no_threads w, keeps_of_no_threads w, allViews_of_no_threads w, .inl hw⟩
  have hend := Along.invariant s.system (fun _ _ h hok => h.step hok) hok hstart
  rcases hend.counted with hzero | ⟨hone, -⟩
  · exact hzero.le.trans (Nat.zero_le 1)
  · exact hone

end Service

open Sample

theorem merchant_credited_at_most_once_sample :
    credits 1 (service.system.run ⟨awaitingReceipt, []⟩
      (.start (.checkIncoming 1) :: steps 0 30 ++ .start (.checkIncoming 1) :: steps 1 30)).world
        ≤ 1 :=
  Service.merchant_credited_at_most_once service awaitingReceipt 1 _ (by decide) (by decide +kernel)

/-- Two ticks of the receipt poller: both have read the status before either
has written it. -/
def overlappingChecks : Run :=
  [.start (.checkIncoming 1), .start (.checkIncoming 1)] ++ steps 0 4 ++ steps 1 4 ++
    steps 0 30 ++ steps 1 30

theorem merchant_credited_twice :
    ¬ ∀ (s : Service) (w : World) (id : Int) (es : Run),
      (∀ r ∈ transactionRow id w, r.type = .incoming ∧ r.merchantID ≠ 0) → credits id w = 0 →
        credits id (s.system.run ⟨w, []⟩ es).world ≤ 1 := by
  intro h
  have honce := h service awaitingReceipt 1 overlappingChecks (by decide) (by decide)
  revert honce
  decide +kernel

end CryptoLink
