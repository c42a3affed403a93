import CryptoLink.Footprints
import CryptoLink.Library.Triples
import CryptoLink.Repository.Replies

/-!
# One transaction at a time

The rules of a database transaction with nothing beside it, at the statements
of the payment flow.
-/

namespace CryptoLink

open ReadCommitted StatementPrograms Engine

variable {α β : Type} {w₀ : World} {Q : World → Prop}

/-- What a body makes of the tables its transaction reads; an error drops it. -/
def InTransaction {α : Type} (w₀ : World) (Q : World → Prop) (p : Call α) (Q' : α → World → Prop) :
    Prop :=
  engine.Triple (engine.InTx w₀ Q) p (fun a => engine.InTx w₀ (Q' a)) (Dropped fun w => w = w₀)

namespace InTransaction

theorem bind {p : Call α} {f : α → Call β} {M : α → World → Prop} {Q' : β → World → Prop}
    (hp : InTransaction w₀ Q p M) (hf : ∀ a, InTransaction w₀ (M a) (f a) Q') :
    InTransaction w₀ Q (p.bind f) Q' :=
  Triple.bind hp hf

theorem ret {a : α} {Q' : α → World → Prop} (h : ∀ w, Q w → Q' a w) :
    InTransaction w₀ Q (.ret a) Q' :=
  Triple.ret fun _ hv => Triple.inTx_mono h hv

theorem fail {e : Err} {Q' : α → World → Prop} : InTransaction w₀ Q (.fail e) Q' :=
  Triple.fail fun _ hv => Triple.dropped_of_inTx hv

theorem checked {x : Except Err α} {Q' : α → World → Prop}
    (h : ∀ a, x = .ok a → ∀ w, Q w → Q' a w) : InTransaction w₀ Q (succeed x) Q' :=
  Triple.inTx_ofExcept h

theorem mapError {p : Call α} {Q' : α → World → Prop} {f : Err → Err}
    (hp : InTransaction w₀ Q p Q') : InTransaction w₀ Q (p.mapError f) Q' :=
  Triple.mapError hp

theorem weaken {p : Call α} {Q₁ : World → Prop} {Q' Q₁' : α → World → Prop}
    (hp : InTransaction w₀ Q p Q') (hpre : ∀ w, Q₁ w → Q w) (hpost : ∀ a w, Q' a w → Q₁' a w) :
    InTransaction w₀ Q₁ p Q₁' :=
  Triple.conseq hp (fun _ hv => Triple.inTx_mono hpre hv)
    (fun a _ hv => Triple.inTx_mono (hpost a) hv) fun _ hv => hv

theorem given {φ : Prop} {p : Call α} {Q' : α → World → Prop}
    (h : φ → InTransaction w₀ Q p Q') : InTransaction w₀ (fun w => Q w ∧ φ) p Q' := by
  rintro envs n v ⟨log, hsession, hw, hQ, hφ⟩
  exact h hφ envs n v ⟨log, hsession, hw, hQ⟩

/-- A statement that spends no sequence value. -/
theorem statement {st : Stmt} {Q' : Reply st → World → Prop} (hst : ∀ p, st ≠ .createTransaction p)
    (h : ∀ env w, Q w → Q' (engine.reply st env w) (engine.effect st env w w)) :
    InTransaction w₀ Q (ask .tx st) Q' := by
  refine Triple.inTx_ask (fun env => ?_) h
  rw [engine_lasting]
  split
  · rfl
  · cases st <;> first | rfl | exact absurd rfl (hst _)

theorem read {st : Stmt} {Q' : Reply st → World → Prop} (hst : st.changes = none)
    (h : ∀ env w, Q w → Q' (engine.reply st env w) w) : InTransaction w₀ Q (ask .tx st) Q' := by
  refine statement (fun p hp => ?_) fun env w hw => ?_
  · rw [hp] at hst
    cases hst
  · rw [engine_effect, World.effect_of_read hst, ite_self]
    exact h env w hw

theorem timeNow : InTransaction w₀ Q timeNow fun _ => Q :=
  Triple.inTx_beside fun env => autocommit_of_read rfl env w₀

/-- The whole transaction: an answer leaves what its body left; an error leaves
nothing, unless it is a commit that landed and was not acknowledged. -/
theorem runTx {p : Call α} {Q' : α → World → Prop}
    (hp : InTransaction w₀ (fun w => w = w₀) p Q') (envs : ℕ → Env) (n : ℕ) :
    match engine.alone envs (CryptoLink.runTx p) n ⟨w₀, .idle⟩ with
    | (.ok a, _, v) => v.session = .idle ∧ Q' a v.world
    | (.error _, _, v) => v.session = .idle ∧ (v.world = w₀ ∨
        (∃ k, (envs k).fate = .unanswered) ∧ ∃ a, Q' a v.world) := by
  have h := Triple.atomic (Err.of .database) (Err.of .database) hp envs n
  unfold CryptoLink.runTx
  generalize engine.alone envs (runTransaction _ _ p) n ⟨w₀, .idle⟩ = run at h ⊢
  obtain ⟨e | a, m, v⟩ := run
  · obtain ⟨hidle, hw | ⟨⟨k, hlands, hack⟩, hQ⟩⟩ := h
    · exact ⟨hidle, .inl hw⟩
    · refine ⟨hidle, .inr ⟨⟨k, ?_⟩, hQ⟩⟩
      cases hfate : (envs k).fate with
      | done => simp [engine, hfate] at hack
      | refused => simp [engine, hfate] at hlands
      | unanswered => rfl
  · exact h

end InTransaction

/-- The row an answered update wrote. -/
theorem effect_updateTransaction {p : UpdateTransactionParams} {env : Env} {w : World}
    {r : TransactionRow} (hdone : env.fate = .done) (htarget : w.updateTarget p = some r) :
    (engine.effect (.updateTransaction p) env w w).transactions.get p.id =
      some (World.updatedTransaction p r) := by
  obtain ⟨-, hget, -⟩ := updateTarget_eq_some htarget
  have heffect : engine.effect (.updateTransaction p) env w w =
      { w with transactions := w.transactions.modify p.id (World.updatedTransaction p)
                 (World.updatedTransaction_id p) } := by
    simp only [engine_effect, hdone, reduceCtorEq, if_false, World.effect, htarget]
  have hmodify := KeyedTables.Table.get_modify_self w.transactions p.id
    (World.updatedTransaction p) (World.updatedTransaction_id p)
  rw [heffect]
  rw [hget] at hmodify
  exact hmodify

end CryptoLink
