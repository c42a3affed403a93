import CryptoLink.Alone

/-!
# The cap on top-up extensions

`original_expires_at` is read by the statement that extends a payment and
written by no statement at all, so the cap counts from wherever `expires_at`
stands when a top-up arrives.
-/

namespace CryptoLink

open ReadCommitted StatementPrograms KeyedTables

/-- The calls that move the expiry of a payment. -/
inductive ExpiryCall where
  | lock (merchantID : Int)
  | markPartial (merchantID : Int)
  deriving DecidableEq, Repr

/-- A call with what its steps are answered. -/
structure TimedCall where
  call : ExpiryCall
  envs : ℕ → Env

def expiresAt (id : Int) (w : World) : Option Int :=
  (paymentRow id w).bind PaymentRow.expiresAt

/-- No row inserted after the migration carries `original_expires_at`. -/
def NoOriginal (id : Int) (w : World) : Prop :=
  ∀ r ∈ paymentRow id w, r.originalExpiresAt = none

/-- At most a day past the expiry the lock set. -/
def WithinCap (lockedExpiry expiry : Option Int) : Prop :=
  ∀ e ∈ lockedExpiry, ∀ t ∈ expiry, t ≤ e + 24 * World.hour

instance (id : Int) (w : World) : Decidable (NoOriginal id w) :=
  inferInstanceAs (Decidable (∀ r ∈ paymentRow id w, r.originalExpiresAt = none))

instance (lockedExpiry expiry : Option Int) : Decidable (WithinCap lockedExpiry expiry) :=
  inferInstanceAs (Decidable (∀ e ∈ lockedExpiry, ∀ t ∈ expiry, t ≤ e + 24 * World.hour))

/-- The arguments of the one statement of `markPartial` that writes. -/
def extension (merchantID id : Int) (envs : ℕ → Env) : ExtendPaymentExpiryParams where
  id := id
  merchantID := merchantID
  status := .partialPaid
  updatedAt := (envs 1).clock
  requestedExpiresAt := (envs 0).clock + partialExtensionPerFill

namespace Service

variable (s : Service)

def expiryProgram (id : Int) : ExpiryCall → Call Unit
  | .lock merchantID => s.lockPaymentOptions merchantID id
  | .markPartial merchantID => discard (markPartial merchantID id)

def afterCall (id : Int) (w : World) (t : TimedCall) : World :=
  worldAfter (s.expiryProgram id t.call) t.envs w

/-- The expiry set by the lock, once a lock has changed the row. -/
def lockedExpiry (id : Int) (w : World) (e : Option Int) (t : TimedCall) : Option Int :=
  match t.call with
  | .lock _ =>
      if paymentRow id (s.afterCall id w t) = paymentRow id w then e
      else expiresAt id (s.afterCall id w t)
  | .markPartial _ => e

/-- The cap holds now and after every call of the list. -/
def Capped (id : Int) : World → Option Int → List TimedCall → Prop
  | w, e, [] => WithinCap e (expiresAt id w)
  | w, e, t :: ts => WithinCap e (expiresAt id w) ∧
      Capped id (s.afterCall id w t) (s.lockedExpiry id w e t) ts

instance decidableCapped (id : Int) :
    ∀ (w : World) (e : Option Int) (ts : List TimedCall), Decidable (s.Capped id w e ts)
  | w, e, [] => inferInstanceAs (Decidable (WithinCap e (expiresAt id w)))
  | w, e, t :: ts =>
      have := decidableCapped id (s.afterCall id w t) (s.lockedExpiry id w e t) ts
      inferInstanceAs (Decidable (WithinCap e (expiresAt id w) ∧
        s.Capped id (s.afterCall id w t) (s.lockedExpiry id w e t) ts))

/-- A `MarkPartial` reaches the row, asks for more than a day past the locked
expiry, and finds the expiry already moved past it. -/
def Overshoots (id : Int) (w : World) (e : Option Int) (t : TimedCall) : Prop :=
  ∃ merchantID, t.call = .markPartial merchantID ∧ (t.envs 2).fate ≠ .refused ∧
    (w.paymentTarget id merchantID).isSome ∧
      ∃ e' ∈ e, e' + 24 * World.hour < (t.envs 0).clock + partialExtensionPerFill ∧
        ∀ x ∈ expiresAt id w, e' < x

/-- No call of the list overshoots. -/
def Timely (id : Int) : World → Option Int → List TimedCall → Prop
  | _, _, [] => True
  | w, e, t :: ts => ¬ Overshoots id w e t ∧
      Timely id (s.afterCall id w t) (s.lockedExpiry id w e t) ts

variable {s : Service} {id : Int} {w : World} {e : Option Int}

/-- No statement writes `original_expires_at`. -/
theorem noOriginal_effect {st : Stmt} {env : Env} {seen : World} (h : NoOriginal id w) :
    NoOriginal id (World.effect st env seen w) := by
  intro r hr
  rcases World.payment_effect_cases st env seen w id with hsame | ⟨p, -, -, -, hnew⟩ |
    ⟨p, -, -, -, hnew⟩ | ⟨p, -, -, -, -, hnew⟩
  · rw [paymentRow, hsame] at hr
    exact h r hr
  · rw [paymentRow, hnew] at hr
    obtain ⟨r₀, hr₀, rfl⟩ := Option.map_eq_some_iff.mp hr
    exact h r₀ hr₀
  · rw [paymentRow, hnew] at hr
    obtain ⟨r₀, hr₀, rfl⟩ := Option.map_eq_some_iff.mp hr
    exact h r₀ hr₀
  · rw [paymentRow, hnew] at hr
    cases hr
    rfl

theorem noOriginal_alone {α : Type} {Φ : Conn → Stmt → Prop} {p : Call α} {envs : ℕ → Env}
    (hp : OnlyWrites Φ p) (h : NoOriginal id w) : NoOriginal id (worldAfter p envs w) := by
  refine (hp.alone_keeps (J := NoOriginal id) (fun _ _ _ _ _ _ hw => noOriginal_effect hw)
    (fun _ st w' _ hw => ?_) envs (Engine.within_idle h)).world
  simpa only [NoOriginal, paymentRow, lasting_payments] using hw

/-- `markPartial` alone is its one statement. -/
theorem worldAfter_markPartial (m : Int) (envs : ℕ → Env) :
    worldAfter (discard (markPartial m id)) envs w =
      engine.autocommit (.extendPaymentExpiry (extension m id envs)) (envs 2) w := by
  unfold worldAfter discard markPartial
  simp only [Prog.bind_eq, Prog.pure_eq, Prog.bind_assoc, alone_timeNow]
  rw [Engine.alone_bind, alone_pool]
  -- what follows the statement only reads
  refine congrArg View.world (OnlyReads.alone_view ?_ envs _ _)
  refine .bind (.checked _) fun row => .bind getPaymentByID_reads fun pt => ?_
  exact .bind (.read rfl) fun _ => .bind (.ret _) fun _ => .ret ()

/-- The row after the statement: untouched, or the extended one. -/
theorem paymentRow_markPartial (m : Int) (envs : ℕ → Env) :
    paymentRow id (worldAfter (discard (markPartial m id)) envs w) =
      if (envs 2).fate ≠ .refused ∧ (w.paymentTarget id m).isSome then
        (paymentRow id w).map (World.extendedPayment (extension m id envs))
      else paymentRow id w := by
  rw [worldAfter_markPartial, Engine.autocommit, engine_effect, engine_lasting]
  by_cases hrefused : (envs 2).fate = .refused
  · simp only [hrefused, if_true, ne_eq, not_true_eq_false, false_and, if_false]
  · simp only [hrefused, if_false, ne_eq, not_false_eq_true, true_and]
    cases htarget : w.paymentTarget id m with
    | none =>
      have hnone : w.paymentTarget (extension m id envs).id (extension m id envs).merchantID =
          none := htarget
      simp only [World.effect, hnone, Option.isSome_none, Bool.false_eq_true, if_false, paymentRow,
        lasting_payments]
    | some r =>
      have hsome : w.paymentTarget (extension m id envs).id (extension m id envs).merchantID =
          some r := htarget
      simp only [World.effect, hsome, Option.isSome_some, if_true, paymentRow, lasting_payments]
      exact Table.get_modify_self _ _ _ _

/-- Where the statement puts the expiry of a row without an original one. -/
theorem extended_expiresAt {p : ExtendPaymentExpiryParams} {r : PaymentRow}
    (h : r.originalExpiresAt = none) :
    (World.extendedPayment p r).expiresAt = some (match r.expiresAt with
      | none => p.requestedExpiresAt
      | some t => min p.requestedExpiresAt (t + 24 * World.hour)) := by
  unfold World.extendedPayment
  cases r.expiresAt with
  | none => simp [h]
  | some t => simp [h]

theorem noOriginal_afterCall {t : TimedCall} (h : NoOriginal id w) :
    NoOriginal id (s.afterCall id w t) := by
  obtain ⟨call, envs⟩ := t
  cases call with
  | lock m =>
    exact noOriginal_alone
      (lockPaymentOptions_writes (Φ := fun _ _ => True) fun _ _ _ _ => trivial) h
  | markPartial m =>
    refine noOriginal_alone (Φ := fun _ _ => True) ?_ h
    exact .bind (markPartial_writes fun _ _ _ _ => trivial) fun _ => .ret ()

/-- A lock sets the expiry the cap counts from. -/
theorem withinCap_lock {m : Int} {envs : ℕ → Env} (h : WithinCap e (expiresAt id w)) :
    WithinCap (s.lockedExpiry id w e ⟨.lock m, envs⟩)
      (expiresAt id (s.afterCall id w ⟨.lock m, envs⟩)) := by
  simp only [lockedExpiry]
  split
  · rename_i hsame
    rw [expiresAt, hsame]
    exact h
  · intro e' he' t ht
    obtain rfl : e' = t := Option.some.inj (he'.symm.trans ht)
    simp only [World.hour]
    omega

/-- One top-up keeps the cap exactly if it does not overshoot. -/
theorem withinCap_markPartial_iff {m : Int} {envs : ℕ → Env} (horig : NoOriginal id w)
    (h : WithinCap e (expiresAt id w)) :
    WithinCap e (expiresAt id (s.afterCall id w ⟨.markPartial m, envs⟩)) ↔
      ¬ Overshoots id w e ⟨.markPartial m, envs⟩ := by
  have hrow : paymentRow id (worldAfter (discard (markPartial m id)) envs w) =
      if (envs 2).fate ≠ .refused ∧ (w.paymentTarget id m).isSome then
        (paymentRow id w).map (World.extendedPayment (extension m id envs))
      else paymentRow id w := paymentRow_markPartial m envs
  have hafter : s.afterCall id w ⟨.markPartial m, envs⟩ =
      worldAfter (discard (markPartial m id)) envs w := rfl
  by_cases hreach : (envs 2).fate ≠ .refused ∧ (w.paymentTarget id m).isSome
  · rw [if_pos hreach] at hrow
    -- the row is there, and its new expiry is the requested one or a day later
    obtain ⟨r, hr⟩ : ∃ r, paymentRow id w = some r := by
      have htarget := hreach.2
      unfold World.paymentTarget at htarget
      cases hget : w.payments.get id with
      | none => simp [hget] at htarget
      | some r => exact ⟨r, hget⟩
    have hexp : expiresAt id (s.afterCall id w ⟨.markPartial m, envs⟩) =
        some (match r.expiresAt with
          | none => (envs 0).clock + partialExtensionPerFill
          | some t => min ((envs 0).clock + partialExtensionPerFill) (t + 24 * World.hour)) := by
      rw [expiresAt, hafter, hrow, hr]
      exact extended_expiresAt (horig r hr)
    have hbefore : expiresAt id w = r.expiresAt := by rw [expiresAt, hr]; rfl
    rw [hexp]
    constructor
    · rintro hcap ⟨m', -, -, -, e', he', hlate, hmoved⟩
      have hlate' : e' + 24 * World.hour < (envs 0).clock + partialExtensionPerFill := hlate
      have hle := hcap e' he' _ rfl
      rw [hbefore] at hmoved
      cases hold : r.expiresAt with
      | none =>
        simp only [hold] at hle
        omega
      | some t =>
        have hgt : e' < t := hmoved t hold
        simp only [hold] at hle
        omega
    · intro hnot e' he' t ht
      obtain rfl := Option.some.inj ht
      by_contra hgt
      refine hnot ⟨m, rfl, hreach.1, hreach.2, e', he', ?_, ?_⟩
      · show e' + 24 * World.hour < (envs 0).clock + partialExtensionPerFill
        cases hold : r.expiresAt with
        | none =>
          simp only [hold] at hgt
          omega
        | some t =>
          simp only [hold] at hgt
          omega
      · intro x hx
        rw [hbefore] at hx
        have hx' : r.expiresAt = some x := hx
        simp only [hx'] at hgt
        omega
  · rw [if_neg hreach] at hrow
    have hsame : expiresAt id (s.afterCall id w ⟨.markPartial m, envs⟩) = expiresAt id w := by
      rw [expiresAt, hafter, hrow, expiresAt]
    rw [hsame]
    constructor
    · rintro - ⟨m', hm', hfate, htarget, -⟩
      cases hm'
      exact hreach ⟨hfate, htarget⟩
    · intro _
      exact h

/-- Of a payment created after the migration, locked and topped up in any order
and at any times: the expiry stays within a day of the locked one exactly if no
top-up overshoots. -/
theorem extension_capped_iff (s : Service) (id : Int) (w : World) (ts : List TimedCall)
    (h : NoOriginal id w) : s.Capped id w none ts ↔ s.Timely id w none ts := by
  have hrun : ∀ (ts : List TimedCall) (w : World) (e : Option Int), NoOriginal id w →
      WithinCap e (expiresAt id w) → (s.Capped id w e ts ↔ s.Timely id w e ts) := by
    intro ts
    induction ts with
    | nil =>
      intro w e _ hcap
      exact ⟨fun _ => trivial, fun _ => hcap⟩
    | cons t ts ih =>
      intro w e horig hcap
      have horig' := noOriginal_afterCall (s := s) (t := t) horig
      obtain ⟨call, envs⟩ := t
      cases call with
      | lock m =>
        have hnot : ¬ Overshoots id w e ⟨.lock m, envs⟩ := by
          rintro ⟨m', hm', -⟩
          cases hm'
        have hlocked : WithinCap (s.lockedExpiry id w e ⟨.lock m, envs⟩)
            (expiresAt id (s.afterCall id w ⟨.lock m, envs⟩)) := withinCap_lock hcap
        have hrest := ih _ _ horig' hlocked
        exact ⟨fun hall => ⟨hnot, hrest.mp hall.2⟩, fun hall => ⟨hcap, hrest.mpr hall.2⟩⟩
      | markPartial m =>
        have hstep : WithinCap e (expiresAt id (s.afterCall id w ⟨.markPartial m, envs⟩)) ↔
            ¬ Overshoots id w e ⟨.markPartial m, envs⟩ := withinCap_markPartial_iff horig hcap
        constructor
        · rintro ⟨-, hall⟩
          have hcap' : WithinCap e (expiresAt id (s.afterCall id w ⟨.markPartial m, envs⟩)) := by
            cases ts with
            | nil => exact hall
            | cons t' ts' => exact hall.1
          exact ⟨hstep.mp hcap', (ih _ _ horig' hcap').mp hall⟩
        · rintro ⟨hnot, hall⟩
          have hcap' := hstep.mpr hnot
          exact ⟨hcap, (ih _ _ horig' hcap').mpr hall⟩
  refine hrun ts w none h ?_
  intro e' he'
  cases he'

end Service

open Sample

namespace Sample

/-- A customer and a chosen currency: what a lock needs. -/
def unlocked : World :=
  { world (invoice .pending none none none) .pending [] [] with
    payments := noMoney.payments.insert { purchase .pending with customerID := some 9 } }

def lockAt (t : Int) : TimedCall := ⟨.lock 7, fun _ => { clock := t }⟩

def topUpAt (t : Int) : TimedCall := ⟨.markPartial 7, fun _ => { clock := t }⟩

end Sample

/-- Locked, and topped up ten minutes later. -/
theorem extension_capped_iff_sample :
    service.Capped 3 unlocked none [lockAt 0, topUpAt (10 * minute)] ↔
      service.Timely 3 unlocked none [lockAt 0, topUpAt (10 * minute)] := by
  refine Service.extension_capped_iff service 3 unlocked _ ?_
  decide

/-- Locked until minute 20 and topped up every half hour: the forty-ninth top-up
moves the expiry to minute 1500, which is 1480 after the locked one. -/
theorem extension_slides :
    ¬ ∀ (s : Service) (id : Int) (w : World) (ts : List TimedCall), NoOriginal id w →
      s.Capped id w none ts := by
  intro h
  have hcap := h service 3 unlocked
    (lockAt 0 :: (List.range 49).map fun k : ℕ =>
      topUpAt (((k : Int) + 1) * (30 * minute))) (by decide)
  revert hcap
  decide +kernel

end CryptoLink
